import Genjishimada.Library.Parties
import Genjishimada.Library.Run
import Genjishimada.Services.Maps

/-!
# The edit request protocol

A request is created after a look for another pending one, and resolved after it has been
read: its changes are applied, in a transaction or two of their own, and then the verdict is
written whatever the request has become.  Nothing is locked in between, so that calls which
overlap, and verdicts given again, can leave two requests pending, apply changes twice or
apply the changes of a request that ends up rejected.  A run in which nothing of this
happens is one whose steps are `Exclusive` (`editProtocol_run_iff`).
-/

namespace Genjishimada.Maps

open Library Sdk Repository Services

/-! ## The calls -/

/-- What `create_edit_request` is called with, and the map it has found. -/
structure NewRequest where
  mapId : Nat
  code : String
  proposedChanges : MapPatchRequest
  createdBy : Nat

/-- What `resolve_edit_request` is called with, and the request it has read. -/
structure Verdict where
  request : EditRequest
  accepted : Bool
  resolvedBy : Nat
  rejectionReason : Option String := none
  toPlaytest : Bool := false

/-- How far a resolution has come. -/
inductive VerdictStage where
  | read
  | /-- The map of an accepted request is there. -/
    fetched
  | /-- The transaction of the archive change is over. -/
    archived
  | /-- The transaction of the other changes is over. -/
    applied
  | /-- The verdict is written. -/
    marked
deriving DecidableEq

/-- A call in flight. -/
inductive EditCall where
  | /-- The map is there. -/
    found (r : NewRequest)
  | /-- The map has no pending request. -/
    checked (r : NewRequest)
  | resolving (v : Verdict) (stage : VerdictStage)
  | /-- Returned or raised. -/
    ended

/-- The database, the calls, and two counts that no code reads: how often the changes of a
request have been applied, and how often it has been resolved. -/
structure ProtocolState where
  d : PlaytestDb
  calls : List EditCall := []
  applications : Nat → Nat
  verdicts : Nat → Nat

inductive ProtocolLabel where
  | create (code : String) (proposedChanges : MapPatchRequest) (createdBy : Nat)
  | resolve (editId : Nat) (accepted : Bool) (resolvedBy : Nat) (rejectionReason : Option String)
      (toPlaytest : Bool)
  | /-- The next statement or transaction of a call. -/
    advance (k : Nat)
  | /-- What a call awaits raises. -/
    fail (k : Nat)

/-- One more for this request. -/
def bump (count : Nat → Nat) (editId : Nat) : Nat → Nat :=
  Function.update count editId (count editId + 1)

/-- A call goes on to its next stage. -/
def ProtocolState.goto (s : ProtocolState) (k : Nat) (c : EditCall) (d : PlaytestDb) :
    ProtocolState :=
  { s with d, calls := s.calls.set k c }

/-- The first transaction of the changes commits. -/
def ProtocolState.apply (s : ProtocolState) (v : Verdict) : ProtocolState :=
  { s with applications := bump s.applications v.request.id }

/-- The verdict is written. -/
def ProtocolState.mark (s : ProtocolState) (k : Nat) (v : Verdict) : ProtocolState :=
  { s with
    d := s.d.resolveEditRequest v.request.id v.accepted v.resolvedBy v.rejectionReason
    calls := s.calls.set k (.resolving v .marked)
    verdicts := bump s.verdicts v.request.id }

/-- The next statement or transaction of a call. -/
def advance (s : ProtocolState) (k : Nat) : EditCall → Option ProtocolState
  | .found r =>
      match s.d.checkPendingEditRequest r.mapId with
      | some _ => some (s.goto k .ended s.d)
      | none => some (s.goto k (.checked r) s.d)
  | .checked r =>
      some (s.goto k .ended (s.d.createEditRequest r.mapId r.code r.proposedChanges r.createdBy))
  | .resolving v .read =>
      if v.accepted then
        match fetchOriginal v.request s.d with
        | .error _ => some (s.goto k .ended s.d)
        | .ok _ => some (s.goto k (.resolving v .fetched) s.d)
      else some (s.mark k v)
  | .resolving v .fetched =>
      match applyArchive v.request s.d with
      | .error _ => some (s.goto k .ended s.d)
      | .ok d =>
          let s := s.goto k (.resolving v .archived) d
          some (if v.request.proposedChanges.archived.isSome then s.apply v else s)
  | .resolving v .archived =>
      match applyRemaining v.request s.d with
      | .error _ => some (s.goto k .ended s.d)
      | .ok d =>
          let s := s.goto k (.resolving v .applied) d
          some (if v.request.proposedChanges.archived.isSome then s else s.apply v)
  | .resolving v .applied => some (s.mark k v)
  | .resolving v .marked =>
      some (s.goto k .ended
        (if v.accepted && v.toPlaytest then sendAfterEdit v.request s.d else s.d))
  | .ended => none

/-- One step of the calls. -/
def protocolStep (s : ProtocolState) : ProtocolLabel → Option ProtocolState
  | .create code proposedChanges createdBy =>
      match s.d.lookupMapId (some code) with
      | none => some s
      | some mapId =>
          some { s with calls := s.calls ++ [.found { mapId, code, proposedChanges, createdBy }] }
  | .resolve editId accepted resolvedBy rejectionReason toPlaytest =>
      match s.d.editRequests.get? editId with
      | none => some s
      | some request =>
          some { s with
            calls := s.calls ++ [.resolving
              { request, accepted, resolvedBy, rejectionReason, toPlaytest } .read] }
  | .advance k => (s.calls[k]?).bind (advance s k)
  | .fail k => (s.calls[k]?).map fun _ ↦ s.goto k .ended s.d

/-- Before any call; what has been resolved counts as resolved once. -/
def protocolStart (d : PlaytestDb) : ProtocolState where
  d := d
  applications := fun id ↦ if (d.editRequests.get? id).any (·.accepted = some true) then 1 else 0
  verdicts := fun id ↦ if (d.editRequests.get? id).any (·.accepted.isSome) then 1 else 0

/-! ## The protocol -/

/-- The call has applied changes of this request and is still to write its verdict. -/
def EditCall.Applying (editId : Nat) : EditCall → Prop
  | .resolving v .archived =>
      v.request.id = editId ∧ v.request.proposedChanges.archived.isSome = true
  | .resolving v .applied => v.request.id = editId
  | _ => False

/-- The stored verdict of a request; there is none if there is no such request. -/
def storedVerdict (s : ProtocolState) (editId : Nat) : Option (Option Bool) :=
  (s.d.editRequests.get? editId).map (·.accepted)

/-- A map has one pending request at most, a request is applied and resolved once at most, and
one that has been applied is accepted, as soon as the call that applies it has said so. -/
structure EditProtocol (s : ProtocolState) : Prop where
  pending : ∀ mapId,
    (s.d.editRequests.rows.countP fun e ↦ e.mapId = mapId && e.accepted.isNone) ≤ 1
  applied : ∀ id, s.applications id ≤ 1
  resolved : ∀ id, s.verdicts id ≤ 1
  accepted : ∀ id, 0 < s.applications id → storedVerdict s id = some (some true) ∨
    storedVerdict s id = some none ∧ ∃ c ∈ s.calls, c.Applying id

/-- The request is pending and no call is applying its changes. -/
def Undecided (s : ProtocolState) (editId : Nat) : Prop :=
  storedVerdict s editId = some none ∧ ∀ c ∈ s.calls, ¬ c.Applying editId

/-- What the next statement of a call relies on. -/
def EditCall.Exclusive (s : ProtocolState) : EditCall → Prop
  | .checked r => ∀ e ∈ s.d.editRequests.rows, e.mapId = r.mapId → e.accepted ≠ none
  | .resolving v .read => v.accepted = false → Undecided s v.request.id
  | .resolving v .fetched =>
      v.request.proposedChanges.archived.isSome = true →
        (∃ d, applyArchive v.request s.d = .ok d) → Undecided s v.request.id
  | .resolving v .archived =>
      if v.request.proposedChanges.archived.isSome then ∃ d, applyRemaining v.request s.d = .ok d
      else (∃ d, applyRemaining v.request s.d = .ok d) → Undecided s v.request.id
  | _ => True

/-- A request is inserted while none is pending, changes are applied and a rejection is written
while the request is undecided, and no call that has applied changes raises before its
verdict. -/
def Exclusive (s : ProtocolState) : ProtocolLabel → Prop
  | .advance k => ∀ c, s.calls[k]? = some c → c.Exclusive s
  | .fail k => ∀ c, s.calls[k]? = some c → ∀ id, ¬ c.Applying id
  | _ => True

/-! ## What holds at every moment -/

/-- What the counts and the calls have to do with the rows. -/
structure ProtocolInv (s : ProtocolState) : Prop where
  verdict : ∀ v stage, EditCall.resolving v stage ∈ s.calls →
    (s.d.editRequests.get? v.request.id).isSome ∧
      (stage ≠ .read → stage ≠ .marked → v.accepted = true)
  fresh : ∀ id, storedVerdict s id = none → s.applications id = 0 ∧ s.verdicts id = 0
  counted : ∀ id x, storedVerdict s id = some x → (s.verdicts id = 0 ↔ x = none)
  applied : ∀ id, storedVerdict s id = some (some true) → 0 < s.applications id
  applying : ∀ c ∈ s.calls, ∀ id, c.Applying id → 0 < s.applications id
  alone : ∀ (j k : Nat) (x y : EditCall), s.calls[j]? = some x → s.calls[k]? = some y →
    (∃ id, x.Applying id ∧ y.Applying id) → j = k
  undecided : ∀ c ∈ s.calls, ∀ id, c.Applying id → storedVerdict s id = some none

/-- What a step can do, and when that keeps the protocol. -/
inductive ProtocolMove (s : ProtocolState) : ProtocolState → Prop → Prop
  | stay : ProtocolMove s s True
  | join {c : EditCall} (hc : ∀ id, ¬ c.Applying id)
      (hrow : ∀ v stage, c = .resolving v stage →
        (s.d.editRequests.get? v.request.id).isSome ∧ stage = .read) :
      ProtocolMove s { s with calls := s.calls ++ [c] } True
  | /-- A call goes on and touches no request. -/
    goto {k : Nat} {c c' : EditCall} {d : PlaytestDb} (hk : s.calls[k]? = some c)
      (hsame : ∀ id, c'.Applying id ↔ c.Applying id)
      (hrow : ∀ v stage, c' = .resolving v stage →
        (s.d.editRequests.get? v.request.id).isSome ∧
          (stage ≠ .read → stage ≠ .marked → v.accepted = true))
      (hd : d.editRequests = s.d.editRequests) : ProtocolMove s (s.goto k c' d) True
  | /-- A call that has applied changes raises. -/
    abort {k id : Nat} {c : EditCall} (hk : s.calls[k]? = some c) (hc : c.Applying id) :
      ProtocolMove s (s.goto k .ended s.d) False
  | insert {k : Nat} {r : NewRequest} (hk : s.calls[k]? = some (.checked r)) :
      ProtocolMove s
        (s.goto k .ended (s.d.createEditRequest r.mapId r.code r.proposedChanges r.createdBy))
        (∀ e ∈ s.d.editRequests.rows, e.mapId = r.mapId → e.accepted ≠ none)
  | /-- The first changes of a request are applied. -/
    apply {k : Nat} {c : EditCall} {v : Verdict} {stage : VerdictStage} {d : PlaytestDb}
      (hk : s.calls[k]? = some c)
      (hc : ∀ id, ¬ c.Applying id)
      (hc' : ∀ id, (EditCall.resolving v stage).Applying id ↔ id = v.request.id)
      (hrow : (s.d.editRequests.get? v.request.id).isSome ∧ v.accepted = true)
      (hd : d.editRequests = s.d.editRequests) :
      ProtocolMove s ((s.goto k (.resolving v stage) d).apply v) (Undecided s v.request.id)
  | accept {k : Nat} {v : Verdict} (hk : s.calls[k]? = some (.resolving v .applied))
      (haccepted : v.accepted = true) : ProtocolMove s (s.mark k v) True
  | reject {k : Nat} {v : Verdict} (hk : s.calls[k]? = some (.resolving v .read))
      (haccepted : v.accepted = false) :
      ProtocolMove s (s.mark k v) (Undecided s v.request.id)

section Moves

variable {s s' : ProtocolState} {d d' : PlaytestDb} {e : EditRequest} {ok : Prop}

theorem applyArchive_editRequests (hs : applyArchive e d = .ok d') :
    d'.editRequests = d.editRequests := by
  rw [applyArchive] at hs
  split at hs
  · rw [setArchiveStatus] at hs
    split at hs
    · cases hs
    · cases hs
      rw [PlaytestDb.setArchiveStatus]
      split <;> rfl
  · cases hs
    rfl

theorem updateCoreMap_editRequests {code : String} {data : MapPatchRequest}
    (hs : d.updateCoreMap code data = some d') : d'.editRequests = d.editRequests := by
  have hrelink : ∀ (d : PlaytestDb) (code : String) (newCode : Option String),
      (d.relink code newCode).editRequests = d.editRequests := by
    intro d code newCode
    rw [PlaytestDb.relink]
    split <;> rfl
  rw [PlaytestDb.updateCoreMap] at hs
  split at hs
  · cases hs
    rfl
  · split at hs
    · split at hs
      · cases hs
      · cases hs
        exact hrelink _ _ _
    · cases hs
      rfl

theorem applyRemaining_editRequests (hs : applyRemaining e d = .ok d') :
    d'.editRequests = d.editRequests := by
  rw [applyRemaining] at hs
  split at hs
  · cases hs
    rfl
  · simp only [updateMap] at hs
    split at hs
    · split at hs
      · cases hs
      · rename_i updated hupdated
        cases hs
        have hpatched := updateCoreMap_editRequests hupdated
        cases (remainingChanges e.proposedChanges).medals <;>
          simp only [patchMedals, PlaytestDb.replaceMedals, patchInitialDifficulty]
        all_goals split <;> exact hpatched
    · cases hs

theorem sendAfterEdit_editRequests (e : EditRequest) (d : PlaytestDb) :
    (sendAfterEdit e d).editRequests = d.editRequests := by
  rw [sendAfterEdit]
  split
  · rfl
  · split
    · rename_i hsent
      simp only [sendToPlaytest] at hsent
      split at hsent
      · split at hsent
        · cases hsent
        · split at hsent
          · cases hsent
          · rename_i hconverted
            split at hsent
            · cases hsent
            · rename_i hupdated
              cases hsent
              rw [convertToLegacyInternal] at hconverted
              split at hconverted
              · cases hconverted
              · cases hconverted
                have hsame := updateCoreMap_editRequests hupdated
                rw [PlaytestDb.createPlaytestMetaPartial]
                split <;> exact hsame
      · cases hsent
    · rfl

theorem exclusive_advance_iff {k : Nat} {c : EditCall} (hk : s.calls[k]? = some c) :
    Exclusive s (.advance k) ↔ c.Exclusive s := by
  constructor
  · intro hall
    exact hall c hk
  · intro hc c' hk'
    rw [hk] at hk'
    rw [← Option.some.inj hk']
    exact hc

/-- What the next statement of a call does. -/
theorem advance_move (h : ProtocolInv s) {k : Nat} {c : EditCall} (hk : s.calls[k]? = some c)
    (hs : advance s k c = some s') : ∃ ok, ProtocolMove s s' ok ∧ (ok ↔ c.Exclusive s) := by
  have hmem : c ∈ s.calls := List.mem_of_getElem? hk
  -- a call that has touched nothing raises
  have hraise : (∀ id, ¬ c.Applying id) → ProtocolMove s (s.goto k .ended s.d) True := by
    intro hc
    exact .goto hk (fun id ↦ iff_of_false not_false (hc id)) (fun _ _ heq ↦ by cases heq) rfl
  cases c with
  | found r =>
      rw [advance] at hs
      split at hs
      · obtain rfl := Option.some.inj hs
        exact ⟨True, hraise fun _ ↦ not_false, Iff.rfl⟩
      · obtain rfl := Option.some.inj hs
        exact ⟨True, .goto hk (fun _ ↦ Iff.rfl) (fun _ _ heq ↦ by cases heq) rfl, Iff.rfl⟩
  | checked r =>
      obtain rfl := Option.some.inj hs
      exact ⟨_, .insert hk, Iff.rfl⟩
  | ended => cases hs
  | resolving v stage =>
      obtain ⟨hrow, haccepted⟩ := h.verdict v stage hmem
      cases stage with
      | read =>
          rw [advance] at hs
          split at hs
          · rename_i hacc
            have hok : True ↔ (EditCall.resolving v .read).Exclusive s :=
              iff_of_true trivial fun hrejected ↦ by rw [hacc] at hrejected; cases hrejected
            split at hs
            · obtain rfl := Option.some.inj hs
              exact ⟨True, hraise fun _ ↦ not_false, hok⟩
            · obtain rfl := Option.some.inj hs
              refine ⟨True, .goto hk (fun _ ↦ Iff.rfl) ?_ rfl, hok⟩
              rintro _ _ ⟨⟩
              exact ⟨hrow, fun _ _ ↦ hacc⟩
          · rename_i hrejected
            have hrejected : v.accepted = false := Bool.not_eq_true _ ▸ hrejected
            obtain rfl := Option.some.inj hs
            exact ⟨_, .reject hk hrejected, (imp_iff_right hrejected).symm⟩
      | fetched =>
          have hacc := haccepted (by simp) (by simp)
          cases harchive : applyArchive v.request s.d with
          | error err =>
              simp only [advance, harchive] at hs
              obtain rfl := Option.some.inj hs
              refine ⟨True, hraise fun _ ↦ not_false, iff_of_true trivial ?_⟩
              rintro _ ⟨d, hd⟩
              rw [harchive] at hd
              cases hd
          | ok d =>
              simp only [advance, harchive] at hs
              obtain rfl := Option.some.inj hs
              have hd := applyArchive_editRequests harchive
              split
              · rename_i hchange
                refine ⟨_, .apply hk (fun _ ↦ not_false) ?_ ⟨hrow, hacc⟩ hd, ?_⟩
                · intro id
                  exact (and_iff_left hchange).trans eq_comm
                · rw [EditCall.Exclusive, imp_iff_right hchange, imp_iff_right ⟨d, harchive⟩]
              · rename_i hchange
                refine ⟨True, .goto hk ?_ ?_ hd, iff_of_true trivial fun hc ↦ absurd hc hchange⟩
                · intro id
                  exact iff_of_false (fun hc ↦ hchange hc.2) not_false
                · rintro _ _ ⟨⟩
                  exact ⟨hrow, fun _ _ ↦ hacc⟩
      | archived =>
          have hacc := haccepted (by simp) (by simp)
          rw [EditCall.Exclusive]
          cases hremaining : applyRemaining v.request s.d with
          | error err =>
              simp only [advance, hremaining] at hs
              obtain rfl := Option.some.inj hs
              split
              · rename_i hchange
                refine ⟨False, .abort hk ⟨rfl, hchange⟩, iff_of_false not_false ?_⟩
                rintro ⟨d, hd⟩
                cases hd
              · rename_i hchange
                refine ⟨True, hraise fun id hc ↦ hchange hc.2, iff_of_true trivial ?_⟩
                rintro ⟨d, hd⟩
                cases hd
          | ok d =>
              simp only [advance, hremaining] at hs
              obtain rfl := Option.some.inj hs
              have hd := applyRemaining_editRequests hremaining
              by_cases hchange : v.request.proposedChanges.archived.isSome = true
              · rw [if_pos hchange, if_pos hchange]
                refine ⟨True, .goto hk ?_ ?_ hd, iff_of_true trivial ⟨d, rfl⟩⟩
                · intro id
                  exact (and_iff_left hchange).symm
                · rintro _ _ ⟨⟩
                  exact ⟨hrow, fun _ _ ↦ hacc⟩
              · rw [if_neg hchange, if_neg hchange]
                refine ⟨_, .apply hk ?_ ?_ ⟨hrow, hacc⟩ hd, ?_⟩
                · intro id hc
                  exact hchange hc.2
                · intro id
                  exact eq_comm
                · rw [imp_iff_right ⟨d, rfl⟩]
      | applied =>
          obtain rfl := Option.some.inj hs
          exact ⟨True, .accept hk (haccepted (by simp) (by simp)), Iff.rfl⟩
      | marked =>
          obtain rfl := Option.some.inj hs
          refine ⟨True, .goto hk (fun _ ↦ Iff.rfl) (fun _ _ heq ↦ by cases heq) ?_, Iff.rfl⟩
          split
          · exact sendAfterEdit_editRequests _ _
          · rfl

/-- A step is one of the moves, under the condition of its label. -/
theorem protocolStep_move (h : ProtocolInv s) {l : ProtocolLabel} (hs : protocolStep s l = some s') :
    ∃ ok, ProtocolMove s s' ok ∧ (ok ↔ Exclusive s l) := by
  cases l with
  | create code changes createdBy =>
      simp only [protocolStep] at hs
      split at hs
      · obtain rfl := Option.some.inj hs
        exact ⟨True, .stay, Iff.rfl⟩
      · obtain rfl := Option.some.inj hs
        exact ⟨True, .join (fun _ ↦ not_false) (fun _ _ heq ↦ by cases heq), Iff.rfl⟩
  | resolve editId accepted resolvedBy reason toPlaytest =>
      simp only [protocolStep] at hs
      split at hs
      · obtain rfl := Option.some.inj hs
        exact ⟨True, .stay, Iff.rfl⟩
      · rename_i request hrequest
        obtain rfl := Option.some.inj hs
        refine ⟨True, .join (fun _ ↦ not_false) ?_, Iff.rfl⟩
        rintro _ _ ⟨⟩
        refine ⟨?_, rfl⟩
        have hid : request.id = editId := Table.key_of_get? hrequest
        show (s.d.editRequests.get? request.id).isSome = true
        rw [hid, hrequest]
        rfl
  | advance k =>
      obtain ⟨c, hk, hadvance⟩ := Option.bind_eq_some_iff.mp hs
      obtain ⟨ok, hmove, hok⟩ := advance_move h hk hadvance
      exact ⟨ok, hmove, hok.trans (exclusive_advance_iff hk).symm⟩
  | fail k =>
      obtain ⟨c, hk, rfl⟩ := Option.map_eq_some_iff.mp hs
      have hall : Exclusive s (.fail k) ↔ ∀ id, ¬ c.Applying id := by
        constructor
        · intro hall
          exact hall c hk
        · intro hc c' hk'
          rw [hk] at hk'
          rw [← Option.some.inj hk']
          exact hc
      by_cases hc : ∃ id, c.Applying id
      · obtain ⟨id, hid⟩ := hc
        exact ⟨False, .abort hk hid, iff_of_false not_false fun hnone ↦ hall.mp hnone id hid⟩
      · refine ⟨True, .goto hk ?_ (fun _ _ heq ↦ by cases heq) rfl, ?_⟩
        · intro id
          exact iff_of_false not_false (not_exists.mp hc id)
        · exact iff_of_true trivial (hall.mpr (not_exists.mp hc))

/-! ## What a move does to the verdicts -/

theorem storedVerdict_congr (hd : s'.d.editRequests = s.d.editRequests) (id : Nat) :
    storedVerdict s' id = storedVerdict s id := by
  rw [storedVerdict, storedVerdict, hd]

theorem storedVerdict_insert (s : ProtocolState) (k : Nat) (c : EditCall) (r : NewRequest)
    (id : Nat) :
    storedVerdict
        (s.goto k c (s.d.createEditRequest r.mapId r.code r.proposedChanges r.createdBy)) id =
      if id = s.d.editRequests.nextId then some none else storedVerdict s id := by
  show ((s.d.editRequests.insert _ _).get? id).map _ = _
  rw [Table.get?_insert]
  split <;> rfl

theorem storedVerdict_mark {v : Verdict} {k id : Nat}
    (hrow : (s.d.editRequests.get? v.request.id).isSome) :
    storedVerdict (s.mark k v) id =
      if id = v.request.id then some (some v.accepted) else storedVerdict s id := by
  have hmodify : storedVerdict (s.mark k v) id = ((s.d.editRequests.get? id).map fun e ↦
      if e.id = v.request.id then some v.accepted else e.accepted) := by
    have hrows : (s.mark k v).d.editRequests = s.d.editRequests.modify
        (fun e ↦ e.id = v.request.id) fun e ↦ { e with
          accepted := some v.accepted, resolvedBy := some v.resolvedBy
          rejectionReason := v.rejectionReason } := rfl
    rw [storedVerdict, hrows, Table.get?_modify, Option.map_map]
    apply Option.map_congr
    intro e _
    simp only [Function.comp_apply, decide_eq_true_eq]
    split <;> rfl
  rw [hmodify]
  by_cases hid : id = v.request.id
  · subst hid
    obtain ⟨e, he⟩ := Option.isSome_iff_exists.mp hrow
    rw [if_pos rfl, he, Option.map_some]
    exact congrArg some (if_pos (Table.key_of_get? he))
  · rw [if_neg hid]
    apply Option.map_congr
    intro e he
    rw [if_neg]
    intro heq
    exact hid ((Table.key_of_get? he).symm.trans heq)

theorem bump_self (count : Nat → Nat) (id : Nat) : bump count id id = count id + 1 :=
  Function.update_self ..

theorem bump_of_ne (count : Nat → Nat) {id id' : Nat} (h : id' ≠ id) :
    bump count id id' = count id' :=
  Function.update_of_ne h ..

/-- Of an undecided request nothing is applied. -/
theorem EditProtocol.applications_eq_zero (hp : EditProtocol s) {id : Nat} (h : Undecided s id) :
    s.applications id = 0 := by
  by_contra hpos
  rcases hp.accepted id (Nat.pos_of_ne_zero hpos) with haccepted | ⟨_, c, hc, happlying⟩
  · rw [h.1] at haccepted
    cases haccepted
  · exact h.2 c hc happlying

/-- A request that is there, with nothing applied and not rejected, is undecided. -/
theorem ProtocolInv.undecided_of (h : ProtocolInv s) {id : Nat}
    (hrow : (s.d.editRequests.get? id).isSome) (hzero : s.applications id = 0)
    (hrejected : storedVerdict s id ≠ some (some false)) : Undecided s id := by
  obtain ⟨e, he⟩ := Option.isSome_iff_exists.mp hrow
  refine ⟨?_, fun c hc happlying ↦ ?_⟩
  · have hstored : storedVerdict s id = some e.accepted := by rw [storedVerdict, he, Option.map_some]
    cases haccepted : e.accepted with
    | none => rw [hstored, haccepted]
    | some b =>
        rw [haccepted] at hstored
        cases b with
        | false => exact absurd hstored hrejected
        | true =>
            have hpos := h.applied id hstored
            omega
  · have hpos := h.applying c hc id happlying
    omega

/-- A verdict leaves no more requests pending. -/
theorem countP_mark_le {k : Nat} {v : Verdict} (mapId : Nat) :
    ((s.mark k v).d.editRequests.rows.countP fun e ↦ e.mapId = mapId && e.accepted.isNone) ≤
      s.d.editRequests.rows.countP fun e ↦ e.mapId = mapId && e.accepted.isNone := by
  show (s.d.editRequests.rows.map _).countP _ ≤ _
  rw [List.countP_map]
  apply List.countP_mono_left
  intro e _ hpending
  simp only [Function.comp_apply] at hpending
  split at hpending
  · simp at hpending
  · exact hpending

/-- A call that is not applying the changes of a request leaves those that are. -/
theorem exists_applying_set {k id : Nat} {c : EditCall} (c' : EditCall)
    (hk : s.calls[k]? = some c) (hc : c.Applying id → c'.Applying id)
    (h : ∃ c ∈ s.calls, c.Applying id) : ∃ c ∈ s.calls.set k c', c.Applying id :=
  exists_mem_set hk hc h

/-- The protocol holds after a move exactly under its condition. -/
theorem ProtocolMove.editProtocol_iff (hmove : ProtocolMove s s' ok) (h : ProtocolInv s)
    (hp : EditProtocol s) : EditProtocol s' ↔ ok := by
  cases hmove with
  | stay => exact iff_of_true hp trivial
  | @join c hc hrow =>
      refine iff_of_true ⟨hp.pending, hp.applied, hp.resolved, fun id hpos ↦ ?_⟩ trivial
      refine (hp.accepted id hpos).imp_right fun hpending ↦ ⟨hpending.1, ?_⟩
      obtain ⟨c, hc, happlying⟩ := hpending.2
      exact ⟨c, List.mem_append_left _ hc, happlying⟩
  | @goto k c c' d hk hsame hrow hd =>
      refine iff_of_true ⟨?_, hp.applied, hp.resolved, fun id hpos ↦ ?_⟩ trivial
      · show ∀ mapId, (d.editRequests.rows.countP _) ≤ 1
        rw [hd]
        exact hp.pending
      · rw [storedVerdict_congr (s := s) hd]
        exact (hp.accepted id hpos).imp_right fun hpending ↦
          ⟨hpending.1, exists_applying_set c' hk (hsame id).mpr hpending.2⟩
  | @abort k id c hk hc =>
      refine iff_of_false (fun hp' ↦ ?_) not_false
      have hmem := List.mem_of_getElem? hk
      have hstored : storedVerdict (s.goto k .ended s.d) id = some none :=
        h.undecided c hmem id hc
      rcases hp'.accepted id (h.applying c hmem id hc) with haccepted | ⟨_, x, hx, happlying⟩
      · rw [hstored] at haccepted
        cases haccepted
      · obtain ⟨j, hj⟩ := List.mem_iff_getElem?.mp hx
        rcases getElem?_set_cases hk hj with ⟨_, rfl⟩ | ⟨hne, hj⟩
        · exact happlying
        · exact hne (h.alone j k x c hj hk ⟨id, happlying, hc⟩)
  | @insert k r hk =>
      have hcount : ∀ mapId, ((s.goto k .ended (s.d.createEditRequest r.mapId r.code
          r.proposedChanges r.createdBy)).d.editRequests.rows.countP
            fun e ↦ e.mapId = mapId && e.accepted.isNone) =
          (s.d.editRequests.rows.countP fun e ↦ e.mapId = mapId && e.accepted.isNone) +
            if r.mapId = mapId then 1 else 0 := by
        intro mapId
        show (s.d.editRequests.rows ++ [_]).countP _ = _
        rw [List.countP_append, List.countP_singleton]
        simp
      constructor
      · intro hp' e he hmap hnone
        have hone := hp'.pending r.mapId
        rw [hcount, if_pos rfl] at hone
        have hzero : (s.d.editRequests.rows.countP
            fun e ↦ e.mapId = r.mapId && e.accepted.isNone) = 0 := by omega
        have hnot := List.countP_eq_zero.mp hzero e he
        simp [hmap, hnone] at hnot
      · intro hfree
        refine ⟨fun mapId ↦ ?_, hp.applied, hp.resolved, fun id hpos ↦ ?_⟩
        · rw [hcount]
          split
          · rename_i hmap
            subst hmap
            rw [List.countP_eq_zero.mpr]
            intro e he hpending
            rw [Bool.and_eq_true, decide_eq_true_eq, Option.isNone_iff_eq_none] at hpending
            exact hfree e he hpending.1 hpending.2
          · exact hp.pending mapId
        · have hold := hp.accepted id hpos
          have hne : id ≠ s.d.editRequests.nextId := by
            rintro rfl
            have hfresh : storedVerdict s s.d.editRequests.nextId = none := by
              rw [storedVerdict, Table.get?_nextId, Option.map_none]
            have hzero := (h.fresh _ hfresh).1
            have hpos : 0 < s.applications s.d.editRequests.nextId := hpos
            omega
          rw [storedVerdict_insert, if_neg hne]
          exact hold.imp_right fun hpending ↦
            ⟨hpending.1, exists_applying_set .ended hk False.elim hpending.2⟩
  | @apply k c v stage d hk hc hc' hrow hd =>
      have hstored : ∀ id, storedVerdict ((s.goto k (.resolving v stage) d).apply v) id =
          storedVerdict s id := storedVerdict_congr hd
      constructor
      · intro hp'
        have hone := hp'.applied v.request.id
        have hbump : bump s.applications v.request.id v.request.id ≤ 1 := hone
        rw [bump_self] at hbump
        apply h.undecided_of hrow.1 (by omega)
        intro hrejected
        have hpos : 0 < ((s.goto k (.resolving v stage) d).apply v).applications v.request.id := by
          show 0 < bump s.applications v.request.id v.request.id
          rw [bump_self]
          omega
        rcases hp'.accepted v.request.id hpos with haccepted | ⟨hpending, _⟩
        · rw [hstored, hrejected] at haccepted
          cases haccepted
        · rw [hstored, hrejected] at hpending
          cases hpending
      · intro hundecided
        have hzero := hp.applications_eq_zero hundecided
        refine ⟨?_, fun id ↦ ?_, hp.resolved, fun id hpos ↦ ?_⟩
        · show ∀ mapId, (d.editRequests.rows.countP _) ≤ 1
          rw [hd]
          exact hp.pending
        · show bump s.applications v.request.id id ≤ 1
          by_cases hid : id = v.request.id
          · rw [hid, bump_self]
            omega
          · rw [bump_of_ne _ hid]
            exact hp.applied id
        · rw [hstored]
          by_cases hid : id = v.request.id
          · subst hid
            exact .inr ⟨hundecided.1, _, mem_set_self hk, (hc' _).mpr rfl⟩
          · have hpos : 0 < bump s.applications v.request.id id := hpos
            rw [bump_of_ne _ hid] at hpos
            exact (hp.accepted id hpos).imp_right fun hpending ↦
              ⟨hpending.1, exists_applying_set _ hk (fun happ ↦ absurd happ (hc id)) hpending.2⟩
  | @accept k v hk haccepted =>
      have hmem := List.mem_of_getElem? hk
      have hrow := (h.verdict v .applied hmem).1
      have hpending := h.undecided _ hmem v.request.id rfl
      have hzero := (h.counted v.request.id none hpending).mpr rfl
      refine iff_of_true ⟨fun mapId ↦ ?_, hp.applied, fun id ↦ ?_, fun id hpos ↦ ?_⟩ trivial
      · exact (countP_mark_le mapId).trans (hp.pending mapId)
      · show bump s.verdicts v.request.id id ≤ 1
        by_cases hid : id = v.request.id
        · rw [hid, bump_self]
          omega
        · rw [bump_of_ne _ hid]
          exact hp.resolved id
      · rw [storedVerdict_mark hrow]
        by_cases hid : id = v.request.id
        · rw [if_pos hid, haccepted]
          exact .inl rfl
        · rw [if_neg hid]
          exact (hp.accepted id hpos).imp_right fun hpending ↦
            ⟨hpending.1, exists_applying_set _ hk (fun happ ↦ hid (Eq.symm happ)) hpending.2⟩
  | @reject k v hk haccepted =>
      have hrow := (h.verdict v .read (List.mem_of_getElem? hk)).1
      constructor
      · intro hp'
        have hone : bump s.verdicts v.request.id v.request.id ≤ 1 := hp'.resolved v.request.id
        rw [bump_self] at hone
        obtain ⟨e, he⟩ := Option.isSome_iff_exists.mp hrow
        have hstored : storedVerdict s v.request.id = some e.accepted := by
          rw [storedVerdict, he, Option.map_some]
        refine ⟨?_, fun c hc happlying ↦ ?_⟩
        · rw [hstored, (h.counted _ _ hstored).mp (by omega)]
        · have hpos := h.applying c hc _ happlying
          rcases hp'.accepted v.request.id hpos with hacc | ⟨hpending, _⟩
          · rw [storedVerdict_mark hrow, if_pos rfl, haccepted] at hacc
            cases hacc
          · rw [storedVerdict_mark hrow, if_pos rfl] at hpending
            cases hpending
      · intro hundecided
        have hzero := hp.applications_eq_zero hundecided
        have hcount := (h.counted v.request.id none hundecided.1).mpr rfl
        refine ⟨fun mapId ↦ ?_, hp.applied, fun id ↦ ?_, fun id hpos ↦ ?_⟩
        · exact (countP_mark_le mapId).trans (hp.pending mapId)
        · show bump s.verdicts v.request.id id ≤ 1
          by_cases hid : id = v.request.id
          · rw [hid, bump_self]
            omega
          · rw [bump_of_ne _ hid]
            exact hp.resolved id
        · have hpos : 0 < s.applications id := hpos
          have hid : id ≠ v.request.id := by
            rintro rfl
            omega
          rw [storedVerdict_mark hrow, if_neg hid]
          exact (hp.accepted id hpos).imp_right fun hpending ↦
            ⟨hpending.1, exists_applying_set _ hk False.elim hpending.2⟩

section Set

variable {k : Nat} {c c' : EditCall} (hk : s.calls[k]? = some c)
  (hsame : ∀ id, c'.Applying id → c.Applying id)

include hk hsame

/-- Whoever applies changes after a step of a call that begins nothing did so before. -/
theorem applying_of_set {x : EditCall} {id : Nat} (hx : x ∈ s.calls.set k c')
    (happ : x.Applying id) : ∃ y ∈ s.calls, y.Applying id := by
  rcases List.mem_or_eq_of_mem_set hx with hx | rfl
  · exact ⟨x, hx, happ⟩
  · exact ⟨c, List.mem_of_getElem? hk, hsame id happ⟩

theorem ProtocolInv.alone_set (h : ProtocolInv s) (i j : Nat) (x y : EditCall)
    (hi : (s.calls.set k c')[i]? = some x) (hj : (s.calls.set k c')[j]? = some y)
    (hboth : ∃ id, x.Applying id ∧ y.Applying id) : i = j := by
  refine eq_of_getElem?_set (R := fun x y : EditCall ↦ ∃ id, x.Applying id ∧ y.Applying id)
    hk (fun y ↦ ?_) (fun x ↦ ?_) h.alone i j x y hi hj hboth
  · rintro ⟨id, hc', hy⟩
    exact ⟨id, hsame id hc', hy⟩
  · rintro ⟨id, hx, hc'⟩
    exact ⟨id, hx, hsame id hc'⟩

/-- The calls after a step that begins no application; the rows keep the ids, and a pending
request of which changes are being applied stays pending. -/
theorem ProtocolInv.set (h : ProtocolInv s) (hcalls : s'.calls = s.calls.set k c')
    (happlications : s'.applications = s.applications)
    (hrow : ∀ v stage, c' = .resolving v stage →
      (s.d.editRequests.get? v.request.id).isSome ∧
        (stage ≠ .read → stage ≠ .marked → v.accepted = true))
    (hrows : ∀ id, (s.d.editRequests.get? id).isSome → (s'.d.editRequests.get? id).isSome)
    (hfresh : ∀ id, storedVerdict s' id = none → s'.applications id = 0 ∧ s'.verdicts id = 0)
    (hcounted : ∀ id x, storedVerdict s' id = some x → (s'.verdicts id = 0 ↔ x = none))
    (happlied : ∀ id, storedVerdict s' id = some (some true) → 0 < s'.applications id)
    (hpending : ∀ x ∈ s'.calls, ∀ id, x.Applying id → storedVerdict s id = some none →
      storedVerdict s' id = some none) : ProtocolInv s' := by
  refine ⟨fun v stage hmem ↦ ?_, hfresh, hcounted, happlied, fun x hx id happ ↦ ?_, ?_,
    fun x hx id happ ↦ ?_⟩
  · rw [hcalls] at hmem
    rcases List.mem_or_eq_of_mem_set hmem with hmem | heq
    · exact ⟨hrows _ (h.verdict v stage hmem).1, (h.verdict v stage hmem).2⟩
    · exact ⟨hrows _ (hrow v stage heq.symm).1, (hrow v stage heq.symm).2⟩
  · rw [hcalls] at hx
    obtain ⟨y, hy, happ⟩ := applying_of_set hk hsame hx happ
    rw [happlications]
    exact h.applying y hy id happ
  · rw [hcalls]
    exact h.alone_set hk hsame
  · apply hpending x hx id happ
    rw [hcalls] at hx
    obtain ⟨y, hy, happ⟩ := applying_of_set hk hsame hx happ
    exact h.undecided y hy id happ

end Set

/-- A verdict that has been written counts as one. -/
theorem ProtocolInv.mark (h : ProtocolInv s) {k : Nat} {v : Verdict} {stage : VerdictStage}
    (hk : s.calls[k]? = some (.resolving v stage))
    (hsingle : ∀ x ∈ s.calls.set k (.resolving v .marked), ¬ x.Applying v.request.id)
    (happlied : v.accepted = true → 0 < s.applications v.request.id) :
    ProtocolInv (s.mark k v) := by
  have hrow := (h.verdict v stage (List.mem_of_getElem? hk)).1
  have hstored : ∀ id, storedVerdict (s.mark k v) id =
      if id = v.request.id then some (some v.accepted) else storedVerdict s id :=
    fun _ ↦ storedVerdict_mark hrow
  refine h.set hk (fun _ ↦ False.elim) rfl rfl ?_ ?_ ?_ ?_ ?_ ?_
  · rintro _ _ ⟨⟩
    exact ⟨hrow, fun _ hne ↦ absurd rfl hne⟩
  · intro id hsome
    have hthere : (storedVerdict (s.mark k v) id).isSome := by
      rw [hstored]
      split
      · rfl
      · rwa [storedVerdict, Option.isSome_map]
    rwa [storedVerdict, Option.isSome_map] at hthere
  · intro id hnone
    rw [hstored] at hnone
    by_cases hid : id = v.request.id
    · rw [if_pos hid] at hnone
      cases hnone
    · rw [if_neg hid] at hnone
      refine ⟨(h.fresh id hnone).1, ?_⟩
      show bump s.verdicts v.request.id id = 0
      rw [bump_of_ne _ hid]
      exact (h.fresh id hnone).2
  · intro id x hx
    rw [hstored] at hx
    show bump s.verdicts v.request.id id = 0 ↔ _
    by_cases hid : id = v.request.id
    · rw [if_pos hid] at hx
      rw [hid, bump_self, ← Option.some.inj hx]
      exact iff_of_false (Nat.succ_ne_zero _) (by simp)
    · rw [if_neg hid] at hx
      rw [bump_of_ne _ hid]
      exact h.counted id x hx
  · intro id htrue
    rw [hstored] at htrue
    by_cases hid : id = v.request.id
    · rw [if_pos hid, Option.some_inj, Option.some_inj] at htrue
      rw [hid]
      exact happlied htrue
    · rw [if_neg hid] at htrue
      exact h.applied id htrue
  · intro x hx id happ hpending
    have hid : id ≠ v.request.id := by
      rintro rfl
      exact hsingle x hx happ
    rw [hstored, if_neg hid]
    exact hpending

/-- What the counts and the calls have to do with the rows is kept as well. -/
theorem ProtocolMove.inv (hmove : ProtocolMove s s' ok) (h : ProtocolInv s)
    (hok : ok) : ProtocolInv s' := by
  cases hmove with
  | stay => exact h
  | @join c hc hrow =>
      refine ⟨fun v stage hmem ↦ ?_, h.fresh, h.counted, h.applied, fun x hx ↦ ?_,
        fun j k x y hj hk hboth ↦ ?_, fun x hx ↦ ?_⟩
      · rcases List.mem_append.mp hmem with hmem | hmem
        · exact h.verdict v stage hmem
        · obtain ⟨hrow, rfl⟩ := hrow v stage (List.mem_singleton.mp hmem).symm
          exact ⟨hrow, fun hne ↦ absurd rfl hne⟩
      · rcases List.mem_append.mp hx with hx | hx
        · exact h.applying x hx
        · rw [List.mem_singleton.mp hx]
          exact fun id happ ↦ absurd happ (hc id)
      · obtain ⟨id, hx, hy⟩ := hboth
        rcases getElem?_append_cases hj with hj | ⟨_, rfl⟩
        · rcases getElem?_append_cases hk with hk | ⟨_, rfl⟩
          · exact h.alone j k x y hj hk ⟨id, hx, hy⟩
          · exact absurd hy (hc id)
        · exact absurd hx (hc id)
      · rcases List.mem_append.mp hx with hx | hx
        · exact h.undecided x hx
        · rw [List.mem_singleton.mp hx]
          exact fun id happ ↦ absurd happ (hc id)
  | @goto k c c' d hk hsame hrow hd =>
      have hstored : ∀ id, storedVerdict (s.goto k c' d) id = storedVerdict s id :=
        storedVerdict_congr hd
      refine h.set hk (fun id ↦ (hsame id).mp) rfl rfl hrow ?_ ?_ ?_ ?_ ?_
      · intro id hsome
        show (d.editRequests.get? id).isSome = true
        rwa [hd]
      · intro id
        rw [hstored]
        exact h.fresh id
      · intro id
        rw [hstored]
        exact h.counted id
      · intro id
        rw [hstored]
        exact h.applied id
      · intro x _ id _ hpending
        rwa [hstored]
  | abort hk hc => exact hok.elim
  | @insert k r hk =>
      have hstored := storedVerdict_insert s k .ended r
      have hfresh : storedVerdict s s.d.editRequests.nextId = none := by
        rw [storedVerdict, Table.get?_nextId, Option.map_none]
      refine h.set hk (fun _ ↦ False.elim) rfl rfl (fun _ _ heq ↦ by cases heq) ?_ ?_ ?_ ?_ ?_
      · intro id hsome
        have hinsert : (s.goto k .ended (s.d.createEditRequest r.mapId r.code r.proposedChanges
            r.createdBy)).d.editRequests.get? id = _ := Table.get?_insert _ _
        rw [hinsert]
        split
        · rfl
        · exact hsome
      · intro id hnone
        rw [hstored] at hnone
        by_cases hid : id = s.d.editRequests.nextId
        · rw [if_pos hid] at hnone
          cases hnone
        · rw [if_neg hid] at hnone
          exact h.fresh id hnone
      · intro id x hx
        rw [hstored] at hx
        by_cases hid : id = s.d.editRequests.nextId
        · rw [if_pos hid] at hx
          rw [← Option.some.inj hx, hid]
          exact iff_of_true (h.fresh _ hfresh).2 rfl
        · rw [if_neg hid] at hx
          exact h.counted id x hx
      · intro id htrue
        rw [hstored] at htrue
        by_cases hid : id = s.d.editRequests.nextId
        · rw [if_pos hid] at htrue
          cases htrue
        · rw [if_neg hid] at htrue
          exact h.applied id htrue
      · intro x _ id _ hpending
        rw [hstored]
        split
        · rfl
        · exact hpending
  | @apply k c v stage d hk hc hc' hrow hd =>
      have hstored : ∀ id, storedVerdict ((s.goto k (.resolving v stage) d).apply v) id =
          storedVerdict s id := storedVerdict_congr hd
      have hle : ∀ id, s.applications id ≤ bump s.applications v.request.id id := by
        intro id
        by_cases hid : id = v.request.id
        · rw [hid, bump_self]
          exact Nat.le_succ _
        · rw [bump_of_ne _ hid]
      have hother : ∀ x ∈ s.calls.set k (.resolving v stage), ∀ id, x.Applying id →
          id = v.request.id ∨ x ∈ s.calls := by
        intro x hx id happ
        rcases List.mem_or_eq_of_mem_set hx with hx | rfl
        · exact .inr hx
        · exact .inl ((hc' id).mp happ)
      refine ⟨fun v' stage' hmem ↦ ?_, fun id hnone ↦ ?_, fun id ↦ ?_, fun id htrue ↦ ?_,
        fun x hx id happ ↦ ?_, fun i j x y hi hj hboth ↦ ?_, fun x hx id happ ↦ ?_⟩
      · show (d.editRequests.get? v'.request.id).isSome ∧ _
        rw [hd]
        rcases List.mem_or_eq_of_mem_set hmem with hmem | heq
        · exact h.verdict v' stage' hmem
        · obtain ⟨rfl, rfl⟩ := EditCall.resolving.inj heq
          exact ⟨hrow.1, fun _ _ ↦ hrow.2⟩
      · rw [hstored] at hnone
        refine ⟨?_, (h.fresh id hnone).2⟩
        show bump s.applications v.request.id id = 0
        rw [bump_of_ne]
        · exact (h.fresh id hnone).1
        · rintro rfl
          rw [hok.1] at hnone
          cases hnone
      · rw [hstored]
        exact h.counted id
      · rw [hstored] at htrue
        exact (h.applied id htrue).trans_le (hle id)
      · rcases hother x hx id happ with rfl | hx
        · show 0 < bump s.applications v.request.id v.request.id
          rw [bump_self]
          exact Nat.succ_pos _
        · exact (h.applying x hx id happ).trans_le (hle id)
      · obtain ⟨id, hx, hy⟩ := hboth
        rcases getElem?_set_cases hk hi with ⟨hik, rfl⟩ | ⟨_, hi⟩
        · rcases getElem?_set_cases hk hj with ⟨hjk, _⟩ | ⟨_, hj⟩
          · rw [hik, hjk]
          · rw [(hc' id).mp hx] at hy
            exact absurd hy (hok.2 y (List.mem_of_getElem? hj))
        · rcases getElem?_set_cases hk hj with ⟨hjk, rfl⟩ | ⟨_, hj⟩
          · rw [(hc' id).mp hy] at hx
            exact absurd hx (hok.2 x (List.mem_of_getElem? hi))
          · exact h.alone i j x y hi hj ⟨id, hx, hy⟩
      · rw [hstored]
        rcases hother x hx id happ with rfl | hx
        · exact hok.1
        · exact h.undecided x hx id happ
  | @accept k v hk haccepted =>
      refine h.mark hk (fun x hx happ ↦ ?_) fun _ ↦ h.applying _ (List.mem_of_getElem? hk) _ rfl
      obtain ⟨j, hj⟩ := List.mem_iff_getElem?.mp hx
      rcases getElem?_set_cases hk hj with ⟨_, rfl⟩ | ⟨hne, hj⟩
      · exact happ
      · exact hne (h.alone j k x _ hj hk ⟨_, happ, rfl⟩)
  | @reject k v hk haccepted =>
      refine h.mark hk (fun x hx happ ↦ ?_) fun htrue ↦ by rw [haccepted] at htrue; cases htrue
      rcases List.mem_or_eq_of_mem_set hx with hx | rfl
      · exact hok.2 x hx happ
      · exact happ

end Moves

/-! ## Runs -/

/-- Before any call the counts are those of the stored verdicts. -/
theorem protocolInv_start (d : PlaytestDb) : ProtocolInv (protocolStart d) := by
  have hstored : ∀ id, storedVerdict (protocolStart d) id =
      (d.editRequests.get? id).map (·.accepted) := fun _ ↦ rfl
  refine ⟨fun _ _ hmem ↦ (List.not_mem_nil hmem).elim, fun id hnone ↦ ?_, fun id x hx ↦ ?_,
    fun id htrue ↦ ?_, fun _ hc ↦ (List.not_mem_nil hc).elim, fun j _ x _ hj ↦ ?_,
    fun _ hc ↦ (List.not_mem_nil hc).elim⟩
  · rw [hstored, Option.map_eq_none_iff] at hnone
    simp [protocolStart, hnone]
  · rw [hstored, Option.map_eq_some_iff] at hx
    obtain ⟨e, he, rfl⟩ := hx
    cases haccepted : e.accepted <;> simp [protocolStart, he, haccepted]
  · rw [hstored, Option.map_eq_some_iff] at htrue
    obtain ⟨e, he, haccepted⟩ := htrue
    simp [protocolStart, he, haccepted]
  · exact (List.not_mem_nil (List.mem_of_getElem? hj)).elim

/-- Before any call the protocol holds if no map has two pending requests. -/
theorem editProtocol_start {d : PlaytestDb} (hpending : ∀ mapId,
    (d.editRequests.rows.countP fun e ↦ e.mapId = mapId && e.accepted.isNone) ≤ 1) :
    EditProtocol (protocolStart d) := by
  refine ⟨hpending, fun id ↦ ?_, fun id ↦ ?_, fun id hpos ↦ .inl ?_⟩
  · show (if _ then 1 else 0) ≤ 1
    split <;> omega
  · show (if _ then 1 else 0) ≤ 1
    split <;> omega
  · have hpos : 0 < if (d.editRequests.get? id).any (·.accepted = some true) then 1 else 0 := hpos
    split at hpos
    · rename_i hany
      rw [Option.any_eq_true] at hany
      obtain ⟨e, he, haccepted⟩ := hany
      show (d.editRequests.get? id).map _ = _
      rw [he, Option.map_some, of_decide_eq_true haccepted]
    · omega

/-- However creations and resolutions interleave: every state of a run has one pending request
of a map at most, and requests that are applied and resolved once at most and applied only if
they are accepted, exactly when every step of the run is exclusive. -/
theorem editProtocol_run_iff {d : PlaytestDb} {s : ProtocolState} {ls : List ProtocolLabel}
    (hpending : ∀ mapId,
      (d.editRequests.rows.countP fun e ↦ e.mapId = mapId && e.accepted.isNone) ≤ 1) :
    Run (fun s l s' ↦ protocolStep s l = some s' ∧ EditProtocol s') (protocolStart d) ls s ↔
      Run (Guarded Exclusive (ofStep protocolStep)) (protocolStart d) ls s := by
  apply Run.congr (fun s ↦ ProtocolInv s ∧ EditProtocol s)
  · rintro s l s' ⟨hinv, hp⟩
    rw [Guarded, ofStep, and_comm]
    apply and_congr_left
    intro hs
    obtain ⟨ok, hmove, hok⟩ := protocolStep_move hinv hs
    rw [hmove.editProtocol_iff hinv hp, hok]
  · rintro s l s' ⟨hinv, hp⟩ ⟨hs, hp'⟩
    obtain ⟨ok, hmove, _⟩ := protocolStep_move hinv hs
    exact ⟨hmove.inv hinv ((hmove.editProtocol_iff hinv hp).mp hp'), hp'⟩
  · exact ⟨protocolInv_start d, editProtocol_start hpending⟩

/-- A map without requests. -/
def requestedMap : PlaytestDb where
  db := { maps := Table.empty.insert fun id ↦ { id, code := some "AAAA", difficulty := .easy } }

theorem requestedMap_pending (mapId : Nat) :
    (requestedMap.editRequests.rows.countP fun e ↦ e.mapId = mapId && e.accepted.isNone) ≤ 1 :=
  Nat.zero_le 1

/-- Two creations look for a pending request before either inserts one. -/
def createdTwice : List ProtocolLabel :=
  [.create "AAAA" { mapName := some "Paris" } 5, .create "AAAA" { mapName := some "Oasis" } 6,
    .advance 0, .advance 1, .advance 0, .advance 1]

/-- A request is accepted, and after that rejected. -/
def overruled : List ProtocolLabel :=
  [.create "AAAA" { mapName := some "Paris" } 5, .advance 0, .advance 0,
    .resolve 1 true 6 none false, .advance 1, .advance 1, .advance 1, .advance 1,
    .resolve 1 false 7 none false, .advance 2]

theorem createdTwice_pending :
    (createdTwice.foldlM protocolStep (protocolStart requestedMap)).map (fun s ↦
      s.d.editRequests.rows.countP fun e ↦ e.mapId = 1 && e.accepted.isNone) = some 2 := by
  decide +kernel

theorem overruled_verdict :
    (overruled.foldlM protocolStep (protocolStart requestedMap)).map (fun s ↦
      (s.applications 1, s.verdicts 1, storedVerdict s 1)) = some (1, 2, some (some false)) := by
  decide +kernel

/-- Two requests are pending; and a request is resolved twice. -/
theorem createdTwice_not_protocol :
    (∃ s, createdTwice.foldlM protocolStep (protocolStart requestedMap) = some s ∧
        ¬ EditProtocol s) ∧
      ∃ s, overruled.foldlM protocolStep (protocolStart requestedMap) = some s ∧
        ¬ EditProtocol s := by
  obtain ⟨s, hs, hcount⟩ := Option.map_eq_some_iff.mp createdTwice_pending
  obtain ⟨s', hs', hverdict⟩ := Option.map_eq_some_iff.mp overruled_verdict
  refine ⟨⟨s, hs, fun hp ↦ ?_⟩, s', hs', fun hp ↦ ?_⟩
  · have hone := hp.pending 1
    omega
  · have hone := hp.resolved 1
    rw [(Prod.mk.inj (Prod.mk.inj hverdict).2).1] at hone
    omega

/-- The rule at the first of the runs. -/
theorem createdTwice_run_iff :
    ∃ s, createdTwice.foldlM protocolStep (protocolStart requestedMap) = some s ∧
      (Run (fun s l s' ↦ protocolStep s l = some s' ∧ EditProtocol s')
          (protocolStart requestedMap) createdTwice s ↔
        Run (Guarded Exclusive (ofStep protocolStep)) (protocolStart requestedMap)
          createdTwice s) := by
  obtain ⟨s, hs, _⟩ := Option.map_eq_some_iff.mp createdTwice_pending
  exact ⟨s, hs, editProtocol_run_iff requestedMap_pending⟩

end Genjishimada.Maps
