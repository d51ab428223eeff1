import Genjishimada.Library.Parties
import Genjishimada.Library.Run
import Genjishimada.Sdk.Events

/-!
# The XP of a verdict

`_process_verification_status_change` grants the XP of a verified run in the middle of a
row of remote calls.  Completion and Record XP leave no mark at all; World Record XP marks
the run with `wr_xp_check`, after the grant, and a later handler looks for a marked run of
the user on the map before it grants.

A handler that raises after its grant has its claim deleted, so the message can be
replayed, and the replay grants again; and a handler that looks before another one's mark
can be seen grants World Record XP a second time.  Nothing else can: in a run whose grants
avoid both (`Orderly`) XP is granted once, and only in such a run (`xp_granted_once_iff`).
-/

namespace Genjishimada.Bot

open Library Sdk

/-! ## The handler -/

/-- A run and the verdict of its event. -/
structure VerdictRun where
  userId : Nat
  mapId : Nat
  legacy : Bool := false
  /-- `event.verified` -/
  verified : Bool := true
deriving DecidableEq, Repr

/-- What the handler reads of a run and of its map. -/
structure Submission where
  completion : Bool := false
  hypotheticalRank : Option Nat := none
  video : Option String := none
  verificationId : Option Nat := none
  /-- `map_data.official` -/
  official : Bool := true
deriving DecidableEq, Repr

/-- The kind of XP the run is due, if any. -/
def Submission.xp (data : Submission) : Option XpType :=
  if data.completion && data.official then some .completion
  else if !data.completion && data.hypotheticalRank = some 1 && data.official then
    some .worldRecord
  else if !data.completion && data.hypotheticalRank.any (1 < ·) && data.official then some .record
  else none

/-- Where the handler is. -/
inductive VerdictPhase where
  | /-- Up to the XP: the two reads, the message and the notification. -/
    reading
  | /-- About to look for earlier World Record XP. -/
    checking
  | granting (type : XpType)
  | /-- World Record XP is granted, and `wr_xp_check` is to be set. -/
    marking
  | /-- `_emit_newsfeed_for_record` -/
    announcing
  | /-- Map mastery, the verification message, the skill roles. -/
    finishing
  | returned
  | /-- Raised, and the claim is to be deleted. -/
    raised
  | released
deriving DecidableEq, Repr

/-- One call of the handler.  No code reads `granted`, and `looked` are the marked runs there
were when it looked for earlier World Record XP. -/
structure Attempt where
  completion : Nat
  phase : VerdictPhase := .reading
  data : Submission := {}
  looked : List Nat := []
  granted : Option XpType := none
deriving DecidableEq, Repr

/-- What the API keeps: the claims `completion:verify:{id}`, the runs with `wr_xp_check`, and
the grants for verdicts in the order they were made. -/
structure Remote where
  claims : List Nat := []
  marked : List Nat := []
  grants : List (Nat × XpType) := []

inductive AttemptLabel where
  | /-- `get_completion_submission` for the second time, and the notification. -/
    read (data : Submission)
  | /-- `check_for_previous_world_record_xp` -/
    check
  | /-- `grant_user_xp_of_type` has an effect, and its answer arrives or not. -/
    grant (answered : Bool)
  | /-- `edit_completion` of `wr_xp_check` has an effect, and its answer arrives or not. -/
    mark (answered : Bool)
  | announce
  | /-- The rest of the handler. -/
    finish
  | /-- What is awaited raises, without an effect on XP. -/
    fail
  | /-- `delete_claimed_idempotency` -/
    release (deleted : Bool)
deriving DecidableEq, Repr

/-- What comes after a grant that was answered. -/
def afterGrant : XpType → VerdictPhase
  | .worldRecord => .marking
  | .record => .announcing
  | _ => .finishing

/-- `check_previous_world_record_xp`: one of the marked runs is the user's on the map, and no
legacy run. -/
def checkPreviousWorldRecordXp (runs : Nat → VerdictRun) (userId mapId : Nat)
    (marked : List Nat) : Bool :=
  marked.any fun c ↦ (runs c).userId = userId ∧ (runs c).mapId = mapId ∧ (runs c).legacy = false

/-- One step of a call of `_process_verification_status_change`. -/
def attemptStep (runs : Nat → VerdictRun) (r : Remote) (x : Attempt) :
    AttemptLabel → Option (Attempt × Remote)
  | .read data =>
      match x.phase with
      | .reading =>
          let phase := if (runs x.completion).verified then
              match data.xp with
              | none => VerdictPhase.finishing
              | some .worldRecord => .checking
              | some type => .granting type
            else .finishing
          some ({ x with phase, data }, r)
      | _ => none
  | .check =>
      match x.phase with
      | .checking =>
          let previouslyGranted := checkPreviousWorldRecordXp runs (runs x.completion).userId
            (runs x.completion).mapId r.marked
          some ({ x with
              phase := if previouslyGranted then .announcing else .granting .worldRecord
              looked := r.marked }, r)
      | _ => none
  | .grant answered =>
      match x.phase with
      | .granting type =>
          some ({ x with
              phase := if answered then afterGrant type else .raised
              granted := some type },
            { r with grants := r.grants ++ [(x.completion, type)] })
      | _ => none
  | .mark answered =>
      match x.phase with
      | .marking =>
          some ({ x with phase := if answered then .announcing else .raised },
            { r with marked := x.completion :: r.marked })
      | _ => none
  | .announce =>
      match x.phase with
      | .announcing =>
          -- `RuntimeWarning` without a video or a rank
          let complete := x.data.video.any (· ≠ "") && x.data.hypotheticalRank.any (· ≠ 0)
          some ({ x with phase := if complete then .finishing else .raised }, r)
      | _ => none
  | .finish =>
      match x.phase with
      | .finishing =>
          -- `assert completion_data.verification_id`
          some ({ x with phase := if x.data.verificationId.any (· ≠ 0) then .returned else .raised },
            r)
      | _ => none
  | .fail =>
      match x.phase with
      | .returned | .raised | .released => none
      | _ => some ({ x with phase := .raised }, r)
  | .release deleted =>
      match x.phase with
      | .raised =>
          some ({ x with phase := .released },
            if deleted then { r with claims := r.claims.filter (· ≠ x.completion) } else r)
      | _ => none

/-- The calls of the handler, and the API. -/
structure VerdictState where
  remote : Remote := {}
  attempts : List Attempt := []

inductive VerdictLabel where
  | /-- The event of run `c` is delivered, or replayed, and its claim obtained. -/
    start (c : Nat)
  | act (a : Nat) (l : AttemptLabel)

def verdictStep (runs : Nat → VerdictRun) (s : VerdictState) :
    VerdictLabel → Option VerdictState
  | .start c =>
      if c ∈ s.remote.claims then none
      else some { remote := { s.remote with claims := c :: s.remote.claims }
                  attempts := s.attempts ++ [{ completion := c }] }
  | .act a l => do
      let x ← s.attempts[a]?
      let (x', remote) ← attemptStep runs s.remote x l
      return { remote, attempts := s.attempts.set a x' }

/-! ## The property and its condition -/

/-- The grants for run `c`. -/
def VerdictState.grantsFor (s : VerdictState) (c : Nat) : List (Nat × XpType) :=
  s.remote.grants.filter fun g ↦ g.1 = c

/-- The World Record grants to a user on a map. -/
def VerdictState.recordGrants (runs : Nat → VerdictRun) (s : VerdictState) (userId mapId : Nat) :
    List (Nat × XpType) :=
  s.remote.grants.filter fun g ↦
    g.2 = .worldRecord ∧ (runs g.1).userId = userId ∧ (runs g.1).mapId = mapId

/-- XP is granted at most once for the verdict of a run, and World Record XP at most once to a
user on a map. -/
structure GrantedOnce (runs : Nat → VerdictRun) (s : VerdictState) : Prop where
  verdict : ∀ c, (s.grantsFor c).length ≤ 1
  worldRecord : ∀ userId mapId, (s.recordGrants runs userId mapId).length ≤ 1

/-- When a call of the handler grants, no earlier call for the event has failed after its own
grant and had its claim deleted; and when it grants World Record XP, every call that has granted
that to the user on the map had marked a run that counts by the time this one looked. -/
structure Orderly (runs : Nat → VerdictRun) (s : VerdictState) (x : Attempt) (type : XpType) :
    Prop where
  replay : ∀ y ∈ s.attempts, y.completion = x.completion → y.phase = .released → y.granted = none
  look : type = .worldRecord → ∀ y ∈ s.attempts,
    (runs y.completion).userId = (runs x.completion).userId →
    (runs y.completion).mapId = (runs x.completion).mapId → y.granted = some .worldRecord →
    y.completion ∈ x.looked ∧ (runs y.completion).legacy = false

/-- If the step is a grant, it is an orderly one. -/
def GrantsOrderly (runs : Nat → VerdictRun) (s : VerdictState) (l : VerdictLabel) : Prop :=
  ∀ a answered x type, l = .act a (.grant answered) → s.attempts[a]? = some x →
    x.phase = .granting type → Orderly runs s x type

/-! ## Steps -/

/-- The phases before the grant. -/
def VerdictPhase.BeforeGrant : VerdictPhase → Prop
  | .reading | .checking | .granting _ => True
  | _ => False

section Steps

variable {runs : Nat → VerdictRun} {r r' : Remote} {x x' : Attempt} {l : AttemptLabel}

theorem attemptStep_completion (h : attemptStep runs r x l = some (x', r')) :
    x'.completion = x.completion := by
  cases l <;> simp only [attemptStep] at h <;> split at h <;> cases h <;> rfl

/-- A step grants, or leaves the grants alone. -/
theorem attemptStep_grants (h : attemptStep runs r x l = some (x', r')) :
    (∃ answered type, l = .grant answered ∧ x.phase = .granting type ∧ x'.granted = some type ∧
      r'.grants = r.grants ++ [(x.completion, type)]) ∨
    ((∀ answered, l ≠ .grant answered) ∧ x'.granted = x.granted ∧ r'.grants = r.grants) := by
  cases l with
  | grant answered =>
      simp only [attemptStep] at h
      split at h
      · next type hphase =>
          cases h
          exact .inl ⟨answered, type, rfl, hphase, rfl, rfl⟩
      · cases h
  | release deleted =>
      simp only [attemptStep] at h
      split at h
      · cases h
        refine .inr ⟨fun _ ↦ AttemptLabel.noConfusion, rfl, ?_⟩
        cases deleted <;> rfl
      · cases h
  | _ =>
      simp only [attemptStep] at h
      split at h <;> cases h
      all_goals exact .inr ⟨fun _ ↦ AttemptLabel.noConfusion, rfl, rfl⟩

/-- A call that is not released has not been before, and the claims are as they were; the claim
of a call that is released goes with it. -/
theorem attemptStep_claims (h : attemptStep runs r x l = some (x', r')) :
    x.phase ≠ .released ∧ (r'.claims = r.claims ∨
      x'.phase = .released ∧ r'.claims = r.claims.filter (· ≠ x.completion)) := by
  cases l with
  | release deleted =>
      simp only [attemptStep] at h
      split at h
      · next hphase =>
          cases h
          refine ⟨by simp [hphase], ?_⟩
          cases deleted with
          | true => exact .inr ⟨rfl, rfl⟩
          | false => exact .inl rfl
      · cases h
  | fail =>
      simp only [attemptStep] at h
      split at h
      · cases h
      · cases h
      · cases h
      · next hphase =>
          cases h
          exact ⟨hphase, .inl rfl⟩
  | _ =>
      simp only [attemptStep] at h
      split at h
      · next hphase =>
          cases h
          exact ⟨by simp [hphase], .inl rfl⟩
      · cases h

/-- Only the reads leave a call before its grant. -/
theorem attemptStep_toBeforeGrant (h : attemptStep runs r x l = some (x', r'))
    (hx' : x'.phase.BeforeGrant) :
    (∃ data, l = .read data) ∧ x.phase = .reading ∨ l = .check ∧ x.phase = .checking := by
  cases l with
  | read data =>
      simp only [attemptStep] at h
      split at h
      · next hphase => exact .inl ⟨⟨data, rfl⟩, hphase⟩
      · cases h
  | check =>
      simp only [attemptStep] at h
      split at h
      · next hphase => exact .inr ⟨rfl, hphase⟩
      · cases h
  | grant answered =>
      simp only [attemptStep] at h
      split at h
      · next type _ =>
          cases h
          cases answered <;> cases type <;> exact hx'.elim
      · cases h
  | mark answered =>
      simp only [attemptStep] at h
      split at h
      · cases h
        cases answered <;> exact hx'.elim
      · cases h
  | announce =>
      simp only [attemptStep] at h
      split at h
      · cases h
        dsimp only at hx'
        split at hx'
        · exact hx'.elim
        · exact hx'.elim
      · cases h
  | finish =>
      simp only [attemptStep] at h
      split at h
      · cases h
        dsimp only at hx'
        split at hx'
        · exact hx'.elim
        · exact hx'.elim
      · cases h
  | _ =>
      simp only [attemptStep] at h
      split at h <;> cases h
      exact hx'.elim

/-- Before its grant a call has come from before its grant. -/
theorem attemptStep_beforeGrant (h : attemptStep runs r x l = some (x', r'))
    (hx' : x'.phase.BeforeGrant) : x.phase.BeforeGrant ∧ x'.granted = x.granted := by
  have hgranted : x'.granted = x.granted := by
    rcases attemptStep_grants h with ⟨answered, type, rfl, _⟩ | ⟨_, hgranted, _⟩
    · rcases attemptStep_toBeforeGrant h hx' with ⟨⟨data, hl⟩, _⟩ | ⟨hl, _⟩ <;> cases hl
    · exact hgranted
  refine ⟨?_, hgranted⟩
  rcases attemptStep_toBeforeGrant h hx' with ⟨_, hphase⟩ | ⟨_, hphase⟩
  · rw [hphase]
    trivial
  · rw [hphase]
    trivial

/-- World Record XP is due after a look that found nothing. -/
theorem attemptStep_looked (h : attemptStep runs r x l = some (x', r'))
    (hx' : x'.phase = .granting .worldRecord) :
    checkPreviousWorldRecordXp runs (runs x.completion).userId (runs x.completion).mapId
      x'.looked = false := by
  have hbefore : x'.phase.BeforeGrant := by
    rw [hx']
    trivial
  rcases attemptStep_toBeforeGrant h hbefore with ⟨⟨data, rfl⟩, hphase⟩ | ⟨rfl, hphase⟩
  · -- a first read sends a run that is due World Record XP to the look
    simp only [attemptStep, hphase] at h
    cases h
    dsimp only at hx'
    split at hx'
    · split at hx'
      · cases hx'
      · cases hx'
      · next type hne _ =>
          cases hx'
          exact absurd rfl hne
    · cases hx'
  · simp only [attemptStep, hphase] at h
    cases h
    dsimp only at hx' ⊢
    split at hx'
    · cases hx'
    · next hnone => exact Bool.eq_false_iff.mpr hnone

end Steps

/-! ## The invariant -/

/-- What holds at every moment: the grants are those of the calls, a call that has not granted
has none, the calls that may still do something hold the claim of their event, one each, and
World Record XP is due after a look that found nothing. -/
structure VerdictInv (runs : Nat → VerdictRun) (s : VerdictState) : Prop where
  grants : ∀ c type, (c, type) ∈ s.remote.grants ↔
    ∃ y ∈ s.attempts, y.completion = c ∧ y.granted = some type
  before : ∀ y ∈ s.attempts, y.phase.BeforeGrant → y.granted = none
  claimed : ∀ y ∈ s.attempts, y.phase ≠ .released → y.completion ∈ s.remote.claims
  alone : ∀ (i j : Nat) (x y : Attempt), s.attempts[i]? = some x → s.attempts[j]? = some y →
    (x.phase ≠ .released ∧ y.phase ≠ .released ∧ x.completion = y.completion) → i = j
  looked : ∀ y ∈ s.attempts, y.phase = .granting .worldRecord →
    checkPreviousWorldRecordXp runs (runs y.completion).userId (runs y.completion).mapId
      y.looked = false

section Inv

variable {runs : Nat → VerdictRun} {s s' : VerdictState}

/-- A step of a call, taken apart. -/
theorem verdictStep_act {a : Nat} {l : AttemptLabel} (h : verdictStep runs s (.act a l) = some s') :
    ∃ x x' remote, s.attempts[a]? = some x ∧ attemptStep runs s.remote x l = some (x', remote) ∧
      s' = { remote, attempts := s.attempts.set a x' } := by
  simp only [verdictStep, Option.bind_eq_bind, Option.bind_eq_some_iff] at h
  obtain ⟨x, hx, ⟨x', remote⟩, hstep, heq⟩ := h
  exact ⟨x, x', remote, hx, hstep, (Option.some.inj heq).symm⟩

/-- A call that starts has granted nothing, and is the only one that holds its claim. -/
theorem VerdictInv.start (h : VerdictInv runs s) {c : Nat} (hc : c ∉ s.remote.claims) :
    VerdictInv runs
      { remote := { s.remote with claims := c :: s.remote.claims }
        attempts := s.attempts ++ [{ completion := c }] } := by
  have hfree : ∀ y ∈ s.attempts, y.phase ≠ .released → y.completion ≠ c := by
    rintro y hy hphase rfl
    exact hc (h.claimed y hy hphase)
  constructor
  · intro c' type
    refine (h.grants c' type).trans ⟨?_, ?_⟩
    · rintro ⟨y, hy, hgranted⟩
      exact ⟨y, List.mem_append_left _ hy, hgranted⟩
    · rintro ⟨y, hy, hcompletion, hgranted⟩
      rcases List.mem_append.mp hy with hy | hy
      · exact ⟨y, hy, hcompletion, hgranted⟩
      · obtain rfl := List.mem_singleton.mp hy
        cases hgranted
  · intro y hy hphase
    rcases List.mem_append.mp hy with hy | hy
    · exact h.before y hy hphase
    · obtain rfl := List.mem_singleton.mp hy
      rfl
  · intro y hy hphase
    rcases List.mem_append.mp hy with hy | hy
    · exact List.mem_cons_of_mem _ (h.claimed y hy hphase)
    · obtain rfl := List.mem_singleton.mp hy
      exact List.mem_cons_self
  · rintro i j x y hx hy ⟨hphase, hphase', hcompletion⟩
    rcases getElem?_append_cases hx with hx | ⟨hi, rfl⟩
    · rcases getElem?_append_cases hy with hy | ⟨_, rfl⟩
      · exact h.alone i j x y hx hy ⟨hphase, hphase', hcompletion⟩
      · exact absurd hcompletion (hfree x (List.mem_of_getElem? hx) hphase)
    · rcases getElem?_append_cases hy with hy | ⟨hj, _⟩
      · exact absurd hcompletion.symm (hfree y (List.mem_of_getElem? hy) hphase')
      · exact hi.trans hj.symm
  · intro y hy hphase
    rcases List.mem_append.mp hy with hy | hy
    · exact h.looked y hy hphase
    · obtain rfl := List.mem_singleton.mp hy
      cases hphase

/-- A step keeps the grants those of the calls. -/
theorem VerdictInv.act_grants (h : VerdictInv runs s) {a : Nat} {l : AttemptLabel}
    {x x' : Attempt} {remote : Remote} (hx : s.attempts[a]? = some x)
    (hstep : attemptStep runs s.remote x l = some (x', remote)) (c : Nat) (type : XpType) :
    (c, type) ∈ remote.grants ↔
      ∃ y ∈ s.attempts.set a x', y.completion = c ∧ y.granted = some type := by
  have hcompletion := attemptStep_completion hstep
  rcases attemptStep_grants hstep with ⟨_, type', _, hphase, hgranted, hgrants⟩ | ⟨_, hgranted, hgrants⟩
  · have hnone : x.granted = none := by
      refine h.before x (List.mem_of_getElem? hx) ?_
      rw [hphase]
      trivial
    rw [hgrants, List.mem_append, h.grants c type, List.mem_singleton, Prod.mk.injEq]
    constructor
    · rintro (hold | ⟨rfl, rfl⟩)
      · refine exists_mem_set hx (fun hg ↦ ?_) hold
        rw [hnone] at hg
        cases hg.2
      · exact ⟨x', mem_set_self hx, hcompletion, hgranted⟩
    · intro hnew
      refine (exists_of_exists_mem_set hnew).imp_right ?_
      rintro ⟨rfl, htype⟩
      exact ⟨hcompletion, Option.some.inj (htype.symm.trans hgranted)⟩
  · rw [hgrants, h.grants c type]
    constructor
    · exact exists_mem_set hx fun hg ↦ by rwa [hcompletion, hgranted]
    · intro hnew
      rcases exists_of_exists_mem_set hnew with hold | hg
      · exact hold
      · exact ⟨x, List.mem_of_getElem? hx, by rwa [hcompletion, hgranted] at hg⟩

theorem VerdictInv.act (h : VerdictInv runs s) {a : Nat} {l : AttemptLabel}
    {x x' : Attempt} {remote : Remote} (hx : s.attempts[a]? = some x)
    (hstep : attemptStep runs s.remote x l = some (x', remote)) :
    VerdictInv runs { remote, attempts := s.attempts.set a x' } := by
  have hmem := List.mem_of_getElem? hx
  have hcompletion := attemptStep_completion hstep
  obtain ⟨hphase, hclaims⟩ := attemptStep_claims hstep
  refine ⟨h.act_grants hx hstep, ?_, ?_, ?_, ?_⟩
  · intro y hy hbefore
    rcases List.mem_or_eq_of_mem_set hy with hy | rfl
    · exact h.before y hy hbefore
    · obtain ⟨hbefore', hgranted⟩ := attemptStep_beforeGrant hstep hbefore
      rw [hgranted, h.before x hmem hbefore']
  · intro y hy hy'
    rcases hclaims with hclaims | ⟨hreleased, hclaims⟩
    · rw [hclaims]
      rcases List.mem_or_eq_of_mem_set hy with hy | rfl
      · exact h.claimed y hy hy'
      · rw [hcompletion]
        exact h.claimed x hmem hphase
    · -- the claim that goes is nobody else's
      rw [hclaims, List.mem_filter]
      obtain ⟨i, hi⟩ := List.mem_iff_getElem?.mp hy
      rcases getElem?_set_cases hx hi with ⟨_, rfl⟩ | ⟨hne, hi⟩
      · exact absurd hreleased hy'
      · refine ⟨h.claimed y (List.mem_of_getElem? hi) hy', decide_eq_true ?_⟩
        exact fun heq ↦ hne (h.alone i a y x hi hx ⟨hy', hphase, heq⟩)
  · refine eq_of_getElem?_set hx (fun y ↦ ?_) (fun y ↦ ?_) h.alone
    · rw [hcompletion]
      exact fun hy ↦ ⟨hphase, hy.2⟩
    · rw [hcompletion]
      exact fun hy ↦ ⟨hy.1, hphase, hy.2.2⟩
  · intro y hy hgranting
    rcases List.mem_or_eq_of_mem_set hy with hy | rfl
    · exact h.looked y hy hgranting
    · rw [hcompletion]
      exact attemptStep_looked hstep hgranting

theorem VerdictInv.step {l : VerdictLabel} (h : VerdictInv runs s)
    (hs : verdictStep runs s l = some s') : VerdictInv runs s' := by
  cases l with
  | start c =>
      simp only [verdictStep] at hs
      split at hs
      · cases hs
      · next hc =>
          cases hs
          exact h.start hc
  | act a l =>
      obtain ⟨x, x', remote, hx, hstep, rfl⟩ := verdictStep_act hs
      exact h.act hx hstep

/-! ## Granting once -/

/-- One element more keeps what passes a filter to one, if nothing passed it before or the new
element does not. -/
theorem length_filter_concat_le_one {α : Type} {p : α → Bool} {l : List α} {a : α}
    (h : (l.filter p).length ≤ 1) :
    ((l ++ [a]).filter p).length ≤ 1 ↔ (p a = true → ∀ b ∈ l, p b = false) := by
  rw [List.filter_append, List.length_append]
  cases ha : p a with
  | false => simpa [ha] using h
  | true =>
      rw [List.filter_cons_of_pos ha, List.filter_nil, List.length_singleton]
      simp

/-- After one grant more XP is granted once if the run had none, and if no World Record XP stands
in the way of more. -/
theorem grantedOnce_concat_iff {c : Nat} {type : XpType} (h : GrantedOnce runs s)
    (hgrants : s'.remote.grants = s.remote.grants ++ [(c, type)]) :
    GrantedOnce runs s' ↔ (∀ g ∈ s.remote.grants, g.1 ≠ c) ∧
      (type = .worldRecord → ∀ g ∈ s.remote.grants, g.2 = .worldRecord →
        (runs g.1).userId = (runs c).userId → (runs g.1).mapId ≠ (runs c).mapId) := by
  have hverdict : ∀ c', (s'.grantsFor c').length ≤ 1 ↔
      (c = c' → ∀ g ∈ s.remote.grants, g.1 ≠ c') := by
    intro c'
    rw [VerdictState.grantsFor, hgrants, length_filter_concat_le_one (h.verdict c')]
    simp
  have hrecord : ∀ userId mapId, (s'.recordGrants runs userId mapId).length ≤ 1 ↔
      (type = .worldRecord ∧ (runs c).userId = userId ∧ (runs c).mapId = mapId →
        ∀ g ∈ s.remote.grants, g.2 = .worldRecord → (runs g.1).userId = userId →
          (runs g.1).mapId ≠ mapId) := by
    intro userId mapId
    rw [VerdictState.recordGrants, hgrants,
      length_filter_concat_le_one (h.worldRecord userId mapId)]
    simp
  constructor
  · intro h'
    refine ⟨(hverdict c).mp (h'.verdict c) rfl, fun htype ↦ ?_⟩
    exact (hrecord _ _).mp (h'.worldRecord _ _) ⟨htype, rfl, rfl⟩
  · rintro ⟨hnone, hnoRecord⟩
    constructor
    · intro c'
      refine (hverdict c').mpr ?_
      rintro rfl
      exact hnone
    · intro userId mapId
      refine (hrecord userId mapId).mpr ?_
      rintro ⟨htype, rfl, rfl⟩
      exact hnoRecord htype

/-- The run has had no grant exactly when no call for it was released after one. -/
theorem VerdictInv.replay_iff (h : VerdictInv runs s) {a : Nat} {x : Attempt} {type : XpType}
    (hx : s.attempts[a]? = some x) (hphase : x.phase = .granting type) :
    (∀ g ∈ s.remote.grants, g.1 ≠ x.completion) ↔
      ∀ y ∈ s.attempts, y.completion = x.completion → y.phase = .released → y.granted = none := by
  constructor
  · intro hnone y hy hcompletion _
    cases hgranted : y.granted with
    | none => rfl
    | some type' =>
        have hgrant := (h.grants y.completion type').mpr ⟨y, hy, rfl, hgranted⟩
        exact absurd hcompletion (hnone _ hgrant)
  · rintro hreplay ⟨c, type'⟩ hg rfl
    obtain ⟨y, hy, hcompletion, hgranted⟩ := (h.grants _ _).mp hg
    suffices y.granted = none by
      rw [this] at hgranted
      cases hgranted
    by_cases hreleased : y.phase = .released
    · exact hreplay y hy hcompletion hreleased
    · -- a call that is not released is the one that grants
      obtain ⟨i, hi⟩ := List.mem_iff_getElem?.mp hy
      have hx' : x.phase ≠ .released := by
        rw [hphase]
        exact VerdictPhase.noConfusion
      obtain rfl := h.alone i a y x hi hx ⟨hreleased, hx', hcompletion⟩
      obtain rfl : y = x := Option.some.inj (hi.symm.trans hx)
      refine h.before y hy ?_
      rw [hphase]
      trivial

/-- World Record XP has not been granted to the user on the map exactly when what was granted
had been marked before the call looked: a call that is to grant it has found no mark. -/
theorem VerdictInv.look_iff (h : VerdictInv runs s) {x : Attempt} (hx : x ∈ s.attempts)
    (hphase : x.phase = .granting .worldRecord) :
    (∀ g ∈ s.remote.grants, g.2 = .worldRecord →
        (runs g.1).userId = (runs x.completion).userId →
          (runs g.1).mapId ≠ (runs x.completion).mapId) ↔
      ∀ y ∈ s.attempts, (runs y.completion).userId = (runs x.completion).userId →
        (runs y.completion).mapId = (runs x.completion).mapId → y.granted = some .worldRecord →
        y.completion ∈ x.looked ∧ (runs y.completion).legacy = false := by
  constructor
  · intro hnone y hy huser hmap hgranted
    have hgrant := (h.grants y.completion .worldRecord).mpr ⟨y, hy, rfl, hgranted⟩
    exact absurd hmap (hnone _ hgrant rfl huser)
  · rintro hlook ⟨c, type⟩ hg rfl huser hmap
    obtain ⟨y, hy, rfl, hgranted⟩ := (h.grants _ _).mp hg
    obtain ⟨hmem, hlegacy⟩ := hlook y hy huser hmap hgranted
    have hfound := h.looked x hx hphase
    rw [checkPreviousWorldRecordXp, List.any_eq_false] at hfound
    exact hfound _ hmem (decide_eq_true ⟨huser, hmap, hlegacy⟩)

/-- **XP that has been granted once still is after a step exactly when the step, if it is a grant,
is an orderly one.** -/
theorem VerdictInv.grantedOnce_step_iff (h : VerdictInv runs s) (honce : GrantedOnce runs s)
    {l : VerdictLabel} (hs : verdictStep runs s l = some s') :
    GrantedOnce runs s' ↔ GrantsOrderly runs s l := by
  cases l with
  | start c =>
      simp only [verdictStep] at hs
      split at hs
      · cases hs
      · cases hs
        refine iff_of_true ⟨honce.verdict, honce.worldRecord⟩ ?_
        intro _ _ _ _ hl
        cases hl
  | act a l =>
      obtain ⟨x, x', remote, hx, hstep, rfl⟩ := verdictStep_act hs
      rcases attemptStep_grants hstep with
        ⟨answered, type, rfl, hphase, _, hgrants⟩ | ⟨hl, _, hgrants⟩
      · rw [grantedOnce_concat_iff honce hgrants, h.replay_iff hx hphase]
        have hlook : type = .worldRecord → x.phase = .granting .worldRecord := by
          rintro rfl
          exact hphase
        constructor
        · rintro ⟨hreplay, hrecord⟩ a' answered' y type' hl hy hphase'
          cases hl
          obtain rfl : x = y := Option.some.inj (hx.symm.trans hy)
          obtain rfl : type = type' := VerdictPhase.granting.inj (hphase.symm.trans hphase')
          refine ⟨hreplay, fun htype ↦ ?_⟩
          exact (h.look_iff (List.mem_of_getElem? hx) (hlook htype)).mp (hrecord htype)
        · intro horderly
          obtain ⟨hreplay, hrecord⟩ := horderly a answered x type rfl hx hphase
          refine ⟨hreplay, fun htype ↦ ?_⟩
          exact (h.look_iff (List.mem_of_getElem? hx) (hlook htype)).mpr (hrecord htype)
      · refine iff_of_true ?_ ?_
        · constructor
          · intro c
            rw [VerdictState.grantsFor, hgrants]
            exact honce.verdict c
          · intro userId mapId
            rw [VerdictState.recordGrants, hgrants]
            exact honce.worldRecord userId mapId
        · intro a' answered _ _ heq
          cases heq
          exact absurd rfl (hl answered)

/-- **XP is granted once at every moment of a run exactly when every grant of the run is an orderly
one.** -/
theorem xp_granted_once_iff (runs : Nat → VerdictRun) (ls : List VerdictLabel)
    (s : VerdictState) :
    Run (fun s l s' ↦ verdictStep runs s l = some s' ∧ GrantedOnce runs s') {} ls s ↔
      Run (Guarded (GrantsOrderly runs) (ofStep (verdictStep runs))) {} ls s := by
  refine Run.congr (fun s ↦ VerdictInv runs s ∧ GrantedOnce runs s) ?_ ?_ ?_
  · rintro s l s' ⟨h, honce⟩
    rw [and_comm]
    exact and_congr_left fun hs ↦ h.grantedOnce_step_iff honce hs
  · rintro s l s' ⟨h, _⟩ ⟨hs, honce⟩
    exact ⟨h.step hs, honce⟩
  · refine ⟨⟨fun c type ↦ ?_, ?_, ?_, ?_, ?_⟩, fun c ↦ Nat.zero_le 1, fun _ _ ↦ Nat.zero_le 1⟩
    · refine iff_of_false List.not_mem_nil ?_
      rintro ⟨y, hy, _⟩
      cases hy
    · intro y hy
      cases hy
    · intro y hy
      cases hy
    · intro i j x y hx
      cases hx
    · intro y hy
      cases hy

/-- The answer to a grant of Completion XP is lost: the handler raises, its claim is deleted, and
the message is replayed from the dead-letter queue. -/
theorem lostAnswer_grantsTwice :
    ∃ s, [VerdictLabel.start 7,
        .act 0 (.read { completion := true, verificationId := some 1 }), .act 0 (.grant false),
        .act 0 (.release true), .start 7,
        .act 1 (.read { completion := true, verificationId := some 1 }), .act 1 (.grant true)
      ].foldlM (verdictStep fun _ ↦ { userId := 1, mapId := 2 }) {} = some s ∧
      ¬ GrantedOnce (fun _ ↦ { userId := 1, mapId := 2 }) s := by
  refine ⟨_, rfl, fun h ↦ ?_⟩
  have htwice := h.verdict 7
  revert htwice
  decide

end Inv

end Genjishimada.Bot
