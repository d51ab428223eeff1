import Genjishimada.Library.Pool
import Genjishimada.Library.Run
import Mathlib.Data.List.Nodup

/-!
# The key ledger

`get_random_items` deletes the oldest key of the user first.  The key is chosen by a
sub-select, which locks nothing and reads the snapshot of the statement; the `DELETE`
then waits if another opening has deleted that key already.  Once the other one commits,
the key is gone, nothing is deleted, and the opening is refused although other keys may
be left.
-/

namespace Genjishimada.Lootbox

open Library

variable {τ : Type} [DecidableEq τ]

/-! ## The calls -/

/-- A row of `lootbox.user_keys`, for the one user and key type. -/
structure Key where
  id : Nat
  earnedAt : Int
deriving DecidableEq, Repr

/-- Where a call is. -/
inductive KeyPhase where
  | called
  | /-- The sub-select of the opening has chosen the key. -/
    picked (key : Key)
  | /-- The opening has deleted the key: all that is left is to draw and to commit. -/
    deleted (key : Key)
  | /-- The opening has returned. -/
    opened
  | /-- The opening has raised `InsufficientKeysError`. -/
    insufficient
  | /-- The keys are inserted one by one, so many are left. -/
    inserting (keys : List Key) (left : Nat)
  | /-- The keys are there. -/
    added
  | raised
deriving DecidableEq, Repr

/-- The user's keys, the number of rows inserted so far, how many keys have been added,
and by which openings keys have been consumed. -/
structure KeyState (τ : Type) where
  keys : Pool τ Key
  next : Nat
  added : Nat := 0
  opened : List τ := []
  phases : τ → KeyPhase := fun _ ↦ .called

inductive KeyLabel (τ : Type) where
  | /-- `delete_oldest_user_key` starts: the key its sub-select finds. -/
    pick (t : τ) (key : Option Key)
  | /-- `delete_oldest_user_key` gets to the row it has chosen. -/
    delete (t : τ)
  | /-- `purchase_keys`, up to the keys: whether it was paid for. -/
    purchaseKeys (t : τ) (quantity : Nat) (paid : Bool)
  | grantKeyToUser (t : τ)
  | /-- `insert_user_key` -/
    insertUserKey (t : τ) (earnedAt : Int)
  | commit (t : τ)
  | /-- A statement or the commit fails. -/
    fail (t : τ)

/-- The call goes on to `phase`. -/
def KeyState.goto (s : KeyState τ) (t : τ) (phase : KeyPhase) : KeyState τ :=
  { s with phases := Function.update s.phases t phase }

/-- `ORDER BY earned_at ASC LIMIT 1`: any of the oldest keys, and none if there is none. -/
def IsOldest (keys : List Key) : Option Key → Prop
  | some key => key ∈ keys ∧ ∀ k ∈ keys, key.earnedAt ≤ k.earnedAt
  | none => keys = []

instance IsOldest.decidable (keys : List Key) : (key : Option Key) → Decidable (IsOldest keys key)
  | some _ => inferInstanceAs (Decidable (_ ∧ _))
  | none => inferInstanceAs (Decidable (_ = _))

/-- The call is over. -/
def KeyPhase.ended : KeyPhase → Bool
  | .opened | .insufficient | .added | .raised => true
  | _ => false

/-- The key the call has deleted without having committed. -/
def KeyPhase.taken : KeyPhase → Option Key
  | .deleted key => some key
  | _ => none

/-- One step of the calls. -/
def keyStep (s : KeyState τ) : KeyLabel τ → Option (KeyState τ)
  | .pick t key =>
      if s.phases t = .called ∧ IsOldest s.keys.rows key then
        match key with
        | some key => some (s.goto t (.picked key))
        | none => some (s.goto t .insufficient)
      else none
  | .delete t =>
      match s.phases t with
      | .picked key =>
          if s.keys.free t key then
            if key ∈ s.keys.rows then
              some ({ s with keys := s.keys.delete t key }.goto t (.deleted key))
            else some (s.goto t .insufficient)
          else none
      | _ => none
  | .purchaseKeys t quantity paid =>
      if s.phases t = .called then
        some (s.goto t (if quantity ∈ [1, 3, 5] ∧ paid then .inserting [] quantity else .raised))
      else none
  | .grantKeyToUser t =>
      if s.phases t = .called then some (s.goto t (.inserting [] 1)) else none
  | .insertUserKey t earnedAt =>
      match s.phases t with
      | .inserting keys (left + 1) =>
          some ({ s with next := s.next + 1 }.goto t
            (.inserting (keys ++ [Key.mk s.next earnedAt]) left))
      | _ => none
  | .commit t =>
      match s.phases t with
      | .deleted key =>
          some ({ s with keys := s.keys.commit key, opened := s.opened ++ [t] }.goto t .opened)
      | .inserting keys 0 =>
          some ({ s with keys := s.keys.insert keys, added := s.added + keys.length }.goto t .added)
      | _ => none
  | .fail t =>
      if (s.phases t).ended then none
      else
        match s.phases t with
        | .deleted key => some ({ s with keys := s.keys.rollback key }.goto t .raised)
        | _ => some (s.goto t .raised)

/-! ## Counting keys -/

/-- The keys left are those held at the start and those added, less one for each opening
that returned. -/
structure KeysCounted (held : Nat) (s : KeyState τ) : Prop where
  count : (s.keys.rows.length : Int) = held + s.added - s.opened.length
  nodup : s.opened.Nodup
  returned : ∀ t, t ∈ s.opened ↔ s.phases t = .opened

/-- An opening that the step refuses is refused because no key is left. -/
def RefusedWhenConsumed (s s' : KeyState τ) : Prop :=
  ∀ t, s.phases t ≠ .insufficient → s'.phases t = .insufficient → s.keys.rows = []

/-- The label belongs to one of the openings, and it is not a failure. -/
def KeyLabel.opens (ts : List τ) : KeyLabel τ → Prop
  | .pick t _ | .delete t | .commit t => t ∈ ts
  | _ => False

instance KeyLabel.opens.decidable (ts : List τ) : (l : KeyLabel τ) → Decidable (l.opens ts)
  | .pick t _ | .delete t | .commit t => inferInstanceAs (Decidable (t ∈ ts))
  | .purchaseKeys .. | .grantKeyToUser _ | .insertUserKey .. | .fail _ =>
      inferInstanceAs (Decidable False)

/-- A user who holds keys, one for each time, before any call. -/
def keyring (held : List Int) : KeyState τ where
  keys := { rows := held.zipIdx.map fun p ↦ Key.mk p.2 p.1 }
  next := held.length

/-- At each step the keys are counted right and nobody is refused a key that is left; of
the openings `ts`, if nothing else happens and each is answered, as many return as there
are keys. -/
structure KeysAvailable (held : List Int) (ls : List (KeyLabel τ)) (s : KeyState τ) : Prop where
  run : Run (fun s l s' ↦ keyStep s l = some s' ∧ KeysCounted held.length s' ∧
    RefusedWhenConsumed s s') (keyring held) ls s
  succeed : ∀ ts : List τ, ts.Nodup → (∀ l ∈ ls, l.opens ts) →
    (∀ t ∈ ts, s.phases t = .opened ∨ s.phases t = .insufficient) →
    s.opened.length = min ts.length held.length

/-- An opening gets to the key it has chosen while the key is still there, or while there
is no other one either. -/
def PickStands (s : KeyState τ) (l : KeyLabel τ) : Prop :=
  ∀ t key, l = .delete t → s.phases t = .picked key → key ∈ s.keys.rows ∨ s.keys.rows = []

/-- What holds at every moment. -/
structure KeyInv (held : Nat) (s : KeyState τ) : Prop where
  taken : Taken s.keys (KeyPhase.taken ∘ s.phases)
  counted : KeysCounted held s

/-! ## What one step does -/

/-- What a step of the calls can do. -/
inductive KeyMove (s : KeyState τ) : KeyLabel τ → KeyState τ → Prop
  | pick {t : τ} {key : Key} (hphase : s.phases t = .called) :
      KeyMove s (.pick t (some key)) (s.goto t (.picked key))
  | /-- There is no key in the snapshot. -/
    noKey {t : τ} (hphase : s.phases t = .called) (hrows : s.keys.rows = []) :
      KeyMove s (.pick t none) (s.goto t .insufficient)
  | delete {t : τ} {key : Key} (hphase : s.phases t = .picked key)
      (hfree : s.keys.free t key = true) (hmem : key ∈ s.keys.rows) :
      KeyMove s (.delete t) ({ s with keys := s.keys.delete t key }.goto t (.deleted key))
  | /-- Another opening has consumed the key. -/
    lose {t : τ} {key : Key} (hphase : s.phases t = .picked key) (hgone : key ∉ s.keys.rows) :
      KeyMove s (.delete t) (s.goto t .insufficient)
  | /-- A purchase or a grant goes on or is refused. -/
    add {l : KeyLabel τ} {t : τ} {phase : KeyPhase} {next : Nat} (hl : ∀ ts, ¬ l.opens ts)
      (hold : (s.phases t).taken = none ∧ s.phases t ≠ .opened)
      (hnew : phase.taken = none ∧ phase ≠ .opened ∧ phase ≠ .insufficient) :
      KeyMove s l ({ s with next := next }.goto t phase)
  | /-- An opening returns. -/
    returned {t : τ} {key : Key} (hphase : s.phases t = .deleted key) :
      KeyMove s (.commit t)
        ({ s with keys := s.keys.commit key, opened := s.opened ++ [t] }.goto t .opened)
  | /-- A purchase or a grant returns. -/
    insert {t : τ} {keys : List Key} (hphase : s.phases t = .inserting keys 0) :
      KeyMove s (.commit t)
        ({ s with keys := s.keys.insert keys, added := s.added + keys.length }.goto t .added)
  | /-- An opening fails after its key was deleted. -/
    giveBack {t : τ} {key : Key} (hphase : s.phases t = .deleted key) :
      KeyMove s (.fail t) ({ s with keys := s.keys.rollback key }.goto t .raised)
  | fail {t : τ} (hold : (s.phases t).taken = none ∧ s.phases t ≠ .opened) :
      KeyMove s (.fail t) (s.goto t .raised)

/-- A step is one of the moves. -/
theorem keyStep_move {s s' : KeyState τ} {l : KeyLabel τ} (hs : keyStep s l = some s') :
    KeyMove s l s' := by
  cases l with
  | pick t key =>
      simp only [keyStep] at hs
      split at hs
      · rename_i hcond
        split at hs
        · obtain rfl := Option.some.inj hs
          exact .pick hcond.1
        · obtain rfl := Option.some.inj hs
          exact .noKey hcond.1 hcond.2
      · cases hs
  | delete t =>
      simp only [keyStep] at hs
      split at hs
      · rename_i key hphase
        split at hs
        · rename_i hfree
          split at hs
          · rename_i hmem
            obtain rfl := Option.some.inj hs
            exact .delete hphase hfree hmem
          · rename_i hgone
            obtain rfl := Option.some.inj hs
            exact .lose hphase hgone
        · cases hs
      · cases hs
  | purchaseKeys t quantity paid =>
      simp only [keyStep] at hs
      split at hs
      · rename_i hphase
        obtain rfl := Option.some.inj hs
        refine .add (fun _ ↦ id) (by simp [hphase, KeyPhase.taken]) ?_
        split <;> simp [KeyPhase.taken]
      · cases hs
  | grantKeyToUser t =>
      simp only [keyStep] at hs
      split at hs
      · rename_i hphase
        obtain rfl := Option.some.inj hs
        exact .add (fun _ ↦ id) (by simp [hphase, KeyPhase.taken]) (by simp [KeyPhase.taken])
      · cases hs
  | insertUserKey t earnedAt =>
      simp only [keyStep] at hs
      split at hs
      · rename_i keys left hphase
        obtain rfl := Option.some.inj hs
        exact .add (fun _ ↦ id) (by simp [hphase, KeyPhase.taken]) (by simp [KeyPhase.taken])
      · cases hs
  | commit t =>
      simp only [keyStep] at hs
      split at hs
      · rename_i key hphase
        obtain rfl := Option.some.inj hs
        exact .returned hphase
      · rename_i keys hphase
        obtain rfl := Option.some.inj hs
        exact .insert hphase
      · cases hs
  | fail t =>
      simp only [keyStep] at hs
      split at hs
      · cases hs
      · rename_i hended
        split at hs
        · rename_i key hphase
          obtain rfl := Option.some.inj hs
          exact .giveBack hphase
        · rename_i hphase
          obtain rfl := Option.some.inj hs
          refine .fail ⟨?_, ?_⟩
          · cases hphase' : s.phases t with
            | deleted key => exact absurd hphase' (hphase key)
            | _ => rfl
          · intro hphase'
            rw [hphase'] at hended
            exact hended rfl

section Inv

variable {held : Nat} {s s' : KeyState τ} {t : τ} {l : KeyLabel τ}

/-- A call goes on without returning from an opening. -/
theorem KeysCounted.move (h : KeysCounted held s) {keys : Pool τ Key} {next added : Nat}
    {phase : KeyPhase} (hcount : keys.rows.length + s.added = s.keys.rows.length + added)
    (hnew : phase ≠ .opened) (hold : s.phases t ≠ .opened) :
    KeysCounted held ({ s with keys := keys, next := next, added := added }.goto t phase) := by
  refine ⟨?_, h.nodup, fun t' ↦ ?_⟩
  · have := h.count
    simp only [KeyState.goto]
    omega
  · by_cases ht : t' = t
    · subst ht
      simp only [KeyState.goto, Function.update_self]
      exact iff_of_false (fun hmem ↦ hold ((h.returned t').mp hmem)) hnew
    · simp only [KeyState.goto, Function.update_of_ne ht]
      exact h.returned t'

theorem KeyInv.move (h : KeyInv held s) {keys : Pool τ Key} {next added : Nat} {phase : KeyPhase}
    (htaken : Taken keys (Function.update (KeyPhase.taken ∘ s.phases) t phase.taken))
    (hcount : keys.rows.length + s.added = s.keys.rows.length + added)
    (hnew : phase ≠ .opened) (hold : s.phases t ≠ .opened) :
    KeyInv held ({ s with keys := keys, next := next, added := added }.goto t phase) := by
  refine ⟨?_, h.counted.move hcount hnew hold⟩
  show Taken keys (KeyPhase.taken ∘ Function.update s.phases t phase)
  rw [Function.comp_update]
  exact htaken

/-- A call that takes no key and gives none back leaves the others what they hold. -/
theorem KeyInv.update_taken (h : KeyInv held s) {phase : KeyPhase}
    (htaken : phase.taken = (s.phases t).taken) :
    Taken s.keys (Function.update (KeyPhase.taken ∘ s.phases) t phase.taken) := by
  have hself : Function.update (KeyPhase.taken ∘ s.phases) t (s.phases t).taken =
      KeyPhase.taken ∘ s.phases := Function.update_eq_self t _
  rw [htaken, hself]
  exact h.taken

theorem KeyInv.goto (h : KeyInv held s) {phase : KeyPhase}
    (htaken : phase.taken = (s.phases t).taken) (hnew : phase ≠ .opened)
    (hold : s.phases t ≠ .opened) : KeyInv held (s.goto t phase) :=
  h.move (h.update_taken htaken) rfl hnew hold

/-- An opening returns: its key is gone. -/
theorem KeyInv.returned (h : KeyInv held s) {key : Key} (hphase : s.phases t = .deleted key) :
    KeyInv held ({ s with keys := s.keys.commit key, opened := s.opened ++ [t] }.goto t .opened) := by
  have hkey : (KeyPhase.taken ∘ s.phases) t = some key := by
    rw [Function.comp_apply, hphase]
    rfl
  have hnew : t ∉ s.opened := by
    rw [h.counted.returned, hphase]
    simp
  constructor
  · show Taken _ (KeyPhase.taken ∘ Function.update s.phases t .opened)
    rw [Function.comp_update]
    exact h.taken.commit hkey
  · refine ⟨?_, ?_, fun t' ↦ ?_⟩
    · have hlength := h.taken.length_commit hkey
      have := h.counted.count
      simp only [KeyState.goto, List.length_append, List.length_singleton]
      omega
    · show (s.opened ++ [t]).Nodup
      rw [← List.concat_eq_append, List.nodup_concat]
      exact ⟨hnew, h.counted.nodup⟩
    · by_cases ht : t' = t
      · subst ht
        simp [KeyState.goto]
      · simp [KeyState.goto, ht, h.counted.returned t']

/-- Every step keeps the invariant. -/
theorem KeyInv.step (h : KeyInv held s) (hs : keyStep s l = some s') : KeyInv held s' := by
  cases keyStep_move hs with
  | pick hphase => apply h.goto <;> simp [hphase, KeyPhase.taken]
  | noKey hphase => apply h.goto <;> simp [hphase, KeyPhase.taken]
  | @delete t key hphase hfree hmem =>
      have htaken : Taken (s.keys.delete t key) (Function.update
          (KeyPhase.taken ∘ s.phases) t (KeyPhase.deleted key).taken) :=
        h.taken.delete hmem hfree
      exact h.move htaken rfl (by simp) (by simp [hphase])
  | lose hphase => apply h.goto <;> simp [hphase, KeyPhase.taken]
  | add _ hold hnew =>
      exact h.move (h.update_taken (hnew.1.trans hold.1.symm)) rfl hnew.2.1 hold.2
  | returned hphase => exact h.returned hphase
  | insert hphase =>
      refine h.move ?_ ?_ ?_ ?_
      · apply Taken.insert
        apply h.update_taken
        rw [hphase]
        rfl
      · simp only [Pool.insert, List.length_append]
        omega
      · simp
      · simp [hphase]
  | @giveBack t key hphase =>
      have hkey : (KeyPhase.taken ∘ s.phases) t = some key := by
        rw [Function.comp_apply, hphase]
        rfl
      exact h.move (h.taken.rollback hkey) rfl (by simp) (by simp [hphase])
  | fail hold => exact h.goto hold.1.symm (by simp) hold.2

/-- The only opening a step can refuse is the one that takes it. -/
theorem refusedWhenConsumed_of_update {phase : KeyPhase}
    (hphases : s'.phases = Function.update s.phases t phase)
    (hrows : phase = .insufficient → s.keys.rows = []) : RefusedWhenConsumed s s' := by
  intro t' hold hnew
  rw [hphases] at hnew
  by_cases ht : t' = t
  · subst ht
    rw [Function.update_self] at hnew
    exact hrows hnew
  · rw [Function.update_of_ne ht] at hnew
    exact absurd hnew hold

omit [DecidableEq τ] in
theorem pickStands_of_ne (hl : ∀ t, l ≠ .delete t) : PickStands s l :=
  fun t _ hdelete _ ↦ absurd hdelete (hl t)

/-- A refusal is right unless the opening has lost its key to another one and there are
others left. -/
theorem refusedWhenConsumed_iff (hs : keyStep s l = some s') :
    RefusedWhenConsumed s s' ↔ PickStands s l := by
  cases keyStep_move hs with
  | noKey _ hrows =>
      refine iff_of_true ?_ (pickStands_of_ne (by simp))
      exact refusedWhenConsumed_of_update rfl fun _ ↦ hrows
  | @delete t key hphase _ hmem =>
      refine iff_of_true (refusedWhenConsumed_of_update rfl (by simp)) ?_
      intro t' key' ht' hphase'
      cases ht'
      rw [hphase] at hphase'
      cases hphase'
      exact .inl hmem
  | @lose t key hphase hgone =>
      constructor
      · intro hrefused t' key' ht' hphase'
        cases ht'
        refine .inr (hrefused t ?_ ?_)
        · simp [hphase]
        · exact Function.update_self ..
      · intro hstands
        refine refusedWhenConsumed_of_update rfl fun _ ↦ ?_
        exact (hstands t key rfl hphase).resolve_left hgone
  | add hl _ hnew =>
      refine iff_of_true ?_ (pickStands_of_ne ?_)
      · exact refusedWhenConsumed_of_update rfl fun hins ↦ absurd hins hnew.2.2
      · rintro t rfl
        exact hl [t] (List.mem_singleton_self t)
  | pick | returned | insert | giveBack | fail =>
      refine iff_of_true ?_ (pickStands_of_ne (by simp))
      exact refusedWhenConsumed_of_update rfl (by simp)

end Inv

/-! ## As many openings as there are keys -/

/-- What holds while nothing but the openings `ts` happens, and they are refused only
when no key is left. -/
structure OpeningInv (ts : List τ) (held : Nat) (s : KeyState τ) : Prop where
  inv : KeyInv held s
  added : s.added = 0
  opened : ∀ t ∈ s.opened, t ∈ ts
  refused : ∀ t, s.phases t = .insufficient → s.keys.rows = []
  inserting : ∀ t keys left, s.phases t ≠ .inserting keys left

section Openings

variable {ts : List τ} {held : Nat} {s s' : KeyState τ} {t : τ} {l : KeyLabel τ}

/-- The openings go on, and no key appears. -/
theorem OpeningInv.move (h : OpeningInv ts held s) (hinv : KeyInv held s') {phase : KeyPhase}
    (hphases : s'.phases = Function.update s.phases t phase) (hadded : s'.added = s.added)
    (hopened : ∀ t' ∈ s'.opened, t' ∈ ts) (hrows : ∀ k ∈ s'.keys.rows, k ∈ s.keys.rows)
    (hrefused : phase = .insufficient → s.keys.rows = [])
    (hinserting : ∀ keys left, phase ≠ .inserting keys left) : OpeningInv ts held s' := by
  have hempty : s.keys.rows = [] → s'.keys.rows = [] := by
    intro hnil
    apply List.eq_nil_iff_forall_not_mem.mpr
    intro k hk
    have := hrows k hk
    rw [hnil] at this
    cases this
  refine ⟨hinv, hadded.trans h.added, hopened, ?_, ?_⟩
  · intro t' ht'
    apply hempty
    rw [hphases] at ht'
    by_cases ht : t' = t
    · subst ht
      rw [Function.update_self] at ht'
      exact hrefused ht'
    · rw [Function.update_of_ne ht] at ht'
      exact h.refused t' ht'
  · intro t' keys left
    rw [hphases]
    by_cases ht : t' = t
    · subst ht
      rw [Function.update_self]
      exact hinserting keys left
    · rw [Function.update_of_ne ht]
      exact h.inserting t' keys left

/-- A step of one of the openings keeps the invariant. -/
theorem OpeningInv.step (h : OpeningInv ts held s) (hl : l.opens ts) (hstands : PickStands s l)
    (hs : keyStep s l = some s') : OpeningInv ts held s' := by
  have hinv := h.inv.step hs
  cases keyStep_move hs with
  | pick => exact h.move hinv rfl rfl h.opened (fun _ ↦ id) (by simp) (by simp)
  | noKey _ hrows => exact h.move hinv rfl rfl h.opened (fun _ ↦ id) (fun _ ↦ hrows) (by simp)
  | delete => exact h.move hinv rfl rfl h.opened (fun _ ↦ id) (by simp) (by simp)
  | @lose t key hphase hgone =>
      have hrows := (hstands t key rfl hphase).resolve_left hgone
      exact h.move hinv rfl rfl h.opened (fun _ ↦ id) (fun _ ↦ hrows) (by simp)
  | add hl' => exact absurd hl (hl' ts)
  | returned =>
      refine h.move hinv rfl rfl ?_ (fun _ ↦ List.mem_of_mem_erase) (by simp) (by simp)
      intro t' ht'
      rcases List.mem_append.mp ht' with ht' | ht'
      · exact h.opened t' ht'
      · rw [List.mem_singleton.mp ht']
        exact hl
  | insert hphase => exact absurd hphase (h.inserting _ _ 0)
  | giveBack => exact absurd hl id
  | fail => exact absurd hl id

omit [DecidableEq τ] in
/-- Once each opening is answered, as many have returned as there were keys. -/
theorem OpeningInv.length_opened (h : OpeningInv ts held s) (hts : ts.Nodup)
    (hended : ∀ t ∈ ts, s.phases t = .opened ∨ s.phases t = .insufficient) :
    s.opened.length = min ts.length held := by
  have hcount := h.inv.counted.count
  have hle : s.opened.length ≤ ts.length :=
    h.inv.counted.nodup.length_le_of_subset h.opened
  rw [h.added] at hcount
  by_cases hrefused : ∃ t ∈ ts, s.phases t = .insufficient
  · obtain ⟨t, _, ht⟩ := hrefused
    have hnil := h.refused t ht
    rw [hnil, List.length_nil] at hcount
    omega
  · have hall : ∀ t ∈ ts, t ∈ s.opened := by
      intro t ht
      refine (h.inv.counted.returned t).mpr ((hended t ht).resolve_right ?_)
      exact fun hins ↦ hrefused ⟨t, ht, hins⟩
    have hge := hts.length_le_of_subset hall
    omega

end Openings

omit [DecidableEq τ] in
theorem KeyInv.init (held : List Int) : KeyInv held.length (keyring (τ := τ) held) := by
  constructor
  · rintro t key ⟨⟩
  · constructor
    · simp [keyring]
    · exact List.nodup_nil
    · simp [keyring]

/-- However the calls overlap, no key is lost and none is consumed twice. -/
theorem keysCounted_of_run (held : List Int) {ls : List (KeyLabel τ)} {s : KeyState τ}
    (hrun : Run (ofStep keyStep) (keyring held) ls s) : KeysCounted held.length s := by
  have hinv : KeyInv held.length s := hrun.invariant (fun _ _ _ h hs ↦ h.step hs) (.init held)
  exact hinv.counted

/-- In every run of openings, purchases and grants the keys are counted right and an
opening is refused only when no key is left, so that openings return as often as there
are keys, exactly when no opening of the run gets to its key after another one has
consumed it while there are others. -/
theorem keysAvailable_iff (held : List Int) {ls : List (KeyLabel τ)} {s : KeyState τ} :
    KeysAvailable held ls s ↔
      Run (Guarded PickStands (ofStep keyStep)) (keyring held) ls s := by
  have hiff : Run (fun s l s' ↦ keyStep s l = some s' ∧ KeysCounted held.length s' ∧
      RefusedWhenConsumed s s') (keyring held) ls s ↔
        Run (Guarded PickStands (ofStep keyStep)) (keyring held) ls s := by
    apply Run.congr (KeyInv held.length)
    · intro s l s' h
      constructor
      · rintro ⟨hs, _, hrefused⟩
        exact ⟨(refusedWhenConsumed_iff hs).mp hrefused, hs⟩
      · rintro ⟨hstands, hs⟩
        exact ⟨hs, (h.step hs).counted, (refusedWhenConsumed_iff hs).mpr hstands⟩
    · rintro s l s' h ⟨hs, _⟩
      exact h.step hs
    · exact .init held
  constructor
  · intro h
    exact hiff.mp h.run
  · intro hrun
    refine ⟨hiff.mpr hrun, fun ts hts hopens hended ↦ ?_⟩
    have hinv : OpeningInv ts held.length s := by
      apply (hrun.guarded hopens).invariant
      · rintro s l s' h ⟨hl, hstands, hs⟩
        exact h.step hl hstands hs
      · refine ⟨.init held, rfl, ?_, ?_, ?_⟩
        · rintro t ⟨⟩
        · rintro t ⟨⟩
        · rintro t keys left ⟨⟩
    exact hinv.length_opened hts hended

/-- Two openings choose the same key of two: one returns, the other is refused, and a key
is left. -/
theorem overlappingOpenings_refused :
    let ls : List (KeyLabel Bool) := [.pick false (some ⟨0, 10⟩), .pick true (some ⟨0, 10⟩),
      .delete false, .commit false, .delete true]
    ∃ s, ls.foldlM keyStep (keyring [10, 20]) = some s ∧ s.phases true = .insufficient ∧
      s.keys.rows = [⟨1, 20⟩] ∧ ¬ KeysAvailable [10, 20] ls s := by
  refine ⟨_, rfl, rfl, rfl, ?_⟩
  intro h
  have hlength := h.succeed [false, true] (by decide) (by decide) (by decide)
  exact absurd hlength (by decide)

end Genjishimada.Lootbox
