import Genjishimada.Services.Users

/-!
# When the usernames of a user are replaced as a whole

The delete is committed before the first insert, so that a call which is refused at the `k`-th
username leaves the `k` before it.  That is what was stored only if it happens to be.
-/

namespace Genjishimada.Users

open Library Repository Services.UsersService

variable {lost : Nat → Bool} {d : OverwatchDb} {users : List Nat} {u k l : Nat}
  {item : OverwatchUsernameItem} {items done rest : List OverwatchUsernameItem}

/-! ## What a statement stores -/

/-- With `earlier` stored, no constraint refuses the username. -/
def Accepted (users : List Nat) (u : Nat) (earlier : List OverwatchUsernameItem)
    (item : OverwatchUsernameItem) : Prop :=
  u ∈ users ∧ ∀ other ∈ earlier,
    other.username ≠ item.username ∧ ¬ (other.isPrimary = true ∧ item.isPrimary = true)

theorem stored_delete (d : OverwatchDb) (u : Nat) : (d.deleteOverwatchUsernames u).stored u = [] := by
  simp [OverwatchDb.stored, OverwatchDb.deleteOverwatchUsernames, Table.select]

theorem insert_of_accepted (h : Accepted d.users u (d.stored u) item) :
    ∃ d', d.insertOverwatchUsername u item = (.ok (), d') ∧ d'.users = d.users ∧
      d'.stored u = d.stored u ++ [item] := by
  have hfree : d.collides u item = false := by
    simpa [OverwatchDb.collides] using h.2
  refine ⟨{ d with usernames := d.usernames.insert fun id ↦ { id, userId := u, item } }, ?_, rfl, ?_⟩
  · simp [OverwatchDb.insertOverwatchUsername, hfree, h.1]
  · simp [OverwatchDb.stored, Table.select]

theorem insert_of_not_accepted (h : ¬ Accepted d.users u (d.stored u) item) :
    ∃ refusal d', d.insertOverwatchUsername u item = (.error refusal, d') ∧
      d'.stored u = d.stored u := by
  rw [OverwatchDb.insertOverwatchUsername]
  split
  · exact ⟨.unique, _, rfl, rfl⟩
  · rename_i hfree
    split
    · exact ⟨.foreignKey, _, rfl, rfl⟩
    · rename_i hu
      refine absurd ⟨not_not.mp hu, ?_⟩ h
      simpa [OverwatchDb.collides] using hfree

/-! ## Where the loop stops -/

/-- The `k`-th insert is run and accepted. -/
def Stores (lost : Nat → Bool) (users : List Nat) (u : Nat) (items : List OverwatchUsernameItem)
    (k : Nat) : Prop :=
  lost (k + 1) = false ∧ ∀ item, items[k]? = some item → Accepted users u (items.take k) item

/-- The `k`-th insert is the first that is refused or fails. -/
structure Stops (lost : Nat → Bool) (users : List Nat) (u : Nat)
    (items : List OverwatchUsernameItem) (k : Nat) : Prop where
  lt : k < items.length
  before : ∀ i < k, Stores lost users u items i
  stops : ¬ Stores lost users u items k

theorem Stops.unique (h : Stops lost users u items k) (h' : Stops lost users u items l) : k = l := by
  rcases lt_trichotomy k l with hkl | rfl | hlk
  · exact absurd (h'.before k hkl) h.stops
  · rfl
  · exact absurd (h.before l hlk) h'.stops

theorem statement_insert {r : Except UsernameRefusal Unit} {d' : OverwatchDb}
    (h : d.insertOverwatchUsername u item = (r, d')) :
    statement false (fun d ↦ d.insertOverwatchUsername u item) d = .ok r d' := by
  rw [statement, h]
  rfl

theorem insertItems_of_accepted {i : Nat} {d' : OverwatchDb} (hlost : lost i = false)
    (h : d.insertOverwatchUsername u item = (.ok (), d')) :
    insertItems lost u i (item :: rest) d = insertItems lost u (i + 1) rest d' := by
  rw [insertItems, hlost]
  rw [bind_of_ok (statement_insert h)]

theorem insertItems_of_refused {i : Nat} {d' : OverwatchDb} {refusal : UsernameRefusal}
    (hlost : lost i = false) (h : d.insertOverwatchUsername u item = (.error refusal, d')) :
    ∃ e, insertItems lost u i (item :: rest) d = .error e d' := by
  rw [insertItems, hlost]
  rw [bind_of_ok (statement_insert h)]
  cases refusal with
  | foreignKey => exact ⟨.userNotFound u, rfl⟩
  | unique => exact ⟨.duplicateOverwatchUsername u item.username, rfl⟩

theorem insertItems_of_lost {i : Nat} (hlost : lost i = true) :
    insertItems lost u i (item :: rest) d = .error .database d := by
  rw [insertItems, hlost]
  exact bind_of_error rfl

/-- The loop returns with every username stored, or raises where it stops. -/
theorem insertItems_cases (lost : Nat → Bool) (rest : List OverwatchUsernameItem)
    (hstored : d.stored u = done)
    (hbefore : ∀ i < done.length, Stores lost d.users u (done ++ rest) i) :
    (∃ d', insertItems lost u (done.length + 1) rest d = .ok () d' ∧ d'.stored u = done ++ rest ∧
      ∀ i < (done ++ rest).length, Stores lost d.users u (done ++ rest) i) ∨
    ∃ e d' k, insertItems lost u (done.length + 1) rest d = .error e d' ∧
      Stops lost d.users u (done ++ rest) k ∧ d'.stored u = (done ++ rest).take k := by
  induction rest generalizing d done with
  | nil => exact .inl ⟨d, rfl, by simpa using hstored, by simpa using hbefore⟩
  | cons item rest ih =>
      have hitem : (done ++ item :: rest)[done.length]? = some item := by simp
      have htake : (done ++ item :: rest).take done.length = done := by simp
      have hlt : done.length < (done ++ item :: rest).length := by simp
      cases hlost : lost (done.length + 1) with
      | true =>
          refine .inr ⟨.database, d, done.length, ?_, ⟨hlt, hbefore, ?_⟩, by rw [htake, hstored]⟩
          · exact insertItems_of_lost hlost
          · simp [Stores, hlost]
      | false =>
          by_cases hacc : Accepted d.users u (d.stored u) item
          · obtain ⟨d', hrun, husers, hstored'⟩ := insert_of_accepted hacc
            have hstep : insertItems lost u (done.length + 1) (item :: rest) d =
                insertItems lost u ((done ++ [item]).length + 1) rest d' := by
              rw [insertItems_of_accepted hlost hrun, List.length_append, List.length_singleton]
            have happend : done ++ [item] ++ rest = done ++ item :: rest := by simp
            have hbefore' : ∀ i < (done ++ [item]).length,
                Stores lost d'.users u (done ++ [item] ++ rest) i := by
              intro i hi
              rw [happend, husers]
              rcases Nat.lt_succ_iff_lt_or_eq.mp (by simpa using hi) with hi | rfl
              · exact hbefore i hi
              · refine ⟨hlost, fun item' hitem' ↦ ?_⟩
                rw [hitem] at hitem'
                cases hitem'
                rw [htake, ← hstored]
                exact hacc
            have hrec := ih (by rw [hstored', hstored]) hbefore'
            rwa [happend, husers, ← hstep] at hrec
          · obtain ⟨refusal, d', hrun, hstored'⟩ := insert_of_not_accepted hacc
            have hraise : ∃ e, insertItems lost u (done.length + 1) (item :: rest) d = .error e d' :=
              insertItems_of_refused hlost hrun
            obtain ⟨e, hraise⟩ := hraise
            refine .inr ⟨e, d', done.length, hraise, ⟨hlt, hbefore, fun hstores ↦ hacc ?_⟩, ?_⟩
            · rw [hstored, ← htake]
              exact hstores.2 item hitem
            · rw [hstored', hstored, htake]

/-! ## The whole call -/

/-- If the call returns, the stored usernames are the new ones; if it raises, they are what they
were. -/
def AllOrNothing (d : OverwatchDb) (u : Nat) (items : List OverwatchUsernameItem) :
    EStateM.Result UsersError OverwatchDb Unit → Prop
  | .ok _ d' => (d'.stored u).Perm items
  | .error _ d' => (d'.stored u).Perm (d.stored u)

/-- Replacing the usernames is all or nothing exactly if the delete fails, no insert is refused or
fails, or what was stored is what comes before the first that is. -/
theorem setOverwatchUsernames_allOrNothing_iff (lost : Nat → Bool) (d : OverwatchDb) (u : Nat)
    (items : List OverwatchUsernameItem) :
    AllOrNothing d u items (setOverwatchUsernames lost u items d) ↔
      lost 0 = true ∨ ∀ k, Stops lost d.users u items k → (items.take k).Perm (d.stored u) := by
  cases hlost : lost 0 with
  | true =>
      have hrun : setOverwatchUsernames lost u items d = .error .database d := by
        simp [setOverwatchUsernames, statement, hlost, bind_apply]
      simp [hrun, AllOrNothing]
  | false =>
      have hrun : setOverwatchUsernames lost u items d =
          insertItems lost u 1 items (d.deleteOverwatchUsernames u) := by
        simp [setOverwatchUsernames, statement, hlost, bind_apply]
      have hloop := insertItems_cases lost items (stored_delete d u) (by simp)
      rw [hrun]
      rcases hloop with ⟨d', hret, hstored, hall⟩ | ⟨e, d', k, hraise, hstops, hstored⟩
      · have hnone : ∀ k, ¬ Stops lost d.users u items k := fun k hk ↦ hk.stops (hall k hk.lt)
        have hret : insertItems lost u 1 items (d.deleteOverwatchUsernames u) = .ok () d' := hret
        simp [hret, AllOrNothing, hstored, hnone]
      · have hraise : insertItems lost u 1 items (d.deleteOverwatchUsernames u) = .error e d' :=
          hraise
        rw [hraise, AllOrNothing, hstored]
        constructor
        · intro hperm
          refine .inr fun k' hk' ↦ ?_
          rw [hk'.unique hstops]
          exact hperm
        · rintro (hfalse | hsame)
          · cases hfalse
          · exact hsame k hstops

/-- A user with one username. -/
def named : OverwatchDb where
  users := [1]
  usernames := Table.empty.insert fun id ↦
    { id, userId := 1, item := { username := "Old", isPrimary := true } }

theorem repeatedUsername_not_allOrNothing :
    ¬ AllOrNothing named 1 [⟨"New", true⟩, ⟨"New", false⟩]
      (setOverwatchUsernames (fun _ ↦ false) 1 [⟨"New", true⟩, ⟨"New", false⟩] named) := by
  have hstored : (final (setOverwatchUsernames (fun _ ↦ false) 1
      [⟨"New", true⟩, ⟨"New", false⟩] named)).stored 1 = [⟨"New", true⟩] := by decide
  change ¬ ((final (setOverwatchUsernames (fun _ ↦ false) 1
      [⟨"New", true⟩, ⟨"New", false⟩] named)).stored 1).Perm (named.stored 1)
  rw [hstored]
  decide

end Genjishimada.Users
