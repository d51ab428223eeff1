import Genjishimada.Library.Program

/-!
# Transactions in which a statement can fail

A program of type `Tx ε σ α` runs inside one database transaction with no savepoint.
Once a statement has failed, the transaction is aborted: the program may handle the
failure and go on, but every further statement raises, and the transaction ends
without a trace, even if its program returns.

`Tx.attempt` is a statement that can fail; it hands the failure to the program as a
value, so that the program decides what to raise.  `Tx.commit` is the whole
transaction.  Being a program in `EStateM`, a transaction is taken apart by the same
rules as any other.
-/

namespace Genjishimada.Library

universe u

/-- The connection of an open transaction. -/
structure Connection (σ : Type u) where
  db : σ
  aborted : Bool := false

abbrev Tx (ε σ α : Type u) : Type u := EStateM ε (Connection σ) α

namespace Tx

variable {ε σ α β η : Type u}

section Statements

/-! `failed` is what a statement of an aborted transaction raises. -/

variable (failed : ε)

/-- A statement that can fail. -/
def attempt (f : σ → Except η (α × σ)) : Tx ε σ (Except η α) := fun c ↦
  if c.aborted then .error failed c
  else
    match f c.db with
    | .ok (a, db) => .ok (.ok a) { c with db }
    | .error e => .ok (.error e) { c with aborted := true }

/-- A statement that cannot. -/
def statement (f : σ → α × σ) : Tx ε σ α := fun c ↦
  if c.aborted then .error failed c
  else .ok (f c.db).1 { c with db := (f c.db).2 }

def query (q : σ → α) : Tx ε σ α := statement failed fun db ↦ (q db, db)

def execute (f : σ → σ) : Tx ε σ PUnit := statement failed fun db ↦ (⟨⟩, f db)

end Statements

/-- The transaction: what the program did is kept when it returns, unless a statement
has failed. -/
def commit (x : Tx ε σ α) : EStateM ε σ α := fun db ↦
  match x { db } with
  | .ok a c => .ok a (if c.aborted then db else c.db)
  | .error e _ => .error e db

/-! ## Running -/

section Apply

variable {failed : ε} {x : Tx ε σ α} {c : Connection σ} {db db' : σ} {a : α} {e : ε}

@[simp] theorem query_apply (q : σ → α) (db : σ) :
    (query failed q : Tx ε σ α) { db } = .ok (q db) { db } := rfl

@[simp] theorem execute_apply (f : σ → σ) (db : σ) :
    (execute failed f : Tx ε σ PUnit) { db } = .ok ⟨⟩ { db := f db } := rfl

theorem attempt_of_ok {f : σ → Except η (α × σ)} (h : f db = .ok (a, db')) :
    (attempt failed f : Tx ε σ _) { db } = .ok (.ok a) { db := db' } := by
  simp [attempt, h]

/-- A statement that fails aborts the transaction. -/
theorem attempt_of_error {f : σ → Except η (α × σ)} {e : η} (h : f db = .error e) :
    (attempt failed f : Tx ε σ _) { db } = .ok (.error e) { db, aborted := true } := by
  simp [attempt, h]

/-- In an aborted transaction every statement raises. -/
theorem attempt_of_aborted (f : σ → Except η (α × σ)) (h : c.aborted = true) :
    (attempt failed f : Tx ε σ _) c = .error failed c := if_pos h

theorem commit_of_ok (h : x { db } = .ok a { db := db' }) : x.commit db = .ok a db' := by
  rw [commit, h]
  rfl

theorem commit_of_error (h : x { db } = .error e c) : x.commit db = .error e db := by
  rw [commit, h]

end Apply

/-- What the program leaves to commit: nothing, because it raises, or a database. -/
def Leaves (x : Tx ε σ α) (db : σ) : Option σ → Prop
  | none => ∃ e c, x { db } = .error e c
  | some db' => ∃ a, x { db } = .ok a { db := db' }

namespace Leaves

variable {x : Tx ε σ α} {f : α → Tx ε σ β} {db db' : σ} {o : Option σ}

theorem of_ok {a : α} (h : x { db } = .ok a { db := db' }) : Leaves x db (some db') := ⟨a, h⟩

theorem of_error {e : ε} {c : Connection σ} (h : x { db } = .error e c) : Leaves x db none := ⟨e, c, h⟩

/-- What is left by a program after one that leaves `db'`. -/
theorem bind {a : α} (hx : x { db } = .ok a { db := db' }) (hf : Leaves (f a) db' o) :
    Leaves (x >>= f) db o := by
  cases o with
  | none =>
      obtain ⟨e, c, h⟩ := hf
      exact ⟨e, c, by rw [bind_of_ok hx, h]⟩
  | some db'' =>
      obtain ⟨b, h⟩ := hf
      exact ⟨b, by rw [bind_of_ok hx, h]⟩

/-- The transaction leaves what its program does. -/
theorem final_commit (h : Leaves x db o) : final (x.commit db) = o.getD db := by
  cases o with
  | none =>
      obtain ⟨e, c, h⟩ := h
      rw [commit_of_error h]
      rfl
  | some db' =>
      obtain ⟨a, h⟩ := h
      rw [commit_of_ok h]
      rfl

end Leaves

end Tx

end Genjishimada.Library
