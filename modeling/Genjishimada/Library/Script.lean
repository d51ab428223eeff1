import Mathlib.Tactic.Common

/-!
# Statements sent one by one

A `Script σ α` sends statements to a database of state `σ`; what it sends next depends on the
answers.  `exec` runs it when the `n`-th statement raises, and `finish` when none does.  On a
connection that is in no transaction every statement is kept at once, so a fault keeps what was
sent before it.  `atomically` sends the same statements between `BEGIN` and `COMMIT`: they work
on a state of their own, which replaces the state of the database at the commit.
-/

namespace Genjishimada.Library

universe u

/-- Statements and what follows their answers. -/
inductive Script (σ α : Type u) : Type u
  | ret (a : α)
  | send (effect : σ → σ) (next : σ → Script σ α)

namespace Script

variable {σ α β : Type u}

/-! ## Building scripts -/

def bind : Script σ α → (α → Script σ β) → Script σ β
  | ret a, f => f a
  | send effect next, f => send effect fun s ↦ (next s).bind f

instance : Monad (Script σ) where
  pure := ret
  bind := bind

@[simp] theorem ret_bind (a : α) (f : α → Script σ β) : (ret a : Script σ α) >>= f = f a := rfl

@[simp] theorem pure_eq (a : α) : (pure a : Script σ α) = ret a := rfl

@[simp] theorem send_bind (effect : σ → σ) (next : σ → Script σ α) (f : α → Script σ β) :
    send effect next >>= f = send effect fun s ↦ next s >>= f := rfl

/-- A statement that answers. -/
def statement (f : StateM σ α) : Script σ α := send (fun s ↦ (f s).2) fun s ↦ ret (f s).1

def query (q : σ → α) : Script σ α := send id fun s ↦ ret (q s)

/-- A step that leaves the database alone. -/
def external : Script σ PUnit := send id fun _ ↦ ret ⟨⟩

/-- The statements work on `t`, which the commit makes the state of the database. -/
def within : Script σ α → σ → Script σ α
  | ret a, t => send (fun _ ↦ t) fun _ ↦ ret a
  | send effect next, t => send id fun _ ↦ (next t).within (effect t)

/-- `async with conn.transaction()` -/
def atomically (x : Script σ α) : Script σ α := send id x.within

/-! ## Running scripts -/

/-- The answer and the state in the end, when no statement raises. -/
def finish : Script σ α → σ → α × σ
  | ret a, s => (a, s)
  | send effect next, s => (next s).finish (effect s)

/-- How many statements are sent when none raises. -/
def sent : Script σ α → σ → Nat
  | ret _, _ => 0
  | send effect next, s => (next s).sent (effect s) + 1

/-- The state that is left when the statement after the first `n` raises. -/
def exec : Script σ α → Nat → σ → σ
  | ret _, _, s => s
  | send _ _, 0, s => s
  | send effect next, n + 1, s => (next s).exec n (effect s)

variable (x : Script σ α) (f : α → Script σ β) (n : Nat) (s : σ)

theorem finish_bind : (x >>= f).finish s = (f (x.finish s).1).finish (x.finish s).2 := by
  induction x generalizing s with
  | ret a => rfl
  | send effect next ih => exact ih s (effect s)

theorem sent_bind : (x >>= f).sent s = x.sent s + (f (x.finish s).1).sent (x.finish s).2 := by
  induction x generalizing s with
  | ret a => exact (Nat.zero_add _).symm
  | send effect next ih =>
      change ((next s) >>= f).sent (effect s) + 1 = (next s).sent (effect s) + 1 + _
      rw [ih, Nat.add_right_comm]
      rfl

@[simp] theorem exec_zero : x.exec 0 s = s := by
  cases x <;> rfl

/-- A fault in the first part, or in the second. -/
theorem exec_bind_of_lt (h : n < x.sent s) : (x >>= f).exec n s = x.exec n s := by
  induction x generalizing n s with
  | ret a => cases h
  | send effect next ih =>
      cases n with
      | zero => rfl
      | succ n => exact ih s n (effect s) (Nat.lt_of_succ_lt_succ h)

theorem exec_bind_add :
    (x >>= f).exec (x.sent s + n) s = (f (x.finish s).1).exec n (x.finish s).2 := by
  induction x generalizing s with
  | ret a =>
      change (f a).exec (0 + n) s = _
      rw [Nat.zero_add]
      rfl
  | send effect next ih =>
      change ((send effect next) >>= f).exec ((next s).sent (effect s) + 1 + n) s = _
      rw [Nat.add_right_comm]
      exact ih s (effect s)

theorem exec_query_bind (q : σ → α) : (query q >>= f).exec (n + 1) s = (f (q s)).exec n s := rfl

theorem exec_statement_bind (g : StateM σ α) :
    (statement g >>= f).exec (n + 1) s = (f (g s).1).exec n (g s).2 := rfl

/-- No statement is left to raise. -/
theorem exec_of_le (h : x.sent s ≤ n) : x.exec n s = (x.finish s).2 := by
  induction x generalizing n s with
  | ret a => rfl
  | send effect next ih =>
      cases n with
      | zero => cases h
      | succ n => exact ih s n (effect s) (Nat.le_of_succ_le_succ h)

/-! ## Transactions -/

theorem finish_within (t : σ) : (x.within t).finish s = x.finish t := by
  induction x generalizing s t with
  | ret a => rfl
  | send effect next ih => exact ih t s (effect t)

/-- A transaction does what its statements do. -/
@[simp] theorem finish_atomically : x.atomically.finish s = x.finish s := finish_within x s s

theorem sent_within (t : σ) : (x.within t).sent s = x.sent t + 1 := by
  induction x generalizing s t with
  | ret a => rfl
  | send effect next ih => exact congrArg (· + 1) (ih t s (effect t))

/-- `BEGIN`, the statements and `COMMIT`. -/
@[simp] theorem sent_atomically : x.atomically.sent s = x.sent s + 2 :=
  congrArg (· + 1) (sent_within x s s)

/-- Before the commit nothing is kept. -/
theorem exec_within (t : σ) :
    (x.within t).exec n s = if n < x.sent t + 1 then s else (x.finish t).2 := by
  induction x generalizing n s t with
  | ret a =>
      cases n with
      | zero => rfl
      | succ n => exact (if_neg (Nat.not_lt.mpr (Nat.le_add_left 1 n))).symm
  | send effect next ih =>
      cases n with
      | zero => rfl
      | succ n =>
          change ((next t).within (effect t)).exec n s = _
          rw [ih t n s (effect t)]
          exact if_congr (Nat.succ_lt_succ_iff).symm rfl rfl

theorem exec_atomically_eq :
    x.atomically.exec n s = if n < x.sent s + 2 then s else (x.finish s).2 := by
  cases n with
  | zero => rfl
  | succ n =>
      change (x.within s).exec n s = _
      rw [exec_within]
      exact if_congr (Nat.succ_lt_succ_iff).symm rfl rfl

/-- Wherever the fault is, a transaction does nothing or everything. -/
theorem exec_atomically : x.atomically.exec n s = s ∨ x.atomically.exec n s = (x.finish s).2 := by
  rw [exec_atomically_eq]
  split
  · exact .inl rfl
  · exact .inr rfl

/-! ## Reading -/

/-- A script that only reads leaves the state alone. -/
def Reads (x : Script σ α) : Prop := ∀ n s, x.exec n s = s

namespace Reads

theorem ret (a : α) : Reads (ret a : Script σ α) := fun _ _ ↦ rfl

theorem send {next : σ → Script σ α} (h : ∀ s, Reads (next s)) : Reads (send id next) := by
  intro n s
  cases n with
  | zero => rfl
  | succ n => exact h s n s

theorem query_bind (q : σ → α) {f : α → Script σ β} (h : ∀ a, Reads (f a)) :
    Reads (query q >>= f) := .send fun s ↦ h (q s)

end Reads

/-- What follows does not matter if it only reads. -/
theorem exec_bind_of_reads (hf : ∀ a, Reads (f a)) : (x >>= f).exec n s = x.exec n s := by
  induction x generalizing n s with
  | ret a => exact hf a n s
  | send effect next ih =>
      cases n with
      | zero => rfl
      | succ n => exact ih s n (effect s)

end Script

end Genjishimada.Library
