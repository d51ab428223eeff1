import Mathlib.Tactic.Common

/-!
# Programs with state and exceptions

Services are programs in `EStateM ε σ`: they change a state and may raise.  An
exception does *not* undo what the program did to the state; undoing is what
`transaction` is for, and it undoes only the part of the state a database owns.

The first part inverts and runs binds, so that a program is taken apart without
unfolding the monad.  The last part is about the programs in `StateM σ`, which only
change a state: `Steps R x` says that `R` relates the state before `x` to the state
after, and holds of a program as soon as it holds of its parts.
-/

namespace Genjishimada.Library

universe u

variable {ε σ α β : Type u}

/-- The state an outcome leaves behind. -/
def final : EStateM.Result ε σ α → σ
  | .ok _ s => s
  | .error _ s => s

@[simp] theorem final_ok (a : α) (s : σ) : final (.ok a s : EStateM.Result ε σ α) = s := rfl

@[simp] theorem final_error (e : ε) (s : σ) : final (.error e s : EStateM.Result ε σ α) = s := rfl

/-! ## Taking programs apart -/

section Bind

variable {x : EStateM ε σ α} {f : α → EStateM ε σ β} {s s' : σ} {a : α} {b : β} {e : ε}

@[simp] theorem pure_apply (a : α) (s : σ) : (pure a : EStateM ε σ α) s = .ok a s := rfl

@[simp] theorem get_apply (s : σ) : (get : EStateM ε σ σ) s = .ok s s := rfl

@[simp] theorem throw_apply (e : ε) (s : σ) : (throw e : EStateM ε σ α) s = .error e s := rfl

@[simp] theorem modifyGet_apply (f : σ → α × σ) (s : σ) :
    (modifyGet f : EStateM ε σ α) s = .ok (f s).1 (f s).2 := rfl

@[simp] theorem modify_apply (f : σ → σ) (s : σ) :
    (modify f : EStateM ε σ PUnit) s = .ok ⟨⟩ (f s) := rfl

/-- A bind runs its first part and, if that returns, its second. -/
theorem bind_apply (x : EStateM ε σ α) (f : α → EStateM ε σ β) (s : σ) :
    (x >>= f) s = match x s with
      | .ok a s' => f a s'
      | .error e s' => .error e s' := rfl

/-- A map changes what is returned. -/
theorem map_apply (f : α → β) (x : EStateM ε σ α) (s : σ) :
    (f <$> x) s = match x s with
      | .ok a s' => .ok (f a) s'
      | .error e s' => .error e s' := rfl

theorem bind_of_ok (h : x s = .ok a s') : (x >>= f) s = f a s' := by
  rw [bind_apply, h]

theorem bind_of_error (h : x s = .error e s') : (x >>= f) s = .error e s' := by
  rw [bind_apply, h]

/-- A bind returns exactly when both parts do. -/
theorem bind_eq_ok_iff :
    (x >>= f) s = .ok b s' ↔ ∃ a s₁, x s = .ok a s₁ ∧ f a s₁ = .ok b s' := by
  rw [bind_apply]
  cases h : x s with
  | ok a s₁ => simp
  | error e s₁ => simp

/-- A bind that returns went through its first part. -/
theorem exists_of_bind_ok {b : β} {s'' : σ} (h : (x >>= f) s = .ok b s'') :
    ∃ a s', x s = .ok a s' ∧ f a s' = .ok b s'' := by
  rw [bind_apply] at h
  cases hx : x s with
  | ok a s' =>
      rw [hx] at h
      exact ⟨a, s', rfl, h⟩
  | error e s' =>
      rw [hx] at h
      cases h

/-- A transitive relation holds across a bind when it holds across its parts. -/
theorem final_bind {R : σ → σ → Prop} (htrans : ∀ a b c, R a b → R b c → R a c)
    (hx : R s (final (x s))) (hf : ∀ a s', x s = .ok a s' → R s' (final (f a s'))) :
    R s (final ((x >>= f) s)) := by
  rw [bind_apply]
  cases h : x s with
  | ok a s' =>
      rw [h] at hx
      exact htrans _ _ _ hx (hf a s' h)
  | error e s' =>
      rw [h] at hx
      exact hx

/-- A handler runs in the state the exception left behind. -/
theorem tryCatch_apply (x : EStateM ε σ α) (handle : ε → EStateM ε σ α) (s : σ) :
    (tryCatch x handle) s = match x s with
      | .ok a s' => .ok a s'
      | .error e s' => handle e s' := by
  change EStateM.tryCatch x handle s = _
  rw [EStateM.tryCatch]
  cases x s <;> rfl

end Bind

/-! ## Programs without state -/

theorem except_error_not_ok {e : ε} : ¬∃ a : α, (.error e : Except ε α) = .ok a := by
  rintro ⟨a, h⟩
  cases h

/-- A bind returns exactly when both parts do. -/
theorem except_bind_eq_ok_iff {x : Except ε α} {f : α → Except ε β} {b : β} :
    (x >>= f) = .ok b ↔ ∃ a, x = .ok a ∧ f a = .ok b := by
  cases x with
  | ok a => simp [bind, Except.bind]
  | error e => simp [bind, Except.bind]

/-- What a bind raises, one of its parts raises. -/
theorem except_bind_eq_error_iff {x : Except ε α} {f : α → Except ε β} {e : ε} :
    (x >>= f) = .error e ↔ x = .error e ∨ ∃ a, x = .ok a ∧ f a = .error e := by
  cases x with
  | ok a => simp [bind, Except.bind]
  | error e => simp [bind, Except.bind]

/-- What follows a check runs if it passes. -/
theorem except_guard_bind {p : Prop} [Decidable p] {a : α} {e : ε} {f : α → Except ε β} :
    ((if p then .ok a else .error e) >>= f) = if p then f a else .error e := by
  split <;> rfl

/-- A loop ends if none of its iterations fails. -/
theorem isSome_mapM_iff {f : α → Option β} {l : List α} :
    (l.mapM f).isSome = true ↔ ∀ a ∈ l, (f a).isSome = true := by
  induction l with
  | nil => simp
  | cons a l ih =>
      rw [List.mapM_cons, List.forall_mem_cons, ← ih]
      cases f a with
      | none => simp
      | some b => cases l.mapM f <;> simp

/-! ## Transactions -/

/-- Run `x`; if it raises, put back the part of the state `restore` takes from
the state before.  This is `async with conn.transaction()`: `restore before after`
is `after` with the database of `before`. -/
def transaction (restore : σ → σ → σ) (x : EStateM ε σ α) : EStateM ε σ α := fun s ↦
  match x s with
  | .ok a s' => .ok a s'
  | .error e s' => .error e (restore s s')

theorem transaction_of_ok {restore : σ → σ → σ} {x : EStateM ε σ α} {s s' : σ} {a : α}
    (h : x s = .ok a s') : transaction restore x s = .ok a s' := by
  rw [transaction, h]

theorem transaction_of_error {restore : σ → σ → σ} {x : EStateM ε σ α} {s s' : σ} {e : ε}
    (h : x s = .error e s') : transaction restore x s = .error e (restore s s') := by
  rw [transaction, h]

/-! ## Frames of programs that cannot raise -/

/-- What follows the read of the state goes on with it. -/
theorem get_bind_apply (f : σ → StateM σ β) (s : σ) :
    ((get : StateM σ σ) >>= f) s = f s s := rfl

/-- Every run of `x` relates the state before to the state after by `R`. -/
def Steps (R : σ → σ → Prop) (x : StateM σ α) : Prop := ∀ s, R s (x s).2

namespace Steps

variable {R : σ → σ → Prop}

theorem pure (hrefl : ∀ s, R s s) (a : α) : Steps R (Pure.pure a : StateM σ α) := hrefl

theorem bind (htrans : ∀ a b c, R a b → R b c → R a c) {x : StateM σ α} {f : α → StateM σ β}
    (hx : Steps R x) (hf : ∀ a, Steps R (f a)) : Steps R (x >>= f) :=
  fun s ↦ htrans _ _ _ (hx s) (hf _ _)

/-- A loop moves the state as its iterations do. -/
theorem mapM (hrefl : ∀ s, R s s) (htrans : ∀ a b c, R a b → R b c → R a c)
    {f : α → StateM σ β} {l : List α} (hf : ∀ a ∈ l, Steps R (f a)) : Steps R (l.mapM f) := by
  induction l with
  | nil => exact pure hrefl _
  | cons a l ih =>
      rw [List.mapM_cons]
      have ih := ih fun b hb ↦ hf b (List.mem_cons_of_mem _ hb)
      exact bind htrans (hf a List.mem_cons_self) fun b ↦ bind htrans ih fun bs ↦ pure hrefl _

/-- What one iteration establishes and no iteration undoes holds after the loop. -/
theorem mapM_establishes {Q : σ → Prop} {f : α → StateM σ β} {l : List α} {a : α} (ha : a ∈ l)
    (hkeep : ∀ b, Steps (fun s s' ↦ Q s → Q s') (f b)) (hf : ∀ s, Q (f a s).2) (s : σ) :
    Q (l.mapM f s).2 := by
  induction l generalizing s with
  | nil => simp at ha
  | cons b l ih =>
      rw [List.mapM_cons]
      rcases List.mem_cons.mp ha with rfl | ha
      · exact mapM (fun _ ↦ id) (fun _ _ _ h h' hq ↦ h' (h hq)) (fun b _ ↦ hkeep b) _ (hf s)
      · exact ih ha _

theorem forM (hrefl : ∀ s, R s s) (htrans : ∀ a b c, R a b → R b c → R a c)
    {f : α → StateM σ PUnit} {l : List α} (hf : ∀ a ∈ l, Steps R (f a)) : Steps R (l.forM f) := by
  induction l with
  | nil => exact pure hrefl _
  | cons a l ih =>
      have ih := ih fun b hb ↦ hf b (List.mem_cons_of_mem _ hb)
      exact bind htrans (hf a List.mem_cons_self) fun _ ↦ ih

end Steps

/-! ## Loops that respect a relation

A loop whose body does the same in states related by `R` does the same in them. -/

section Respect

variable {R : σ → σ → Prop}

end Respect

/-! ## Loops that treat each key on its own

The body of the loop at `a` applies `F a` to what `v` shows at the key `k a`, and
changes nothing it shows elsewhere. -/

section Pointwise

variable {γ κ V : Type*} [DecidableEq κ] {v : σ → κ → V} {k : γ → κ} {F : γ → V → V}

theorem pointwise_cons {s s' s'' : σ} {a : γ} {l : List γ} (hl : ((a :: l).map k).Nodup)
    (ha : ∀ x, v s' x = if x = k a then F a (v s x) else v s x)
    (hrest : (∀ b ∈ l, v s'' (k b) = F b (v s' (k b))) ∧
      ∀ x, (∀ b ∈ l, k b ≠ x) → v s'' x = v s' x) :
    (∀ b ∈ a :: l, v s'' (k b) = F b (v s (k b))) ∧
      ∀ x, (∀ b ∈ a :: l, k b ≠ x) → v s'' x = v s x := by
  have hne : ∀ b ∈ l, k b ≠ k a := fun b hb h ↦
    (List.nodup_cons.mp hl).1 (h ▸ List.mem_map_of_mem hb)
  refine ⟨List.forall_mem_cons.mpr ⟨?_, fun b hb ↦ ?_⟩, fun x hx ↦ ?_⟩
  · rw [hrest.2 _ hne, ha, if_pos rfl]
  · rw [hrest.1 b hb, ha, if_neg (hne b hb)]
  · obtain ⟨hxa, hxl⟩ := List.forall_mem_cons.mp hx
    rw [hrest.2 x hxl, ha, if_neg hxa.symm]

theorem mapM_pointwise {γ : Type u} {κ V : Type*} [DecidableEq κ] {v : σ → κ → V} {k : γ → κ}
    {F : γ → V → V} {f : γ → StateM σ β}
    (hf : ∀ a s x, v (f a s).2 x = if x = k a then F a (v s x) else v s x)
    {l : List γ} (hl : (l.map k).Nodup) (s : σ) :
    (∀ a ∈ l, v (l.mapM f s).2 (k a) = F a (v s (k a))) ∧
      ∀ x, (∀ a ∈ l, k a ≠ x) → v (l.mapM f s).2 x = v s x := by
  induction l generalizing s with
  | nil => exact ⟨fun a ha ↦ absurd ha List.not_mem_nil, fun x _ ↦ rfl⟩
  | cons a l ih =>
      rw [List.mapM_cons]
      exact pointwise_cons hl (hf a s) (ih (List.nodup_cons.mp hl).2 (f a s).2)

theorem forM_pointwise {f : γ → StateM σ PUnit}
    (hf : ∀ a s x, v (f a s).2 x = if x = k a then F a (v s x) else v s x)
    {l : List γ} (hl : (l.map k).Nodup) (s : σ) :
    (∀ a ∈ l, v (l.forM f s).2 (k a) = F a (v s (k a))) ∧
      ∀ x, (∀ a ∈ l, k a ≠ x) → v (l.forM f s).2 x = v s x := by
  induction l generalizing s with
  | nil => exact ⟨fun a ha ↦ absurd ha List.not_mem_nil, fun x _ ↦ rfl⟩
  | cons a l ih => exact pointwise_cons hl (hf a s) (ih (List.nodup_cons.mp hl).2 (f a s).2)

end Pointwise

end Genjishimada.Library
