import Genjishimada.Services.Base
import Mathlib.Data.Multiset.Basic

/-!
# What a service sends

`Sends receipt x w rs Post` says everything a caller needs to know about the
publishing a program `x` does when it starts in the world `w`: it makes one attempt
per entry of `rs`, in that order; it raises exactly when one of those attempts
does; and otherwise it returns, the broker has received the entries whose attempts
were delivered, and `Post` holds of the returned value and the database.

A receipt is what is kept of a message.  The rules follow the program: `pure` and
statements send nothing, `publishMessage` sends one message, binds and loops
concatenate.
-/

namespace Genjishimada.Services

open Library

variable {δ β ε ρ α γ : Type}

/-! ## Attempts -/

/-- How the attempt with this number ends. -/
def attemptAt (faults : List PublishFaults) (i : Nat) : Attempt := (faults.getD i {}).attempt

/-- One of the next `n` attempts raises. -/
def Raises (faults : List PublishFaults) (n : Nat) : Prop :=
  ∃ i < n, (attemptAt faults i).isRaised = true

/-- One of the next `n` attempts is swallowed. -/
def Swallows (faults : List PublishFaults) (n : Nat) : Prop :=
  ∃ i < n, attemptAt faults i = .swallowed

/-- The entries whose attempts are delivered, one attempt being made for each. -/
def delivered : List PublishFaults → List ρ → List ρ
  | _, [] => []
  | faults, r :: rs =>
      if attemptAt faults 0 = .delivered then r :: delivered faults.tail rs
      else delivered faults.tail rs

theorem attemptAt_tail (faults : List PublishFaults) (i : Nat) :
    attemptAt faults.tail i = attemptAt faults (i + 1) := by
  cases faults <;> simp [attemptAt]

theorem attemptAt_drop (faults : List PublishFaults) (n i : Nat) :
    attemptAt (faults.drop n) i = attemptAt faults (n + i) := by
  simp [attemptAt, List.getD_eq_getElem?_getD]

theorem raises_add (faults : List PublishFaults) (m n : Nat) :
    Raises faults (m + n) ↔ Raises faults m ∨ Raises (faults.drop m) n := by
  constructor
  · rintro ⟨i, hi, h⟩
    by_cases him : i < m
    · exact .inl ⟨i, him, h⟩
    · refine .inr ⟨i - m, by omega, ?_⟩
      rw [attemptAt_drop, Nat.add_sub_cancel' (by omega)]
      exact h
  · rintro (⟨i, hi, h⟩ | ⟨i, hi, h⟩)
    · exact ⟨i, by omega, h⟩
    · rw [attemptAt_drop] at h
      exact ⟨m + i, by omega, h⟩

theorem Raises.mono {faults : List PublishFaults} {m n : Nat} (h : Raises faults m) (hmn : m ≤ n) :
    Raises faults n := by
  obtain ⟨i, hi, hr⟩ := h
  exact ⟨i, by omega, hr⟩

theorem delivered_append (faults : List PublishFaults) (rs rs' : List ρ) :
    delivered faults (rs ++ rs') = delivered faults rs ++ delivered (faults.drop rs.length) rs' := by
  induction rs generalizing faults with
  | nil => simp [delivered]
  | cons r rs ih =>
      have hdrop : faults.drop (rs.length + 1) = faults.tail.drop rs.length := by
        cases faults <;> simp
      rw [List.cons_append, delivered, delivered, List.length_cons, hdrop, ih]
      split <;> simp

theorem delivered_sublist (faults : List PublishFaults) (rs : List ρ) :
    (delivered faults rs).Sublist rs := by
  induction rs generalizing faults with
  | nil => exact .slnil
  | cons r rs ih =>
      rw [delivered]
      split
      · exact (ih _).cons_cons r
      · exact (ih _).cons r

/-- Everything arrives exactly when no attempt raises and none is swallowed. -/
theorem delivered_eq_iff (faults : List PublishFaults) (rs : List ρ) :
    delivered faults rs = rs ↔ ¬ Raises faults rs.length ∧ ¬ Swallows faults rs.length := by
  have hall : delivered faults rs = rs ↔ ∀ i < rs.length, attemptAt faults i = .delivered := by
    induction rs generalizing faults with
    | nil => simp [delivered]
    | cons r rs ih =>
        rw [delivered, List.length_cons]
        constructor
        · intro h i hi
          split at h
          · rename_i h0
            cases i with
            | zero => exact h0
            | succ i =>
                rw [← attemptAt_tail]
                exact (ih _).mp (List.cons.inj h).2 i (by omega)
          · have hlen := (delivered_sublist faults.tail rs).length_le
            rw [h, List.length_cons] at hlen
            omega
        · intro h
          rw [if_pos (h 0 (by omega)), (ih _).mpr fun i hi ↦ ?_]
          rw [attemptAt_tail]
          exact h (i + 1) (by omega)
  rw [hall]
  constructor
  · intro h
    constructor
    · rintro ⟨i, hi, hr⟩
      rw [h i hi] at hr
      cases hr
    · rintro ⟨i, hi, hs⟩
      rw [h i hi] at hs
      cases hs
  · rintro ⟨hr, hs⟩ i hi
    cases h : attemptAt faults i with
    | raised e => exact absurd ⟨i, hi, by rw [h]; rfl⟩ hr
    | swallowed => exact absurd ⟨i, hi, h⟩ hs
    | delivered => rfl

theorem not_raises_nil (n : Nat) : ¬ Raises [] n := by
  rintro ⟨i, _, h⟩
  cases h

/-- Without faults everything is delivered. -/
theorem delivered_nil (rs : List ρ) : delivered [] rs = rs := by
  refine (delivered_eq_iff [] rs).mpr ⟨not_raises_nil _, ?_⟩
  rintro ⟨i, _, h⟩
  cases h

/-- As multisets too, the deliveries cover the attempts only when they are all of them. -/
theorem coe_le_delivered_iff (faults : List PublishFaults) (rs : List ρ) :
    (rs : Multiset ρ) ≤ delivered faults rs ↔
      ¬ Raises faults rs.length ∧ ¬ Swallows faults rs.length := by
  rw [← delivered_eq_iff]
  constructor
  · intro h
    exact (delivered_sublist faults rs).eq_of_length_le (Multiset.card_le_card h)
  · intro h
    rw [h]

/-! ## The rules -/

/-- The receipts of everything the broker has received. -/
def World.receipts (receipt : Message β → Option ρ) (w : World δ β) : List ρ :=
  w.broker.filterMap receipt

/-- From `w`, the program makes one publish attempt per entry of `rs`. -/
structure Sends (receipt : Message β → Option ρ) (x : Service δ β ε α) (w : World δ β)
    (rs : List ρ) (Post : α → δ → Prop) : Prop where
  /-- If no attempt raises, the program returns. -/
  returns : ¬ Raises w.faults rs.length → ∃ a w', x w = .ok a w' ∧
    w'.faults = w.faults.drop rs.length ∧
    w'.receipts receipt = w.receipts receipt ++ delivered w.faults rs ∧ Post a w'.db
  /-- If one does, so does the program. -/
  raises : Raises w.faults rs.length → ∃ e w', x w = .error e w'

namespace Sends

variable {receipt : Message β → Option ρ} {x : Service δ β ε α} {w : World δ β} {rs rs' : List ρ}
  {Post : α → δ → Prop}

theorem not_raises_zero (faults : List PublishFaults) : ¬ Raises faults 0 := by
  rintro ⟨i, hi, _⟩
  omega

/-- A program that sends nothing, whose outcome is known. -/
theorem of_eq {a : α} {db : δ} (h : x w = .ok a { w with db := db }) (hpost : Post a db) :
    Sends receipt x w [] Post where
  returns _ := ⟨a, { w with db := db }, h, by simp, by simp [World.receipts, delivered], hpost⟩
  raises hr := absurd hr (not_raises_zero _)

theorem pure (a : α) (h : Post a w.db) : Sends receipt (Pure.pure a : Service δ β ε α) w [] Post :=
  of_eq rfl h

theorem query (q : δ → α) :
    Sends receipt (query q : Service δ β ε α) w [] fun a db ↦ a = q w.db ∧ db = w.db :=
  of_eq rfl ⟨rfl, rfl⟩

theorem execute (f : δ → δ) :
    Sends receipt (execute f : Service δ β ε PUnit) w [] fun _ db ↦ db = f w.db := of_eq rfl rfl

theorem statements (s : StateM δ α) :
    Sends receipt (statements s : Service δ β ε α) w [] fun a db ↦ (a, db) = s w.db := of_eq rfl rfl

theorem mono {Post' : α → δ → Prop} (h : Sends receipt x w rs Post)
    (hpost : ∀ a db, Post a db → Post' a db) : Sends receipt x w rs Post' where
  returns hr := by
    obtain ⟨a, w', hx, hf, hb, hp⟩ := h.returns hr
    exact ⟨a, w', hx, hf, hb, hpost _ _ hp⟩
  raises := h.raises

/-- Without faults the program returns. -/
theorem of_no_faults {db : δ} (h : Sends receipt x { db } rs Post) :
    ∃ a, Post a (final (x { db })).db := by
  obtain ⟨a, w', hok, _, _, hpost⟩ := h.returns (not_raises_nil _)
  exact ⟨a, by rwa [hok]⟩

/-- A publish with an idempotency key, or under a key that needs none, is one attempt. -/
theorem publish {routingKey : RoutingKey} {data : β} {idempotencyKey : Option IdempotencyKey} {r : ρ}
    (hk : routingKey ∈ ignoreIdempotency ∨ idempotencyKey ≠ none)
    (hr : receipt (w.message routingKey data idempotencyKey) = some r) :
    Sends receipt (publishMessage routingKey data {} idempotencyKey : Service δ β ε _) w [r]
      fun _ db ↦ db = w.db := by
  have h0 : attemptAt w.faults 0 = w.nextFaults.attempt := by
    rw [attemptAt, World.nextFaults]
    cases w.faults <;> rfl
  have hone : Raises w.faults 1 ↔ w.nextFaults.attempt.isRaised = true := by
    rw [← h0]
    exact ⟨fun ⟨i, hi, h⟩ ↦ by rwa [Nat.lt_one_iff.mp hi] at h, fun h ↦ ⟨0, Nat.one_pos, h⟩⟩
  constructor
  · intro hnr
    rw [List.length_singleton, hone] at hnr
    rw [publishMessage_apply _ _ _ hk]
    cases h : w.nextFaults.attempt with
    | raised e => exact absurd (by rw [h]; rfl) hnr
    | swallowed =>
        refine ⟨_, _, rfl, by simp, ?_, rfl⟩
        simp [World.receipts, delivered, h0, h]
    | delivered =>
        refine ⟨_, _, rfl, by simp, ?_, rfl⟩
        simp [World.receipts, delivered, h0, h, hr]
  · intro hraises
    rw [List.length_singleton, hone] at hraises
    rw [publishMessage_apply _ _ _ hk]
    cases h : w.nextFaults.attempt with
    | raised e => exact ⟨_, _, rfl⟩
    | swallowed => simp [h, Attempt.isRaised] at hraises
    | delivered => simp [h, Attempt.isRaised] at hraises

/-- A bind sends what its parts send, in order. -/
theorem bind {f : α → Service δ β ε γ} {Post' : γ → δ → Prop} (hx : Sends receipt x w rs Post)
    (hf : ∀ a w', Post a w'.db → Sends receipt (f a) w' rs' Post') :
    Sends receipt (x >>= f) w (rs ++ rs') Post' := by
  constructor
  · intro hnr
    rw [List.length_append, raises_add, not_or] at hnr
    obtain ⟨a, w₁, hx₁, hf₁, hb₁, hp₁⟩ := hx.returns hnr.1
    rw [← hf₁] at hnr
    obtain ⟨b, w₂, hx₂, hf₂, hb₂, hp₂⟩ := (hf a w₁ hp₁).returns hnr.2
    refine ⟨b, w₂, by rw [bind_of_ok hx₁, hx₂], ?_, ?_, hp₂⟩
    · rw [hf₂, hf₁, List.drop_drop, List.length_append]
    · rw [hb₂, hb₁, hf₁, List.append_assoc, delivered_append]
  · intro hr
    rw [List.length_append, raises_add] at hr
    by_cases hr₁ : Raises w.faults rs.length
    · obtain ⟨e, w', he⟩ := hx.raises hr₁
      exact ⟨e, w', bind_of_error he⟩
    · obtain ⟨a, w₁, hx₁, hf₁, _, hp₁⟩ := hx.returns hr₁
      have hr₂ := hr.resolve_left hr₁
      rw [← hf₁] at hr₂
      obtain ⟨e, w', he⟩ := (hf a w₁ hp₁).raises hr₂
      exact ⟨e, w', by rw [bind_of_ok hx₁, he]⟩

/-- A first part that sends nothing leaves the sending to the second. -/
theorem andThen {f : α → Service δ β ε γ} {Post' : γ → δ → Prop} (hx : Sends receipt x w [] Post)
    (hf : ∀ a w', Post a w'.db → Sends receipt (f a) w' rs Post') :
    Sends receipt (x >>= f) w rs Post' := hx.bind hf

/-- Returning a function of the result sends nothing more. -/
theorem returning {g : α → γ} {Post' : γ → δ → Prop} (hx : Sends receipt x w rs Post)
    (h : ∀ a db, Post a db → Post' (g a) db) :
    Sends receipt (x >>= fun a ↦ Pure.pure (g a)) w rs Post' := by
  have hbind := hx.bind (f := fun a ↦ Pure.pure (g a)) fun a w' ha ↦ pure (g a) (h a w'.db ha)
  rwa [List.append_nil] at hbind

/-- A loop sends what its iterations send.  `Inv rest db` is what holds before the
iterations of `rest`. -/
theorem mapM {f : α → Service δ β ε γ} {l : List α} (sends : α → List ρ)
    (Inv : List α → δ → Prop)
    (hstep : ∀ a rest w, Inv (a :: rest) w.db →
      Sends receipt (f a) w (sends a) fun _ db ↦ Inv rest db)
    (h : Inv l w.db) : Sends receipt (l.mapM f) w (l.flatMap sends) fun _ db ↦ Inv [] db := by
  induction l generalizing w with
  | nil => exact pure _ h
  | cons a l ih =>
      rw [List.mapM_cons, List.flatMap_cons]
      exact bind (hstep a l w h) fun b w' hw' ↦ (ih hw').returning fun _ _ h ↦ h

end Sends

/-- A loop over a list with an element on which the body never returns never
returns. -/
theorem mapM_ne_ok {f : α → Service δ β ε γ} {l : List α} {a : α} (ha : a ∈ l)
    (hf : ∀ w b w', f a w ≠ .ok b w') (w : World δ β) (bs : List γ) (w' : World δ β) :
    l.mapM f w ≠ .ok bs w' := by
  induction l generalizing w bs w' with
  | nil => simp at ha
  | cons c l ih =>
      intro h
      rw [List.mapM_cons, bind_eq_ok_iff] at h
      obtain ⟨b, w₁, hb, h⟩ := h
      rw [bind_eq_ok_iff] at h
      obtain ⟨bs', w₂, hbs, _⟩ := h
      rcases List.mem_cons.mp ha with rfl | ha
      · exact hf _ _ _ hb
      · exact ih ha _ _ _ hbs

end Genjishimada.Services
