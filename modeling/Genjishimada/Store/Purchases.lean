import Genjishimada.Library.ReadCommitted
import Genjishimada.Library.Run
import Mathlib.Logic.Function.Basic
import Mathlib.Tactic.Ring

/-!
# Buying a rotation item

`purchase_item` looks for the item among the user's rewards before it takes the coins.
The `UPDATE` of the balance lets one buyer through at a time, but it checks the balance
only, and nothing in `lootbox.user_rewards` is unique: a second buyer that has looked
before the first commits pays for the item again.
-/

namespace Genjishimada.Store

open Library

variable {τ : Type} [DecidableEq τ]

/-! ## The calls -/

/-- Where a call of `purchase_item` is. -/
inductive PurchasePhase where
  | called
  | /-- The item is in the rotation. -/
    fetched
  | /-- The user did not own the item. -/
    checked
  | /-- The price is taken. -/
    deducted
  | /-- The reward is inserted. -/
    rewarded
  | /-- The purchase is inserted: all that is left is to commit. -/
    recorded
  | returned
  | raised
deriving DecidableEq, Repr

/-- The user's coins, how many rows the user has for the item in `lootbox.user_rewards`
and in `store.purchases`, the calls, and those that have committed. -/
structure PurchaseState (τ : Type) where
  coins : Row τ Int
  rewards : Nat
  purchases : Nat
  phases : τ → PurchasePhase := fun _ ↦ .called
  bought : List τ := []

inductive PurchaseLabel (τ : Type) where
  | /-- `fetch_rotation_item`, and whether the item is available. -/
    fetch (t : τ) (available : Bool)
  | /-- `check_user_has_reward` -/
    check (t : τ)
  | /-- `deduct_user_coins` -/
    deduct (t : τ)
  | insertReward (t : τ)
  | insertPurchase (t : τ)
  | commit (t : τ)
  | /-- A statement or the commit fails. -/
    fail (t : τ)

/-- The call goes on to `phase`. -/
def PurchaseState.goto (s : PurchaseState τ) (t : τ) (phase : PurchasePhase) : PurchaseState τ :=
  { s with phases := Function.update s.phases t phase }

/-- One step of the calls, for an item of the given price. -/
def purchaseStep (price : Int) (s : PurchaseState τ) : PurchaseLabel τ → Option (PurchaseState τ)
  | .fetch t available =>
      if s.phases t = .called then
        some (s.goto t (if available then .fetched else .raised))
      else none
  | .check t =>
      if s.phases t = .fetched then
        some (s.goto t (if s.rewards = 0 then .checked else .raised))
      else none
  | .deduct t =>
      if s.phases t = .checked ∧ s.coins.free t then
        if price ≤ s.coins.seen t then
          some ({ s with coins := s.coins.write t (s.coins.seen t - price) }.goto t .deducted)
        else some (s.goto t .raised)
      else none
  | .insertReward t =>
      if s.phases t = .deducted then some (s.goto t .rewarded) else none
  | .insertPurchase t =>
      if s.phases t = .rewarded then some (s.goto t .recorded) else none
  | .commit t =>
      if s.phases t = .recorded then
        some ({ s with coins := s.coins.commit t, rewards := s.rewards + 1,
                       purchases := s.purchases + 1, bought := s.bought ++ [t] }.goto t .returned)
      else none
  | .fail t =>
      if s.phases t = .returned ∨ s.phases t = .raised then none
      else some ({ s with coins := s.coins.rollback t }.goto t .raised)

/-! ## Selling once -/

/-- The call has taken the price and has not ended. -/
def PurchasePhase.paying : PurchasePhase → Bool
  | .deducted | .rewarded | .recorded => true
  | _ => false

/-- What has happened is what the calls that returned did, each paying once and getting
one row of either kind; a call that raised has changed nothing. -/
structure Accounted (price : Int) (s₀ s : PurchaseState τ) : Prop where
  coins : s.coins.committed = s₀.coins.committed - price * s.bought.length
  rewards : s.rewards = s₀.rewards + s.bought.length
  purchases : s.purchases = s₀.purchases + s.bought.length
  returned : ∀ t, t ∈ s.bought ↔ s.phases t = .returned

/-- The user is charged at most once, ends with at most one reward, and everything else
the calls did left no trace. -/
structure SoldOnce (price : Int) (s₀ s : PurchaseState τ) : Prop where
  charged : s.bought.length ≤ 1
  rewarded : s.rewards ≤ 1
  accounted : Accounted price s₀ s

/-- A purchase commits while the user still does not own the item. -/
def StillUnowned (s : PurchaseState τ) (l : PurchaseLabel τ) : Prop :=
  ∀ t, l = .commit t → s.rewards = 0

/-- What holds at every moment. -/
structure PurchaseInv (price : Int) (s₀ s : PurchaseState τ) : Prop where
  accounted : Accounted price s₀ s
  paying : ∀ t, (s.phases t).paying = true →
    s.coins.pending = some (t, s.coins.committed - price)
  holds : ∀ t, s.coins.Holds t → (s.phases t).paying = true

section Inv

variable {price : Int} {s₀ s s' : PurchaseState τ} {t : τ} {l : PurchaseLabel τ}

omit [DecidableEq τ] in
theorem PurchaseInv.not_holds (h : PurchaseInv price s₀ s) (ht : (s.phases t).paying = false) :
    ¬ s.coins.Holds t := by
  intro hholds
  rw [h.holds t hholds] at ht
  cases ht

/-- A call goes on without touching the coins. -/
theorem PurchaseInv.goto (h : PurchaseInv price s₀ s) {phase : PurchasePhase}
    (hpaying : phase.paying = (s.phases t).paying) (hnew : phase ≠ .returned)
    (hold : s.phases t ≠ .returned) : PurchaseInv price s₀ (s.goto t phase) := by
  constructor
  · refine ⟨h.accounted.coins, h.accounted.rewards, h.accounted.purchases, fun t' ↦ ?_⟩
    by_cases ht : t' = t
    · subst ht
      simp only [PurchaseState.goto, Function.update_self]
      exact iff_of_false (fun hmem ↦ hold ((h.accounted.returned t').mp hmem)) hnew
    · simp only [PurchaseState.goto, Function.update_of_ne ht]
      exact h.accounted.returned t'
  · intro t' ht'
    by_cases ht : t' = t
    · subst ht
      simp only [PurchaseState.goto, Function.update_self, hpaying] at ht'
      exact h.paying t' ht'
    · simp only [PurchaseState.goto, Function.update_of_ne ht] at ht'
      exact h.paying t' ht'
  · intro t' ht'
    by_cases ht : t' = t
    · subst ht
      simp only [PurchaseState.goto, Function.update_self, hpaying]
      exact h.holds t' ht'
    · simp only [PurchaseState.goto, Function.update_of_ne ht]
      exact h.holds t' ht'

/-- A call takes the price under the lock of the row. -/
theorem PurchaseInv.deduct (h : PurchaseInv price s₀ s) (hphase : s.phases t = .checked)
    (hfree : s.coins.free t = true) :
    PurchaseInv price s₀
      ({ s with coins := s.coins.write t (s.coins.seen t - price) }.goto t .deducted) := by
  have hnot : ¬ s.coins.Holds t := h.not_holds (by rw [hphase]; rfl)
  have hother : ∀ t', t' ≠ t → ¬ s.coins.Holds t' :=
    fun t' ht ↦ Row.not_holds_of_free hfree ht
  rw [Row.seen_of_not_holds hnot]
  constructor
  · refine ⟨h.accounted.coins, h.accounted.rewards, h.accounted.purchases, fun t' ↦ ?_⟩
    by_cases ht : t' = t
    · subst ht
      simp [PurchaseState.goto, h.accounted.returned t', hphase]
    · simp only [PurchaseState.goto, Function.update_of_ne ht]
      exact h.accounted.returned t'
  · intro t' ht'
    by_cases ht : t' = t
    · subst ht
      rfl
    · simp only [PurchaseState.goto, Function.update_of_ne ht] at ht'
      exact absurd ⟨_, h.paying t' ht'⟩ (hother t' ht)
  · intro t' ht'
    by_cases ht : t' = t
    · subst ht
      simp [PurchaseState.goto, PurchasePhase.paying]
    · exact absurd ht' (Row.not_holds_of_some rfl ht)

/-- What a call that commits has done is accounted for. -/
theorem Accounted.commit (h : Accounted price s₀ s) {coins : Row τ Int}
    (hcoins : coins.committed = s.coins.committed - price) :
    Accounted price s₀
      ({ s with coins := coins, rewards := s.rewards + 1, purchases := s.purchases + 1,
                bought := s.bought ++ [t] }.goto t .returned) := by
  constructor
  · simp only [PurchaseState.goto, hcoins, h.coins, List.length_append, List.length_singleton]
    push_cast
    ring
  · simp only [PurchaseState.goto, h.rewards, List.length_append, List.length_singleton]
    ring
  · simp only [PurchaseState.goto, h.purchases, List.length_append, List.length_singleton]
    ring
  · intro t'
    by_cases ht : t' = t
    · subst ht
      simp [PurchaseState.goto]
    · simp [PurchaseState.goto, ht, h.returned t']

theorem PurchaseInv.commit (h : PurchaseInv price s₀ s) (hphase : s.phases t = .recorded) :
    PurchaseInv price s₀
      ({ s with coins := s.coins.commit t, rewards := s.rewards + 1, purchases := s.purchases + 1,
                bought := s.bought ++ [t] }.goto t .returned) := by
  have hpending := h.paying t (by rw [hphase]; rfl)
  rw [Row.commit_of_some hpending]
  refine ⟨h.accounted.commit rfl, ?_, ?_⟩
  · intro t' ht'
    by_cases ht : t' = t
    · subst ht
      simp [PurchaseState.goto, PurchasePhase.paying] at ht'
    · simp only [PurchaseState.goto, Function.update_of_ne ht] at ht'
      exact absurd ⟨_, h.paying t' ht'⟩ (Row.not_holds_of_some hpending ht)
  · intro t' ht'
    exact absurd ht' (Row.not_holds_of_none rfl)

/-- A call that fails gives the price back. -/
theorem PurchaseInv.rollback (h : PurchaseInv price s₀ s) (hreturned : s.phases t ≠ .returned) :
    PurchaseInv price s₀ ({ s with coins := s.coins.rollback t }.goto t .raised) := by
  have hacc := h.accounted
  constructor
  · refine ⟨?_, hacc.rewards, hacc.purchases, fun t' ↦ ?_⟩
    · simp only [PurchaseState.goto, Row.committed_rollback]
      exact hacc.coins
    · by_cases ht : t' = t
      · subst ht
        simp [PurchaseState.goto, hacc.returned t', hreturned]
      · simp only [PurchaseState.goto, Function.update_of_ne ht]
        exact hacc.returned t'
  · intro t' ht'
    by_cases ht : t' = t
    · subst ht
      simp [PurchaseState.goto, PurchasePhase.paying] at ht'
    · simp only [PurchaseState.goto, Function.update_of_ne ht] at ht' ⊢
      have hpending := h.paying t' ht'
      rw [Row.rollback_of_not_holds (Row.not_holds_of_some hpending (Ne.symm ht))]
      exact hpending
  · intro t' ht'
    rcases s.coins.holds_or t with ⟨a, ha, _⟩ | hnot
    · simp only [PurchaseState.goto, Row.rollback_of_some ha] at ht'
      exact absurd ht' (Row.not_holds_of_none rfl)
    · simp only [PurchaseState.goto, Row.rollback_of_not_holds hnot] at ht'
      have ht : t' ≠ t := by
        rintro rfl
        exact hnot ht'
      simp only [PurchaseState.goto, Function.update_of_ne ht]
      exact h.holds t' ht'

/-- Every step keeps the invariant. -/
theorem PurchaseInv.step (h : PurchaseInv price s₀ s) (hs : purchaseStep price s l = some s') :
    PurchaseInv price s₀ s' := by
  cases l with
  | fetch t available =>
      simp only [purchaseStep] at hs
      split at hs
      · rename_i hphase
        obtain rfl := Option.some.inj hs
        apply h.goto <;> cases available <;> simp [hphase, PurchasePhase.paying]
      · cases hs
  | check t =>
      simp only [purchaseStep] at hs
      split at hs
      · rename_i hphase
        obtain rfl := Option.some.inj hs
        by_cases howned : s.rewards = 0
        · rw [if_pos howned]
          apply h.goto <;> simp [hphase, PurchasePhase.paying]
        · rw [if_neg howned]
          apply h.goto <;> simp [hphase, PurchasePhase.paying]
      · cases hs
  | insertReward t =>
      simp only [purchaseStep] at hs
      split at hs
      · rename_i hphase
        obtain rfl := Option.some.inj hs
        apply h.goto <;> simp [hphase, PurchasePhase.paying]
      · cases hs
  | insertPurchase t =>
      simp only [purchaseStep] at hs
      split at hs
      · rename_i hphase
        obtain rfl := Option.some.inj hs
        apply h.goto <;> simp [hphase, PurchasePhase.paying]
      · cases hs
  | deduct t =>
      simp only [purchaseStep] at hs
      split at hs
      · rename_i hcond
        obtain ⟨hphase, hfree⟩ := hcond
        split at hs
        · obtain rfl := Option.some.inj hs
          exact h.deduct hphase hfree
        · obtain rfl := Option.some.inj hs
          apply h.goto <;> simp [hphase, PurchasePhase.paying]
      · cases hs
  | commit t =>
      simp only [purchaseStep] at hs
      split at hs
      · rename_i hphase
        obtain rfl := Option.some.inj hs
        exact h.commit hphase
      · cases hs
  | fail t =>
      simp only [purchaseStep] at hs
      split at hs
      · cases hs
      · rename_i hended
        obtain rfl := Option.some.inj hs
        exact h.rollback (not_or.mp hended).1

/-- Only a commit sells the item. -/
theorem bought_eq (hs : purchaseStep price s l = some s') (hl : ∀ t, l ≠ .commit t) :
    s'.bought = s.bought := by
  cases l with
  | commit t => exact absurd rfl (hl t)
  | deduct t =>
      simp only [purchaseStep] at hs
      split at hs
      · split at hs
        · obtain rfl := Option.some.inj hs
          rfl
        · obtain rfl := Option.some.inj hs
          rfl
      · cases hs
  | fail t =>
      simp only [purchaseStep] at hs
      split at hs
      · cases hs
      · obtain rfl := Option.some.inj hs
        rfl
  | _ =>
      simp only [purchaseStep] at hs
      split at hs
      · obtain rfl := Option.some.inj hs
        rfl
      · cases hs

/-- A step sells the item a second time exactly when it commits although the user owns
the item by then. -/
theorem PurchaseInv.soldOnce_iff (h : PurchaseInv price s₀ s) (hsold : SoldOnce price s₀ s)
    (hs : purchaseStep price s l = some s') : SoldOnce price s₀ s' ↔ StillUnowned s l := by
  have hacc := (h.step hs).accounted
  by_cases hl : ∀ t, l ≠ .commit t
  · refine iff_of_true ?_ ?_
    · have hbought := bought_eq hs hl
      refine ⟨?_, ?_, hacc⟩
      · rw [hbought]
        exact hsold.charged
      · rw [hacc.rewards, hbought, ← h.accounted.rewards]
        exact hsold.rewarded
    · intro t hcommit
      exact absurd hcommit (hl t)
  · obtain ⟨t, rfl⟩ : ∃ t, l = .commit t := by simpa using hl
    simp only [purchaseStep] at hs
    split at hs
    · obtain rfl := Option.some.inj hs
      constructor
      · intro hsold' t' _
        have := hsold'.rewarded
        simp only [PurchaseState.goto] at this
        omega
      · intro hguard
        have hunowned := hguard t rfl
        have hnone : s.bought.length = 0 := by
          have := h.accounted.rewards
          omega
        refine ⟨?_, ?_, hacc⟩
        · simp [PurchaseState.goto, hnone]
        · simp [PurchaseState.goto, hunowned]
    · cases hs

end Inv

/-- A user with some coins who owns the item or does not. -/
def buyer (coins : Int) (owned : Bool) (purchases : Nat) : PurchaseState τ where
  coins := { committed := coins }
  rewards := owned.toNat
  purchases := purchases

/-- In every run of calls for one item the item is sold at most once, and every other
call raises without a trace, exactly when every purchase of the run commits while the
user still does not own the item. -/
theorem item_soldOnce_iff (price coins : Int) (owned : Bool) (purchases : Nat)
    {ls : List (PurchaseLabel τ)} {s : PurchaseState τ} :
    Run (fun s l s' ↦ purchaseStep price s l = some s' ∧
          SoldOnce price (buyer coins owned purchases) s') (buyer coins owned purchases) ls s ↔
      Run (Guarded StillUnowned (ofStep (purchaseStep price)))
        (buyer coins owned purchases) ls s := by
  apply Run.congr fun s ↦ PurchaseInv price (buyer coins owned purchases) s ∧
    SoldOnce price (buyer coins owned purchases) s
  · rintro s l s' ⟨h, hsold⟩
    constructor
    · rintro ⟨hs, hsold'⟩
      exact ⟨(h.soldOnce_iff hsold hs).mp hsold', hs⟩
    · rintro ⟨hguard, hs⟩
      exact ⟨hs, (h.soldOnce_iff hsold hs).mpr hguard⟩
  · rintro s l s' ⟨h, _⟩ ⟨hs, hsold'⟩
    exact ⟨h.step hs, hsold'⟩
  · have hacc : Accounted price (buyer (τ := τ) coins owned purchases)
        (buyer coins owned purchases) := by
      constructor <;> simp [buyer]
    constructor
    · refine ⟨hacc, ?_, ?_⟩
      · rintro t ⟨⟩
      · rintro t ⟨a, ⟨⟩⟩
    · refine ⟨?_, ?_, hacc⟩
      · simp [buyer]
      · cases owned <;> simp [buyer]

/-- Two calls look before either has paid: the user pays twice and has the item twice. -/
theorem overlappingPurchases_sellTwice :
    let ls : List (PurchaseLabel Bool) := [.fetch false true, .check false, .fetch true true,
      .check true, .deduct false, .insertReward false, .insertPurchase false, .commit false,
      .deduct true, .insertReward true, .insertPurchase true, .commit true]
    ∃ s, ls.foldlM (purchaseStep 100) (buyer 250 false 0) = some s ∧
      s.coins.committed = 50 ∧ s.rewards = 2 ∧ ¬ SoldOnce 100 (buyer 250 false 0) s := by
  refine ⟨_, rfl, ?_, ?_, ?_⟩
  · decide
  · decide
  · intro h
    exact absurd h.rewarded (by decide)

end Genjishimada.Store
