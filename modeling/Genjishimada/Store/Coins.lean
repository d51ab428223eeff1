import Genjishimada.Library.Account
import Genjishimada.Library.Run
import Mathlib.Tactic.Ring

/-!
# The coin ledger

A user's balance is one column of `core.users`.  `purchase_keys` and `purchase_item` take
from it and insert what they took as `price_paid` in `store.purchases`; `claim_quest` and
the rewards that come as coins add to it.  Each does so in one transaction, by one
statement that reads and writes the balance.
-/

namespace Genjishimada.Store

open Library

variable {τ : Type} [DecidableEq τ]

/-! ## Amounts -/

def activeKeyBasePrice : Nat := 500

def inactiveKeyBasePrice : Nat := 1000

/-- `_calculate_key_price`: three keys are 15% off, five are 30% off.  No other quantity
has a price. -/
def calculateKeyPrice (quantity : Nat) (isActive : Bool) : Option Nat :=
  let basePrice := if isActive then activeKeyBasePrice else inactiveKeyBasePrice
  if quantity = 1 then some basePrice
  else if quantity = 3 then some (basePrice * 3 * 85 / 100)
  else if quantity = 5 then some (basePrice * 5 * 70 / 100)
  else none

/-- The quantities with a price are those `purchase_keys` lets through. -/
theorem calculateKeyPrice_isSome (quantity : Nat) (isActive : Bool) :
    (calculateKeyPrice quantity isActive).isSome ↔ quantity ∈ [1, 3, 5] := by
  simp only [calculateKeyPrice, List.mem_cons, List.not_mem_nil, or_false]
  split
  · simp [*]
  · split
    · simp [*]
    · split <;> simp [*]

/-- What `fetch_rotation_item` finds. -/
structure RotationItem where
  price : Int
  expired : Bool
deriving DecidableEq, Repr

/-- A reward that comes as coins. -/
inductive CoinReward where
  | /-- A reward of type `coins`: its name is the amount. -/
    coins (amount : Nat)
  | /-- A reward the user has already. -/
    duplicate (rarity : String)
deriving DecidableEq, Repr

def duplicateCoinValues : List (String × Nat) :=
  [("common", 100), ("rare", 250), ("epic", 500), ("legendary", 1000)]

/-- The `coin_amount` of `grant_reward_to_user`. -/
def CoinReward.coinAmount : CoinReward → Nat
  | .coins amount => amount
  | .duplicate rarity => (duplicateCoinValues.lookup rarity.toLower).getD 0

/-! ## The calls -/

/-- Where a call is. -/
inductive LedgerPhase where
  | called
  | /-- A purchase that has passed its checks: the price, and how many rows of keys or
    rewards are to be inserted for it. -/
    priced (price : Int) (inserts : Nat)
  | /-- The price is taken; so many rows are still to be inserted. -/
    deducted (price : Int) (inserts : Nat)
  | /-- The purchase is inserted: all that is left is to commit. -/
    recorded (price : Int)
  | /-- The quest is claimed, the coins are not paid yet. -/
    owed (amount : Nat)
  | /-- The reward is known, the coins are not added yet. -/
    granted (amount : Nat)
  | /-- The coins are added: all that is left is to commit. -/
    credited (amount : Nat)
  | committed
  | raised
deriving DecidableEq, Repr

/-- The row of the user, if there is one; the rows of `store.purchases` with the calls
that inserted them; what has been credited and by whom; and the calls. -/
structure LedgerState (τ : Type) where
  coins : Row τ (Option Int)
  purchases : List (τ × Int) := []
  credits : List (τ × Nat) := []
  phases : τ → LedgerPhase := fun _ ↦ .called

inductive LedgerLabel (τ : Type) where
  | /-- `purchase_keys`, up to the coins: whether the key type is the active one, and
    whether it exists. -/
    purchaseKeys (t : τ) (quantity : Nat) (isActive keyTypeExists : Bool)
  | /-- `purchase_item`, up to the coins: the item, and whether the user owns it. -/
    purchaseItem (t : τ) (item : Option RotationItem) (alreadyOwned : Bool)
  | /-- `deduct_user_coins` -/
    deduct (t : τ)
  | /-- `insert_user_key` or `insert_user_reward` -/
    insert (t : τ)
  | insertPurchase (t : τ)
  | /-- `claim_quest`, up to the coins: the reward of the quest that the update claimed. -/
    claim (t : τ) (coinReward : Option Nat)
  | /-- The coins of a claimed quest. -/
    pay (t : τ)
  | /-- `grant_reward_to_user` or `debug_grant_reward_no_key`, up to the coins. -/
    grant (t : τ) (reward : CoinReward)
  | addUserCoins (t : τ)
  | commit (t : τ)
  | /-- A statement or the commit fails. -/
    fail (t : τ)

/-- The call goes on to `phase`. -/
def LedgerState.goto (s : LedgerState τ) (t : τ) (phase : LedgerPhase) : LedgerState τ :=
  { s with phases := Function.update s.phases t phase }

/-- One step of the calls. -/
def ledgerStep (s : LedgerState τ) : LedgerLabel τ → Option (LedgerState τ)
  | .purchaseKeys t quantity isActive keyTypeExists =>
      if s.phases t = .called then
        match calculateKeyPrice quantity isActive with
        | some price =>
            some (s.goto t (if keyTypeExists then .priced price quantity else .raised))
        | none => some (s.goto t .raised)
      else none
  | .purchaseItem t item alreadyOwned =>
      if s.phases t = .called then
        match item with
        | some item =>
            some (s.goto t (if item.expired || alreadyOwned then .raised else .priced item.price 1))
        | none => some (s.goto t .raised)
      else none
  | .deduct t =>
      match s.phases t, s.coins.seen t with
      | .priced price inserts, some coins =>
          -- a row that is not found in the snapshot is not waited for
          if price ≤ coins then
            if s.coins.free t then
              some ({ s with coins := s.coins.write t (some (coins - price)) }.goto t
                (.deducted price inserts))
            else none
          else some (s.goto t .raised)
      | .priced _ _, none => some (s.goto t .raised)
      | _, _ => none
  | .insert t =>
      match s.phases t with
      | .deducted price (n + 1) => some (s.goto t (.deducted price n))
      | _ => none
  | .insertPurchase t =>
      match s.phases t with
      | .deducted price 0 => some (s.goto t (.recorded price))
      | _ => none
  | .claim t coinReward =>
      if s.phases t = .called then
        match coinReward with
        | some amount =>
            -- the quest belongs to a user there is
            if s.coins.committed.isSome then some (s.goto t (.owed amount)) else none
        | none => some (s.goto t .raised)
      else none
  | .pay t =>
      match s.phases t, s.coins.seen t with
      | .owed amount, some coins =>
          if s.coins.free t then
            some ({ s with coins := s.coins.write t (some (coins + amount)) }.goto t
              (.credited amount))
          else none
      | .owed amount, none => some (s.goto t (.credited amount))
      | _, _ => none
  | .grant t reward =>
      if s.phases t = .called then some (s.goto t (.granted reward.coinAmount)) else none
  | .addUserCoins t =>
      match s.phases t with
      | .granted amount =>
          if s.coins.free t then
            -- the row is inserted with the amount, or the amount is added to it
            let coins := (s.coins.seen t).getD 0 + amount
            some ({ s with coins := s.coins.write t (some coins) }.goto t (.credited amount))
          else none
      | _ => none
  | .commit t =>
      match s.phases t with
      | .recorded price =>
          some ({ s with coins := s.coins.commit t,
                         purchases := s.purchases ++ [(t, price)] }.goto t .committed)
      | .credited amount =>
          some ({ s with coins := s.coins.commit t,
                         credits := s.credits ++ [(t, amount)] }.goto t .committed)
      | _ => none
  | .fail t =>
      if s.phases t = .committed ∨ s.phases t = .raised then none
      else some ({ s with coins := s.coins.rollback t }.goto t .raised)

/-! ## The books -/

/-- The sum of `price_paid` over the user's rows of `store.purchases`. -/
def LedgerState.pricePaid (s : LedgerState τ) : Int := s.purchases.foldl (fun n p ↦ n + p.2) 0

/-- The sum of all credits. -/
def LedgerState.earned (s : LedgerState τ) : Int := s.credits.foldl (fun n c ↦ n + c.2) 0

/-- What the call has added to the balance without having committed. -/
def LedgerPhase.amount : LedgerPhase → Option Int
  | .deducted price _ | .recorded price => some (-price)
  | .credited amount => some amount
  | _ => none

/-- No version of the user's row has a balance below zero, the committed one is the
balance at the start with the credits and without the purchases, and a call that raised
is in neither. -/
structure BooksKept (start : Int) (s : LedgerState τ) : Prop where
  committed_nonneg : ∀ c, s.coins.committed = some c → 0 ≤ c
  pending_nonneg : ∀ t c, s.coins.pending = some (t, some c) → 0 ≤ c
  balance : balance s.coins = start + s.earned - s.pricePaid
  raised : ∀ t, s.phases t = .raised →
    (∀ price, (t, price) ∉ s.purchases) ∧ ∀ amount, (t, amount) ∉ s.credits

/-- What holds at every moment. -/
structure LedgerInv (start : Int) (s : LedgerState τ) : Prop where
  balanced : Balanced s.coins (start + s.earned - s.pricePaid) (LedgerPhase.amount ∘ s.phases)
  owed : ∀ t amount, s.phases t = .owed amount → s.coins.committed.isSome
  purchases : ∀ p ∈ s.purchases, s.phases p.1 = .committed
  credits : ∀ c ∈ s.credits, s.phases c.1 = .committed

/-! ## What one step does -/

/-- What a step of the calls can do. -/
inductive LedgerMove (s : LedgerState τ) : LedgerState τ → Prop
  | /-- A call goes on without a statement that writes the balance, or is refused. -/
    goOn {t : τ} {phase : LedgerPhase} (hold : s.phases t ≠ .committed)
      (hamount : phase.amount = (s.phases t).amount)
      (howed : ∀ amount, phase = .owed amount → s.coins.committed.isSome) :
      LedgerMove s (s.goto t phase)
  | /-- A price is taken that there is enough for, or coins are added. -/
    write {t : τ} {phase : LedgerPhase} {a : Int} (hfree : s.coins.free t = true)
      (hphase : phase.amount = some a)
      (hold : (s.phases t).amount = none ∧ s.phases t ≠ .committed)
      (hcovered : 0 ≤ a ∨ 0 ≤ (s.coins.seen t).getD 0 + a) :
      LedgerMove s
        ({ s with coins := s.coins.write t (some ((s.coins.seen t).getD 0 + a)) }.goto t phase)
  | /-- The coins of a claimed quest find no row. -/
    unpaid {t : τ} {amount : Nat} (hphase : s.phases t = .owed amount)
      (hseen : s.coins.seen t = none) : LedgerMove s (s.goto t (.credited amount))
  | buy {t : τ} {price : Int} (hphase : s.phases t = .recorded price) :
      LedgerMove s ({ s with coins := s.coins.commit t,
                             purchases := s.purchases ++ [(t, price)] }.goto t .committed)
  | credit {t : τ} {amount : Nat} (hphase : s.phases t = .credited amount) :
      LedgerMove s ({ s with coins := s.coins.commit t,
                             credits := s.credits ++ [(t, amount)] }.goto t .committed)
  | fail {t : τ} (hold : s.phases t ≠ .committed) :
      LedgerMove s ({ s with coins := s.coins.rollback t }.goto t .raised)

/-- A step is one of the moves. -/
theorem ledgerStep_move {s s' : LedgerState τ} {l : LedgerLabel τ}
    (hs : ledgerStep s l = some s') : LedgerMove s s' := by
  cases l with
  | purchaseKeys t quantity isActive keyTypeExists =>
      simp only [ledgerStep] at hs
      split at hs
      · rename_i hphase
        split at hs
        · obtain rfl := Option.some.inj hs
          apply LedgerMove.goOn <;> cases keyTypeExists <;> simp [hphase, LedgerPhase.amount]
        · obtain rfl := Option.some.inj hs
          apply LedgerMove.goOn <;> simp [hphase, LedgerPhase.amount]
      · cases hs
  | purchaseItem t item alreadyOwned =>
      simp only [ledgerStep] at hs
      split at hs
      · rename_i hphase
        split at hs
        · rename_i item
          obtain rfl := Option.some.inj hs
          by_cases hrefused : (item.expired || alreadyOwned) = true
          · rw [if_pos hrefused]
            apply LedgerMove.goOn <;> simp [hphase, LedgerPhase.amount]
          · rw [if_neg hrefused]
            apply LedgerMove.goOn <;> simp [hphase, LedgerPhase.amount]
        · obtain rfl := Option.some.inj hs
          apply LedgerMove.goOn <;> simp [hphase, LedgerPhase.amount]
      · cases hs
  | deduct t =>
      simp only [ledgerStep] at hs
      split at hs
      · rename_i price inserts coins hphase hseen
        split at hs
        · rename_i hprice
          split at hs
          · rename_i hfree
            obtain rfl := Option.some.inj hs
            have hget : (s.coins.seen t).getD 0 = coins := by rw [hseen]; rfl
            rw [← hget] at hprice ⊢
            apply LedgerMove.write hfree rfl (by simp [hphase, LedgerPhase.amount])
            exact .inr (Int.sub_nonneg_of_le hprice)
          · cases hs
        · obtain rfl := Option.some.inj hs
          apply LedgerMove.goOn <;> simp [hphase, LedgerPhase.amount]
      · rename_i price inserts hphase hseen
        obtain rfl := Option.some.inj hs
        apply LedgerMove.goOn <;> simp [hphase, LedgerPhase.amount]
      · cases hs
  | insert t =>
      simp only [ledgerStep] at hs
      split at hs
      · rename_i price n hphase
        obtain rfl := Option.some.inj hs
        apply LedgerMove.goOn <;> simp [hphase, LedgerPhase.amount]
      · cases hs
  | insertPurchase t =>
      simp only [ledgerStep] at hs
      split at hs
      · rename_i price hphase
        obtain rfl := Option.some.inj hs
        apply LedgerMove.goOn <;> simp [hphase, LedgerPhase.amount]
      · cases hs
  | claim t coinReward =>
      simp only [ledgerStep] at hs
      split at hs
      · rename_i hphase
        split at hs
        · rename_i amount
          split at hs
          · rename_i huser
            obtain rfl := Option.some.inj hs
            apply LedgerMove.goOn <;> simp [hphase, LedgerPhase.amount, huser]
          · cases hs
        · obtain rfl := Option.some.inj hs
          apply LedgerMove.goOn <;> simp [hphase, LedgerPhase.amount]
      · cases hs
  | pay t =>
      simp only [ledgerStep] at hs
      split at hs
      · rename_i amount coins hphase hseen
        split at hs
        · rename_i hfree
          obtain rfl := Option.some.inj hs
          have hget : (s.coins.seen t).getD 0 = coins := by rw [hseen]; rfl
          rw [← hget]
          apply LedgerMove.write hfree rfl (by simp [hphase, LedgerPhase.amount])
          exact .inl (Int.natCast_nonneg amount)
        · cases hs
      · rename_i amount hphase hseen
        obtain rfl := Option.some.inj hs
        exact .unpaid hphase hseen
      · cases hs
  | grant t reward =>
      simp only [ledgerStep] at hs
      split at hs
      · rename_i hphase
        obtain rfl := Option.some.inj hs
        apply LedgerMove.goOn <;> simp [hphase, LedgerPhase.amount]
      · cases hs
  | addUserCoins t =>
      simp only [ledgerStep] at hs
      split at hs
      · rename_i amount hphase
        split at hs
        · rename_i hfree
          obtain rfl := Option.some.inj hs
          apply LedgerMove.write hfree rfl (by simp [hphase, LedgerPhase.amount])
          exact .inl (Int.natCast_nonneg amount)
        · cases hs
      · cases hs
  | commit t =>
      simp only [ledgerStep] at hs
      split at hs
      · rename_i price hphase
        obtain rfl := Option.some.inj hs
        exact .buy hphase
      · rename_i amount hphase
        obtain rfl := Option.some.inj hs
        exact .credit hphase
      · cases hs
  | fail t =>
      simp only [ledgerStep] at hs
      split at hs
      · cases hs
      · rename_i hended
        obtain rfl := Option.some.inj hs
        exact .fail (not_or.mp hended).1

section Inv

variable {start : Int} {s s' : LedgerState τ} {t : τ} {l : LedgerLabel τ}

/-- What the calls that have committed left stays if another one goes on. -/
theorem committed_update {α : Type} {tags : List (τ × α)} {phases : τ → LedgerPhase}
    (h : ∀ p ∈ tags, phases p.1 = .committed) (hold : phases t ≠ .committed) {phase : LedgerPhase} :
    ∀ p ∈ tags, Function.update phases t phase p.1 = .committed := by
  intro p hp
  have hne : p.1 ≠ t := by
    intro hpt
    rw [← hpt] at hold
    exact hold (h p hp)
  rw [Function.update_of_ne hne]
  exact h p hp

omit [DecidableEq τ] in
theorem mem_append_tag {α : Type} {tags : List (τ × α)} {a : α} :
    ∀ p ∈ tags ++ [(t, a)], p ∈ tags ∨ p.1 = t := by
  intro p hp
  rcases List.mem_append.mp hp with hp | hp
  · exact .inl hp
  · rw [List.mem_singleton.mp hp]
    exact .inr rfl

/-- A call goes on with a row that is still balanced and has not been committed to. -/
theorem LedgerInv.advance (h : LedgerInv start s) {row : Row τ (Option Int)} {phase : LedgerPhase}
    (hrow : Balanced row (start + s.earned - s.pricePaid)
      (Function.update (LedgerPhase.amount ∘ s.phases) t phase.amount))
    (hcommitted : row.committed = s.coins.committed)
    (howed : ∀ amount, phase = .owed amount → s.coins.committed.isSome)
    (hold : s.phases t ≠ .committed) :
    LedgerInv start ({ s with coins := row }.goto t phase) := by
  constructor
  · show Balanced row _ (LedgerPhase.amount ∘ Function.update s.phases t phase)
    rw [Function.comp_update]
    exact hrow
  · intro t' amount ht'
    show row.committed.isSome
    rw [hcommitted]
    by_cases htt : t' = t
    · subst htt
      simp only [LedgerState.goto, Function.update_self] at ht'
      exact howed amount ht'
    · simp only [LedgerState.goto, Function.update_of_ne htt] at ht'
      exact h.owed t' amount ht'
  · exact committed_update h.purchases hold
  · exact committed_update h.credits hold

/-- A call goes on without a statement that writes the balance. -/
theorem LedgerInv.goto (h : LedgerInv start s) {phase : LedgerPhase}
    (hamount : phase.amount = (s.phases t).amount)
    (howed : ∀ amount, phase = .owed amount → s.coins.committed.isSome)
    (hold : s.phases t ≠ .committed) : LedgerInv start (s.goto t phase) := by
  have hself : Function.update (LedgerPhase.amount ∘ s.phases) t (s.phases t).amount =
      LedgerPhase.amount ∘ s.phases := Function.update_eq_self t _
  have hrow : Balanced s.coins (start + s.earned - s.pricePaid)
      (Function.update (LedgerPhase.amount ∘ s.phases) t phase.amount) := by
    rw [hamount, hself]
    exact h.balanced
  exact h.advance hrow rfl howed hold

/-- A call that has not written the balance sees the committed one. -/
theorem LedgerInv.seen (h : LedgerInv start s) (ht : (s.phases t).amount = none) :
    s.coins.seen t = s.coins.committed :=
  Row.seen_of_not_holds (h.balanced.not_holds ht)

theorem LedgerInv.seen_getD (h : LedgerInv start s) (ht : (s.phases t).amount = none) :
    (s.coins.seen t).getD 0 = start + s.earned - s.pricePaid := by
  rw [h.seen ht]
  exact h.balanced.balance

/-- A call writes the balance with its amount added. -/
theorem LedgerInv.write (h : LedgerInv start s) {phase : LedgerPhase} {a : Int}
    (hfree : s.coins.free t = true) (hphase : phase.amount = some a)
    (ht : (s.phases t).amount = none) (hnonneg : 0 ≤ (s.coins.seen t).getD 0 + a)
    (hold : s.phases t ≠ .committed) :
    LedgerInv start
      ({ s with coins := s.coins.write t (some ((s.coins.seen t).getD 0 + a)) }.goto t phase) := by
  rw [h.seen_getD ht] at hnonneg ⊢
  refine h.advance ?_ rfl ?_ hold
  · rw [hphase]
    exact h.balanced.write hfree hnonneg
  · rintro amount rfl
    cases hphase

/-- The amount of a call that commits is the one its entry in the books has. -/
theorem LedgerInv.commit (h : LedgerInv start s) {purchases : List (τ × Int)}
    {credits : List (τ × Nat)} {a : Int} (ha : (s.phases t).amount = some a)
    (hposted : start + (credits.foldl (fun n c ↦ n + c.2) 0 : Int) -
        purchases.foldl (fun n p ↦ n + p.2) 0 = start + s.earned - s.pricePaid + a)
    (hpurchases : ∀ p ∈ purchases, p ∈ s.purchases ∨ p.1 = t)
    (hcredits : ∀ c ∈ credits, c ∈ s.credits ∨ c.1 = t) :
    LedgerInv start ({ s with coins := s.coins.commit t, purchases := purchases,
                              credits := credits }.goto t .committed) := by
  have hcommit := h.balanced.commit ha
  have hpending := (h.balanced.pending t a ha).1
  have hmem : ∀ {α : Type} {tags tags' : List (τ × α)},
      (∀ p ∈ tags, s.phases p.1 = .committed) → (∀ p ∈ tags', p ∈ tags ∨ p.1 = t) →
      ∀ p ∈ tags', Function.update s.phases t .committed p.1 = .committed := by
    intro α tags tags' htags htags' p hp
    by_cases hpt : p.1 = t
    · rw [hpt, Function.update_self]
    · rw [Function.update_of_ne hpt]
      exact htags p ((htags' p hp).resolve_right hpt)
  constructor
  · show Balanced (s.coins.commit t) (start + (credits.foldl (fun n c ↦ n + c.2) 0 : Int) -
      purchases.foldl (fun n p ↦ n + p.2) 0)
      (LedgerPhase.amount ∘ Function.update s.phases t .committed)
    rw [Function.comp_update, hposted]
    exact hcommit
  · intro t' amount ht'
    show (s.coins.commit t).committed.isSome
    rw [Row.commit_of_some hpending]
    rfl
  · exact hmem h.purchases hpurchases
  · exact hmem h.credits hcredits

/-- A call that fails leaves nothing. -/
theorem LedgerInv.rollback (h : LedgerInv start s) (hold : s.phases t ≠ .committed) :
    LedgerInv start ({ s with coins := s.coins.rollback t }.goto t .raised) := by
  refine h.advance h.balanced.rollback Row.committed_rollback ?_ hold
  rintro amount ⟨⟩

/-- The coins of a claimed quest have a row to go to. -/
theorem LedgerInv.seen_isSome (h : LedgerInv start s) {amount : Nat}
    (ht : s.phases t = .owed amount) : (s.coins.seen t).isSome := by
  rw [h.seen (by rw [ht]; rfl)]
  exact h.owed t amount ht

/-- Every step keeps the invariant. -/
theorem LedgerInv.step (h : LedgerInv start s) (hs : ledgerStep s l = some s') :
    LedgerInv start s' := by
  cases ledgerStep_move hs with
  | goOn hold hamount howed => exact h.goto hamount howed hold
  | @write t phase a hfree hphase hold hcovered =>
      have hnonneg := h.balanced.nonneg
      rw [← h.seen_getD hold.1] at hnonneg
      exact h.write hfree hphase hold.1 (by omega) hold.2
  | unpaid hphase hseen =>
      have hsome := h.seen_isSome hphase
      rw [hseen] at hsome
      cases hsome
  | @buy t price hphase =>
      apply h.commit (a := -price) (by rw [hphase]; rfl)
      · simp only [LedgerState.earned, LedgerState.pricePaid, List.foldl_append, List.foldl_cons,
          List.foldl_nil]
        ring
      · exact mem_append_tag
      · intro c hc
        exact .inl hc
  | @credit t amount hphase =>
      apply h.commit (a := amount) (by rw [hphase]; rfl)
      · simp only [LedgerState.earned, LedgerState.pricePaid, List.foldl_append, List.foldl_cons,
          List.foldl_nil]
        ring
      · intro p hp
        exact .inl hp
      · exact mem_append_tag
  | fail hold => exact h.rollback hold

/-- What is committed of the balance and the books stays as it is. -/
def SameBooks (s s' : LedgerState τ) : Prop :=
  s'.coins.committed = s.coins.committed ∧ s'.purchases = s.purchases ∧ s'.credits = s.credits

/-- A call that commits does not raise any more, and neither does another one by it. -/
theorem not_raised_of_committed (hold : s.phases t ≠ .raised) (t' : τ) :
    Function.update s.phases t' .committed t ≠ .raised := by
  by_cases htt : t = t'
  · rw [htt, Function.update_self]
    simp
  · rw [Function.update_of_ne htt]
    exact hold

/-- A call that raises changes nothing by it. -/
theorem sameBooks_of_raised (hs : ledgerStep s l = some s') (hold : s.phases t ≠ .raised)
    (hraised : s'.phases t = .raised) : SameBooks s s' := by
  cases ledgerStep_move hs with
  | goOn => exact ⟨rfl, rfl, rfl⟩
  | write => exact ⟨rfl, rfl, rfl⟩
  | unpaid => exact ⟨rfl, rfl, rfl⟩
  | @buy t' => exact absurd hraised (not_raised_of_committed hold t')
  | @credit t' => exact absurd hraised (not_raised_of_committed hold t')
  | fail => exact ⟨Row.committed_rollback, rfl, rfl⟩

omit [DecidableEq τ] in
theorem LedgerInv.booksKept (h : LedgerInv start s) : BooksKept start s := by
  constructor
  · intro c hc
    have hnonneg := h.balanced.nonneg
    rw [← h.balanced.balance, balance, hc] at hnonneg
    exact hnonneg
  · intro t c hc
    exact h.balanced.pending_nonneg hc
  · exact h.balanced.balance
  · intro t ht
    constructor
    · intro price hmem
      rw [h.purchases _ hmem] at ht
      cases ht
    · intro amount hmem
      rw [h.credits _ hmem] at ht
      cases ht

end Inv

/-- A user before any call: without a row, or with a balance. -/
def openLedger (initial : Option Nat) : LedgerState τ where
  coins := { committed := initial.map Int.ofNat }

omit [DecidableEq τ] in
theorem LedgerInv.init (initial : Option Nat) :
    LedgerInv (initial.getD 0 : Nat) (openLedger (τ := τ) initial) := by
  constructor
  · constructor
    · cases initial <;> simp [balance, openLedger, LedgerState.earned, LedgerState.pricePaid]
    · simp [openLedger, LedgerState.earned, LedgerState.pricePaid]
    · rintro t a ⟨⟩
    · rintro t ⟨a, ⟨⟩⟩
  · rintro t amount ⟨⟩
  · rintro p ⟨⟩
  · rintro c ⟨⟩

/-- Whatever the order of the calls and wherever they fail, no balance is below zero, the
balance is what the user started with and was credited less what the purchases say was
paid, and a call that raises changes neither side. -/
theorem coins_conserved (initial : Option Nat) {ls : List (LedgerLabel τ)} {s : LedgerState τ}
    (hrun : Run (ofStep ledgerStep) (openLedger initial) ls s) :
    BooksKept (initial.getD 0 : Nat) s ∧
      ∀ l s' t, ledgerStep s l = some s' → s.phases t ≠ .raised → s'.phases t = .raised →
        SameBooks s s' := by
  have hinv : LedgerInv (initial.getD 0 : Nat) s :=
    hrun.invariant (fun _ _ _ h hs ↦ h.step hs) (.init initial)
  exact ⟨hinv.booksKept, fun l s' t hs hold hraised ↦ sameBooks_of_raised hs hold hraised⟩

/-- A claimed quest pays for three keys; a second purchase finds too little left. -/
def questThenKeys : List (LedgerLabel Nat) :=
  [.claim 0 (some 1000), .pay 0, .purchaseKeys 1 3 true true, .purchaseKeys 2 1 false true,
   .commit 0, .deduct 1, .insert 1, .insert 1, .insert 1, .insertPurchase 1, .commit 1, .deduct 2]

theorem questThenKeys_conserved :
    ∃ s, questThenKeys.foldlM ledgerStep (openLedger (some 500)) = some s ∧
      s.phases 2 = .raised ∧ balance s.coins = 225 ∧ BooksKept 500 s := by
  have hrun : questThenKeys.foldlM ledgerStep (openLedger (some 500)) = some _ := rfl
  exact ⟨_, hrun, rfl, rfl, (coins_conserved (some 500) (Run.ofStep_iff.mpr hrun)).1⟩

end Genjishimada.Store
