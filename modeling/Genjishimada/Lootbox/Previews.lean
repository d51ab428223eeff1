import Genjishimada.Lootbox.Keys
import Genjishimada.Store.Coins
import Mathlib.Data.List.DropRight
import Mathlib.Data.List.Perm.Subperm

/-!
# Previews and grants

`get_random_items` consumes a key and shows what three draws have found.  It keeps no
record of them: `grant_reward_to_user` is a request of its own, which grants the reward
it is asked for.  What ties the two together is only the catalogue of rewards and what
the user owns, which both of them read.
-/

namespace Genjishimada.Lootbox

open Library Store

variable {τ : Type} [DecidableEq τ]

/-! ## Rewards -/

/-- The key of `lootbox.reward_types`. -/
structure Reward where
  name : String
  type : String
  keyType : String
deriving DecidableEq, Repr

/-- A row of `lootbox.reward_types`. -/
structure RewardType where
  reward : Reward
  rarity : Option String
deriving DecidableEq, Repr

/-- `lootbox.reward_types`: the rewards are its primary key. -/
structure Catalogue where
  rows : List RewardType
  nodup : (rows.map (·.reward)).Nodup

def gachaWeights : List (String × Nat) :=
  [("legendary", 3), ("epic", 5), ("rare", 25), ("common", 65)]

/-- What `_perform_gacha` chooses from. -/
def gachaRarities : List String := gachaWeights.map (·.1)

/-- `ORDER BY random() LIMIT 1` of the rewards of a rarity and a key type: any of them, and
none if there is none. -/
def Catalogue.IsRandom (c : Catalogue) (rarity keyType : String) : Option RewardType → Prop
  | some row => row ∈ c.rows ∧ row.rarity = some rarity ∧ row.reward.keyType = keyType
  | none => ∀ row ∈ c.rows, ¬ (row.rarity = some rarity ∧ row.reward.keyType = keyType)

instance Catalogue.IsRandom.decidable (c : Catalogue) (rarity keyType : String) :
    (row : Option RewardType) → Decidable (c.IsRandom rarity keyType row)
  | some _ => inferInstanceAs (Decidable (_ ∧ _))
  | none => inferInstanceAs (Decidable (∀ row ∈ c.rows, ¬ _))

/-- The inner `CASE` of `fetch_random_reward`. -/
def caseCoinAmount (rarity : Option String) : Nat :=
  if rarity = some "common" then 100
  else if rarity = some "rare" then 250
  else if rarity = some "epic" then 500
  else if rarity = some "legendary" then 1000
  else 0

/-- One of the rewards that `get_random_items` returns. -/
structure Offer where
  reward : Reward
  rarity : Option String
  duplicate : Bool
  coinAmount : Nat
deriving DecidableEq, Repr

/-- The columns of `fetch_random_reward`, for the row it has selected. -/
def fetchRandomReward (owned : List Reward) (row : RewardType) : Offer where
  reward := row.reward
  rarity := row.rarity
  duplicate := row.reward ∈ owned
  coinAmount := if row.reward ∈ owned then caseCoinAmount row.rarity else 0

/-! ## Grants -/

/-- The digits of a number, which underscores may group. -/
def parseDigits (digits : List Char) : Option Nat :=
  if (digits.splitOn '_').all fun group ↦ !group.isEmpty && group.all Char.isDigit then
    some ((digits.filter Char.isDigit).foldl (fun n c ↦ 10 * n + (c.toNat - '0'.toNat)) 0)
  else none

/-- Python's `int` of a text in ASCII. -/
def parseInt (text : String) : Option Int :=
  match (text.toList.dropWhile Char.isWhitespace).rdropWhile Char.isWhitespace with
  | '-' :: digits => (parseDigits digits).map fun n ↦ -(n : Int)
  | '+' :: digits => (parseDigits digits).map fun n ↦ (n : Int)
  | digits => (parseDigits digits).map fun n ↦ (n : Int)

/-- What a grant gives. -/
inductive Outcome where
  | coins (amount : Int)
  | /-- The coins for a reward that the user has already. -/
    duplicate (amount : Nat)
  | item
deriving DecidableEq, Repr

def Outcome.coinAmount : Outcome → Int
  | .coins amount => amount
  | .duplicate amount => amount
  | .item => 0

/-- `check_user_has_reward`: the rarity of a reward that the user owns. -/
def checkUserHasReward (c : Catalogue) (owned : List Reward) (reward : Reward) : Option String :=
  if reward ∈ owned then (c.rows.find? fun row ↦ row.reward = reward).bind (·.rarity) else none

/-- `grant_reward_to_user` up to its write; `none` if it raises. -/
def grantRewardToUser (c : Catalogue) (owned : List Reward) (reward : Reward) : Option Outcome :=
  if reward.type = "coins" then (parseInt reward.name).map .coins
  else
    match checkUserHasReward c owned reward with
    | some rarity =>
        -- the empty text is falsy
        if rarity = "" then some .item
        else some (.duplicate (CoinReward.duplicate rarity).coinAmount)
    | none => some .item

/-- Where a grant is. -/
inductive GrantPhase where
  | called
  | /-- What it gives is decided, but not committed. -/
    checked (reward : Reward) (outcome : Outcome)
  | granted
  | raised
deriving DecidableEq, Repr

/-- A grant that has returned. -/
structure Grant (τ : Type) where
  call : τ
  reward : Reward
  outcome : Outcome
deriving DecidableEq, Repr

/-- One of the three turns of the loop: the rarity that was drawn and what was found. -/
structure Draw where
  rarity : String
  offer : Option Offer
deriving DecidableEq, Repr

/-- An opening that has returned. -/
structure Opening (τ : Type) where
  call : τ
  keyType : String
  draws : List Draw
deriving DecidableEq, Repr

/-- What the opening returned: a draw that found nothing is skipped. -/
def Opening.offers (o : Opening τ) : List Offer := o.draws.filterMap (·.offer)

/-! ## The calls -/

/-- The keys of each type, with the openings of that type; the draws of each opening; what
the user owns; and the grants. -/
structure PreviewState (τ : Type) where
  keys : String → KeyState τ
  draws : String → τ → List Draw := fun _ _ ↦ []
  opened : List (Opening τ) := []
  owned : List Reward
  coins : Int
  grants : τ → GrantPhase := fun _ ↦ .called
  granted : List (Grant τ) := []

inductive PreviewLabel (τ : Type) where
  | /-- A step of the openings, or of what else adds keys of this type. -/
    key (keyType : String) (l : KeyLabel τ)
  | /-- A turn of the loop of an opening: the rarity and the row it draws. -/
    draw (keyType : String) (t : τ) (rarity : String) (row : Option RewardType)
  | /-- `grant_reward_to_user` up to its write. -/
    grant (t : τ) (reward : Reward)
  | /-- The write of a grant, and its commit. -/
    commit (t : τ)
  | /-- A statement of a grant fails. -/
    fail (t : τ)

/-- The openings that a step of the keys of this type returns from. -/
def PreviewState.returns (s : PreviewState τ) (keyType : String) : KeyLabel τ → List (Opening τ)
  | .commit t =>
      match (s.keys keyType).phases t with
      | .deleted _ => [Opening.mk t keyType (s.draws keyType t)]
      | _ => []
  | _ => []

/-- One step of the calls. -/
def previewStep (c : Catalogue) (s : PreviewState τ) : PreviewLabel τ → Option (PreviewState τ)
  | .key keyType l =>
      if ∀ o ∈ s.returns keyType l, o.draws.length = 3 then
        (keyStep (s.keys keyType) l).map fun keys ↦
          { s with
            keys := Function.update s.keys keyType keys
            opened := s.opened ++ s.returns keyType l }
      else none
  | .draw keyType t rarity row =>
      match (s.keys keyType).phases t with
      | .deleted _ =>
          if rarity ∈ gachaRarities ∧ (s.draws keyType t).length < 3 ∧
              c.IsRandom rarity keyType row then
            some { s with
              draws := Function.update s.draws keyType (Function.update (s.draws keyType) t
                (s.draws keyType t ++ [Draw.mk rarity (row.map (fetchRandomReward s.owned))])) }
          else none
      | _ => none
  | .grant t reward =>
      if s.grants t = .called then
        match grantRewardToUser c s.owned reward with
        | some outcome =>
            some { s with grants := Function.update s.grants t (.checked reward outcome) }
        | none => some { s with grants := Function.update s.grants t .raised }
      else none
  | .commit t =>
      match s.grants t with
      | .checked reward outcome =>
          -- the foreign key of `lootbox.user_rewards`
          if outcome = .item → reward ∈ c.rows.map (·.reward) then
            some { s with
              owned := s.owned ++ (if outcome = .item then [reward] else [])
              coins := s.coins + outcome.coinAmount
              grants := Function.update s.grants t .granted
              granted := s.granted ++ [Grant.mk t reward outcome] }
          else none
      | _ => none
  | .fail t =>
      match s.grants t with
      | .called | .checked .. => some { s with grants := Function.update s.grants t .raised }
      | _ => none

/-- The user before any call: the keys of each type, the rewards and the coins. -/
def rewarded (held : String → List Int) (owned : List Reward) (coins : Int) : PreviewState τ where
  keys := fun keyType ↦ keyring (held keyType)
  owned := owned
  coins := coins

/-! ## What a preview and a grant promise -/

/-- The draw found what the catalogue has, and the offer says whether the user owned the
reward and what it is worth then. -/
def Draw.Honest (c : Catalogue) (ownedBefore owned : List Reward) (keyType : String) (d : Draw) :
    Prop :=
  d.rarity ∈ gachaRarities ∧
    match d.offer with
    | some o =>
        o.reward.keyType = keyType ∧ RewardType.mk o.reward o.rarity ∈ c.rows ∧
          o.rarity = some d.rarity ∧
          o.coinAmount = (if o.duplicate then caseCoinAmount o.rarity else 0) ∧
          (o.duplicate = true → o.reward ∈ owned) ∧ (o.duplicate = false → o.reward ∉ ownedBefore)
    | none => c.IsRandom d.rarity keyType none

/-- The grant gives what its reward is worth. -/
def Outcome.Worth (c : Catalogue) (owned : List Reward) (reward : Reward) : Outcome → Prop
  | .coins amount => reward.type = "coins" ∧ parseInt reward.name = some amount
  | .duplicate amount =>
      reward ∈ owned ∧ ∃ rarity, checkUserHasReward c owned reward = some rarity ∧
        amount = (CoinReward.duplicate rarity).coinAmount
  | .item => reward.type ≠ "coins"

/-- What the grants have added to the coins. -/
def coinsGranted : List (Grant τ) → Int
  | [] => 0
  | g :: gs => g.outcome.coinAmount + coinsGranted gs

/-- The items the grants have added to what the user owns. -/
def itemsGranted (granted : List (Grant τ)) : List Reward :=
  (granted.filter (·.outcome = .item)).map (·.reward)

/-- What an opening has consumed and offered, and what the grants have added. -/
structure RewardsAccounted (c : Catalogue) (held : String → List Int) (ownedBefore : List Reward)
    (coinsBefore : Int) (s : PreviewState τ) : Prop where
  /-- An opening that returns consumes one key of its type, and nothing else consumes one. -/
  keys : ∀ keyType, KeysCounted (held keyType).length (s.keys keyType) ∧
    (s.keys keyType).opened = (s.opened.filter (·.keyType = keyType)).map (·.call)
  /-- It offers at most three rewards, all of its key type, and three if the key type has
  a reward of each rarity. -/
  offers : ∀ o ∈ s.opened, o.offers.length ≤ 3 ∧
    (∀ offer ∈ o.offers, offer.reward.keyType = o.keyType) ∧
    ((∀ rarity ∈ gachaRarities, ¬ c.IsRandom rarity o.keyType none) → o.offers.length = 3)
  /-- A grant adds the coins its reward names, the coins for a duplicate, or the item. -/
  grants : ∀ g ∈ s.granted, g.outcome.Worth c s.owned g.reward
  coins : s.coins = coinsBefore + coinsGranted s.granted
  owned : s.owned = ownedBefore ++ itemsGranted s.granted
  /-- The coins paid for a duplicate of an offered reward are those the offer showed, unless
  the user did not own it then and has been granted it since. -/
  duplicates : ∀ o ∈ s.opened, ∀ offer ∈ o.offers, ∀ g ∈ s.granted, ∀ amount,
    g.reward = offer.reward → g.outcome = .duplicate amount → amount = offer.coinAmount ∨
      offer.duplicate = false ∧ offer.reward ∉ ownedBefore ∧
        offer.reward ∈ itemsGranted s.granted

section Rewards

variable {c : Catalogue} {ownedBefore owned owned' : List Reward} {keyType : String}

omit [DecidableEq τ] in
theorem coinsGranted_append (gs gs' : List (Grant τ)) :
    coinsGranted (gs ++ gs') = coinsGranted gs + coinsGranted gs' := by
  induction gs with
  | nil => simp [coinsGranted]
  | cons g gs ih =>
      simp only [List.cons_append, coinsGranted, ih]
      omega

/-- The two tables of what a duplicate is worth agree. -/
theorem caseCoinAmount_eq {rarity : String} (h : rarity ∈ gachaRarities) :
    caseCoinAmount (some rarity) = (CoinReward.duplicate rarity).coinAmount := by
  simp only [gachaRarities, gachaWeights, List.map_cons, List.map_nil, List.mem_cons,
    List.not_mem_nil, or_false] at h
  rcases h with rfl | rfl | rfl | rfl <;> decide +kernel

/-- The rarity of a reward that is owned is that of its row. -/
theorem checkUserHasReward_of_mem {row : RewardType} (hrow : row ∈ c.rows)
    (howned : row.reward ∈ owned) : checkUserHasReward c owned row.reward = row.rarity := by
  have hfind : c.rows.find? (fun r ↦ r.reward = row.reward) = some row := by
    cases hr : c.rows.find? (fun r ↦ r.reward = row.reward) with
    | none => simpa using List.find?_eq_none.mp hr row hrow
    | some r =>
        have hreward : r.reward = row.reward := by simpa using List.find?_some hr
        rw [List.inj_on_of_nodup_map c.nodup (List.mem_of_find?_eq_some hr) hrow hreward]
  rw [checkUserHasReward, if_pos howned, hfind]
  rfl

/-- What a draw finds is honest when it is found. -/
theorem fetchRandomReward_honest {rarity : String} {row : Option RewardType}
    (hrarity : rarity ∈ gachaRarities) (hrow : c.IsRandom rarity keyType row)
    (howned : ∀ r ∈ ownedBefore, r ∈ owned) :
    (Draw.mk rarity (row.map (fetchRandomReward owned))).Honest c ownedBefore owned keyType := by
  refine ⟨hrarity, ?_⟩
  cases row with
  | none => exact hrow
  | some row =>
      obtain ⟨hmem, hrarity', hkeyType⟩ := hrow
      refine ⟨hkeyType, hmem, hrarity', ?_, ?_, ?_⟩
      · simp [fetchRandomReward]
      · simp [fetchRandomReward]
      · intro hnot hbefore
        simp only [fetchRandomReward, decide_eq_false_iff_not] at hnot
        exact hnot (howned _ hbefore)

/-- What the user owns only grows. -/
theorem Draw.Honest.mono {d : Draw} (h : d.Honest c ownedBefore owned keyType)
    (howned : ∀ r ∈ owned, r ∈ owned') : d.Honest c ownedBefore owned' keyType := by
  obtain ⟨hrarity, hoffer⟩ := h
  refine ⟨hrarity, ?_⟩
  cases ho : d.offer with
  | none =>
      rw [ho] at hoffer
      exact hoffer
  | some o =>
      rw [ho] at hoffer
      obtain ⟨hkeyType, hrow, hrarity', hcoins, hdup, hnew⟩ := hoffer
      exact ⟨hkeyType, hrow, hrarity', hcoins, fun h ↦ howned _ (hdup h), hnew⟩

theorem Outcome.Worth.mono {reward : Reward} {outcome : Outcome}
    (h : outcome.Worth c owned reward) (howned : ∀ r ∈ owned, r ∈ owned') :
    outcome.Worth c owned' reward := by
  cases outcome with
  | coins amount => exact h
  | item => exact h
  | duplicate amount =>
      obtain ⟨hmem, rarity, hrarity, hamount⟩ := h
      refine ⟨howned _ hmem, rarity, ?_, hamount⟩
      rw [checkUserHasReward, if_pos hmem] at hrarity
      rw [checkUserHasReward, if_pos (howned _ hmem), hrarity]

/-- What a grant decides on is what its reward is worth. -/
theorem grantRewardToUser_worth {reward : Reward} {outcome : Outcome}
    (h : grantRewardToUser c owned reward = some outcome) : outcome.Worth c owned reward := by
  rw [grantRewardToUser] at h
  split at h
  · rename_i htype
    obtain ⟨amount, hamount, rfl⟩ := Option.map_eq_some_iff.mp h
    exact ⟨htype, hamount⟩
  · rename_i htype
    split at h
    · rename_i rarity hrarity
      split at h
      · obtain rfl := Option.some.inj h
        exact htype
      · obtain rfl := Option.some.inj h
        refine ⟨?_, rarity, hrarity, rfl⟩
        by_contra hnot
        rw [checkUserHasReward, if_neg hnot] at hrarity
        cases hrarity
    · obtain rfl := Option.some.inj h
      exact htype

/-- The coins for a duplicate are those its offer showed, if the user owned it then. -/
theorem Draw.Honest.coinAmount {d : Draw} {offer : Offer} {amount : Nat}
    (h : d.Honest c ownedBefore owned keyType) (hoffer : d.offer = some offer)
    (hdup : (Outcome.duplicate amount).Worth c owned offer.reward) :
    amount = offer.coinAmount ∨
      offer.duplicate = false ∧ offer.reward ∉ ownedBefore ∧ offer.reward ∈ owned := by
  obtain ⟨hgacha, ho⟩ := h
  rw [hoffer] at ho
  obtain ⟨_, hrow, hrarity, hcoins, _, hnew⟩ := ho
  obtain ⟨howned, rarity, hrarity', hamount⟩ := hdup
  cases hd : offer.duplicate with
  | false => exact .inr ⟨rfl, hnew hd, howned⟩
  | true =>
      left
      have hsame := checkUserHasReward_of_mem hrow howned
      rw [hrarity', hrarity] at hsame
      cases hsame
      rw [hcoins, hd, if_pos rfl, hrarity, caseCoinAmount_eq hgacha, hamount]

end Rewards

/-! ## What one step does -/

/-- What a step of the calls can do. -/
inductive PreviewMove (c : Catalogue) (s : PreviewState τ) :
    PreviewLabel τ → PreviewState τ → Prop
  | key {keyType : String} {l : KeyLabel τ} {keys : KeyState τ}
      (hdraws : ∀ o ∈ s.returns keyType l, o.draws.length = 3)
      (hs : keyStep (s.keys keyType) l = some keys) :
      PreviewMove c s (.key keyType l)
        { s with
          keys := Function.update s.keys keyType keys
          opened := s.opened ++ s.returns keyType l }
  | draw {keyType : String} {t : τ} {rarity : String} {row : Option RewardType}
      (hrarity : rarity ∈ gachaRarities) (hrow : c.IsRandom rarity keyType row) :
      PreviewMove c s (.draw keyType t rarity row)
        { s with
          draws := Function.update s.draws keyType (Function.update (s.draws keyType) t
            (s.draws keyType t ++ [Draw.mk rarity (row.map (fetchRandomReward s.owned))])) }
  | check {t : τ} {reward : Reward} {outcome : Outcome}
      (hgrant : grantRewardToUser c s.owned reward = some outcome) :
      PreviewMove c s (.grant t reward)
        { s with grants := Function.update s.grants t (.checked reward outcome) }
  | /-- The name of a coin reward is no number. -/
    raise {t : τ} {reward : Reward} :
      PreviewMove c s (.grant t reward) { s with grants := Function.update s.grants t .raised }
  | commit {t : τ} {reward : Reward} {outcome : Outcome}
      (hphase : s.grants t = .checked reward outcome) :
      PreviewMove c s (.commit t)
        { s with
          owned := s.owned ++ (if outcome = .item then [reward] else [])
          coins := s.coins + outcome.coinAmount
          grants := Function.update s.grants t .granted
          granted := s.granted ++ [Grant.mk t reward outcome] }
  | fail {t : τ} :
      PreviewMove c s (.fail t) { s with grants := Function.update s.grants t .raised }

/-- A step is one of the moves. -/
theorem previewStep_move {c : Catalogue} {s s' : PreviewState τ} {l : PreviewLabel τ}
    (hs : previewStep c s l = some s') : PreviewMove c s l s' := by
  cases l with
  | key keyType l =>
      simp only [previewStep] at hs
      split at hs
      · rename_i hdraws
        obtain ⟨keys, hkeys, rfl⟩ := Option.map_eq_some_iff.mp hs
        exact .key hdraws hkeys
      · cases hs
  | draw keyType t rarity row =>
      simp only [previewStep] at hs
      split at hs
      · split at hs
        · rename_i hcond
          obtain rfl := Option.some.inj hs
          exact .draw hcond.1 hcond.2.2
        · cases hs
      · cases hs
  | grant t reward =>
      simp only [previewStep] at hs
      split at hs
      · split at hs
        · rename_i outcome hgrant
          obtain rfl := Option.some.inj hs
          exact .check hgrant
        · obtain rfl := Option.some.inj hs
          exact .raise
      · cases hs
  | commit t =>
      simp only [previewStep] at hs
      split at hs
      · rename_i reward outcome hphase
        split at hs
        · obtain rfl := Option.some.inj hs
          exact .commit hphase
        · cases hs
      · cases hs
  | fail t =>
      simp only [previewStep] at hs
      split at hs
      · obtain rfl := Option.some.inj hs
        exact .fail
      · obtain rfl := Option.some.inj hs
        exact .fail
      · cases hs

/-! ## What holds at every moment -/

/-- What holds at every moment. -/
structure PreviewInv (c : Catalogue) (held : String → List Int) (ownedBefore : List Reward)
    (coinsBefore : Int) (s : PreviewState τ) : Prop where
  keys : ∀ k, KeyInv (held k).length (s.keys k)
  calls : ∀ k, (s.keys k).opened = (s.opened.filter (·.keyType = k)).map (·.call)
  draws : ∀ k t, ∀ d ∈ s.draws k t, d.Honest c ownedBefore s.owned k
  opened : ∀ o ∈ s.opened, o.draws.length = 3 ∧
    ∀ d ∈ o.draws, d.Honest c ownedBefore s.owned o.keyType
  owned : s.owned = ownedBefore ++ itemsGranted s.granted
  coins : s.coins = coinsBefore + coinsGranted s.granted
  checked : ∀ t reward outcome, s.grants t = .checked reward outcome →
    outcome.Worth c s.owned reward
  granted : ∀ g ∈ s.granted, g.outcome.Worth c s.owned g.reward

section Inv

variable {c : Catalogue} {held : String → List Int} {ownedBefore : List Reward} {coinsBefore : Int}
variable {s s' : PreviewState τ} {t : τ} {keyType : String}

omit [DecidableEq τ] in
theorem mem_returns {l : KeyLabel τ} {o : Opening τ} (ho : o ∈ s.returns keyType l) :
    o.keyType = keyType ∧ o.draws = s.draws keyType o.call := by
  cases l with
  | commit t =>
      rw [PreviewState.returns] at ho
      split at ho
      · rw [List.mem_singleton.mp ho]
        exact ⟨rfl, rfl⟩
      · cases ho
  | _ => cases ho

/-- The openings of a key type that have returned are those that have consumed a key. -/
theorem opened_of_keyStep {l : KeyLabel τ} {keys : KeyState τ}
    (hs : keyStep (s.keys keyType) l = some keys) :
    keys.opened = (s.keys keyType).opened ++ (s.returns keyType l).map (·.call) := by
  cases keyStep_move hs with
  | add hl hold hnew =>
      have hnone : s.returns keyType l = [] := by
        cases l with
        | commit t => exact absurd (List.mem_singleton_self t) (hl [t])
        | _ => rfl
      rw [hnone]
      exact (List.append_nil _).symm
  | returned hphase => simp [PreviewState.returns, hphase, KeyState.goto]
  | insert hphase => simp [PreviewState.returns, hphase, KeyState.goto]
  | pick | noKey | delete | lose | giveBack | fail => exact (List.append_nil _).symm

/-- A step of the openings of a key type. -/
theorem PreviewInv.key (h : PreviewInv c held ownedBefore coinsBefore s) {l : KeyLabel τ}
    {keys : KeyState τ} (hdraws : ∀ o ∈ s.returns keyType l, o.draws.length = 3)
    (hs : keyStep (s.keys keyType) l = some keys) :
    PreviewInv c held ownedBefore coinsBefore
      { s with
        keys := Function.update s.keys keyType keys
        opened := s.opened ++ s.returns keyType l } := by
  refine ⟨fun k ↦ ?_, fun k ↦ ?_, h.draws, ?_, h.owned, h.coins, h.checked, h.granted⟩
  · by_cases hk : k = keyType
    · subst hk
      simp only [Function.update_self]
      exact (h.keys k).step hs
    · simp only [Function.update_of_ne hk]
      exact h.keys k
  · rw [List.filter_append, List.map_append, ← h.calls k]
    by_cases hk : k = keyType
    · subst hk
      have hall : (s.returns k l).filter (·.keyType = k) = s.returns k l := by
        rw [List.filter_eq_self]
        intro o ho
        simpa using (mem_returns ho).1
      simp only [Function.update_self]
      rw [hall, opened_of_keyStep hs]
    · have hnone : (s.returns keyType l).filter (·.keyType = k) = [] := by
        rw [List.filter_eq_nil_iff]
        intro o ho
        rw [(mem_returns ho).1]
        simpa using Ne.symm hk
      simp only [Function.update_of_ne hk]
      rw [hnone, List.map_nil, List.append_nil]
  · intro o ho
    rcases List.mem_append.mp ho with ho | ho
    · exact h.opened o ho
    · obtain ⟨hkey, hsame⟩ := mem_returns ho
      refine ⟨hdraws o ho, fun d hd ↦ ?_⟩
      rw [hsame] at hd
      rw [hkey]
      exact h.draws keyType o.call d hd

/-- A turn of the loop of an opening. -/
theorem PreviewInv.draw (h : PreviewInv c held ownedBefore coinsBefore s) {d : Draw}
    (hd : d.Honest c ownedBefore s.owned keyType) :
    PreviewInv c held ownedBefore coinsBefore
      { s with
        draws := Function.update s.draws keyType
          (Function.update (s.draws keyType) t (s.draws keyType t ++ [d])) } := by
  refine ⟨h.keys, h.calls, fun k t' d' hd' ↦ ?_, h.opened, h.owned, h.coins, h.checked, h.granted⟩
  by_cases hk : k = keyType
  · subst hk
    simp only [Function.update_self] at hd'
    by_cases ht : t' = t
    · subst ht
      rw [Function.update_self] at hd'
      rcases List.mem_append.mp hd' with hd' | hd'
      · exact h.draws k t' d' hd'
      · rw [List.mem_singleton.mp hd']
        exact hd
    · rw [Function.update_of_ne ht] at hd'
      exact h.draws k t' d' hd'
  · simp only [Function.update_of_ne hk] at hd'
    exact h.draws k t' d' hd'

/-- A grant goes on without giving anything. -/
theorem PreviewInv.goto (h : PreviewInv c held ownedBefore coinsBefore s) {phase : GrantPhase}
    (hphase : ∀ reward outcome, phase = .checked reward outcome →
      outcome.Worth c s.owned reward) :
    PreviewInv c held ownedBefore coinsBefore
      { s with grants := Function.update s.grants t phase } := by
  refine ⟨h.keys, h.calls, h.draws, h.opened, h.owned, h.coins, fun t' reward outcome ht' ↦ ?_,
    h.granted⟩
  by_cases ht : t' = t
  · subst ht
    simp only [Function.update_self] at ht'
    exact hphase reward outcome ht'
  · simp only [Function.update_of_ne ht] at ht'
    exact h.checked t' reward outcome ht'

/-- A grant gives what it has decided on. -/
theorem PreviewInv.commit (h : PreviewInv c held ownedBefore coinsBefore s) {reward : Reward}
    {outcome : Outcome} (hphase : s.grants t = .checked reward outcome) :
    PreviewInv c held ownedBefore coinsBefore
      { s with
        owned := s.owned ++ (if outcome = .item then [reward] else [])
        coins := s.coins + outcome.coinAmount
        grants := Function.update s.grants t .granted
        granted := s.granted ++ [Grant.mk t reward outcome] } := by
  have hgrow : ∀ r ∈ s.owned, r ∈ s.owned ++ (if outcome = .item then [reward] else []) :=
    fun r hr ↦ List.mem_append_left _ hr
  refine ⟨h.keys, h.calls, ?_, ?_, ?_, ?_, ?_, ?_⟩
  · exact fun k t' d hd ↦ (h.draws k t' d hd).mono hgrow
  · exact fun o ho ↦ ⟨(h.opened o ho).1, fun d hd ↦ ((h.opened o ho).2 d hd).mono hgrow⟩
  · show s.owned ++ _ = _
    rw [h.owned, itemsGranted, itemsGranted, List.filter_append, List.map_append,
      List.append_assoc]
    by_cases ho : outcome = .item <;> simp [ho]
  · show s.coins + _ = _
    rw [h.coins, coinsGranted_append]
    simp only [coinsGranted]
    omega
  · intro t' reward' outcome' ht'
    by_cases ht : t' = t
    · subst ht
      simp only [Function.update_self] at ht'
      cases ht'
    · simp only [Function.update_of_ne ht] at ht'
      exact (h.checked t' reward' outcome' ht').mono hgrow
  · intro g hg
    rcases List.mem_append.mp hg with hg | hg
    · exact (h.granted g hg).mono hgrow
    · rw [List.mem_singleton.mp hg]
      exact (h.checked t reward outcome hphase).mono hgrow

/-- Every step keeps the invariant. -/
theorem PreviewInv.step (h : PreviewInv c held ownedBefore coinsBefore s) {l : PreviewLabel τ}
    (hs : previewStep c s l = some s') : PreviewInv c held ownedBefore coinsBefore s' := by
  cases previewStep_move hs with
  | key hdraws hkeys => exact h.key hdraws hkeys
  | draw hrarity hrow =>
      apply h.draw
      apply fetchRandomReward_honest hrarity hrow
      intro r hr
      rw [h.owned]
      exact List.mem_append_left _ hr
  | check hgrant =>
      apply h.goto
      rintro _ _ ⟨⟩
      exact grantRewardToUser_worth hgrant
  | raise => exact h.goto (by simp)
  | commit hphase => exact h.commit hphase
  | fail => exact h.goto (by simp)

omit [DecidableEq τ] in
/-- The invariant before any call. -/
theorem PreviewInv.init (c : Catalogue) (held : String → List Int) (ownedBefore : List Reward)
    (coinsBefore : Int) :
    PreviewInv c held ownedBefore coinsBefore
      (rewarded (τ := τ) held ownedBefore coinsBefore) := by
  constructor
  · exact fun k ↦ .init (held k)
  · exact fun k ↦ rfl
  · rintro k t d ⟨⟩
  · rintro o ⟨⟩
  · exact (List.append_nil _).symm
  · exact (Int.add_zero _).symm
  · rintro t reward outcome ⟨⟩
  · rintro g ⟨⟩

omit [DecidableEq τ] in
/-- A draw that nothing was found for is skipped; no other one is. -/
theorem length_offers {o : Opening τ} (hfound : ∀ d ∈ o.draws, d.offer ≠ none) :
    o.offers.length = o.draws.length := by
  rw [Opening.offers]
  revert hfound
  induction o.draws with
  | nil => exact fun _ ↦ rfl
  | cons d ds ih =>
      intro hfound
      obtain ⟨hd, hds⟩ := List.forall_mem_cons.mp hfound
      obtain ⟨offer, hoffer⟩ := Option.ne_none_iff_exists'.mp hd
      rw [List.filterMap_cons_some hoffer, List.length_cons, List.length_cons, ih hds]

omit [DecidableEq τ] in
/-- In every state the rewards are accounted for. -/
theorem PreviewInv.accounted (h : PreviewInv c held ownedBefore coinsBefore s) :
    RewardsAccounted c held ownedBefore coinsBefore s := by
  constructor
  · exact fun k ↦ ⟨(h.keys k).counted, h.calls k⟩
  · intro o ho
    obtain ⟨hlength, hhonest⟩ := h.opened o ho
    refine ⟨?_, ?_, fun hrows ↦ ?_⟩
    · rw [← hlength]
      exact List.length_filterMap_le _ _
    · intro offer hoffer
      obtain ⟨d, hd, hsome⟩ := List.mem_filterMap.mp hoffer
      have hgood := (hhonest d hd).2
      rw [hsome] at hgood
      exact hgood.1
    · rw [← hlength]
      apply length_offers
      intro d hd hnone
      have hgood := hhonest d hd
      rw [Draw.Honest, hnone] at hgood
      exact hrows d.rarity hgood.1 hgood.2
  · exact h.granted
  · exact h.coins
  · exact h.owned
  · intro o ho offer hoffer g hg amount hreward houtcome
    obtain ⟨d, hd, hsome⟩ := List.mem_filterMap.mp hoffer
    have hworth := h.granted g hg
    rw [houtcome, hreward] at hworth
    refine (((h.opened o ho).2 d hd).coinAmount hsome hworth).imp id ?_
    rintro ⟨hnot, hbefore, howned⟩
    rw [h.owned] at howned
    exact ⟨hnot, hbefore, (List.mem_append.mp howned).resolve_left hbefore⟩

end Inv

end Genjishimada.Lootbox
