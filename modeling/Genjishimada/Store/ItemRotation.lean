import Genjishimada.Library.Run
import Genjishimada.Services.ItemRotation

/-!
# The items on offer

The shop through any run of its calls, one at a time: the hourly check, rotations that an
administrator asks for, changes of the configuration, and new reward types.
-/

namespace Genjishimada.Store

open Library Migrations Repository Services

/-! ## The calls -/

inductive ShopCall where
  | checkAndRotate (lockAcquired : Bool) (draw : RotationDraw)
  | generateRotation (itemCount : Int) (draw : RotationDraw)
  | updateConfig (rotationPeriodDays : Option Int) (activeKeyType : Option String)
  | /-- A migration adds reward types. -/
    addRewardTypes (rewardTypes : RewardTypes)

structure Shop where
  clock : Int
  db : ItemDb

/-- The ids that the call may give to a rotation. -/
def ShopCall.ids : ShopCall → List Nat
  | .checkAndRotate _ draw | .generateRotation _ draw => [draw.rotationId]
  | _ => []

/-- A call that raises leaves nothing behind. -/
def ShopCall.run (now : Int) (db : ItemDb) : ShopCall → ItemDb
  | .checkAndRotate lockAcquired draw =>
      (Migrations.checkAndRotate lockAcquired now draw db).getD db
  | .generateRotation itemCount draw =>
      ((generateItemRotation itemCount now draw db).toOption.map Prod.snd).getD db
  | .updateConfig rotationPeriodDays activeKeyType =>
      (updateItemConfig rotationPeriodDays activeKeyType db).toOption.getD db
  | .addRewardTypes rewardTypes =>
      -- `ON CONFLICT DO NOTHING`
      if db.rewardTypes.rows ⊆ rewardTypes.rows then { db with rewardTypes } else db

/-- The clock advances from call to call, and `gen_random_uuid` makes a new id. -/
def shopStep (s : Shop) (l : Int × ShopCall) : Option Shop :=
  if s.clock < l.1 ∧ ∀ r ∈ s.db.rotations.rows, r.rotationId ∉ l.2.ids then
    some { clock := l.1, db := l.2.run l.1 s.db }
  else none

/-! ## What a rotation offers -/

/-- The price of a rarity in the shop. -/
def rarityPrices : List (String × Int) := [("legendary", 3000), ("epic", 1500), ("rare", 750)]

/-- The items of a rotation. -/
def itemsOf (rotationId : Nat) (db : ItemDb) : List RotationRow :=
  db.rotations.select fun r ↦ r.rotationId = rotationId

/-- The reward type exists with the rarity of the item, and is not an amount of coins. -/
def Offered (rewardTypes : RewardTypes) (r : RotationRow) : Prop :=
  ∃ t ∈ rewardTypes.rows, t.toRewardKey = r.rewardKey ∧ t.rarity = some r.rarity ∧ t.type ≠ "coins"

/-- The rotations are made up as they should be, and an item is back after two others at the
earliest. -/
structure WellStocked (db : ItemDb) : Prop where
  priced : ∀ r ∈ db.rotations.rows, (r.rarity, r.price) ∈ rarityPrices
  offered : ∀ r ∈ db.rotations.rows, Offered db.rewardTypes r
  distinct : ∀ g, ((itemsOf g db).map RotationRow.rewardKey).Nodup
  total : ∀ g, (itemsOf g db).length ≤ 5
  legendaries : ∀ g, (itemsOf g db).countP (fun r ↦ r.rarity = "legendary") ≤ 1
  epics : ∀ g, (itemsOf g db).countP (fun r ↦ r.rarity = "epic") ≤ 2
  rested : availability.Rested 2 RotationRow.rewardKey db.rotations.rows

/-! ## One statement -/

section Insert

variable {recentRotationIds : List Nat} {draw : RotationDraw} {now availableUntil price : Int}
  {rarity : String} {count : Nat} {rewardTypes : RewardTypes} {rotations : Table RotationRow}

/-- What a statement adds to the rows. -/
structure Inserted (recentRotationIds : List Nat) (draw : RotationDraw) (now availableUntil : Int)
    (rarity : String) (price : Int) (count : Nat) (rewardTypes : RewardTypes)
    (rows new : List RotationRow) : Prop where
  length : new.length ≤ count
  row : ∀ b ∈ new, b.rotationId = draw.rotationId ∧ b.rarity = rarity ∧ b.price = price ∧
    b.availableFrom = now ∧ b.availableUntil = availableUntil
  offered : ∀ b ∈ new, Offered rewardTypes b
  fresh : ∀ b ∈ new, ∀ a ∈ rows, a.rewardKey = b.rewardKey → a.rotationId ∉ recentRotationIds
  nodup : (new.map RotationRow.rewardKey).Nodup

/-- Inserting the items one after another appends a row for each. -/
theorem foldl_insertItem (items : List RewardType) (rotationId : Nat)
    (rotations : Table RotationRow) :
    ∃ new, (items.foldl (insertItem rotationId rarity price now availableUntil) rotations).rows =
        rotations.rows ++ new ∧
      new.map RotationRow.rewardKey = items.map RewardType.toRewardKey ∧
      ∀ b ∈ new, ∃ r ∈ items, ∃ id, b = r.offer rotationId rarity price now availableUntil id := by
  induction items generalizing rotations with
  | nil => exact ⟨[], (List.append_nil _).symm, rfl, List.forall_mem_nil _⟩
  | cons r items ih =>
      obtain ⟨new, hrows, hkeys, hnew⟩ :=
        ih (insertItem rotationId rarity price now availableUntil rotations r)
      refine ⟨r.offer rotationId rarity price now availableUntil rotations.nextId :: new, ?_, ?_,
        List.forall_mem_cons.mpr ⟨⟨r, List.mem_cons_self, _, rfl⟩, fun b hb ↦ ?_⟩⟩
      · rw [List.foldl_cons, hrows, rows_insertItem, List.append_assoc, List.singleton_append]
      · rw [List.map_cons, List.map_cons, hkeys]
        rfl
      · obtain ⟨r', hr', hoffer⟩ := hnew b hb
        exact ⟨r', List.mem_cons_of_mem _ hr', hoffer⟩

theorem insertOffers_spec : ∃ new,
    (insertOffers recentRotationIds draw now availableUntil rarity price count rewardTypes
      rotations).2.rows = rotations.rows ++ new ∧
    (insertOffers recentRotationIds draw now availableUntil rarity price count rewardTypes
      rotations).1 = new.length ∧
    Inserted recentRotationIds draw now availableUntil rarity price count rewardTypes
      rotations.rows new := by
  set items := drawItems recentRotationIds draw rarity count rewardTypes rotations with hitems
  obtain ⟨new, hrows, hkeys, hmem⟩ :=
    @foldl_insertItem now availableUntil price rarity items draw.rotationId rotations
  have hlength : items.length = new.length := by
    rw [← List.length_map RewardType.toRewardKey, ← hkeys, List.length_map]
  have hoffer : ∀ r ∈ items, r ∈ rewardTypes.rows ∧
      mayOffer recentRotationIds rarity rotations r = true := by
    intro r hr
    exact List.mem_filter.mp ((Shuffle.mem_order _).mp (List.mem_of_mem_take hr))
  refine ⟨new, hrows, hlength, ?_⟩
  constructor
  · rw [← hlength]
    exact List.length_take_le _ _
  · intro b hb
    obtain ⟨r, -, id, rfl⟩ := hmem b hb
    exact ⟨rfl, rfl, rfl, rfl, rfl⟩
  · intro b hb
    obtain ⟨r, hr, id, rfl⟩ := hmem b hb
    obtain ⟨hrow, hel⟩ := hoffer r hr
    rw [mayOffer, decide_eq_true_iff] at hel
    exact ⟨r, hrow, rfl, hel.1, hel.2.1⟩
  · intro b hb a ha hkey hrecent
    obtain ⟨r, hr, id, rfl⟩ := hmem b hb
    have hel := (hoffer r hr).2
    rw [mayOffer, decide_eq_true_iff] at hel
    exact hel.2.2 (List.any_eq_true.mpr ⟨a, ha, decide_eq_true ⟨hrecent, hkey⟩⟩)
  · rw [hkeys]
    have hsub : (items.map RewardType.toRewardKey).Sublist _ :=
      (List.take_sublist count _).map RewardType.toRewardKey
    refine List.Nodup.sublist hsub ?_
    refine (((draw.random rarity).perm _).map _).nodup_iff.mpr ?_
    exact rewardTypes.nodup.sublist (List.filter_sublist.map _)

end Insert

/-! ## One rotation -/

/-- A row that is on is taken off. -/
def closeItem (now : Int) (r : RotationRow) : RotationRow :=
  if availability.on now r then { r with availableUntil := now } else r

theorem rows_expireActive (now : Int) (rotations : Table RotationRow) :
    (expireActive now rotations).rows = rotations.rows.map (closeItem now) := rfl

section Close

variable {now : Int} {r : RotationRow}

/-- Taking a row off changes nothing else of it. -/
theorem closeItem_eq : closeItem now r =
    { r with availableUntil := if availability.on now r then now else r.availableUntil } := by
  rw [closeItem]
  split <;> rfl

theorem rewardKey_closeItem (r : RotationRow) : (closeItem now r).rewardKey = r.rewardKey := by
  rw [closeItem_eq]
  rfl

theorem rarity_closeItem (r : RotationRow) : (closeItem now r).rarity = r.rarity := by
  rw [closeItem_eq]

theorem closes_closeItem : availability.Closes now (closeItem now) := by
  constructor <;> intro r <;> rw [closeItem_eq] <;> rfl

end Close

/-- The items of a new rotation, beside the rows that were there before. -/
structure NewRotation (now availableUntil : Int) (draw : RotationDraw) (rewardTypes : RewardTypes)
    (old new : List RotationRow) : Prop where
  row : ∀ b ∈ new, b.rotationId = draw.rotationId ∧ b.availableFrom = now ∧
    b.availableUntil = availableUntil
  priced : ∀ b ∈ new, (b.rarity, b.price) ∈ rarityPrices
  offered : ∀ b ∈ new, Offered rewardTypes b
  fresh : ∀ b ∈ new, ∀ a ∈ old, a.rewardKey = b.rewardKey → a.rotationId ∉ availability.newest 2 old
  nodup : (new.map RotationRow.rewardKey).Nodup
  total : new.length ≤ 5
  legendaries : new.countP (fun r ↦ r.rarity = "legendary") ≤ 1
  epics : new.countP (fun r ↦ r.rarity = "epic") ≤ 2

section Generate

variable {now availableUntil : Int} {draw : RotationDraw} {db db' : ItemDb}
  {rewardTypes : RewardTypes} {pItemCount : Int} {generated : GeneratedItems}

/-- The reward types of an item agree. -/
theorem Offered.rarity_eq {a b : RotationRow} (ha : Offered rewardTypes a)
    (hb : Offered rewardTypes b) (hkey : a.rewardKey = b.rewardKey) : a.rarity = b.rarity := by
  obtain ⟨t, ht, htkey, htrarity, -⟩ := ha
  obtain ⟨u, hu, hukey, hurarity, -⟩ := hb
  have heq : t = u :=
    List.inj_on_of_nodup_map rewardTypes.nodup ht hu (htkey.trans (hkey.trans hukey.symm))
  rw [heq, hurarity] at htrarity
  exact (Option.some.inj htrarity).symm

/-- Items of two rarities differ. -/
theorem Inserted.disjoint {recent recent' : List Nat} {price price' : Int} {rarity rarity' : String}
    {count count' : Nat} {rows rows' new new' : List RotationRow}
    (h : Inserted recent draw now availableUntil rarity price count rewardTypes rows new)
    (h' : Inserted recent' draw now availableUntil rarity' price' count' rewardTypes rows' new')
    (hne : rarity ≠ rarity') :
    (new.map RotationRow.rewardKey).Disjoint (new'.map RotationRow.rewardKey) := by
  intro key hkey hkey'
  obtain ⟨b, hb, rfl⟩ := List.mem_map.mp hkey
  obtain ⟨b', hb', heq⟩ := List.mem_map.mp hkey'
  have hrarity := (h.offered b hb).rarity_eq (h'.offered b' hb') heq.symm
  rw [(h.row b hb).2.1, (h'.row b' hb').2.1] at hrarity
  exact hne hrarity

section Inserted

variable {recent : List Nat} {price : Int} {rarity : String} {count : Nat}
  {rows new : List RotationRow}

theorem Inserted.priced
    (h : Inserted recent draw now availableUntil rarity price count rewardTypes rows new)
    (hprice : (rarity, price) ∈ rarityPrices) :
    ∀ b ∈ new, (b.rarity, b.price) ∈ rarityPrices := by
  intro b hb
  rw [(h.row b hb).2.1, (h.row b hb).2.2.1]
  exact hprice

theorem Inserted.placed
    (h : Inserted recent draw now availableUntil rarity price count rewardTypes rows new) :
    ∀ b ∈ new, b.rotationId = draw.rotationId ∧ b.availableFrom = now ∧
      b.availableUntil = availableUntil :=
  fun b hb ↦ ⟨(h.row b hb).1, (h.row b hb).2.2.2⟩

/-- How many items of some rarity a statement adds. -/
theorem Inserted.countP_eq
    (h : Inserted recent draw now availableUntil rarity price count rewardTypes rows new)
    (rarity' : String) :
    new.countP (fun r ↦ r.rarity = rarity') = if rarity = rarity' then new.length else 0 := by
  split
  · next heq =>
    refine List.countP_eq_length.mpr fun b hb ↦ decide_eq_true ?_
    rw [(h.row b hb).2.1, heq]
  · next hne =>
    refine List.countP_eq_zero.mpr fun b hb ↦ ?_
    rw [(h.row b hb).2.1, decide_eq_true_iff]
    exact hne

end Inserted

/-- The three statements together make up a rotation. -/
theorem newRotation_of_inserted {old new₁ new₂ new₃ : List RotationRow} {rareCount : Nat}
    (h₁ : Inserted (availability.newest 2 old) draw now availableUntil "legendary" 3000 1
      rewardTypes old new₁)
    (h₂ : Inserted (availability.newest 2 old) draw now availableUntil "epic" 1500 draw.epicCount
      rewardTypes (old ++ new₁) new₂)
    (h₃ : Inserted (availability.newest 2 old) draw now availableUntil "rare" 750 rareCount
      rewardTypes (old ++ new₁ ++ new₂) new₃) (hcount : 1 + draw.epicCount + rareCount ≤ 5) :
    NewRotation now availableUntil draw rewardTypes old (new₁ ++ new₂ ++ new₃) := by
  have hepic : draw.epicCount ≤ 2 := by
    rw [RotationDraw.epicCount]
    split
    · decide
    · exact Nat.le_of_lt_succ draw.epicRoll.isLt
  have hlength₁ := h₁.length
  have hlength₂ := h₂.length
  have hlength₃ := h₃.length
  constructor
  · rw [List.forall_mem_append, List.forall_mem_append]
    exact ⟨⟨h₁.placed, h₂.placed⟩, h₃.placed⟩
  · rw [List.forall_mem_append, List.forall_mem_append]
    exact ⟨⟨h₁.priced (by decide), h₂.priced (by decide)⟩, h₃.priced (by decide)⟩
  · rw [List.forall_mem_append, List.forall_mem_append]
    exact ⟨⟨h₁.offered, h₂.offered⟩, h₃.offered⟩
  · intro b hb a ha
    rw [List.mem_append, List.mem_append] at hb
    rcases hb with (hb | hb) | hb
    · exact h₁.fresh b hb a ha
    · exact h₂.fresh b hb a (List.mem_append_left _ ha)
    · exact h₃.fresh b hb a (List.mem_append_left _ (List.mem_append_left _ ha))
  · rw [List.map_append, List.map_append]
    have h₁₂ := h₁.disjoint h₂ (by decide)
    have h₁₃ := h₁.disjoint h₃ (by decide)
    have h₂₃ := h₂.disjoint h₃ (by decide)
    exact (h₁.nodup.append h₂.nodup h₁₂).append h₃.nodup (List.disjoint_append_left.mpr ⟨h₁₃, h₂₃⟩)
  · rw [List.length_append, List.length_append]
    omega
  · rw [List.countP_append, List.countP_append, h₁.countP_eq, h₂.countP_eq, h₃.countP_eq,
      if_pos rfl, if_neg (by decide), if_neg (by decide)]
    exact hlength₁
  · rw [List.countP_append, List.countP_append, h₁.countP_eq, h₂.countP_eq, h₃.countP_eq,
      if_neg (by decide), if_pos rfl, if_neg (by decide)]
    omega

/-- What `store.generate_rotation` does. -/
theorem generateRotation_spec (h : generateRotation pItemCount now draw db = some (generated, db'))
    (hcount : pItemCount ≤ 5) :
    ∃ new, db'.rotations.rows = db.rotations.rows.map (closeItem now) ++ new ∧
      NewRotation now db'.config.nextRotationAt draw db'.rewardTypes
        (db.rotations.rows.map (closeItem now)) new ∧
      db'.rewardTypes = db.rewardTypes ∧ db'.config.lastRotationAt = now := by
  rw [generateRotation] at h
  split at h
  · cases h
  · next hrare =>
    set rotations := expireActive now db.rotations with hrotations
    set until' := now + db.config.rotationPeriodDays * microsPerDay with huntil
    set insert := insertOffers (availability.newest 2 rotations.rows) draw now until' with hinsert
    obtain ⟨new₁, hrows₁, -, h₁⟩ := @insertOffers_spec (availability.newest 2 rotations.rows) draw
      now until' 3000 "legendary" 1 db.rewardTypes rotations
    rw [← hinsert] at hrows₁
    set r₁ := (insert "legendary" 3000 1 db.rewardTypes rotations).2 with hr₁
    obtain ⟨new₂, hrows₂, -, h₂⟩ := @insertOffers_spec (availability.newest 2 rotations.rows) draw
      now until' 1500 "epic" draw.epicCount db.rewardTypes r₁
    rw [← hinsert] at hrows₂
    set r₂ := (insert "epic" 1500 draw.epicCount db.rewardTypes r₁).2 with hr₂
    obtain ⟨new₃, hrows₃, -, h₃⟩ := @insertOffers_spec (availability.newest 2 rotations.rows) draw
      now until' 750 "rare" (pItemCount - 1 - draw.epicCount).toNat db.rewardTypes r₂
    rw [← hinsert] at hrows₃
    rw [hrows₁] at h₂ hrows₂
    rw [hrows₂] at h₃ hrows₃
    obtain ⟨rfl, rfl⟩ := Prod.mk.inj (Option.some.inj h)
    refine ⟨new₁ ++ new₂ ++ new₃, ?_, ?_, rfl, rfl⟩
    · rw [← rows_expireActive, ← hrotations, ← List.append_assoc, ← List.append_assoc]
      exact hrows₃
    · exact newRotation_of_inserted h₁ h₂ h₃ (by omega)

end Generate

/-! ## Any run -/

/-- What holds at every moment. -/
structure ShopInv (s : Shop) : Prop where
  stocked : WellStocked s.db
  successive : availability.Successive s.db.rotations.rows
  past : ∀ r ∈ s.db.rotations.rows,
    r.availableFrom ≤ s.db.config.lastRotationAt ∧ s.db.config.lastRotationAt ≤ s.clock
  current : ∀ r ∈ s.db.rotations.rows,
    r.availableFrom = s.db.config.lastRotationAt → r.availableUntil = s.db.config.nextRotationAt
  ended : ∀ r ∈ s.db.rotations.rows,
    r.availableFrom < s.db.config.lastRotationAt → r.availableUntil ≤ s.db.config.lastRotationAt

section Step

variable {s s' : Shop} {now : Int} {draw : RotationDraw} {db' : ItemDb} {pItemCount : Int}
  {generated : GeneratedItems}

theorem ShopInv.empty (hempty : s.db.rotations.rows = []) : ShopInv s := by
  have hitems : ∀ g, itemsOf g s.db = [] := by
    intro g
    rw [itemsOf, Table.select, hempty, List.filter_nil]
  have hstocked : WellStocked s.db := by
    constructor <;> simp [hempty, hitems, Timetable.Rested]
  constructor <;> simp [hempty, hstocked, Timetable.Successive.nil]

/-- What neither rotates nor withdraws a reward type keeps the invariant. -/
theorem ShopInv.keep (h : ShopInv s) (hclock : s.clock ≤ s'.clock)
    (hrows : s'.db.rotations.rows = s.db.rotations.rows)
    (hlast : s'.db.config.lastRotationAt = s.db.config.lastRotationAt)
    (hnext : s'.db.config.nextRotationAt = s.db.config.nextRotationAt)
    (htypes : s.db.rewardTypes.rows ⊆ s'.db.rewardTypes.rows) : ShopInv s' := by
  have hitems : ∀ g, itemsOf g s'.db = itemsOf g s.db := by
    intro g
    rw [itemsOf, itemsOf, Table.select, Table.select, hrows]
  constructor
  · obtain ⟨hpriced, hoffered, hdistinct, htotal, hlegendaries, hepics, hrested⟩ := h.stocked
    constructor
    · rwa [hrows]
    · intro r hr
      rw [hrows] at hr
      obtain ⟨t, ht, hrest⟩ := hoffered r hr
      exact ⟨t, htypes ht, hrest⟩
    · simpa only [hitems] using hdistinct
    · simpa only [hitems] using htotal
    · simpa only [hitems] using hlegendaries
    · simpa only [hitems] using hepics
    · rwa [hrows]
  · rw [hrows]
    exact h.successive
  · rw [hrows, hlast]
    exact fun r hr ↦ ⟨(h.past r hr).1, (h.past r hr).2.trans hclock⟩
  · rw [hrows, hlast, hnext]
    exact h.current
  · rw [hrows, hlast]
    exact h.ended

/-- Each rotation keeps its items, and the new one has the new ones. -/
theorem itemsOf_append {db : ItemDb} {new : List RotationRow}
    (hrows : db'.rotations.rows = db.rotations.rows.map (closeItem now) ++ new)
    (hid : ∀ r ∈ db.rotations.rows, r.rotationId ≠ draw.rotationId)
    (hnew : ∀ b ∈ new, b.rotationId = draw.rotationId) (g : Nat) :
    itemsOf g db' =
      if g = draw.rotationId then new else (itemsOf g db).map (closeItem now) := by
  have hcomp : (fun r : RotationRow ↦ decide (r.rotationId = g)) ∘ closeItem now =
      fun r ↦ decide (r.rotationId = g) := by
    funext r
    rw [Function.comp_apply, closeItem_eq]
  rw [itemsOf, Table.select, hrows, List.filter_append, List.filter_map, hcomp]
  split
  · next heq =>
    subst heq
    have hold : db.rotations.rows.filter (fun r ↦ decide (r.rotationId = draw.rotationId)) = [] :=
      List.filter_eq_nil_iff.mpr fun r hr ↦ by simpa using hid r hr
    rw [hold, List.map_nil, List.nil_append]
    exact List.filter_eq_self.mpr fun b hb ↦ decide_eq_true (hnew b hb)
  · next hne =>
    have hnil : new.filter (fun r ↦ decide (r.rotationId = g)) = [] := by
      refine List.filter_eq_nil_iff.mpr fun b hb ↦ ?_
      rw [decide_eq_true_iff, hnew b hb]
      exact fun heq ↦ hne heq.symm
    rw [hnil, List.append_nil]
    rfl

/-- Whatever is in the shop was put there before now. -/
theorem ShopInv.before (h : ShopInv s) (hclock : s.clock < now) :
    ∀ r ∈ s.db.rotations.rows, r.availableFrom < now :=
  fun r hr ↦ (h.past r hr).1.trans_lt ((h.past r hr).2.trans_lt hclock)

/-- A new rotation keeps the shop well stocked. -/
theorem WellStocked.rotate {new : List RotationRow} (h : ShopInv s) (hclock : s.clock < now)
    (hid : ∀ r ∈ s.db.rotations.rows, r.rotationId ≠ draw.rotationId)
    (hrows : db'.rotations.rows = s.db.rotations.rows.map (closeItem now) ++ new)
    (hnew : NewRotation now db'.config.nextRotationAt draw db'.rewardTypes
      (s.db.rotations.rows.map (closeItem now)) new)
    (htypes : db'.rewardTypes = s.db.rewardTypes) : WellStocked db' := by
  have hitems := itemsOf_append hrows hid fun b hb ↦ (hnew.row b hb).1
  have hrarity : ∀ rarity, (fun r : RotationRow ↦ decide (r.rarity = rarity)) ∘ closeItem now =
      fun r ↦ decide (r.rarity = rarity) := by
    intro rarity
    funext r
    rw [Function.comp_apply, rarity_closeItem]
  obtain ⟨hpriced, hoffered, hdistinct, htotal, hlegendaries, hepics, hrested⟩ := h.stocked
  constructor
  · rw [hrows, List.forall_mem_append, List.forall_mem_map]
    refine ⟨fun r hr ↦ ?_, hnew.priced⟩
    rw [closeItem_eq]
    exact hpriced r hr
  · rw [hrows, List.forall_mem_append, List.forall_mem_map]
    refine ⟨fun r hr ↦ ?_, hnew.offered⟩
    rw [htypes, closeItem_eq]
    exact hoffered r hr
  · intro g
    rw [hitems]
    split
    · exact hnew.nodup
    · rw [List.map_map, Function.comp_def]
      simp only [rewardKey_closeItem]
      exact hdistinct g
  · intro g
    rw [hitems]
    split
    · exact hnew.total
    · rw [List.length_map]
      exact htotal g
  · intro g
    rw [hitems]
    split
    · exact hnew.legendaries
    · rw [List.countP_map, hrarity]
      exact hlegendaries g
  · intro g
    rw [hitems]
    split
    · exact hnew.epics
    · rw [List.countP_map, hrarity]
      exact hepics g
  · rw [hrows]
    refine hrested.relieve h.successive closes_closeItem rewardKey_closeItem (h.before hclock)
      (fun b hb ↦ (hnew.row b hb).2.1) fun a ha b hb hsame ↦ ?_
    have hfresh := hnew.fresh b hb _ (List.mem_map_of_mem ha)
      ((rewardKey_closeItem a).trans hsame)
    rwa [closeItem_eq] at hfresh

/-- A new rotation keeps the invariant. -/
theorem ShopInv.rotate (h : ShopInv s) (hclock : s.clock < now)
    (hid : ∀ r ∈ s.db.rotations.rows, r.rotationId ≠ draw.rotationId)
    (hgen : generateRotation pItemCount now draw s.db = some (generated, db'))
    (hcount : pItemCount ≤ 5) : ShopInv { clock := now, db := db' } := by
  obtain ⟨new, hrows, hnew, htypes, hlast⟩ := generateRotation_spec hgen hcount
  have hbefore := h.before hclock
  have hended : ∀ r ∈ s.db.rotations.rows,
      (closeItem now r).availableFrom < now ∧ (closeItem now r).availableUntil ≤ now := by
    intro r hr
    have hlt := hbefore r hr
    exact ⟨(closes_closeItem.start r).trans_lt hlt, closes_closeItem.stop_le hlt.le⟩
  constructor
  · exact .rotate h hclock hid hrows hnew htypes
  · rw [hrows]
    exact h.successive.relieve closes_closeItem (fun r hr ↦ ⟨hid r hr, hbefore r hr⟩) hnew.row
  · simp only [hrows, hlast, List.forall_mem_append, List.forall_mem_map]
    exact ⟨fun r hr ↦ ⟨(hended r hr).1.le, le_rfl⟩, fun b hb ↦ ⟨(hnew.row b hb).2.1.le, le_rfl⟩⟩
  · simp only [hrows, hlast, List.forall_mem_append, List.forall_mem_map]
    exact ⟨fun r hr heq ↦ absurd heq (hended r hr).1.ne, fun b hb _ ↦ (hnew.row b hb).2.2⟩
  · simp only [hrows, hlast, List.forall_mem_append, List.forall_mem_map]
    exact ⟨fun r hr _ ↦ (hended r hr).2,
      fun b hb hlt ↦ absurd ((hnew.row b hb).2.1 ▸ hlt) (lt_irrefl _)⟩

/-- A request that succeeds asks for at most five items. -/
theorem generateRotation_of_ok {itemCount : Int} {db : ItemDb}
    (h : generateItemRotation itemCount now draw db = .ok (generated, db')) :
    itemCount ≤ 5 ∧ generateRotation itemCount now draw db = some (generated, db') := by
  rw [generateItemRotation, validateRotationItemCount] at h
  split at h
  · cases h
  · next hcount =>
    cases hgen : generateRotation itemCount now draw db with
    | none =>
        rw [hgen] at h
        cases h
    | some result =>
        rw [hgen] at h
        exact ⟨not_lt.mp fun hlt ↦ hcount (.inr hlt), congrArg some (Except.ok.inj h)⟩

/-- The configuration is all that a change of it changes, and not when the shop rotates. -/
theorem updateItemConfig_spec {rotationPeriodDays : Option Int} {activeKeyType : Option String}
    {db : ItemDb} (h : updateItemConfig rotationPeriodDays activeKeyType db = .ok db') :
    db'.rotations = db.rotations ∧ db'.rewardTypes = db.rewardTypes ∧
      db'.config.lastRotationAt = db.config.lastRotationAt ∧
      db'.config.nextRotationAt = db.config.nextRotationAt := by
  have hstore : updateStoreConfig rotationPeriodDays activeKeyType db = some db' := by
    unfold updateItemConfig at h
    split at h
    · cases h
    · cases hstore : updateStoreConfig rotationPeriodDays activeKeyType db with
      | none =>
          rw [hstore] at h
          cases h
      | some db'' =>
          rw [hstore] at h
          exact congrArg some (Except.ok.inj h)
  unfold updateStoreConfig at hstore
  split at hstore
  · cases hstore
    exact ⟨rfl, rfl, rfl, rfl⟩
  · split at hstore
    · cases hstore
      exact ⟨rfl, rfl, rfl, rfl⟩
    · cases hstore

/-- One call keeps the invariant. -/
theorem ShopInv.step {l : Int × ShopCall} (h : ShopInv s) (hstep : shopStep s l = some s') :
    ShopInv s' := by
  obtain ⟨now, call⟩ := l
  rw [shopStep] at hstep
  split at hstep
  · next hguard =>
    obtain ⟨hclock, hid⟩ := hguard
    cases hstep
    have hsame : ShopInv { clock := now, db := s.db } :=
      h.keep hclock.le rfl rfl rfl (List.Subset.refl _)
    have hfresh : ∀ draw : RotationDraw,
        (∀ r ∈ s.db.rotations.rows, r.rotationId ∉ [draw.rotationId]) →
        ∀ r ∈ s.db.rotations.rows, r.rotationId ≠ draw.rotationId :=
      fun draw hids r hr ↦ List.ne_of_not_mem_cons (hids r hr)
    cases call with
    | checkAndRotate lockAcquired draw =>
        cases hcall : Migrations.checkAndRotate lockAcquired now draw s.db with
        | none =>
            rw [ShopCall.run, hcall]
            exact hsame
        | some db' =>
            rw [ShopCall.run, hcall]
            rw [Migrations.checkAndRotate] at hcall
            split at hcall
            · cases hcall
              exact hsame
            · split at hcall
              · obtain ⟨⟨generated, db''⟩, hgen, rfl⟩ := Option.map_eq_some_iff.mp hcall
                exact h.rotate hclock (hfresh draw hid) hgen le_rfl
              · cases hcall
                exact hsame
    | generateRotation itemCount draw =>
        cases hcall : generateItemRotation itemCount now draw s.db with
        | error e =>
            rw [ShopCall.run, hcall]
            exact hsame
        | ok result =>
            rw [ShopCall.run, hcall]
            obtain ⟨hcount, hgen⟩ := generateRotation_of_ok hcall
            exact h.rotate hclock (hfresh draw hid) hgen hcount
    | updateConfig rotationPeriodDays activeKeyType =>
        cases hcall : updateItemConfig rotationPeriodDays activeKeyType s.db with
        | error e =>
            rw [ShopCall.run, hcall]
            exact hsame
        | ok db' =>
            rw [ShopCall.run, hcall]
            obtain ⟨hrotations, htypes, hlast, hnext⟩ := updateItemConfig_spec hcall
            exact h.keep hclock.le (congrArg Table.rows hrotations) hlast hnext
              fun _ ht ↦ htypes.symm ▸ ht
    | addRewardTypes rewardTypes =>
        rw [ShopCall.run]
        split
        · next hsub => exact h.keep hclock.le rfl rfl rfl hsub
        · exact hsame
  · cases hstep

end Step

variable {start s : Shop} {calls : List (Int × ShopCall)}

theorem ShopInv.run (hrun : Run (ofStep shopStep) start calls s)
    (hempty : start.db.rotations.rows = []) : ShopInv s :=
  hrun.invariant (fun _ _ _ h hstep ↦ h.step hstep) (.empty hempty)

/-- Whatever the shop does, its rotations are made up as they should be and never overlap. -/
theorem wellStocked_after (hrun : Run (ofStep shopStep) start calls s)
    (hempty : start.db.rotations.rows = []) :
    WellStocked s.db ∧ availability.Successive s.db.rotations.rows :=
  ⟨(ShopInv.run hrun hempty).stocked, (ShopInv.run hrun hempty).successive⟩

/-- A shop that is about to open. -/
def newShop : Shop where
  clock := 0
  db :=
    { config := { lastRotationAt := 0, nextRotationAt := 0 }
      rewardTypes :=
        { rows := [⟨⟨"Dragon", "skin", "Classic"⟩, some "legendary"⟩,
            ⟨⟨"Sky", "spray", "Classic"⟩, some "epic"⟩,
            ⟨⟨"Blade", "spray", "Classic"⟩, some "rare"⟩] } }

/-- The first draw of the shop. -/
def firstDraw : RotationDraw where
  rotationId := 1
  epicRoll := ⟨0, Nat.succ_pos 2⟩
  random _ := default

/-- The shop once it has opened. -/
def openShop : Shop where
  clock := 1
  db := (ShopCall.checkAndRotate true firstDraw).run 1 newShop.db

theorem run_openShop :
    Run (ofStep shopStep) newShop [(1, .checkAndRotate true firstDraw)] openShop :=
  .single (if_pos (by decide))

/-- The first rotation offers what there is of each rarity. -/
theorem wellStocked_openShop : (itemsOf 1 openShop.db).map RotationRow.price = [3000, 1500, 750] ∧
    WellStocked openShop.db :=
  ⟨by decide, (wellStocked_after run_openShop rfl).1⟩

/-! ## What users see -/

section Read

variable {t clock : Int} {collate : Shuffle RotationRow} {owned : RewardKey → Bool}

/-- Only items of the last rotation are on, until the next one is due. -/
theorem ShopInv.on_iff (h : ShopInv s) (ht : s.clock ≤ t) {r : RotationRow}
    (hr : r ∈ s.db.rotations.rows) : availability.on t r = true ↔
      r.availableFrom = s.db.config.lastRotationAt ∧ t < s.db.config.nextRotationAt := by
  rw [Timetable.on_iff]
  obtain ⟨hle, hlast⟩ := h.past r hr
  constructor
  · rintro ⟨-, hlt⟩
    have heq : r.availableFrom = s.db.config.lastRotationAt := by
      refine hle.eq_of_not_lt fun hbefore ↦ ?_
      exact absurd (hlt.trans_le (h.ended r hr hbefore)) (hlast.trans ht).not_gt
    exact ⟨heq, (h.current r hr heq) ▸ hlt⟩
  · rintro ⟨heq, hlt⟩
    exact ⟨heq.trans_le (hlast.trans ht), hlt.trans_eq (h.current r hr heq).symm⟩

/-- `current_rotation` keeps every item that is on. -/
theorem ShopInv.currentRotation_eq (h : ShopInv s) :
    ((activeItems t s.db).filter fun r ↦ r.rotationId ∈ currentRotation t s.db) =
      activeItems t s.db := by
  refine List.filter_eq_self.mpr fun r hr ↦ decide_eq_true ?_
  have hgroup : ∀ b ∈ activeItems t s.db, availability.group b = availability.group r := by
    intro b hb
    obtain ⟨hr, honr⟩ := List.mem_filter.mp hr
    obtain ⟨hb, honb⟩ := List.mem_filter.mp hb
    exact h.successive.group_eq hb hr honb honr
  rw [currentRotation, Timetable.newest_of_forall hr hgroup]
  exact List.mem_singleton_self _

theorem ShopInv.fetchCurrentRotation_eq (h : ShopInv s) (ht : s.clock ≤ t) :
    fetchCurrentRotation collate t s.db =
      if t < s.db.config.nextRotationAt then
        collate.order (s.db.rotations.select fun r ↦ r.availableFrom = s.db.config.lastRotationAt)
      else [] := by
  rw [fetchCurrentRotation, h.currentRotation_eq]
  split
  · next hlt =>
    refine congrArg collate.order (List.filter_congr fun r hr ↦ ?_)
    rw [Bool.eq_iff_iff, h.on_iff ht hr, decide_eq_true_iff]
    exact and_iff_left hlt
  · next hge =>
    refine (Shuffle.order_eq_nil_iff collate).mpr (List.filter_eq_nil_iff.mpr fun r hr ↦ ?_)
    rw [h.on_iff ht hr]
    exact fun hon ↦ hge hon.2

theorem getCurrentRotation_items (collate : Shuffle RotationRow) (owned : RewardKey → Bool)
    (now clock : Int) (db : ItemDb) : (getCurrentRotation collate owned now clock db).items =
      (fetchCurrentRotation collate now db).map (RotationRow.response owned) := by
  rw [getCurrentRotation]
  split
  · next hnil => rw [hnil, List.map_nil]
  · next hcons => rw [hcons]

/-- The only row that meets a condition is found in any order. -/
theorem find?_perm {α : Type} {l l' : List α} {p : α → Bool} (hperm : l.Perm l')
    (hp : ∀ a ∈ l, ∀ b ∈ l, p a = true → p b = true → a = b) : l.find? p = l'.find? p := by
  cases hfound : l.find? p with
  | none =>
      rw [List.find?_eq_none] at hfound
      exact (List.find?_eq_none.mpr fun a ha ↦ hfound a (hperm.mem_iff.mpr ha)).symm
  | some a =>
      have hmem := List.mem_of_find?_eq_some hfound
      cases hfound' : l'.find? p with
      | none =>
          rw [List.find?_eq_none] at hfound'
          exact absurd (List.find?_some hfound) (hfound' a (hperm.mem_iff.mp hmem))
      | some b =>
          have hmem' := hperm.mem_iff.mpr (List.mem_of_find?_eq_some hfound')
          rw [hp a hmem b hmem' (List.find?_some hfound) (List.find?_some hfound')]

/-- An item is on offer once. -/
theorem ShopInv.eq_of_active (h : ShopInv s) {a b : RotationRow} (ha : a ∈ activeItems t s.db)
    (hb : b ∈ activeItems t s.db) (hkey : a.rewardKey = b.rewardKey) : a = b := by
  obtain ⟨ha, hona⟩ := List.mem_filter.mp ha
  obtain ⟨hb, honb⟩ := List.mem_filter.mp hb
  have hgroup : a.rotationId = b.rotationId := h.successive.group_eq ha hb hona honb
  refine List.inj_on_of_nodup_map (h.stocked.distinct b.rotationId) ?_ ?_ hkey
  · exact Table.mem_select.mpr ⟨ha, decide_eq_true hgroup⟩
  · exact Table.mem_select.mpr ⟨hb, decide_eq_true rfl⟩

end Read

/-- What the shop shows is its last rotation, until the next one is due, and what a purchase finds
is what the shop shows. -/
theorem shop_after (hrun : Run (ofStep shopStep) start calls s)
    (hempty : start.db.rotations.rows = []) {t : Int} (ht : s.clock ≤ t) (clock : Int)
    (collate : Shuffle RotationRow) (owned : RewardKey → Bool) :
    (getCurrentRotation collate owned t clock s.db).items =
      (if t < s.db.config.nextRotationAt then
        (collate.order (s.db.rotations.select fun r ↦
          r.availableFrom = s.db.config.lastRotationAt)).map (RotationRow.response owned)
      else []) ∧
    ((getCurrentRotation collate owned t clock s.db).items ≠ [] →
      (getCurrentRotation collate owned t clock s.db).availableUntil = s.db.config.nextRotationAt ∧
      ∀ r ∈ s.db.rotations.rows, availability.on t r = true →
        r.rotationId = (getCurrentRotation collate owned t clock s.db).rotationId) ∧
    ∀ itemName itemType keyType,
      (fetchRotationItem itemName itemType keyType t s.db).map (RotationRow.response owned) =
        (getCurrentRotation collate owned t clock s.db).items.find? fun i ↦
          i.itemName = itemName ∧ i.itemType = itemType ∧ i.keyType = keyType := by
  have h := ShopInv.run hrun hempty
  have hfetch : fetchCurrentRotation collate t s.db = _ := h.fetchCurrentRotation_eq ht
  have hpage := getCurrentRotation_items collate owned t clock s.db
  refine ⟨?_, fun hne ↦ ?_, fun itemName itemType keyType ↦ ?_⟩
  · rw [hpage, hfetch]
    split <;> rfl
  · have hactive : ∀ r ∈ fetchCurrentRotation collate t s.db, r ∈ activeItems t s.db := by
      intro r hr
      rw [fetchCurrentRotation, h.currentRotation_eq] at hr
      exact (Shuffle.mem_order _).mp hr
    rw [getCurrentRotation] at hne ⊢
    cases hrows : fetchCurrentRotation collate t s.db with
    | nil => simp [hrows] at hne
    | cons item items =>
        obtain ⟨hitem, hon⟩ := List.mem_filter.mp (hactive item (hrows ▸ List.mem_cons_self))
        refine ⟨h.current item hitem ((h.on_iff ht hitem).mp hon).1, fun r hr honr ↦ ?_⟩
        exact h.successive.group_eq hr hitem honr hon
  · rw [hpage, List.find?_map, fetchRotationItem, fetchCurrentRotation, h.currentRotation_eq]
    refine congrArg (Option.map _) (find?_perm (collate.perm _).symm fun a ha b hb hpa hpb ↦ ?_)
    refine h.eq_of_active ha hb ?_
    rw [decide_eq_true_iff] at hpa hpb
    rw [RotationRow.rewardKey, RotationRow.rewardKey, hpa.1, hpa.2.1, hpa.2.2, hpb.1, hpb.2.1,
      hpb.2.2]

/-- The first rotation is on for a week. -/
theorem shop_after_opening :
    (getCurrentRotation default (fun _ ↦ false) 2 2 openShop.db).availableUntil =
      1 + microsPerWeek ∧
    (fetchRotationItem "Sky" "spray" "Classic" 2 openShop.db).map
        (RotationRow.response fun _ ↦ false) =
      (getCurrentRotation default (fun _ ↦ false) 2 2 openShop.db).items.find? fun i ↦
        i.itemName = "Sky" ∧ i.itemType = "spray" ∧ i.keyType = "Classic" := by
  obtain ⟨-, huntil, hfound⟩ :=
    shop_after run_openShop rfl (by decide : openShop.clock ≤ 2) 2 default fun _ ↦ false
  exact ⟨(huntil (by decide)).1.trans (by decide), hfound "Sky" "spray" "Classic"⟩

end Genjishimada.Store
