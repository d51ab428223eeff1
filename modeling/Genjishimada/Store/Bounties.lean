import Genjishimada.Services.Bounties
import Mathlib.Tactic.Linarith

/-!
# Fair bounties

A bounty is fair if it is not done when it is given and some run of some map would do it.  The
bounty of a user who has completed every official map asks for map 0, which nobody can run.
-/

namespace Genjishimada.Store

open Library Sdk Repository Services

variable {db : Db} {userId : Nat} {users : List Nat} {draw : BountyDraw} {m : CoreMap}
  {requirements : QuestRequirements}

/-! ## Fairness -/

/-- A run of some map does the quest at once. -/
def Achievable (db : Db) (requirements : QuestRequirements) : Prop :=
  ∃ m ∈ db.maps.rows, ∃ e : CompletionEventData,
    (e.mapId = m.id ∧ e.difficulty = m.difficulty.base ∧ e.category = m.category) ∧
      eventMatchesQuest requirements e = true ∧
      isQuestComplete (calculateNewProgress (initialProgress requirements) requirements e)
        requirements = true

/-- The quest is not done as it is seeded, but can be. -/
structure Fair (db : Db) (requirements : QuestRequirements) : Prop where
  notDone : isQuestComplete (initialProgress requirements) requirements = false
  achievable : Achievable db requirements

/-- Any time target can be met by a run that is fast enough. -/
theorem exists_time_lt (best : Option Rat) (target : Rat) :
    ∃ time : Int, (best.map fun b ↦ min b (time : Rat)).getD time < target := by
  refine ⟨⌈target⌉ - 1, ?_⟩
  have hlt : ((⌈target⌉ - 1 : Int) : Rat) < target := by
    have hceil := Int.ceil_lt_add_one target
    push_cast
    linarith
  cases best with
  | none => exact hlt
  | some b => exact (min_le_right _ _).trans_lt hlt

/-- An event of a map at a time. -/
def eventOn (m : CoreMap) (time : Int) : CompletionEventData where
  mapId := m.id
  difficulty := m.difficulty.base
  category := m.category
  time := time

theorem achievable_beatTime (hm : m ∈ db.maps.rows) (target : Rat) (best : Option Rat)
    (medal : Option String) :
    Achievable db { type := .beatTime, mapId := some m.id, targetTime := some target
                    currentBest := best, medalType := medal } := by
  obtain ⟨time, htime⟩ := exists_time_lt best target
  exact ⟨m, hm, eventOn m time, ⟨rfl, rfl, rfl⟩, decide_eq_true rfl, decide_eq_true htime⟩

/-- The seeded best is the user's own. -/
theorem fair_beatTime_iff (hm : m ∈ db.maps.rows) (target best : Rat) (medal : Option String) :
    Fair db { type := .beatTime, mapId := some m.id, targetTime := some target
              currentBest := some best, medalType := medal } ↔ target ≤ best := by
  constructor
  · intro h
    exact not_lt.mp (of_decide_eq_false h.notDone)
  · intro h
    exact ⟨decide_eq_false (not_lt.mpr h), achievable_beatTime hm target _ medal⟩

theorem fair_beatRival (hm : m ∈ db.maps.rows) (target : Rat) :
    Fair db { type := .beatRival, mapId := some m.id, rivalTime := some target
              targetTime := some target } := by
  obtain ⟨time, htime⟩ := exists_time_lt none target
  exact ⟨rfl, m, hm, eventOn m time, ⟨rfl, rfl, rfl⟩, decide_eq_true rfl, decide_eq_true htime⟩

/-- A map can be completed if there is one. -/
theorem fair_completeMap_iff (mapId : Nat) :
    Fair db { type := .completeMap, mapId := some mapId } ↔ ∃ m ∈ db.maps.rows, m.id = mapId := by
  constructor
  · rintro ⟨-, m, hm, e, ⟨hid, -, -⟩, hmatches, -⟩
    exact ⟨m, hm, hid.symm.trans (Option.some.inj (of_decide_eq_true hmatches))⟩
  · rintro ⟨m, hm, rfl⟩
    exact ⟨rfl, m, hm, eventOn m 0, ⟨rfl, rfl, rfl⟩, decide_eq_true rfl, rfl⟩

/-! ## What is drawn -/

section Draw

variable {α : Type} {index : Nat} {l : List α} {a : α}

theorem choice_eq_none_iff : choice index l = none ↔ l = [] := by
  rw [choice, List.getElem?_eq_none_iff]
  constructor
  · intro h
    by_contra hne
    exact h.not_gt (Nat.mod_lt _ (List.length_pos_iff.mpr hne))
  · rintro rfl
    exact Nat.zero_le _

theorem mem_of_choice (h : choice index l = some a) : a ∈ l := List.mem_of_getElem? h

end Draw

theorem mem_of_mem_getUserCompletions {c : UserCompletion} (hc : c ∈ getUserCompletions userId db) :
    c.map ∈ db.maps.rows := by
  obtain ⟨m, hm, hc⟩ := List.mem_filterMap.mp hc
  obtain ⟨time, -, rfl⟩ := Option.map_eq_some_iff.mp hc
  exact (Table.mem_select.mp hm).1

theorem mem_of_drawRival {rival : Nat} {targetMap : BeatableMap}
    (h : drawRival userId users draw db = some (rival, targetMap)) : targetMap.map ∈ db.maps.rows := by
  obtain ⟨rival', -, h⟩ := Option.bind_eq_some_iff.mp h
  obtain ⟨b, hb, heq⟩ := Option.map_eq_some_iff.mp h
  obtain ⟨-, rfl⟩ := Prod.mk.inj heq
  have hb := (Shuffle.mem_order _).mp (List.mem_of_mem_head? hb)
  obtain ⟨m, hm, hb⟩ := List.mem_filterMap.mp (List.mem_filter.mp hb).1
  obtain ⟨rivalTime, -, hb⟩ := Option.bind_eq_some_iff.mp hb
  obtain ⟨userTime, -, hb⟩ := Option.bind_eq_some_iff.mp hb
  obtain rfl := Option.some.inj hb
  exact (Table.mem_select.mp hm).1

/-- An official playable map of which the user has no verified run. -/
def Uncompleted (userId : Nat) (db : Db) (m : CoreMap) : Prop :=
  m ∈ db.maps.rows ∧ m.official = true ∧ playable m = true ∧ userTimes userId m.id db = []

theorem mem_of_mem_getUncompletedMaps {random : Shuffle CoreMap}
    (h : m ∈ getUncompletedMaps userId random db) : m ∈ db.maps.rows :=
  (Table.mem_select.mp ((Shuffle.mem_order _).mp (List.mem_of_mem_take h))).1

theorem getUncompletedMaps_eq_nil_iff {random : Shuffle CoreMap} :
    getUncompletedMaps userId random db = [] ↔ ∀ m, ¬ Uncompleted userId db m := by
  rw [getUncompletedMaps, List.take_eq_nil_iff, or_iff_right (by decide), Shuffle.order_eq_nil_iff,
    Table.select, List.filter_eq_nil_iff]
  simp only [decide_eq_true_eq, Uncompleted, not_and]

/-! ## The three generators -/

/-- Nine tenths of a time are more than it only if it is negative. -/
theorem targetTime_le_iff (c : UserCompletion) (db : Db) : (targetTime c db).1 ≤ c.time ↔
    0 ≤ c.time ∨ ∃ t, suggestedTarget c db = some t ∧ t.1 < c.time := by
  have hnine : (c.time : Rat) * (9 / 10) ≤ c.time ↔ 0 ≤ c.time := by
    rw [← Int.cast_nonneg_iff (R := Rat)]
    constructor <;> intro h <;> linarith
  rw [targetTime]
  split
  · rename_i t medal hsuggested
    rw [hsuggested]
    split
    · rename_i hle
      rw [hnine]
      constructor
      · exact .inl
      · rintro (h | ⟨_, ⟨⟩, hlt⟩)
        · exact h
        · exact absurd hlt (not_lt.mpr hle)
    · rename_i hlt
      exact iff_of_true (not_le.mp hlt).le (.inr ⟨_, rfl, not_le.mp hlt⟩)
  · rename_i hsuggested
    rw [hsuggested, hnine]
    simp

theorem gapFilling_fair_iff (hids : ∀ m ∈ db.maps.rows, m.id ≠ 0) :
    Fair db (generateGapFillingBounty userId draw db).requirements ↔
      ∃ m, Uncompleted userId db m := by
  rw [generateGapFillingBounty]
  split
  · rename_i hnone
    rw [choice_eq_none_iff, getUncompletedMaps_eq_nil_iff] at hnone
    refine iff_of_false (fun h ↦ ?_) (not_exists.mpr hnone)
    obtain ⟨m, hm, hid⟩ := (fair_completeMap_iff 0).mp h
    exact hids m hm hid
  · rename_i m hsome
    have hmem := mem_of_choice hsome
    refine iff_of_true ((fair_completeMap_iff m.id).mpr ⟨m, mem_of_mem_getUncompletedMaps hmem, rfl⟩) ?_
    by_contra hnone
    rw [getUncompletedMaps_eq_nil_iff.mpr (not_exists.mp hnone)] at hmem
    cases hmem

/-- A run to improve on: its time is not negative, or the suggested target is below it. -/
def Improvable (c : UserCompletion) (db : Db) : Prop :=
  0 ≤ c.time ∨ ∃ t, suggestedTarget c db = some t ∧ t.1 < c.time

theorem personalImprovement_fair_iff (hids : ∀ m ∈ db.maps.rows, m.id ≠ 0) :
    Fair db (generatePersonalImprovementBounty userId draw db).requirements ↔
      (getUserCompletions userId db = [] → ∃ m, Uncompleted userId db m) ∧
        ∀ c, choice draw.completion (getUserCompletions userId db) = some c → Improvable c db := by
  rw [generatePersonalImprovementBounty]
  split
  · rename_i hnone
    rw [gapFilling_fair_iff hids, hnone, choice_eq_none_iff.mp hnone]
    simp
  · rename_i c hsome
    have hne : getUserCompletions userId db ≠ [] := List.ne_nil_of_mem (mem_of_choice hsome)
    have hfair := fair_beatTime_iff (mem_of_mem_getUserCompletions (mem_of_choice hsome))
      (targetTime c db).1 c.time ((targetTime c db).2.map Medal.lower)
    rw [targetTime_le_iff] at hfair
    refine hfair.trans ?_
    rw [hsome]
    simp [hne, Improvable]

/-- The draw is of a rival challenge, and there is a rival to challenge. -/
def Challenges (userId : Nat) (users : List Nat) (draw : BountyDraw) (db : Db) : Prop :=
  draw.bountyType = .rivalChallenge ∧ (drawRival userId users draw db).isSome

/-- The bounty is fair exactly if: where it fills a gap, because it is meant to or because the user
has no run to improve on, there is a map to complete; where it improves on a run, the time of the
run is not negative or the suggested target is below it. -/
theorem bounty_fair_iff (users : List Nat) (draw : BountyDraw) (hids : ∀ m ∈ db.maps.rows, m.id ≠ 0) :
    Fair db (generateBountyForUser userId users draw db).requirements ↔
      Challenges userId users draw db ∨
        (draw.bountyType = .gapFilling ∨ getUserCompletions userId db = [] →
            ∃ m, Uncompleted userId db m) ∧
          (draw.bountyType ≠ .gapFilling →
            ∀ c, choice draw.completion (getUserCompletions userId db) = some c → Improvable c db) := by
  rw [generateBountyForUser, Challenges]
  split
  · rename_i htype
    rw [personalImprovement_fair_iff hids, htype]
    simp
  · rename_i htype
    rw [generateRivalChallengeBounty, htype]
    split
    · rename_i hnone
      rw [personalImprovement_fair_iff hids, hnone]
      simp
    · rename_i rival targetMap hsome
      rw [hsome]
      exact iff_of_true (fair_beatRival (mem_of_drawRival hsome) _) (.inl ⟨rfl, rfl⟩)
  · rename_i htype
    rw [gapFilling_fair_iff hids, htype]
    simp

/-- One official map, which user 7 has completed. -/
def everyMapDone : Db where
  maps := Table.empty.insert fun id ↦ { id, code := some "1EASY", difficulty := .easy }
  coreCompletions := Table.empty.insert fun id ↦
    { id, mapId := 1, userId := 7, time := 6000, screenshot := "", video := none, verified := true
      completion := true, insertedAt := 0 }

/-- The gap to fill is map 0. -/
theorem everyMapDone_unfair :
    ¬ Fair everyMapDone
      (generateBountyForUser 7 [7] { bountyType := .gapFilling } everyMapDone).requirements := by
  have hmap : (generateBountyForUser 7 [7] { bountyType := .gapFilling } everyMapDone).requirements =
      { type := .completeMap, mapId := some 0 } := by
    decide +kernel
  rw [hmap, fair_completeMap_iff]
  decide

/-- A bounty to improve on the run. -/
theorem everyMapDone_fair_iff :
    Fair everyMapDone
        (generateBountyForUser 7 [7] { bountyType := .personalImprovement } everyMapDone).requirements ↔
      Challenges 7 [7] { bountyType := .personalImprovement } everyMapDone ∨
        (BountyType.personalImprovement = .gapFilling ∨ getUserCompletions 7 everyMapDone = [] →
            ∃ m, Uncompleted 7 everyMapDone m) ∧
          (BountyType.personalImprovement ≠ .gapFilling →
            ∀ c, choice 0 (getUserCompletions 7 everyMapDone) = some c → Improvable c everyMapDone) :=
  bounty_fair_iff [7] { bountyType := .personalImprovement } (by decide)

end Genjishimada.Store
