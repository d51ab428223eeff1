import Genjishimada.Completions.Previews
import Genjishimada.Completions.SpeedRules
import Genjishimada.Community.SkillRanks
import Genjishimada.Repository.SharedQueries
import Mathlib.Algebra.GroupWithZero.Nat

/-!
# Rank details when a run is verified

The rank details take the last verified run on a map, and give medals to a run with a video.  The
speed trigger lets a faster run without one through, a slower one with one behind a run that has
none, and any run behind a legacy run.  Once it is verified, such a run stands for the map, and the
medals of the run before it are gone (`neverDemotes_run_iff`).
-/

namespace Genjishimada.Community

open Completions Library Repository Sdk

variable {d d' : PlaytestDb} {db : Db} {c old : CoreCompletion} {u verifiedBy : Nat}
  {reason : Option String} {official playableOnly : Bool}

/-! ## Counts that do not fall -/

/-- How many rows are counted under the medal or a better one. -/
def orBetter (r : RankDetailResponse) : Medal → Nat
  | .gold => r.gold
  | .silver => r.gold + r.silver
  | .bronze => r.gold + r.silver + r.bronze

/-- The row of a difficulty counts no fewer maps. -/
structure NotLowered (r r' : RankDetailResponse) : Prop where
  difficulty : r'.difficulty = r.difficulty
  completions : r.completions ≤ r'.completions
  orBetter : ∀ medal, orBetter r medal ≤ orBetter r' medal

/-- Verifying one more run of a user, no legacy run, lowers none of the user's counts. -/
def NeverDemotes (official playableOnly : Bool) (d : PlaytestDb) (l : SpeedLabel)
    (d' : PlaytestDb) : Prop :=
  ∀ c ∈ d.db.coreCompletions.rows, c.legacy = false → c.verified = false →
    (∃ verifiedBy reason, l = .verdict c.id true verifiedBy reason) →
      List.Forall₂ NotLowered (getUserRankData c.userId official playableOnly d)
        (getUserRankData c.userId official playableOnly d')

/-- Under how many of the medals, from gold down to `medal`, the run is counted. -/
def medalsOrBetter (d : PlaytestDb) (c : CoreCompletion) : Medal → Nat
  | .gold => (d.hasMedal c .gold).toNat
  | .silver => (d.hasMedal c .gold).toNat + (d.hasMedal c .silver).toNat
  | .bronze =>
      (d.hasMedal c .gold).toNat + (d.hasMedal c .silver).toNat + (d.hasMedal c .bronze).toNat

/-- A run that is verified on a map that counts has the medals of the one it comes after. -/
def KeepsMedals (official playableOnly : Bool) (d : PlaytestDb) (l : SpeedLabel) : Prop :=
  ∀ c ∈ d.db.coreCompletions.rows, c.legacy = false → c.verified = false →
    (∃ verifiedBy reason, l = .verdict c.id true verifiedBy reason) →
      ∀ old, IsLast d.db c.mapId old → old.userId = c.userId → old.insertedAt < c.insertedAt →
        (d.db.maps.get? c.mapId).any (rankKeeps official playableOnly) = true →
          ∀ medal, medalsOrBetter d old medal ≤ medalsOrBetter d c medal

/-! ## Counts as sums -/

/-- What a record adds to a count of the user and the difficulty. -/
def contribution (d : PlaytestDb) (userId : Nat) (official playableOnly : Bool)
    (difficulty : DifficultyTop) (weight : CoreCompletion → Nat) (c : CoreCompletion) : Nat :=
  if c.userId = userId ∧ (d.db.maps.get? c.mapId).any fun m ↦
      rankKeeps official playableOnly m && m.difficulty.base = difficulty then weight c
  else 0

section Sums

variable {difficulty : DifficultyTop}

theorem recordMaps_cons (keeps : CoreMap → Bool) (records : List CoreCompletion) :
    recordMaps keeps (c :: records) db =
      (((db.maps.get? c.mapId).filter keeps).map fun m ↦ (c, m)).toList ++
        recordMaps keeps records db := by
  rw [recordMaps, List.filterMap_cons]
  cases ((db.maps.get? c.mapId).filter keeps).map fun m ↦ (c, m) <;> rfl

theorem countP_rankRuns (p : CoreCompletion → Bool) :
    (d.rankRuns u official playableOnly).countP
        (fun r ↦ r.2.difficulty.base = difficulty && p r.1) =
      ((allCompletions d.db).map (contribution d u official playableOnly difficulty
        fun c ↦ (p c).toNat)).sum := by
  rw [PlaytestDb.rankRuns]
  induction allCompletions d.db with
  | nil => rfl
  | cons c records ih =>
      rw [List.map_cons, List.sum_cons, ← ih, recordMaps_cons, List.filter_append,
        List.countP_append, contribution]
      congr 1
      cases hmap : d.db.maps.get? c.mapId with
      | none => simp
      | some m =>
          by_cases hkeeps : rankKeeps official playableOnly m = true
          · by_cases huser : c.userId = u <;> by_cases hd : m.difficulty.base = difficulty <;>
              cases hp : p c <;> simp [Option.filter, hkeeps, huser, hd, hp]
          · simp [hkeeps]

theorem sum_contribution_add {w w' : CoreCompletion → Nat} {records : List CoreCompletion} :
    (records.map (contribution d u official playableOnly difficulty w)).sum +
        (records.map (contribution d u official playableOnly difficulty w')).sum =
      (records.map (contribution d u official playableOnly difficulty fun c ↦ w c + w' c)).sum := by
  rw [← List.sum_map_add]
  congr 2
  funext c
  simp only [contribution]
  split <;> rfl

/-- A medal or a better one is counted under each of the medals of a record. -/
theorem orBetter_rankDetail (medal : Medal) :
    orBetter (d.rankDetail (d.rankRuns u official playableOnly) difficulty) medal =
      ((allCompletions d.db).map (contribution d u official playableOnly difficulty
        fun c ↦ medalsOrBetter d c medal)).sum := by
  have hcount (medal : Medal) :
      (d.rankRuns u official playableOnly).countP
          (fun r ↦ r.2.difficulty.base = difficulty && d.hasMedal r.1 medal) =
        ((allCompletions d.db).map (contribution d u official playableOnly difficulty
          fun c ↦ (d.hasMedal c medal).toNat)).sum :=
    countP_rankRuns (d.hasMedal · medal)
  cases medal with
  | gold => exact hcount .gold
  | silver => exact (congrArg₂ (· + ·) (hcount .gold) (hcount .silver)).trans sum_contribution_add
  | bronze =>
      exact (congrArg₂ (· + ·) ((congrArg₂ (· + ·) (hcount .gold) (hcount .silver)).trans
        sum_contribution_add) (hcount .bronze)).trans sum_contribution_add

theorem completions_rankDetail :
    (d.rankDetail (d.rankRuns u official playableOnly) difficulty).completions =
      ((allCompletions d.db).map (contribution d u official playableOnly difficulty
        fun _ ↦ 1)).sum :=
  countP_rankRuns fun _ ↦ true

/-- Records on one map of one user add to the same counts. -/
theorem contribution_le_iff {weight : CoreCompletion → Nat} (hmap : old.mapId = c.mapId)
    (huser : old.userId = c.userId) :
    contribution d c.userId official playableOnly difficulty weight old ≤
        contribution d c.userId official playableOnly difficulty weight c ↔
      ((d.db.maps.get? c.mapId).any (fun m ↦
        rankKeeps official playableOnly m && m.difficulty.base = difficulty) = true →
          weight old ≤ weight c) := by
  rw [contribution, contribution, hmap, huser]
  simp only [true_and]
  split
  · rename_i hkept
    simp only [hkept, forall_const]
  · rename_i hkept
    exact iff_of_true le_rfl fun h ↦ absurd h hkept

end Sums

/-! ## The records after a verdict -/

/-- The map and the user a record stands for. -/
def slot (c : CoreCompletion) : Nat × Nat := (c.mapId, c.userId)

section Verdict

theorem first_iff_insertedAt_le {x y : CoreCompletion} (hslot : slot y = slot x) :
    toLex (x.mapId, toLex (x.userId, -x.insertedAt)) ≤
        toLex (y.mapId, toLex (y.userId, -y.insertedAt)) ↔ y.insertedAt ≤ x.insertedAt := by
  obtain ⟨hmap, huser⟩ := Prod.mk.inj hslot
  rw [hmap, huser, Prod.Lex.toLex_le_toLex]
  simp [Prod.Lex.toLex_le_toLex]

theorem records_inj (h : UniqueRuns db) :
    ∀ a ∈ db.coreCompletions.select CoreCompletion.verified,
      ∀ b ∈ db.coreCompletions.select CoreCompletion.verified, slot a = slot b →
        toLex (a.mapId, toLex (a.userId, -a.insertedAt)) =
          toLex (b.mapId, toLex (b.userId, -b.insertedAt)) → a = b := by
  intro a ha b hb hslot hkey
  have hle := (first_iff_insertedAt_le hslot.symm).mp hkey.le
  have hge := (first_iff_insertedAt_le hslot).mp hkey.ge
  obtain ⟨hmap, huser⟩ := Prod.mk.inj hslot
  exact h a (Table.mem_select.mp ha).1 b (Table.mem_select.mp hb).1 hmap huser (le_antisymm hge hle)

theorem isLast_iff_first : IsLast db old.mapId old ↔
    old ∈ db.coreCompletions.select CoreCompletion.verified ∧
      ∀ c ∈ db.coreCompletions.select CoreCompletion.verified, slot c = slot old →
        toLex (old.mapId, toLex (old.userId, -old.insertedAt)) ≤
          toLex (c.mapId, toLex (c.userId, -c.insertedAt)) := by
  simp only [Table.mem_select]
  constructor
  · rintro ⟨⟨hmem, -, hverified⟩, hlast⟩
    refine ⟨⟨hmem, hverified⟩, ?_⟩
    rintro c ⟨hc, hverified⟩ hslot
    obtain ⟨hmap, huser⟩ := Prod.mk.inj hslot
    exact (first_iff_insertedAt_le hslot).mpr (hlast c hc hmap hverified huser)
  · rintro ⟨⟨hmem, hverified⟩, hfirst⟩
    refine ⟨⟨hmem, rfl, hverified⟩, fun c hc hmap hverified huser ↦ ?_⟩
    have hslot : slot c = slot old := by rw [slot, slot, hmap, huser]
    exact (first_iff_insertedAt_le hslot).mp (hfirst c ⟨hc, hverified⟩ hslot)

/-- The last verified run of a user on a map is the record there. -/
theorem records_of_isLast (h : UniqueRuns db) (hlast : IsLast db old.mapId old) :
    (allCompletions db).filter (fun c ↦ slot c = slot old) = [old] := by
  obtain ⟨hmem, hfirst⟩ := isLast_iff_first.mp hlast
  exact filter_distinctOn_orderBy_eq (records_inj h) hmem hfirst

/-- A slot with a verified run has a last one. -/
theorem exists_isLast (h : UniqueRuns db) (hc : c ∈ db.coreCompletions.rows)
    (hverified : c.verified = true) :
    ∃ old, IsLast db c.mapId old ∧ old.userId = c.userId := by
  obtain ⟨old, hold, hmap, huser⟩ :=
    exists_mem_latestRecords.mpr ⟨c, hc, hverified, rfl, rfl⟩
  refine ⟨old, ?_, huser⟩
  rw [← hmap]
  exact isLast_iff_first.mpr ((mem_distinctOn_orderBy_iff (records_inj h)).mp hold)

/-- A verdict leaves the records of other slots alone. -/
theorem records_verified_of_ne (hc : c ∈ db.coreCompletions.rows) :
    (allCompletions (updateVerification c.id true verifiedBy reason db)).filter
        (fun x ↦ slot x ≠ slot c) =
      (allCompletions db).filter fun x ↦ slot x ≠ slot c := by
  have hrows : ((updateVerification c.id true verifiedBy reason db).coreCompletions.select
        CoreCompletion.verified).filter (fun x ↦ slot x ≠ slot c) =
      (db.coreCompletions.select CoreCompletion.verified).filter fun x ↦ slot x ≠ slot c := by
    rw [Table.select, Table.select, updateVerification, Table.rows_modify, List.filter_filter,
      List.filter_filter]
    refine filter_map_eq_filter fun x hx ↦ ?_
    by_cases hid : x.id = c.id
    · obtain rfl : x = c := Table.eq_of_key_eq hx hc hid
      right
      simp [slot]
    · exact .inl (if_neg (by simpa using hid))
  have hother := filter_distinctOn slot (fun s ↦ decide (s ≠ slot c))
  rw [allCompletions, allCompletions, latestRecords, latestRecords]
  refine (hother _).trans (Eq.trans ?_ (hother _).symm)
  rw [← orderBy_filter, ← orderBy_filter, hrows]

/-- A sum over the records is that of a slot and that of the others. -/
theorem sum_records (g : CoreCompletion → Nat) (s : Nat × Nat) (records : List CoreCompletion) :
    (records.map g).sum = ((records.filter fun c ↦ slot c = s).map g).sum +
      ((records.filter fun c ↦ slot c ≠ s).map g).sum := by
  rw [← List.sum_append, ← List.map_append]
  refine (List.Perm.map g ?_).sum_eq
  simpa using (List.filter_append_perm (fun c ↦ decide (slot c = s)) records).symm

/-- A sum over the records falls only if the run that is verified replaces one that adds more. -/
theorem sum_verified_le_iff (h : UniqueRuns db) (hc : c ∈ db.coreCompletions.rows)
    (hpending : c.verified = false) {g : CoreCompletion → Nat}
    (hg : g (verifiedRun verifiedBy reason c) = g c) :
    ((allCompletions db).map g).sum ≤
        ((allCompletions (updateVerification c.id true verifiedBy reason db)).map g).sum ↔
      ∀ old, IsLast db c.mapId old → old.userId = c.userId → old.insertedAt < c.insertedAt →
        g old ≤ g c := by
  have hafter : ∀ x, IsLast (updateVerification c.id true verifiedBy reason db) x.mapId x →
      slot x = slot c →
      ((allCompletions (updateVerification c.id true verifiedBy reason db)).map g).sum =
        g x + (((allCompletions db).filter fun x ↦ slot x ≠ slot c).map g).sum := by
    intro x hx hslot
    have hsingle := records_of_isLast (uniqueRuns_verified h hc) hx
    rw [hslot] at hsingle
    rw [sum_records g (slot c), records_verified_of_ne hc, hsingle]
    simp
  have hlastNew (hnone : ∀ x ∈ db.coreCompletions.rows, x.mapId = c.mapId → x.verified = true →
      x.userId = c.userId → x.insertedAt ≤ c.insertedAt) :
      IsLast (updateVerification c.id true verifiedBy reason db) c.mapId
        (verifiedRun verifiedBy reason c) := by
    refine ⟨⟨(mem_verified hc).mpr (.inl rfl), rfl, rfl⟩, ?_⟩
    intro x hx hmap hverified huser
    rcases (mem_verified hc).mp hx with rfl | ⟨hx, -⟩
    · exact le_rfl
    · exact hnone x hx hmap hverified huser
  rw [sum_records g (slot c) (allCompletions db)]
  by_cases hany : ∃ x ∈ db.coreCompletions.rows, x.verified = true ∧ x.userId = c.userId ∧
      x.mapId = c.mapId
  · obtain ⟨x, hx, hverified, huser, hmap⟩ := hany
    obtain ⟨old, hold, hown⟩ := exists_isLast h hx hverified
    rw [hmap] at hold
    rw [huser] at hown
    obtain ⟨⟨hmem, holdmap, holdverified⟩, hlast⟩ := hold
    have hslot : slot old = slot c := by rw [slot, slot, holdmap, hown]
    have hsingle : (allCompletions db).filter (fun x ↦ slot x = slot c) = [old] := by
      rw [← hslot]
      refine records_of_isLast h ?_
      rw [holdmap]
      exact ⟨⟨hmem, holdmap, holdverified⟩, hlast⟩
    rw [hsingle, List.map_singleton, List.sum_singleton]
    have hne : old ≠ c := by
      rintro rfl
      rw [hpending] at holdverified
      cases holdverified
    rcases lt_or_ge old.insertedAt c.insertedAt with hlt | hge
    · have hnew := hafter (verifiedRun verifiedBy reason c) (hlastNew fun x hx hmap hverified huser ↦
        (hlast x hx hmap hverified (huser.trans hown.symm)).trans hlt.le) rfl
      rw [hnew, hg, Nat.add_le_add_iff_right]
      constructor
      · intro hle y hy hyuser _
        obtain ⟨⟨hymem, hymap, hyverified⟩, hylast⟩ := hy
        have hyold : y = old := by
          refine h y hymem old hmem (hymap.trans holdmap.symm) (hyuser.trans hown.symm) ?_
          exact le_antisymm (hlast y hymem hymap hyverified (hyuser.trans hown.symm))
            (hylast old hmem holdmap holdverified (hown.trans hyuser.symm))
        rw [hyold]
        exact hle
      · intro hle
        exact hle old ⟨⟨hmem, holdmap, holdverified⟩, hlast⟩ hown hlt
    · have hstays : IsLast (updateVerification c.id true verifiedBy reason db) old.mapId old := by
        refine ⟨⟨(mem_verified hc).mpr (.inr ⟨hmem, hne⟩), rfl, holdverified⟩, ?_⟩
        intro x hx hmap hverified huser
        rcases (mem_verified hc).mp hx with rfl | ⟨hx, -⟩
        · exact hge
        · exact hlast x hx (hmap.trans holdmap) hverified huser
      rw [hafter old hstays hslot]
      refine iff_of_true le_rfl fun y hy hyuser hlt ↦ ?_
      obtain ⟨⟨hymem, hymap, hyverified⟩, hylast⟩ := hy
      have hle := hylast old hmem holdmap holdverified (hown.trans hyuser.symm)
      omega
  · have hempty : (allCompletions db).filter (fun x ↦ slot x = slot c) = [] := by
      rw [List.filter_eq_nil_iff]
      intro x hx hslot
      obtain ⟨hmap, huser⟩ := Prod.mk.inj (of_decide_eq_true hslot)
      obtain ⟨y, hy, hverified, hyuser, hymap⟩ := exists_mem_latestRecords.mp ⟨x, hx, hmap, huser⟩
      exact hany ⟨y, hy, hverified, hyuser, hymap⟩
    have hnew := hafter (verifiedRun verifiedBy reason c) (hlastNew fun x hx hmap hverified huser ↦
      absurd ⟨x, hx, hverified, huser, hmap⟩ hany) rfl
    rw [hempty, hnew, List.map_nil, List.sum_nil, Nat.zero_add]
    refine iff_of_true (Nat.le_add_left _ _) fun old hold hown _ ↦ ?_
    exact absurd ⟨old, hold.1.1, hold.1.2.2, hown, hold.1.2.1⟩ hany

/-- A row of the rank details falls only if the run that is verified replaces one with more
medals. -/
theorem notLowered_verified_iff {difficulty : DifficultyTop} (h : UniqueRuns d.db)
    (hc : c ∈ d.db.coreCompletions.rows) (hpending : c.verified = false)
    (hd' : d' = { d with db := updateVerification c.id true verifiedBy reason d.db }) :
    NotLowered (d.rankDetail (d.rankRuns c.userId official playableOnly) difficulty)
        (d'.rankDetail (d'.rankRuns c.userId official playableOnly) difficulty) ↔
      ∀ old, IsLast d.db c.mapId old → old.userId = c.userId → old.insertedAt < c.insertedAt →
        (d.db.maps.get? c.mapId).any (fun m ↦
          rankKeeps official playableOnly m && m.difficulty.base = difficulty) = true →
            ∀ medal, medalsOrBetter d old medal ≤ medalsOrBetter d c medal := by
  subst hd'
  have hcontribution (weight : CoreCompletion → Nat)
      (hweight : weight (verifiedRun verifiedBy reason c) = weight c) :
      ((allCompletions d.db).map
            (contribution d c.userId official playableOnly difficulty weight)).sum ≤
          ((allCompletions (updateVerification c.id true verifiedBy reason d.db)).map
            (contribution d c.userId official playableOnly difficulty weight)).sum ↔
        ∀ old, IsLast d.db c.mapId old → old.userId = c.userId → old.insertedAt < c.insertedAt →
          (d.db.maps.get? c.mapId).any (fun m ↦
            rankKeeps official playableOnly m && m.difficulty.base = difficulty) = true →
              weight old ≤ weight c := by
    rw [sum_verified_le_iff h hc hpending (by rw [contribution, contribution, hweight]; rfl)]
    refine forall_congr' fun old ↦ forall_congr' fun hold ↦ forall_congr' fun hown ↦ ?_
    rw [contribution_le_iff hold.1.2.1 hown]
  constructor
  · rintro ⟨-, -, hmedals⟩ old hold hown hlt hkept medal
    have hle := hmedals medal
    rw [orBetter_rankDetail, orBetter_rankDetail] at hle
    exact (hcontribution (medalsOrBetter d · medal) (by cases medal <;> rfl)).mp hle old hold hown
      hlt hkept
  · intro hkeeps
    refine ⟨rfl, ?_, fun medal ↦ ?_⟩
    · rw [completions_rankDetail, completions_rankDetail]
      exact (hcontribution (fun _ ↦ 1) rfl).mpr fun _ _ _ _ _ ↦ le_rfl
    · rw [orBetter_rankDetail, orBetter_rankDetail]
      exact (hcontribution (medalsOrBetter d · medal) (by cases medal <;> rfl)).mpr
        fun old hold hown hlt hkept ↦ hkeeps old hold hown hlt hkept medal

end Verdict

/-- A run with a video that is no slower than the one before keeps its medals, unless those are
stored with it. -/
theorem medalsOrBetter_le_of_faster {mm : MedalThresholds} {g s b : Int}
    (hvideo : c.video.isSome = true) (hmap : old.mapId = c.mapId)
    (hlegacy : d.legacyMedal old.id = none) (htime : c.time ≤ old.time)
    (hmm : d.db.medals.get? c.mapId = some mm) (hgold : mm.gold = some g)
    (hsilver : mm.silver = some s) (hbronze : mm.bronze = some b) (hgs : g ≤ s) (hsb : s ≤ b)
    (medal : Medal) : medalsOrBetter d old medal ≤ medalsOrBetter d c medal := by
  have hold (medal : Medal) : d.hasMedal old medal =
      (old.video.isSome && thresholdMet (some mm) old.time medal) := by
    rw [PlaytestDb.hasMedal, hmap, hmm, hlegacy]
    simp
  have hnew (medal : Medal) (hmet : thresholdMet (some mm) c.time medal = true) :
      d.hasMedal c medal = true := by
    rw [PlaytestDb.hasMedal, hvideo, hmm, hmet]
    rfl
  have hnewGold := hnew .gold
  have hnewSilver := hnew .silver
  have hnewBronze := hnew .bronze
  simp only [thresholdMet, Option.bind_some, hgold, hsilver, hbronze, Option.any_some]
    at hnewGold hnewSilver hnewBronze
  cases medal with
  | gold =>
      simp only [medalsOrBetter, hold, thresholdMet, Option.bind_some, hgold, Option.any_some]
      grind [Bool.toNat]
  | silver =>
      simp only [medalsOrBetter, hold, thresholdMet, Option.bind_some, hgold, hsilver,
        Option.any_some]
      grind [Bool.toNat]
  | bronze =>
      simp only [medalsOrBetter, hold, thresholdMet, Option.bind_some, hgold, hsilver, hbronze,
        Option.any_some]
      grind [Bool.toNat]

/-! ## Histories -/

/-- One statement on the runs.  An insert passes the trigger and the unique index, or it changes
nothing. -/
inductive RankStep (d : PlaytestDb) : SpeedLabel → PlaytestDb → Prop
  | accept {new : Nat → CoreCompletion} {best : Option CoreCompletion}
      (hkey : ∀ id, key (new id) = id)
      (hunique : ∀ c ∈ d.db.coreCompletions.rows,
        c.mapId = (new d.db.coreCompletions.nextId).mapId →
          c.userId = (new d.db.coreCompletions.nextId).userId →
            c.insertedAt ≠ (new d.db.coreCompletions.nextId).insertedAt)
      (hbest : Fastest (new d.db.coreCompletions.nextId) d.db best)
      (hcheck : speedCheck (new d.db.coreCompletions.nextId) d.db best = none) :
      RankStep d (.insert new best)
        { d with db := { d.db with coreCompletions := d.db.coreCompletions.insert new hkey } }
  | refuse {new : Nat → CoreCompletion} {best : Option CoreCompletion}
      (hbest : Fastest (new d.db.coreCompletions.nextId) d.db best)
      (hrefused : speedCheck (new d.db.coreCompletions.nextId) d.db best ≠ none ∨
        ∃ c ∈ d.db.coreCompletions.rows, c.mapId = (new d.db.coreCompletions.nextId).mapId ∧
          c.userId = (new d.db.coreCompletions.nextId).userId ∧
            c.insertedAt = (new d.db.coreCompletions.nextId).insertedAt) :
      RankStep d (.insert new best) d
  | reject (completionId rejectedBy : Nat) :
      RankStep d (.reject completionId rejectedBy)
        { d with db := rejectCompletion completionId rejectedBy d.db }
  | verdict (completionId : Nat) (verified : Bool) (verifiedBy : Nat) (reason : Option String) :
      RankStep d (.verdict completionId verified verifiedBy reason)
        { d with db := updateVerification completionId verified verifiedBy reason d.db }

section Histories

variable {l : SpeedLabel}

/-- Rows that keep what they are unique by stay unique. -/
theorem uniqueRuns_modify {p : CoreCompletion → Bool} {f : CoreCompletion → CoreCompletion} {hf}
    (h : UniqueRuns db) (hslot : ∀ c, slot (f c) = slot c ∧ (f c).insertedAt = c.insertedAt) :
    UniqueRuns { db with coreCompletions := db.coreCompletions.modify p f hf } := by
  have hkeeps (c : CoreCompletion) : slot (if p c then f c else c) = slot c ∧
      (if p c then f c else c).insertedAt = c.insertedAt := by
    split
    · exact hslot c
    · exact ⟨rfl, rfl⟩
  have hrows (x : CoreCompletion) : x ∈ (db.coreCompletions.modify p f hf).rows ↔
      ∃ c ∈ db.coreCompletions.rows, (if p c then f c else c) = x := Table.mem_modify
  intro a ha b hb hmap huser hinserted
  obtain ⟨a, hamem, rfl⟩ := (hrows a).mp ha
  obtain ⟨b, hbmem, rfl⟩ := (hrows b).mp hb
  obtain ⟨haslot, hainserted⟩ := hkeeps a
  obtain ⟨hbslot, hbinserted⟩ := hkeeps b
  have hsame : slot a = slot b := by
    rw [← haslot, ← hbslot]
    exact Prod.ext hmap huser
  obtain ⟨hmap, huser⟩ := Prod.mk.inj hsame
  rw [h a hamem b hbmem hmap huser (by rw [← hainserted, ← hbinserted, hinserted])]

theorem uniqueRuns_step (h : UniqueRuns d.db) (hs : RankStep d l d') : UniqueRuns d'.db := by
  cases hs with
  | @accept new best hkey hunique hbest hcheck =>
      have hrows (x : CoreCompletion) : x ∈ (d.db.coreCompletions.insert new hkey).rows ↔
          x ∈ d.db.coreCompletions.rows ∨ x = new d.db.coreCompletions.nextId := Table.mem_insert
      intro a ha b hb hmap huser hinserted
      rcases (hrows a).mp ha with ha | rfl <;> rcases (hrows b).mp hb with hb | rfl
      · exact h a ha b hb hmap huser hinserted
      · exact absurd hinserted (hunique a ha hmap huser)
      · exact absurd hinserted.symm (hunique b hb hmap.symm huser.symm)
      · rfl
  | refuse hbest hrefused => exact h
  | reject completionId rejectedBy => exact uniqueRuns_modify h fun _ ↦ ⟨rfl, rfl⟩
  | verdict completionId verified verifiedBy reason =>
      exact uniqueRuns_modify h fun _ ↦ ⟨rfl, rfl⟩

theorem base_mem (difficulty : DifficultyTop) :
    difficulty ∈ [DifficultyTop.easy, .medium, .hard, .veryHard, .extreme, .hell] := by
  cases difficulty <;> decide

/-- A verdict lowers no count if the run keeps the medals of the one it replaces. -/
theorem neverDemotes_iff (h : UniqueRuns d.db) (hs : RankStep d l d') :
    NeverDemotes official playableOnly d l d' ↔ KeepsMedals official playableOnly d l := by
  refine forall_congr' fun c ↦ forall_congr' fun hc ↦ forall_congr' fun _ ↦
    forall_congr' fun hpending ↦ forall_congr' fun hlabel ↦ ?_
  obtain ⟨verifiedBy, reason, rfl⟩ := hlabel
  have hd' : d' = { d with db := updateVerification c.id true verifiedBy reason d.db } := by
    cases hs
    rfl
  rw [getUserRankData, getUserRankData, List.forall₂_map_left_iff, List.forall₂_map_right_iff,
    List.forall₂_same]
  simp only [notLowered_verified_iff h hc hpending hd']
  constructor
  · intro hrows old hold hown hlt hkept
    obtain ⟨m, hm, hkept⟩ := (Option.any_eq_true _ _).mp hkept
    refine hrows m.difficulty.base (base_mem _) old hold hown hlt ?_
    simp [hm, hkept]
  · intro hkeeps difficulty _ old hold hown hlt hkept
    obtain ⟨m, hm, hkept⟩ := (Option.any_eq_true _ _).mp hkept
    refine hkeeps old hold hown hlt ?_
    rw [Bool.and_eq_true] at hkept
    simp [hm, hkept.1]

end Histories

/-- In every history, no verdict lowers a count exactly when no run with a medal is replaced by one
without it or a better one. -/
theorem neverDemotes_run_iff (official playableOnly : Bool) (d d' : PlaytestDb)
    (ls : List SpeedLabel) (h : UniqueRuns d.db) :
    Run (fun d l d' ↦ RankStep d l d' ∧ NeverDemotes official playableOnly d l d') d ls d' ↔
      Run (Guarded (KeepsMedals official playableOnly) RankStep) d ls d' := by
  refine Run.congr (fun d ↦ UniqueRuns d.db) ?_ ?_ h
  · intro d l d' h
    rw [Guarded, and_comm]
    exact and_congr_left fun hs ↦ neverDemotes_iff h hs
  · exact fun d l d' h hs ↦ uniqueRuns_step h hs.1

theorem key_id_medals (mm : MedalThresholds) : key (id mm) = key mm := rfl

/-- An easy map with a gold medal at 100. -/
def goldAtHundred : PlaytestDb where
  db := { ({} : Db) with
    maps := Table.empty.insert fun id ↦ { id, code := some "AAAAA", difficulty := .easy }
    medals := Table.empty.upsert
      { mapId := 1, gold := some 100, silver := some 110, bronze := some 120 } id key_id_medals }

/-- The user's first run, in 100 and with a video, once it is verified. -/
def firstVerified : CoreCompletion :=
  { runOfOne 100 5 false 1 with verified := true, verifiedBy := some 9 }

/-- A run with a video is verified, and a faster one without is submitted. -/
def screenshotHistory : List SpeedLabel :=
  [.insert (runOfOne 100 5 false) none, .verdict 1 true 9 none,
    .insert (runOfOne 90 6 true) (some firstVerified)]

/-- What they leave. -/
def screenshotPending : PlaytestDb where
  db :=
    let verified := updateVerification 1 true 9 none
      { goldAtHundred.db with
        coreCompletions := Table.empty.insert (runOfOne 100 5 false) (key_runOfOne _ _ _) }
    { verified with
      coreCompletions := verified.coreCompletions.insert (runOfOne 90 6 true) (key_runOfOne _ _ _) }

/-- Once the faster run is verified, the gold medal is gone. -/
theorem screenshot_demotes :
    Run RankStep goldAtHundred screenshotHistory screenshotPending ∧
      ∃ d', RankStep screenshotPending (.verdict 2 true 9 none) d' ∧
        ¬ NeverDemotes true true screenshotPending (.verdict 2 true 9 none) d' := by
  refine ⟨?_, _, .verdict 2 true 9 none, fun hlaw ↦ ?_⟩
  · refine .cons (.accept (key_runOfOne _ _ _) (by decide) rfl rfl) (.cons (.verdict 1 true 9 none) ?_)
    exact .single (.accept (key_runOfOne _ _ _) (by decide) ⟨by decide, by decide⟩ (by decide))
  · have hrows := hlaw (runOfOne 90 6 true 2) (by decide) rfl rfl ⟨9, none, rfl⟩
    have heasy := (List.forall₂_cons.mp hrows).1.orBetter .gold
    revert heasy
    decide +kernel

/-- That history lowers no count before. -/
theorem screenshotHistory_iff :
    Run (fun d l d' ↦ RankStep d l d' ∧ NeverDemotes true true d l d') goldAtHundred
        screenshotHistory screenshotPending ↔
      Run (Guarded (KeepsMedals true true) RankStep) goldAtHundred screenshotHistory
        screenshotPending :=
  neverDemotes_run_iff true true goldAtHundred screenshotPending screenshotHistory (by decide)

end Genjishimada.Community
