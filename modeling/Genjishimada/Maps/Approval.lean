import Genjishimada.Maps.Difficulties
import Genjishimada.Maps.Rows
import Genjishimada.Services.Playtests
import Mathlib.Algebra.Order.BigOperators.Group.List

/-!
# The approval of a playtest

`approve` commits the average of the votes and looks for the map's code and its primary creator
afterwards.  The label it announces is that of the average, the one in the database that of the
average in hundredths, and the bot sets the map to the midpoint of the label announced.
-/

namespace Genjishimada.Maps

open Library Sdk Repository
open Services hiding approve
open PlaytestService

/-! ## The commit and the event -/

section Atomic

variable {held : Rat → Rat} {threadId verifierId mapId : Nat} {s : ApprovalState}
  {d d' : PlaytestDb} {a : Approved} {raw : Rat}

/-- The row of a map with its verdict. -/
def approveMap (raw : Rat) (m : CoreMap) : CoreMap :=
  { setRawDifficulty raw m with playtesting := .approved }

theorem get?_approvePlaytest :
    (d.approvePlaytest mapId threadId raw).db.maps.get? mapId =
      (d.db.maps.get? mapId).map (approveMap raw) := by
  refine (Table.get?_modify (fun m : CoreMap ↦ decide (m.id = mapId)) (approveMap raw)
    fun _ ↦ rfl).trans ?_
  cases hget : d.db.maps.get? mapId with
  | none => rfl
  | some m =>
      have hid : m.id = mapId := (Table.get?_eq_some_iff.mp hget).2
      rw [Option.map_some, Option.map_some, if_pos (decide_eq_true hid)]

theorem getMapCode_approvePlaytest :
    getMapCode (d.approvePlaytest mapId threadId raw) mapId = getMapCode d mapId := by
  rw [getMapCode, get?_approvePlaytest, getMapCode]
  cases d.db.maps.get? mapId <;> rfl

/-- What `approve` knows of the map. -/
def found (held : Rat → Rat) (s : ApprovalState) (mapId : Nat) (mean : Rat) : Approved where
  difficulty := held mean
  primaryCreatorId := getPrimaryCreator s.creators mapId
  code := getMapCode s.db mapId

/-- When the transaction commits, and what it leaves. -/
theorem approveTransaction_eq_ok_iff :
    approveTransaction held threadId s = .ok (d', a) ↔
      ∃ mapId mean, s.db.getMapIdFromThread threadId = some mapId ∧
        s.db.getAverageDifficulty threadId = some mean ∧
        refusesRaw s.db mapId (held mean) = false ∧
        d' = s.db.approvePlaytest mapId threadId (held mean) ∧
        a = found held s mapId mean := by
  rw [approveTransaction]
  cases hmap : s.db.getMapIdFromThread threadId with
  | none => simp
  | some mapId =>
      cases hmean : s.db.getAverageDifficulty threadId with
      | none => simp
      | some mean =>
          cases hraw : refusesRaw s.db mapId (held mean) with
          | true => simp [hraw]
          | false =>
              simp only [Option.map_some, hraw, Bool.false_eq_true, if_false,
                getMapCode_approvePlaytest, Except.ok.injEq, Prod.mk.injEq]
              constructor
              · rintro ⟨rfl, rfl⟩
                exact ⟨mapId, mean, rfl, rfl, hraw, rfl, rfl⟩
              · rintro ⟨_, _, hmap', hmean', -, hd, hfound⟩
                cases hmap'
                cases hmean'
                exact ⟨hd.symm, hfound.symm⟩

/-- The event that is announced. -/
theorem approvedEvent_eq_ok_iff {event : PlaytestApprovedEvent} :
    approvedEvent threadId verifierId a = .ok event ↔
      a.code = some event.code ∧ a.primaryCreatorId = some event.primaryCreatorId ∧
        convertRawDifficultyToDifficultyAll a.difficulty = some event.difficulty ∧
        event.threadId = threadId ∧ event.verifierId = verifierId := by
  rw [approvedEvent]
  cases a.code with
  | none => simp
  | some code =>
      cases a.primaryCreatorId with
      | none => simp
      | some creator =>
          cases convertRawDifficultyToDifficultyAll a.difficulty with
          | none => simp
          | some difficulty =>
              simp only [Except.ok.injEq, Option.some.injEq]
              constructor
              · rintro rfl
                exact ⟨rfl, rfl, rfl, rfl, rfl⟩
              · rintro ⟨rfl, rfl, rfl, rfl, rfl⟩
                rfl

/-- There is one if all of it is there. -/
theorem exists_approvedEvent_iff (threadId verifierId : Nat) (a : Approved) :
    (∃ event, approvedEvent threadId verifierId a = .ok event) ↔
      a.code.isSome ∧ a.primaryCreatorId.isSome ∧
        (convertRawDifficultyToDifficultyAll a.difficulty).isSome := by
  constructor
  · rintro ⟨event, hevent⟩
    obtain ⟨hcode, hcreator, hdifficulty, -⟩ := approvedEvent_eq_ok_iff.mp hevent
    rw [hcode, hcreator, hdifficulty]
    exact ⟨rfl, rfl, rfl⟩
  · rintro ⟨hcode, hcreator, hdifficulty⟩
    obtain ⟨code, hcode⟩ := Option.isSome_iff_exists.mp hcode
    obtain ⟨creator, hcreator⟩ := Option.isSome_iff_exists.mp hcreator
    obtain ⟨difficulty, hdifficulty⟩ := Option.isSome_iff_exists.mp hdifficulty
    exact ⟨⟨verifierId, difficulty, threadId, creator, code⟩,
      approvedEvent_eq_ok_iff.mpr ⟨hcode, hcreator, hdifficulty, rfl, rfl⟩⟩

/-- The commit stays, whether or not there is an event. -/
theorem db_approve (h : approveTransaction held threadId s = .ok (d', a)) :
    (approve held threadId verifierId s).1.db = d' := by
  rw [approve, h]
  simp only
  split <;> rfl

/-- What is published after a commit. -/
theorem published_eq_append_iff {event : PlaytestApprovedEvent} :
    (approve held threadId verifierId s).1.published = s.published ++ [event] ↔
      ∃ committed, approveTransaction held threadId s = .ok committed ∧
        approvedEvent threadId verifierId committed.2 = .ok event := by
  rw [approve]
  cases approveTransaction held threadId s with
  | error e => simp
  | ok committed =>
      cases hevent : approvedEvent threadId verifierId committed.2 with
      | error e => simp [hevent]
      | ok sent => simp [hevent]

/-- `approve` commits. -/
def Commits (held : Rat → Rat) (threadId : Nat) (s : ApprovalState) : Prop :=
  ∃ committed, approveTransaction held threadId s = .ok committed

/-- A call that raises has changed nothing, and one that commits is announced. -/
structure ApprovalAtomic (held : Rat → Rat) (threadId verifierId : Nat) (s : ApprovalState) :
    Prop where
  raised : (approve held threadId verifierId s).2 ≠ none →
    (approve held threadId verifierId s).1.db = s.db
  announced : Commits held threadId s →
    ∃ event, event.threadId = threadId ∧
      (approve held threadId verifierId s).1.published = s.published ++ [event]

/-- If the column takes the average of the thread's votes, then the map has a code and a primary
creator, and the average a label. -/
def Announceable (held : Rat → Rat) (threadId : Nat) (s : ApprovalState) : Prop :=
  ∀ mapId mean, s.db.getMapIdFromThread threadId = some mapId →
    s.db.getAverageDifficulty threadId = some mean →
      refusesRaw s.db mapId (held mean) = false →
        (getMapCode s.db mapId).isSome ∧ (getPrimaryCreator s.creators mapId).isSome ∧
          (convertRawDifficultyToDifficultyAll (held mean)).isSome

theorem approvalAtomic_iff :
    ApprovalAtomic held threadId verifierId s ↔ Announceable held threadId s := by
  constructor
  · intro h mapId mean hmap hmean hraw
    have hok := approveTransaction_eq_ok_iff.mpr ⟨mapId, mean, hmap, hmean, hraw, rfl, rfl⟩
    refine (exists_approvedEvent_iff threadId verifierId (found held s mapId mean)).mp ?_
    obtain ⟨event, -, hpublished⟩ := h.announced ⟨_, hok⟩
    obtain ⟨committed, hok', hevent⟩ := published_eq_append_iff.mp hpublished
    rw [hok] at hok'
    cases hok'
    exact ⟨event, hevent⟩
  · intro h
    cases htransaction : approveTransaction held threadId s with
    | error e =>
        constructor
        · intro _
          rw [approve, htransaction]
        · rintro ⟨committed, hok⟩
          rw [htransaction] at hok
          cases hok
    | ok committed =>
        obtain ⟨approved, a⟩ := committed
        obtain ⟨mapId, mean, hmap, hmean, hraw, -, rfl⟩ :=
          approveTransaction_eq_ok_iff.mp htransaction
        obtain ⟨event, hevent⟩ :=
          (exists_approvedEvent_iff threadId verifierId (found held s mapId mean)).mpr
            (h mapId mean hmap hmean hraw)
        constructor
        · intro hraised
          rw [approve, htransaction] at hraised
          simp only [hevent, ne_eq, not_true_eq_false] at hraised
        · intro _
          exact ⟨event, (approvedEvent_eq_ok_iff.mp hevent).2.2.2.1,
            published_eq_append_iff.mpr ⟨_, htransaction, hevent⟩⟩

/-- A playtest with its votes, and the creators of its map. -/
def onePlaytest (votes : List PlaytestVote) (creators : List MapCreator) : ApprovalState where
  db := {
    db := { maps := Table.empty.insert fun id ↦
      { id, code := some "AAAA", difficulty := .hard, rawDifficulty := 5 } }
    metas := Table.empty.insert fun id ↦
      { id, threadId := some 7, mapId := 1, initialDifficulty := 5 }
    votes }
  creators

/-- The creators of the map are gone. -/
def orphaned : ApprovalState := onePlaytest [⟨2, 7, 4⟩] []

/-- It is approved, and nobody hears of it. -/
theorem orphaned_not_atomic : ¬ ApprovalAtomic id 7 1 orphaned := by
  intro h
  have hcommits : Commits id 7 orphaned :=
    ⟨_, approveTransaction_eq_ok_iff.mpr
      ⟨1, 4, rfl, by decide +kernel, by decide +kernel, rfl, rfl⟩⟩
  obtain ⟨event, -, hpublished⟩ := h.announced hcommits
  have hnone : (approve id 7 1 orphaned).1.published = [] := by decide +kernel
  rw [hnone] at hpublished
  cases hpublished

end Atomic

/-! ## The label and the raw difficulty -/

section Faithful

variable {held : Rat → Rat} {threadId verifierId mapId : Nat} {s : ApprovalState}
  {d : PlaytestDb} {m : CoreMap} {mean q : Rat} {label : DifficultyAll}

/-- What Python makes of an average, between 0 and 10. -/
structure HoldsAverages (held : Rat → Rat) : Prop where
  mono : Monotone held
  zero : held 0 = 0
  ten : held 10 = 10

/-- `CHECK (difficulty >= 0 AND difficulty <= 10)` -/
def VotesInRange (d : PlaytestDb) : Prop :=
  ∀ v ∈ d.votes, 0 ≤ v.difficulty ∧ v.difficulty ≤ 10

theorem VotesInRange.average (h : VotesInRange d)
    (hmean : d.getAverageDifficulty threadId = some mean) : 0 ≤ mean ∧ mean ≤ 10 := by
  rw [PlaytestDb.getAverageDifficulty] at hmean
  split at hmean
  · cases hmean
  rename_i hempty
  obtain rfl := Option.some.inj hmean
  have hmem : ∀ x ∈ (d.votes.filter fun v ↦ v.threadId = threadId).map (·.difficulty),
      0 ≤ x ∧ x ≤ 10 := by
    intro x hx
    obtain ⟨v, hv, rfl⟩ := List.mem_map.mp hx
    exact h v (List.mem_of_mem_filter hv)
  rw [List.isEmpty_iff, ← List.length_eq_zero_iff] at hempty
  have hpos : (0 : Rat) < (d.votes.filter fun v ↦ v.threadId = threadId).length := by
    exact_mod_cast Nat.pos_of_ne_zero hempty
  constructor
  · exact div_nonneg (List.sum_nonneg fun x hx ↦ (hmem x hx).1) hpos.le
  · rw [div_le_iff₀ hpos]
    have hsum := List.sum_le_card_nsmul _ 10 fun x hx ↦ (hmem x hx).2
    rw [List.length_map, nsmul_eq_mul, mul_comm] at hsum
    exact hsum

theorem HoldsAverages.bounds (h : HoldsAverages held) (hmean : 0 ≤ mean ∧ mean ≤ 10) :
    0 ≤ held mean ∧ held mean ≤ 10 :=
  ⟨h.zero ▸ h.mono hmean.1, h.ten ▸ h.mono hmean.2⟩

/-- `q` rounds to the midpoint of the difficulty. -/
def NearMidpoint (label : DifficultyAll) (q : Rat) : Prop :=
  difficultyMidpoint label - 1 / 200 ≤ q ∧ q < difficultyMidpoint label + 1 / 200

theorem numeric2_eq_midpoint_iff :
    numeric2 q = difficultyMidpoint label ↔ NearMidpoint label q := by
  rw [numeric2_eq_iff (onGrid_midpoint label), NearMidpoint]
  constructor
  · rintro ⟨hlow, hupper⟩
    constructor <;> linarith
  · rintro ⟨hlow, hupper⟩
    constructor <;> linarith

/-- What rounds to a midpoint is well inside the range. -/
theorem midpoint_ranges (label : DifficultyAll) :
    (difficultyRangesAll label).1 ≤ difficultyMidpoint label - 1 / 200 ∧
      difficultyMidpoint label + 1 / 200 ≤ (difficultyRangesAll label).2 := by
  cases label <;> norm_num [difficultyMidpoint, difficultyRangesAll]

theorem difficultyFromRaw_near (h : NearMidpoint label q) : difficultyFromRaw q = some label := by
  obtain ⟨hlow, hupper⟩ := midpoint_ranges label
  exact difficultyFromRaw_eq_some_iff.mpr ⟨hlow.trans h.1, .inl (h.2.trans_le hupper)⟩

/-! ### The edit of the bot -/

theorem db_patchInitialDifficulty (difficulty : Option DifficultyAll) (thread : Option Nat) :
    (patchInitialDifficulty difficulty thread d).db = d.db := by
  cases difficulty <;> cases thread <;> rfl

/-- The bot sets the raw difficulty to the midpoint of the label. -/
theorem get?_editApprovedMap {event : PlaytestApprovedEvent} (hdb : MapsInv d)
    (hm : d.db.maps.get? mapId = some m) (hcode : m.code = some event.code) :
    (after d (editApprovedMap event d)).db.maps.get? mapId =
      some (setRawDifficulty (difficultyMidpoint event.difficulty) m) := by
  have hrow := hdb.mapOfCode (Table.mem_of_get? hm) hcode
  have hedit : editApprovedMap event d =
      .ok (patchInitialDifficulty (some event.difficulty) (d.playtestThread m)
        (d.updateMaps (fun m ↦ m.code = some event.code)
          (MapPatchRequest.apply { difficulty := some event.difficulty })
          (MapPatchRequest.key_apply _))) := by
    simp only [editApprovedMap, updateMap, hrow]
    rfl
  rw [hedit, after, db_patchInitialDifficulty]
  refine (Table.get?_modify (fun m : CoreMap ↦ decide (m.code = some event.code)) _
    (MapPatchRequest.key_apply _)).trans ?_
  rw [hm, Option.map_some, if_pos (decide_eq_true hcode)]
  rfl

/-- The approval is announced with the label the map has then, and when the bot has handled the
announcement the raw difficulty is still the rounded average. -/
def ApprovalFaithful (held : Rat → Rat) (threadId verifierId : Nat) (s : ApprovalState)
    (mapId : Nat) (mean : Rat) : Prop :=
  ∃ event, (approve held threadId verifierId s).1.published = s.published ++ [event] ∧
    ((approve held threadId verifierId s).1.db.db.maps.get? mapId).map (·.difficulty) =
      some event.difficulty ∧
    ((after (approve held threadId verifierId s).1.db
      (editApprovedMap event (approve held threadId verifierId s).1.db)).db.maps.get? mapId).map
        (·.rawDifficulty) = some (numeric2 (held mean))

section Votes

variable (hheld : HoldsAverages held) (hdb : MapsInv s.db) (hvotes : VotesInRange s.db)
  (hmap : s.db.getMapIdFromThread threadId = some mapId)
  (hmean : s.db.getAverageDifficulty threadId = some mean)

include hmap hdb

theorem exists_map_of_thread : ∃ m, s.db.db.maps.get? mapId = some m := by
  obtain ⟨pm, hfind, rfl⟩ := Option.map_eq_some_iff.mp hmap
  exact Option.isSome_iff_exists.mp (hdb.maps pm (List.mem_of_find?_eq_some hfind))

include hheld hvotes hmean

omit hdb in
/-- The votes are always taken. -/
theorem approveTransaction_eq_ok :
    approveTransaction held threadId s =
      .ok (s.db.approvePlaytest mapId threadId (held mean), found held s mapId mean) := by
  obtain ⟨hzero, hten⟩ := hheld.bounds (hvotes.average hmean)
  obtain ⟨hlow, hupper⟩ := numeric2_bounds hzero hten
  obtain ⟨stored, hstored⟩ := exists_difficultyFromRaw hlow hupper
  refine approveTransaction_eq_ok_iff.mpr ⟨mapId, mean, hmap, hmean, ?_, rfl, rfl⟩
  rw [refusesRaw, hstored]
  rfl

omit hdb in
/-- The label and the raw difficulty of an announcement. -/
theorem announcement {event : PlaytestApprovedEvent} :
    (approve held threadId verifierId s).1.published = s.published ++ [event] ↔
      approvedEvent threadId verifierId (found held s mapId mean) = .ok event := by
  have hok := approveTransaction_eq_ok hheld hvotes hmap hmean
  rw [published_eq_append_iff]
  constructor
  · rintro ⟨committed, hok', hevent⟩
    rw [hok] at hok'
    cases hok'
    exact hevent
  · exact fun hevent ↦ ⟨_, hok, hevent⟩

/-- For every playtest with votes: the approval is faithful exactly when the map has a code and a
primary creator and the average rounds to the midpoint of a difficulty. -/
theorem approvalFaithful_iff :
    ApprovalFaithful held threadId verifierId s mapId mean ↔
      ((getMapCode s.db mapId).isSome ∧ (getPrimaryCreator s.creators mapId).isSome) ∧
        ∃ label, NearMidpoint label (held mean) := by
  obtain ⟨m, hm⟩ := exists_map_of_thread hdb hmap
  have hafter : (approve held threadId verifierId s).1.db =
      s.db.approvePlaytest mapId threadId (held mean) :=
    db_approve (approveTransaction_eq_ok hheld hvotes hmap hmean)
  have happroved : (s.db.approvePlaytest mapId threadId (held mean)).db.maps.get? mapId =
      some (approveMap (held mean) m) := by
    rw [get?_approvePlaytest, hm, Option.map_some]
  have hinv : MapsInv (s.db.approvePlaytest mapId threadId (held mean)) :=
    hdb.approvePlaytest mapId threadId (held mean)
  -- what the bot makes of the map of an announcement
  have hedited : ∀ event : PlaytestApprovedEvent,
      approvedEvent threadId verifierId (found held s mapId mean) = .ok event →
        ((after (approve held threadId verifierId s).1.db
          (editApprovedMap event (approve held threadId verifierId s).1.db)).db.maps.get? mapId).map
            (·.rawDifficulty) = some (difficultyMidpoint event.difficulty) := by
    intro event hevent
    have hcode : getMapCode s.db mapId = some event.code := (approvedEvent_eq_ok_iff.mp hevent).1
    rw [getMapCode, hm, Option.bind_some] at hcode
    rw [hafter, get?_editApprovedMap hinv happroved hcode]
    exact congrArg some (numeric2_midpoint event.difficulty)
  rw [ApprovalFaithful]
  simp only [announcement hheld hvotes hmap hmean]
  constructor
  · rintro ⟨event, hevent, -, hraw⟩
    obtain ⟨hcode, hcreator, -⟩ := (exists_approvedEvent_iff threadId verifierId _).mp ⟨event, hevent⟩
    rw [hedited event hevent, Option.some.injEq] at hraw
    exact ⟨⟨hcode, hcreator⟩, event.difficulty, numeric2_eq_midpoint_iff.mp hraw.symm⟩
  · rintro ⟨⟨hcode, hcreator⟩, label, hnear⟩
    have hlabel : convertRawDifficultyToDifficultyAll (held mean) = some label :=
      (convertRawDifficultyToDifficultyAll_eq _).trans (difficultyFromRaw_near hnear)
    obtain ⟨event, hevent⟩ := (exists_approvedEvent_iff threadId verifierId (found held s mapId mean)).mpr
      ⟨hcode, hcreator, Option.isSome_of_eq_some hlabel⟩
    have hannounced : event.difficulty = label := by
      have hdifficulty := (approvedEvent_eq_ok_iff.mp hevent).2.2.1
      exact Option.some.inj (hdifficulty.symm.trans hlabel)
    refine ⟨event, hevent, ?_, ?_⟩
    · have hrounded := numeric2_eq_midpoint_iff.mpr hnear
      rw [hafter, happroved, Option.map_some, hannounced, Option.some.injEq]
      show (difficultyFromRaw (numeric2 (held mean))).getD _ = label
      rw [hrounded, difficultyFromRaw_midpoint, Option.getD_some]
    · rw [hedited event hevent, hannounced, numeric2_eq_midpoint_iff.mpr hnear]

end Votes

theorem holdsAverages_id : HoldsAverages id := ⟨monotone_id, rfl, rfl⟩

/-- With an exact average, this is the approval in the runs of calls. -/
theorem db_approve_id (hvotes : VotesInRange s.db) (hasPrimaryCreator : Bool) :
    (approve id threadId verifierId s).1.db =
      (Services.approve threadId hasPrimaryCreator s.db).1 := by
  rw [Services.approve]
  cases hmap : s.db.getMapIdFromThread threadId with
  | none => simp [approve, approveTransaction, hmap]
  | some mapId =>
      cases hmean : s.db.getAverageDifficulty threadId with
      | none => simp [approve, approveTransaction, hmap, hmean]
      | some mean =>
          rw [db_approve (approveTransaction_eq_ok holdsAverages_id hvotes hmap hmean)]
          simp only
          split
          · rfl
          · split <;> rfl

/-! ### Two votes next to a boundary -/

theorem mapsInv_onePlaytest (votes : List PlaytestVote) (creators : List MapCreator) :
    MapsInv (onePlaytest votes creators).db := by
  constructor
  · intro m hm m' hm' _ _
    rw [List.mem_singleton.mp hm, List.mem_singleton.mp hm']
  · intro pm hpm pm' hpm' _ _
    rw [List.mem_singleton.mp hpm, List.mem_singleton.mp hpm']
  · intro pm hpm
    rw [List.mem_singleton.mp hpm]
    rfl

/-- An average of 1.175. -/
def closeVotes : ApprovalState := onePlaytest [⟨2, 7, 117 / 100⟩, ⟨3, 7, 118 / 100⟩] [⟨1, 9, true⟩]

/-- "Easy -" is announced and "Easy" stored. -/
theorem closeVotes_not_faithful : ¬ ApprovalFaithful id 7 1 closeVotes 1 (235 / 200) := by
  rintro ⟨event, hpublished, hlabel, -⟩
  have hannounced : (approve id 7 1 closeVotes).1.published = [⟨1, .easyMinus, 7, 9, "AAAA"⟩] := by
    decide +kernel
  have hstored : ((approve id 7 1 closeVotes).1.db.db.maps.get? 1).map (·.difficulty) =
      some .easy := by
    decide +kernel
  rw [hannounced] at hpublished
  cases hpublished
  rw [hstored] at hlabel
  cases hlabel

/-- The rule at a vote for a midpoint. -/
theorem midpointVote_faithful_iff :
    ApprovalFaithful id 7 1 (onePlaytest [⟨2, 7, 5⟩] [⟨1, 9, true⟩]) 1 5 ↔
      ((getMapCode (onePlaytest [⟨2, 7, 5⟩] [⟨1, 9, true⟩]).db 1).isSome ∧
        (getPrimaryCreator (onePlaytest [⟨2, 7, 5⟩] [⟨1, 9, true⟩]).creators 1).isSome) ∧
          ∃ label, NearMidpoint label (id 5) := by
  refine approvalFaithful_iff holdsAverages_id (mapsInv_onePlaytest _ _) ?_ rfl
    (by decide +kernel)
  intro v hv
  rw [List.mem_singleton.mp hv]
  decide +kernel

end Faithful

end Genjishimada.Maps
