import Genjishimada.Maps.Difficulties
import Genjishimada.Services.Playtests

/-!
# The plot of the votes

The votes of a thread are grouped by their number and sent to the plotter by their label.  Two
numbers with one label leave only one of their counts.
-/

namespace Genjishimada.Maps

open Library Sdk Repository Services PlaytestTables

/-- The difficulties plotted of a thread. -/
def plotted (t : PlaytestTables) (threadId : Nat) : List Rat :=
  if t.threadVotes threadId = [] then
    (t.metas.rows.filter fun pm ↦ pm.threadId = some threadId).map (·.initialDifficulty)
  else (t.threadVotes threadId).map (·.difficulty)

/-- Each of them is counted once, under its label. -/
def HistogramExact (t : PlaytestTables) (threadId : Nat) (answer : List (Rat × Nat)) : Prop :=
  ∃ votes, getPlaytestPlot (some threadId) none answer = .ok votes ∧
    (∀ label, (votes label).getD 0 =
      (plotted t threadId).countP fun raw ↦
        convertRawDifficultyToDifficultyAll raw = some label) ∧
    (difficultiesAll.map fun label ↦ (votes label).getD 0).sum = (plotted t threadId).length

/-- Votes with one label are votes for one number. -/
def LabelsApart (t : PlaytestTables) (threadId : Nat) : Prop :=
  ∀ v ∈ t.threadVotes threadId, ∀ v' ∈ t.threadVotes threadId,
    convertRawDifficultyToDifficultyAll v.difficulty =
      convertRawDifficultyToDifficultyAll v'.difficulty → v.difficulty = v'.difficulty

section Plot

variable {t : PlaytestTables} {threadId : Nat} {pm : PlaytestRow} {answer : List (Rat × Nat)}

/-- The label of a difficulty in range. -/
def labelOf (raw : Rat) : DifficultyAll := (convertRawDifficultyToDifficultyAll raw).getD .hell

theorem convertRaw_of_bounds {raw : Rat} (h : 0 ≤ raw ∧ raw ≤ 10) :
    convertRawDifficultyToDifficultyAll raw = some (labelOf raw) := by
  obtain ⟨label, hlabel⟩ := exists_difficultyFromRaw h.1 h.2
  rw [← convertRawDifficultyToDifficultyAll_eq] at hlabel
  rw [labelOf, hlabel]
  rfl

/-- All of them are in range. -/
theorem plotted_bounds (t : PlaytestTables) (threadId : Nat) :
    ∀ raw ∈ plotted t threadId, 0 ≤ raw ∧ raw ≤ 10 := by
  intro raw hraw
  rw [plotted] at hraw
  split at hraw
  · obtain ⟨pm, hpm, rfl⟩ := List.mem_map.mp hraw
    exact t.initialRange pm (List.mem_of_mem_filter hpm)
  · obtain ⟨v, hv, rfl⟩ := List.mem_map.mp hraw
    exact t.voteRange v (List.mem_of_mem_filter hv)

theorem countP_labelOf (t : PlaytestTables) (threadId : Nat) (label : DifficultyAll) :
    ((plotted t threadId).countP fun raw ↦
      convertRawDifficultyToDifficultyAll raw = some label) =
        (plotted t threadId).countP fun raw ↦ labelOf raw = label := by
  apply List.countP_congr
  intro raw hraw
  rw [convertRaw_of_bounds (plotted_bounds t threadId raw hraw), decide_eq_true_eq,
    decide_eq_true_eq, Option.some.injEq]

/-- The counts of all labels are the number of votes. -/
theorem sum_counts (t : PlaytestTables) (threadId : Nat) :
    (difficultiesAll.map fun label ↦ (plotted t threadId).countP fun raw ↦
      convertRawDifficultyToDifficultyAll raw = some label).sum = (plotted t threadId).length := by
  have hcount : ∀ label ∈ difficultiesAll,
      ((plotted t threadId).countP fun raw ↦
        convertRawDifficultyToDifficultyAll raw = some label) =
          (plotted t threadId).countP fun raw ↦ labelOf raw = label :=
    fun label _ ↦ countP_labelOf t threadId label
  rw [List.map_congr_left hcount]
  exact sum_countP_groups labelOf (by decide) fun raw _ ↦ mem_difficultiesAll (labelOf raw)

theorem given_of_ne_zero (h : threadId ≠ 0) : MapSearchFilters.given (some threadId) = some threadId :=
  Option.filter_some_pos (decide_eq_true h)

/-- A difficulty that is there gets its label. -/
theorem mapM_convertRaw (hanswer : answer.Perm (countBy (plotted t threadId))) :
    (answer.mapM fun row ↦ (convertRawDifficultyToDifficultyAll row.1).map fun label ↦
      (label, row.2)) = some (relabel labelOf answer) := by
  have hrow : ∀ row ∈ answer, 0 ≤ row.1 ∧ row.1 ≤ 10 := by
    intro row hrow
    obtain ⟨raw, hraw, rfl⟩ := List.mem_map.mp (hanswer.mem_iff.mp hrow)
    exact plotted_bounds t threadId raw (mem_distinctOn_id.mp hraw)
  clear hanswer
  induction answer with
  | nil => rfl
  | cons row answer ih =>
      rw [List.mapM_cons, convertRaw_of_bounds (hrow row List.mem_cons_self),
        ih fun r hr ↦ hrow r (List.mem_cons_of_mem row hr)]
      rfl

section Thread

variable (hpm : pm ∈ t.metas.rows) (hthread : pm.threadId = some threadId)

include hpm hthread

/-- A thread has one playtest. -/
theorem filter_thread : (t.metas.rows.filter fun pm ↦ pm.threadId = some threadId) = [pm] := by
  have hall : ∀ pm' ∈ t.metas.rows.filter fun pm ↦ pm.threadId = some threadId, pm' = pm := by
    intro pm' hpm'
    obtain ⟨hmem, hthread'⟩ := List.mem_filter.mp hpm'
    rw [decide_eq_true_eq] at hthread'
    exact t.threads pm' hmem pm hpm (by rw [hthread']; exact Option.some_ne_none _)
      (hthread'.trans hthread.symm)
  have hnodup := t.metas.rows_nodup.filter fun pm ↦ pm.threadId = some threadId
  have hmem : pm ∈ t.metas.rows.filter fun pm ↦ pm.threadId = some threadId :=
    List.mem_filter.mpr ⟨hpm, decide_eq_true hthread⟩
  have hlength : (t.metas.rows.filter fun pm ↦ pm.threadId = some threadId).length = 1 := by
    rw [List.eq_replicate_of_mem hall, List.nodup_replicate] at hnodup
    exact le_antisymm hnodup (List.length_pos_of_mem hmem)
  rw [List.eq_replicate_of_mem hall, hlength, List.replicate_one]

theorem plotted_ne_nil : plotted t threadId ≠ [] := by
  rw [plotted]
  split
  · rw [filter_thread hpm hthread]
    exact List.cons_ne_nil _ _
  · rename_i hvotes
    exact fun hnil ↦ hvotes (List.map_eq_nil_iff.mp hnil)

theorem threadPlotRows_eq : threadPlotRows t threadId = countBy (plotted t threadId) := by
  rw [threadPlotRows, plotted]
  split
  · rename_i hvotes
    rw [hvotes, filter_thread hpm hthread]
    exact (countBy_singleton pm.initialDifficulty).symm
  · exact List.append_nil _

/-- What is sent to the plotter. -/
theorem getPlaytestPlot_eq (hzero : threadId ≠ 0)
    (hanswer : answer.Perm (countBy (plotted t threadId))) :
    getPlaytestPlot (some threadId) none answer = .ok (dictOf (relabel labelOf answer)) := by
  have hne : answer ≠ [] := by
    rintro rfl
    have hnil : distinctOn id (plotted t threadId) = [] :=
      List.map_eq_nil_iff.mp hanswer.symm.eq_nil
    obtain ⟨raw, hraw⟩ := List.exists_mem_of_ne_nil _ (plotted_ne_nil hpm hthread)
    have hmem := mem_distinctOn_id.mpr hraw
    rw [hnil] at hmem
    cases hmem
  simp only [getPlaytestPlot, given_of_ne_zero hzero, Option.isNone_some, Bool.false_and, Bool.false_eq_true,
    if_false, if_neg hne, mapM_convertRaw hanswer]

/-- The labels of what is plotted are apart if those of the votes are. -/
theorem labelsApart_iff :
    LabelsApart t threadId ↔
      ∀ raw ∈ plotted t threadId, ∀ raw' ∈ plotted t threadId,
        labelOf raw = labelOf raw' → raw = raw' := by
  rw [LabelsApart, plotted]
  split
  · rename_i hvotes
    rw [hvotes, filter_thread hpm hthread]
    refine iff_of_true (fun v hv ↦ absurd hv List.not_mem_nil) fun raw hraw raw' hraw' _ ↦ ?_
    rw [List.mem_singleton.mp hraw, List.mem_singleton.mp hraw']
  · have hlabel : ∀ v ∈ t.threadVotes threadId,
        convertRawDifficultyToDifficultyAll v.difficulty = some (labelOf v.difficulty) :=
      fun v hv ↦ convertRaw_of_bounds (t.voteRange v (List.mem_of_mem_filter hv))
    rw [List.forall_mem_map]
    refine forall₂_congr fun v hv ↦ ?_
    rw [List.forall_mem_map]
    refine forall₂_congr fun v' hv' ↦ ?_
    rw [hlabel v hv, hlabel v' hv', Option.some.injEq]

/-- For every order in which the database lists the groups: each vote is counted once exactly if
votes with one label are votes for one number. -/
theorem histogramExact_iff (hanswer : PlotAnswer t (some threadId) none answer) :
    HistogramExact t threadId answer ↔ threadId ≠ 0 ∧ LabelsApart t threadId := by
  by_cases hzero : threadId = 0
  · subst hzero
    refine iff_of_false ?_ fun h ↦ h.1 rfl
    rintro ⟨votes, hplot, -⟩
    have hraises : getPlaytestPlot (some 0) none answer = .error .noTarget := rfl
    rw [hraises] at hplot
    cases hplot
  simp only [PlotAnswer, given_of_ne_zero hzero, threadPlotRows_eq hpm hthread] at hanswer
  have hplot := getPlaytestPlot_eq hpm hthread hzero hanswer
  rw [and_iff_right hzero, labelsApart_iff hpm hthread, ← dictOf_relabel_iff hanswer]
  simp only [← countP_labelOf]
  constructor
  · rintro ⟨votes, hvotes, hcounts, -⟩
    rw [hplot] at hvotes
    cases hvotes
    exact hcounts
  · intro hcounts
    refine ⟨_, hplot, hcounts, ?_⟩
    rw [List.map_congr_left fun label _ ↦ hcounts label]
    exact sum_counts t threadId

end Thread

end Plot

/-! ## Two numbers for "Hard" -/

/-- A playtest of which two votes are close. -/
def closePlotted : PlaytestTables where
  maps := Table.empty.insert fun id ↦
    { id, code := some "AAAA", difficulty := .hard, rawDifficulty := 5 }
  metas := Table.empty.insert fun id ↦
    { id, threadId := some 7, mapId := 1, initialDifficulty := 5 }
  votes := [⟨⟨2, 7, 5⟩, 1⟩, ⟨⟨3, 7, 51 / 10⟩, 1⟩]
  creators := []
  users _ := some {}
  codes := by decide +kernel
  threads := by decide +kernel
  metaOfVote := by decide +kernel
  mapOfVote := by decide +kernel
  userOfVote _ _ := rfl
  voteRange := by decide +kernel
  initialRange := by decide +kernel

/-- One of them is plotted. -/
theorem closePlotted_not_exact :
    ¬ HistogramExact closePlotted 7 [(5, 1), (51 / 10, 1)] := by
  rintro ⟨votes, hplot, -, hsum⟩
  have hsent : getPlaytestPlot (some 7) none [(5, 1), (51 / 10, 1)] =
      .ok (dictOf [(DifficultyAll.hard, 1), (.hard, 1)]) := by
    have hrows : ([(5, 1), (51 / 10, 1)] : List (Rat × Nat)).mapM (fun row ↦
        (convertRawDifficultyToDifficultyAll row.1).map fun label ↦ (label, row.2)) =
          some [(.hard, 1), (.hard, 1)] := by
      decide +kernel
    rw [getPlaytestPlot]
    simp [hrows, MapSearchFilters.given]
  rw [hsent] at hplot
  cases hplot
  exact absurd hsum (by decide +kernel)

/-- The rule at that thread. -/
theorem closePlotted_exact_iff :
    HistogramExact closePlotted 7 [(5, 1), (51 / 10, 1)] ↔ 7 ≠ 0 ∧ LabelsApart closePlotted 7 := by
  refine histogramExact_iff (List.mem_singleton.mpr rfl) rfl ?_
  show ([(5, 1), (51 / 10, 1)] : List (Rat × Nat)).Perm (threadPlotRows closePlotted 7)
  decide +kernel

end Genjishimada.Maps
