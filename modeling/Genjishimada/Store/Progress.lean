import Genjishimada.Library.ReadCommitted
import Genjishimada.Library.Run
import Genjishimada.Services.Store
import Mathlib.Logic.Function.Basic

/-!
# Two completions at once

`update_quest_progress` reads the quests of the user by a plain `SELECT` and writes the
progress of each quest back whole.  A call that has read a quest before another call
commits writes over what that call counted.
-/

namespace Genjishimada.Store

open Library Sdk Repository Services

/-! ## The two calls -/

/-- The columns of a `user_quest_progress` row that an update reads or writes;
`requirements` is `quest_data->'requirements'`. -/
structure ProgressRow where
  requirements : QuestRequirements
  progress : QuestProgress
  completedAt : Option Int := none
deriving DecidableEq, Repr

/-- The quest is open and the event matches it. -/
def ProgressRow.concerns (quest : ProgressRow) (e : CompletionEventData) : Bool :=
  quest.completedAt.isNone && eventMatchesQuest quest.requirements e

def ProgressRow.newProgress (quest : ProgressRow) (e : CompletionEventData) : QuestProgress :=
  calculateNewProgress quest.progress quest.requirements e

/-- The event completes the quest. -/
def ProgressRow.completes (quest : ProgressRow) (e : CompletionEventData) : Bool :=
  isQuestComplete (quest.newProgress e) quest.requirements

/-- `SET completed_at = now() … WHERE completed_at IS NULL` -/
def ProgressRow.markComplete (quest : ProgressRow) (now : Int) : ProgressRow :=
  { quest with completedAt := quest.completedAt <|> some now }

/-- A call: its event, and `now()`, the start of its transaction. -/
structure ProgressCall where
  event : CompletionEventData
  now : Int

/-- Where a call is, in its transaction. -/
inductive ProgressPhase where
  | called
  | /-- The quests it has read and has not dealt with, by `progress_id`. -/
    updating (todo : List (Nat × ProgressRow))
  | /-- It has written the progress of a quest and completes it next. -/
    marking (progressId : Nat) (todo : List (Nat × ProgressRow))
  | returned
deriving DecidableEq, Repr

/-- The quests of the user by `progress_id`, and the two calls. -/
structure ProgressState where
  quests : Nat → Row Bool ProgressRow
  phases : Bool → ProgressPhase := fun _ ↦ .called

inductive ProgressLabel where
  | /-- `get_active_user_quests` -/
    read (t : Bool)
  | /-- The next quest: `update_quest_progress` of the repository, or `continue`. -/
    update (t : Bool)
  | /-- `mark_quest_complete` -/
    mark (t : Bool)
  | commit (t : Bool)
deriving DecidableEq, Repr

/-- The call goes on to `phase`. -/
def ProgressState.goto (s : ProgressState) (t : Bool) (phase : ProgressPhase) : ProgressState :=
  { s with phases := Function.update s.phases t phase }

/-- `UPDATE` of one quest. -/
def ProgressState.write (s : ProgressState) (t : Bool) (progressId : Nat) (quest : ProgressRow) :
    ProgressState :=
  { s with quests := Function.update s.quests progressId ((s.quests progressId).write t quest) }

/-- One step of the calls, for a user whose quests of the rotation are `ids`. -/
def progressStep (ids : List Nat) (calls : Bool → ProgressCall) (s : ProgressState) :
    ProgressLabel → Option ProgressState
  | .read t =>
      if s.phases t = .called then
        some (s.goto t (.updating (ids.map fun id ↦ (id, (s.quests id).seen t))))
      else none
  | .update t =>
      match s.phases t with
      | .updating ((id, quest) :: todo) =>
          if quest.concerns (calls t).event then
            if (s.quests id).free t then
              let written :=
                { (s.quests id).seen t with progress := quest.newProgress (calls t).event }
              some ((s.write t id written).goto t
                (if quest.completes (calls t).event then .marking id todo else .updating todo))
            else none
          else some (s.goto t (.updating todo))
      | _ => none
  | .mark t =>
      match s.phases t with
      | .marking id todo =>
          let marked := ((s.quests id).seen t).markComplete (calls t).now
          some ((s.write t id marked).goto t (.updating todo))
      | _ => none
  | .commit t =>
      match s.phases t with
      | .updating [] =>
          some ({ s with quests := fun id ↦ (s.quests id).commit t }.goto t .returned)
      | _ => none

section Simp

variable (s : ProgressState) (t t' : Bool) (id id' : Nat) (phase : ProgressPhase)
  (quest : ProgressRow)

@[simp] theorem ProgressState.quests_goto : (s.goto t phase).quests = s.quests := rfl

@[simp] theorem ProgressState.phases_goto :
    (s.goto t phase).phases = Function.update s.phases t phase := rfl

@[simp] theorem ProgressState.phases_write : (s.write t id quest).phases = s.phases := rfl

@[simp] theorem ProgressState.quests_write_self :
    (s.write t id quest).quests id = (s.quests id).write t quest := by
  simp [ProgressState.write]

theorem ProgressState.quests_write_of_ne (h : id' ≠ id) :
    (s.write t id quest).quests id' = s.quests id' := by
  simp [ProgressState.write, h]

end Simp

/-! ## What one call leaves -/

/-- The version a call that has read `quest` leaves of a row it finds as `found`. -/
def ProgressCall.leaves (call : ProgressCall) (quest found : ProgressRow) : ProgressRow :=
  if quest.concerns call.event then
    let written := { found with progress := quest.newProgress call.event }
    if quest.completes call.event then written.markComplete call.now else written
  else found

/-- What a row of `store.user_quest_progress` holds of it. -/
def ProgressRow.ofUserQuest (quest : UserQuestProgress) : ProgressRow where
  requirements := quest.requirements
  progress := quest.progress
  completedAt := quest.completedAt

/-- A call that nobody interrupts leaves what the service leaves. -/
theorem ofUserQuest_updateQuest (e : CompletionEventData) (now : Int) (db : Db)
    {quest : UserQuestProgress} (h : db.questProgress.get? quest.id = some quest) :
    ((updateQuest e now quest db).2.questProgress.get? quest.id).map .ofUserQuest =
      some (ProgressCall.leaves ⟨e, now⟩ (.ofUserQuest quest) (.ofUserQuest quest)) := by
  have hskip : (quest.completedAt.isSome || !eventMatchesQuest quest.requirements e) =
      !ProgressRow.concerns (.ofUserQuest quest) e := by
    simp only [ProgressRow.concerns, ProgressRow.ofUserQuest]
    cases quest.completedAt <;> simp
  simp only [updateQuest, hskip, ProgressCall.leaves]
  cases hconcerns : ProgressRow.concerns (.ofUserQuest quest) e with
  | false => simp [h]
  | true =>
      have hopen : quest.completedAt = none := by
        simp only [ProgressRow.concerns, ProgressRow.ofUserQuest, Bool.and_eq_true,
          Option.isNone_iff_eq_none] at hconcerns
        exact hconcerns.1
      have hcompletes : ProgressRow.completes (.ofUserQuest quest) e =
          isQuestComplete (calculateNewProgress quest.progress quest.requirements e)
            quest.requirements := rfl
      rw [hcompletes]
      cases isQuestComplete (calculateNewProgress quest.progress quest.requirements e)
          quest.requirements with
      | false =>
          simp [setQuestProgress, h, ProgressRow.ofUserQuest, ProgressRow.newProgress]
      | true =>
          simp [setQuestProgress, markQuestComplete, h, hopen, ProgressRow.ofUserQuest,
            ProgressRow.newProgress, ProgressRow.markComplete]

/-- The maps a counting quest has counted. -/
def ProgressRow.counted (quest : ProgressRow) : List Nat :=
  match quest.requirements.type with
  | .completeMaps | .completeDifficultyRange => quest.progress.completedMapIds
  | .earnMedals => quest.progress.countedMapIds
  | _ => []

/-- The quest counts maps. -/
def ProgressRow.counting (quest : ProgressRow) : Bool :=
  match quest.requirements.type with
  | .completeMaps | .completeDifficultyRange | .earnMedals => true
  | _ => false

/-- An event adds its map to the counted ones. -/
theorem mem_counted_newProgress {quest : ProgressRow} (hcounting : quest.counting = true)
    (e : CompletionEventData) (completedAt : Option Int) (m : Nat) :
    m ∈ ProgressRow.counted ⟨quest.requirements, quest.newProgress e, completedAt⟩ ↔
      m = e.mapId ∨ m ∈ quest.counted := by
  simp only [ProgressRow.counted, ProgressRow.counting, ProgressRow.newProgress,
    calculateNewProgress] at hcounting ⊢
  cases htype : quest.requirements.type with
  | beatTime | beatRival | completeMap | unknown =>
      rw [htype] at hcounting
      cases hcounting
  | completeMaps | earnMedals | completeDifficultyRange =>
      simp only
      split
      · grind
      · simp [or_comm]

section Leaves

variable {call : ProgressCall} {quest found : ProgressRow}

/-- What a call leaves of a quest that is not open for its event. -/
theorem ProgressCall.leaves_of_not_concerns (h : quest.concerns call.event = false) :
    call.leaves quest found = found := by
  simp [ProgressCall.leaves, h]

@[simp] theorem ProgressCall.requirements_leaves :
    (call.leaves quest found).requirements = found.requirements := by
  simp only [ProgressCall.leaves]
  split
  · split
    · rfl
    · rfl
  · rfl

theorem ProgressCall.progress_leaves (h : quest.concerns call.event = true) :
    (call.leaves quest found).progress = quest.newProgress call.event := by
  simp only [ProgressCall.leaves, h, if_true]
  split
  · rfl
  · rfl

/-- A call counts what it had read and its own map. -/
theorem ProgressCall.mem_counted_leaves (hcounting : quest.counting = true)
    (hreq : found.requirements = quest.requirements) (h : quest.concerns call.event = true)
    (m : Nat) :
    m ∈ (call.leaves quest found).counted ↔ m = call.event.mapId ∨ m ∈ quest.counted := by
  have hprogress : (call.leaves quest found).progress = quest.newProgress call.event :=
    call.progress_leaves h
  have hrequirements : (call.leaves quest found).requirements = quest.requirements :=
    call.requirements_leaves.trans hreq
  rw [← mem_counted_newProgress hcounting call.event (call.leaves quest found).completedAt m,
    ← hprogress, ← hrequirements]

/-- A call marks the quest when it completes it, and only then. -/
theorem ProgressCall.completedAt_leaves (h : quest.concerns call.event = true) :
    (call.leaves quest found).completedAt.isSome = true ↔
      found.completedAt.isSome ∨ quest.completes call.event := by
  simp only [ProgressCall.leaves, h, if_true]
  cases quest.completes call.event with
  | false => simp
  | true => simp [ProgressRow.markComplete]

/-- A call marks every quest whose count has reached what it asks for. -/
theorem ProgressCall.marked_leaves (hreq : found.requirements = quest.requirements)
    (h : quest.concerns call.event = true)
    (hcomplete : isQuestComplete (call.leaves quest found).progress
      (call.leaves quest found).requirements = true) :
    (call.leaves quest found).completedAt.isSome = true := by
  rw [call.progress_leaves h, call.requirements_leaves, hreq] at hcomplete
  exact (call.completedAt_leaves h).mpr (.inr hcomplete)

end Leaves

/-! ## Where a call stands on one quest -/

/-- The quests a call has read and has not dealt with. -/
def ProgressPhase.todo : ProgressPhase → List (Nat × ProgressRow)
  | .updating todo | .marking _ todo => todo
  | _ => []

/-- The quest a call completes next. -/
def ProgressPhase.marks : ProgressPhase → Option Nat
  | .marking id _ => some id
  | _ => none

/-- The call has read the quests and has not committed. -/
def ProgressPhase.running : ProgressPhase → Bool
  | .updating _ | .marking _ _ => true
  | _ => false

section Stands

variable (call : ProgressCall) (i : Nat) (quest : ProgressRow) (row : Row Bool ProgressRow) (t : Bool)
  (phase : ProgressPhase)

/-- The quest is still to be dealt with. -/
def Ahead : Prop :=
  (i, quest) ∈ phase.todo ∧ phase.marks ≠ some i ∧ ¬ row.Holds t

/-- The progress is written and the quest is to be marked. -/
def Marking : Prop :=
  i ∉ phase.todo.map Prod.fst ∧ phase.marks = some i ∧
    (quest.concerns call.event = true ∧ quest.completes call.event = true) ∧
    row.pending = some (t, { row.committed with progress := quest.newProgress call.event })

/-- The quest is dealt with. -/
def Behind : Prop :=
  i ∉ phase.todo.map Prod.fst ∧ phase.marks ≠ some i ∧
    if quest.concerns call.event = true then
      row.pending = some (t, call.leaves quest row.committed)
    else ¬ row.Holds t

/-- A call `t` that has read `quest` and has not committed; `row` is the row now. -/
structure Stands : Prop where
  running : phase.running = true
  nodup : (phase.todo.map Prod.fst).Nodup
  place : Ahead i quest row t phase ∨ Marking call i quest row t phase ∨
    Behind call i quest row t phase

end Stands

section Place

variable {call : ProgressCall} {i : Nat} {quest : ProgressRow} {row row' : Row Bool ProgressRow}
  {t : Bool} {phase : ProgressPhase}

/-- The row is locked by whoever marks the quest. -/
theorem Stands.holds_of_marks (h : Stands call i quest row t phase) (hmarks : phase.marks = some i) :
    row.Holds t := by
  rcases h.place with ⟨_, hne, _⟩ | ⟨_, _, _, hpending⟩ | ⟨_, hne, _⟩
  · exact absurd hmarks hne
  · exact ⟨_, hpending⟩
  · exact absurd hmarks hne

/-- What others do to the row matters to no call: they leave a row alone that it holds. -/
theorem Stands.of_others (h : Stands call i quest row t phase)
    (hkeep : row.Holds t → row' = row) (hnot : ¬ row.Holds t → ¬ row'.Holds t) :
    Stands call i quest row' t phase := by
  refine ⟨h.running, h.nodup, ?_⟩
  rcases h.place with ⟨hmem, hne, hfree⟩ | hmarking | hbehind
  · exact .inl ⟨hmem, hne, hnot hfree⟩
  · rw [hkeep ⟨_, hmarking.2.2.2⟩]
    exact .inr (.inl hmarking)
  · right; right
    obtain ⟨hmem, hne, hrow⟩ := hbehind
    refine ⟨hmem, hne, ?_⟩
    split
    · rename_i hconcerns
      rw [if_pos hconcerns] at hrow
      rw [hkeep ⟨_, hrow⟩]
      exact hrow
    · rename_i hconcerns
      rw [if_neg hconcerns] at hrow
      exact hnot hrow

/-- A call that is about to commit has dealt with the quest. -/
theorem Stands.behind (h : Stands call i quest row t (.updating [])) :
    Behind call i quest row t (.updating []) := by
  rcases h.place with ⟨hmem, _, _⟩ | ⟨_, hmarks, _⟩ | hbehind
  · cases hmem
  · cases hmarks
  · exact hbehind

/-- The next quest is another one. -/
theorem Stands.next_of_ne {j : Nat} {other : ProgressRow} {todo : List (Nat × ProgressRow)}
    (h : Stands call i quest row t (.updating ((j, other) :: todo))) (hne : j ≠ i)
    (hphase : phase = .updating todo ∨ phase = .marking j todo) :
    Stands call i quest row t phase := by
  have htodo : phase.todo = todo := by rcases hphase with rfl | rfl <;> rfl
  have hmarks : phase.marks ≠ some i := by
    rcases hphase with rfl | rfl
    · rintro ⟨⟩
    · rintro ⟨⟩
      exact hne rfl
  refine ⟨?_, ?_, ?_⟩
  · rcases hphase with rfl | rfl <;> rfl
  · rw [htodo]
    exact (List.nodup_cons.mp h.nodup).2
  · rcases h.place with ⟨hmem, _, hnot⟩ | ⟨_, hmarks', _⟩ | ⟨hmem, _, hrow⟩
    · refine .inl ⟨?_, hmarks, hnot⟩
      rw [htodo]
      rcases List.mem_cons.mp hmem with heq | hmem
      · cases heq
        exact absurd rfl hne
      · exact hmem
    · cases hmarks'
    · refine .inr (.inr ⟨?_, hmarks, hrow⟩)
      rw [htodo]
      intro h'
      exact hmem (List.mem_cons_of_mem _ h')

/-- The next quest is this one: the call has read it and does not hold it yet. -/
theorem Stands.next_self {other : ProgressRow} {todo : List (Nat × ProgressRow)}
    (h : Stands call i quest row t (.updating ((i, other) :: todo))) :
    other = quest ∧ i ∉ todo.map Prod.fst ∧ (todo.map Prod.fst).Nodup ∧ ¬ row.Holds t := by
  obtain ⟨hi, hnodup⟩ := List.nodup_cons.mp h.nodup
  rcases h.place with ⟨hmem, _, hnot⟩ | ⟨hmem, _⟩ | ⟨hmem, _⟩
  · refine ⟨?_, hi, hnodup, hnot⟩
    rcases List.mem_cons.mp hmem with heq | hmem
    · cases heq
      rfl
    · exact absurd (List.mem_map_of_mem (f := Prod.fst) hmem) hi
  · exact absurd List.mem_cons_self hmem
  · exact absurd List.mem_cons_self hmem

end Place

/-! ## Steps -/

/-- The call that takes the step. -/
def ProgressLabel.actor : ProgressLabel → Bool
  | .read t | .update t | .mark t | .commit t => t

section Step

variable {ids : List Nat} {calls : Bool → ProgressCall} {s s' : ProgressState} {l : ProgressLabel}
  {i : Nat} {quest : ProgressRow} {t : Bool}

/-- A step of one call moves no other call, and a quest that another call holds stays as
it is. -/
theorem progressStep_others (hs : progressStep ids calls s l = some s') (ht : t ≠ l.actor)
    (hmarks : (s.phases l.actor).marks = some i → (s.quests i).Holds l.actor) :
    s'.phases t = s.phases t ∧ ((s.quests i).Holds t → s'.quests i = s.quests i) ∧
      (¬ (s.quests i).Holds t → ¬ (s'.quests i).Holds t) := by
  cases l with
  | read t' =>
      simp only [progressStep] at hs
      split at hs
      · obtain rfl := Option.some.inj hs
        exact ⟨Function.update_of_ne ht .., fun _ ↦ rfl, id⟩
      · cases hs
  | update t' =>
      simp only [progressStep] at hs
      split at hs
      · rename_i j other todo hphase
        split at hs
        · split at hs
          · rename_i hfree
            obtain rfl := Option.some.inj hs
            refine ⟨Function.update_of_ne ht .., ?_⟩
            by_cases hj : i = j
            · subst hj
              rw [ProgressState.quests_goto, ProgressState.quests_write_self]
              refine ⟨fun hholds ↦ ?_, fun _ ↦ Row.not_holds_of_some rfl ht⟩
              exact absurd hholds (Row.not_holds_of_free hfree ht)
            · rw [ProgressState.quests_goto, ProgressState.quests_write_of_ne _ _ _ _ _ hj]
              exact ⟨fun _ ↦ rfl, id⟩
          · cases hs
        · obtain rfl := Option.some.inj hs
          exact ⟨Function.update_of_ne ht .., fun _ ↦ rfl, id⟩
      · cases hs
  | mark t' =>
      simp only [progressStep] at hs
      split at hs
      · rename_i j todo hphase
        obtain rfl := Option.some.inj hs
        refine ⟨Function.update_of_ne ht .., ?_⟩
        by_cases hj : i = j
        · subst hj
          rw [ProgressState.quests_goto, ProgressState.quests_write_self]
          obtain ⟨version, hversion⟩ := hmarks (by
            rw [ProgressLabel.actor, hphase]
            rfl)
          refine ⟨fun hholds ↦ ?_, fun _ ↦ Row.not_holds_of_some rfl ht⟩
          exact absurd hholds (Row.not_holds_of_some hversion ht)
        · rw [ProgressState.quests_goto, ProgressState.quests_write_of_ne _ _ _ _ _ hj]
          exact ⟨fun _ ↦ rfl, id⟩
      · cases hs
  | commit t' =>
      simp only [progressStep] at hs
      split at hs
      · obtain rfl := Option.some.inj hs
        refine ⟨Function.update_of_ne ht .., ?_⟩
        rcases (s.quests i).holds_or t' with ⟨version, hversion, hother⟩ | hnot
        · refine ⟨fun hholds ↦ absurd hholds (hother t ht), fun _ ↦ ?_⟩
          rw [ProgressState.quests_goto]
          simp only [Row.commit_of_some hversion]
          exact Row.not_holds_of_none rfl
        · rw [ProgressState.quests_goto]
          simp only [Row.commit_of_not_holds hnot]
          exact ⟨fun _ ↦ trivial, id⟩
      · cases hs

/-- Only a commit changes what is committed. -/
theorem committed_progressStep (hs : progressStep ids calls s l = some s')
    (hl : ∀ t, l ≠ .commit t) (j : Nat) : (s'.quests j).committed = (s.quests j).committed := by
  have hwrite (t : Bool) (id : Nat) (version : ProgressRow) :
      ((s.write t id version).quests j).committed = (s.quests j).committed := by
    by_cases hj : j = id
    · subst hj
      rw [ProgressState.quests_write_self, Row.committed_write]
    · rw [ProgressState.quests_write_of_ne _ _ _ _ _ hj]
  cases l with
  | commit t => exact absurd rfl (hl t)
  | read t =>
      simp only [progressStep] at hs
      split at hs
      · obtain rfl := Option.some.inj hs
        rfl
      · cases hs
  | update t =>
      simp only [progressStep] at hs
      split at hs
      · split at hs
        · split at hs
          · obtain rfl := Option.some.inj hs
            exact hwrite ..
          · cases hs
        · obtain rfl := Option.some.inj hs
          rfl
      · cases hs
  | mark t =>
      simp only [progressStep] at hs
      split at hs
      · obtain rfl := Option.some.inj hs
        exact hwrite ..
      · cases hs

/-- A call that starts reads what is committed. -/
theorem Stands.read (hnodup : ids.Nodup) (hi : i ∈ ids) (hnot : ¬ (s.quests i).Holds t)
    (hs : progressStep ids calls s (.read t) = some s') :
    Stands (calls t) i (s.quests i).committed (s'.quests i) t (s'.phases t) := by
  simp only [progressStep] at hs
  split at hs
  · obtain rfl := Option.some.inj hs
    rw [ProgressState.phases_goto, Function.update_self, ProgressState.quests_goto]
    refine ⟨rfl, ?_, .inl ⟨?_, ?_, hnot⟩⟩
    · simpa [ProgressPhase.todo, Function.comp_def] using hnodup
    · rw [← Row.seen_of_not_holds hnot]
      exact List.mem_map.mpr ⟨i, hi, rfl⟩
    · rintro ⟨⟩
  · cases hs

theorem Stands.update (h : Stands (calls t) i quest (s.quests i) t (s.phases t))
    (hs : progressStep ids calls s (.update t) = some s') :
    Stands (calls t) i quest (s'.quests i) t (s'.phases t) := by
  simp only [progressStep] at hs
  split at hs
  · rename_i j other todo hphase
    rw [hphase] at h
    by_cases hj : j = i
    · subst hj
      obtain ⟨rfl, hmem, hnodup, hnot⟩ := h.next_self
      split at hs
      · rename_i hconcerns
        split at hs
        · rename_i hfree
          obtain rfl := Option.some.inj hs
          simp only [ProgressState.quests_goto, ProgressState.quests_write_self,
            ProgressState.phases_goto, Function.update_self, Row.seen_of_not_holds hnot]
          cases hcompletes : other.completes (calls t).event with
          | true => exact ⟨rfl, hnodup, .inr (.inl ⟨hmem, rfl, ⟨hconcerns, hcompletes⟩, rfl⟩)⟩
          | false =>
              refine ⟨rfl, hnodup, .inr (.inr ⟨hmem, nofun, ?_⟩)⟩
              rw [if_pos hconcerns]
              simp [ProgressCall.leaves, hconcerns, hcompletes]
        · cases hs
      · rename_i hconcerns
        obtain rfl := Option.some.inj hs
        rw [ProgressState.phases_goto, Function.update_self, ProgressState.quests_goto]
        refine ⟨rfl, hnodup, .inr (.inr ⟨hmem, nofun, ?_⟩)⟩
        rw [if_neg hconcerns]
        exact hnot
    · split at hs
      · split at hs
        · obtain rfl := Option.some.inj hs
          rw [ProgressState.phases_goto, Function.update_self, ProgressState.quests_goto,
            ProgressState.quests_write_of_ne _ _ _ _ _ (Ne.symm hj)]
          apply h.next_of_ne hj
          split
          · exact .inr rfl
          · exact .inl rfl
        · cases hs
      · obtain rfl := Option.some.inj hs
        rw [ProgressState.phases_goto, Function.update_self, ProgressState.quests_goto]
        exact h.next_of_ne hj (.inl rfl)
  · cases hs

theorem Stands.mark (h : Stands (calls t) i quest (s.quests i) t (s.phases t))
    (hs : progressStep ids calls s (.mark t) = some s') :
    Stands (calls t) i quest (s'.quests i) t (s'.phases t) := by
  simp only [progressStep] at hs
  split at hs
  · rename_i j todo hphase
    obtain rfl := Option.some.inj hs
    rw [hphase] at h
    rw [ProgressState.phases_goto, Function.update_self, ProgressState.quests_goto]
    refine ⟨rfl, h.nodup, ?_⟩
    by_cases hj : j = i
    · subst hj
      rcases h.place with ⟨_, hmarks, _⟩ | ⟨hmem, _, ⟨hconcerns, hcompletes⟩, hrow⟩ | ⟨_, hmarks, _⟩
      · exact absurd rfl hmarks
      · refine .inr (.inr ⟨hmem, nofun, ?_⟩)
        rw [if_pos hconcerns, ProgressState.quests_write_self, Row.seen_of_some hrow]
        simp [ProgressCall.leaves, hconcerns, hcompletes]
      · exact absurd rfl hmarks
    · rw [ProgressState.quests_write_of_ne _ _ _ _ _ (Ne.symm hj)]
      rcases h.place with ⟨hmem, _, hnot⟩ | ⟨_, hmarks, _⟩ | ⟨hmem, _, hrow⟩
      · exact .inl ⟨hmem, nofun, hnot⟩
      · cases hmarks
        exact absurd rfl hj
      · exact .inr (.inr ⟨hmem, nofun, hrow⟩)
  · cases hs

/-- A call that commits leaves its version and lets go of the quest. -/
theorem Stands.commit (h : Stands (calls t) i quest (s.quests i) t (s.phases t))
    (hs : progressStep ids calls s (.commit t) = some s') :
    s'.phases t = .returned ∧ ¬ (s'.quests i).Holds t ∧
      (s'.quests i).committed = (calls t).leaves quest (s.quests i).committed := by
  simp only [progressStep] at hs
  split at hs
  · rename_i hphase
    obtain rfl := Option.some.inj hs
    rw [hphase] at h
    rw [ProgressState.phases_goto, Function.update_self, ProgressState.quests_goto]
    obtain ⟨_, _, hrow⟩ := h.behind
    refine ⟨rfl, ?_⟩
    split at hrow
    · simp only [Row.commit_of_some hrow]
      exact ⟨Row.not_holds_of_none rfl, trivial⟩
    · rename_i hconcerns
      simp only [Row.commit_of_not_holds hrow]
      exact ⟨hrow, ((calls t).leaves_of_not_concerns (by simpa using hconcerns)).symm⟩
  · cases hs

/-- A step moves its call on: from the start when it reads, to the end when it commits. -/
theorem phases_progressStep (hs : progressStep ids calls s l = some s') :
    ∃ phase, s'.phases = Function.update s.phases l.actor phase ∧ phase ≠ .called ∧
      (phase = .returned ↔ l = .commit l.actor) ∧
      (s.phases l.actor = .called ↔ l = .read l.actor) ∧ s.phases l.actor ≠ .returned := by
  cases l with
  | read t =>
      simp only [progressStep] at hs
      split at hs
      · rename_i hphase
        obtain rfl := Option.some.inj hs
        exact ⟨_, rfl, by simp, by simp, by simp [ProgressLabel.actor, hphase],
          by simp [ProgressLabel.actor, hphase]⟩
      · cases hs
  | update t =>
      simp only [progressStep] at hs
      split at hs
      · rename_i hphase
        have hbefore : (s.phases t = .called ↔ False) ∧ s.phases t ≠ .returned := by simp [hphase]
        split at hs
        · split at hs
          · obtain rfl := Option.some.inj hs
            refine ⟨_, rfl, ?_, ?_, by simpa [ProgressLabel.actor] using hbefore⟩
            · split <;> simp
            · split <;> simp
          · cases hs
        · obtain rfl := Option.some.inj hs
          exact ⟨_, rfl, by simp, by simp, by simpa [ProgressLabel.actor] using hbefore⟩
      · cases hs
  | mark t =>
      simp only [progressStep] at hs
      split at hs
      · rename_i hphase
        obtain rfl := Option.some.inj hs
        exact ⟨_, rfl, by simp, by simp, by simp [ProgressLabel.actor, hphase],
          by simp [ProgressLabel.actor, hphase]⟩
      · cases hs
  | commit t =>
      simp only [progressStep] at hs
      split at hs
      · rename_i hphase
        obtain rfl := Option.some.inj hs
        exact ⟨_, rfl, by simp, by simp [ProgressLabel.actor],
          by simp [ProgressLabel.actor, hphase], by simp [ProgressLabel.actor, hphase]⟩
      · cases hs

/-- A call has returned once it has committed. -/
theorem returned_progressStep (hs : progressStep ids calls s l = some s') :
    s'.phases t = .returned ↔ s.phases t = .returned ∨ l = .commit t := by
  obtain ⟨phase, hphases, _, hreturned, _, hbefore⟩ := phases_progressStep hs
  rw [hphases]
  by_cases ht : t = l.actor
  · subst ht
    rw [Function.update_self, hreturned, or_iff_right hbefore]
  · have hl : l ≠ .commit t := by
      rintro rfl
      exact ht rfl
    rw [Function.update_of_ne ht, or_iff_left hl]

/-- A call is still to start until it reads. -/
theorem called_progressStep (hs : progressStep ids calls s l = some s') :
    s'.phases t = .called ↔ s.phases t = .called ∧ l ≠ .read t := by
  obtain ⟨phase, hphases, hcalled, _, hbefore, _⟩ := phases_progressStep hs
  rw [hphases]
  by_cases ht : t = l.actor
  · subst ht
    rw [Function.update_self, hbefore]
    exact iff_of_false hcalled fun h ↦ h.2 h.1
  · have hl : l ≠ .read t := by
      rintro rfl
      exact ht rfl
    rw [Function.update_of_ne ht, and_iff_left hl]

end Step

/-! ## Runs -/

/-- What holds of a call that reads `quest`, or has read it. -/
inductive Reads (call : ProgressCall) (i : Nat) (quest : ProgressRow) (row : Row Bool ProgressRow)
    (t : Bool) : ProgressPhase → Prop
  | called : row.committed = quest → ¬ row.Holds t → Reads call i quest row t .called
  | running {phase : ProgressPhase} : Stands call i quest row t phase → Reads call i quest row t phase
  | returned : ¬ row.Holds t → Reads call i quest row t .returned

section Reads

variable {ids : List Nat} {calls : Bool → ProgressCall} {s s' : ProgressState} {l : ProgressLabel}
  {i : Nat} {quest found : ProgressRow} {quests : Bool → ProgressRow} {t a : Bool}

theorem Reads.holds_of_marks {call : ProgressCall} {row : Row Bool ProgressRow}
    {phase : ProgressPhase} (h : Reads call i quest row t phase) (hmarks : phase.marks = some i) :
    row.Holds t := by
  cases h with
  | called _ _ => cases hmarks
  | running h => exact h.holds_of_marks hmarks
  | returned _ => cases hmarks

/-- A call that can commit has read the quests. -/
theorem Reads.stands {call : ProgressCall} {row : Row Bool ProgressRow} {phase : ProgressPhase}
    (h : Reads call i quest row t phase) (hcalled : phase ≠ .called)
    (hreturned : phase ≠ .returned) : Stands call i quest row t phase := by
  cases h with
  | called _ _ => exact absurd rfl hcalled
  | running h => exact h
  | returned _ => exact absurd rfl hreturned

/-- The committed version of the quest is `found`, and call `t` reads or has read
`quests t`. -/
structure Working (calls : Bool → ProgressCall) (i : Nat) (found : ProgressRow)
    (quests : Bool → ProgressRow) (s : ProgressState) : Prop where
  committed : (s.quests i).committed = found
  reads : ∀ t, Reads (calls t) i (quests t) (s.quests i) t (s.phases t)

/-- The actor of a step that does not commit goes on with what it has read. -/
theorem Working.actor (hnodup : ids.Nodup) (hi : i ∈ ids) (h : Working calls i found quests s)
    (hs : progressStep ids calls s l = some s') (hl : ∀ t, l ≠ .commit t) :
    Reads (calls l.actor) i (quests l.actor) (s'.quests i) l.actor (s'.phases l.actor) := by
  obtain ⟨_, _, _, _, hcalled, hreturned⟩ := phases_progressStep hs
  cases l with
  | read t =>
      have hcalled : s.phases t = .called := hcalled.mpr rfl
      have hreads := h.reads t
      rw [hcalled] at hreads
      cases hreads with
      | called hrow hnot =>
          rw [ProgressLabel.actor, ← hrow]
          exact .running (Stands.read hnodup hi hnot hs)
      | running hstands => cases hstands.running
  | update t =>
      exact .running
        (((h.reads t).stands (by simpa [ProgressLabel.actor] using hcalled) hreturned).update hs)
  | mark t =>
      exact .running
        (((h.reads t).stands (by simpa [ProgressLabel.actor] using hcalled) hreturned).mark hs)
  | commit t => exact absurd rfl (hl t)

theorem Working.step (hnodup : ids.Nodup) (hi : i ∈ ids) (h : Working calls i found quests s)
    (hs : progressStep ids calls s l = some s') (hl : ∀ t, l ≠ .commit t) :
    Working calls i found quests s' := by
  have hcommitted := committed_progressStep hs hl i
  refine ⟨hcommitted.trans h.committed, fun t ↦ ?_⟩
  by_cases ht : t = l.actor
  · rw [ht]
    exact h.actor hnodup hi hs hl
  · obtain ⟨hphase, hkeep, hnot⟩ :=
      progressStep_others hs ht fun hmarks ↦ (h.reads l.actor).holds_of_marks hmarks
    have hreads := h.reads t
    rw [hphase]
    generalize s.phases t = phase at hreads ⊢
    cases hreads with
    | called hrow hfree => exact .called (hcommitted.trans hrow) (hnot hfree)
    | running hstands => exact .running (hstands.of_others hkeep hnot)
    | returned hfree => exact .returned (hnot hfree)

/-- A call commits.  Another call that has read the quests goes on with what it has read;
one that has not will read what is committed now. -/
theorem Working.commit (h : Working calls i found quests s)
    (hs : progressStep ids calls s (.commit a) = some s') :
    let left := (calls a).leaves (quests a) found
    Working calls i left
      (Function.update quests (!a) (if s.phases (!a) = .called then left else quests (!a))) s' := by
  intro left
  obtain ⟨_, _, _, _, hcalled, hreturned⟩ := phases_progressStep hs
  have hstands := (h.reads a).stands (by simpa [ProgressLabel.actor] using hcalled) hreturned
  obtain ⟨hphase, hfree, hcommitted⟩ := hstands.commit hs
  rw [h.committed] at hcommitted
  refine ⟨hcommitted, fun t ↦ ?_⟩
  by_cases ht : t = a
  · subst ht
    rw [hphase]
    exact .returned hfree
  · obtain rfl : t = !a := Bool.eq_not.mpr ht
    obtain ⟨hother, hkeep, hnot⟩ :=
      progressStep_others hs (t := !a) (by simp [ProgressLabel.actor])
        fun hmarks ↦ (h.reads a).holds_of_marks hmarks
    have hreads := h.reads (!a)
    rw [hother, Function.update_self]
    generalize s.phases (!a) = phase at hreads ⊢
    cases hreads with
    | called _ hnotholds =>
        rw [if_pos rfl]
        exact .called hcommitted (hnot hnotholds)
    | running hrunning =>
        rw [if_neg]
        · exact .running (hrunning.of_others hkeep hnot)
        · rintro rfl
          cases hrunning.running
    | returned hnotholds => exact .returned (hnot hnotholds)

/-- Up to the first commit both calls read what was there at the start. -/
theorem Working.until_first (hnodup : ids.Nodup) (hi : i ∈ ids) {ls : List ProgressLabel}
    (h : Working calls i found quests s)
    (hrun : Run (ofStep (progressStep ids calls)) s ls s') (hopen : ∀ t, s'.phases t ≠ .returned) :
    Working calls i found quests s' := by
  have hstep (s : ProgressState) (l : ProgressLabel) (s' : ProgressState)
      (hinv : (∀ t, s.phases t ≠ .returned) → Working calls i found quests s)
      (hs : ofStep (progressStep ids calls) s l s') (hopen : ∀ t, s'.phases t ≠ .returned) :
      Working calls i found quests s' := by
    have hbefore (t : Bool) : s.phases t ≠ .returned := fun hreturned ↦
      hopen t ((returned_progressStep hs).mpr (.inl hreturned))
    refine (hinv hbefore).step hnodup hi hs ?_
    rintro t rfl
    exact hopen t ((returned_progressStep hs).mpr (.inr rfl))
  exact hrun.invariant hstep (fun _ ↦ h) hopen

/-- The call `a` has returned, and the other is on its own or has returned as well. -/
def LeftBy (calls : Bool → ProgressCall) (i : Nat) (found : ProgressRow)
    (quests : Bool → ProgressRow) (a : Bool) (s : ProgressState) : Prop :=
  s.phases a = .returned ∧
    ((s.phases (!a) ≠ .returned ∧ Working calls i found quests s) ∨
      (s.phases (!a) = .returned ∧
        (s.quests i).committed = (calls !a).leaves (quests !a) found))

/-- When one call has returned, the other is on its own. -/
theorem Working.after_first (hnodup : ids.Nodup) (hi : i ∈ ids) {ls : List ProgressLabel}
    (h : Working calls i found quests s) (hreturned : s.phases a = .returned)
    (hopen : s.phases (!a) ≠ .returned)
    (hrun : Run (ofStep (progressStep ids calls)) s ls s') (hboth : s'.phases (!a) = .returned) :
    (s'.quests i).committed = (calls !a).leaves (quests !a) found := by
  have hstart : LeftBy calls i found quests a s := ⟨hreturned, .inl ⟨hopen, h⟩⟩
  have hinv : LeftBy calls i found quests a s' := by
    refine hrun.invariant ?_ hstart
    rintro s l s' ⟨hreturned, hinv⟩ hs
    refine ⟨(returned_progressStep hs).mpr (.inl hreturned), ?_⟩
    obtain ⟨_, _, _, _, hcalled, hactor⟩ := phases_progressStep hs
    rcases hinv with ⟨hopen, hworking⟩ | ⟨hended, _⟩
    · by_cases hl : l = .commit (!a)
      · subst hl
        have hstands := (hworking.reads (!a)).stands (by simpa [ProgressLabel.actor] using hcalled) hactor
        obtain ⟨hphase, _, hcommitted⟩ := hstands.commit hs
        rw [hworking.committed] at hcommitted
        exact .inr ⟨hphase, hcommitted⟩
      · refine .inl ⟨?_, hworking.step hnodup hi hs ?_⟩
        · rw [Ne, returned_progressStep hs]
          rintro (hended | rfl)
          · exact hopen hended
          · exact hl rfl
        · rintro t rfl
          by_cases ht : t = a
          · subst ht
            exact hactor hreturned
          · obtain rfl : t = !a := Bool.eq_not.mpr ht
            exact hl rfl
    · -- both calls have returned: there is no further step
      rcases Bool.eq_or_eq_not l.actor a with hl | hl
      · rw [hl] at hactor
        exact absurd hreturned hactor
      · rw [hl] at hactor
        exact absurd hended hactor
  obtain ⟨_, ⟨hne, _⟩ | ⟨_, hcommitted⟩⟩ := hinv
  · exact absurd hboth hne
  · exact hcommitted

/-- A call has read the quests in a run exactly when it has left its start. -/
theorem called_run {ls : List ProgressLabel} (hrun : Run (ofStep (progressStep ids calls)) s ls s') :
    s'.phases t = .called ↔ s.phases t = .called ∧ .read t ∉ ls := by
  induction hrun with
  | nil s => simp
  | cons hs _ ih =>
      rw [ih, called_progressStep hs, List.mem_cons, not_or, and_assoc, ne_comm]

/-- A call has returned after a run exactly when it has committed in it. -/
theorem returned_run {ls : List ProgressLabel}
    (hrun : Run (ofStep (progressStep ids calls)) s ls s') :
    s'.phases t = .returned ↔ s.phases t = .returned ∨ .commit t ∈ ls := by
  induction hrun with
  | nil s => simp
  | cons hs _ ih =>
      rw [ih, returned_progressStep hs, List.mem_cons, or_assoc]
      simp only [eq_comm]

end Reads

/-! ## Counting both maps -/

/-- Quests that no call has touched. -/
def idleQuests (quests : Nat → ProgressRow) : ProgressState where
  quests id := { committed := quests id }

/-- The quest counts the maps of both events, and is marked complete if it has what it
asks for. -/
structure CountsBoth (calls : Bool → ProgressCall) (quest : ProgressRow) : Prop where
  counts : ∀ t, (calls t).event.mapId ∈ quest.counted
  marked : isQuestComplete quest.progress quest.requirements = true → quest.completedAt.isSome = true

/-- A quest that both events concern, left by `a` and then by the other call, which has
read what was there at the start: what `a` counted is lost. -/
theorem countsBoth_overlapping_iff {calls : Bool → ProgressCall} {quest : ProgressRow} {a : Bool}
    (hcounting : quest.counting = true)
    (hconcerns : ∀ t, quest.concerns (calls t).event = true)
    (hmaps : (calls a).event.mapId ≠ (calls !a).event.mapId) :
    CountsBoth calls ((calls !a).leaves quest ((calls a).leaves quest quest)) ↔
      (calls a).event.mapId ∈ quest.counted := by
  have hcounted (m : Nat) : m ∈ ((calls !a).leaves quest ((calls a).leaves quest quest)).counted ↔
      m = (calls !a).event.mapId ∨ m ∈ quest.counted :=
    (calls !a).mem_counted_leaves hcounting (calls a).requirements_leaves (hconcerns !a) m
  constructor
  · intro h
    exact ((hcounted _).mp (h.counts a)).resolve_left hmaps
  · intro hmem
    refine ⟨fun t ↦ ?_, (calls !a).marked_leaves (calls a).requirements_leaves (hconcerns !a)⟩
    by_cases ht : t = a
    · subst ht
      exact (hcounted _).mpr (.inr hmem)
    · obtain rfl : t = !a := Bool.eq_not.mpr ht
      exact (hcounted _).mpr (.inl rfl)

/-- A quest that both events concern, left by `a` and then by the other call, which has
read what `a` left: it passes the quest over when `a` has completed it. -/
theorem countsBoth_serial_iff {calls : Bool → ProgressCall} {quest : ProgressRow} {a : Bool}
    (hcounting : quest.counting = true)
    (hconcerns : ∀ t, quest.concerns (calls t).event = true)
    (hmaps : (calls a).event.mapId ≠ (calls !a).event.mapId) :
    let left := (calls a).leaves quest quest
    CountsBoth calls ((calls !a).leaves left left) ↔
      (calls !a).event.mapId ∈ quest.counted ∨ quest.completes (calls a).event = false := by
  intro left
  have hreq : left.requirements = quest.requirements := (calls a).requirements_leaves
  have hcounted (m : Nat) : m ∈ left.counted ↔ m = (calls a).event.mapId ∨ m ∈ quest.counted :=
    (calls a).mem_counted_leaves hcounting rfl (hconcerns a) m
  have hopen : quest.completedAt.isSome = false := by
    have := hconcerns a
    simp only [ProgressRow.concerns, Bool.and_eq_true, Option.isNone_iff_eq_none] at this
    simp [this.1]
  have hmatches : eventMatchesQuest quest.requirements (calls !a).event = true := by
    have := hconcerns !a
    simp only [ProgressRow.concerns, Bool.and_eq_true] at this
    exact this.2
  have hmarked : left.completedAt.isSome = quest.completes (calls a).event := by
    rw [Bool.eq_iff_iff, (calls a).completedAt_leaves (hconcerns a), hopen]
    simp
  have hleft : left.concerns (calls !a).event = !quest.completes (calls a).event := by
    rw [ProgressRow.concerns, hreq, hmatches, ← hmarked]
    cases left.completedAt <;> rfl
  cases hcompletes : quest.completes (calls a).event with
  | true =>
      rw [hcompletes] at hleft
      rw [(calls !a).leaves_of_not_concerns hleft]
      simp only [reduceCtorEq, or_false]
      constructor
      · intro h
        exact ((hcounted _).mp (h.counts !a)).resolve_left hmaps.symm
      · intro hmem
        refine ⟨fun t ↦ ?_, (calls a).marked_leaves rfl (hconcerns a)⟩
        by_cases ht : t = a
        · subst ht
          exact (hcounted _).mpr (.inl rfl)
        · obtain rfl : t = !a := Bool.eq_not.mpr ht
          exact (hcounted _).mpr (.inr hmem)
  | false =>
      rw [hcompletes] at hleft
      refine iff_of_true ?_ (.inr rfl)
      have hcounting' : left.counting = true := by
        rw [ProgressRow.counting, hreq]
        exact hcounting
      have hcounted' (m : Nat) : m ∈ ((calls !a).leaves left left).counted ↔
          m = (calls !a).event.mapId ∨ m ∈ left.counted :=
        (calls !a).mem_counted_leaves hcounting' rfl hleft m
      refine ⟨fun t ↦ ?_, (calls !a).marked_leaves rfl hleft⟩
      by_cases ht : t = a
      · subst ht
        exact (hcounted' _).mpr (.inr ((hcounted _).mpr (.inl rfl)))
      · obtain rfl : t = !a := Bool.eq_not.mpr ht
        exact (hcounted' _).mpr (.inl rfl)

/-- After two calls for completions on two maps that an open counting quest asks for, `a`
being the first to commit, the quest counts both maps exactly when the other call read the
quests after that and found the quest still open, or its map was counted already; or, when
it had read them before, when the map of `a` was counted already. -/
theorem updates_countBoth_iff {ids : List Nat} (hnodup : ids.Nodup) {calls : Bool → ProgressCall}
    {quests : Nat → ProgressRow} {i : Nat} (hi : i ∈ ids) (hcounting : (quests i).counting = true)
    (hconcerns : ∀ t, (quests i).concerns (calls t).event = true) {a : Bool}
    (hmaps : (calls a).event.mapId ≠ (calls !a).event.mapId) {ls ls' : List ProgressLabel}
    {s : ProgressState}
    (hrun : Run (ofStep (progressStep ids calls)) (idleQuests quests) (ls ++ .commit a :: ls') s)
    (hboth : .commit (!a) ∈ ls') :
    CountsBoth calls (s.quests i).committed ↔
      if .read (!a) ∈ ls then (calls a).event.mapId ∈ (quests i).counted
      else (calls !a).event.mapId ∈ (quests i).counted ∨
        (quests i).completes (calls a).event = false := by
  obtain ⟨s₁, hbefore, hrest⟩ := Run.append_iff.mp hrun
  obtain ⟨s₂, hcommit, hafter⟩ := Run.cons_iff.mp hrest
  have hstart : Working calls i (quests i) (fun _ ↦ quests i) (idleQuests quests) :=
    ⟨rfl, fun t ↦ .called rfl (Row.not_holds_of_none rfl)⟩
  have hended : s.phases (!a) = .returned := (returned_run hafter).mpr (.inr hboth)
  have hopen₁ : s₁.phases a ≠ .returned := by
    obtain ⟨_, _, _, _, _, hactor⟩ := phases_progressStep hcommit
    exact hactor
  have hopen₂ : s₂.phases (!a) ≠ .returned := by
    -- the other call commits in the rest of the run, which it could not do twice
    intro hreturned
    obtain ⟨ls₁, ls₂, rfl⟩ := List.append_of_mem hboth
    obtain ⟨s₃, h₃, h₃'⟩ := Run.append_iff.mp hafter
    obtain ⟨s₄, h₄, _⟩ := Run.cons_iff.mp h₃'
    obtain ⟨_, _, _, _, _, hactor⟩ := phases_progressStep h₄
    exact hactor ((returned_run h₃).mpr (.inl hreturned))
  have hopen (t : Bool) : s₁.phases t ≠ .returned := by
    by_cases ht : t = a
    · subst ht
      exact hopen₁
    · obtain rfl : t = !a := Bool.eq_not.mpr ht
      intro hreturned
      exact hopen₂ ((returned_progressStep hcommit).mpr (.inl hreturned))
  have hworking := (hstart.until_first hnodup hi hbefore hopen).commit hcommit
  have hreturned : s₂.phases a = .returned := (returned_progressStep hcommit).mpr (.inr rfl)
  rw [hworking.after_first hnodup hi hreturned hopen₂ hafter hended, Function.update_self]
  have hread : s₁.phases (!a) = .called ↔ .read (!a) ∉ ls := by
    rw [called_run hbefore]
    exact and_iff_right rfl
  by_cases hmem : ProgressLabel.read (!a) ∈ ls
  · rw [if_pos hmem, if_neg fun h ↦ hread.mp h hmem]
    exact countsBoth_overlapping_iff hcounting hconcerns hmaps
  · rw [if_neg hmem, if_pos (hread.mpr hmem)]
    exact countsBoth_serial_iff hcounting hconcerns hmaps

/-- A quest for five maps. -/
def fiveMaps : ProgressRow where
  requirements := { type := .completeMaps, count := 5, difficulty := some "any" }
  progress := {}

/-- The completion of map 1 and that of map 2. -/
def twoMaps (t : Bool) : ProgressCall where
  event := { mapId := if t then 2 else 1, difficulty := .easy, category := "Classic", time := 1000 }
  now := 0

/-- One call after the other. -/
theorem updates_countBoth_iff_serial :
    ∃ s, Run (ofStep (progressStep [1] twoMaps)) (idleQuests fun _ ↦ fiveMaps)
        ([.read false, .update false] ++
          .commit false :: [.read true, .update true, .commit true]) s ∧
      CountsBoth twoMaps (s.quests 1).committed := by
  have hrun : ∃ s, Run (ofStep (progressStep [1] twoMaps)) (idleQuests fun _ ↦ fiveMaps)
      ([.read false, .update false] ++
        .commit false :: [.read true, .update true, .commit true]) s :=
    ⟨_, Run.ofStep_iff.mpr rfl⟩
  obtain ⟨s, hs⟩ := hrun
  refine ⟨s, hs, (updates_countBoth_iff ?_ (i := 1) ?_ ?_ ?_ ?_ hs ?_).mpr ?_⟩
  all_goals decide

/-- Both calls read the quest before either writes: it counts the second map only. -/
theorem overlappingUpdates_loseMap :
    let ls : List ProgressLabel := [.read false, .read true, .update false, .commit false,
      .update true, .commit true]
    ∃ s, Run (ofStep (progressStep [1] twoMaps)) (idleQuests fun _ ↦ fiveMaps) ls s ∧
      (s.quests 1).committed.counted = [2] ∧ ¬ CountsBoth twoMaps (s.quests 1).committed := by
  refine ⟨_, Run.ofStep_iff.mpr rfl, ?_, ?_⟩
  · decide
  · intro h
    have hmem := h.counts false
    revert hmem
    decide

end Genjishimada.Store
