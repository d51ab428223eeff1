import Genjishimada.Library.Run
import Genjishimada.Maps.Rows

/-!
# The state of a playtest

Whether a map is in playtesting is a column of the map, and whether a playtest is open is a
column of one of its rows in `playtests.meta`.  The two agree when a map that is in progress
has one open playtest and any other map has none.

What the calls do to them is said once, by `PlaytestMove`, on a view that keeps the status
of each map and the number of its open playtests.  Two of the moves can break the
agreement: `update_map` sets the status alone, and a verdict on a thread completes the
playtest of that thread whichever one is open.
-/

namespace Genjishimada.Maps

open Library Sdk Repository Services

/-! ## The calls -/

inductive PlaytestLabel where
  | createMap (data : MapCreateRequest)
  | sendToPlaytest (code : String) (initialDifficulty : DifficultyAll)
  | associate (playtestId threadId : Nat)
  | approve (threadId : Nat) (hasPrimaryCreator : Bool)
  | forceAccept (threadId : Nat) (difficulty : DifficultyAll)
  | forceDeny (threadId : Nat)
  | setArchiveStatus (codes : List String) (archived : Bool)
  | updateMap (code : String) (data : MapPatchRequest)
  | /-- Votes are cast or withdrawn. -/
    vote (votes : List PlaytestVote)
  | /-- Runs are submitted, verified, rejected or moderated. -/
    complete (completions : Table CoreCompletion)

/-- One call. -/
def playtestStep (d : PlaytestDb) : PlaytestLabel → PlaytestDb
  | .createMap data => after d (createMap data d)
  | .sendToPlaytest code difficulty => after d (sendToPlaytest (some code) difficulty d)
  | .associate playtestId threadId => after d (associatePlaytestMeta playtestId threadId d)
  | .approve threadId hasPrimaryCreator => (approve threadId hasPrimaryCreator d).1
  | .forceAccept threadId difficulty => after d (forceAccept threadId difficulty d)
  | .forceDeny threadId => after d (forceDeny threadId d)
  | .setArchiveStatus codes archived =>
      after d (setArchiveStatus (codes.map some) archived d)
  | .updateMap code data => after d (updateMap (some code) data d)
  | .vote votes => { d with votes }
  | .complete completions => { d with db := { d.db with coreCompletions := completions } }

/-! ## The agreement -/

/-- The open playtests of a map. -/
def openPlaytests (d : PlaytestDb) (mapId : Nat) : Nat :=
  d.metas.rows.countP fun pm ↦ pm.mapId = mapId && !pm.completed

/-- A map in progress has one open playtest, and any other map has none. -/
def PlaytestsAgree (d : PlaytestDb) : Prop :=
  ∀ m ∈ d.db.maps.rows,
    openPlaytests d m.id = if m.playtesting = .inProgress then 1 else 0

/-- If the map of the thread is in progress, its open playtest is the one of the thread. -/
def ThreadIsOpen (d : PlaytestDb) (threadId : Nat) : Prop :=
  ∀ pm ∈ d.metas.rows, pm.threadId = some threadId →
    ∀ m ∈ d.db.maps.rows, m.id = pm.mapId → m.playtesting = .inProgress → pm.completed = false

/-- A verdict that takes effect is on the open playtest, if there is one; and a patch that
takes effect does not take a map in or out of playtesting. -/
def Keeps (d : PlaytestDb) : PlaytestLabel → Prop
  | .approve threadId _ => (d.getAverageDifficulty threadId).isSome → ThreadIsOpen d threadId
  | .forceAccept threadId _ | .forceDeny threadId => ThreadIsOpen d threadId
  | .updateMap code data =>
      ∀ m ∈ d.db.maps.rows, m.code = some code → ∀ status ∈ data.playtesting,
        (∀ newCode ∈ data.code, d.codeRefused code newCode = false) →
          (status = .inProgress ↔ m.playtesting = .inProgress)
  | _ => True

/-! ## The view -/

/-- The status of each map, and how many of its playtests are open. -/
@[ext]
structure PlaytestView where
  status : Nat → Option PlaytestStatus
  opened : Nat → Nat

def view (d : PlaytestDb) : PlaytestView where
  status := fun id ↦ (d.db.maps.get? id).map (·.playtesting)
  opened := openPlaytests d

namespace PlaytestView

/-- The agreement, of a view. -/
def Agree (v : PlaytestView) : Prop :=
  ∀ id status, v.status id = some status →
    v.opened id = if status = .inProgress then 1 else 0

end PlaytestView

theorem playtestsAgree_iff {d : PlaytestDb} : PlaytestsAgree d ↔ (view d).Agree := by
  constructor
  · intro h id status hstatus
    obtain ⟨m, hm, rfl⟩ := Option.map_eq_some_iff.mp hstatus
    obtain ⟨hmem, rfl⟩ := Table.get?_eq_some_iff.mp hm
    exact h m hmem
  · intro h m hm
    apply h m.id m.playtesting
    show (d.db.maps.get? (key m)).map _ = _
    rw [Table.get?_of_mem hm]
    rfl

/-- What a call can do to the view, and when that keeps the agreement. -/
inductive PlaytestMove (v : PlaytestView) : PlaytestView → Prop → Prop
  | stay : PlaytestMove v v True
  | /-- A new map, with its playtest if it is in progress. -/
    created {id : Nat} {status : PlaytestStatus} (hopened : v.opened id = 0) :
      PlaytestMove v
        { status := Function.update v.status id (some status)
          opened := Function.update v.opened id (if status = .inProgress then 1 else 0) } True
  | /-- A map is sent to playtest. -/
    sent {id : Nat} {status : PlaytestStatus} (hstatus : v.status id = some status)
      (hnot : status ≠ .inProgress) :
      PlaytestMove v
        { status := Function.update v.status id (some .inProgress)
          opened := Function.update v.opened id (v.opened id + 1) } True
  | /-- A playtest that is open or not gets its verdict. -/
    judged {id : Nat} {old status : PlaytestStatus} {isOpen : Bool} (hold : v.status id = some old)
      (hnot : status ≠ .inProgress) :
      PlaytestMove v
        { status := Function.update v.status id (some status)
          opened := Function.update v.opened id (v.opened id - if isOpen then 1 else 0) }
        (old = .inProgress → isOpen = true)
  | /-- Some maps are archived. -/
    archived {p : Nat → Bool} :
      PlaytestMove v
        { status := fun id ↦ if p id then (v.status id).map fun status ↦
            if status = .inProgress then .rejected else status else v.status id
          opened := fun id ↦ if p id ∧ (v.status id).any (· ≠ .approved) then 0 else v.opened id }
        True
  | /-- The status is set alone. -/
    patched {id : Nat} {old status : PlaytestStatus} (hold : v.status id = some old) :
      PlaytestMove v { v with status := Function.update v.status id (some status) }
        (status = .inProgress ↔ old = .inProgress)

/-- A move keeps the agreement exactly under its condition. -/
theorem PlaytestMove.agree_iff {v v' : PlaytestView} {keeps : Prop}
    (h : PlaytestMove v v' keeps) (hv : v.Agree) : v'.Agree ↔ keeps := by
  cases h with
  | stay => exact iff_of_true hv trivial
  | @created id status hopened =>
      refine iff_of_true (fun id' status' h' ↦ ?_) trivial
      by_cases hid : id' = id
      · subst hid
        simp only [Function.update_self, Option.some.injEq] at h' ⊢
        rw [h']
      · simp only [Function.update_of_ne hid] at h' ⊢
        exact hv id' status' h'
  | @sent id status hstatus hnot =>
      refine iff_of_true (fun id' status' h' ↦ ?_) trivial
      by_cases hid : id' = id
      · subst hid
        have hnone := hv id' status hstatus
        simp only [Function.update_self, Option.some.injEq] at h' ⊢
        rw [hnone, if_neg hnot, ← h']
        rfl
      · simp only [Function.update_of_ne hid] at h' ⊢
        exact hv id' status' h'
  | @judged id old status isOpen hold hnot =>
      have hcount := hv id old hold
      constructor
      · intro h' hprogress
        have hzero := h' id status (Function.update_self ..)
        simp only [Function.update_self, if_neg hnot, hcount, if_pos hprogress] at hzero
        cases isOpen with
        | true => rfl
        | false => exact absurd hzero (by decide)
      · intro hkeeps id' status' h'
        by_cases hid : id' = id
        · subst hid
          simp only [Function.update_self, Option.some.injEq] at h' ⊢
          rw [← h', if_neg hnot, hcount]
          by_cases hprogress : old = .inProgress
          · rw [hkeeps hprogress, if_pos hprogress]
            rfl
          · rw [if_neg hprogress]
            omega
        · simp only [Function.update_of_ne hid] at h' ⊢
          exact hv id' status' h'
  | @archived p =>
      refine iff_of_true (fun id status h' ↦ ?_) trivial
      simp only at h' ⊢
      by_cases hp : p id = true
      · rw [if_pos hp, Option.map_eq_some_iff] at h'
        obtain ⟨old, hold, rfl⟩ := h'
        have hcount := hv id old hold
        cases old <;> simp [hp, hold, hcount]
      · rw [if_neg hp] at h'
        rw [if_neg (fun h ↦ hp h.1)]
        exact hv id status h'
  | @patched id old status hold =>
      have hcount := hv id old hold
      constructor
      · intro h'
        have hnew := h' id status (Function.update_self ..)
        rw [hcount] at hnew
        by_cases h₁ : status = .inProgress <;> by_cases h₂ : old = .inProgress <;> simp_all
      · intro hkeeps id' status' h'
        by_cases hid : id' = id
        · subst hid
          simp only [Function.update_self, Option.some.injEq] at h' ⊢
          rw [← h', hcount]
          exact if_congr hkeeps.symm rfl rfl
        · simp only [Function.update_of_ne hid] at h' ⊢
          exact hv id' status' h'

/-! ## What the statements do to the view -/

section View

variable {d d' : PlaytestDb} {m : CoreMap} {p : CoreMap → Bool} {f : CoreMap → CoreMap}
  {hf : ∀ m, key (f m) = key m}

theorem view_congr (hmaps : d'.db.maps = d.db.maps) (hmetas : d'.metas = d.metas) :
    view d' = view d := by
  apply PlaytestView.ext
  · show (fun id ↦ (d'.db.maps.get? id).map (·.playtesting)) = _
    rw [hmaps]
    rfl
  · show (fun id ↦ d'.metas.rows.countP _) = _
    rw [hmetas]
    rfl

/-- An update that keeps the status. -/
theorem view_updateMaps_of_keep (hkeep : ∀ m, (f m).playtesting = m.playtesting) :
    view (d.updateMaps p f hf) = view d := by
  apply PlaytestView.ext
  · funext id
    show ((d.db.maps.modify p f hf).get? id).map (·.playtesting) = _
    rw [Table.get?_modify, Option.map_map]
    apply Option.map_congr
    intro m _
    show (if p m then f m else m).playtesting = _
    split
    · exact hkeep m
    · rfl
  · rfl

/-- An update of one row. -/
theorem view_updateMaps_of_single (hm : m ∈ d.db.maps.rows)
    (hp : ∀ m' ∈ d.db.maps.rows, p m' = true ↔ m' = m) :
    view (d.updateMaps p f hf) =
      { view d with
        status := Function.update (view d).status m.id (some (f m).playtesting) } := by
  apply PlaytestView.ext
  · funext id
    show ((d.db.maps.modify p f hf).get? id).map (·.playtesting) = _
    rw [Table.get?_modify, Option.map_map]
    by_cases hid : id = m.id
    · subst hid
      have hget : d.db.maps.get? m.id = some m := Table.get?_of_mem hm
      simp [hget, (hp m hm).mpr rfl]
    · simp only [Function.update_of_ne hid]
      apply Option.map_congr
      intro m' hm'
      have hne : p m' ≠ true := by
        intro hpm
        rw [(hp m' (Table.mem_of_get? hm')).mp hpm] at hm'
        exact hid (Table.key_of_get? hm').symm
      show (if p m' then f m' else m').playtesting = _
      rw [if_neg hne]
  · rfl

/-- An update of the playtests that opens and completes none. -/
theorem view_modifyMetas {q : Playtest → Bool} {g : Playtest → Playtest} {hg}
    (hkeep : ∀ pm, (g pm).mapId = pm.mapId ∧ (g pm).completed = pm.completed) :
    view { d with metas := d.metas.modify q g hg } = view d := by
  apply PlaytestView.ext
  · rfl
  · funext id
    show (d.metas.rows.map fun pm ↦ if q pm then g pm else pm).countP _ = _
    rw [List.countP_map]
    apply List.countP_congr
    intro pm _
    show ((if q pm then g pm else pm).mapId = id && !(if q pm then g pm else pm).completed) = true ↔ _
    split
    · rw [(hkeep pm).1, (hkeep pm).2]
    · rfl

/-- A playtest is completed. -/
theorem view_completePlaytest (h : MapsInv d) {pm : Playtest} {threadId : Nat}
    (hpm : pm ∈ d.metas.rows) (hthread : pm.threadId = some threadId) :
    view (d.completePlaytest threadId) =
      { view d with
        opened := Function.update (view d).opened pm.mapId
          ((view d).opened pm.mapId - if (!pm.completed) = true then 1 else 0) } := by
  have hsingle : ∀ pm' ∈ d.metas.rows, decide (pm'.threadId = some threadId) = true ↔ pm' = pm := by
    intro pm' hpm'
    rw [decide_eq_true_eq]
    constructor
    · intro hthread'
      exact h.threads pm' hpm' pm hpm (by simp [hthread']) (hthread'.trans hthread.symm)
    · rintro rfl
      exact hthread
  apply PlaytestView.ext
  · rfl
  · funext id
    have hcount := Table.countP_modify (f := fun pm ↦ { pm with completed := true }) hpm hsingle
      (fun _ ↦ rfl) fun pm ↦ pm.mapId = id && !pm.completed
    simp only [Bool.not_true, Bool.and_false, Bool.false_eq_true, if_false, Nat.add_zero] at hcount
    show (d.completePlaytest threadId).metas.rows.countP _ = _
    by_cases hid : id = pm.mapId
    · subst hid
      simp only [Function.update_self, decide_true, Bool.true_and] at hcount ⊢
      show _ = openPlaytests d pm.mapId - _
      rw [openPlaytests, ← hcount, Nat.add_sub_cancel]
      rfl
    · simp only [Function.update_of_ne hid, decide_eq_false (Ne.symm hid), Bool.false_and,
        Bool.false_eq_true, if_false, Nat.add_zero] at hcount ⊢
      exact hcount

/-- A playtest of a map is opened. -/
theorem view_createPlaytestMetaPartial {code : String} {difficulty : Rat}
    (hm : d.mapOfCode (some code) = some m) :
    view (d.createPlaytestMetaPartial code difficulty) =
      { view d with
        opened := Function.update (view d).opened m.id ((view d).opened m.id + 1) } := by
  rw [PlaytestDb.createPlaytestMetaPartial, hm]
  apply PlaytestView.ext
  · rfl
  · funext id
    show (d.metas.rows ++ [_]).countP _ = _
    rw [List.countP_append, List.countP_singleton]
    by_cases hid : id = m.id
    · subst hid
      simp [view, openPlaytests]
    · simp [view, openPlaytests, Function.update_of_ne hid, Ne.symm hid]

/-- A map is created. -/
theorem view_createCoreMap {mk : Nat → CoreMap} {hk : ∀ n, key (mk n) = n}
    {status : PlaytestStatus} (hstatus : ∀ n, (mk n).playtesting = status) :
    view (d.createCoreMap mk hk) =
      { view d with
        status := Function.update (view d).status d.db.maps.nextId (some status) } := by
  apply PlaytestView.ext
  · funext id
    show ((d.db.maps.insert mk hk).get? id).map (·.playtesting) = _
    rw [Table.get?_insert]
    by_cases hid : id = d.db.maps.nextId
    · subst hid
      rw [if_pos rfl, Option.map_some, hstatus]
      simp only [Function.update_self]
    · rw [if_neg hid]
      simp only [Function.update_of_ne hid]
      rfl
  · rfl

/-- A patch of the one map of a code. -/
theorem view_updateCoreMap {code : String} {data : MapPatchRequest} (hm : m ∈ d.db.maps.rows)
    (hcode : ∀ m' ∈ d.db.maps.rows, decide (m'.code = some code) = true ↔ m' = m)
    (hs : d.updateCoreMap code data = some d') :
    view d' =
      { view d with
        status := Function.update (view d).status m.id
          (some (data.playtesting.getD m.playtesting)) } := by
  have hpatch : view (d.updateMaps (fun m ↦ m.code = some code) data.apply data.key_apply) =
      { view d with
        status := Function.update (view d).status m.id
          (some (data.playtesting.getD m.playtesting)) } := by
    rw [view_updateMaps_of_single hm hcode, MapPatchRequest.apply]
    cases data.difficulty <;> rfl
  rw [PlaytestDb.updateCoreMap] at hs
  split at hs
  · rename_i hempty
    obtain rfl := Option.some.inj hs
    have hnone : data.playtesting = none := by
      simp only [MapPatchRequest.coreEmpty, Bool.and_eq_true, Option.isNone_iff_eq_none] at hempty
      exact hempty.2
    have hstatus : (view d).status m.id = some m.playtesting := by
      show (d.db.maps.get? (key m)).map _ = _
      rw [Table.get?_of_mem hm]
      rfl
    rw [hnone, Option.getD_none, ← hstatus, Function.update_eq_self]
  · split at hs
    · split at hs
      · cases hs
      · obtain rfl := Option.some.inj hs
        rw [← hpatch, PlaytestDb.relink]
        split
        · rfl
        · exact view_congr rfl rfl
    · obtain rfl := Option.some.inj hs
      exact hpatch

/-- Maps are archived. -/
theorem view_archive (d : PlaytestDb) (codes : List String) :
    view (d.setArchiveStatus codes true) =
      { status := fun id ↦ if (d.db.maps.get? id).any (PlaytestDb.named codes) then
          ((view d).status id).map fun status ↦
            if status = .inProgress then .rejected else status else (view d).status id
        opened := fun id ↦ if (d.db.maps.get? id).any (PlaytestDb.named codes) ∧
          ((view d).status id).any (· ≠ .approved) then 0 else (view d).opened id } := by
  have hended : ∀ pm : Playtest, d.endedBy codes pm =
      (!pm.completed && ((d.db.maps.get? pm.mapId).any (PlaytestDb.named codes) &&
        ((view d).status pm.mapId).any (· ≠ .approved))) := by
    intro pm
    simp only [PlaytestDb.endedBy, view]
    cases d.db.maps.get? pm.mapId <;> rfl
  rw [PlaytestDb.setArchiveStatus, if_pos rfl]
  apply PlaytestView.ext
  · funext id
    refine (congrArg (Option.map fun m : CoreMap ↦ m.playtesting)
      (Table.get?_modify (PlaytestDb.named codes) PlaytestDb.archiveMap fun _ ↦ rfl)).trans ?_
    cases hget : d.db.maps.get? id with
    | none => simp [view, hget]
    | some m =>
        by_cases hnamed : PlaytestDb.named codes m = true
        · simp [view, hget, hnamed, PlaytestDb.archiveMap]
        · simp [view, hget, hnamed]
  · funext id
    show List.countP _ (d.metas.rows.map fun pm ↦
      if d.endedBy codes pm then { pm with completed := true } else pm) =
        if _ ∧ _ then 0 else openPlaytests d id
    rw [List.countP_map]
    split
    · rename_i hend
      rw [List.countP_eq_zero]
      intro pm _
      by_cases hid : pm.mapId = id
      · subst hid
        have hends : d.endedBy codes pm = !pm.completed := by
          rw [hended, hend.1, hend.2, Bool.and_true, Bool.and_true]
        cases hc : pm.completed <;> simp [hends, hc]
      · cases hc : d.endedBy codes pm <;> simp [hc, hid]
    · rename_i hend
      apply List.countP_congr
      intro pm _
      by_cases hid : pm.mapId = id
      · subst hid
        have hnot : d.endedBy codes pm = false := by
          rw [hended, Bool.and_eq_false_iff]
          right
          rw [← Bool.not_eq_true, Bool.and_eq_true]
          exact hend
        simp [hnot]
      · cases hc : d.endedBy codes pm <;> simp [hc, hid]

end View

/-! ## What the calls do to the view -/

section Calls

variable {d d' : PlaytestDb}

/-- A move that keeps the agreement in any case. -/
def Moves (d d' : PlaytestDb) (keeps : Prop) : Prop :=
  ∃ ok, PlaytestMove (view d) (view d') ok ∧ (ok ↔ keeps)

theorem moves_stay (hview : view d' = view d) : Moves d d' True := by
  refine ⟨True, ?_, Iff.rfl⟩
  rw [hview]
  exact .stay

/-- A new map has the next id, which no playtest refers to. -/
theorem createMap_moves (h : MapsInv d) (data : MapCreateRequest) :
    Moves d (after d (createMap data d)) True := by
  cases hs : createMap data d with
  | error e => exact moves_stay rfl
  | ok d' =>
      refine ⟨True, ?_, Iff.rfl⟩
      show PlaytestMove (view d) (view d') True
      have hinv := h.createMap hs
      have hnew : (view d).opened d.db.maps.nextId = 0 := by
        show openPlaytests d _ = 0
        rw [openPlaytests, List.countP_eq_zero]
        intro pm hpm
        have hsome := h.maps pm hpm
        have hne : pm.mapId ≠ d.db.maps.nextId := by
          intro heq
          rw [heq, Table.get?_nextId] at hsome
          cases hsome
        simp [hne]
      have hmove := @PlaytestMove.created (view d) d.db.maps.nextId data.status hnew
      obtain ⟨hmaps, hmetas⟩ :=
        insertMedals_frame d.db.maps.nextId data.medals (d.createCoreMap data.row)
      have hcreated : view (insertMedals d.db.maps.nextId data.medals (d.createCoreMap data.row)) =
          { view d with
            status := Function.update (view d).status d.db.maps.nextId (some data.status) } := by
        rw [view_congr hmaps hmetas]
        exact view_createCoreMap fun _ ↦ rfl
      simp only [Services.createMap] at hs
      split at hs
      · cases hs
      · rename_i hfree
        split at hs
        · rename_i hstatus
          cases hs
          have hfree : d.mapOfCode (some data.code) = none := by simpa using hfree
          have hrow : MapsInv (insertMedals d.db.maps.nextId data.medals
              (d.createCoreMap data.row)) :=
            MapsInv.congr (h.createCoreMap (fun _ ↦ rfl) hfree) hmaps hmetas
          have hmem : data.row d.db.maps.nextId ∈ (insertMedals d.db.maps.nextId data.medals
              (d.createCoreMap data.row)).db.maps.rows := by
            rw [hmaps]
            exact List.mem_append_right _ (List.mem_singleton_self _)
          rw [view_createPlaytestMetaPartial (hrow.mapOfCode hmem rfl), hcreated]
          rw [if_pos hstatus] at hmove
          show PlaytestMove _ (PlaytestView.mk _ (Function.update (view d).opened d.db.maps.nextId
            ((view d).opened d.db.maps.nextId + 1))) True
          rw [hnew]
          exact hmove
        · rename_i hstatus
          cases hs
          rw [hcreated]
          rw [if_neg hstatus, ← hnew, Function.update_eq_self] at hmove
          exact hmove

/-- A patch sets the status of the map of the code, if it sets any. -/
theorem updateMap_moves (h : MapsInv d) (code : String) (data : MapPatchRequest) :
    Moves d (after d (updateMap (some code) data d)) (Keeps d (.updateMap code data)) := by
  cases hm : d.mapOfCode (some code) with
  | none =>
      have hstay : after d (updateMap (some code) data d) = d := by
        simp only [updateMap, hm]
        rfl
      refine ⟨True, ?_, iff_of_true trivial ?_⟩
      · rw [hstay]
        exact .stay
      · intro m hmem hc
        rw [h.mapOfCode hmem hc] at hm
        cases hm
  | some m =>
      obtain ⟨hmem, hc, _⟩ := mem_of_mapOfCode hm
      have honly : ∀ m' ∈ d.db.maps.rows, decide (m'.code = some code) = true ↔ m' = m := by
        intro m' hm'
        rw [decide_eq_true_eq]
        constructor
        · intro hc'
          exact h.codes m' hm' m hmem (by simp [hc']) (hc'.trans hc.symm)
        · rintro rfl
          exact hc
      have hkeeps : Keeps d (.updateMap code data) ↔ ∀ status ∈ data.playtesting,
          (∀ newCode ∈ data.code, d.codeRefused code newCode = false) →
            (status = .inProgress ↔ m.playtesting = .inProgress) := by
        constructor
        · intro hk
          exact hk m hmem hc
        · intro hk m' hm' hc'
          rw [(honly m' hm').mp (decide_eq_true hc')]
          exact hk
      rw [hkeeps]
      have hold : (view d).status m.id = some m.playtesting := by
        show (d.db.maps.get? (key m)).map _ = _
        rw [Table.get?_of_mem hmem]
        rfl
      cases hu : d.updateCoreMap code data with
      | none =>
          have hstay : after d (updateMap (some code) data d) = d := by
            simp only [updateMap, hm, hu]
            rfl
          refine ⟨True, ?_, iff_of_true trivial fun status _ hfree ↦ ?_⟩
          · rw [hstay]
            exact .stay
          · obtain ⟨newCode, hnew, htaken⟩ := exists_codeRefused hu
            rw [hfree newCode hnew] at htaken
            cases htaken
      | some updated =>
          have hview : view (after d (updateMap (some code) data d)) = view updated := by
            simp only [updateMap, hm, hu]
            obtain ⟨hmaps, hmetas⟩ := patchMedals_frame m.id data.medals
              (patchInitialDifficulty data.difficulty (d.playtestThread m) updated)
            refine (view_congr hmaps hmetas).trans ?_
            simp only [patchInitialDifficulty]
            split
            · exact view_modifyMetas fun _ ↦ ⟨rfl, rfl⟩
            · rfl
          have hpatched := view_updateCoreMap hmem honly hu
          have hfree : ∀ newCode ∈ data.code, d.codeRefused code newCode = false :=
            codeRefused_eq_false hu
          cases hp : data.playtesting with
          | none =>
              refine ⟨True, ?_, iff_of_true trivial (by simp)⟩
              rw [hview, hpatched, hp, Option.getD_none, ← hold, Function.update_eq_self]
              exact .stay
          | some status =>
              refine ⟨status = .inProgress ↔ m.playtesting = .inProgress, ?_, ?_⟩
              · rw [hview, hpatched, hp]
                exact .patched hold
              · simp only [Option.mem_def, Option.some.injEq]
                constructor
                · rintro hiff _ rfl _
                  exact hiff
                · intro hall
                  exact hall status rfl hfree

/-- Starting a playtest leaves the map its code. -/
theorem mapOfCode_start (h : MapsInv d) {m : CoreMap} {code : String} (hm : m ∈ d.db.maps.rows)
    (hc : m.code = some code)
    (hs : d.updateCoreMap code { playtesting := some .inProgress } = some d') :
    d'.mapOfCode (some code) = some { m with playtesting := .inProgress } := by
  refine (h.updateCoreMap hs).mapOfCode (m := { m with playtesting := .inProgress }) ?_ hc
  have hd' : d.updateMaps (fun m ↦ m.code = some code)
      (MapPatchRequest.apply { playtesting := some .inProgress })
      (MapPatchRequest.key_apply _) = d' := Option.some.inj hs
  rw [← hd']
  refine List.mem_map.mpr ⟨m, hm, ?_⟩
  rw [if_pos (decide_eq_true hc)]
  rfl

/-- A map is sent to playtest only while it is not in progress. -/
theorem sendToPlaytest_moves (h : MapsInv d) (code : String) (difficulty : DifficultyAll) :
    Moves d (after d (sendToPlaytest (some code) difficulty d)) True := by
  cases hs : sendToPlaytest (some code) difficulty d with
  | error e => exact moves_stay rfl
  | ok d' =>
      refine ⟨True, ?_, Iff.rfl⟩
      show PlaytestMove (view d) (view d') True
      simp only [sendToPlaytest] at hs
      split at hs
      · rename_i c m hcode hm
        cases hcode
        split at hs
        · cases hs
        · rename_i hnot
          split at hs
          · cases hs
          · rename_i converted hconverted
            have hsame : converted.db.maps = d.db.maps ∧ converted.metas = d.metas := by
              rw [convertToLegacyInternal] at hconverted
              split at hconverted
              · cases hconverted
              · cases hconverted
                exact ⟨rfl, rfl⟩
            have hinv : MapsInv converted := h.congr hsame.1 hsame.2
            split at hs
            · cases hs
            · rename_i updated hupdated
              cases hs
              obtain ⟨hmem, hc, _⟩ := mem_of_mapOfCode hm
              have hmem' : m ∈ converted.db.maps.rows := by
                rw [hsame.1]
                exact hmem
              have honly : ∀ m' ∈ converted.db.maps.rows,
                  decide (m'.code = some code) = true ↔ m' = m := by
                intro m' hm'
                rw [decide_eq_true_eq]
                constructor
                · intro hc'
                  exact hinv.codes m' hm' m hmem' (by simp [hc']) (hc'.trans hc.symm)
                · rintro rfl
                  exact hc
              have hview := view_updateCoreMap hmem' honly hupdated
              rw [view_congr hsame.1 hsame.2] at hview
              have hm' := mapOfCode_start hinv hmem' hc hupdated
              have hold : (view d).status m.id = some m.playtesting := by
                show (d.db.maps.get? (key m)).map _ = _
                rw [Table.get?_of_mem hmem]
                rfl
              rw [view_createPlaytestMetaPartial hm', hview]
              exact PlaytestMove.sent hold hnot
      · cases hs

/-- A verdict on the playtest of a thread. -/
theorem judged_moves (h : MapsInv d) {threadId mapId : Nat} {f : CoreMap → CoreMap}
    {hf : ∀ m, key (f m) = key m} {status : PlaytestStatus}
    (hthread : d.getMapIdFromThread threadId = some mapId)
    (hcode : ∀ m, (f m).code = m.code) (hstatus : ∀ m, (f m).playtesting = status)
    (hnot : status ≠ .inProgress) :
    Moves d ((d.updateMaps (fun m ↦ m.id = mapId) f hf).completePlaytest threadId)
      (ThreadIsOpen d threadId) := by
  obtain ⟨pm, hfind, rfl⟩ := Option.map_eq_some_iff.mp hthread
  have hpm : pm ∈ d.metas.rows := List.mem_of_find?_eq_some hfind
  have hpt : pm.threadId = some threadId := by simpa using List.find?_some hfind
  obtain ⟨m, hm⟩ := Option.isSome_iff_exists.mp (h.maps pm hpm)
  obtain ⟨hmem, hid⟩ := Table.get?_eq_some_iff.mp hm
  have honly : ∀ m' ∈ d.db.maps.rows, decide (m'.id = pm.mapId) = true ↔ m' = m := by
    intro m' hm'
    rw [decide_eq_true_eq]
    constructor
    · intro hid'
      exact Table.eq_of_key_eq hm' hmem (hid'.trans hid.symm)
    · rintro rfl
      exact hid
  refine ⟨m.playtesting = .inProgress → (!pm.completed) = true, ?_, ?_⟩
  · have hinv : MapsInv (d.updateMaps (fun m ↦ m.id = pm.mapId) f hf) := h.updateMaps hcode
    rw [view_completePlaytest hinv hpm hpt, view_updateMaps_of_single hmem honly, hstatus]
    have hmap : pm.mapId = m.id := hid.symm
    rw [hmap]
    have hold : (view d).status m.id = some m.playtesting := by
      show (d.db.maps.get? m.id).map _ = _
      rw [← hmap, hm]
      rfl
    exact .judged hold hnot
  · constructor
    · intro hopen pm' hpm' hpt' m' hm' hid' hprogress
      obtain rfl := h.threads pm' hpm' pm hpm (by simp [hpt']) (hpt'.trans hpt.symm)
      rw [(honly m' hm').mp (decide_eq_true hid')] at hprogress
      simpa using hopen hprogress
    · intro hopen hprogress
      have := hopen pm hpm hpt m hmem hid hprogress
      simp [this]

/-- No playtest has the thread. -/
theorem threadIsOpen_of_none {threadId : Nat} (hthread : d.getMapIdFromThread threadId = none) :
    ThreadIsOpen d threadId := by
  intro pm hpm hpt
  have hnone := List.find?_eq_none.mp (Option.map_eq_none_iff.mp hthread) pm hpm
  simp [hpt] at hnone

/-- What each call does, and when it keeps the agreement. -/
theorem playtestStep_moves (h : MapsInv d) (l : PlaytestLabel) :
    Moves d (playtestStep d l) (Keeps d l) := by
  cases l with
  | createMap data => exact createMap_moves h data
  | sendToPlaytest code difficulty => exact sendToPlaytest_moves h code difficulty
  | associate playtestId threadId =>
      show Moves d (after d (associatePlaytestMeta playtestId threadId d)) True
      rw [associatePlaytestMeta, PlaytestDb.associateThread]
      split
      · rename_i hs
        split at hs
        · cases hs
        · cases hs
          exact moves_stay (view_modifyMetas fun _ ↦ ⟨rfl, rfl⟩)
      · exact moves_stay rfl
  | approve threadId hasPrimaryCreator =>
      show Moves d (approve threadId hasPrimaryCreator d).1
        ((d.getAverageDifficulty threadId).isSome → ThreadIsOpen d threadId)
      cases hthread : d.getMapIdFromThread threadId with
      | none =>
          obtain ⟨ok, hmove, hok⟩ := moves_stay (rfl : view d = view d)
          simp only [approve, hthread]
          exact ⟨ok, hmove, hok.trans (iff_of_true trivial fun _ ↦ threadIsOpen_of_none hthread)⟩
      | some mapId =>
          cases havg : d.getAverageDifficulty threadId with
          | none =>
              obtain ⟨ok, hmove, hok⟩ := moves_stay (rfl : view d = view d)
              simp only [approve, hthread, havg]
              exact ⟨ok, hmove, hok.trans (iff_of_true trivial (by simp))⟩
          | some raw =>
              have happroved : (approve threadId hasPrimaryCreator d).1 =
                  d.approvePlaytest mapId threadId raw := by
                simp only [approve, hthread, havg]
                split
                · rfl
                · split <;> rfl
              rw [happroved]
              have hjudged : Moves d (d.approvePlaytest mapId threadId raw)
                  (ThreadIsOpen d threadId) :=
                judged_moves h hthread (fun _ ↦ rfl) (fun _ ↦ rfl) (by simp)
              obtain ⟨ok, hmove, hok⟩ := hjudged
              exact ⟨ok, hmove, hok.trans (by simp)⟩
  | forceAccept threadId difficulty =>
      show Moves d (after d (forceAccept threadId difficulty d)) (ThreadIsOpen d threadId)
      rw [forceAccept]
      split
      · rename_i mapId hthread
        exact judged_moves h hthread (fun _ ↦ rfl) (fun _ ↦ rfl) (by simp)
      · rename_i hthread
        obtain ⟨ok, hmove, hok⟩ := moves_stay (rfl : view d = view d)
        exact ⟨ok, hmove, hok.trans (iff_of_true trivial (threadIsOpen_of_none hthread))⟩
  | forceDeny threadId =>
      show Moves d (after d (forceDeny threadId d)) (ThreadIsOpen d threadId)
      rw [forceDeny]
      split
      · rename_i mapId hthread
        exact judged_moves h hthread (fun _ ↦ rfl) (fun _ ↦ rfl) (by simp)
      · rename_i hthread
        obtain ⟨ok, hmove, hok⟩ := moves_stay (rfl : view d = view d)
        exact ⟨ok, hmove, hok.trans (iff_of_true trivial (threadIsOpen_of_none hthread))⟩
  | setArchiveStatus codes archived =>
      show Moves d (after d (setArchiveStatus (codes.map some) archived d)) True
      rw [setArchiveStatus]
      split
      · exact moves_stay rfl
      · show Moves d (d.setArchiveStatus (codes.map some).reduceOption archived) True
        cases archived with
        | true =>
            refine ⟨True, ?_, Iff.rfl⟩
            rw [view_archive]
            exact .archived
        | false => exact moves_stay (view_updateMaps_of_keep fun _ ↦ rfl)
  | updateMap code data => exact updateMap_moves h code data
  | vote votes => exact moves_stay (view_congr rfl rfl)
  | complete completions => exact moves_stay (view_congr rfl rfl)

theorem MapsInv.playtestStep (h : MapsInv d) (l : PlaytestLabel) : MapsInv (playtestStep d l) := by
  cases l with
  | createMap data => exact h.after fun d' hs ↦ h.createMap hs
  | sendToPlaytest code difficulty => exact h.after fun d' hs ↦ h.sendToPlaytest hs
  | associate playtestId threadId =>
      apply h.after
      intro d' hs
      rw [associatePlaytestMeta] at hs
      split at hs
      · rename_i hassociated
        cases hs
        exact h.associateThread hassociated
      · cases hs
  | approve threadId hasPrimaryCreator =>
      show MapsInv (approve threadId hasPrimaryCreator d).1
      rw [approve]
      split
      · exact h
      · split
        · exact h
        · simp only
          split
          · exact h.approvePlaytest ..
          · split
            · exact h.approvePlaytest ..
            · exact h.approvePlaytest ..
  | forceAccept threadId difficulty =>
      apply h.after
      intro d' hs
      rw [forceAccept] at hs
      split at hs
      · cases hs
        exact h.approvePlaytest ..
      · cases hs
  | forceDeny threadId =>
      apply h.after
      intro d' hs
      rw [forceDeny] at hs
      split at hs
      · cases hs
        exact h.forceDenyPlaytest ..
      · cases hs
  | setArchiveStatus codes archived =>
      apply h.after
      intro d' hs
      rw [Services.setArchiveStatus] at hs
      split at hs
      · cases hs
      · cases hs
        exact h.setArchiveStatus ..
  | updateMap code data => exact h.after fun d' hs ↦ h.updateMap hs
  | vote votes => exact h.congr rfl rfl
  | complete completions => exact h.congr rfl rfl

/-- A call keeps the agreement exactly when it meets the condition. -/
theorem playtestStep_agree_iff (h : MapsInv d) (hagree : PlaytestsAgree d) (l : PlaytestLabel) :
    PlaytestsAgree (playtestStep d l) ↔ Keeps d l := by
  obtain ⟨ok, hmove, hok⟩ := playtestStep_moves h l
  rw [playtestsAgree_iff, hmove.agree_iff (playtestsAgree_iff.mp hagree), hok]

end Calls

/-! ## Runs -/

/-- In whatever order maps are created, patched, archived and sent to playtest, and
playtests are given their threads, approved, accepted and denied by any thread: every state
of a run has one open playtest for each map in progress and none for the others exactly
when each verdict that takes effect is on the open playtest of its map, if there is one, and
no patch takes a map in or out of playtesting. -/
theorem playtestsAgree_run_iff {d₀ d : PlaytestDb} {ls : List PlaytestLabel} (hinv : MapsInv d₀)
    (hagree : PlaytestsAgree d₀) :
    Run (fun d l d' ↦ d' = playtestStep d l ∧ PlaytestsAgree d') d₀ ls d ↔
      Run (Guarded Keeps fun d l d' ↦ d' = playtestStep d l) d₀ ls d := by
  apply Run.congr (fun d ↦ MapsInv d ∧ PlaytestsAgree d)
  · rintro d l d' ⟨hinv, hagree⟩
    constructor
    · rintro ⟨rfl, hagree'⟩
      exact ⟨(playtestStep_agree_iff hinv hagree l).mp hagree', rfl⟩
    · rintro ⟨hkeeps, rfl⟩
      exact ⟨rfl, (playtestStep_agree_iff hinv hagree l).mpr hkeeps⟩
  · rintro d l d' ⟨hinv, _⟩ ⟨rfl, hagree'⟩
    exact ⟨hinv.playtestStep l, hagree'⟩
  · exact ⟨hinv, hagree⟩

theorem mapsInv_empty : MapsInv {} := by
  constructor <;> intro r hr <;> cases hr

/-- A map is playtested twice, and the second time the verdict is given in the thread of the
first. -/
def staleThread : List PlaytestLabel :=
  [.createMap { code := "AAAA", difficulty := .easy }, .associate 1 10,
    .vote [{ userId := 5, threadId := 10, difficulty := 3 }], .approve 10 true,
    .sendToPlaytest "AAAA" .easy, .associate 2 20, .forceAccept 10 .easy]

/-- The statuses of the maps, with the number of their open playtests. -/
def statuses (d : PlaytestDb) : List (PlaytestStatus × Nat) :=
  d.db.maps.rows.map fun m ↦ (m.playtesting, openPlaytests d m.id)

/-- The map is approved while its second playtest is still open. -/
theorem staleThread_not_agree : ¬ PlaytestsAgree (staleThread.foldl playtestStep {}) := by
  have hstatuses : statuses (staleThread.foldl playtestStep {}) = [(.approved, 1)] := by
    decide +kernel
  intro hagree
  have hmem : (PlaytestStatus.approved, 1) ∈ statuses (staleThread.foldl playtestStep {}) := by
    rw [hstatuses]
    exact List.mem_singleton_self _
  obtain ⟨m, hm, heq⟩ := List.mem_map.mp hmem
  obtain ⟨hstatus, hopen⟩ := Prod.mk.inj heq
  have hnone := hagree m hm
  rw [hstatus, if_neg (by decide)] at hnone
  omega

/-- The rule at that run. -/
theorem staleThread_run_iff :
    (Run (fun d l d' ↦ d' = playtestStep d l ∧ PlaytestsAgree d') {} staleThread
        (staleThread.foldl playtestStep {}) ↔
      Run (Guarded Keeps fun d l d' ↦ d' = playtestStep d l) {} staleThread
        (staleThread.foldl playtestStep {})) :=
  playtestsAgree_run_iff mapsInv_empty fun m hm ↦ by cases hm

end Genjishimada.Maps
