import Genjishimada.Library.Program
import Genjishimada.Repository.Content

/-!
# `services/content_service.py`

The calls that create, delete and reorder categories, difficulties and techniques.  A delete and
a reorder do the same for each of the three lists: they are written once, over the functions of
the repository that serve a list.  A call that raises leaves the tables as they were, except that
identity values are not given back.
-/

namespace Genjishimada.Services.ContentService

open Library Repository

/-- What a call of the service raises. -/
inductive ContentError where
  | duplicateName (message : String)
  | categoryNotFound (message : String)
  | difficultyNotFound (message : String)
  | techniqueNotFound (message : String)
  | /-- `ForeignKeyViolationError` of `content.movement_techniques` -/
    foreignKeyViolation
deriving DecidableEq, Repr

/-- A call, from the tables before to those after. -/
abbrev ContentM := EStateM ContentError ContentTables

/-- The tables of before a transaction that is rolled back. -/
def rollback (before after : ContentTables) : ContentTables where
  categories := before.categories.skipTo after.categories.nextId
  difficulties := before.difficulties.skipTo after.difficulties.nextId
  techniques := before.techniques.skipTo after.techniques.nextId
  tips := before.tips.skipTo after.tips.nextId
  videos := before.videos.skipTo after.videos.nextId

/-! ## Deleting and reordering -/

inductive Direction where
  | up | down
deriving DecidableEq, Repr

/-- The functions of the repository that serve one of the lists.  A `Scan` is how a query saw rows
that its sorts cannot tell apart. -/
structure OrderedList (Scan β : Type) where
  fetch : ContentTables → Scan → List β
  delete : ContentTables → Nat → Bool × ContentTables
  swapOrder : ContentTables → Nat → Nat → ContentTables
  normalizeOrder : ContentTables → Scan → ContentTables
  notFound : Nat → ContentError

/-- How the queries of one reorder saw the rows. -/
structure ReorderScans (Scan : Type) where
  shown : Scan
  numbered : Scan
  returned : Scan

/-- The id that `direction` exchanges `x` with; `none` at the boundary. -/
def neighborId (ids : List Nat) (x : Nat) (direction : Direction) : Option Nat :=
  let idx := ids.idxOf x
  match direction with
  | .up => if idx = 0 then none else ids[idx - 1]?
  | .down => if idx = ids.length - 1 then none else ids[idx + 1]?

variable {Scan β : Type} [Positioned β]

/-- What `delete_category`, `delete_difficulty` and `delete_technique` do. -/
def deleteFrom (q : OrderedList Scan β) (scan : Scan) (x : Nat) : ContentM PUnit :=
  transaction rollback do
    let deleted ← modifyGet fun t ↦ q.delete t x
    if !deleted then throw (q.notFound x)
    modify fun t ↦ q.normalizeOrder t scan

/-- What `reorder_category`, `reorder_difficulty` and `reorder_technique` do. -/
def reorderIn (q : OrderedList Scan β) (scans : ReorderScans Scan) (x : Nat)
    (direction : Direction) : ContentM (List β) := do
  let unmoved ← transaction rollback do
    let rows := q.fetch (← get) scans.shown
    let ids := rows.map key
    if x ∉ ids then throw (q.notFound x)
    match neighborId ids x direction with
    | none => return some rows
    | some neighbor =>
        modify fun t ↦ q.swapOrder t x neighbor
        modify fun t ↦ q.normalizeOrder t scans.numbered
        return none
  match unmoved with
  | some rows => return rows
  | none => return q.fetch (← get) scans.returned

/-! ## The calls -/

/-- The categories. -/
def categories : OrderedList (Shuffle LevelRow) LevelRow where
  fetch := ContentTables.fetchCategories
  delete := ContentTables.deleteCategory
  swapOrder := ContentTables.swapCategorySortOrder
  normalizeOrder := ContentTables.normalizeCategorySortOrder
  notFound id := .categoryNotFound ("Category " ++ toString id ++ " not found.")

/-- The difficulties. -/
def difficulties : OrderedList (Shuffle LevelRow) LevelRow where
  fetch := ContentTables.fetchDifficulties
  delete := ContentTables.deleteDifficulty
  swapOrder := ContentTables.swapDifficultySortOrder
  normalizeOrder := ContentTables.normalizeDifficultySortOrder
  notFound id := .difficultyNotFound ("Difficulty " ++ toString id ++ " not found.")

/-- The techniques. -/
def techniques : OrderedList TechniqueScan Technique where
  fetch := ContentTables.fetchTechniques
  delete := ContentTables.deleteTechnique
  swapOrder := ContentTables.swapTechniqueDisplayOrder
  normalizeOrder := ContentTables.normalizeTechniqueDisplayOrder
  notFound id := .techniqueNotFound ("Technique " ++ toString id ++ " not found.")

/-- `create_category` -/
def createCategory (name : String) : ContentM LevelRow := do
  match ← modifyGet fun t ↦ t.createCategory name with
  | some row => return row
  | none => throw (.duplicateName ("A category named '" ++ name ++ "' already exists."))

/-- `create_difficulty` -/
def createDifficulty (name : String) : ContentM LevelRow := do
  match ← modifyGet fun t ↦ t.createDifficulty name with
  | some row => return row
  | none => throw (.duplicateName ("A difficulty named '" ++ name ++ "' already exists."))

/-- The arguments of `create_technique`. -/
structure TechniqueCreate where
  name : String
  description : Option String := none
  instructions : Option String := none
  categoryId : Option Nat := none
  difficultyId : Option Nat := none
  tips : List (String × Int) := []
  videos : List (String × Option String × Int) := []

/-- `create_technique` -/
def createTechnique (scan : TechniqueScan) (data : TechniqueCreate) : ContentM (Option Technique) :=
  transaction rollback do
    let row ← modifyGet fun t ↦ t.createTechnique data.name data.description data.instructions
      data.categoryId data.difficultyId
    match row with
    | none => throw .foreignKeyViolation
    | some row =>
        modify fun t ↦ t.insertTechniqueTips row.id data.tips
        modify fun t ↦ t.insertTechniqueVideos row.id data.videos
        return (← get).fetchTechniqueById scan row.id

/-- `delete_category` -/
def deleteCategory : Shuffle LevelRow → Nat → ContentM PUnit := deleteFrom categories

/-- `reorder_category` -/
def reorderCategory : ReorderScans (Shuffle LevelRow) → Nat → Direction → ContentM (List LevelRow) :=
  reorderIn categories

/-- `delete_difficulty` -/
def deleteDifficulty : Shuffle LevelRow → Nat → ContentM PUnit := deleteFrom difficulties

/-- `reorder_difficulty` -/
def reorderDifficulty :
    ReorderScans (Shuffle LevelRow) → Nat → Direction → ContentM (List LevelRow) :=
  reorderIn difficulties

/-- `delete_technique` -/
def deleteTechnique : TechniqueScan → Nat → ContentM PUnit := deleteFrom techniques

/-- `reorder_technique` -/
def reorderTechnique : ReorderScans TechniqueScan → Nat → Direction → ContentM (List Technique) :=
  reorderIn techniques

/-- A call that creates, deletes or reorders, with how its queries saw the rows. -/
inductive ContentCall where
  | createCategory (name : String)
  | createDifficulty (name : String)
  | createTechnique (scan : TechniqueScan) (data : TechniqueCreate)
  | deleteCategory (scan : Shuffle LevelRow) (categoryId : Nat)
  | deleteDifficulty (scan : Shuffle LevelRow) (difficultyId : Nat)
  | deleteTechnique (scan : TechniqueScan) (techniqueId : Nat)
  | reorderCategory (scans : ReorderScans (Shuffle LevelRow)) (categoryId : Nat)
      (direction : Direction)
  | reorderDifficulty (scans : ReorderScans (Shuffle LevelRow)) (difficultyId : Nat)
      (direction : Direction)
  | reorderTechnique (scans : ReorderScans TechniqueScan) (techniqueId : Nat)
      (direction : Direction)

/-- The tables after a call, whether it returns or raises. -/
def ContentCall.after (t : ContentTables) : ContentCall → ContentTables
  | createCategory name => final (ContentService.createCategory name t)
  | createDifficulty name => final (ContentService.createDifficulty name t)
  | createTechnique scan data => final (ContentService.createTechnique scan data t)
  | deleteCategory scan id => final (ContentService.deleteCategory scan id t)
  | deleteDifficulty scan id => final (ContentService.deleteDifficulty scan id t)
  | deleteTechnique scan id => final (ContentService.deleteTechnique scan id t)
  | reorderCategory scans id direction =>
      final (ContentService.reorderCategory scans id direction t)
  | reorderDifficulty scans id direction =>
      final (ContentService.reorderDifficulty scans id direction t)
  | reorderTechnique scans id direction =>
      final (ContentService.reorderTechnique scans id direction t)

end Genjishimada.Services.ContentService
