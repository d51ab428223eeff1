import Genjishimada.Library.Ordering

/-!
# The movement techniques

The tables of the `content` schema and the statements of `repository/content_repository.py` that
list, create, delete and reorder their rows.  A category and a difficulty are rows of one shape;
each statement of theirs is written once for a table of such rows and named for both tables.
-/

namespace Genjishimada.Repository

open Library

/-- A row of `content.movement_tech_categories` or `content.movement_tech_difficulties`. -/
structure LevelRow where
  id : Nat
  name : String
  sortOrder : Nat
deriving DecidableEq, Repr

instance : Positioned LevelRow where
  key := LevelRow.id
  pos := LevelRow.sortOrder
  setPos n r := { r with sortOrder := n }
  pos_setPos _ _ := rfl
  key_setPos _ _ := rfl
  setPos_setPos _ _ _ := rfl
  setPos_pos _ := rfl

/-- A row of `content.movement_techniques`. -/
structure TechniqueRow where
  id : Nat
  name : String
  description : Option String
  instructions : Option String
  displayOrder : Nat
  categoryId : Option Nat
  difficultyId : Option Nat
deriving DecidableEq, Repr

instance : Positioned TechniqueRow where
  key := TechniqueRow.id
  pos := TechniqueRow.displayOrder
  setPos n r := { r with displayOrder := n }
  pos_setPos _ _ := rfl
  key_setPos _ _ := rfl
  setPos_setPos _ _ _ := rfl
  setPos_pos _ := rfl

/-- A row of `content.movement_tech_tips`. -/
structure TipRow where
  id : Nat
  techniqueId : Nat
  text : String
  sortOrder : Int
deriving DecidableEq, Repr

instance : Keyed TipRow := ⟨TipRow.id⟩

/-- A row of `content.movement_tech_videos`. -/
structure VideoRow where
  id : Nat
  techniqueId : Nat
  url : String
  caption : Option String
  sortOrder : Int
deriving DecidableEq, Repr

instance : Keyed VideoRow := ⟨VideoRow.id⟩

/-- The tables of the schema `content`. -/
structure ContentTables where
  categories : Table LevelRow := .empty
  difficulties : Table LevelRow := .empty
  techniques : Table TechniqueRow := .empty
  tips : Table TipRow := .empty
  videos : Table VideoRow := .empty

/-- What `fetch_techniques` returns of a technique. -/
structure Technique where
  id : Nat
  name : String
  description : Option String
  instructions : Option String
  displayOrder : Nat
  categoryId : Option Nat
  categoryName : Option String
  difficultyId : Option Nat
  difficultyName : Option String
  /-- The id, the text and the order of each tip. -/
  tips : List (Nat × String × Int)
  /-- The id, the URL, the caption and the order of each video. -/
  videos : List (Nat × String × Option String × Int)
deriving DecidableEq, Repr

instance : Positioned Technique where
  key := Technique.id
  pos := Technique.displayOrder
  setPos n r := { r with displayOrder := n }
  pos_setPos _ _ := rfl
  key_setPos _ _ := rfl
  setPos_setPos _ _ _ := rfl
  setPos_pos _ := rfl

/-- The orders in which `fetch_techniques` sees rows that its sorts cannot tell apart. -/
structure TechniqueScan where
  rows : Shuffle TechniqueRow := default
  tips : Shuffle TipRow := default
  videos : Shuffle VideoRow := default

namespace ContentTables

variable (t : ContentTables)

/-! ## Categories and difficulties -/

/-- `fetch_categories` -/
def fetchCategories (scan : Shuffle LevelRow) : List LevelRow := listing scan t.categories

/-- `fetch_difficulties` -/
def fetchDifficulties (scan : Shuffle LevelRow) : List LevelRow := listing scan t.difficulties

/-- `INSERT INTO … (name, sort_order)`; no row is created if the name is taken. -/
def createLevel (levels : Table LevelRow) (name : String) : Option LevelRow × Table LevelRow :=
  if levels.rows.any (·.name = name) then (none, levels.skipTo (levels.nextId + 1))
  else
    let mk (id : Nat) : LevelRow := { id, name, sortOrder := nextPosition levels }
    (some (mk levels.nextId), levels.insert mk)

/-- `create_category` -/
def createCategory (name : String) : Option LevelRow × ContentTables :=
  let (row, categories) := createLevel t.categories name
  (row, { t with categories })

/-- `create_difficulty` -/
def createDifficulty (name : String) : Option LevelRow × ContentTables :=
  let (row, difficulties) := createLevel t.difficulties name
  (row, { t with difficulties })

/-- `delete_category`: whether there was one; its techniques have no category any more. -/
def deleteCategory (categoryId : Nat) : Bool × ContentTables :=
  ((t.categories.get? categoryId).isSome, { t with
    categories := t.categories.delete fun c ↦ c.id = categoryId
    techniques := t.techniques.modify (fun r ↦ r.categoryId = some categoryId)
      (fun r ↦ { r with categoryId := none }) })

/-- `delete_difficulty`: whether there was one; its techniques have no difficulty any more. -/
def deleteDifficulty (difficultyId : Nat) : Bool × ContentTables :=
  ((t.difficulties.get? difficultyId).isSome, { t with
    difficulties := t.difficulties.delete fun d ↦ d.id = difficultyId
    techniques := t.techniques.modify (fun r ↦ r.difficultyId = some difficultyId)
      (fun r ↦ { r with difficultyId := none }) })

/-- `normalize_category_sort_order` -/
def normalizeCategorySortOrder (scan : Shuffle LevelRow) : ContentTables :=
  { t with categories := normalize scan t.categories }

/-- `normalize_difficulty_sort_order` -/
def normalizeDifficultySortOrder (scan : Shuffle LevelRow) : ContentTables :=
  { t with difficulties := normalize scan t.difficulties }

/-- `swap_category_sort_order` -/
def swapCategorySortOrder (idA idB : Nat) : ContentTables :=
  { t with categories := swapPositions idA idB t.categories }

/-- `swap_difficulty_sort_order` -/
def swapDifficultySortOrder (idA idB : Nat) : ContentTables :=
  { t with difficulties := swapPositions idA idB t.difficulties }

/-! ## Techniques -/

/-- A technique with the names of its category and its difficulty, its tips and its videos. -/
def technique (scan : TechniqueScan) (r : TechniqueRow) : Technique where
  id := r.id
  name := r.name
  description := r.description
  instructions := r.instructions
  displayOrder := r.displayOrder
  categoryId := r.categoryId
  categoryName := (r.categoryId.bind t.categories.get?).map (·.name)
  difficultyId := r.difficultyId
  difficultyName := (r.difficultyId.bind t.difficulties.get?).map (·.name)
  tips := (orderBy TipRow.sortOrder (scan.tips.order (t.tips.select (·.techniqueId = r.id)))).map
    fun tip ↦ (tip.id, tip.text, tip.sortOrder)
  videos := (orderBy VideoRow.sortOrder
    (scan.videos.order (t.videos.select (·.techniqueId = r.id)))).map
      fun vid ↦ (vid.id, vid.url, vid.caption, vid.sortOrder)

/-- `fetch_techniques` -/
def fetchTechniques (scan : TechniqueScan) : List Technique :=
  (listing scan.rows t.techniques).map (t.technique scan)

/-- `fetch_technique_by_id` -/
def fetchTechniqueById (scan : TechniqueScan) (techniqueId : Nat) : Option Technique :=
  (t.techniques.get? techniqueId).map (t.technique scan)

/-- `create_technique`; no row is created if the category or the difficulty is not there. -/
def createTechnique (name : String) (description instructions : Option String)
    (categoryId difficultyId : Option Nat) : Option TechniqueRow × ContentTables :=
  if categoryId.all (fun id ↦ (t.categories.get? id).isSome) ∧
      difficultyId.all (fun id ↦ (t.difficulties.get? id).isSome) then
    let mk (id : Nat) : TechniqueRow :=
      { id, name, description, instructions, displayOrder := nextPosition t.techniques
        categoryId, difficultyId }
    (some (mk t.techniques.nextId), { t with techniques := t.techniques.insert mk })
  else (none, { t with techniques := t.techniques.skipTo (t.techniques.nextId + 1) })

/-- `insert_technique_tips` -/
def insertTechniqueTips (techniqueId : Nat) (tips : List (String × Int)) : ContentTables :=
  { t with
    tips := tips.foldl (fun rows tip ↦
      rows.insert fun id ↦ { id, techniqueId, text := tip.1, sortOrder := tip.2 }) t.tips }

/-- `insert_technique_videos` -/
def insertTechniqueVideos (techniqueId : Nat) (videos : List (String × Option String × Int)) :
    ContentTables :=
  { t with
    videos := videos.foldl (fun rows vid ↦ rows.insert fun id ↦
      { id, techniqueId, url := vid.1, caption := vid.2.1, sortOrder := vid.2.2 }) t.videos }

/-- `delete_technique`: whether there was one; its tips and videos go with it. -/
def deleteTechnique (techniqueId : Nat) : Bool × ContentTables :=
  ((t.techniques.get? techniqueId).isSome, { t with
    techniques := t.techniques.delete fun r ↦ r.id = techniqueId
    tips := t.tips.delete (·.techniqueId = techniqueId)
    videos := t.videos.delete (·.techniqueId = techniqueId) })

/-- `swap_technique_display_order` -/
def swapTechniqueDisplayOrder (idA idB : Nat) : ContentTables :=
  { t with techniques := swapPositions idA idB t.techniques }

/-- `normalize_technique_display_order` -/
def normalizeTechniqueDisplayOrder (scan : TechniqueScan) : ContentTables :=
  { t with techniques := normalize scan.rows t.techniques }

end ContentTables

end Genjishimada.Repository
