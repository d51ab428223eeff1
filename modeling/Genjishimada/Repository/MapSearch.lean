import Genjishimada.Library.Paging
import Genjishimada.Library.Ranking
import Genjishimada.Schema
import Mathlib.Algebra.Order.Ring.Rat

/-!
# `utilities/map_search.py`

`MapSearchSQLSpecBuilder` puts a query together out of one CTE for each filter that looks at
another table, the intersection of these, and a `WHERE` for the filters on the map and on its
playtest.  Of the columns it selects only `total_results` is kept: the others belong to
the map.
-/

namespace Genjishimada.Repository

open Library Sdk

/-! ## The tables -/

/-- A row of `core.maps`, with the columns the search reads besides. -/
structure MapRow extends CoreMap where
  hidden : Bool := false
  checkpoints : Nat := 0
  title : Option String := none
deriving DecidableEq, Repr

instance instKeyedMapRow : Keyed MapRow := ⟨fun m ↦ m.id⟩

/-- A row of `maps.mechanics`, `maps.restrictions` or `maps.tags`. -/
structure Label where
  id : Nat
  name : String
deriving DecidableEq, Repr

instance instKeyedLabel : Keyed Label := ⟨Label.id⟩

/-- One of these tables, with the table that links it to the maps. -/
structure Labels where
  labels : Table Label := .empty
  /-- `name text UNIQUE` -/
  names : (labels.rows.map Label.name).Nodup := by decide
  /-- The map and the label. -/
  links : List (Nat × Nat) := []
  /-- `PRIMARY KEY (map_id, …_id)` -/
  nodup : links.Nodup := by decide

/-- A row of `core.users`, with the user's `users.overwatch_usernames`. -/
structure UserNames where
  nickname : Option String := none
  globalName : Option String := none
  usernames : List String := []
deriving DecidableEq, Repr

/-- A row of `maps.ratings`. -/
structure Rating where
  mapId : Nat
  quality : Option Nat
  verified : Option Bool
deriving DecidableEq, Repr

/-- A row of `playtests.meta`. -/
structure PlaytestMeta where
  mapId : Nat
  threadId : Option Nat := none
  verificationId : Option Nat := none
  createdAt : Option Int := some 0
  completed : Option Bool := some false
deriving DecidableEq, Repr

structure MapsDb where
  maps : Table MapRow := .empty
  mechanics : Labels := {}
  restrictions : Labels := {}
  tags : Labels := {}
  /-- `maps.creators`: the map and the user. -/
  creators : List (Nat × Nat) := []
  /-- `PRIMARY KEY (map_id, user_id)` -/
  creators_nodup : creators.Nodup := by decide
  users : Nat → UserNames := fun _ ↦ {}
  ratings : List Rating := []
  medals : Table MedalThresholds := .empty
  completions : Table CoreCompletion := .empty
  playtests : List PlaytestMeta := []

/-- What the search leaves to the database and its driver. -/
structure Backend where
  /-- `text ILIKE pattern` -/
  ilike : String → String → Bool
  /-- The `numeric` that a Python `float` is bound as. -/
  numeric : Rat → Rat
  /-- The collation. -/
  textLe : String → String → Bool
  textLe_total : ∀ a b, textLe a b = true ∨ textLe b a = true
  textLe_trans : ∀ a b c, textLe a b = true → textLe b c = true → textLe a c = true

/-! ## The filters -/

/-- `_TriFilter` -/
inductive TriFilter where
  | all
  | /-- "With" -/
    present
  | /-- "Without" -/
    absent
deriving DecidableEq, Repr

inductive PlaytestFilter where
  | all
  | only
  | none
deriving DecidableEq, Repr

inductive SortColumn where
  | difficulty | checkpoints | ratings | mapName | title | code
deriving DecidableEq, Repr

inductive Direction where
  | asc | desc
deriving DecidableEq, Repr

/-- `SortKey` -/
structure SortKey where
  column : SortColumn
  direction : Direction
deriving DecidableEq, Repr

/-- An empty list stands for `None` too, as no code tells them apart. -/
structure MapSearchFilters where
  playtesting : Option PlaytestStatus := none
  archived : Option Bool := none
  hidden : Option Bool := none
  official : Option Bool := none
  playtestThreadId : Option Nat := none
  code : Option String := none
  mapId : Option Nat := none
  category : List String := []
  mapName : List String := []
  sort : List SortKey := []
  creatorIds : List Nat := []
  creatorNames : List String := []
  mechanics : List String := []
  restrictions : List String := []
  tags : List String := []
  difficultyExact : Option DifficultyTop := none
  difficultyRangeMin : Option DifficultyTop := none
  difficultyRangeMax : Option DifficultyTop := none
  finalizedPlaytests : Option Bool := none
  minimumQuality : Option Int := none
  userId : Option Nat := none
  medalFilter : TriFilter := .all
  completionFilter : TriFilter := .all
  playtestFilter : PlaytestFilter := .all
  returnAll : Bool := false
  forceFilters : Bool := false
  pageSize : Nat := 10
  pageNumber : Int := 1
deriving DecidableEq, Repr

namespace MapSearchFilters

/-- `validate` does not raise. -/
def Valid (f : MapSearchFilters) : Prop :=
  ¬ (f.difficultyExact.isSome ∧ (f.difficultyRangeMin.isSome ∨ f.difficultyRangeMax.isSome)) ∧
    ¬ (f.creatorIds ≠ [] ∧ f.creatorNames ≠ [])

instance instDecidableValid (f : MapSearchFilters) : Decidable f.Valid :=
  inferInstanceAs (Decidable (_ ∧ _))

/-- `if self._filters.…:` of an id. -/
def given (id : Option Nat) : Option Nat := id.filter fun n ↦ n ≠ 0

/-- `code`, if it is not empty. -/
def givenCode (f : MapSearchFilters) : Option String := f.code.filter fun code ↦ code ≠ ""

/-- The search is for one map, and skips the filters that need a CTE. -/
def skipsCtes (f : MapSearchFilters) : Bool :=
  (f.givenCode.isSome || (given f.mapId).isSome) && !f.forceFilters

end MapSearchFilters

/-- `MapSearchSQLSpecBuilder`: filters that have been validated. -/
structure MapSearchSQLSpecBuilder where
  filters : MapSearchFilters
  valid : filters.Valid

/-- `__init__` -/
def MapSearchSQLSpecBuilder.init (filters : MapSearchFilters) :
    Except String MapSearchSQLSpecBuilder :=
  if h : filters.Valid then .ok ⟨filters, h⟩
  else if filters.difficultyExact.isSome ∧
      (filters.difficultyRangeMin.isSome ∨ filters.difficultyRangeMax.isSome) then
    .error "Cannot use exact difficulty with range-based filtering"
  else .error "Cannot use creator_ids and creator_names simultaneously"

/-! ## The CTEs -/

section Query

variable (backend : Backend) (f : MapSearchFilters) (db : MapsDb)

/-- `_build_mechanics_ctes`, `_build_restrictions_ctes` and `_build_tags_ctes`: the maps linked to
the label of the name. -/
def labelCte (labels : Labels) (name : String) : List Nat :=
  (labels.links.filter fun link ↦
    (labels.labels.get? link.2).any fun label ↦ label.name = name).map Prod.fst

/-- `_build_creator_ids_cte` -/
def creatorIdsCte : Option (List Nat) :=
  if f.creatorIds = [] then none
  else some ((db.creators.filter fun c ↦ c.2 ∈ f.creatorIds).map Prod.fst)

/-- A name of the user matches. -/
def nameMatches (user : UserNames) (name : String) : Bool :=
  let pattern := "%" ++ name ++ "%"
  user.nickname.any (backend.ilike · pattern) || user.globalName.any (backend.ilike · pattern) ||
    user.usernames.any (backend.ilike · pattern)

/-- `_build_creator_names_ctes`, of one name. -/
def creatorNameCte (name : String) : List Nat :=
  distinctOn id ((db.creators.filter fun c ↦ nameMatches backend (db.users c.2) name).map Prod.fst)

/-- `avg(quality)` of some ratings. -/
def avgQuality (ratings : List Rating) : Option Rat :=
  let qualities := ratings.filterMap Rating.quality
  if qualities = [] then none else some ((qualities.foldl (· + ·) 0 : Nat) / (qualities.length : Nat))

/-- `_build_minimum_quality_cte` -/
def minimumQualityCte : Option (List Nat) :=
  f.minimumQuality.map fun minimum : Int ↦
    let verified := db.ratings.filter fun r ↦ r.verified = some true
    (distinctOn id (verified.map Rating.mapId)).filter fun mapId ↦
      (avgQuality (verified.filter fun r ↦ r.mapId = mapId)).any fun avg ↦ (minimum : Rat) ≤ avg

/-- `_build_medals_cte` -/
def medalsCte : Option (List Nat) :=
  match f.medalFilter with
  | .all => none
  | .present => some (db.medals.rows.map MedalThresholds.mapId)
  | .absent => some ((db.maps.rows.filter fun m ↦
      db.medals.rows.all fun med ↦ med.mapId ≠ m.id).map fun m ↦ m.id)

/-- The verified runs of a user that are no legacy runs. -/
def userCompletions (userId : Nat) : List CoreCompletion :=
  db.completions.select fun c ↦ c.userId = userId && c.verified && !c.legacy

/-- `_build_completions_cte` -/
def completionsCte : Option (List Nat) :=
  (MapSearchFilters.given f.userId).bind fun userId ↦
    match f.completionFilter with
    | .all => none
    | .present => some (distinctOn id ((userCompletions db userId).map CoreCompletion.mapId))
    | .absent => some ((db.maps.rows.filter fun m ↦
        (userCompletions db userId).all fun c ↦ c.mapId ≠ m.id).map fun m ↦ m.id)

/-- `_build_ctes`, without the intersection. -/
def buildCtes : List (List Nat) :=
  if f.skipsCtes then []
  else
    f.mechanics.map (labelCte db.mechanics) ++ f.restrictions.map (labelCte db.restrictions) ++
      f.tags.map (labelCte db.tags) ++ (creatorIdsCte f db).toList ++
      f.creatorNames.map (creatorNameCte backend db) ++ (minimumQualityCte f db).toList ++
      (medalsCte f db).toList ++ (completionsCte f db).toList

/-- `INTERSECT`, which keeps one row of each value. -/
def intersect (a b : List Nat) : List Nat := distinctOn id (a.filter (· ∈ b))

/-- `_build_intersection_cte` -/
def intersectionCte : List (List Nat) → Option (List Nat)
  | [] => none
  | cte :: ctes => some (ctes.foldl intersect cte)

/-! ## The playtest of a map -/

/-- `le` on values that may be NULL, `NULLS FIRST`. -/
def nullsFirst {α : Type} (le : α → α → Bool) : Option α → Option α → Bool
  | none, _ => true
  | some _, none => false
  | some a, some b => le a b

/-- The rows of a map in `_playtest_meta_subquery`. -/
def playtestMetas (mapId : Nat) : List PlaytestMeta :=
  db.playtests.filter fun p ↦ p.mapId = mapId &&
    ((MapSearchFilters.given f.playtestThreadId).isSome || p.completed = some false)

/-- What may be joined to a map as the row with `rn = 1`: one that was created last, of several
any; nothing, if the map has none. -/
def newestPlaytests (mapId : Nat) : List (Option PlaytestMeta) :=
  let metas := playtestMetas f db mapId
  if metas = [] then [none]
  else (metas.filter fun p ↦ metas.all fun q ↦
    nullsFirst (fun x y ↦ decide (y ≤ x)) p.createdAt q.createdAt).map some

/-! ## `WHERE` -/

/-- `DIFFICULTY_RANGES_TOP` -/
def difficultyRangesTop : DifficultyTop → Rat × Rat
  | .easy => (0, 235 / 100)
  | .medium => (235 / 100, 412 / 100)
  | .hard => (412 / 100, 588 / 100)
  | .veryHard => (588 / 100, 765 / 100)
  | .extreme => (765 / 100, 941 / 100)
  | .hell => (941 / 100, 10)

/-- `DIFFICULTY_RANGES_ALL` -/
def difficultyRangesAll : DifficultyAll → Rat × Rat
  | .easyMinus => (0, 118 / 100)
  | .easy => (118 / 100, 176 / 100)
  | .easyPlus => (176 / 100, 235 / 100)
  | .mediumMinus => (235 / 100, 294 / 100)
  | .medium => (294 / 100, 353 / 100)
  | .mediumPlus => (353 / 100, 412 / 100)
  | .hardMinus => (412 / 100, 471 / 100)
  | .hard => (471 / 100, 529 / 100)
  | .hardPlus => (529 / 100, 588 / 100)
  | .veryHardMinus => (588 / 100, 647 / 100)
  | .veryHard => (647 / 100, 706 / 100)
  | .veryHardPlus => (706 / 100, 765 / 100)
  | .extremeMinus => (765 / 100, 824 / 100)
  | .extreme => (824 / 100, 882 / 100)
  | .extremePlus => (882 / 100, 941 / 100)
  | .hell => (941 / 100, 10)

/-- The keys of `DIFFICULTY_RANGES_ALL`, in their order. -/
def difficultiesAll : List DifficultyAll :=
  [.easyMinus, .easy, .easyPlus, .mediumMinus, .medium, .mediumPlus, .hardMinus, .hard, .hardPlus,
    .veryHardMinus, .veryHard, .veryHardPlus, .extremeMinus, .extreme, .extremePlus, .hell]

/-- `_convert_raw_difficulty`; `none` if it raises. -/
def convertRawDifficulty {D : Type} (hell : D) (mapping : List (D × Rat × Rat)) (raw : Rat) : Option D :=
  match mapping.find? fun entry ↦ entry.2.1 ≤ raw && raw < entry.2.2 with
  | some entry => some entry.1
  | none => if raw = 10 then some hell else none

/-- `convert_raw_difficulty_to_difficulty_top` -/
def convertRawDifficultyToDifficultyTop (raw : Rat) : Option DifficultyTop :=
  convertRawDifficulty .hell
    ([.easy, .medium, .hard, .veryHard, .extreme, .hell].map fun d ↦ (d, difficultyRangesTop d)) raw

/-- `convert_raw_difficulty_to_difficulty_all` -/
def convertRawDifficultyToDifficultyAll (raw : Rat) : Option DifficultyAll :=
  convertRawDifficulty .hell (difficultiesAll.map fun d ↦ (d, difficultyRangesAll d)) raw

/-- `_get_raw_difficulty_bounds` -/
def getRawDifficultyBounds (minDifficulty maxDifficulty : Option DifficultyTop) : Rat × Rat :=
  ((difficultyRangesTop (minDifficulty.getD .easy)).1,
    (difficultyRangesTop (maxDifficulty.getD .hell)).2)

/-- The clause of `difficulty_exact`.  The lower end of `"{top} -"` and the upper end of
`"{top} +"` in `DIFFICULTY_RANGES_ALL` are the ends of the top difficulty. -/
def exactDifficulty (m : MapRow) (top : DifficultyTop) : Bool :=
  if top = .hell then m.difficulty = .hell
  else backend.numeric (difficultyRangesTop top).1 ≤ m.rawDifficulty &&
    m.rawDifficulty < backend.numeric (difficultyRangesTop top).2

/-- `_apply_where_clauses` -/
def whereClauses (m : MapRow) (pm : Option PlaytestMeta) : Bool :=
  m.code.isSome &&
  f.givenCode.all (fun code ↦ m.code = some code) &&
  (MapSearchFilters.given f.mapId).all (fun id ↦ m.id = id) &&
  f.playtesting.all (fun status ↦ m.playtesting = status) &&
  (match f.playtestFilter with
    | .all => true
    | .only => (pm.bind PlaytestMeta.threadId).isSome
    | .none => (pm.bind PlaytestMeta.threadId).isNone) &&
  (if f.difficultyRangeMin.isSome || f.difficultyRangeMax.isSome then
    let bounds := getRawDifficultyBounds f.difficultyRangeMin f.difficultyRangeMax
    decide (backend.numeric bounds.1 ≤ m.rawDifficulty) &&
      decide (m.rawDifficulty ≤ backend.numeric bounds.2)
    else true) &&
  f.difficultyExact.all (exactDifficulty backend m) &&
  f.archived.all (fun archived ↦ m.archived = archived) &&
  f.hidden.all (fun hidden ↦ m.hidden = hidden) &&
  f.official.all (fun official ↦ m.official = official) &&
  (f.mapName = [] || m.mapName ∈ f.mapName) &&
  (f.category = [] || m.category ∈ f.category) &&
  (MapSearchFilters.given f.playtestThreadId).all
    (fun thread ↦ pm.bind PlaytestMeta.threadId = some thread) &&
  (if f.finalizedPlaytests = some true then
    (pm.bind PlaytestMeta.verificationId).isSome && m.playtesting = .inProgress
    else true)

/-! ## The rows -/

/-- `FROM intersection_map_ids JOIN core.maps`, or `FROM core.maps`. -/
def fromRows : List MapRow :=
  match intersectionCte (buildCtes backend f db) with
  | none => db.maps.rows
  | some ids => ids.filterMap db.maps.get?

/-- The rows of the query, where `pick` is the playtest joined to each map. -/
def searchRows (pick : Nat → Option PlaytestMeta) : List MapRow :=
  (fromRows backend f db).filter fun m ↦ whereClauses backend f m (pick m.id)

/-- The `ratings` column. -/
def ratings (mapId : Nat) : Option Rat := avgQuality (db.ratings.filter fun r ↦ r.mapId = mapId)

/-- One key of the `ORDER BY`, `NULLS FIRST` in either direction. -/
def columnLe {α : Type} (direction : Direction) (le : α → α → Bool) (value : MapRow → Option α)
    (a b : MapRow) : Bool :=
  match direction with
  | .asc => nullsFirst le (value a) (value b)
  | .desc => nullsFirst (fun x y ↦ le y x) (value a) (value b)

/-- `sort_map` -/
def SortKey.le (key : SortKey) : MapRow → MapRow → Bool :=
  match key.column with
  | .difficulty => columnLe key.direction (fun x y ↦ decide (x ≤ y)) fun m ↦ some m.rawDifficulty
  | .checkpoints => columnLe key.direction (fun x y ↦ decide (x ≤ y)) fun m ↦ some m.checkpoints
  | .ratings => columnLe key.direction (fun x y ↦ decide (x ≤ y)) fun m ↦ ratings db m.id
  | .mapName => columnLe key.direction backend.textLe fun m ↦ some m.mapName
  | .title => columnLe key.direction backend.textLe fun m ↦ m.title
  | .code => columnLe key.direction backend.textLe fun m ↦ m.code

/-- The sort by keys, with `m.id ASC` at their end. -/
def sortLe : List SortKey → MapRow → MapRow → Prop
  | [] => fun a b ↦ a.id ≤ b.id
  | key :: keys => ThenBy (fun a b ↦ key.le backend db a b = true) (sortLe keys)

/-- `_apply_sorting` -/
def orderLe (a b : MapRow) : Prop :=
  if f.sort = [] then a.rawDifficulty ≤ b.rawDifficulty else sortLe backend db f.sort a b

/-- A row of the result. -/
structure SearchRow where
  map : MapRow
  /-- `COUNT(*) OVER()` -/
  totalResults : Nat
deriving DecidableEq, Repr

/-- `fetch_maps`, when the database orders the rows of the query as in `answer`. -/
def fetchMaps (answer : List MapRow) : List SearchRow :=
  let rows := if f.returnAll then answer
    else page f.pageSize answer (max 1 f.pageNumber - 1).toNat
  rows.map fun m ↦ { map := m, totalResults := answer.length }

end Query

end Genjishimada.Repository
