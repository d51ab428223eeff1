import Genjishimada.Repository.Tags

/-!
# The tags service

Batches of operations on the tags, as in `services/tags_service.py`: one operation after the other,
each with a result of its own, and an exception is the result of its operation alone.  The text of a
database error is a parameter.  The search sorts and cuts what its conditions select; what `%` finds
similar, and the order, are the database's.
-/

namespace Genjishimada.Services

open Library Repository

/-- `TagOp` -/
inductive TagOp where
  | create (guildId : Nat) (name content : String) (ownerId : Nat)
  | addAlias (guildId : Nat) (newName oldName : String) (ownerId : Nat)
  | edit (guildId : Nat) (name newContent : String) (ownerId : Nat)
  | remove (guildId : Nat) (name : String) (requesterId : Nat)
  | removeById (guildId tagId requesterId : Nat)
  | incrementUsage (guildId : Nat) (name : String)
  | transfer (guildId : Nat) (name : String) (newOwnerId requesterId : Nat)
  | purge (guildId ownerId requesterId : Nat)
  | claim (guildId : Nat) (name : String) (requesterId : Nat)
deriving DecidableEq, Repr

structure TagsMutateResult where
  ok : Bool
  message : Option String := none
  affected : Option Nat := none
  tagId : Option Nat := none
deriving DecidableEq, Repr

/-- What the database does with texts: `lower`, the trigram operator `%`, and the text of an error of
a unique index. -/
structure TagTexts where
  lower : String → String
  similar : String → String → Bool
  str : TagIndex → String

section Mutate

variable (texts : TagTexts)

/-- `_execute_op` -/
def executeOp (now : Int) (op : TagOp) (db : TagDb) : TagsMutateResult × TagDb :=
  match op with
  | .create guildId name content ownerId =>
      match db.createTag texts.lower guildId name content ownerId now with
      | (.ok tagId, db') => ({ ok := true, tagId := some tagId, message := some "Tag created" }, db')
      | (.error e, db') => ({ ok := false, message := some (texts.str e) }, db')
  | .addAlias guildId newName oldName ownerId =>
      match db.createAlias texts.lower guildId newName oldName ownerId now with
      | (.ok affected, db') =>
          ({ ok := true, affected := some affected, message := some "Alias created" }, db')
      | (.error e, db') => ({ ok := false, message := some (texts.str e) }, db')
  | .edit guildId name newContent ownerId =>
      let (affected, db') := db.editTag texts.lower guildId name newContent ownerId
      ({ ok := true, affected := some affected, message := some "Tag edited" }, db')
  | .remove guildId name _ =>
      let (found, db') := db.removeTagByName texts.lower guildId name
      if found then ({ ok := true, message := some "Tag deleted" }, db')
      else ({ ok := false, message := some "Tag not found" }, db')
  | .removeById guildId tagId _ =>
      let (affected, db') := db.removeTagById guildId tagId
      ({ ok := true, affected := some affected, message := some "Tag deleted" }, db')
  | .incrementUsage guildId name =>
      ({ ok := true, message := some "Usage incremented" }, db.incrementUsage texts.lower guildId name)
  | .transfer guildId name newOwnerId requesterId =>
      let (found, db') := db.transferTag texts.lower guildId name newOwnerId requesterId
      if found then ({ ok := true, message := some "Ownership transferred" }, db')
      else ({ ok := false, message := some "No permission or tag not found" }, db')
  | .purge guildId ownerId _ =>
      let (affected, db') := db.purgeTags guildId ownerId
      ({ ok := true, affected := some affected, message := some "User purged" }, db')
  | .claim guildId name requesterId =>
      let (found, db') := db.claimTag texts.lower guildId name requesterId
      if found then ({ ok := true, message := some "Tag claimed" }, db')
      else ({ ok := false, message := some "Tag not found" }, db')

/-- `mutate_tags`, each operation at its time. -/
def mutateTags : List (Int × TagOp) → TagDb → List TagsMutateResult × TagDb
  | [], db => ([], db)
  | (now, op) :: ops, db =>
      let (result, db₁) := executeOp texts now op db
      let (results, db') := mutateTags ops db₁
      (result :: results, db')

end Mutate

/-! ## Search -/

inductive TagSortBy where
  | name | uses | createdAt
deriving DecidableEq, Repr

structure TagsSearchFilters where
  guildId : Nat
  name : Option String := none
  fuzzy : Bool := false
  includeAliases : Bool := true
  onlyAliases : Bool := false
  ownerId : Option Nat := none
  random : Bool := false
  byId : Option Nat := none
  includeContent : Bool := false
  includeRank : Bool := false
  sortBy : TagSortBy := .name
  descending : Bool := false
  limit : Nat := 20
  offset : Nat := 0
deriving DecidableEq, Repr

/-- `TagRowDTO` -/
structure TagRow where
  id : Nat
  guildId : Nat
  name : String
  ownerId : Nat
  isAlias : Bool
  canonicalName : String
  uses : Nat
  content : Option String
  rank : Option Nat
deriving DecidableEq, Repr

structure TagsSearchResponse where
  items : List TagRow
  total : Nat
  suggestions : Option (List String)
deriving DecidableEq, Repr

section Search

variable (texts : TagTexts) (filters : TagsSearchFilters)

/-- `FROM tag_lookup tl INNER JOIN tags t ON tl.tag_id = t.id` -/
def tagJoin (db : TagDb) : List (TagLookup × Tag) :=
  db.lookups.rows.filterMap fun tl ↦ (db.tags.get? tl.tagId).map fun t ↦ (tl, t)

/-- `_build_where_clauses` -/
def tagWhere (row : TagLookup × Tag) : Bool :=
  row.1.locationId = filters.guildId
    && filters.byId.all (fun id ↦ row.2.id = id)
    && filters.name.all (fun name ↦
      if filters.fuzzy then texts.similar row.1.name name
      else decide (texts.lower row.1.name = texts.lower name))
    && filters.ownerId.all (fun ownerId ↦ row.1.ownerId = ownerId)
    && (if filters.onlyAliases then decide (row.1.tagId ≠ row.2.id)
      else if !filters.includeAliases then decide (row.1.tagId = row.2.id)
      else true)

/-- A row of the result, as `_build_select_cols` has it. -/
def tagRow (rank : Nat) (row : TagLookup × Tag) : TagRow where
  id := row.1.id
  guildId := row.1.locationId
  name := row.1.name
  ownerId := row.1.ownerId
  isAlias := row.1.tagId ≠ row.2.id
  canonicalName := row.2.name
  uses := row.2.uses
  content := if filters.includeContent then some row.2.content else none
  rank := if filters.includeRank then some rank else none

/-- `search_tags`; `arrange` puts the rows in the order of the query, numbered, and `suggest` is
`_suggest_tags`. -/
def searchTags (arrange : List (TagLookup × Tag) → List (Nat × TagLookup × Tag))
    (suggest : Nat → String → List String) (db : TagDb) : TagsSearchResponse :=
  let rows := arrange ((tagJoin db).filter (tagWhere texts filters))
  let items := ((rows.drop filters.offset).take filters.limit).map fun row ↦
    tagRow filters row.1 row.2
  { items, total := items.length
    suggestions := match filters.name with
      | some name => if items = [] ∧ name ≠ "" ∧ ¬ filters.fuzzy
          then some (suggest filters.guildId name) else none
      | none => none }

/-- `TagEntry` of the bot. -/
structure TagEntry where
  id : Nat
  name : String
  content : String
deriving DecidableEq, Repr

/-- `get_tag` of the bot, with the text of the `RuntimeError` it raises. -/
def getTag (texts : TagTexts)
    (arrange : List (TagLookup × Tag) → List (Nat × TagLookup × Tag))
    (suggest : Nat → String → List String) (guildId : Nat) (name : String) (db : TagDb) :
    Except String TagEntry :=
  let response := searchTags texts
    { guildId, name := some name, includeContent := true, limit := 1 } arrange suggest db
  match response.items with
  | item :: _ => .ok { id := item.id, name := item.name, content := item.content.getD "" }
  | [] =>
      match response.suggestions with
      | some (suggestion :: suggestions) =>
          .error ("Tag not found. Did you mean...\n" ++
            "\n".intercalate (suggestion :: suggestions))
      | some [] | none => .error "Tag not found."

end Search

end Genjishimada.Services
