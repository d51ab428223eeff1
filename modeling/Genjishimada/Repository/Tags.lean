import Genjishimada.Library.Table

/-!
# Tags

The tables `public.tags` and `public.tag_lookup`, with their unique indexes and the cascade from a
tag to its lookup rows, and the statements of `repository/tags_repository.py` on them.  Names are
compared by `lower`, which depends on the locale of the database and is a parameter.
-/

namespace Genjishimada.Repository

open Library

/-- A row of `public.tags`. -/
structure Tag where
  id : Nat
  name : String
  content : String
  ownerId : Nat
  uses : Nat := 0
  locationId : Nat
deriving DecidableEq, Repr

/-- A row of `public.tag_lookup`. -/
structure TagLookup where
  id : Nat
  name : String
  locationId : Nat
  ownerId : Nat
  tagId : Nat
  createdAt : Int
deriving DecidableEq, Repr

instance : Keyed Tag := ⟨Tag.id⟩

instance : Keyed TagLookup := ⟨TagLookup.id⟩

structure TagDb where
  tags : Table Tag := .empty
  lookups : Table TagLookup := .empty

/-- The unique indexes on `(lower(name), location_id)`. -/
inductive TagIndex where
  | /-- `tags_uniq_idx` -/
    tags
  | /-- `tag_lookup_uniq_idx` -/
    lookups
deriving DecidableEq, Repr

namespace TagDb

variable (lower : String → String) (db : TagDb)

/-- `SELECT … FROM tag_lookup WHERE lower(name) = lower($name) AND location_id = $guild LIMIT 1` -/
def find (guildId : Nat) (name : String) : Option TagLookup :=
  db.lookups.rows.find? fun l ↦ lower l.name = lower name ∧ l.locationId = guildId

/-- A tag has the name already. -/
def taken (guildId : Nat) (name : String) : Bool :=
  db.tags.rows.any fun t ↦ lower t.name = lower name ∧ t.locationId = guildId

/-- `create_tag`: one statement for both rows; what it refuses uses up its ids. -/
def createTag (guildId : Nat) (name content : String) (ownerId : Nat) (now : Int) :
    Except TagIndex Nat × TagDb :=
  if db.taken lower guildId name then
    (.error .tags, { db with tags := db.tags.skipTo (db.tags.nextId + 1) })
  else if (db.find lower guildId name).isSome then
    (.error .lookups,
      { tags := db.tags.skipTo (db.tags.nextId + 1)
        lookups := db.lookups.skipTo (db.lookups.nextId + 1) })
  else
    (.ok db.tags.nextId,
      { tags := db.tags.insert fun id ↦ { id, name, content, ownerId, locationId := guildId }
        lookups := db.lookups.insert fun id ↦
          { id, name, locationId := guildId, ownerId, tagId := db.tags.nextId, createdAt := now } })

/-- `create_alias` -/
def createAlias (guildId : Nat) (newName oldName : String) (ownerId : Nat) (now : Int) :
    Except TagIndex Nat × TagDb :=
  match db.find lower guildId oldName with
  | none => (.ok 0, db)
  | some l =>
      if (db.find lower guildId newName).isSome then
        (.error .lookups, { db with lookups := db.lookups.skipTo (db.lookups.nextId + 1) })
      else
        (.ok 1, { db with
          lookups := db.lookups.insert fun id ↦
            { id, name := newName, locationId := guildId, ownerId, tagId := l.tagId
              createdAt := now } })

/-- The tag a name is looked up to, and whose it is. -/
def edits (guildId : Nat) (name : String) (ownerId : Nat) (t : Tag) : Bool :=
  (db.find lower guildId name).map TagLookup.tagId = some t.id ∧ t.ownerId = ownerId

/-- `edit_tag` -/
def editTag (guildId : Nat) (name newContent : String) (ownerId : Nat) : Nat × TagDb :=
  ((db.tags.select (db.edits lower guildId name ownerId)).length,
    { db with
      tags := db.tags.modify (db.edits lower guildId name ownerId) fun t ↦
        { t with content := newContent } })

/-- `DELETE FROM public.tags WHERE p`, which cascades to `tag_lookup`. -/
def deleteTags (p : Tag → Bool) : Nat × TagDb :=
  ((db.tags.select p).length,
    { tags := db.tags.delete p
      lookups := db.lookups.delete fun l ↦ (db.tags.get? l.tagId).any p })

/-- `remove_tag_by_id` -/
def removeTagById (guildId tagId : Nat) : Nat × TagDb :=
  deleteTags { db with lookups := db.lookups.delete fun l ↦ l.tagId = tagId ∧ l.locationId = guildId }
    fun t ↦ t.id = tagId ∧ t.locationId = guildId

/-- `remove_tag_by_name` -/
def removeTagByName (guildId : Nat) (name : String) : Bool × TagDb :=
  match db.find lower guildId name with
  | none => (false, db)
  | some l =>
      let removed := db.removeTagById guildId l.tagId
      (removed.1 = 1, removed.2)

/-- The two updates of `claim_tag` and `transfer_tag`. -/
def setOwner (guildId tagId ownerId : Nat) : TagDb where
  tags := db.tags.modify (fun t ↦ t.id = tagId) fun t ↦ { t with ownerId }
  lookups := db.lookups.modify (fun l ↦ l.tagId = tagId ∧ l.locationId = guildId) fun l ↦
    { l with ownerId }

/-- `claim_tag` -/
def claimTag (guildId : Nat) (name : String) (requesterId : Nat) : Bool × TagDb :=
  match db.find lower guildId name with
  | none => (false, db)
  | some l => (true, db.setOwner guildId l.tagId requesterId)

/-- `transfer_tag` -/
def transferTag (guildId : Nat) (name : String) (newOwnerId requesterId : Nat) : Bool × TagDb :=
  match db.lookups.rows.find? fun l ↦ (lower l.name = lower name ∧ l.locationId = guildId) ∧
      (db.tags.get? l.tagId).any fun t ↦ t.ownerId = requesterId with
  | none => (false, db)
  | some l => (true, db.setOwner guildId l.tagId newOwnerId)

/-- `purge_tags` -/
def purgeTags (guildId ownerId : Nat) : Nat × TagDb :=
  db.deleteTags fun t ↦ t.locationId = guildId ∧ t.ownerId = ownerId

/-- `increment_usage` -/
def incrementUsage (guildId : Nat) (name : String) : TagDb :=
  { db with
    tags := db.tags.modify
      (fun t ↦ (db.find lower guildId name).map TagLookup.tagId = some t.id) fun t ↦
        { t with uses := t.uses + 1 } }

end TagDb

end Genjishimada.Repository
