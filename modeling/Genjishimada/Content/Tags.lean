import Genjishimada.Library.Directory
import Genjishimada.Library.Ranking
import Genjishimada.Library.Run
import Genjishimada.Services.Tags
import Mathlib.Data.Set.Card

/-!
# The directory of tags

What the two tables of the tags say is a directory: a name of a guild, compared as the indexes do,
stands for a tag, and every operation of a batch is one operation on the directory
(`mutateTags_refines`).  Each tag keeps the name it was created under (`TagInv`).
-/

namespace Genjishimada.Content

open Library Repository Services

/-- Names by guild, and tags by id. -/
abbrev Tags := Directory (Nat × String) Nat Tag

variable {texts : TagTexts} {lower : String → String} {db db' : TagDb} {g i o q : Nat} {now : Int}
  {n n' c : String}

/-- The directory of the tables. -/
def directory (lower : String → String) (db : TagDb) : Tags where
  target := fun k ↦ (db.lookups.rows.find? fun l ↦ (l.locationId, lower l.name) = k).map
    TagLookup.tagId
  value := db.tags.get?

/-! ## What an operation is to the directory -/

/-- The result of an operation, and what it does to the directory. -/
inductive DirectoryStep (texts : TagTexts) (d : Tags) : TagOp × TagsMutateResult → Tags → Prop
  | created {g o i : Nat} {n c : String} (hfree : d.target (g, texts.lower n) = none)
      (hnew : d.value i = none) :
      DirectoryStep texts d
        (.create g n c o, { ok := true, tagId := some i, message := some "Tag created" })
        (d.add (g, texts.lower n) i { id := i, name := n, content := c, ownerId := o, locationId := g })
  | createRefused {g o : Nat} {n c : String} (e : TagIndex)
      (htaken : d.target (g, texts.lower n) ≠ none) :
      DirectoryStep texts d (.create g n c o, { ok := false, message := some (texts.str e) }) d
  | aliased {g o : Nat} {n n' : String} (hold : d.target (g, texts.lower n') ≠ none)
      (hfree : d.target (g, texts.lower n) = none) :
      DirectoryStep texts d
        (.addAlias g n n' o, { ok := true, affected := some 1, message := some "Alias created" })
        (d.link (g, texts.lower n) (g, texts.lower n'))
  | aliasRefused {g o : Nat} {n n' : String} (e : TagIndex)
      (hold : d.target (g, texts.lower n') ≠ none) (htaken : d.target (g, texts.lower n) ≠ none) :
      DirectoryStep texts d (.addAlias g n n' o, { ok := false, message := some (texts.str e) }) d
  | aliasOfNothing {g o : Nat} {n n' : String} (hold : d.target (g, texts.lower n') = none) :
      DirectoryStep texts d
        (.addAlias g n n' o, { ok := true, affected := some 0, message := some "Alias created" }) d
  | edited {g o : Nat} {n c : String} {t : Tag} (ht : d.lookup (g, texts.lower n) = some t)
      (ho : t.ownerId = o) :
      DirectoryStep texts d
        (.edit g n c o, { ok := true, affected := some 1, message := some "Tag edited" })
        (d.adjust (g, texts.lower n) fun t ↦ { t with content := c })
  | notEdited {g o : Nat} {n c : String}
      (ho : ∀ t, d.lookup (g, texts.lower n) = some t → t.ownerId ≠ o) :
      DirectoryStep texts d
        (.edit g n c o, { ok := true, affected := some 0, message := some "Tag edited" }) d
  | removed {g q : Nat} {n : String} {t : Tag} (ht : d.lookup (g, texts.lower n) = some t) :
      DirectoryStep texts d (.remove g n q, { ok := true, message := some "Tag deleted" })
        (d.drop fun t' ↦ t'.id = t.id)
  | notRemoved {g q : Nat} {n : String} (ht : d.lookup (g, texts.lower n) = none) :
      DirectoryStep texts d (.remove g n q, { ok := false, message := some "Tag not found" }) d
  | removedById {g i q : Nat} :
      DirectoryStep texts d
        (.removeById g i q,
          { ok := true, affected := some (if (d.value i).any fun t ↦ t.locationId = g then 1 else 0)
            message := some "Tag deleted" })
        (d.drop fun t ↦ t.id = i ∧ t.locationId = g)
  | incremented {g : Nat} {n : String} :
      DirectoryStep texts d (.incrementUsage g n, { ok := true, message := some "Usage incremented" })
        (d.adjust (g, texts.lower n) fun t ↦ { t with uses := t.uses + 1 })
  | transferred {g o q : Nat} {n : String} {t : Tag} (ht : d.lookup (g, texts.lower n) = some t)
      (ho : t.ownerId = q) :
      DirectoryStep texts d
        (.transfer g n o q, { ok := true, message := some "Ownership transferred" })
        (d.adjust (g, texts.lower n) fun t ↦ { t with ownerId := o })
  | notTransferred {g o q : Nat} {n : String}
      (ho : ∀ t, d.lookup (g, texts.lower n) = some t → t.ownerId ≠ q) :
      DirectoryStep texts d
        (.transfer g n o q, { ok := false, message := some "No permission or tag not found" }) d
  | purged {g o q : Nat} :
      DirectoryStep texts d
        (.purge g o q,
          { ok := true
            affected := some {i | ∃ t, d.value i = some t ∧ t.locationId = g ∧ t.ownerId = o}.ncard
            message := some "User purged" })
        (d.drop fun t ↦ t.locationId = g ∧ t.ownerId = o)
  | claimed {g q : Nat} {n : String} {t : Tag} (ht : d.lookup (g, texts.lower n) = some t) :
      DirectoryStep texts d (.claim g n q, { ok := true, message := some "Tag claimed" })
        (d.adjust (g, texts.lower n) fun t ↦ { t with ownerId := q })
  | notClaimed {g q : Nat} {n : String} (ht : d.lookup (g, texts.lower n) = none) :
      DirectoryStep texts d (.claim g n q, { ok := false, message := some "Tag not found" }) d

/-! ## The invariant -/

/-- A name of a guild is there once, it stands for a tag of its guild, and a tag is there under the
name it was created under, with its owner. -/
structure TagInv (lower : String → String) (db : TagDb) : Prop where
  unique : ∀ l ∈ db.lookups.rows, ∀ l' ∈ db.lookups.rows, l.locationId = l'.locationId →
    lower l.name = lower l'.name → l = l'
  refers : ∀ l ∈ db.lookups.rows,
    ∃ t, db.tags.get? l.tagId = some t ∧ t.locationId = l.locationId
  canonical : ∀ t ∈ db.tags.rows, ∃ l ∈ db.lookups.rows,
    l.tagId = t.id ∧ l.name = t.name ∧ l.ownerId = t.ownerId

section Directory

theorem target_eq (db : TagDb) (g : Nat) (n : String) :
    (directory lower db).target (g, lower n) = (db.find lower g n).map TagLookup.tagId := by
  have hsame : (fun l : TagLookup ↦ decide ((l.locationId, lower l.name) = (g, lower n))) =
      fun l ↦ decide (lower l.name = lower n ∧ l.locationId = g) := by
    funext l
    refine decide_eq_decide.mpr ?_
    rw [Prod.mk.injEq, and_comm]
  simp only [directory, TagDb.find, hsame]

theorem find_eq_some_iff (h : TagInv lower db) {l : TagLookup} : db.find lower g n = some l ↔
    l ∈ db.lookups.rows ∧ lower l.name = lower n ∧ l.locationId = g := by
  rw [TagDb.find]
  constructor
  · intro hl
    exact ⟨List.mem_of_find?_eq_some hl, by simpa using List.find?_some hl⟩
  · rintro ⟨hl, hname, hloc⟩
    cases hfind : db.lookups.rows.find? fun l ↦ lower l.name = lower n ∧ l.locationId = g with
    | none => simpa [hname, hloc] using List.find?_eq_none.mp hfind l hl
    | some l' =>
        have hl' : lower l'.name = lower n ∧ l'.locationId = g := by
          simpa using List.find?_some hfind
        rw [h.unique l' (List.mem_of_find?_eq_some hfind) l hl (hl'.2.trans hloc.symm)
          (hl'.1.trans hname.symm)]

theorem target_eq_some_iff (h : TagInv lower db) {k : Nat × String} :
    (directory lower db).target k = some i ↔
      ∃ l ∈ db.lookups.rows, (l.locationId, lower l.name) = k ∧ l.tagId = i := by
  rw [directory, Option.map_eq_some_iff]
  constructor
  · rintro ⟨l, hl, hi⟩
    exact ⟨l, List.mem_of_find?_eq_some hl, by simpa using List.find?_some hl, hi⟩
  · rintro ⟨l, hl, rfl, hi⟩
    refine ⟨l, ?_, hi⟩
    cases hfind : db.lookups.rows.find? fun l' ↦
        (l'.locationId, lower l'.name) = (l.locationId, lower l.name) with
    | none => simpa using List.find?_eq_none.mp hfind l hl
    | some l' =>
        have hl' : l'.locationId = l.locationId ∧ lower l'.name = lower l.name := by
          simpa using List.find?_some hfind
        rw [h.unique l' (List.mem_of_find?_eq_some hfind) l hl hl'.1 hl'.2]

/-- A name that is found stands for a tag of the guild. -/
theorem lookup_of_find (h : TagInv lower db) {l : TagLookup} (hl : db.find lower g n = some l) :
    ∃ t, (directory lower db).lookup (g, lower n) = some t ∧ db.tags.get? l.tagId = some t ∧
      t.id = l.tagId ∧ t.locationId = g := by
  obtain ⟨hmem, -, hloc⟩ := (find_eq_some_iff h).mp hl
  obtain ⟨t, ht, htloc⟩ := h.refers l hmem
  refine ⟨t, ?_, ht, Table.key_of_get? ht, htloc.trans hloc⟩
  rw [Directory.lookup, target_eq, hl]
  exact ht

theorem lookup_of_find_none (hl : db.find lower g n = none) :
    (directory lower db).target (g, lower n) = none ∧
      (directory lower db).lookup (g, lower n) = none := by
  have htarget : (directory lower db).target (g, lower n) = none := by rw [target_eq, hl]; rfl
  exact ⟨htarget, by rw [Directory.lookup, htarget]; rfl⟩

end Directory

/-! ## The statements -/

section Statements

/-- A new lookup row is a new name. -/
theorem target_insert (hfree : db.find lower g n = none) {tags' : Table Tag} {mk : Nat → TagLookup}
    {hk} (hmk : ∀ id, (mk id).name = n ∧ (mk id).locationId = g ∧ (mk id).tagId = i) :
    (directory lower { tags := tags', lookups := db.lookups.insert mk hk }).target =
      Function.update (directory lower db).target (g, lower n) (some i) := by
  obtain ⟨hname, hloc, hid⟩ := hmk db.lookups.nextId
  have hnone := (lookup_of_find_none hfree).1
  rw [directory, Option.map_eq_none_iff] at hnone
  funext k
  rw [Function.update_apply]
  simp only [directory, Table.rows_insert, List.find?_append]
  split
  · rename_i hk
    rw [hk, hnone]
    simp [hname, hloc, hid]
  · rename_i hk
    have hne : ¬ (g, lower n) = k := fun h ↦ hk h.symm
    simp [hname, hloc, hne]

/-- A name that is free and stands for a tag of its guild keeps the lookup rows in order. -/
theorem TagInv.insert (h : TagInv lower db) (hfree : db.find lower g n = none) {tags' : Table Tag}
    {mk : Nat → TagLookup} {hk}
    (hmk : ∀ id, (mk id).name = n ∧ (mk id).locationId = g ∧ (mk id).tagId = i)
    (htags : ∀ j t, db.tags.get? j = some t → tags'.get? j = some t)
    (hi : ∃ t, tags'.get? i = some t ∧ t.locationId = g)
    (hnew : ∀ t ∈ tags'.rows, t ∈ db.tags.rows ∨
      (mk db.lookups.nextId).tagId = t.id ∧ (mk db.lookups.nextId).name = t.name ∧
        (mk db.lookups.nextId).ownerId = t.ownerId) :
    TagInv lower { tags := tags', lookups := db.lookups.insert mk hk } := by
  obtain ⟨hname, hloc, hid⟩ := hmk db.lookups.nextId
  have hmem (l : TagLookup) : l ∈ (db.lookups.insert mk hk).rows ↔
      l ∈ db.lookups.rows ∨ l = mk db.lookups.nextId := Table.mem_insert
  have hother : ∀ l ∈ db.lookups.rows, l.locationId = g → lower l.name ≠ lower n := by
    intro l hl hlg hln
    rw [(find_eq_some_iff h).mpr ⟨hl, hln, hlg⟩] at hfree
    cases hfree
  refine ⟨fun l hl l' hl' hg hn ↦ ?_, fun l hl ↦ ?_, fun t ht ↦ ?_⟩
  · rcases (hmem l).mp hl with hl | rfl
    · rcases (hmem l').mp hl' with hl' | rfl
      · exact h.unique l hl l' hl' hg hn
      · rw [hloc] at hg
        rw [hname] at hn
        exact absurd hn (hother l hl hg)
    · rcases (hmem l').mp hl' with hl' | rfl
      · rw [hloc] at hg
        rw [hname] at hn
        exact absurd hn.symm (hother l' hl' hg.symm)
      · rfl
  · rcases (hmem l).mp hl with hl | rfl
    · obtain ⟨t, ht, htl⟩ := h.refers l hl
      exact ⟨t, htags _ t ht, htl⟩
    · rw [hid, hloc]
      exact hi
  · rcases hnew t ht with hold | hnew
    · obtain ⟨l, hl, hcanonical⟩ := h.canonical t hold
      exact ⟨l, List.mem_append_left _ hl, hcanonical⟩
    · exact ⟨_, List.mem_append_right _ List.mem_cons_self, hnew⟩

/-- Tags are deleted with their names. -/
theorem directory_deleteTags (h : TagInv lower db) (p : Tag → Bool) :
    TagInv lower (db.deleteTags p).2 ∧
      directory lower (db.deleteTags p).2 = (directory lower db).drop p := by
  have hinv : TagInv lower (db.deleteTags p).2 := by
    refine ⟨fun l hl l' hl' ↦ ?_, fun l hl ↦ ?_, fun t ht ↦ ?_⟩
    · exact h.unique l (Table.mem_delete.mp hl).1 l' (Table.mem_delete.mp hl').1
    · obtain ⟨hl, hp⟩ := Table.mem_delete.mp hl
      obtain ⟨t, ht, hloc⟩ := h.refers l hl
      refine ⟨t, ?_, hloc⟩
      rw [ht] at hp
      change (db.tags.delete p).get? l.tagId = some t
      rw [Table.get?_delete, ht, Option.filter_some, if_pos]
      simpa using hp
    · obtain ⟨ht, hp⟩ := Table.mem_delete.mp ht
      obtain ⟨l, hl, hid, hrest⟩ := h.canonical t ht
      refine ⟨l, Table.mem_delete.mpr ⟨hl, ?_⟩, hid, hrest⟩
      have hget : db.tags.get? t.id = some t := Table.get?_of_mem ht
      rw [hid, hget]
      exact hp
  refine ⟨hinv, Directory.ext ?_ ?_⟩
  · funext k
    refine Option.ext fun i ↦ ?_
    rw [target_eq_some_iff hinv, Directory.drop, Option.filter_eq_some_iff, target_eq_some_iff h]
    constructor
    · rintro ⟨l, hl, hk, rfl⟩
      obtain ⟨hl, hp⟩ := Table.mem_delete.mp hl
      refine ⟨⟨l, hl, hk, rfl⟩, ?_⟩
      change (!(db.tags.get? l.tagId).any p) = true
      rw [hp]
      rfl
    · rintro ⟨⟨l, hl, hk, rfl⟩, hp⟩
      exact ⟨l, Table.mem_delete.mpr ⟨hl, Bool.not_eq_true' _ ▸ hp⟩, hk, rfl⟩
  · funext j
    exact Table.get?_delete p

/-- The tag of a name is rewritten, and the owner on its names with it. -/
theorem directory_modify (h : TagInv lower db) {l : TagLookup} (hl : db.find lower g n = some l)
    {p : Tag → Bool} (hp : ∀ t ∈ db.tags.rows, p t = true ↔ t.id = l.tagId) (f : Tag → Tag) (hf)
    (q : TagLookup → Bool) (owner : TagLookup → TagLookup) (hk)
    (howner : ∀ l, (owner l).name = l.name ∧ (owner l).locationId = l.locationId ∧
      (owner l).tagId = l.tagId)
    (hf' : ∀ t, (f t).locationId = t.locationId ∧ (f t).name = t.name)
    (hcanonical : ∀ l' ∈ db.lookups.rows, ∀ t ∈ db.tags.rows, l'.tagId = t.id →
      l'.ownerId = t.ownerId → l'.locationId = t.locationId →
      (if q l' then owner l' else l').ownerId = (if p t then f t else t).ownerId) :
    TagInv lower { tags := db.tags.modify p f hf, lookups := db.lookups.modify q owner hk } ∧
      directory lower { tags := db.tags.modify p f hf, lookups := db.lookups.modify q owner hk } =
        (directory lower db).adjust (g, lower n) f := by
  have hlookups (l : TagLookup) : l ∈ (db.lookups.modify q owner hk).rows ↔
      ∃ l' ∈ db.lookups.rows, (if q l' then owner l' else l') = l := Table.mem_modify
  have htags (t : Tag) : t ∈ (db.tags.modify p f hf).rows ↔
      ∃ t' ∈ db.tags.rows, (if p t' then f t' else t') = t := Table.mem_modify
  have hvalue : (db.tags.modify p f hf).get? = Function.update db.tags.get? l.tagId
      ((db.tags.get? l.tagId).map f) := Table.get?_modify_key hp
  have hrow (l : TagLookup) : (if q l then owner l else l).name = l.name ∧
      (if q l then owner l else l).locationId = l.locationId ∧
      (if q l then owner l else l).tagId = l.tagId := by
    split
    · exact howner l
    · exact ⟨rfl, rfl, rfl⟩
  have htag (t : Tag) : (if p t then f t else t).locationId = t.locationId ∧
      (if p t then f t else t).name = t.name ∧ (if p t then f t else t).id = t.id := by
    split
    · exact ⟨(hf' t).1, (hf' t).2, hf t⟩
    · exact ⟨rfl, rfl, rfl⟩
  refine ⟨⟨fun l₁ h₁ l₂ h₂ hg hn ↦ ?_, fun l₁ h₁ ↦ ?_, fun t₁ h₁ ↦ ?_⟩, Directory.ext ?_ ?_⟩
  · obtain ⟨l₁, hl₁, rfl⟩ := (hlookups l₁).mp h₁
    obtain ⟨l₂, hl₂, rfl⟩ := (hlookups l₂).mp h₂
    rw [(hrow l₁).2.1, (hrow l₂).2.1] at hg
    rw [(hrow l₁).1, (hrow l₂).1] at hn
    rw [h.unique l₁ hl₁ l₂ hl₂ hg hn]
  · obtain ⟨l₁, hl₁, rfl⟩ := (hlookups l₁).mp h₁
    obtain ⟨t, ht, hloc⟩ := h.refers l₁ hl₁
    refine ⟨if p t then f t else t, ?_, ?_⟩
    · rw [(hrow l₁).2.2, Table.get?_modify, ht]
      rfl
    · rw [(htag t).1, (hrow l₁).2.1, hloc]
  · obtain ⟨t, ht, rfl⟩ := (htags t₁).mp h₁
    obtain ⟨l', hl', hid, hname, hown⟩ := h.canonical t ht
    obtain ⟨t', ht', hloc⟩ := h.refers l' hl'
    obtain rfl : t = t' := by
      rw [hid] at ht'
      exact Option.some.inj ((Table.get?_of_mem ht).symm.trans ht')
    refine ⟨if q l' then owner l' else l', List.mem_map_of_mem hl', ?_, ?_, ?_⟩
    · rw [(hrow l').2.2, (htag t).2.2, hid]
    · rw [(hrow l').1, (htag t).2.1, hname]
    · exact hcanonical l' hl' t ht hid hown hloc.symm
  · rw [Directory.target_adjust]
    funext k
    have hcomp : ((fun l : TagLookup ↦ decide ((l.locationId, lower l.name) = k)) ∘
        fun l ↦ if q l then owner l else l) =
        fun l ↦ decide ((l.locationId, lower l.name) = k) := by
      funext l
      rw [Function.comp_apply, (hrow l).1, (hrow l).2.1]
    simp only [directory, Table.rows_modify, List.find?_map, hcomp, Option.map_map]
    congr 1
    funext l
    exact (hrow l).2.2
  · have htarget : (directory lower db).target (g, lower n) = some l.tagId := by
      rw [target_eq, hl]
      rfl
    rw [Directory.adjust, htarget]
    exact hvalue

/-- The tag of a name is rewritten, its owner apart. -/
theorem directory_modifyTag (h : TagInv lower db) {l : TagLookup} (hl : db.find lower g n = some l)
    {p : Tag → Bool} (hp : ∀ t ∈ db.tags.rows, p t = true ↔ t.id = l.tagId) (f : Tag → Tag) (hf)
    (hf' : ∀ t, (f t).locationId = t.locationId ∧ (f t).name = t.name ∧ (f t).ownerId = t.ownerId) :
    TagInv lower { db with tags := db.tags.modify p f hf } ∧
      directory lower { db with tags := db.tags.modify p f hf } =
        (directory lower db).adjust (g, lower n) f := by
  have hsame : db.lookups.modify (fun _ ↦ false) id (fun _ ↦ rfl) = db.lookups :=
    Table.ext (List.map_id _) rfl
  rw [← hsame]
  refine directory_modify h hl hp f hf _ _ _ (fun _ ↦ ⟨rfl, rfl, rfl⟩)
    (fun t ↦ ⟨(hf' t).1, (hf' t).2.1⟩) fun l' _ t _ _ hown _ ↦ ?_
  rw [if_neg Bool.false_ne_true, hown]
  split
  · exact (hf' t).2.2.symm
  · rfl

/-- The tag of a name gets another owner, under all its names. -/
theorem directory_setOwner (h : TagInv lower db) {l : TagLookup} (hl : db.find lower g n = some l) :
    TagInv lower (db.setOwner g l.tagId o) ∧
      directory lower (db.setOwner g l.tagId o) =
        (directory lower db).adjust (g, lower n) fun t ↦ { t with ownerId := o } := by
  obtain ⟨t, -, ht, hid, hloc⟩ := lookup_of_find h hl
  refine directory_modify h hl (fun t _ ↦ decide_eq_true_iff) (fun t ↦ { t with ownerId := o })
    (fun _ ↦ rfl) (fun l' ↦ l'.tagId = l.tagId ∧ l'.locationId = g)
    (fun l ↦ { l with ownerId := o }) (fun _ ↦ rfl)
    (fun _ ↦ ⟨rfl, rfl, rfl⟩) (fun _ ↦ ⟨rfl, rfl⟩) fun l' _ t' ht' hid' hown hloc' ↦ ?_
  by_cases hsame : t'.id = l.tagId
  · have heq : t' = t := Table.eq_of_key_eq ht' (Table.mem_of_get? ht) (hsame.trans hid.symm)
    have hboth : l'.tagId = l.tagId ∧ l'.locationId = g :=
      ⟨hid'.trans hsame, by rw [hloc', heq, hloc]⟩
    rw [if_pos (decide_eq_true hboth), if_pos (decide_eq_true hsame)]
  · have hnot : ¬ (l'.tagId = l.tagId ∧ l'.locationId = g) := fun hboth ↦
      hsame (hid'.symm.trans hboth.1)
    rw [if_neg (by simpa using hnot), if_neg (by simpa using hsame), hown]

/-- Removing a tag by its id deletes it, if it is of the guild. -/
theorem removeTagById_eq (h : TagInv lower db) (g i : Nat) :
    db.removeTagById g i = db.deleteTags fun t ↦ t.id = i ∧ t.locationId = g := by
  refine Prod.ext rfl ?_
  have hlookups : (db.removeTagById g i).2.lookups =
      (db.deleteTags fun t ↦ t.id = i ∧ t.locationId = g).2.lookups := by
    refine Table.ext ?_ rfl
    change (db.lookups.rows.filter _).filter _ = db.lookups.rows.filter _
    rw [List.filter_filter]
    refine List.filter_congr fun l hl ↦ ?_
    obtain ⟨t, ht, hloc⟩ := h.refers l hl
    have hid : t.id = l.tagId := Table.key_of_get? ht
    change (!(db.tags.get? l.tagId).any _ && !decide (l.tagId = i ∧ l.locationId = g)) =
      !(db.tags.get? l.tagId).any _
    rw [ht, Option.any_some, hid, hloc, Bool.and_self]
  rw [TagDb.removeTagById, TagDb.deleteTags] at hlookups ⊢
  exact congrArg (TagDb.mk _) hlookups

end Statements

/-! ## The operations -/

section Operations

variable {d : Tags}

theorem create_refines (h : TagInv texts.lower db) :
    TagInv texts.lower (executeOp texts now (.create g n c o) db).2 ∧
      DirectoryStep texts (directory texts.lower db)
        (.create g n c o, (executeOp texts now (.create g n c o) db).1)
        (directory texts.lower (executeOp texts now (.create g n c o) db).2) := by
  rw [executeOp]
  by_cases htaken : db.taken texts.lower g n = true
  · rw [TagDb.createTag, if_pos htaken]
    refine ⟨⟨h.unique, h.refers, h.canonical⟩, .createRefused .tags fun hnone ↦ ?_⟩
    -- the tag that has the name is found under it
    obtain ⟨t, ht, hname, hloc⟩ : ∃ t ∈ db.tags.rows, texts.lower t.name = texts.lower n ∧
        t.locationId = g := by simpa [TagDb.taken] using htaken
    obtain ⟨l, hl, hid, hlname, -⟩ := h.canonical t ht
    obtain ⟨t', ht', hlloc⟩ := h.refers l hl
    rw [hid, show db.tags.get? t.id = some t from Table.get?_of_mem ht] at ht'
    obtain rfl : t = t' := Option.some.inj ht'
    have htarget : (directory texts.lower db).target (g, texts.lower n) = some t.id :=
      (target_eq_some_iff h).mpr ⟨l, hl, by rw [← hlloc, hloc, hlname, hname], hid⟩
    rw [htarget] at hnone
    cases hnone
  cases hfind : db.find texts.lower g n with
  | some l =>
      rw [TagDb.createTag, if_neg htaken, if_pos (by rw [hfind]; rfl)]
      refine ⟨⟨h.unique, h.refers, h.canonical⟩, .createRefused .lookups ?_⟩
      rw [target_eq, hfind]
      exact Option.some_ne_none _
  | none =>
      rw [TagDb.createTag, if_neg htaken, if_neg (by rw [hfind]; exact Bool.false_ne_true)]
      constructor
      · refine h.insert hfind (fun _ ↦ ⟨rfl, rfl, rfl⟩) (fun j t ht ↦ ?_) ?_ fun t ht ↦ ?_
        · rw [Table.get?_insert, if_neg (Nat.ne_of_lt (Table.lt_nextId_of_get? ht)), ht]
        · exact ⟨_, by rw [Table.get?_insert, if_pos rfl], rfl⟩
        · rcases Table.mem_insert.mp ht with ht | rfl
          · exact .inl ht
          · exact .inr ⟨rfl, rfl, rfl⟩
      · have hadd : directory texts.lower
            { tags := db.tags.insert fun id ↦
                { id, name := n, content := c, ownerId := o, locationId := g }
              lookups := db.lookups.insert fun id ↦
                { id, name := n, locationId := g, ownerId := o, tagId := db.tags.nextId
                  createdAt := now } } =
            (directory texts.lower db).add (g, texts.lower n) db.tags.nextId
              { id := db.tags.nextId, name := n, content := c, ownerId := o, locationId := g } := by
          refine Directory.ext (target_insert hfind fun _ ↦ ⟨rfl, rfl, rfl⟩) ?_
          funext j
          exact (Table.get?_insert (t := db.tags) _ _).trans (Function.update_apply ..).symm
        dsimp only
        rw [hadd]
        exact .created (lookup_of_find_none hfind).1 Table.get?_nextId

theorem addAlias_refines (h : TagInv texts.lower db) :
    TagInv texts.lower (executeOp texts now (.addAlias g n n' o) db).2 ∧
      DirectoryStep texts (directory texts.lower db)
        (.addAlias g n n' o, (executeOp texts now (.addAlias g n n' o) db).1)
        (directory texts.lower (executeOp texts now (.addAlias g n n' o) db).2) := by
  have htarget {n : String} {l : TagLookup} (hl : db.find texts.lower g n = some l) :
      (directory texts.lower db).target (g, texts.lower n) ≠ none := by
    rw [target_eq, hl]
    exact Option.some_ne_none _
  rw [executeOp, TagDb.createAlias]
  cases hold : db.find texts.lower g n' with
  | none => exact ⟨h, .aliasOfNothing (lookup_of_find_none hold).1⟩
  | some l =>
      dsimp only
      cases hfind : db.find texts.lower g n with
      | some l' =>
          rw [if_pos (by rfl)]
          exact ⟨⟨h.unique, h.refers, h.canonical⟩,
            .aliasRefused .lookups (htarget hold) (htarget hfind)⟩
      | none =>
          rw [if_neg (by exact Bool.false_ne_true)]
          obtain ⟨t, -, ht, -, hloc⟩ := lookup_of_find h hold
          constructor
          · exact h.insert hfind (fun _ ↦ ⟨rfl, rfl, rfl⟩) (fun _ _ ↦ id) ⟨t, ht, hloc⟩
              fun t ht ↦ .inl ht
          · have hlink : directory texts.lower { db with
                lookups := db.lookups.insert fun id ↦
                  { id, name := n, locationId := g, ownerId := o, tagId := l.tagId
                    createdAt := now } } =
                (directory texts.lower db).link (g, texts.lower n) (g, texts.lower n') := by
              have hupdate : (directory texts.lower { db with
                  lookups := db.lookups.insert fun id ↦
                    { id, name := n, locationId := g, ownerId := o, tagId := l.tagId
                      createdAt := now } }).target =
                  Function.update (directory texts.lower db).target (g, texts.lower n)
                    (some l.tagId) := target_insert hfind fun _ ↦ ⟨rfl, rfl, rfl⟩
              refine Directory.ext ?_ rfl
              rw [hupdate, Directory.link, target_eq, hold]
              rfl
            dsimp only
            rw [hlink]
            exact .aliased (htarget hold) (lookup_of_find_none hfind).1

theorem edit_refines (h : TagInv texts.lower db) :
    TagInv texts.lower (executeOp texts now (.edit g n c o) db).2 ∧
      DirectoryStep texts (directory texts.lower db)
        (.edit g n c o, (executeOp texts now (.edit g n c o) db).1)
        (directory texts.lower (executeOp texts now (.edit g n c o) db).2) := by
  have hnothing (hnone : ∀ t ∈ db.tags.rows, db.edits texts.lower g n o t = false) :
      db.editTag texts.lower g n c o = (0, db) := by
    have hselect : db.tags.select (db.edits texts.lower g n o) = [] :=
      List.filter_eq_nil_iff.mpr fun t ht ↦ by rw [hnone t ht]; exact Bool.false_ne_true
    have hmodify : db.tags.modify (db.edits texts.lower g n o)
        (fun t ↦ { t with content := c }) (fun _ ↦ rfl) = db.tags := by
      refine Table.ext ?_ rfl
      rw [Table.rows_modify]
      refine (List.map_congr_left fun t ht ↦ if_neg ?_).trans (List.map_id _)
      rw [hnone t ht]
      exact Bool.false_ne_true
    rw [TagDb.editTag, hselect, hmodify]
    rfl
  rw [executeOp]
  cases hfind : db.find texts.lower g n with
  | none =>
      have hnone : ∀ t ∈ db.tags.rows, db.edits texts.lower g n o t = false := by
        intro t _
        simp [TagDb.edits, hfind]
      rw [hnothing hnone]
      refine ⟨h, .notEdited fun t ht ↦ ?_⟩
      rw [(lookup_of_find_none hfind).2] at ht
      cases ht
  | some l =>
      obtain ⟨t, hlookup, ht, hid, -⟩ := lookup_of_find h hfind
      have hedits (t' : Tag) : db.edits texts.lower g n o t' = true ↔
          t'.id = l.tagId ∧ t'.ownerId = o := by
        rw [TagDb.edits, hfind, Option.map_some, decide_eq_true_iff, Option.some.injEq,
          @eq_comm _ l.tagId]
      by_cases ho : t.ownerId = o
      · have hp : ∀ t' ∈ db.tags.rows, db.edits texts.lower g n o t' = true ↔ t'.id = l.tagId := by
          intro t' ht'
          rw [hedits, and_iff_left_iff_imp]
          intro hid'
          rw [Table.eq_of_key_eq ht' (Table.mem_of_get? ht) (hid'.trans hid.symm), ho]
        obtain ⟨hinv, hadjust⟩ := directory_modifyTag h hfind hp (fun t ↦ { t with content := c })
          (fun _ ↦ rfl) fun _ ↦ ⟨rfl, rfl, rfl⟩
        have hcount : (db.tags.select (db.edits texts.lower g n o)).length = 1 := by
          rw [Table.select_key fun t' ht' ↦ (hp t' ht').mp, ht, Option.filter_some,
            if_pos ((hedits t).mpr ⟨hid, ho⟩)]
          rfl
        refine ⟨hinv, ?_⟩
        dsimp only [TagDb.editTag]
        rw [hcount, hadjust]
        exact .edited hlookup ho
      · have hnone : ∀ t' ∈ db.tags.rows, db.edits texts.lower g n o t' = false := by
          intro t' ht'
          rw [Bool.eq_false_iff, Ne, hedits]
          rintro ⟨hid', hown⟩
          rw [Table.eq_of_key_eq ht' (Table.mem_of_get? ht) (hid'.trans hid.symm)] at hown
          exact ho hown
        rw [hnothing hnone]
        refine ⟨h, .notEdited fun t' ht' ↦ ?_⟩
        rw [hlookup] at ht'
        cases ht'
        exact ho

theorem removeById_refines (h : TagInv texts.lower db) :
    TagInv texts.lower (executeOp texts now (.removeById g i q) db).2 ∧
      DirectoryStep texts (directory texts.lower db)
        (.removeById g i q, (executeOp texts now (.removeById g i q) db).1)
        (directory texts.lower (executeOp texts now (.removeById g i q) db).2) := by
  obtain ⟨hinv, hdrop⟩ := directory_deleteTags h fun t ↦ t.id = i ∧ t.locationId = g
  have hcount : (db.removeTagById g i).1 =
      if ((directory texts.lower db).value i).any fun t ↦ t.locationId = g then 1 else 0 := by
    rw [removeTagById_eq h]
    change (db.tags.select _).length = if (db.tags.get? i).any _ then 1 else 0
    rw [Table.select_key (k := i) fun t _ ht ↦ (of_decide_eq_true ht).1]
    cases ht : db.tags.get? i with
    | none => rfl
    | some t =>
        have hid : t.id = i := Table.key_of_get? ht
        by_cases hloc : t.locationId = g <;> simp [hid, hloc, Option.filter_some]
  rw [executeOp]
  dsimp only
  rw [hcount, removeTagById_eq h, hdrop]
  exact ⟨hinv, .removedById⟩

theorem remove_refines (h : TagInv texts.lower db) :
    TagInv texts.lower (executeOp texts now (.remove g n q) db).2 ∧
      DirectoryStep texts (directory texts.lower db)
        (.remove g n q, (executeOp texts now (.remove g n q) db).1)
        (directory texts.lower (executeOp texts now (.remove g n q) db).2) := by
  rw [executeOp, TagDb.removeTagByName]
  cases hfind : db.find texts.lower g n with
  | none => exact ⟨h, .notRemoved (lookup_of_find_none hfind).2⟩
  | some l =>
      obtain ⟨t, hlookup, ht, hid, hloc⟩ := lookup_of_find h hfind
      obtain ⟨hinv, hdrop⟩ := directory_deleteTags h fun t ↦ t.id = l.tagId ∧ t.locationId = g
      have hcount : (db.tags.select fun t ↦ t.id = l.tagId ∧ t.locationId = g).length = 1 := by
        rw [Table.select_key (k := l.tagId) fun t _ ht ↦ (of_decide_eq_true ht).1, ht,
          Option.filter_some, if_pos (decide_eq_true ⟨hid, hloc⟩)]
        rfl
      -- the id already says which guild
      have hsame : (directory texts.lower db).drop
          (fun t ↦ decide (t.id = l.tagId ∧ t.locationId = g)) =
          (directory texts.lower db).drop fun t' ↦ decide (t'.id = t.id) := by
        refine Directory.drop_congr fun j v hv ↦ decide_eq_decide.mpr ?_
        rw [hid]
        refine and_iff_left_iff_imp.mpr fun hv' ↦ ?_
        rw [Table.eq_of_key_eq (Table.mem_of_get? hv) (Table.mem_of_get? ht) (hv'.trans hid.symm),
          hloc]
      have hremove : db.removeTagById g l.tagId =
          (1, (db.deleteTags fun t ↦ t.id = l.tagId ∧ t.locationId = g).2) := by
        rw [removeTagById_eq h]
        exact Prod.ext hcount rfl
      dsimp only
      rw [hremove]
      refine ⟨hinv, ?_⟩
      change DirectoryStep texts _ _ (directory texts.lower (db.deleteTags _).2)
      rw [hdrop, hsame]
      exact .removed hlookup

theorem incrementUsage_refines (h : TagInv texts.lower db) :
    TagInv texts.lower (executeOp texts now (.incrementUsage g n) db).2 ∧
      DirectoryStep texts (directory texts.lower db)
        (.incrementUsage g n, (executeOp texts now (.incrementUsage g n) db).1)
        (directory texts.lower (executeOp texts now (.incrementUsage g n) db).2) := by
  rw [executeOp, TagDb.incrementUsage]
  cases hfind : db.find texts.lower g n with
  | none =>
      have hadjust : (directory texts.lower db).adjust (g, texts.lower n)
          (fun t ↦ { t with uses := t.uses + 1 }) = directory texts.lower db := by
        rw [Directory.adjust, (lookup_of_find_none hfind).1]
      have hmodify : db.tags.modify
          (fun t ↦ (none : Option TagLookup).map TagLookup.tagId = some t.id)
          (fun t ↦ { t with uses := t.uses + 1 }) (fun _ ↦ rfl) = db.tags :=
        Table.ext (List.map_id _) rfl
      rw [hmodify]
      refine ⟨h, ?_⟩
      have hstep : DirectoryStep texts (directory texts.lower db) _ _ :=
        .incremented (g := g) (n := n)
      rw [hadjust] at hstep
      exact hstep
  | some l =>
      have hp : ∀ t ∈ db.tags.rows,
          decide ((some l).map TagLookup.tagId = some t.id) = true ↔ t.id = l.tagId := by
        intro t _
        rw [decide_eq_true_iff, Option.map_some, Option.some.injEq, eq_comm]
      obtain ⟨hinv, hadjust⟩ := directory_modifyTag h hfind hp
        (fun t ↦ { t with uses := t.uses + 1 }) (fun _ ↦ rfl) fun _ ↦ ⟨rfl, rfl, rfl⟩
      refine ⟨hinv, ?_⟩
      rw [hadjust]
      exact .incremented

/-- The lookup of `transfer_tag` is the lookup of the name, if the tag is the requester's. -/
theorem transferTag_eq (h : TagInv lower db) : db.transferTag lower g n o q =
    ((db.find lower g n).filter fun l ↦ (db.tags.get? l.tagId).any fun t ↦ t.ownerId = q).elim
      (false, db) fun l ↦ (true, db.setOwner g l.tagId o) := by
  have hsame : (db.lookups.rows.find? fun l ↦ (lower l.name = lower n ∧ l.locationId = g) ∧
        (db.tags.get? l.tagId).any fun t ↦ t.ownerId = q) =
      (db.find lower g n).filter fun l ↦ (db.tags.get? l.tagId).any fun t ↦ t.ownerId = q := by
    refine Option.ext fun l ↦ ?_
    rw [Option.filter_eq_some_iff, find_eq_some_iff h]
    constructor
    · intro hl
      have hcond : (lower l.name = lower n ∧ l.locationId = g) ∧
          ((db.tags.get? l.tagId).any fun t ↦ t.ownerId = q) = true := by
        simpa using List.find?_some hl
      exact ⟨⟨List.mem_of_find?_eq_some hl, hcond.1⟩, hcond.2⟩
    · rintro ⟨⟨hl, hname, hloc⟩, hown⟩
      cases hfind : db.lookups.rows.find? fun l ↦ (lower l.name = lower n ∧ l.locationId = g) ∧
          (db.tags.get? l.tagId).any fun t ↦ t.ownerId = q with
      | none => simpa [hname, hloc, hown] using List.find?_eq_none.mp hfind l hl
      | some l' =>
          have hcond : (lower l'.name = lower n ∧ l'.locationId = g) ∧
              ((db.tags.get? l'.tagId).any fun t ↦ t.ownerId = q) = true := by
            simpa using List.find?_some hfind
          rw [h.unique l' (List.mem_of_find?_eq_some hfind) l hl (hcond.1.2.trans hloc.symm)
            (hcond.1.1.trans hname.symm)]
  rw [TagDb.transferTag, hsame]
  split
  · rename_i hnone
    rw [hnone]
    rfl
  · rename_i l hl
    rw [hl]
    rfl

theorem transfer_refines (h : TagInv texts.lower db) :
    TagInv texts.lower (executeOp texts now (.transfer g n o q) db).2 ∧
      DirectoryStep texts (directory texts.lower db)
        (.transfer g n o q, (executeOp texts now (.transfer g n o q) db).1)
        (directory texts.lower (executeOp texts now (.transfer g n o q) db).2) := by
  rw [executeOp, transferTag_eq h]
  cases hfind : db.find texts.lower g n with
  | none =>
      refine ⟨h, .notTransferred fun t ht ↦ ?_⟩
      rw [(lookup_of_find_none hfind).2] at ht
      cases ht
  | some l =>
      obtain ⟨t, hlookup, ht, -, -⟩ := lookup_of_find h hfind
      rw [Option.filter_some, ht, Option.any_some]
      by_cases ho : t.ownerId = q
      · obtain ⟨hinv, hadjust⟩ := directory_setOwner (o := o) h hfind
        rw [if_pos (decide_eq_true ho), Option.elim_some]
        refine ⟨hinv, ?_⟩
        dsimp only
        rw [if_pos rfl, hadjust]
        exact .transferred hlookup ho
      · rw [if_neg (by simpa using ho)]
        refine ⟨h, .notTransferred fun t' ht' ↦ ?_⟩
        rw [hlookup] at ht'
        cases ht'
        exact ho

theorem claim_refines (h : TagInv texts.lower db) :
    TagInv texts.lower (executeOp texts now (.claim g n q) db).2 ∧
      DirectoryStep texts (directory texts.lower db)
        (.claim g n q, (executeOp texts now (.claim g n q) db).1)
        (directory texts.lower (executeOp texts now (.claim g n q) db).2) := by
  rw [executeOp, TagDb.claimTag]
  cases hfind : db.find texts.lower g n with
  | none => exact ⟨h, .notClaimed (lookup_of_find_none hfind).2⟩
  | some l =>
      obtain ⟨t, hlookup, -⟩ := lookup_of_find h hfind
      obtain ⟨hinv, hadjust⟩ := directory_setOwner (o := q) h hfind
      refine ⟨hinv, ?_⟩
      dsimp only
      rw [if_pos rfl, hadjust]
      exact .claimed hlookup

theorem purge_refines (h : TagInv texts.lower db) :
    TagInv texts.lower (executeOp texts now (.purge g o q) db).2 ∧
      DirectoryStep texts (directory texts.lower db)
        (.purge g o q, (executeOp texts now (.purge g o q) db).1)
        (directory texts.lower (executeOp texts now (.purge g o q) db).2) := by
  obtain ⟨hinv, hdrop⟩ := directory_deleteTags h fun t ↦ t.locationId = g ∧ t.ownerId = o
  have hcount : (db.purgeTags g o).1 = {i | ∃ t, (directory texts.lower db).value i = some t ∧
      t.locationId = g ∧ t.ownerId = o}.ncard := by
    let rows := db.tags.select fun t ↦ t.locationId = g ∧ t.ownerId = o
    have hset : {i | ∃ t, (directory texts.lower db).value i = some t ∧ t.locationId = g ∧
        t.ownerId = o} = ((rows.map Tag.id).toFinset : Set Nat) := by
      ext i
      rw [Set.mem_ofPred_eq, List.coe_toFinset, Set.mem_ofPred_eq, List.mem_map]
      constructor
      · rintro ⟨t, ht, hcond⟩
        exact ⟨t, Table.mem_select.mpr ⟨Table.mem_of_get? ht, decide_eq_true hcond⟩,
          Table.key_of_get? ht⟩
      · rintro ⟨t, ht, rfl⟩
        obtain ⟨hmem, hcond⟩ := Table.mem_select.mp ht
        exact ⟨t, Table.get?_of_mem hmem, of_decide_eq_true hcond⟩
    have hnodup : (rows.map Tag.id).Nodup := Table.nodup_map_key_select _
    rw [hset, Set.ncard_coe_finset, List.toFinset_card_of_nodup hnodup, List.length_map]
    rfl
  rw [executeOp]
  dsimp only
  rw [hcount, TagDb.purgeTags, hdrop]
  exact ⟨hinv, .purged⟩

/-- Every operation is one on the directory. -/
theorem executeOp_refines (h : TagInv texts.lower db) (now : Int) (op : TagOp) :
    TagInv texts.lower (executeOp texts now op db).2 ∧
      DirectoryStep texts (directory texts.lower db) (op, (executeOp texts now op db).1)
        (directory texts.lower (executeOp texts now op db).2) := by
  cases op with
  | create => exact create_refines h
  | addAlias => exact addAlias_refines h
  | edit => exact edit_refines h
  | remove => exact remove_refines h
  | removeById => exact removeById_refines h
  | incrementUsage => exact incrementUsage_refines h
  | transfer => exact transfer_refines h
  | purge => exact purge_refines h
  | claim => exact claim_refines h

end Operations

/-! ## Batches -/

section Batches

theorem tagInv_empty (lower : String → String) : TagInv lower {} := by
  refine ⟨?_, ?_, ?_⟩ <;> simp

theorem mutateTags_run (h : TagInv texts.lower db) (ops : List (Int × TagOp)) :
    TagInv texts.lower (mutateTags texts ops db).2 ∧
      Run (DirectoryStep texts) (directory texts.lower db)
        ((ops.map Prod.snd).zip (mutateTags texts ops db).1)
        (directory texts.lower (mutateTags texts ops db).2) ∧
      (mutateTags texts ops db).1.length = ops.length := by
  induction ops generalizing db with
  | nil => exact ⟨h, .nil _, rfl⟩
  | cons op ops ih =>
      obtain ⟨hinv, hstep⟩ := executeOp_refines h op.1 op.2
      obtain ⟨hinv', hrun, hlength⟩ := ih hinv
      exact ⟨hinv', .cons hstep hrun, congrArg (· + 1) hlength⟩

/-- Whatever the operations and their order, the tables are a directory: every operation does to it
what it says and reports it, on an empty directory at first; every name stands for a tag; and every
tag is found under the name it was created under. -/
theorem mutateTags_refines (texts : TagTexts) (ops : List (Int × TagOp)) :
    Run (DirectoryStep texts) .empty ((ops.map Prod.snd).zip (mutateTags texts ops {}).1)
        (directory texts.lower (mutateTags texts ops {}).2) ∧
      (mutateTags texts ops {}).1.length = ops.length ∧
      (directory texts.lower (mutateTags texts ops {}).2).Bound ∧
      ∀ i t, (directory texts.lower (mutateTags texts ops {}).2).value i = some t →
        (directory texts.lower (mutateTags texts ops {}).2).target
          (t.locationId, texts.lower t.name) = some i := by
  obtain ⟨hinv, hrun, hlength⟩ := mutateTags_run (tagInv_empty texts.lower) ops
  refine ⟨hrun, hlength, fun k i hi ↦ ?_, fun i t ht ↦ ?_⟩
  · obtain ⟨l, hl, -, rfl⟩ := (target_eq_some_iff hinv).mp hi
    obtain ⟨t, ht, -⟩ := hinv.refers l hl
    exact Option.isSome_iff_exists.mpr ⟨t, ht⟩
  · obtain ⟨l, hl, hid, hname, -⟩ := hinv.canonical t (Table.mem_of_get? ht)
    obtain ⟨t', ht', hloc⟩ := hinv.refers l hl
    have hkey : t.id = i := Table.key_of_get? ht
    rw [hid, hkey, show (mutateTags texts ops {}).2.tags.get? i = some t from ht] at ht'
    obtain rfl : t = t' := Option.some.inj ht'
    exact (target_eq_some_iff hinv).mpr ⟨l, hl, by rw [hloc, hname], hid.trans hkey⟩

end Batches

/-! ## Search -/

section Search

variable {filters : TagsSearchFilters}
  {arrange : List (TagLookup × Tag) → List (Nat × TagLookup × Tag)}
  {suggest : Nat → String → List String}

theorem mem_tagJoin {l : TagLookup} {t : Tag} : (l, t) ∈ tagJoin db ↔
    l ∈ db.lookups.rows ∧ db.tags.get? l.tagId = some t := by
  rw [tagJoin, List.mem_filterMap]
  constructor
  · rintro ⟨l', hl', h⟩
    obtain ⟨t', ht', heq⟩ := Option.map_eq_some_iff.mp h
    cases heq
    exact ⟨hl', ht'⟩
  · rintro ⟨hl, ht⟩
    exact ⟨l, hl, by rw [ht]; rfl⟩

/-- A row that is shown is a lookup row that meets the conditions, with its tag. -/
theorem mem_items (harrange : ∀ rows, ((arrange rows).map Prod.snd).Perm rows) {item : TagRow}
    (hitem : item ∈ (searchTags texts filters arrange suggest db).items) :
    ∃ rank l t, item = tagRow filters rank (l, t) ∧ l ∈ db.lookups.rows ∧
      db.tags.get? l.tagId = some t ∧ tagWhere texts filters (l, t) = true := by
  obtain ⟨⟨rank, l, t⟩, hrow, rfl⟩ := List.mem_map.mp hitem
  have hmem := List.mem_map_of_mem (f := Prod.snd) (List.mem_of_mem_drop (List.mem_of_mem_take hrow))
  obtain ⟨hjoin, hwhere⟩ := List.mem_filter.mp ((harrange _).mem_iff.mp hmem)
  obtain ⟨hl, ht⟩ := mem_tagJoin.mp hjoin
  exact ⟨rank, l, t, rfl, hl, ht, hwhere⟩

/-- The conditions of an exact search select the lookup row of the name, if there is one. -/
theorem filter_tagJoin (h : TagInv texts.lower db) (g : Nat) (n : String) :
    (tagJoin db).filter (tagWhere texts
        { guildId := g, name := some n, includeContent := true, limit := 1 }) =
      ((db.find texts.lower g n).bind fun l ↦ (db.tags.get? l.tagId).map fun t ↦ (l, t)).toList := by
  have hwhere (l : TagLookup) (t : Tag) : tagWhere texts
      { guildId := g, name := some n, includeContent := true, limit := 1 } (l, t) =
      decide ((l.locationId, texts.lower l.name) = (g, texts.lower n)) := by
    simp [tagWhere]
  have hnodup : (db.lookups.rows.map fun l ↦ (l.locationId, texts.lower l.name)).Nodup := by
    refine List.Nodup.map_on (fun l hl l' hl' heq ↦ ?_) db.lookups.rows_nodup
    obtain ⟨hloc, hname⟩ := Prod.mk.injEq .. ▸ heq
    exact h.unique l hl l' hl' hloc hname
  have hfind : (db.lookups.rows.find? fun l ↦
      (l.locationId, texts.lower l.name) = (g, texts.lower n)) = db.find texts.lower g n := by
    refine congrArg (fun p ↦ db.lookups.rows.find? p) (funext fun l ↦ decide_eq_decide.mpr ?_)
    rw [Prod.mk.injEq, and_comm]
  rw [tagJoin, List.filter_filterMap]
  have hcomm : (db.lookups.rows.filterMap fun l ↦
      ((db.tags.get? l.tagId).map fun t ↦ (l, t)).filter (tagWhere texts
        { guildId := g, name := some n, includeContent := true, limit := 1 })) =
      (db.lookups.rows.filter fun l ↦
        (l.locationId, texts.lower l.name) = (g, texts.lower n)).filterMap fun l ↦
          (db.tags.get? l.tagId).map fun t ↦ (l, t) := by
    rw [List.filterMap_filter]
    refine List.filterMap_congr fun l _ ↦ ?_
    cases db.tags.get? l.tagId with
    | none => simp
    | some t =>
        rw [Option.map_some, Option.filter_some, hwhere]
  rw [hcomm, filter_eq_toList_find? hnodup, hfind]
  cases db.find texts.lower g n with
  | none => rfl
  | some l => cases ht : db.tags.get? l.tagId <;> simp [ht]

/-- After any operations, and in whatever order the database returns rows: what a search shows under
a name is the tag the name stands for; nothing is shown as an alias, not even where only aliases are
asked for; and the bot gets the content of a tag under each of its names, and under no other. -/
theorem searchTags_after (texts : TagTexts) (ops : List (Int × TagOp))
    (harrange : ∀ rows, ((arrange rows).map Prod.snd).Perm rows) :
    (∀ filters, ∀ item ∈ (searchTags texts filters arrange suggest (mutateTags texts ops {}).2).items,
      item.isAlias = false ∧ filters.onlyAliases = false ∧ item.guildId = filters.guildId ∧
        ∃ t, (directory texts.lower (mutateTags texts ops {}).2).lookup
            (item.guildId, texts.lower item.name) = some t ∧
          item.canonicalName = t.name ∧ item.uses = t.uses ∧
          item.content = if filters.includeContent then some t.content else none) ∧
    ∀ g n, (getTag texts arrange suggest g n (mutateTags texts ops {}).2).toOption.map
        TagEntry.content =
      ((directory texts.lower (mutateTags texts ops {}).2).lookup (g, texts.lower n)).map
        Tag.content := by
  obtain ⟨hinv, -⟩ := mutateTags_run (tagInv_empty texts.lower) ops
  constructor
  · intro filters item hitem
    obtain ⟨rank, l, t, rfl, hl, ht, hwhere⟩ := mem_items harrange hitem
    have hid : t.id = l.tagId := Table.key_of_get? ht
    have hlookup : (directory texts.lower (mutateTags texts ops {}).2).lookup
        (l.locationId, texts.lower l.name) = some t := by
      rw [Directory.lookup, (target_eq_some_iff hinv).mpr ⟨l, hl, rfl, rfl⟩]
      exact ht
    simp only [tagWhere, Bool.and_eq_true, decide_eq_true_iff] at hwhere
    refine ⟨decide_eq_false (not_not.mpr hid.symm), ?_, hwhere.1.1.1.1, t, hlookup, rfl, rfl, rfl⟩
    by_contra honly
    rw [Bool.not_eq_false] at honly
    simp [honly, hid] at hwhere
  · intro g n
    rw [getTag, searchTags]
    dsimp only
    rw [filter_tagJoin hinv, List.drop_zero]
    cases hfind : (mutateTags texts ops {}).2.find texts.lower g n with
    | none =>
        have hnil : arrange [] = [] := List.map_eq_nil_iff.mp (harrange []).eq_nil
        rw [(lookup_of_find_none hfind).2]
        simp only [Option.bind_none, Option.toList_none, hnil, List.take_nil, List.map_nil]
        split <;> rfl
    | some l =>
        obtain ⟨t, hlookup, ht, -⟩ := lookup_of_find hinv hfind
        obtain ⟨rank, hrow⟩ : ∃ rank, arrange [(l, t)] = [(rank, l, t)] := by
          have hperm := (harrange [(l, t)]).eq_singleton
          obtain ⟨row, hrow, hsnd⟩ := List.map_eq_singleton_iff.mp hperm
          exact ⟨row.1, by rw [hrow, ← hsnd]⟩
        rw [hlookup, Option.bind_some, ht]
        simp only [Option.map_some, Option.toList_some, hrow, List.take_succ_cons, List.take_zero,
          List.map_cons, List.map_nil]
        rfl

end Search

/-- A tag with an alias, under both names. -/
theorem aliased_getTag :
    let texts : TagTexts :=
      { lower := String.toLower, similar := fun _ _ ↦ false, str := fun _ ↦ "duplicate key" }
    let ops : List (Int × TagOp) :=
      [(1, .create 5 "Rules" "Be kind" 7), (2, .addAlias 5 "law" "RULES" 8)]
    (getTag texts (fun rows ↦ rows.zipIdx.map Prod.swap) (fun _ _ ↦ []) 5 "LAW"
        (mutateTags texts ops {}).2).toOption.map TagEntry.content =
      ((directory texts.lower (mutateTags texts ops {}).2).lookup
        (5, texts.lower "LAW")).map Tag.content :=
  (@searchTags_after _ (fun _ _ ↦ []) _ _ fun rows ↦ by
    simp [Function.comp_def]).2 5 "LAW"

/-! ## Whose tags change -/

section Owners

/-- The operation can rewrite the tag: an edit or a transfer of its owner, or a claim in its
guild. -/
def Rewrites (t : Tag) : TagOp → Prop
  | .edit _ _ _ ownerId => ownerId = t.ownerId
  | .transfer _ _ _ requesterId => requesterId = t.ownerId
  | .claim guildId _ _ => guildId = t.locationId
  | .create _ _ _ _ | .addAlias _ _ _ _ | .remove _ _ _ | .removeById _ _ _ | .incrementUsage _ _
  | .purge _ _ _ => False

/-- The tag is what it was, but for its uses. -/
structure SameTag (t t' : Tag) : Prop where
  name : t'.name = t.name
  content : t'.content = t.content
  owner : t'.ownerId = t.ownerId
  location : t'.locationId = t.locationId
  uses : t.uses ≤ t'.uses

/-- No id is given out again. -/
def Onward (db db' : TagDb) : Prop :=
  db.tags.nextId ≤ db'.tags.nextId ∧
    ∀ i < db.tags.nextId, (db'.tags.get? i).isSome → (db.tags.get? i).isSome

theorem onward_modify (p : Tag → Bool) (f : Tag → Tag) (hf) (lookups : Table TagLookup) :
    Onward db { tags := db.tags.modify p f hf, lookups } := by
  refine ⟨Nat.le_refl _, fun i _ h ↦ ?_⟩
  rw [Table.get?_modify, Option.isSome_map] at h
  exact h

theorem onward_deleteTags (p : Tag → Bool) : Onward db (db.deleteTags p).2 := by
  refine ⟨Nat.le_refl _, fun i _ h ↦ ?_⟩
  change ((db.tags.delete p).get? i).isSome at h
  rw [Table.get?_delete] at h
  obtain ⟨t, ht⟩ := Option.isSome_iff_exists.mp h
  exact Option.isSome_iff_exists.mpr ⟨t, (Option.filter_eq_some_iff.mp ht).1⟩

theorem onward_refl (db : TagDb) : Onward db db := ⟨Nat.le_refl _, fun _ _ h ↦ h⟩

theorem onward_createTag (now : Int) : Onward db (db.createTag lower g n c o now).2 := by
  have hskip (m : Nat) (lookups : Table TagLookup) : Onward db { tags := db.tags.skipTo m, lookups } :=
    ⟨Nat.le_max_left _ _, fun _ _ h ↦ h⟩
  rw [TagDb.createTag]
  split
  · exact hskip _ _
  · split
    · exact hskip _ _
    · refine ⟨Nat.le_succ _, fun i hi h ↦ ?_⟩
      rw [Table.get?_insert, if_neg (Nat.ne_of_lt hi)] at h
      exact h

theorem onward_executeOp (now : Int) (op : TagOp) : Onward db (executeOp texts now op db).2 := by
  cases op with
  | create g n c o =>
      have honward : Onward db (db.createTag texts.lower g n c o now).2 := onward_createTag now
      rw [executeOp]
      split <;> rename_i heq <;> rw [heq] at honward <;> exact honward
  | addAlias g n n' o =>
      rw [executeOp, TagDb.createAlias]
      cases db.find texts.lower g n' with
      | none => exact onward_refl db
      | some l =>
          dsimp only
          split_ifs <;> exact onward_refl db
  | edit => exact onward_modify _ _ _ _
  | remove g n q =>
      rw [executeOp, TagDb.removeTagByName]
      cases db.find texts.lower g n with
      | none => exact onward_refl db
      | some l =>
          dsimp only
          split_ifs <;> exact onward_deleteTags _
  | removeById g i q => exact onward_deleteTags _
  | incrementUsage g n => exact onward_modify _ _ _ _
  | transfer g n o q =>
      rw [executeOp, TagDb.transferTag]
      dsimp only
      split <;> split_ifs
      all_goals first | exact onward_refl db | exact onward_modify _ _ _ _
  | purge g o q => exact onward_deleteTags _
  | claim g n q =>
      rw [executeOp, TagDb.claimTag]
      cases db.find texts.lower g n with
      | none => exact onward_refl db
      | some l => exact onward_modify _ _ _ _

/-- The tags that names stand for are of the guild of the name. -/
def Local (d : Tags) : Prop :=
  ∀ k i t, d.target k = some i → d.value i = some t → t.locationId = k.1

theorem TagInv.toLocal (h : TagInv lower db) : Local (directory lower db) := by
  intro k i t htarget ht
  obtain ⟨l, hl, rfl, rfl⟩ := (target_eq_some_iff h).mp htarget
  obtain ⟨t', ht', hloc⟩ := h.refers l hl
  obtain rfl : t = t' := Option.some.inj (ht.symm.trans ht')
  exact hloc

/-- An operation that cannot rewrite the tag leaves it as it was, if it leaves it at all. -/
theorem DirectoryStep.sameTag {d d' : Tags} {l : TagOp × TagsMutateResult} {t t₀ t' : Tag}
    (h : DirectoryStep texts d l d') (hlocal : Local d) (ht₀ : d.value i = some t₀)
    (hsame : SameTag t t₀) (hop : ¬ Rewrites t l.1) (ht' : d'.value i = some t') :
    SameTag t t' := by
  have hkept (heq : d'.value i = d.value i) : SameTag t t' := by
    rw [heq, ht₀] at ht'
    exact Option.some.inj ht' ▸ hsame
  -- the entry that a name stands for is rewritten only by an operation that may
  have hadjust {k : Nat × String} {f : Tag → Tag} (hd' : d' = d.adjust k f)
      (hf : d.target k = some i → SameTag t (f t₀)) : SameTag t t' := by
    rw [hd', Directory.value_adjust] at ht'
    split at ht'
    · rename_i htarget
      rw [ht₀, Option.map_some] at ht'
      exact Option.some.inj ht' ▸ hf htarget
    · rw [ht₀] at ht'
      exact Option.some.inj ht' ▸ hsame
  have hdrop {p : Tag → Bool} (hd' : d' = d.drop p) : SameTag t t' := by
    rw [hd', Directory.drop, Option.filter_eq_some_iff, ht₀] at ht'
    exact Option.some.inj ht'.1 ▸ hsame
  have howner {k : Nat × String} {t₁ : Tag} (ht₁ : d.lookup k = some t₁)
      (htarget : d.target k = some i) : t₁.ownerId = t.ownerId := by
    rw [Directory.lookup, htarget, Option.bind_some, ht₀] at ht₁
    rw [← Option.some.inj ht₁, hsame.owner]
  cases h with
  | created hfree hnew =>
      refine hkept (Function.update_of_ne ?_ _ _)
      rintro rfl
      rw [ht₀] at hnew
      cases hnew
  | createRefused => exact hkept rfl
  | aliased => exact hkept rfl
  | aliasRefused => exact hkept rfl
  | aliasOfNothing => exact hkept rfl
  | edited ht₁ ho => exact hadjust rfl fun htarget ↦ absurd (ho.symm.trans (howner ht₁ htarget)) hop
  | notEdited => exact hkept rfl
  | removed => exact hdrop rfl
  | notRemoved => exact hkept rfl
  | removedById => exact hdrop rfl
  | incremented =>
      exact hadjust rfl fun _ ↦
        ⟨hsame.name, hsame.content, hsame.owner, hsame.location, Nat.le_succ_of_le hsame.uses⟩
  | transferred ht₁ ho =>
      exact hadjust rfl fun htarget ↦ absurd (ho.symm.trans (howner ht₁ htarget)) hop
  | notTransferred => exact hkept rfl
  | purged => exact hdrop rfl
  | claimed ht₁ =>
      refine hadjust rfl fun htarget ↦ absurd ?_ hop
      exact (hlocal _ _ _ htarget ht₀).symm.trans hsame.location
  | notClaimed => exact hkept rfl

/-- Whatever has happened before: as long as nothing is edited or transferred by the owner of a tag
and nothing is claimed in its guild, the tag keeps its name, content, owner and guild until it is
removed, and its uses only grow. -/
theorem tag_kept (texts : TagTexts) (ops ops' : List (Int × TagOp)) {t : Tag}
    (ht : (directory texts.lower (mutateTags texts ops {}).2).value i = some t)
    (hops : ∀ op ∈ ops', ¬ Rewrites t op.2) :
    ∀ t', (directory texts.lower
        (mutateTags texts ops' (mutateTags texts ops {}).2).2).value i = some t' →
      SameTag t t' := by
  obtain ⟨hinv, -⟩ := mutateTags_run (tagInv_empty texts.lower) ops
  suffices hrun : ∀ db, TagInv texts.lower db → i < db.tags.nextId →
      (∀ t₀, db.tags.get? i = some t₀ → SameTag t t₀) →
      ∀ t', (mutateTags texts ops' db).2.tags.get? i = some t' → SameTag t t' by
    refine hrun _ hinv (Table.lt_nextId_of_get? ht) fun t₀ ht₀ ↦ ?_
    obtain rfl : t = t₀ := Option.some.inj (ht.symm.trans ht₀)
    exact ⟨rfl, rfl, rfl, rfl, Nat.le_refl _⟩
  clear ht hinv
  induction ops' with
  | nil => exact fun _ _ _ hsame ↦ hsame
  | cons op ops' ih =>
      intro db hinv hi hsame
      obtain ⟨hinv', hstep⟩ := executeOp_refines hinv op.1 op.2
      have honward : Onward db (executeOp texts op.1 op.2 db).2 := onward_executeOp op.1 op.2
      refine ih (fun op' hop' ↦ hops op' (List.mem_cons_of_mem _ hop')) _ hinv'
        (Nat.lt_of_lt_of_le hi honward.1) fun t₁ ht₁ ↦ ?_
      have hold := honward.2 i hi (Option.isSome_iff_exists.mpr ⟨t₁, ht₁⟩)
      obtain ⟨t₀, ht₀⟩ := Option.isSome_iff_exists.mp hold
      exact hstep.sameTag hinv.toLocal ht₀ (hsame t₀ ht₀) (hops op List.mem_cons_self) ht₁

/-- Another user's edit of a tag does nothing. -/
theorem tag_kept_rules :
    let texts : TagTexts :=
      { lower := String.toLower, similar := fun _ _ ↦ false, str := fun _ ↦ "duplicate key" }
    let db := (mutateTags texts [(1, .create 5 "Rules" "Be kind" 7)] {}).2
    ∀ t', (directory texts.lower
        (mutateTags texts [(2, .edit 5 "rules" "Be rude" 8), (3, .transfer 5 "rules" 8 8)]
          db).2).value 1 = some t' →
      SameTag { id := 1, name := "Rules", content := "Be kind", ownerId := 7, locationId := 5 } t' :=
  tag_kept _ _ _ rfl (by simp [Rewrites])

end Owners

end Genjishimada.Content
