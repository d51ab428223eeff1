import Genjishimada.Library.Pairing
import Genjishimada.Library.Run
import Genjishimada.Maps.Rows
import Genjishimada.Repository.MapLinks

/-!
# Linked maps

`linked_code` pairs maps: the keys are the codes, which a rename changes and a release takes
away, and the pointers are the links.  The trigger keeps the pairing when a link is set or
cleared, and the foreign key when a code is renamed.  Neither looks at the link that is
replaced, or at the own link of a map that is released.
-/

namespace Genjishimada.Maps

open Library Sdk Repository

/-! ## The calls -/

inductive LinkLabel where
  | linkMapCodes (code1 code2 : String)
  | unlinkMapCodes (code : String)
  | updateCoreMap (code : String) (p : MapPatchRequest)
  | releaseCode (code : String) (mapId : Nat)

/-- One call; a rename that is refused changes nothing. -/
def linkStep (d : PlaytestDb) : LinkLabel → PlaytestDb
  | .linkMapCodes code1 code2 => d.linkMapCodes code1 code2
  | .unlinkMapCodes code => d.unlinkMapCodes code
  | .updateCoreMap code p => (d.updateCoreMap code p).getD d
  | .releaseCode code mapId => d.releaseCode code mapId

/-- The code of a map. -/
def keyOf (d : PlaytestDb) (id : Nat) : Option String := (d.db.maps.get? id).bind (·.code)

/-- The link of a map. -/
def ptrOf (d : PlaytestDb) (id : Nat) : Option String :=
  (d.db.maps.get? id).bind fun _ ↦ d.linkedCode id

/-- No link is replaced by one to a map that has none, and no map is released that has one. -/
def LinkKept (d : PlaytestDb) : LinkLabel → Prop
  | .linkMapCodes code1 code2 =>
      ∀ m ∈ d.mapOfCode (some code1), ∀ m' ∈ d.mapOfCode (some code2), m ≠ m' →
        d.linkedCode m.id ≠ none → d.linkedCode m'.id ≠ none
  | .releaseCode code _ =>
      ∀ m ∈ d.mapOfCode (some code), m.archived = true → d.linkedCode m.id = none
  | _ => True

/-! ## Rows -/

section Rows

variable {d d' : PlaytestDb} {m m' : CoreMap} {c code : String} {i : Nat}

theorem keyOf_eq_some : keyOf d i = some c ↔ ∃ m, d.db.maps.get? i = some m ∧ m.code = some c :=
  Option.bind_eq_some_iff

theorem keyOf_of_get? (hm : d.db.maps.get? i = some m) : keyOf d i = m.code := by
  rw [keyOf, hm, Option.bind_some]

theorem ptrOf_of_get? (hm : d.db.maps.get? i = some m) : ptrOf d i = d.linkedCode i := by
  rw [ptrOf, hm, Option.bind_some]

/-- The row of a code. -/
theorem get?_of_mapOfCode (hm : d.mapOfCode (some code) = some m) :
    d.db.maps.get? m.id = some m ∧ m.code = some code := by
  obtain ⟨hmem, hcode, _⟩ := mem_of_mapOfCode hm
  exact ⟨Table.get?_of_mem hmem, hcode⟩

/-- The row of a code is the one that carries it. -/
theorem mapOfCode_of_get? (h : Linked (keyOf d) (ptrOf d)) (hm : d.db.maps.get? i = some m)
    (hcode : m.code = some code) : d.mapOfCode (some code) = some m := by
  have hmem := Table.mem_of_get? hm
  obtain ⟨m', hm'⟩ := Option.isSome_iff_exists.mp (mapOfCode_isSome.mpr ⟨m, hmem, hcode⟩)
  obtain ⟨hrow', hcode'⟩ := get?_of_mapOfCode hm'
  have hid : m'.id = i := by
    apply h.unique m'.id i code
    · rw [keyOf_of_get? hrow', hcode']
    · rw [keyOf_of_get? hm, hcode]
  rw [hid, hm] at hrow'
  rw [hm', ← hrow']

/-- A code that is no map's. -/
theorem keyOf_ne_of_mapOfCode (hnone : d.mapOfCode (some code) = none) (i : Nat) :
    keyOf d i ≠ some code := by
  intro hkey
  obtain ⟨m, hm, hcode⟩ := keyOf_eq_some.mp hkey
  have hsome := mapOfCode_isSome.mpr ⟨m, Table.mem_of_get? hm, hcode⟩
  rw [hnone] at hsome
  cases hsome

theorem keyOf_setLink (d : PlaytestDb) (id : Nat) (value : Option String) :
    keyOf (d.setLink id value) = keyOf d := rfl

theorem mapOfCode_setLink (d : PlaytestDb) (id : Nat) (value code : Option String) :
    (d.setLink id value).mapOfCode code = d.mapOfCode code := rfl

/-- A link is set in the row of a map. -/
theorem ptrOf_setLink (hm : d.db.maps.get? i = some m) (value : Option String) :
    ptrOf (d.setLink i value) = Function.update (ptrOf d) i value := by
  funext k
  by_cases hk : k = i
  · subst hk
    rw [Function.update_self, ptrOf_of_get? (d := d.setLink k value) hm]
    exact Function.update_self ..
  · rw [Function.update_of_ne hk]
    apply Option.bind_congr
    intro _ _
    exact Function.update_of_ne hk ..

end Rows

/-! ## Links -/

section Links

variable {d d' : PlaytestDb} {m m' : CoreMap} {code code1 code2 : String} {value : Option String}

/-- A link that is set again. -/
theorem updateLinkedCode_self (hm : d.mapOfCode (some code) = some m)
    (hvalue : d.linkedCode m.id = value) :
    d.updateLinkedCode code value = some (d.setLink m.id value) := by
  simp only [PlaytestDb.updateLinkedCode, hm, PlaytestDb.syncLinkedCode, hvalue, if_true,
    Option.map_some]

theorem ptrOf_setLink_self (hm : d.db.maps.get? m.id = some m) (hvalue : d.linkedCode m.id = value) :
    ptrOf (d.setLink m.id value) = ptrOf d := by
  rw [ptrOf_setLink hm, ← hvalue, ← ptrOf_of_get? hm, Function.update_eq_self]

/-- A link to a map that has none is set on both sides. -/
theorem updateLinkedCode_free (hm : d.mapOfCode (some code1) = some m)
    (hm' : d.mapOfCode (some code2) = some m') (hne : code1 ≠ code2)
    (hlinked : d.linkedCode m.id ≠ some code2) (hfree : d.linkedCode m'.id = none) :
    d.updateLinkedCode code1 (some code2) =
      some ((d.setLink m'.id (some code1)).setLink m.id (some code2)) := by
  obtain ⟨-, hcode⟩ := get?_of_mapOfCode hm
  have hcode' : m.code ≠ some code2 := by
    rw [hcode]
    exact fun h ↦ hne (Option.some.inj h)
  simp only [PlaytestDb.updateLinkedCode, hm, PlaytestDb.syncLinkedCode, hm', hfree]
  rw [if_neg (Ne.symm hlinked), if_neg hcode', hcode, Option.map_some]

/-- A link is refused to a map that has another, to itself and to a code that is no map's. -/
theorem updateLinkedCode_refused (hm : d.mapOfCode (some code1) = some m)
    (hlinked : d.linkedCode m.id ≠ some code2)
    (hrefused : code1 ≠ code2 → ∀ m', d.mapOfCode (some code2) = some m' →
      d.linkedCode m'.id ≠ none ∧ d.linkedCode m'.id ≠ some code1) :
    d.updateLinkedCode code1 (some code2) = none := by
  obtain ⟨-, hcode⟩ := get?_of_mapOfCode hm
  simp only [PlaytestDb.updateLinkedCode, hm, PlaytestDb.syncLinkedCode, hcode,
    Option.map_eq_none_iff]
  rw [if_neg (Ne.symm hlinked)]
  split
  · rfl
  · rename_i hne
    have hne' : code1 ≠ code2 := fun h ↦ hne (congrArg some h)
    split
    · rfl
    · rename_i m' hm'
      obtain ⟨hsome, hother⟩ := hrefused hne' m' hm'
      split
      · rename_i hnone
        exact absurd hnone hsome
      · rename_i current hcurrent
        refine if_neg fun h ↦ hother ?_
        rw [hcurrent, h]

/-- A link that is cleared, on both sides. -/
theorem updateLinkedCode_clear (hm : d.mapOfCode (some code1) = some m)
    (hm' : d.mapOfCode (some code2) = some m') (hlinked : d.linkedCode m.id = some code2)
    (hback : d.linkedCode m'.id = some code1) :
    d.updateLinkedCode code1 none = some ((d.setLink m'.id none).setLink m.id none) := by
  obtain ⟨-, hcode⟩ := get?_of_mapOfCode hm
  simp only [PlaytestDb.updateLinkedCode, hm, PlaytestDb.syncLinkedCode, hlinked, hm', hback, hcode]
  rfl

/-- A link leaves the rows alone. -/
theorem db_updateLinkedCode (hs : d.updateLinkedCode code value = some d') : d'.db = d.db := by
  rw [PlaytestDb.updateLinkedCode] at hs
  split at hs
  · obtain ⟨d₁, hd₁, rfl⟩ := Option.map_eq_some_iff.mp hs
    show d₁.db = d.db
    unfold PlaytestDb.syncLinkedCode at hd₁
    split at hd₁
    · cases hd₁
      rfl
    · split at hd₁
      · split at hd₁
        · split at hd₁ <;> cases hd₁ <;> rfl
        · cases hd₁
          rfl
      · split at hd₁
        · cases hd₁
        · split at hd₁
          · cases hd₁
          · split at hd₁
            · cases hd₁
              rfl
            · split at hd₁
              · cases hd₁
                rfl
              · cases hd₁
  · cases hs
    rfl

theorem keyOf_congr (hdb : d'.db = d.db) : keyOf d' = keyOf d := by
  funext k
  rw [keyOf, keyOf, hdb]

theorem linkMapCodes_of_some (hs : d.updateLinkedCode code1 (some code2) = some d') :
    d.linkMapCodes code1 code2 = (d'.updateLinkedCode code2 (some code1)).getD d' := by
  rw [PlaytestDb.linkMapCodes, hs]

theorem linkMapCodes_of_none (hs : d.updateLinkedCode code1 (some code2) = none) :
    d.linkMapCodes code1 code2 = d := by
  rw [PlaytestDb.linkMapCodes, hs]

theorem keyOf_linkMapCodes (d : PlaytestDb) (code1 code2 : String) :
    keyOf (d.linkMapCodes code1 code2) = keyOf d := by
  apply keyOf_congr
  cases h₁ : d.updateLinkedCode code1 (some code2) with
  | none => rw [linkMapCodes_of_none h₁]
  | some d₁ =>
      have hdb := db_updateLinkedCode h₁
      rw [linkMapCodes_of_some h₁]
      cases h₂ : d₁.updateLinkedCode code2 (some code1) with
      | none => exact hdb
      | some d₂ => exact (db_updateLinkedCode h₂).trans hdb

/-- A link goes both ways. -/
theorem exists_linked_back (h : Linked (keyOf d) (ptrOf d)) (hm : d.mapOfCode (some code1) = some m)
    (hlinked : d.linkedCode m.id = some code2) :
    ∃ m', d.mapOfCode (some code2) = some m' ∧ m'.id ≠ m.id ∧
      d.linkedCode m'.id = some code1 := by
  obtain ⟨hrow, hcode⟩ := get?_of_mapOfCode hm
  have hkey : keyOf d m.id = some code1 := (keyOf_of_get? hrow).trans hcode
  have hptr : ptrOf d m.id = some code2 := (ptrOf_of_get? hrow).trans hlinked
  obtain ⟨k, hk⟩ := h.references m.id code2 hptr
  obtain ⟨m', hrow', hcode'⟩ := keyOf_eq_some.mp hk
  have hm' := mapOfCode_of_get? h hrow' hcode'
  obtain ⟨hrow'', -⟩ := get?_of_mapOfCode hm'
  have hkey' : keyOf d m'.id = some code2 := (keyOf_of_get? hrow'').trans hcode'
  refine ⟨m', hm', ?_, ?_⟩
  · intro hid
    rw [hid] at hkey'
    exact h.notSelf m.id code2 hptr hkey'
  · rw [← ptrOf_of_get? hrow'', h.symm m.id m'.id code2 hptr hkey', hkey]

/-- The first map has no row: the link of the second has nothing to refer to. -/
theorem linkMapCodes_absent (h : Linked (keyOf d) (ptrOf d))
    (hm : d.mapOfCode (some code1) = none) : d.linkMapCodes code1 code2 = d := by
  have hfirst : d.updateLinkedCode code1 (some code2) = some d := by
    simp only [PlaytestDb.updateLinkedCode, hm]
  rw [linkMapCodes_of_some hfirst]
  cases hm' : d.mapOfCode (some code2) with
  | none => simp only [PlaytestDb.updateLinkedCode, hm', Option.getD_some]
  | some m' =>
      have hsecond : d.updateLinkedCode code2 (some code1) = none := by
        apply updateLinkedCode_refused hm'
        · intro hlinked
          obtain ⟨m, hm₁, -⟩ := exists_linked_back h hm' hlinked
          rw [hm] at hm₁
          cases hm₁
        · intro _ m hm₁
          rw [hm] at hm₁
          cases hm₁
      rw [hsecond, Option.getD_none]

/-- The two are linked already. -/
theorem ptrOf_linkMapCodes_again (h : Linked (keyOf d) (ptrOf d))
    (hm : d.mapOfCode (some code1) = some m) (hlinked : d.linkedCode m.id = some code2) :
    ptrOf (d.linkMapCodes code1 code2) = ptrOf d := by
  obtain ⟨m', hm', hne, hback⟩ := exists_linked_back h hm hlinked
  obtain ⟨hrow, -⟩ := get?_of_mapOfCode hm
  obtain ⟨hrow', -⟩ := get?_of_mapOfCode hm'
  have hback' : (d.setLink m.id (some code2)).linkedCode m'.id = some code1 := by
    rw [← hback]
    exact Function.update_of_ne hne ..
  rw [linkMapCodes_of_some (updateLinkedCode_self hm hlinked),
    updateLinkedCode_self (d := d.setLink m.id (some code2)) hm' hback', Option.getD_some,
    ptrOf_setLink_self (d := d.setLink m.id (some code2)) hrow' hback',
    ptrOf_setLink_self hrow hlinked]

/-- The second has no link. -/
theorem ptrOf_linkMapCodes_free (hm : d.mapOfCode (some code1) = some m)
    (hm' : d.mapOfCode (some code2) = some m') (hne : code1 ≠ code2)
    (hlinked : d.linkedCode m.id ≠ some code2) (hfree : d.linkedCode m'.id = none) :
    ptrOf (d.linkMapCodes code1 code2) =
      setPair m.id m'.id (some code2) (some code1) (ptrOf d) := by
  obtain ⟨hrow, hcode⟩ := get?_of_mapOfCode hm
  obtain ⟨hrow', hcode'⟩ := get?_of_mapOfCode hm'
  have hid : m.id ≠ m'.id := by
    intro hid
    rw [hid, hrow'] at hrow
    cases hrow
    exact hne (Option.some.inj (hcode.symm.trans hcode'))
  have hback : ((d.setLink m'.id (some code1)).setLink m.id (some code2)).linkedCode m'.id =
      some code1 :=
    (Function.update_of_ne (Ne.symm hid) ..).trans (Function.update_self ..)
  rw [linkMapCodes_of_some (updateLinkedCode_free hm hm' hne hlinked hfree),
    updateLinkedCode_self (d := (d.setLink m'.id (some code1)).setLink m.id (some code2)) hm' hback,
    Option.getD_some,
    ptrOf_setLink_self (d := (d.setLink m'.id (some code1)).setLink m.id (some code2)) hrow' hback,
    ptrOf_setLink (d := d.setLink m'.id (some code1)) hrow, ptrOf_setLink hrow',
    Function.update_comm (Ne.symm hid), setPair]

/-- What `link_map_codes` does: nothing, or it links a map to one that has no link. -/
theorem linkMapCodes_cases (h : Linked (keyOf d) (ptrOf d)) (code1 code2 : String) :
    ptrOf (d.linkMapCodes code1 code2) = ptrOf d ∧ LinkKept d (.linkMapCodes code1 code2) ∨
      ∃ m m', d.mapOfCode (some code1) = some m ∧ d.mapOfCode (some code2) = some m' ∧
        m.id ≠ m'.id ∧ d.linkedCode m.id ≠ some code2 ∧ d.linkedCode m'.id = none ∧
        ptrOf (d.linkMapCodes code1 code2) =
          setPair m.id m'.id (some code2) (some code1) (ptrOf d) := by
  cases hm : d.mapOfCode (some code1) with
  | none =>
      refine .inl ⟨by rw [linkMapCodes_absent h hm], ?_⟩
      intro m hmem
      rw [hm] at hmem
      cases hmem
  | some m =>
      by_cases hlinked : d.linkedCode m.id = some code2
      · refine .inl ⟨ptrOf_linkMapCodes_again h hm hlinked, ?_⟩
        intro _ _ n hn _ _
        obtain ⟨m', hm', -, hback⟩ := exists_linked_back h hm hlinked
        rw [Option.mem_def, hm', Option.some.injEq] at hn
        subst hn
        rw [hback]
        exact Option.some_ne_none _
      · by_cases hfree : code1 ≠ code2 ∧ ∃ m', d.mapOfCode (some code2) = some m' ∧
            d.linkedCode m'.id = none
        · obtain ⟨hne, m', hm', hfree⟩ := hfree
          refine .inr ⟨m, m', rfl, hm', ?_, hlinked, hfree,
            ptrOf_linkMapCodes_free hm hm' hne hlinked hfree⟩
          intro hid
          obtain ⟨hrow, hcode⟩ := get?_of_mapOfCode hm
          obtain ⟨hrow', hcode'⟩ := get?_of_mapOfCode hm'
          rw [hid, hrow', Option.some.injEq] at hrow
          rw [← hrow, hcode', Option.some.injEq] at hcode
          exact hne hcode.symm
        · have hsome : code1 ≠ code2 → ∀ m', d.mapOfCode (some code2) = some m' →
              d.linkedCode m'.id ≠ none :=
            fun hne m' hm' hnone ↦ hfree ⟨hne, m', hm', hnone⟩
          refine .inl ⟨?_, ?_⟩
          · rw [linkMapCodes_of_none]
            apply updateLinkedCode_refused hm hlinked
            intro hne m' hm'
            refine ⟨hsome hne m' hm', fun hback ↦ hlinked ?_⟩
            obtain ⟨n, hn, -, hforth⟩ := exists_linked_back h hm' hback
            rw [hm, Option.some.injEq] at hn
            rw [hn, hforth]
          · intro n hn m' hm' hnm _
            apply hsome _ m' hm'
            rintro rfl
            exact hnm (Option.some.inj (hn.symm.trans hm'))

/-- What `unlink_map_codes` does: nothing, or it clears the links of two maps. -/
theorem unlinkMapCodes_cases (h : Linked (keyOf d) (ptrOf d)) (code : String) :
    keyOf (d.unlinkMapCodes code) = keyOf d ∧
      (ptrOf (d.unlinkMapCodes code) = ptrOf d ∨
        ∃ i j c, ptrOf d i = some c ∧ keyOf d j = some c ∧
          ptrOf (d.unlinkMapCodes code) = setPair i j none none (ptrOf d)) := by
  unfold PlaytestDb.unlinkMapCodes
  split
  · rename_i linkedCode hlinked
    obtain ⟨m, hm, hlinked⟩ := Option.bind_eq_some_iff.mp hlinked
    split
    · exact ⟨rfl, .inl rfl⟩
    · obtain ⟨m', hm', hne, hback⟩ := exists_linked_back h hm hlinked
      obtain ⟨hrow, -⟩ := get?_of_mapOfCode hm
      obtain ⟨hrow', hcode'⟩ := get?_of_mapOfCode hm'
      have hcleared : ((d.setLink m'.id none).setLink m.id none).linkedCode m'.id = none :=
        (Function.update_of_ne hne ..).trans (Function.update_self ..)
      rw [updateLinkedCode_clear hm hm' hlinked hback]
      simp only
      rw [updateLinkedCode_self (d := (d.setLink m'.id none).setLink m.id none) hm' hcleared,
        Option.getD_some]
      refine ⟨rfl, .inr ⟨m.id, m'.id, linkedCode, ?_, ?_, ?_⟩⟩
      · rw [ptrOf_of_get? hrow, hlinked]
      · rw [keyOf_of_get? hrow', hcode']
      · rw [ptrOf_setLink_self (d := (d.setLink m'.id none).setLink m.id none) hrow' hcleared,
          ptrOf_setLink (d := d.setLink m'.id none) hrow, ptrOf_setLink hrow',
          Function.update_comm hne, setPair]
  · exact ⟨rfl, .inl rfl⟩

end Links

/-! ## Codes -/

section Codes

variable {d d' : PlaytestDb} {m m' : CoreMap} {code newCode : String}

theorem keyOf_updateMaps (d : PlaytestDb) (p : CoreMap → Bool) (f : CoreMap → CoreMap) (hf) (i : Nat) :
    keyOf (d.updateMaps p f hf) i =
      (d.db.maps.get? i).bind fun m ↦ (if p m then f m else m).code := by
  rw [keyOf]
  show ((d.db.maps.modify p f hf).get? i).bind _ = _
  rw [Table.get?_modify, Option.bind_map]
  rfl

theorem ptrOf_updateMaps (d : PlaytestDb) (p : CoreMap → Bool) (f : CoreMap → CoreMap) (hf) :
    ptrOf (d.updateMaps p f hf) = ptrOf d := by
  funext i
  rw [ptrOf]
  show ((d.db.maps.modify p f hf).get? i).bind _ = _
  rw [Table.get?_modify, Option.bind_map]
  rfl

/-- An update that gives no map another code. -/
theorem keyOf_updateMaps_of_same {p : CoreMap → Bool} {f : CoreMap → CoreMap} {hf}
    (hcode : ∀ m ∈ d.db.maps.rows, p m = true → (f m).code = m.code) :
    keyOf (d.updateMaps p f hf) = keyOf d := by
  funext i
  rw [keyOf_updateMaps]
  apply Option.bind_congr
  intro m hm
  split
  · exact hcode m (Table.mem_of_get? hm) ‹_›
  · rfl

/-- The row of a code gets another one. -/
theorem keyOf_updateMaps_of_code (hm : d.mapOfCode (some code) = some m) {p : CoreMap → Bool}
    {f : CoreMap → CoreMap} {hf} {value : Option String}
    (hp : ∀ r ∈ d.db.maps.rows, p r = true ↔ r = m) (hcode : (f m).code = value) :
    keyOf (d.updateMaps p f hf) = Function.update (keyOf d) m.id value := by
  obtain ⟨hrow, -⟩ := get?_of_mapOfCode hm
  funext i
  rw [keyOf_updateMaps]
  by_cases hi : i = m.id
  · rw [hi, Function.update_self, hrow, Option.bind_some,
      if_pos ((hp m (Table.mem_of_get? hrow)).mpr rfl), hcode]
  · rw [Function.update_of_ne hi, keyOf]
    apply Option.bind_congr
    intro r hr
    have hne : r ≠ m := by
      rintro rfl
      exact hi (Table.key_of_get? hr).symm
    rw [if_neg fun hpr ↦ hne ((hp r (Table.mem_of_get? hr)).mp hpr)]

theorem keyOf_relink (d : PlaytestDb) (code : String) (value : Option String) :
    keyOf (d.relink code value) = keyOf d := by
  apply keyOf_congr
  rw [PlaytestDb.relink]
  split <;> rfl

/-- The links to a code follow it. -/
theorem ptrOf_relink (d : PlaytestDb) (code : String) (value : Option String) :
    ptrOf (d.relink code value) = cascade code value (ptrOf d) := by
  funext i
  rw [PlaytestDb.relink, cascade]
  split
  · rename_i hvalue
    subst hvalue
    split
    · assumption
    · rfl
  · cases hrow : d.db.maps.get? i with
    | none =>
        have hnone : ptrOf d i = none := by rw [ptrOf, hrow, Option.bind_none]
        rw [hnone, ptrOf]
        show (d.db.maps.get? i).bind _ = _
        rw [hrow]
        rfl
    | some r =>
        rw [ptrOf_of_get? hrow]
        exact ptrOf_of_get? (d := { d with linkedCode := _, writes := _ }) hrow

theorem cascade_of_absent (h : Linked (keyOf d) (ptrOf d)) (hnone : d.mapOfCode (some code) = none)
    (value : Option String) : cascade code value (ptrOf d) = ptrOf d := by
  funext i
  refine if_neg fun hi ↦ ?_
  obtain ⟨j, hj⟩ := h.references i code hi
  exact keyOf_ne_of_mapOfCode hnone j hj

/-- The rows of a code are its row. -/
theorem code_eq_some_iff (h : Linked (keyOf d) (ptrOf d)) (hm : d.mapOfCode (some code) = some m) :
    ∀ r ∈ d.db.maps.rows, r.code = some code ↔ r = m := by
  intro r hr
  obtain ⟨-, hcode⟩ := get?_of_mapOfCode hm
  refine ⟨fun hrc ↦ ?_, fun hrm ↦ by rw [hrm, hcode]⟩
  have hmr := mapOfCode_of_get? h (Table.get?_of_mem hr) hrc
  rw [hm, Option.some.injEq] at hmr
  exact hmr.symm

/-- What `update_core_map` does: it keeps the codes and the links, or renames a map. -/
theorem updateCoreMap_cases (h : Linked (keyOf d) (ptrOf d)) (p : MapPatchRequest)
    (hs : d.updateCoreMap code p = some d') :
    keyOf d' = keyOf d ∧ ptrOf d' = ptrOf d ∨
      ∃ i newCode, keyOf d i = some code ∧ (∀ k, keyOf d k ≠ some newCode) ∧
        keyOf d' = Function.update (keyOf d) i (some newCode) ∧
        ptrOf d' = cascade code (some newCode) (ptrOf d) := by
  have hrefused := codeRefused_eq_false hs
  rw [PlaytestDb.updateCoreMap] at hs
  split at hs
  · cases hs
    exact .inl ⟨rfl, rfl⟩
  · split at hs
    · rename_i newCode hnew
      rw [hrefused newCode hnew] at hs
      obtain rfl := Option.some.inj hs
      rw [keyOf_relink, ptrOf_relink, ptrOf_updateMaps]
      have hcode : ∀ m, (p.apply m).code = some newCode := fun m ↦ by
        rw [code_apply, hnew, Option.some_or]
      cases hm : d.mapOfCode (some code) with
      | none =>
          -- no row to rename
          refine .inl ⟨keyOf_updateMaps_of_same fun m hmem hmc ↦ ?_, cascade_of_absent h hm _⟩
          exfalso
          apply keyOf_ne_of_mapOfCode hm m.id
          rw [keyOf_of_get? (i := m.id) (Table.get?_of_mem hmem), of_decide_eq_true hmc]
      | some m =>
          have hp : ∀ r ∈ d.db.maps.rows, decide (r.code = some code) = true ↔ r = m := by
            simpa only [decide_eq_true_eq] using code_eq_some_iff h hm
          obtain ⟨hrow, hmc⟩ := get?_of_mapOfCode hm
          by_cases hsame : newCode = code
          · subst hsame
            refine .inl ⟨keyOf_updateMaps_of_same fun r hr hrc ↦ ?_, ?_⟩
            · rw [hcode, of_decide_eq_true hrc]
            · funext i
              rw [cascade]
              split
              · rename_i hi
                exact hi.symm
              · rfl
          · have hfree : d.mapOfCode (some newCode) = none := by
              have hnot := hrefused newCode hnew
              rw [PlaytestDb.codeRefused, hm, decide_eq_true hsame] at hnot
              simpa using hnot
            refine .inr ⟨m.id, newCode, ?_, keyOf_ne_of_mapOfCode hfree,
              keyOf_updateMaps_of_code hm hp (hcode m), rfl⟩
            rw [keyOf_of_get? hrow, hmc]
    · rename_i hnew
      obtain rfl := Option.some.inj hs
      refine .inl ⟨keyOf_updateMaps_of_same fun m _ _ ↦ ?_, ptrOf_updateMaps ..⟩
      rw [code_apply, hnew, Option.none_or]

/-- What `release_code` does: it keeps the codes and the links, or an archived map gives up its
code. -/
theorem releaseCode_cases (h : Linked (keyOf d) (ptrOf d)) (code : String) (mapId : Nat) :
    keyOf (d.releaseCode code mapId) = keyOf d ∧ ptrOf (d.releaseCode code mapId) = ptrOf d ∧
        LinkKept d (.releaseCode code mapId) ∨
      ∃ m, d.mapOfCode (some code) = some m ∧ m.archived = true ∧
        keyOf (d.releaseCode code mapId) = Function.update (keyOf d) m.id none ∧
        ptrOf (d.releaseCode code mapId) = cascade code none (ptrOf d) := by
  unfold PlaytestDb.releaseCode
  simp only
  split
  · rename_i harchived
    obtain ⟨m, hm, harchived⟩ := (Option.any_eq_true ..).mp harchived
    refine .inr ⟨m, hm, harchived, ?_, ?_⟩
    · rw [keyOf_relink]
      apply keyOf_updateMaps_of_code (d := { d with editRequests := _ }) hm
      · intro r hr
        rw [Bool.and_eq_true, decide_eq_true_eq, code_eq_some_iff h hm r hr]
        exact ⟨And.left, fun hrm ↦ ⟨hrm, hrm ▸ harchived⟩⟩
      · rfl
    · rw [ptrOf_relink, ptrOf_updateMaps]
      rfl
  · rename_i hkept
    refine .inl ⟨rfl, rfl, fun m hm harchived ↦ ?_⟩
    exact absurd ((Option.any_eq_true ..).mpr ⟨m, hm, harchived⟩) hkept

end Codes

/-! ## Runs -/

section Runs

variable {d : PlaytestDb} {l : LinkLabel}

/-- A call that replaces no link and releases no linked map keeps the pairing. -/
theorem linked_linkStep (h : Linked (keyOf d) (ptrOf d)) (hkept : LinkKept d l) :
    Linked (keyOf (linkStep d l)) (ptrOf (linkStep d l)) := by
  cases l with
  | linkMapCodes code1 code2 =>
      rw [linkStep, keyOf_linkMapCodes]
      rcases linkMapCodes_cases h code1 code2 with
        ⟨hptr, -⟩ | ⟨m, m', hm, hm', hne, -, hfree, hptr⟩
      · rw [hptr]
        exact h
      · obtain ⟨hrow, hcode⟩ := get?_of_mapOfCode hm
        obtain ⟨hrow', hcode'⟩ := get?_of_mapOfCode hm'
        have hunlinked : d.linkedCode m.id = none := by
          by_contra hlinked
          refine hkept m hm m' hm' ?_ hlinked hfree
          rintro rfl
          exact hne rfl
        rw [hptr]
        apply h.pair hne
        · rw [keyOf_of_get? hrow, hcode]
        · rw [keyOf_of_get? hrow', hcode']
        · rw [ptrOf_of_get? hrow, hunlinked]
        · rw [ptrOf_of_get? hrow', hfree]
  | unlinkMapCodes code =>
      obtain ⟨hkey, hptr | ⟨i, j, c, hi, hj, hptr⟩⟩ := unlinkMapCodes_cases h code
      · rw [linkStep, hkey, hptr]
        exact h
      · rw [linkStep, hkey, hptr]
        exact h.unpair hi hj
  | updateCoreMap code p =>
      rw [linkStep]
      cases hs : d.updateCoreMap code p with
      | none => exact h
      | some d' =>
          rw [Option.getD_some]
          rcases updateCoreMap_cases h p hs with
            ⟨hkey, hptr⟩ | ⟨i, newCode, hi, hfree, hkey, hptr⟩
          · rw [hkey, hptr]
            exact h
          · rw [hkey, hptr]
            exact h.rename hi hfree
  | releaseCode code mapId =>
      rcases releaseCode_cases h code mapId with
        ⟨hkey, hptr, -⟩ | ⟨m, hm, harchived, hkey, hptr⟩
      · rw [linkStep, hkey, hptr]
        exact h
      · obtain ⟨hrow, hcode⟩ := get?_of_mapOfCode hm
        rw [linkStep, hkey, hptr]
        apply h.release
        · rw [keyOf_of_get? hrow, hcode]
        · rw [ptrOf_of_get? hrow]
          exact hkept m hm harchived

/-- One call keeps the pairing exactly when it replaces no link and releases no linked map. -/
theorem paired_linkStep_iff (h : Linked (keyOf d) (ptrOf d)) :
    Paired (keyOf (linkStep d l)) (ptrOf (linkStep d l)) ↔ LinkKept d l := by
  refine ⟨fun hpaired ↦ ?_, fun hkept ↦ (linked_linkStep h hkept).toPaired⟩
  cases l with
  | linkMapCodes code1 code2 =>
      rcases linkMapCodes_cases h code1 code2 with
        ⟨-, hkept⟩ | ⟨m, m', hm, hm', hne, hother, hfree, hptr⟩
      · exact hkept
      · obtain ⟨hrow, hcode⟩ := get?_of_mapOfCode hm
        obtain ⟨hrow', hcode'⟩ := get?_of_mapOfCode hm'
        have hkey : keyOf d m.id = some code1 := (keyOf_of_get? hrow).trans hcode
        rw [linkStep, keyOf_linkMapCodes, hptr, ← hkey] at hpaired
        intro n hn n' hn' _ hlinked
        rw [Option.mem_def, hm, Option.some.injEq] at hn
        subst hn
        obtain ⟨old, hold⟩ := Option.ne_none_iff_exists'.mp hlinked
        exfalso
        apply h.not_paired_replace hne ((ptrOf_of_get? hrow).trans hold)
          ((keyOf_of_get? hrow').trans hcode') _ hpaired
        rintro rfl
        exact hother hold
  | releaseCode code mapId =>
      rcases releaseCode_cases h code mapId with
        ⟨-, -, hkept⟩ | ⟨m, hm, harchived, hkey, hptr⟩
      · exact hkept
      · obtain ⟨hrow, hcode⟩ := get?_of_mapOfCode hm
        rw [linkStep, hkey, hptr] at hpaired
        intro n hn _
        rw [Option.mem_def, hm, Option.some.injEq] at hn
        subst hn
        by_contra hlinked
        obtain ⟨old, hold⟩ := Option.ne_none_iff_exists'.mp hlinked
        exact h.not_paired_release ((keyOf_of_get? hrow).trans hcode)
          ((ptrOf_of_get? hrow).trans hold) hpaired
  | unlinkMapCodes code => trivial
  | updateCoreMap code p => trivial

/-- Whatever is linked, unlinked, renamed and released, in whatever order: the links pair the
maps in every state of a run, and a map without a code has none, exactly when no call of the
run replaces a link or releases a map that has one. -/
theorem links_paired_iff {d₀ d : PlaytestDb} {ls : List LinkLabel}
    (h : Linked (keyOf d₀) (ptrOf d₀)) :
    Run (fun d l d' ↦ d' = linkStep d l ∧ Paired (keyOf d') (ptrOf d')) d₀ ls d ↔
      Run (Guarded LinkKept fun d l d' ↦ d' = linkStep d l) d₀ ls d := by
  apply Run.congr fun d ↦ Linked (keyOf d) (ptrOf d)
  · intro d l d' h
    rw [Guarded, and_comm]
    apply and_congr_left
    rintro rfl
    exact paired_linkStep_iff h
  · rintro d l d' h ⟨rfl, hpaired⟩
    exact linked_linkStep h ((paired_linkStep_iff h).mp hpaired)
  · exact h

end Runs

/-! ## A released map -/

/-- Maps that are not linked are paired. -/
theorem linked_of_unlinked {d : PlaytestDb} (hinv : MapsInv d) (hnone : ∀ id, d.linkedCode id = none) :
    Linked (keyOf d) (ptrOf d) := by
  have hptr : ∀ i a, ptrOf d i ≠ some a := by
    intro i a hi
    obtain ⟨_, -, hlinked⟩ := Option.bind_eq_some_iff.mp hi
    rw [hnone] at hlinked
    cases hlinked
  refine ⟨⟨fun i j a hi ↦ absurd hi (hptr i a), fun i _ ↦ ?_⟩, fun i j a hi hj ↦ ?_,
    fun i a hi ↦ absurd hi (hptr i a), fun i a hi ↦ absurd hi (hptr i a)⟩
  · exact Option.eq_none_iff_forall_ne_some.mpr (hptr i)
  · obtain ⟨m, hm, hcode⟩ := keyOf_eq_some.mp hi
    obtain ⟨m', hm', hcode'⟩ := keyOf_eq_some.mp hj
    have heq := hinv.codes m (Table.mem_of_get? hm) m' (Table.mem_of_get? hm')
      (by rw [hcode]; exact Option.some_ne_none a) (hcode.trans hcode'.symm)
    rw [← Table.key_of_get? hm, ← Table.key_of_get? hm', heq]

/-- An archived map and another one. -/
def archivedAndCurrent : PlaytestDb :=
  (({} : PlaytestDb).createCoreMap fun id ↦
    { id, code := some "AAAA", difficulty := .easy, archived := true }).createCoreMap fun id ↦
      { id, code := some "BBBB", difficulty := .easy }

theorem linked_archivedAndCurrent : Linked (keyOf archivedAndCurrent) (ptrOf archivedAndCurrent) := by
  apply linked_of_unlinked
  · refine ⟨by decide, ?_, ?_⟩
    · intro pm hpm
      cases hpm
    · intro pm hpm
      cases hpm
  · exact fun _ ↦ rfl

/-- They are linked, and the archived one is released. -/
def releaseLinked : List LinkLabel := [.linkMapCodes "AAAA" "BBBB", .releaseCode "AAAA" 1]

/-- The map without a code goes on being linked. -/
theorem releaseLinked_not_paired :
    ¬ Paired (keyOf (releaseLinked.foldl linkStep archivedAndCurrent))
      (ptrOf (releaseLinked.foldl linkStep archivedAndCurrent)) := by
  intro hpaired
  have hreleased := hpaired.released 1 (by decide +kernel)
  revert hreleased
  decide +kernel

/-- The rule at that run. -/
theorem releaseLinked_paired_iff :
    Run (fun d l d' ↦ d' = linkStep d l ∧ Paired (keyOf d') (ptrOf d')) archivedAndCurrent
        releaseLinked (releaseLinked.foldl linkStep archivedAndCurrent) ↔
      Run (Guarded LinkKept fun d l d' ↦ d' = linkStep d l) archivedAndCurrent
        releaseLinked (releaseLinked.foldl linkStep archivedAndCurrent) :=
  links_paired_iff linked_archivedAndCurrent

end Genjishimada.Maps
