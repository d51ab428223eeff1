import Genjishimada.Services.Content
import Mathlib.Data.List.Induction

/-!
# The order of categories, difficulties and techniques

A list is displayed by the order values of its rows, which no statement of the service
writes except as the next value after the largest, by an exchange of two rows or by numbering
all of them.  In every state that the calls reach the values of each list are `1, …, n`, so that
the listing is unique and the statements of a reorder are one transposition of it
(`Library.listing_normalize_swapPositions`).
-/

namespace Genjishimada.Content

open Library Repository Services.ContentService

variable {Scan α β : Type} [Positioned α] [Positioned β] {q : OrderedList Scan β} {t : ContentTables}
  {x y : Nat} {σ : Scan}

/-! ## What a call does to the tables -/

@[simp] theorem rollback_self (t : ContentTables) : rollback t t = t := by
  simp [rollback, Table.skipTo]

omit [Positioned β] in
theorem deleteFrom_of_found (h : (q.delete t x).1 = true) :
    deleteFrom q σ x t = .ok ⟨⟩ (q.normalizeOrder (q.delete t x).2 σ) := by
  refine transaction_of_ok ?_
  simp [bind_apply, h]

section Reorder

variable {scans : ReorderScans Scan} {direction : Services.ContentService.Direction}

/-- A reorder of an id that is not there changes nothing. -/
theorem reorderIn_of_notMem (h : x ∉ (q.fetch t scans.shown).map key) :
    reorderIn q scans x direction t = .error (q.notFound x) t := by
  simp [-List.mem_map, bind_apply, reorderIn, transaction, h]

/-- A reorder past the boundary returns the list as it is. -/
theorem reorderIn_of_boundary (h : x ∈ (q.fetch t scans.shown).map key)
    (hnone : neighborId ((q.fetch t scans.shown).map key) x direction = none) :
    reorderIn q scans x direction t = .ok (q.fetch t scans.shown) t := by
  simp [-List.mem_map, bind_apply, reorderIn, transaction, h, hnone]

/-- A reorder exchanges the row with its neighbour and numbers the rows. -/
theorem reorderIn_of_neighbor (h : x ∈ (q.fetch t scans.shown).map key)
    (hsome : neighborId ((q.fetch t scans.shown).map key) x direction = some y) :
    reorderIn q scans x direction t =
      .ok (q.fetch (q.normalizeOrder (q.swapOrder t x y) scans.numbered) scans.returned)
        (q.normalizeOrder (q.swapOrder t x y) scans.numbered) := by
  simp [-List.mem_map, bind_apply, map_apply, reorderIn, transaction, h, hsome]

end Reorder

/-! ## The neighbour of an id -/

section Neighbor

variable {before after : List Nat}

theorem neighborId_up (h : (before ++ y :: x :: after).Nodup) :
    neighborId (before ++ y :: x :: after) x .up = some y := by
  have hx : x ∉ before ∧ x ≠ y := by
    simp only [List.nodup_append, List.nodup_cons] at h
    grind
  simp [neighborId, List.idxOf_append, hx.1, Ne.symm hx.2]

theorem neighborId_down (h : (before ++ x :: y :: after).Nodup) :
    neighborId (before ++ x :: y :: after) x .down = some y := by
  have hx : x ∉ before := by
    simp only [List.nodup_append, List.nodup_cons] at h
    grind
  simp [neighborId, List.idxOf_append, hx]

theorem neighborId_first : neighborId (x :: after) x .up = none := by simp [neighborId]

theorem neighborId_last (h : (before ++ [x]).Nodup) : neighborId (before ++ [x]) x .down = none := by
  have hx : x ∉ before := by
    simp only [List.nodup_append, List.nodup_cons] at h
    grind
  simp [neighborId, List.idxOf_append, hx]

end Neighbor

/-! ## A list and the table it shows -/

/-- `q` lists the rows of `table`, each as `shown` shows it, and its statements leave what else is
shown of a row alone. -/
structure Displays (q : OrderedList Scan β) (table : ContentTables → Table α)
    (shuffle : Scan → Shuffle α) (shown : ContentTables → Scan → α → β) : Prop where
  fetch : ∀ t σ, q.fetch t σ = (listing (shuffle σ) (table t)).map (shown t σ)
  key_shown : ∀ t σ r, key (shown t σ r) = key r
  shown_setPos : ∀ t σ n r, shown t σ (setPos n r) = setPos n (shown t σ r)
  table_swap : ∀ t x y, table (q.swapOrder t x y) = swapPositions x y (table t)
  shown_swap : ∀ t x y σ, shown (q.swapOrder t x y) σ = shown t σ
  table_normalize : ∀ t σ, table (q.normalizeOrder t σ) = normalize (shuffle σ) (table t)
  shown_normalize : ∀ t σ τ, shown (q.normalizeOrder t σ) τ = shown t τ
  found : ∀ t x, (q.delete t x).1 = ((table t).get? x).isSome
  table_delete : ∀ t x, table (q.delete t x).2 = (table t).delete fun r ↦ key r = x
  shown_delete : ∀ t x σ r, key r ≠ x → shown (q.delete t x).2 σ r = shown t σ r

namespace Displays

variable {table : ContentTables → Table α} {shuffle : Scan → Shuffle α}
  {shown : ContentTables → Scan → α → β}

theorem pos_shown (h : Displays q table shuffle shown) (t : ContentTables) (σ : Scan) (r : α) :
    pos (shown t σ r) = pos r := by
  rw [← Positioned.setPos_pos r, h.shown_setPos, Positioned.pos_setPos, Positioned.pos_setPos]

theorem map_key_fetch (h : Displays q table shuffle shown) (t : ContentTables) (σ : Scan) :
    (q.fetch t σ).map key = (listing (shuffle σ) (table t)).map key := by
  rw [h.fetch, List.map_map]
  exact List.map_congr_left fun r _ ↦ h.key_shown t σ r

theorem map_pos_fetch (h : Displays q table shuffle shown) (t : ContentTables) (σ : Scan) :
    (q.fetch t σ).map pos = (listing (shuffle σ) (table t)).map pos := by
  rw [h.fetch, List.map_map]
  exact List.map_congr_left fun r _ ↦ h.pos_shown t σ r

theorem nodup_ids (h : Displays q table shuffle shown) (t : ContentTables) (σ : Scan) :
    ((q.fetch t σ).map key).Nodup := by
  rw [h.map_key_fetch]
  exact nodup_map_key_listing _ _

theorem mem_ids (h : Displays q table shuffle shown) (σ : Scan) :
    x ∈ (q.fetch t σ).map key ↔ x ∈ (table t).rows.map key := by
  rw [h.map_key_fetch]
  exact ((listing_perm _ _).map key).mem_iff

/-- In a table in sequence the order values of the list are `1, …, n`. -/
theorem map_pos_range (h : Displays q table shuffle shown) (hs : Sequential (table t)) (σ : Scan) :
    (q.fetch t σ).map pos = List.range' 1 (q.fetch t σ).length := by
  rw [h.map_pos_fetch, hs.map_pos_listing, h.fetch, List.length_map]

/-- All queries see the ids in one order. -/
theorem ids_congr (h : Displays q table shuffle shown) (hs : Sequential (table t)) (σ τ : Scan) :
    (q.fetch t σ).map key = (q.fetch t τ).map key := by
  rw [h.map_key_fetch, h.map_key_fetch, listing_congr hs.nodup (shuffle σ) (shuffle τ)]

/-- What a list shows once two neighbours have been exchanged and the rows numbered. -/
theorem fetch_transposed (h : Displays q table shuffle shown) (hs : Sequential (table t))
    {before after : List β} {a b : β} (hl : q.fetch t σ = before ++ a :: b :: after) (υ : Scan) :
    q.fetch (q.normalizeOrder (q.swapOrder t (key a) (key b)) υ) σ =
      renumber (before ++ b :: a :: after) := by
  rw [h.fetch] at hl
  obtain ⟨before', rest, hl', rfl, hrest⟩ := List.map_eq_append_iff.mp hl
  obtain ⟨a', rest', rfl, rfl, hrest'⟩ := List.map_eq_cons_iff.mp hrest
  obtain ⟨b', after', rfl, rfl, rfl⟩ := List.map_eq_cons_iff.mp hrest'
  rw [h.fetch, h.table_normalize, h.table_swap, h.shown_normalize, h.shown_swap, h.key_shown,
    h.key_shown, listing_normalize_swapPositions hs.nodup hl', map_renumber (h.shown_setPos t σ)]
  simp

/-- What a list shows once a row is deleted and the others are numbered. -/
theorem fetch_deleted (h : Displays q table shuffle shown) (hs : Sequential (table t)) (x : Nat)
    (υ : Scan) : q.fetch (q.normalizeOrder (q.delete t x).2 υ) σ =
      renumber ((q.fetch t σ).filter fun b ↦ key b ≠ x) := by
  have hshown : ((listing (shuffle σ) (table t)).filter fun r ↦ !decide (key r = x)).map
      (shown (q.delete t x).2 σ) =
        ((listing (shuffle σ) (table t)).filter fun r ↦ !decide (key r = x)).map (shown t σ) := by
    refine List.map_congr_left fun r hr ↦ h.shown_delete t x σ r ?_
    simpa using (List.mem_filter.mp hr).2
  rw [h.fetch, h.table_normalize, h.table_delete, h.shown_normalize,
    listing_normalize_delete (σ := shuffle σ) hs.nodup, map_renumber (h.shown_setPos _ σ), hshown,
    h.fetch, List.filter_map]
  refine congrArg (fun m ↦ renumber (m.map (shown t σ))) (List.filter_congr fun r _ ↦ ?_)
  simp [h.key_shown]

end Displays

/-! ## What a list promises -/

/-- From `t` to `t'` the displayed neighbours `a` and `b` are exchanged and the order values are
`1, …, n`. -/
structure Exchanges (q : OrderedList Scan β) (t t' : ContentTables) (σ : Scan) (before : List β)
    (a b : β) (after : List β) : Prop where
  list : q.fetch t' σ = renumber (before ++ b :: a :: after)
  range : (q.fetch t' σ).map pos = List.range' 1 (q.fetch t' σ).length
  /-- No other pair is moved. -/
  precedes : ∀ x y, ¬ (x = key a ∧ y = key b) → ¬ (x = key b ∧ y = key a) →
    (Precedes (q.fetch t σ) x y ↔ Precedes (q.fetch t' σ) x y)

/-- What holds of the list `q` serves, in the state `t`. -/
structure KeepsOrder (q : OrderedList Scan β) (t : ContentTables) : Prop where
  /-- The order values are pairwise distinct. -/
  distinct : ∀ τ, ((q.fetch t τ).map pos).Nodup
  /-- A delete takes the row out, keeps the order of the rest and leaves the values `1, …, n`. -/
  delete : ∀ σ x, x ∈ (q.fetch t σ).map key → ∃ t', deleteFrom q σ x t = .ok ⟨⟩ t' ∧ ∀ τ,
    q.fetch t' τ = renumber ((q.fetch t τ).filter fun b ↦ key b ≠ x) ∧
    (q.fetch t' τ).map pos = List.range' 1 (q.fetch t' τ).length
  /-- The first row cannot go up. -/
  first : ∀ scans a after, q.fetch t scans.shown = a :: after →
    reorderIn q scans (key a) .up t = .ok (a :: after) t
  /-- The last row cannot go down. -/
  last : ∀ scans before a, q.fetch t scans.shown = before ++ [a] →
    reorderIn q scans (key a) .down t = .ok (before ++ [a]) t
  /-- Any other row going up is exchanged with the one before. -/
  up : ∀ σ before a b after, q.fetch t σ = before ++ a :: b :: after → ∀ scans, ∃ t',
    reorderIn q scans (key b) .up t = .ok (q.fetch t' scans.returned) t' ∧
      Exchanges q t t' σ before a b after
  /-- Any other row going down is exchanged with the one after. -/
  down : ∀ σ before a b after, q.fetch t σ = before ++ a :: b :: after → ∀ scans, ∃ t',
    reorderIn q scans (key a) .down t = .ok (q.fetch t' scans.returned) t' ∧
      Exchanges q t t' σ before a b after
  /-- Going up and then down again restores the list, except for the first row. -/
  restore : ∀ σ x, x ∈ ((q.fetch t σ).map key).tail → ∀ scans scans', ∃ l t' l' t'',
    reorderIn q scans x .up t = .ok l t' ∧ reorderIn q scans' x .down t' = .ok l' t'' ∧
    ∀ τ, q.fetch t'' τ = q.fetch t τ

namespace Displays

variable {table : ContentTables → Table α} {shuffle : Scan → Shuffle α}
  {shown : ContentTables → Scan → α → β}

theorem exchanges (h : Displays q table shuffle shown) (hs : Sequential (table t))
    {before after : List β} {a b : β} (hl : q.fetch t σ = before ++ a :: b :: after) (υ : Scan) :
    Exchanges q t (q.normalizeOrder (q.swapOrder t (key a) (key b)) υ) σ before a b after := by
  have hfetch := h.fetch_transposed hs hl υ
  refine ⟨hfetch, ?_, fun x y hne hne' ↦ ?_⟩
  · rw [hfetch, map_pos_renumber, length_renumber]
  · rw [hl, hfetch, precedes_swap hne hne', Precedes, Precedes, map_key_renumber]

/-- Which of the two neighbours is named first does not matter. -/
theorem fetch_swap_comm (h : Displays q table shuffle shown) (x y : Nat) (υ τ : Scan) :
    q.fetch (q.normalizeOrder (q.swapOrder t x y) υ) τ =
      q.fetch (q.normalizeOrder (q.swapOrder t y x) υ) τ := by
  rw [h.fetch, h.fetch, h.table_normalize, h.table_normalize, h.table_swap, h.table_swap,
    h.shown_normalize, h.shown_normalize, h.shown_swap, h.shown_swap, swapPositions_comm]

theorem sequential_normalizeOrder (h : Displays q table shuffle shown) (t : ContentTables) (υ : Scan) :
    Sequential (table (q.normalizeOrder t υ)) := by
  rw [h.table_normalize]
  exact sequential_normalize _ _

theorem reorderIn_up (h : Displays q table shuffle shown) (hs : Sequential (table t))
    {before after : List β} {a b : β} (hl : q.fetch t σ = before ++ a :: b :: after)
    (scans : ReorderScans Scan) : ∃ t', Sequential (table t') ∧
      reorderIn q scans (key b) .up t = .ok (q.fetch t' scans.returned) t' ∧
      Exchanges q t t' σ before a b after := by
  have hids : (q.fetch t scans.shown).map key =
      before.map key ++ key a :: key b :: after.map key := by
    rw [h.ids_congr hs scans.shown σ, hl]
    simp
  have hmem : key b ∈ (q.fetch t scans.shown).map key := by simp [hids]
  have hneighbor := neighborId_up (hids ▸ h.nodup_ids t scans.shown)
  refine ⟨_, h.sequential_normalizeOrder _ _, reorderIn_of_neighbor hmem (hids ▸ hneighbor), ?_⟩
  have hex := h.exchanges hs hl scans.numbered
  constructor
  · rw [h.fetch_swap_comm, hex.list]
  · rw [h.fetch_swap_comm, hex.range]
  · intro x y hne hne'
    rw [h.fetch_swap_comm, hex.precedes x y hne hne']

theorem reorderIn_down (h : Displays q table shuffle shown) (hs : Sequential (table t))
    {before after : List β} {a b : β} (hl : q.fetch t σ = before ++ a :: b :: after)
    (scans : ReorderScans Scan) : ∃ t', Sequential (table t') ∧
      reorderIn q scans (key a) .down t = .ok (q.fetch t' scans.returned) t' ∧
      Exchanges q t t' σ before a b after := by
  have hids : (q.fetch t scans.shown).map key =
      before.map key ++ key a :: key b :: after.map key := by
    rw [h.ids_congr hs scans.shown σ, hl]
    simp
  have hmem : key a ∈ (q.fetch t scans.shown).map key := by simp [hids]
  have hneighbor := neighborId_down (hids ▸ h.nodup_ids t scans.shown)
  exact ⟨_, h.sequential_normalizeOrder _ _, reorderIn_of_neighbor hmem (hids ▸ hneighbor),
    h.exchanges hs hl scans.numbered⟩

/-- Rows whose ids are neighbours among the ids of the list are neighbours of the list. -/
theorem exists_neighbors {l : List β} {before after : List Nat}
    (h : l.map key = before ++ x :: y :: after) :
    ∃ before' a b after', l = before' ++ a :: b :: after' ∧ before'.map key = before ∧ key a = x ∧
      key b = y ∧ after'.map key = after := by
  obtain ⟨before', rest, rfl, hbefore, hrest⟩ := List.map_eq_append_iff.mp h
  obtain ⟨a, rest', rfl, ha, hrest'⟩ := List.map_eq_cons_iff.mp hrest
  obtain ⟨b, after', rfl, hb, hafter⟩ := List.map_eq_cons_iff.mp hrest'
  exact ⟨before', a, b, after', rfl, hbefore, ha, hb, hafter⟩

/-- Exchanging two neighbours twice restores the list. -/
theorem fetch_restored (h : Displays q table shuffle shown) (hs : Sequential (table t))
    {before after : List Nat} (hl : (q.fetch t σ).map key = before ++ y :: x :: after) (υ υ' : Scan) :
    q.fetch (q.normalizeOrder
      (q.swapOrder (q.normalizeOrder (q.swapOrder t x y) υ) x y) υ') σ = q.fetch t σ := by
  obtain ⟨before, a, b, after, hrows, rfl, rfl, rfl, rfl⟩ := exists_neighbors hl
  have hs' := h.sequential_normalizeOrder (q.swapOrder t (key b) (key a)) υ
  have honce : q.fetch (q.normalizeOrder (q.swapOrder t (key b) (key a)) υ) σ =
      renumber (before ++ b :: a :: after) := by
    rw [h.fetch_swap_comm, h.fetch_transposed hs hrows]
  have hids := congrArg (List.map key) honce
  rw [map_key_renumber, List.map_append, List.map_cons, List.map_cons] at hids
  obtain ⟨before', b', a', after', hrows', hbefore, hb, ha, -⟩ := exists_neighbors hids
  have htwice := h.fetch_transposed hs' hrows' υ'
  rw [hb, ha] at htwice
  rw [htwice, ← renumber_eq_self (h.map_pos_range hs σ), hrows]
  -- the rows of the two lists differ in their positions only
  have hsame := congrArg unplaced (hrows'.symm.trans honce)
  rw [unplaced_renumber] at hsame
  simp only [unplaced, List.map_append, List.map_cons] at hsame
  have hlength : (before'.map (setPos 0)).length = (before.map (setPos 0)).length := by
    simpa using congrArg List.length hbefore
  obtain ⟨hbefore', hrest⟩ := List.append_inj hsame hlength
  simp only [List.cons.injEq] at hrest
  refine renumber_congr ?_
  simp only [unplaced, List.map_append, List.map_cons, hbefore', hrest]

theorem restores (h : Displays q table shuffle shown) (hs : Sequential (table t))
    (hx : x ∈ ((q.fetch t σ).map key).tail) (scans scans' : ReorderScans Scan) : ∃ l t' l' t'',
      reorderIn q scans x .up t = .ok l t' ∧ reorderIn q scans' x .down t' = .ok l' t'' ∧
      ∀ τ, q.fetch t'' τ = q.fetch t τ := by
  obtain ⟨y, before, after, hids⟩ : ∃ y before after,
      (q.fetch t σ).map key = before ++ y :: x :: after := by
    obtain ⟨before, after, htail⟩ := List.append_of_mem hx
    cases hl : (q.fetch t σ).map key with
    | nil => simp [hl] at hx
    | cons z ids =>
        rw [hl, List.tail_cons] at htail
        subst htail
        rcases before.eq_nil_or_concat with rfl | ⟨init, y, rfl⟩
        · exact ⟨z, [], after, rfl⟩
        · exact ⟨y, z :: init, after, by simp⟩
  have hshown := (h.ids_congr hs scans.shown σ).trans hids
  have hup := neighborId_up (hshown ▸ h.nodup_ids t scans.shown)
  let t' := q.normalizeOrder (q.swapOrder t x y) scans.numbered
  have hs' : Sequential (table t') := h.sequential_normalizeOrder _ _
  have hids' : (q.fetch t' scans'.shown).map key = before ++ x :: y :: after := by
    obtain ⟨_, a, b, _, hl, rfl, rfl, rfl, rfl⟩ := exists_neighbors hids
    rw [h.ids_congr hs' scans'.shown σ, h.fetch_swap_comm, h.fetch_transposed hs hl,
      map_key_renumber, List.map_append, List.map_cons, List.map_cons]
  have hdown := neighborId_down (hids' ▸ h.nodup_ids t' scans'.shown)
  refine ⟨_, _, _, _, reorderIn_of_neighbor (by simp [hshown]) (hshown ▸ hup),
    reorderIn_of_neighbor (by simp [hids', t']) (hids' ▸ hdown), fun τ ↦ ?_⟩
  exact h.fetch_restored hs ((h.ids_congr hs τ σ).trans hids) _ _

/-- A list whose table is in sequence keeps its order. -/
theorem keepsOrder (h : Displays q table shuffle shown) (hs : Sequential (table t)) :
    KeepsOrder q t where
  distinct τ := by
    rw [h.map_pos_range hs τ]
    exact List.nodup_range'
  delete σ x hx := by
    have hfound : (q.delete t x).1 = true := by
      obtain ⟨r, hr, rfl⟩ := List.mem_map.mp ((h.mem_ids σ).mp hx)
      rw [h.found, (table t).get?_of_mem hr]
      rfl
    refine ⟨_, deleteFrom_of_found hfound, fun τ ↦ ⟨h.fetch_deleted hs x σ, ?_⟩⟩
    exact h.map_pos_range (h.sequential_normalizeOrder _ _) τ
  first scans a after hl := by
    rw [← hl]
    exact reorderIn_of_boundary (by simp [hl]) (by simp [hl, neighborId_first])
  last scans before a hl := by
    have hids : (q.fetch t scans.shown).map key = before.map key ++ [key a] := by simp [hl]
    have hlast := neighborId_last (hids ▸ h.nodup_ids t scans.shown)
    rw [← hl]
    exact reorderIn_of_boundary (by simp [hl]) (hids ▸ hlast)
  up σ before a b after hl scans := by
    obtain ⟨t', -, hrun, hex⟩ := h.reorderIn_up hs hl scans
    exact ⟨t', hrun, hex⟩
  down σ before a b after hl scans := by
    obtain ⟨t', -, hrun, hex⟩ := h.reorderIn_down hs hl scans
    exact ⟨t', hrun, hex⟩
  restore σ x hx scans scans' := h.restores hs hx scans scans'

end Displays

/-! ## The three lists -/

theorem displays_categories :
    Displays categories ContentTables.categories (fun σ ↦ σ) fun _ _ r ↦ r where
  fetch _ _ := (List.map_id' _).symm
  key_shown _ _ _ := rfl
  shown_setPos _ _ _ _ := rfl
  table_swap _ _ _ := rfl
  shown_swap _ _ _ _ := rfl
  table_normalize _ _ := rfl
  shown_normalize _ _ _ := rfl
  found _ _ := rfl
  table_delete _ _ := rfl
  shown_delete _ _ _ _ _ := rfl

theorem displays_difficulties :
    Displays difficulties ContentTables.difficulties (fun σ ↦ σ) fun _ _ r ↦ r where
  fetch _ _ := (List.map_id' _).symm
  key_shown _ _ _ := rfl
  shown_setPos _ _ _ _ := rfl
  table_swap _ _ _ := rfl
  shown_swap _ _ _ _ := rfl
  table_normalize _ _ := rfl
  shown_normalize _ _ _ := rfl
  found _ _ := rfl
  table_delete _ _ := rfl
  shown_delete _ _ _ _ _ := rfl

theorem displays_techniques :
    Displays techniques ContentTables.techniques TechniqueScan.rows ContentTables.technique where
  fetch _ _ := rfl
  key_shown _ _ _ := rfl
  shown_setPos _ _ _ _ := rfl
  table_swap _ _ _ := rfl
  shown_swap _ _ _ _ := rfl
  table_normalize _ _ := rfl
  shown_normalize _ _ _ := rfl
  found _ _ := rfl
  table_delete _ _ := rfl
  shown_delete t x σ r hr := by
    -- the tips and the videos of another technique stay
    have hkeep : ∀ n : Nat, n = r.id → ¬ n = x := fun n hn hx ↦ hr (hn.symm.trans hx)
    have htips : (t.tips.delete fun tip ↦ decide (tip.techniqueId = x)).select
        (fun tip ↦ decide (tip.techniqueId = r.id)) =
          t.tips.select fun tip ↦ decide (tip.techniqueId = r.id) := by
      rw [Table.select, Table.rows_delete, List.filter_filter]
      refine List.filter_congr fun tip _ ↦ ?_
      have := hkeep tip.techniqueId
      grind
    have hvideos : (t.videos.delete fun vid ↦ decide (vid.techniqueId = x)).select
        (fun vid ↦ decide (vid.techniqueId = r.id)) =
          t.videos.select fun vid ↦ decide (vid.techniqueId = r.id) := by
      rw [Table.select, Table.rows_delete, List.filter_filter]
      refine List.filter_congr fun vid _ ↦ ?_
      have := hkeep vid.techniqueId
      grind
    simp only [techniques, ContentTables.technique, ContentTables.deleteTechnique, htips, hvideos]

/-! ## Runs -/

/-- The order values of each list are `1, …, n`. -/
structure InSequence (t : ContentTables) : Prop where
  categories : Sequential t.categories
  difficulties : Sequential t.difficulties
  techniques : Sequential t.techniques

/-- The state after a list of calls, one at a time, on the tables of the migration. -/
def afterCalls (calls : List ContentCall) : ContentTables := calls.foldl ContentCall.after {}

omit [Positioned β] in
theorem final_deleteFrom (q : OrderedList Scan β) (σ : Scan) (x : Nat) (t : ContentTables) :
    final (deleteFrom q σ x t) = q.normalizeOrder (q.delete t x).2 σ ∨
      final (deleteFrom q σ x t) = rollback t (q.delete t x).2 := by
  cases h : (q.delete t x).1 with
  | true =>
      rw [deleteFrom_of_found h]
      exact .inl rfl
  | false =>
      refine .inr (congrArg final (transaction_of_error (e := q.notFound x) ?_))
      simp [bind_apply, h]

theorem final_reorderIn (q : OrderedList Scan β) (scans : ReorderScans Scan) (x : Nat)
    (direction : Services.ContentService.Direction) (t : ContentTables) :
    final (reorderIn q scans x direction t) = t ∨
      ∃ y, final (reorderIn q scans x direction t) =
        q.normalizeOrder (q.swapOrder t x y) scans.numbered := by
  by_cases hx : x ∈ (q.fetch t scans.shown).map key
  · cases h : neighborId ((q.fetch t scans.shown).map key) x direction with
    | none => exact .inl (by rw [reorderIn_of_boundary hx h, final])
    | some y => exact .inr ⟨y, by rw [reorderIn_of_neighbor hx h, final]⟩
  · exact .inl (by rw [reorderIn_of_notMem hx, final])

namespace InSequence

theorem of_eq {t' : ContentTables} (ht : t = t') (h : InSequence t') : InSequence t := ht ▸ h

theorem empty : InSequence {} := ⟨.refl _, .refl _, .refl _⟩

theorem rollback {t' : ContentTables} (h : InSequence t) : InSequence (rollback t t') :=
  ⟨h.categories, h.difficulties, h.techniques⟩

theorem sequential_createLevel {levels : Table LevelRow} (h : Sequential levels) (name : String) :
    Sequential (ContentTables.createLevel levels name).2 := by
  rw [ContentTables.createLevel]
  split
  · exact h
  · exact sequential_insert h rfl

theorem createCategory (h : InSequence t) (name : String) :
    InSequence (t.createCategory name).2 :=
  ⟨sequential_createLevel h.categories name, h.difficulties, h.techniques⟩

theorem createDifficulty (h : InSequence t) (name : String) :
    InSequence (t.createDifficulty name).2 :=
  ⟨h.categories, sequential_createLevel h.difficulties name, h.techniques⟩

theorem createTechnique (h : InSequence t) (name : String) (description instructions : Option String)
    (categoryId difficultyId : Option Nat) :
    InSequence (t.createTechnique name description instructions categoryId difficultyId).2 := by
  rw [ContentTables.createTechnique]
  split
  · exact ⟨h.categories, h.difficulties, sequential_insert h.techniques rfl⟩
  · exact ⟨h.categories, h.difficulties, h.techniques⟩

theorem deleteCategory (h : InSequence t) (x : Nat) (σ : Shuffle LevelRow) :
    InSequence ((t.deleteCategory x).2.normalizeCategorySortOrder σ) :=
  have htechniques : Sequential (t.deleteCategory x).2.techniques :=
    sequential_modify (by exact fun _ ↦ rfl) h.techniques fun _ ↦ rfl
  ⟨sequential_normalize _ _, h.difficulties, htechniques⟩

theorem deleteDifficulty (h : InSequence t) (x : Nat) (σ : Shuffle LevelRow) :
    InSequence ((t.deleteDifficulty x).2.normalizeDifficultySortOrder σ) :=
  have htechniques : Sequential (t.deleteDifficulty x).2.techniques :=
    sequential_modify (by exact fun _ ↦ rfl) h.techniques fun _ ↦ rfl
  ⟨h.categories, sequential_normalize _ _, htechniques⟩

theorem deleteTechnique (h : InSequence t) (x : Nat) (σ : TechniqueScan) :
    InSequence ((t.deleteTechnique x).2.normalizeTechniqueDisplayOrder σ) :=
  ⟨h.categories, h.difficulties, sequential_normalize _ _⟩

end InSequence

theorem final_createCategory (name : String) (t : ContentTables) :
    final (createCategory name t) = (t.createCategory name).2 := by
  rcases h : t.createCategory name with ⟨_ | row, t'⟩ <;>
    simp [bind_apply, createCategory, h, final]

theorem final_createDifficulty (name : String) (t : ContentTables) :
    final (createDifficulty name t) = (t.createDifficulty name).2 := by
  rcases h : t.createDifficulty name with ⟨_ | row, t'⟩ <;>
    simp [bind_apply, createDifficulty, h, final]

theorem final_createTechnique (scan : TechniqueScan) (data : TechniqueCreate) (t : ContentTables) :
    let made := (t.createTechnique data.name data.description data.instructions data.categoryId
      data.difficultyId).2
    final (createTechnique scan data t) = rollback t made ∨ ∃ id, final (createTechnique scan data t) =
      (made.insertTechniqueTips id data.tips).insertTechniqueVideos id data.videos := by
  rcases h : t.createTechnique data.name data.description data.instructions data.categoryId
    data.difficultyId with ⟨_ | row, t'⟩
  · refine .inl (congrArg final (transaction_of_error (e := .foreignKeyViolation) ?_))
    simp [bind_apply, h]
  · let t'' := (t'.insertTechniqueTips row.id data.tips).insertTechniqueVideos row.id data.videos
    have hret : createTechnique scan data t = .ok (t''.fetchTechniqueById scan row.id) t'' := by
      refine transaction_of_ok ?_
      simp [bind_apply, map_apply, h, t'']
    exact .inr ⟨row.id, congrArg final hret⟩

/-- No call takes a list out of sequence. -/
theorem inSequence_after (h : InSequence t) (call : ContentCall) : InSequence (call.after t) := by
  cases call with
  | createCategory name => exact .of_eq (final_createCategory name t) (h.createCategory name)
  | createDifficulty name => exact .of_eq (final_createDifficulty name t) (h.createDifficulty name)
  | createTechnique scan data =>
      have hmade := h.createTechnique data.name data.description data.instructions data.categoryId
        data.difficultyId
      rcases final_createTechnique scan data t with hf | ⟨id, hf⟩
      · exact .of_eq hf h.rollback
      · exact .of_eq hf ⟨hmade.categories, hmade.difficulties, hmade.techniques⟩
  | deleteCategory scan id =>
      rcases final_deleteFrom categories scan id t with hf | hf
      · exact .of_eq hf (h.deleteCategory id scan)
      · exact .of_eq hf h.rollback
  | deleteDifficulty scan id =>
      rcases final_deleteFrom difficulties scan id t with hf | hf
      · exact .of_eq hf (h.deleteDifficulty id scan)
      · exact .of_eq hf h.rollback
  | deleteTechnique scan id =>
      rcases final_deleteFrom techniques scan id t with hf | hf
      · exact .of_eq hf (h.deleteTechnique id scan)
      · exact .of_eq hf h.rollback
  | reorderCategory scans id direction =>
      rcases final_reorderIn categories scans id direction t with hf | ⟨y, hf⟩
      · exact .of_eq hf h
      · exact .of_eq hf ⟨sequential_normalize _ _, h.difficulties, h.techniques⟩
  | reorderDifficulty scans id direction =>
      rcases final_reorderIn difficulties scans id direction t with hf | ⟨y, hf⟩
      · exact .of_eq hf h
      · exact .of_eq hf ⟨h.categories, sequential_normalize _ _, h.techniques⟩
  | reorderTechnique scans id direction =>
      rcases final_reorderIn techniques scans id direction t with hf | ⟨y, hf⟩
      · exact .of_eq hf h
      · exact .of_eq hf ⟨h.categories, h.difficulties, sequential_normalize _ _⟩

/-- Every state the calls reach is in sequence. -/
theorem inSequence_afterCalls (calls : List ContentCall) : InSequence (afterCalls calls) := by
  induction calls using List.reverseRecOn with
  | nil => exact .empty
  | append_singleton calls call ih =>
      rw [afterCalls, List.foldl_append]
      exact inSequence_after ih call

/-- In every state that creates, deletes and reorders reach, each of the three lists keeps its
order. -/
theorem lists_keepOrder (calls : List ContentCall) :
    KeepsOrder categories (afterCalls calls) ∧ KeepsOrder difficulties (afterCalls calls) ∧
      KeepsOrder techniques (afterCalls calls) :=
  have h := inSequence_afterCalls calls
  ⟨displays_categories.keepsOrder h.categories, displays_difficulties.keepsOrder h.difficulties,
    displays_techniques.keepsOrder h.techniques⟩

end Genjishimada.Content
