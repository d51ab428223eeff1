import Genjishimada.Repository.MapSearch

/-!
# What the map search finds

The rows of the query against the maps that satisfy the filters.  The intersection of two
CTEs or more holds each map once, and one CTE alone holds each map once unless it is the one
of `creator_ids`, which holds a map once for each of its creators that is asked for.
-/

namespace Genjishimada.Maps

open Library Repository Sdk

variable {backend : Backend} {f : MapSearchFilters} {db : MapsDb} {m : MapRow} {id : Nat}
  {ctes : List (List Nat)}

/-! ## The filters, one by one -/

section Filters

variable (backend : Backend) (f : MapSearchFilters) (db : MapsDb)

/-- The map is linked to the label of the name. -/
def hasLabel (labels : Labels) (mapId : Nat) (name : String) : Bool :=
  labels.links.any fun link ↦ link.1 = mapId ∧
    (labels.labels.get? link.2).any fun label ↦ label.name = name

/-- One of the creators of the map is one of the users asked for. -/
def hasCreator (mapId : Nat) : Bool := db.creators.any fun c ↦ c.1 = mapId ∧ c.2 ∈ f.creatorIds

/-- One of the creators of the map goes by a name like the one asked for. -/
def hasCreatorNamed (mapId : Nat) (name : String) : Bool :=
  db.creators.any fun c ↦ c.1 = mapId ∧ nameMatches backend (db.users c.2) name

/-- The verified ratings of the map average to the quality asked for. -/
def hasQuality (mapId : Nat) (minimum : Int) : Bool :=
  (avgQuality (db.ratings.filter fun r ↦ r.verified = some true ∧ r.mapId = mapId)).any
    fun avg ↦ (minimum : Rat) ≤ avg

/-- A three-way filter on a property. -/
def TriFilter.keeps : TriFilter → Bool → Bool
  | .all, _ => true
  | .present, b => b
  | .absent, b => !b

/-- The map satisfies the filters that look at other tables, if they are in force. -/
def relatedFilters (mapId : Nat) : Bool :=
  f.skipsCtes ||
    (f.mechanics.all (hasLabel db.mechanics mapId) &&
      f.restrictions.all (hasLabel db.restrictions mapId) &&
      f.tags.all (hasLabel db.tags mapId) &&
      (f.creatorIds = [] || hasCreator f db mapId) &&
      f.creatorNames.all (hasCreatorNamed backend db mapId) &&
      f.minimumQuality.all (hasQuality db mapId) &&
      TriFilter.keeps f.medalFilter (db.medals.rows.any fun med ↦ med.mapId = mapId) &&
      (MapSearchFilters.given f.userId).all fun userId ↦ TriFilter.keeps f.completionFilter
        ((userCompletions db userId).any fun c ↦ c.mapId = mapId))

/-- The map satisfies all filters, with the playtest that was created last. -/
def satisfies (m : MapRow) : Bool :=
  relatedFilters backend f db m.id && (newestPlaytests f db m.id).any (whereClauses backend f m)

/-- The maps that satisfy all filters. -/
def satisfying : List MapRow := db.maps.select (satisfies backend f db)

end Filters

/-! ## The CTEs -/

theorem mem_labelCte {labels : Labels} {name : String} :
    id ∈ labelCte labels name ↔ hasLabel labels id name = true := by
  simp only [labelCte, hasLabel, List.mem_map, List.mem_filter, List.any_eq_true,
    decide_eq_true_eq]
  constructor
  · rintro ⟨link, ⟨hlink, hname⟩, rfl⟩
    exact ⟨link, hlink, rfl, hname⟩
  · rintro ⟨link, hlink, rfl, hname⟩
    exact ⟨link, ⟨hlink, hname⟩, rfl⟩

/-- A name belongs to one label, and a map is linked to it once. -/
theorem nodup_labelCte (labels : Labels) (name : String) : (labelCte labels name).Nodup := by
  rw [labelCte, List.Nodup, List.pairwise_map]
  refine (labels.nodup.filter _).imp_of_mem fun {a b} ha hb hne heq ↦ hne ?_
  obtain ⟨_, ha⟩ := List.mem_filter.mp ha
  obtain ⟨_, hb⟩ := List.mem_filter.mp hb
  rw [Option.any_eq_true] at ha hb
  obtain ⟨label, hlabel, hname⟩ := ha
  obtain ⟨label', hlabel', hname'⟩ := hb
  have hsame : label = label' := by
    refine List.inj_on_of_nodup_map labels.names (Table.mem_of_get? hlabel)
      (Table.mem_of_get? hlabel') ?_
    rw [of_decide_eq_true hname, of_decide_eq_true hname']
  have hid : a.2 = b.2 := by
    rw [← Table.key_of_get? hlabel, ← Table.key_of_get? hlabel', hsame]
  exact Prod.ext heq hid

theorem mem_creatorIdsCte : (∀ cte ∈ (creatorIdsCte f db).toList, id ∈ cte) ↔
    (f.creatorIds = [] || hasCreator f db id) = true := by
  rw [creatorIdsCte]
  split
  · simp [*]
  · next hids =>
      simp only [Option.toList_some, List.mem_singleton, forall_eq, List.mem_map, List.mem_filter,
        hids, decide_false, Bool.false_or, hasCreator, List.any_eq_true, decide_eq_true_eq]
      constructor
      · rintro ⟨c, ⟨hc, hasked⟩, rfl⟩
        exact ⟨c, hc, rfl, hasked⟩
      · rintro ⟨c, hc, rfl, hasked⟩
        exact ⟨c, ⟨hc, hasked⟩, rfl⟩

theorem mem_creatorNameCte {name : String} :
    id ∈ creatorNameCte backend db name ↔ hasCreatorNamed backend db id name = true := by
  simp only [creatorNameCte, mem_distinctOn_id, List.mem_map, List.mem_filter, hasCreatorNamed,
    List.any_eq_true, decide_eq_true_eq]
  constructor
  · rintro ⟨c, ⟨hc, hname⟩, rfl⟩
    exact ⟨c, hc, rfl, hname⟩
  · rintro ⟨c, hc, rfl, hname⟩
    exact ⟨c, ⟨hc, hname⟩, rfl⟩

/-- A map without ratings has no average. -/
theorem avgQuality_nil : avgQuality [] = none := rfl

theorem mem_minimumQualityCte : (∀ cte ∈ (minimumQualityCte f db).toList, id ∈ cte) ↔
    f.minimumQuality.all (hasQuality db id) = true := by
  cases hminimum : f.minimumQuality with
  | none => simp [minimumQualityCte, hminimum]
  | some minimum =>
      have hratings : (db.ratings.filter fun r ↦ r.verified = some true).filter
          (fun r ↦ r.mapId = id) =
          db.ratings.filter fun r ↦ r.verified = some true ∧ r.mapId = id := by
        rw [List.filter_filter]
        refine List.filter_congr fun r _ ↦ ?_
        rw [Bool.and_comm, Bool.decide_and]
      simp only [minimumQualityCte, hminimum, Option.map_some, Option.toList_some,
        List.mem_singleton, forall_eq, List.mem_filter, mem_distinctOn_id, Option.all_some,
        hasQuality, hratings, and_iff_right_iff_imp]
      -- the map has a verified rating, as it has an average
      intro havg
      cases hlist : db.ratings.filter fun r ↦ r.verified = some true ∧ r.mapId = id with
      | nil =>
          rw [hlist, avgQuality_nil] at havg
          cases havg
      | cons r t =>
          rw [← hratings] at hlist
          have hr : r ∈ (db.ratings.filter fun r ↦ r.verified = some true).filter
              (fun r ↦ r.mapId = id) := hlist ▸ List.mem_cons_self
          obtain ⟨hr, hmap⟩ := List.mem_filter.mp hr
          exact List.mem_map.mpr ⟨r, hr, of_decide_eq_true hmap⟩

/-- A CTE of "Without" holds the maps without the property. -/
theorem mem_absentCte (hm : m ∈ db.maps.rows) (p q : Nat → Bool) (hpq : ∀ id, q id = !p id) :
    (∀ cte ∈ (some ((db.maps.rows.filter fun m ↦ q m.id).map fun m ↦ m.id)).toList, m.id ∈ cte) ↔
      TriFilter.keeps .absent (p m.id) = true := by
  simp only [Option.toList_some, List.mem_singleton, forall_eq, List.mem_map, List.mem_filter,
    TriFilter.keeps, hpq]
  constructor
  · rintro ⟨m', ⟨_, hp⟩, hid⟩
    rwa [← hid]
  · intro hp
    exact ⟨m, ⟨hm, hp⟩, rfl⟩

theorem mem_medalsCte (hm : m ∈ db.maps.rows) : (∀ cte ∈ (medalsCte f db).toList, m.id ∈ cte) ↔
    TriFilter.keeps f.medalFilter (db.medals.rows.any fun med ↦ med.mapId = m.id) = true := by
  cases hfilter : f.medalFilter with
  | all => simp [medalsCte, hfilter, TriFilter.keeps]
  | present => simp [medalsCte, hfilter, TriFilter.keeps]
  | absent =>
      rw [medalsCte, hfilter]
      exact mem_absentCte hm (fun mapId ↦ db.medals.rows.any fun med ↦ med.mapId = mapId)
        (fun mapId ↦ db.medals.rows.all fun med ↦ med.mapId ≠ mapId) (by simp [List.not_any_eq_all_not])

theorem mem_completionsCte (hm : m ∈ db.maps.rows) :
    (∀ cte ∈ (completionsCte f db).toList, m.id ∈ cte) ↔
      (MapSearchFilters.given f.userId).all (fun userId ↦ TriFilter.keeps f.completionFilter
        ((userCompletions db userId).any fun c ↦ c.mapId = m.id)) = true := by
  rw [completionsCte]
  cases MapSearchFilters.given f.userId with
  | none => simp
  | some userId =>
      rw [Option.bind_some, Option.all_some]
      cases hfilter : f.completionFilter with
      | all => simp [TriFilter.keeps]
      | present => simp [TriFilter.keeps]
      | absent =>
          exact mem_absentCte hm (fun mapId ↦ (userCompletions db userId).any fun c ↦ c.mapId = mapId)
            (fun mapId ↦ (userCompletions db userId).all fun c ↦ c.mapId ≠ mapId)
            (by simp [List.not_any_eq_all_not])

/-- A map is in every CTE exactly when it satisfies the filters that need one. -/
theorem mem_buildCtes (hm : m ∈ db.maps.rows) :
    (∀ cte ∈ buildCtes backend f db, m.id ∈ cte) ↔ relatedFilters backend f db m.id = true := by
  rw [buildCtes, relatedFilters]
  cases f.skipsCtes with
  | true => simp
  | false =>
      have hlabels : ∀ (labels : Labels) (names : List String),
          (∀ cte ∈ names.map (labelCte labels), m.id ∈ cte) ↔
            names.all (hasLabel labels m.id) = true := by
        intro labels names
        simp [mem_labelCte]
      have hnames : (∀ cte ∈ f.creatorNames.map (creatorNameCte backend db), m.id ∈ cte) ↔
          f.creatorNames.all (hasCreatorNamed backend db m.id) = true := by
        simp [mem_creatorNameCte]
      simp only [Bool.false_eq_true, if_false, List.forall_mem_append, hlabels, hnames,
        mem_creatorIdsCte, mem_minimumQualityCte, mem_medalsCte hm, mem_completionsCte hm,
        Bool.false_or, Bool.and_eq_true]

/-! ## The intersection -/

theorem mem_intersect {a b : List Nat} : id ∈ intersect a b ↔ id ∈ a ∧ id ∈ b := by
  simp [intersect]

theorem mem_foldl_intersect {cte : List Nat} :
    id ∈ ctes.foldl intersect cte ↔ id ∈ cte ∧ ∀ c ∈ ctes, id ∈ c := by
  induction ctes generalizing cte with
  | nil => simp
  | cons c ctes ih => simp [ih, mem_intersect, and_assoc]

/-- The intersection holds what all CTEs hold. -/
theorem mem_intersectionCte {ids : List Nat} (h : intersectionCte ctes = some ids) :
    id ∈ ids ↔ ∀ cte ∈ ctes, id ∈ cte := by
  cases ctes with
  | nil => cases h
  | cons cte ctes =>
      cases h
      rw [mem_foldl_intersect, List.forall_mem_cons]

/-- Without duplicates in the CTEs there are none in the intersection. -/
theorem nodup_foldl_intersect {cte : List Nat} (h : ctes = [] → cte.Nodup) :
    (ctes.foldl intersect cte).Nodup := by
  induction ctes generalizing cte with
  | nil => exact h rfl
  | cons c ctes ih => exact ih fun _ ↦ nodup_distinctOn_id _

/-- The maps the query starts from are those in every CTE. -/
theorem mem_fromRows : m ∈ fromRows backend f db ↔
    m ∈ db.maps.rows ∧ relatedFilters backend f db m.id = true := by
  rw [fromRows]
  have hctes : m ∈ db.maps.rows → ((∀ cte ∈ buildCtes backend f db, m.id ∈ cte) ↔
      relatedFilters backend f db m.id = true) := mem_buildCtes
  split
  · next hnone =>
      refine (and_iff_left_of_imp fun hm ↦ ?_).symm
      rw [← hctes hm]
      cases hlist : buildCtes backend f db with
      | nil => exact fun cte hcte ↦ absurd hcte List.not_mem_nil
      | cons c ctes =>
          rw [hlist] at hnone
          cases hnone
  · next ids hids =>
      rw [List.mem_filterMap]
      constructor
      · rintro ⟨id, hid, hget⟩
        obtain rfl := Table.key_of_get? hget
        have hm := Table.mem_of_get? hget
        exact ⟨hm, (hctes hm).mp ((mem_intersectionCte hids).mp hid)⟩
      · rintro ⟨hm, hrelated⟩
        exact ⟨m.id, (mem_intersectionCte hids).mpr ((hctes hm).mpr hrelated), Table.get?_of_mem hm⟩

/-! ## Duplicates -/

/-- The filter on creator ids is the only one that needs a CTE. -/
def OnlyCreatorIds (f : MapSearchFilters) : Prop :=
  f.skipsCtes = false ∧ f.creatorIds ≠ [] ∧ f.mechanics = [] ∧ f.restrictions = [] ∧ f.tags = [] ∧
    f.minimumQuality = none ∧ f.medalFilter = .all ∧
    (MapSearchFilters.given f.userId = none ∨ f.completionFilter = .all)

/-- Every CTE but that of the creator ids holds a map once. -/
theorem nodup_of_mem_buildCtes {cte : List Nat} (h : cte ∈ buildCtes backend f db)
    (hids : cte ∉ creatorIdsCte f db) : cte.Nodup := by
  rw [buildCtes] at h
  split at h
  · cases h
  · simp only [List.mem_append, List.mem_map, Option.mem_toList] at h
    rcases h with ((((((⟨name, _, rfl⟩ | ⟨name, _, rfl⟩) | ⟨name, _, rfl⟩) | h) | ⟨name, _, rfl⟩) |
      h) | h) | h
    · exact nodup_labelCte _ _
    · exact nodup_labelCte _ _
    · exact nodup_labelCte _ _
    · exact absurd h hids
    · exact nodup_distinctOn_id _
    · obtain ⟨minimum, _, rfl⟩ := Option.map_eq_some_iff.mp h
      exact (nodup_distinctOn_id _).filter _
    · rw [medalsCte] at h
      split at h <;> cases h
      · exact db.medals.nodup
      · exact Table.nodup_map_key_select _
    · rw [completionsCte, Option.bind_eq_some_iff] at h
      obtain ⟨userId, _, h⟩ := h
      split at h <;> cases h
      · exact nodup_distinctOn_id _
      · exact Table.nodup_map_key_select _

/-- The CTE of the creator ids on its own. -/
theorem buildCtes_of_onlyCreatorIds (hvalid : f.Valid) (h : OnlyCreatorIds f) :
    buildCtes backend f db = [(db.creators.filter fun c ↦ c.2 ∈ f.creatorIds).map Prod.fst] := by
  obtain ⟨hskips, hids, hmechanics, hrestrictions, htags, hquality, hmedals, hcompletions⟩ := h
  have hnames : f.creatorNames = [] := by
    by_contra hnames
    exact hvalid.2 ⟨hids, hnames⟩
  have hcompletionsCte : completionsCte f db = none := by
    rw [completionsCte]
    rcases hcompletions with huser | hfilter
    · rw [huser]
      rfl
    · rw [Option.bind_eq_none_iff]
      intro userId _
      rw [hfilter]
  simp [buildCtes, hskips, hmechanics, hrestrictions, htags, hnames, minimumQualityCte, hquality,
    medalsCte, hmedals, hcompletionsCte, creatorIdsCte, hids]

/-- If it is in the list on its own, no other filter needs a CTE. -/
theorem onlyCreatorIds_of_singleton {cte : List Nat} (h : buildCtes backend f db = [cte])
    (hids : cte ∈ creatorIdsCte f db) : OnlyCreatorIds f := by
  have hskips : f.skipsCtes = false := by
    cases hskips : f.skipsCtes with
    | false => rfl
    | true => simp [buildCtes, hskips] at h
  have hlength := congrArg List.length h
  simp only [buildCtes, hskips, Bool.false_eq_true, if_false, List.length_append, List.length_map,
    Option.mem_def.mp hids, Option.toList_some, List.length_singleton] at hlength
  have hempty : f.creatorIds ≠ [] := by
    intro hnil
    simp [creatorIdsCte, hnil] at hids
  have hnoQuality : (minimumQualityCte f db).toList = [] := List.length_eq_zero_iff.mp (by omega)
  have hnoMedals : (medalsCte f db).toList = [] := List.length_eq_zero_iff.mp (by omega)
  have hnoCompletions : (completionsCte f db).toList = [] := List.length_eq_zero_iff.mp (by omega)
  refine ⟨hskips, hempty, ?_, ?_, ?_, ?_, ?_, ?_⟩
  · exact List.length_eq_zero_iff.mp (by omega)
  · exact List.length_eq_zero_iff.mp (by omega)
  · exact List.length_eq_zero_iff.mp (by omega)
  · cases hquality : f.minimumQuality with
    | none => rfl
    | some minimum => simp [minimumQualityCte, hquality] at hnoQuality
  · cases hmedals : f.medalFilter with
    | all => rfl
    | present => simp [medalsCte, hmedals] at hnoMedals
    | absent => simp [medalsCte, hmedals] at hnoMedals
  · cases huser : MapSearchFilters.given f.userId with
    | none => exact .inl rfl
    | some userId =>
        refine .inr ?_
        cases hfilter : f.completionFilter with
        | all => rfl
        | present => simp [completionsCte, huser, hfilter] at hnoCompletions
        | absent => simp [completionsCte, huser, hfilter] at hnoCompletions

/-- The query starts from each map once, unless the filter on creator ids is alone. -/
theorem nodup_fromRows (h : ¬ OnlyCreatorIds f) : (fromRows backend f db).Nodup := by
  rw [fromRows]
  split
  · exact db.maps.rows_nodup
  · next ids hids =>
      have hnodup : ids.Nodup := by
        cases hctes : buildCtes backend f db with
        | nil =>
            rw [hctes] at hids
            cases hids
        | cons cte ctes =>
            rw [hctes] at hids
            cases hids
            refine nodup_foldl_intersect fun hnil ↦ ?_
            subst hnil
            have hmem : cte ∈ buildCtes backend f db := by
              rw [hctes]
              exact List.mem_cons_self
            exact nodup_of_mem_buildCtes hmem fun hcreators ↦
              h (onlyCreatorIds_of_singleton hctes hcreators)
      refine hnodup.filterMap fun id id' m hm hm' ↦ ?_
      exact (Table.key_of_get? hm).symm.trans (Table.key_of_get? hm')

/-- With the filter on creator ids alone, the query starts from a map once for each of its creators
that is asked for. -/
theorem count_fromRows (hvalid : f.Valid) (h : OnlyCreatorIds f) (hm : m ∈ db.maps.rows) :
    (fromRows backend f db).count m =
      db.creators.countP fun c ↦ c.1 = m.id ∧ c.2 ∈ f.creatorIds := by
  rw [fromRows, buildCtes_of_onlyCreatorIds hvalid h]
  have hself : db.maps.get? m.id = some m := Table.get?_of_mem hm
  have hget : ∀ id, (db.maps.get? id == some m) = decide (id = m.id) := by
    intro id
    by_cases hid : id = m.id
    · rw [hid, hself, decide_eq_true rfl, beq_self_eq_true]
    · rw [decide_eq_false hid, beq_eq_false_iff_ne]
      exact fun hget ↦ hid (Table.key_of_get? hget).symm
  simp only [intersectionCte, List.foldl_nil, List.count_filterMap, hget, List.countP_map,
    List.countP_filter]
  refine List.countP_congr fun c _ ↦ ?_
  simp

end Genjishimada.Maps
