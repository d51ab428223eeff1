import Genjishimada.Library.Ranking
import Genjishimada.Services.MapLinking

/-!
# `services/map_content_service.py`, its repository, and the banners of the maps

The guards of `create_map`, the key under which `image_storage_service.py` keeps a banner, and the
address at which the SDK looks for it.  What `str.strip` takes for white space and how the database
collates text are arguments.
-/

namespace Genjishimada.Services

open Library

/-! ## Banner keys -/

/-- `s.strip()` -/
def strip (s : List Char) : List Char :=
  ((s.dropWhile Char.isWhitespace).reverse.dropWhile Char.isWhitespace).reverse

/-- `re.sub(r"[^a-zA-Z0-9]", "", name).lower().strip().replace(" ", "")` -/
def sanitizedName (name : String) : String :=
  String.ofList ((strip ((name.toList.filter Char.isAlphanum).map Char.toLower)).filter (· ≠ ' '))

/-- `_strip_key` -/
def stripKey (name : String) : String := sanitizedName name

/-- The object that `upload_map_banner` writes. -/
def bannerKey (mapName : String) : String :=
  "assets/map_banners/" ++ sanitizedName mapName ++ ".png"

/-- A white space character is before the digits. -/
theorem val_lt_of_isWhitespace {c : Char} (h : c.isWhitespace = true) : c.val.toNat < 48 := by
  simp only [Char.isWhitespace, Bool.or_eq_true, decide_eq_true_eq] at h
  rcases h with ((rfl | rfl) | rfl) | rfl <;> decide

theorem le_val_of_isAlphanum {c : Char} (h : c.isAlphanum = true) : 48 ≤ c.val.toNat := by
  have h : (decide ('A'.val ≤ c.val ∧ c.val ≤ 'Z'.val) ||
      (decide ('a'.val ≤ c.val) && decide (c.val ≤ 'z'.val)) ||
      (decide ('0'.val ≤ c.val) && decide (c.val ≤ '9'.val))) = true := h
  simp only [Bool.or_eq_true, Bool.and_eq_true, decide_eq_true_eq,
    UInt32.le_iff_toNat_le] at h
  have h0 : '0'.val.toNat = 48 := rfl
  have hupper : 'A'.val.toNat = 65 := rfl
  have hlower : 'a'.val.toNat = 97 := rfl
  omega

theorem le_val_toLower (c : Char) : c.val.toNat ≤ c.toLower.val.toNat := by
  by_cases hupper : c.val ≥ 'A'.val ∧ c.val ≤ 'Z'.val
  · have hlower : c.toLower.val = c.val + ('a'.val - 'A'.val) :=
      congrArg Char.val (dif_pos hupper)
    have hle : c.val.toNat ≤ 90 := UInt32.le_iff_toNat_le.mp hupper.2
    have hshift : ('a'.val - 'A'.val).toNat = 32 := rfl
    rw [hlower, UInt32.toNat_add, hshift]
    omega
  · have hlower : c.toLower = c := dif_neg hupper
    rw [hlower]

theorem isWhitespace_toLower {c : Char} (h : c.isAlphanum = true) :
    c.toLower.isWhitespace = false := by
  by_contra hspace
  have hlt := val_lt_of_isWhitespace (Bool.eq_true_of_not_eq_false hspace)
  exact absurd ((le_val_of_isAlphanum h).trans (le_val_toLower c)) (Nat.not_le_of_lt hlt)

theorem dropWhile_isWhitespace {l : List Char} (h : ∀ c ∈ l, c.isWhitespace = false) :
    l.dropWhile Char.isWhitespace = l := by
  cases l with
  | nil => rfl
  | cons c l => rw [List.dropWhile_cons_of_neg (by simp [h c List.mem_cons_self])]

/-- What `re.sub` leaves has nothing to strip or to replace. -/
theorem sanitizedName_eq (name : String) :
    sanitizedName name = String.ofList ((name.toList.filter Char.isAlphanum).map Char.toLower) := by
  have hspace : ∀ c ∈ (name.toList.filter Char.isAlphanum).map Char.toLower,
      c.isWhitespace = false := by
    intro _ hc
    obtain ⟨c, hc', rfl⟩ := List.mem_map.mp hc
    exact isWhitespace_toLower (List.mem_filter.mp hc').2
  have hstrip : strip ((name.toList.filter Char.isAlphanum).map Char.toLower) =
      (name.toList.filter Char.isAlphanum).map Char.toLower := by
    rw [strip, dropWhile_isWhitespace hspace, dropWhile_isWhitespace, List.reverse_reverse]
    exact fun c hc ↦ hspace c (List.mem_reverse.mp hc)
  rw [sanitizedName, hstrip, List.filter_eq_self.mpr]
  intro c hc
  refine decide_eq_true fun heq ↦ ?_
  have hc := hspace c hc
  rw [heq] at hc
  cases hc

-- stated for any strings: the literals would be unfolded when they are matched
theorem append_affixes (a b c d : String) : a ++ b ++ c ++ d = a ++ (b ++ c ++ d) := by
  rw [String.append_assoc, String.append_assoc, String.append_assoc]

theorem affixes_inj (a b s t : String) : a ++ s ++ b = a ++ t ++ b ↔ s = t := by
  rw [String.append_left_inj, String.append_right_inj]

/-- The SDK looks where the banner was put. -/
theorem getMapBanner_eq (mapName : String) :
    MapsService.getMapBanner mapName = "https://cdn.genji.pk/" ++ bannerKey mapName := by
  have hprefix : "https://cdn.genji.pk" ++ MapsService.assetBannerPath =
      "https://cdn.genji.pk/" ++ "assets/map_banners/" := by simp [MapsService.assetBannerPath]
  have hbanner : MapsService.getMapBanner mapName =
      "https://cdn.genji.pk" ++ MapsService.assetBannerPath ++ sanitizedName mapName ++ ".png" :=
    congrArg (fun name ↦ "https://cdn.genji.pk" ++ MapsService.assetBannerPath ++ name ++ ".png")
      (sanitizedName_eq mapName).symm
  exact hbanner.trans ((congrArg (· ++ sanitizedName mapName ++ ".png") hprefix).trans
    (append_affixes _ _ _ _))

/-- Maps whose stripped keys differ have their banners apart. -/
theorem bannerKey_inj {m n : String} : bannerKey m = bannerKey n ↔ stripKey m = stripKey n :=
  affixes_inj _ _ _ _

/-! ## `create_map` -/

/-- The name and the banner that an administrator sends. -/
structure MapContentRequest (β : Type) where
  name : String
  banner : β

inductive MapContentError where
  | emptyName
  | collision (name other target : String)
deriving DecidableEq, Repr

/-- The detail of the exception. -/
def MapContentError.detail : MapContentError → String
  | .emptyName => "Map name must not be empty."
  | .collision name other target =>
      "'" ++ name ++ "' collides with existing map '" ++ other ++
        "' (both reduce to the banner key '" ++ target ++
        "'). Choose a name whose stripped key is unique."

/-- The guard of an empty name. -/
def requireName (blank : String → Bool) (name : String) : Except MapContentError Unit :=
  if blank name then .error .emptyName else .ok ()

/-- The guard of a key that another map has. -/
def requireFreeKey (name : String) (existing : List String) : Except MapContentError Unit :=
  match existing.find? fun other ↦ other ≠ name ∧ stripKey other = stripKey name with
  | some other => .error (.collision name other (stripKey name))
  | none => .ok ()

/-- `insert_map_name`, and whether it inserted the name. -/
def insertMapName (name : String) (names : List String) : Bool × List String :=
  if name ∈ names then (false, names) else (true, names ++ [name])

/-- `fetch_all_map_names` -/
def fetchAllMapNames (collate : Shuffle String) (names : List String) : List String :=
  collate.order names

theorem requireFreeKey_eq_ok_iff {name : String} {existing : List String} :
    requireFreeKey name existing = .ok () ↔
      ∀ other ∈ existing, stripKey other = stripKey name → other = name := by
  rw [requireFreeKey]
  split
  · next other hother =>
    refine iff_of_false (fun h ↦ by cases h) fun h ↦ ?_
    have hfound := List.find?_some hother
    rw [decide_eq_true_iff] at hfound
    exact hfound.1 (h other (List.mem_of_find?_eq_some hother) hfound.2)
  · next hnone =>
    rw [List.find?_eq_none] at hnone
    refine iff_of_true rfl fun other hother hkey ↦ ?_
    by_contra hne
    exact hnone other hother (decide_eq_true ⟨hne, hkey⟩)

theorem mem_insertMapName {name n : String} {names : List String} :
    n ∈ (insertMapName name names).2 ↔ n ∈ names ∨ n = name := by
  rw [insertMapName]
  split
  · next hmem =>
    refine ⟨.inl, fun h ↦ h.elim id ?_⟩
    rintro rfl
    exact hmem
  · rw [List.mem_append, List.mem_singleton]

end Genjishimada.Services
