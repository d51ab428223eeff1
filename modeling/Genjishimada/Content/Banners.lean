import Genjishimada.Library.Run
import Genjishimada.Services.MapContent

/-!
# Banners of the maps

`create_map` reads the names, uploads the banner and only then inserts the name, and names that
differ may have their banners under one key.  As long as no two calls for such names are in flight
together, the guard keeps the banner of every map out of the reach of the others, whatever fails.
-/

namespace Genjishimada.Content

open Library Services

variable {τ β : Type} [DecidableEq τ]

/-! ## The calls -/

/-- Where a call of `create_map` is. -/
inductive BannerPhase where
  | called
  | /-- The names are read. -/
    fetched (existing : List String)
  | uploaded
  | returned (inserted : Bool)
  | raised
deriving DecidableEq, Repr

def BannerPhase.inFlight : BannerPhase → Bool
  | .fetched _ | .uploaded => true
  | _ => false

/-- `maps.names`, the objects of the bucket, the calls, and what was uploaded for which name,
newest first. -/
structure BannerState (τ β : Type) where
  names : List String
  bucket : String → Option β
  phases : τ → BannerPhase := fun _ ↦ .called
  uploads : List (String × β) := []

inductive BannerLabel (τ : Type) where
  | /-- The first guard, and `fetch_all_map_names`. -/
    fetch (t : τ) (collate : Shuffle String)
  | /-- The second guard, and `upload_map_banner`. -/
    upload (t : τ)
  | insert (t : τ)
  | /-- A statement or the upload fails. -/
    fail (t : τ)

def BannerState.goto (s : BannerState τ β) (t : τ) (phase : BannerPhase) : BannerState τ β :=
  { s with phases := Function.update s.phases t phase }

section Step

variable (blank : String → Bool) (requests : τ → MapContentRequest β)

/-- `upload_map_banner` -/
def BannerState.upload (s : BannerState τ β) (t : τ) : BannerState τ β :=
  { s with
    bucket := Function.update s.bucket (bannerKey (requests t).name) (some (requests t).banner)
    uploads := ((requests t).name, (requests t).banner) :: s.uploads }

/-- One step of the calls. -/
def bannerStep (s : BannerState τ β) : BannerLabel τ → Option (BannerState τ β)
  | .fetch t collate =>
      if s.phases t = .called then
        some (s.goto t (match requireName blank (requests t).name with
          | .error _ => .raised
          | .ok _ => .fetched (fetchAllMapNames collate s.names)))
      else none
  | .upload t =>
      match s.phases t with
      | .fetched existing =>
          match requireFreeKey (requests t).name existing with
          | .error _ => some (s.goto t .raised)
          | .ok _ => some ((s.upload requests t).goto t .uploaded)
      | _ => none
  | .insert t =>
      if s.phases t = .uploaded then
        let (inserted, names) := insertMapName (requests t).name s.names
        some ({ s with names }.goto t (.returned inserted))
      else none
  | .fail t => if (s.phases t).inFlight then some (s.goto t .raised) else none

/-- No call starts while one for another name with the same key is in flight. -/
def Apart (s : BannerState τ β) (l : BannerLabel τ) : Prop :=
  ∀ t collate, l = .fetch t collate → ∀ t', (s.phases t').inFlight = true →
    stripKey (requests t').name = stripKey (requests t).name →
      (requests t').name = (requests t).name

end Step

/-! ## The right banner -/

/-- The banner that was uploaded last for the map, or that it had at the start. -/
def lastBanner (s₀ s : BannerState τ β) (name : String) : Option β :=
  ((s.uploads.find? fun u ↦ u.1 = name).map Prod.snd).or (s₀.bucket (bannerKey name))

/-- What holds at every moment. -/
structure BannerInv (requests : τ → MapContentRequest β) (s₀ s : BannerState τ β) : Prop where
  keys : ∀ m ∈ s.names, ∀ n ∈ s.names, stripKey m = stripKey n → m = n
  flight : ∀ t t', (s.phases t).inFlight = true → (s.phases t').inFlight = true →
    stripKey (requests t).name = stripKey (requests t').name →
      (requests t).name = (requests t').name
  seen : ∀ t existing, s.phases t = .fetched existing → ∀ m ∈ s.names,
    stripKey m = stripKey (requests t).name → m = (requests t).name ∨ m ∈ existing
  free : ∀ t, s.phases t = .uploaded → ∀ m ∈ s.names,
    stripKey m = stripKey (requests t).name → m = (requests t).name
  shown : ∀ n, n ∈ s.names ∨ (∃ t, s.phases t = .uploaded ∧ (requests t).name = n) →
    s.bucket (bannerKey n) = lastBanner s₀ s n

section Inv

variable {blank : String → Bool} {requests : τ → MapContentRequest β} {s₀ s s' : BannerState τ β}
  {t : τ}

omit [DecidableEq τ] in
theorem BannerInv.init (hkeys : ∀ m ∈ s₀.names, ∀ n ∈ s₀.names, stripKey m = stripKey n → m = n)
    (hcalled : ∀ t, s₀.phases t = .called) (huploads : s₀.uploads = []) :
    BannerInv requests s₀ s₀ := by
  constructor
  · exact hkeys
  · intro t _ ht
    rw [hcalled] at ht
    cases ht
  · intro t existing ht
    rw [hcalled] at ht
    cases ht
  · intro t ht
    rw [hcalled] at ht
    cases ht
  · intro n _
    rw [lastBanner, huploads]
    rfl

omit [DecidableEq τ] in
theorem inFlight_of_fetched {existing : List String} (h : s.phases t = .fetched existing) :
    (s.phases t).inFlight = true := h ▸ rfl

omit [DecidableEq τ] in
theorem inFlight_of_uploaded (h : s.phases t = .uploaded) : (s.phases t).inFlight = true := h ▸ rfl

theorem phases_goto_self (s : BannerState τ β) (t : τ) (phase : BannerPhase) :
    (s.goto t phase).phases t = phase := Function.update_self ..

theorem phases_goto_of_ne (s : BannerState τ β) (phase : BannerPhase) {t' : τ} (hne : t' ≠ t) :
    (s.goto t phase).phases t' = s.phases t' := Function.update_of_ne hne _ _

/-- A call that is where `t` has not gone was there before. -/
theorem phases_of_goto {phase p : BannerPhase} (hne : phase ≠ p) {t' : τ}
    (h : (s.goto t phase).phases t' = p) : s.phases t' = p := by
  by_cases ht : t' = t
  · rw [ht, phases_goto_self] at h
    exact absurd h hne
  · rwa [phases_goto_of_ne s phase ht] at h

/-- When a call ends, those in flight were in flight. -/
theorem inFlight_of_goto {phase : BannerPhase} (hphase : phase.inFlight = false) {t' : τ}
    (h : ((s.goto t phase).phases t').inFlight = true) : (s.phases t').inFlight = true := by
  by_cases ht : t' = t
  · rw [ht, phases_goto_self, hphase] at h
    cases h
  · rwa [phases_goto_of_ne s phase ht] at h

/-- A call that ends without having changed anything. -/
theorem BannerInv.stop (h : BannerInv requests s₀ s) {phase : BannerPhase}
    (hphase : phase.inFlight = false) : BannerInv requests s₀ (s.goto t phase) := by
  have hfetched : ∀ existing, phase ≠ .fetched existing := by
    rintro existing rfl
    cases hphase
  have huploaded : phase ≠ .uploaded := by
    rintro rfl
    cases hphase
  constructor
  · exact h.keys
  · intro t₁ t₂ h₁ h₂
    exact h.flight t₁ t₂ (inFlight_of_goto hphase h₁) (inFlight_of_goto hphase h₂)
  · intro t' existing ht'
    exact h.seen t' existing (phases_of_goto (hfetched existing) ht')
  · intro t' ht'
    exact h.free t' (phases_of_goto huploaded ht')
  · rintro n (hn | ⟨t', ht', hname⟩)
    · exact h.shown n (.inl hn)
    · exact h.shown n (.inr ⟨t', phases_of_goto huploaded ht', hname⟩)

/-- A call reads the names while no other for the same key is in flight. -/
theorem BannerInv.fetch (h : BannerInv requests s₀ s) (collate : Shuffle String)
    (hapart : ∀ t', (s.phases t').inFlight = true →
      stripKey (requests t').name = stripKey (requests t).name →
        (requests t').name = (requests t).name) :
    BannerInv requests s₀ (s.goto t (.fetched (fetchAllMapNames collate s.names))) := by
  have hother : ∀ t', t' ≠ t →
      (s.goto t (.fetched (fetchAllMapNames collate s.names))).phases t' = s.phases t' :=
    fun t' ↦ phases_goto_of_ne s _
  constructor
  · exact h.keys
  · intro t₁ t₂ h₁ h₂ hkey
    by_cases ht₁ : t₁ = t <;> by_cases ht₂ : t₂ = t
    · rw [ht₁, ht₂]
    · subst ht₁
      rw [hother t₂ ht₂] at h₂
      exact (hapart t₂ h₂ hkey.symm).symm
    · subst ht₂
      rw [hother t₁ ht₁] at h₁
      exact hapart t₁ h₁ hkey
    · rw [hother t₁ ht₁] at h₁
      rw [hother t₂ ht₂] at h₂
      exact h.flight t₁ t₂ h₁ h₂ hkey
  · intro t' existing ht' m hm hkey
    by_cases ht : t' = t
    · rw [ht, phases_goto_self] at ht'
      cases ht'
      exact .inr ((Shuffle.mem_order collate).mpr hm)
    · exact h.seen t' existing ((hother t' ht).symm.trans ht') m hm hkey
  · intro t' ht'
    exact h.free t' (phases_of_goto BannerPhase.noConfusion ht')
  · rintro n (hn | ⟨t', ht', hname⟩)
    · exact h.shown n (.inl hn)
    · exact h.shown n (.inr ⟨t', phases_of_goto BannerPhase.noConfusion ht', hname⟩)

/-- A call uploads the banner of a map whose key is free. -/
theorem BannerInv.upload (h : BannerInv requests s₀ s) {existing : List String}
    (hphase : s.phases t = .fetched existing)
    (hfree : requireFreeKey (requests t).name existing = .ok ()) :
    BannerInv requests s₀ ((s.upload requests t).goto t .uploaded) := by
  have hflight := inFlight_of_fetched hphase
  have hother : ∀ t', t' ≠ t →
      ((s.upload requests t).goto t .uploaded).phases t' = s.phases t' :=
    fun t' ↦ phases_goto_of_ne (s.upload requests t) _
  have hmoved : ∀ t', (((s.upload requests t).goto t .uploaded).phases t').inFlight = true →
      (s.phases t').inFlight = true := by
    intro t' ht'
    by_cases ht : t' = t
    · exact ht ▸ hflight
    · rwa [hother t' ht] at ht'
  have hname : ∀ m ∈ s.names, stripKey m = stripKey (requests t).name → m = (requests t).name := by
    intro m hm hkey
    rcases h.seen t existing hphase m hm hkey with heq | hmem
    · exact heq
    · exact requireFreeKey_eq_ok_iff.mp hfree m hmem hkey
  constructor
  · exact h.keys
  · intro t₁ t₂ h₁ h₂
    exact h.flight t₁ t₂ (hmoved t₁ h₁) (hmoved t₂ h₂)
  · intro t' existing' ht'
    exact h.seen t' existing' (phases_of_goto BannerPhase.noConfusion ht')
  · intro t' ht'
    by_cases ht : t' = t
    · exact ht ▸ hname
    · exact h.free t' ((hother t' ht).symm.trans ht')
  · intro n hn
    -- the banner of another map is under another key
    have hapart : n = (requests t).name ∨ stripKey n ≠ stripKey (requests t).name ∧
        (n ∈ s.names ∨ ∃ t', s.phases t' = .uploaded ∧ (requests t').name = n) := by
      by_cases heq : n = (requests t).name
      · exact .inl heq
      · rcases hn with hn | ⟨t', ht', rfl⟩
        · exact .inr ⟨fun hkey ↦ heq (hname n hn hkey), .inl hn⟩
        · have ht : t' ≠ t := fun ht ↦ heq (congrArg (fun t ↦ (requests t).name) ht)
          have ht' := (hother t' ht).symm.trans ht'
          have hkey : stripKey (requests t').name ≠ stripKey (requests t).name :=
            fun hkey ↦ heq (h.flight t' t (inFlight_of_uploaded ht') hflight hkey)
          exact .inr ⟨hkey, .inr ⟨t', ht', rfl⟩⟩
    rcases hapart with rfl | ⟨hkey, hn⟩
    · simp [BannerState.goto, BannerState.upload, lastBanner]
    · have hne : (requests t).name ≠ n := fun heq ↦ hkey (congrArg stripKey heq.symm)
      have hold := h.shown n hn
      simp only [lastBanner] at hold
      simp only [BannerState.goto, BannerState.upload, lastBanner, List.find?_cons,
        decide_eq_false hne, Function.update_of_ne (fun heq ↦ hkey (bannerKey_inj.mp heq))]
      exact hold

/-- A call inserts the name of a map whose banner it has uploaded. -/
theorem BannerInv.insert (h : BannerInv requests s₀ s) (hphase : s.phases t = .uploaded)
    (inserted : Bool) :
    BannerInv requests s₀ ({ s with names := (insertMapName (requests t).name s.names).2 }.goto t
      (.returned inserted)) := by
  set s' : BannerState τ β := { s with names := (insertMapName (requests t).name s.names).2 }
  have hflight := inFlight_of_uploaded hphase
  have hfetched : ∀ {t' existing}, (s'.goto t (.returned inserted)).phases t' = .fetched existing →
      s.phases t' = .fetched existing := fun ht' ↦ phases_of_goto BannerPhase.noConfusion ht'
  have huploaded : ∀ {t'}, (s'.goto t (.returned inserted)).phases t' = .uploaded →
      s.phases t' = .uploaded := fun ht' ↦ phases_of_goto BannerPhase.noConfusion ht'
  constructor
  · intro m hm n hn hkey
    rcases mem_insertMapName.mp hm with hm | rfl <;> rcases mem_insertMapName.mp hn with hn | rfl
    · exact h.keys m hm n hn hkey
    · exact h.free t hphase m hm hkey
    · exact (h.free t hphase n hn hkey.symm).symm
    · rfl
  · intro t₁ t₂ h₁ h₂
    exact h.flight t₁ t₂ (inFlight_of_goto (s := s') rfl h₁) (inFlight_of_goto (s := s') rfl h₂)
  · intro t' existing ht' m hm hkey
    rcases mem_insertMapName.mp hm with hm | rfl
    · exact h.seen t' existing (hfetched ht') m hm hkey
    · exact .inl (h.flight t t' hflight (inFlight_of_fetched (hfetched ht')) hkey)
  · intro t' ht' m hm hkey
    rcases mem_insertMapName.mp hm with hm | rfl
    · exact h.free t' (huploaded ht') m hm hkey
    · exact h.flight t t' hflight (inFlight_of_uploaded (huploaded ht')) hkey
  · rintro n (hn | ⟨t', ht', hname⟩)
    · rcases mem_insertMapName.mp hn with hn | rfl
      · exact h.shown n (.inl hn)
      · exact h.shown _ (.inr ⟨t, hphase, rfl⟩)
    · exact h.shown n (.inr ⟨t', huploaded ht', hname⟩)

theorem BannerInv.step (h : BannerInv requests s₀ s) {l : BannerLabel τ}
    (hstep : Guarded (Apart requests) (ofStep (bannerStep blank requests)) s l s') :
    BannerInv requests s₀ s' := by
  obtain ⟨hapart, hstep⟩ := hstep
  cases l with
  | fetch t collate =>
      rw [ofStep, bannerStep] at hstep
      split at hstep
      · cases hstep
        cases requireName blank (requests t).name with
        | error e => exact h.stop rfl
        | ok _ => exact h.fetch collate (hapart t collate rfl)
      · cases hstep
  | upload t =>
      rw [ofStep, bannerStep] at hstep
      split at hstep
      · next existing hphase =>
        split at hstep
        · cases hstep
          exact h.stop rfl
        · next hfree =>
          cases hstep
          exact h.upload hphase hfree
      · cases hstep
  | insert t =>
      rw [ofStep, bannerStep] at hstep
      split at hstep
      · next hphase =>
        cases hstep
        exact h.insert hphase _
      · cases hstep
  | fail t =>
      rw [ofStep, bannerStep] at hstep
      split at hstep
      · cases hstep
        exact h.stop rfl
      · cases hstep

end Inv

/-- Every map shows the banner that was uploaded for it last. -/
theorem banners_after {blank : String → Bool} {requests : τ → MapContentRequest β}
    {s₀ s : BannerState τ β} {ls : List (BannerLabel τ)}
    (hrun : Run (Guarded (Apart requests) (ofStep (bannerStep blank requests))) s₀ ls s)
    (hkeys : ∀ m ∈ s₀.names, ∀ n ∈ s₀.names, stripKey m = stripKey n → m = n)
    (hcalled : ∀ t, s₀.phases t = .called) (huploads : s₀.uploads = []) :
    (∀ m ∈ s.names, ∀ n ∈ s.names, stripKey m = stripKey n → m = n) ∧
      ∀ n ∈ s.names, ∃ key, MapsService.getMapBanner n = "https://cdn.genji.pk/" ++ key ∧
        s.bucket key = lastBanner s₀ s n := by
  have h : BannerInv requests s₀ s :=
    hrun.invariant (fun _ _ _ h hstep ↦ h.step hstep) (.init hkeys hcalled huploads)
  exact ⟨h.keys, fun n hn ↦ ⟨bannerKey n, getMapBanner_eq n, h.shown n (.inl hn)⟩⟩

/-- Two administrators send a banner for the same new map. -/
def parisBanners (t : Bool) : MapContentRequest Nat where
  name := "Paris"
  banner := if t then 2 else 1

def noMaps : BannerState Bool Nat where
  names := []
  bucket _ := none

/-- The calls overlap. -/
def overlappingCalls : List (BannerLabel Bool) :=
  [.fetch false default, .fetch true default, .upload false, .upload true, .insert true,
    .insert false]

/-- The map shows the later upload. -/
theorem banners_after_overlapping :
    ∃ s, Run (Guarded (Apart parisBanners) (ofStep (bannerStep (fun _ ↦ false) parisBanners)))
        noMaps overlappingCalls s ∧
      s.names = ["Paris"] ∧ lastBanner noMaps s "Paris" = some 2 ∧
      ∀ n ∈ s.names, ∃ key, MapsService.getMapBanner n = "https://cdn.genji.pk/" ++ key ∧
        s.bucket key = lastBanner noMaps s n := by
  have hapart : ∀ (s : BannerState Bool Nat) l, Apart parisBanners s l := fun _ _ _ _ _ _ _ _ ↦ rfl
  obtain ⟨s, hrun, hnames, hlast⟩ : ∃ s,
      Run (Guarded (Apart parisBanners) (ofStep (bannerStep (fun _ ↦ false) parisBanners))) noMaps
        overlappingCalls s ∧ s.names = ["Paris"] ∧ lastBanner noMaps s "Paris" = some 2 := by
    refine ⟨_, .cons ⟨hapart _ _, rfl⟩ (.cons ⟨hapart _ _, rfl⟩ (.cons ⟨hapart _ _, rfl⟩
      (.cons ⟨hapart _ _, rfl⟩ (.cons ⟨hapart _ _, rfl⟩ (.single ⟨hapart _ _, rfl⟩))))), rfl, ?_⟩
    simp [lastBanner, BannerState.goto, BannerState.upload, parisBanners]
  refine ⟨s, hrun, hnames, hlast, (banners_after hrun ?_ (fun _ ↦ rfl) rfl).2⟩
  intro m hm
  cases hm

end Genjishimada.Content
