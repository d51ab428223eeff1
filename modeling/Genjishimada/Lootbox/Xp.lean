import Genjishimada.Library.ReadCommitted
import Genjishimada.Library.Run
import Genjishimada.Services.Rewards
import Mathlib.Logic.Function.Basic

/-!
# Concurrent XP grants

`upsert_user_xp` is one statement.  Its common table expression reads the amount in the
snapshot taken when the statement starts; the upsert then waits for the row and adds to
the amount it finds, so it may report as its `previous_amount` one that other grants
have passed already.  The reported intervals fit together exactly when no committed
grant did, and none took XP away.
-/

namespace Genjishimada.Lootbox

open Library Services

variable {τ : Type} [DecidableEq τ]

/-! ## The statements -/

/-- What a grant has read and added: the amount in its snapshot, the amount it found once
it had the row, and `floor(xp_amount * multiplier)`. -/
structure XpReport where
  snapshot : Int
  base : Int
  gain : Int
deriving DecidableEq, Repr

def XpReport.previousAmount (r : XpReport) : Int := r.snapshot

def XpReport.newAmount (r : XpReport) : Int := r.base + r.gain

/-- A transaction that grants XP to the user: the statement it is in, with its snapshot
and its gain, and the grants it has made. -/
structure XpSession where
  running : Option (Int × Int) := none
  reports : List XpReport := []
deriving DecidableEq, Repr

/-- The user's row of `lootbox.xp`, if any, the open transactions, and what the
committed ones have reported. -/
structure XpState (τ : Type) where
  row : Row τ (Option Int)
  sessions : τ → XpSession := fun _ ↦ {}
  reported : List XpReport := []

/-- `coalesce(amount, 0)` -/
def amountOf (amount : Option Int) : Int := amount.getD 0

inductive XpLabel (τ : Type) where
  | /-- The statement starts and takes its snapshot. -/
    start (t : τ) (xpAmount : Int) (multiplier : Rat)
  | /-- The statement has the row, writes it and returns. -/
    finish (t : τ)
  | commit (t : τ)
  | rollback (t : τ)

/-- One step of the transactions. -/
def xpStep (s : XpState τ) : XpLabel τ → Option (XpState τ)
  | .start t xpAmount multiplier =>
      if (s.sessions t).running.isNone then
        let running := some (amountOf (s.row.seen t), (xpAmount * multiplier).floor)
        some { s with sessions := Function.update s.sessions t { s.sessions t with running } }
      else none
  | .finish t =>
      match (s.sessions t).running with
      | none => none
      | some (snapshot, gain) =>
          if s.row.free t then
            let report : XpReport := { snapshot, base := amountOf (s.row.seen t), gain }
            some { s with
              row := s.row.write t (some report.newAmount)
              sessions := Function.update s.sessions t
                { reports := (s.sessions t).reports ++ [report] } }
          else none
  | .commit t =>
      if (s.sessions t).running.isNone then
        some { row := s.row.commit t
               sessions := Function.update s.sessions t {}
               reported := s.reported ++ (s.sessions t).reports }
      else none
  | .rollback t =>
      some { s with row := s.row.rollback t, sessions := Function.update s.sessions t {} }

/-- A grant with the row to itself reports what `upsert_user_xp` returns. -/
theorem report_alone (userId : Nat) (xpAmount : Int) (multiplier : Rat) (db : Db) :
    let amount := (db.xp.get? userId).map UserXp.amount
    let gain := (xpAmount * multiplier).floor
    let report : XpReport := { snapshot := amountOf amount, base := amountOf amount, gain }
    (upsertUserXp userId xpAmount multiplier db).1 = (report.previousAmount, report.newAmount) := rfl

/-! ## Intervals -/

/-- The reported interval `(previous_amount, new_amount]` contains `x`. -/
def XpReport.Crosses (r : XpReport) (x : Int) : Prop := r.previousAmount < x ∧ x ≤ r.newAmount

/-- The reports are intervals, no two of which meet, and together they cover what the
user has gained since `start`. -/
structure Tiles (start : Int) (reports : List XpReport) (current : Int) : Prop where
  proper : ∀ r ∈ reports, r.previousAmount ≤ r.newAmount
  disjoint : reports.Pairwise fun r r' ↦ ∀ x, ¬ (r.Crosses x ∧ r'.Crosses x)
  cover : ∀ x, (∃ r ∈ reports, r.Crosses x) ↔ start < x ∧ x ≤ current

/-- The snapshot still showed the latest amount, and the grant took nothing away. -/
def XpReport.Fresh (r : XpReport) : Prop := r.snapshot = r.base ∧ 0 ≤ r.gain

/-- Each grant starts from the amount the one before has left. -/
def Chained : Int → List XpReport → Int → Prop
  | a, [], b => a = b
  | a, r :: rs, b => r.base = a ∧ Chained r.newAmount rs b

section Intervals

variable {a b c : Int} {rs rs' : List XpReport}

theorem Chained.append (h : Chained a rs b) (h' : Chained b rs' c) : Chained a (rs ++ rs') c := by
  induction rs generalizing a with
  | nil =>
      obtain rfl : a = b := h
      exact h'
  | cons r rs ih => exact ⟨h.1, ih h.2⟩

/-- Fresh grants only ever add. -/
theorem Chained.le (h : Chained a rs b) (hfresh : ∀ r ∈ rs, r.Fresh) : a ≤ b := by
  induction rs generalizing a with
  | nil => exact le_of_eq h
  | cons r rs ih =>
      obtain ⟨rfl, h⟩ := h
      have hle := ih h fun r' hr' ↦ hfresh r' (List.mem_cons_of_mem _ hr')
      have hgain := (hfresh r List.mem_cons_self).2
      rw [XpReport.newAmount] at hle
      omega

/-- The intervals of fresh grants fit together. -/
theorem Chained.tiles (h : Chained a rs b) (hfresh : ∀ r ∈ rs, r.Fresh) : Tiles a rs b := by
  induction rs generalizing a with
  | nil =>
      obtain rfl : a = b := h
      constructor
      · simp
      · exact .nil
      · intro x
        simp only [List.not_mem_nil, false_and, exists_false, false_iff]
        omega
  | cons r rs ih =>
      obtain ⟨rfl, h⟩ := h
      obtain ⟨hsnapshot, hgain⟩ := hfresh r List.mem_cons_self
      have hrest : ∀ r' ∈ rs, r'.Fresh := fun r' hr' ↦ hfresh r' (List.mem_cons_of_mem _ hr')
      have hle := h.le hrest
      have ih := ih h hrest
      have hr (x : Int) : r.Crosses x ↔ r.base < x ∧ x ≤ r.newAmount := by
        rw [XpReport.Crosses, XpReport.previousAmount, hsnapshot]
      have hnew : r.base ≤ r.newAmount := by
        rw [XpReport.newAmount]
        omega
      constructor
      · intro r' hr'
        rcases List.mem_cons.mp hr' with rfl | hr'
        · rw [XpReport.previousAmount, hsnapshot]
          exact hnew
        · exact ih.proper r' hr'
      · refine List.pairwise_cons.mpr ⟨?_, ih.disjoint⟩
        rintro r' hr' x ⟨hx, hx'⟩
        have := (ih.cover x).mp ⟨r', hr', hx'⟩
        rw [hr] at hx
        omega
      · intro x
        rw [List.exists_mem_cons_iff, hr, ih.cover]
        omega

/-- A chain that passes `c` has a grant that does. -/
theorem Chained.exists_passes (h : Chained a rs b) (ha : a < c) (hb : c ≤ b) :
    ∃ r ∈ rs, r.base < c ∧ c ≤ r.newAmount := by
  induction rs generalizing a with
  | nil =>
      obtain rfl : a = b := h
      omega
  | cons r rs ih =>
      obtain ⟨rfl, h⟩ := h
      by_cases hr : c ≤ r.newAmount
      · exact ⟨r, List.mem_cons_self, ha, hr⟩
      · obtain ⟨r', hr', hpass⟩ := ih h (by omega)
        exact ⟨r', List.mem_cons_of_mem _ hr', hpass⟩

/-- If one of the grants of a chain that ends at `c` or later has a snapshot below `c`,
some interval reported crosses `c`. -/
theorem Chained.exists_crosses (h : Chained a rs b) (hb : c ≤ b)
    (hsnapshot : ∀ r ∈ rs, r.snapshot ≤ r.base) (hr : ∃ r ∈ rs, r.snapshot < c) :
    ∃ r ∈ rs, r.Crosses c := by
  induction rs generalizing a with
  | nil => simp at hr
  | cons r rs ih =>
      obtain ⟨rfl, h⟩ := h
      have hrest : ∀ r' ∈ rs, r'.snapshot ≤ r'.base :=
        fun r' hr' ↦ hsnapshot r' (List.mem_cons_of_mem _ hr')
      by_cases hnew : r.newAmount < c
      · obtain ⟨r', hr', hbase, hpass⟩ := h.exists_passes hnew hb
        have := hrest r' hr'
        exact ⟨r', List.mem_cons_of_mem _ hr', lt_of_le_of_lt this hbase, hpass⟩
      · by_cases hlt : r.snapshot < c
        · exact ⟨r, List.mem_cons_self, hlt, not_lt.mp hnew⟩
        · obtain ⟨r', hr', hr'c⟩ := hr
          rcases List.mem_cons.mp hr' with rfl | hr'
          · exact absurd hr'c hlt
          · obtain ⟨r'', hr'', hcross⟩ := ih h hrest ⟨r', hr', hr'c⟩
            exact ⟨r'', List.mem_cons_of_mem _ hr'', hcross⟩

end Intervals

/-! ## The invariant -/

/-- What the user's row says once it is committed. -/
def XpState.current (s : XpState τ) : Int := amountOf s.row.committed

/-- The grants of a committing transaction are fresh. -/
def FreshCommit (s : XpState τ) (l : XpLabel τ) : Prop :=
  ∀ t, l = .commit t → ∀ r ∈ (s.sessions t).reports, r.Fresh

/-- What holds while every committed grant is fresh: the committed grants form a chain up
to the committed amount, those of the transaction that has the row go on from there, and
no snapshot is ahead of the row. -/
structure XpInv (start : Int) (s : XpState τ) : Prop where
  reported : Chained start s.reported s.current
  fresh : ∀ r ∈ s.reported, r.Fresh
  idle : ∀ t, ¬ s.row.Holds t → (s.sessions t).reports = []
  held : ∀ t a, s.row.pending = some (t, a) →
    Chained s.current (s.sessions t).reports (amountOf a)
  snapshots : ∀ t, ∀ r ∈ (s.sessions t).reports,
    r.snapshot = r.base ∨ (start ≤ r.snapshot ∧ r.snapshot ≤ r.base ∧ r.base = s.current)
  running : ∀ t p, (s.sessions t).running = some p →
    (∀ a, s.row.pending = some (t, a) → p.1 = amountOf a) ∧
      (¬ s.row.Holds t → start ≤ p.1 ∧ p.1 ≤ s.current)

section Inv

variable {start : Int} {s s' : XpState τ} {t t' : τ}

omit [DecidableEq τ] in
theorem XpInv.le (h : XpInv start s) : start ≤ s.current := h.reported.le h.fresh

theorem XpInv.start_step (h : XpInv start s) {xpAmount : Int} {multiplier : Rat}
    (hs : xpStep s (.start t xpAmount multiplier) = some s') : XpInv start s' := by
  simp only [xpStep] at hs
  split at hs
  · obtain rfl := Option.some.inj hs
    have hreports : ∀ t', (Function.update s.sessions t
        { s.sessions t with running := some (amountOf (s.row.seen t), (xpAmount * multiplier).floor) }
          t').reports = (s.sessions t').reports := by
      intro t'
      by_cases ht : t' = t
      · subst ht
        simp
      · simp [ht]
    refine ⟨h.reported, h.fresh, ?_, ?_, ?_, ?_⟩
    · intro t' ht'
      rw [hreports]
      exact h.idle t' ht'
    · intro t' a ha
      rw [hreports]
      exact h.held t' a ha
    · intro t' r hr
      rw [hreports] at hr
      exact h.snapshots t' r hr
    · intro t' p hp
      by_cases ht : t' = t
      · subst ht
        simp only [Function.update_self, Option.some.injEq] at hp
        subst hp
        constructor
        · intro a ha
          have ha : s.row.pending = some (t', a) := ha
          rw [Row.seen_of_some ha]
        · intro hnot
          rw [Row.seen_of_not_holds hnot]
          exact ⟨h.le, le_rfl⟩
      · simp only [Function.update_of_ne ht] at hp
        exact h.running t' p hp
  · cases hs

theorem XpInv.finish_step (h : XpInv start s) (hs : xpStep s (.finish t) = some s') :
    XpInv start s' := by
  cases hrunning : (s.sessions t).running with
  | none => simp [xpStep, hrunning] at hs
  | some p =>
      obtain ⟨snapshot, gain⟩ := p
      simp only [xpStep, hrunning] at hs
      split at hs
      · rename_i hfree
        obtain rfl := Option.some.inj hs
        have hother : ∀ t', t' ≠ t → ¬ s.row.Holds t' := fun t' ht ↦ Row.not_holds_of_free hfree ht
        have hchain : Chained s.current (s.sessions t).reports (amountOf (s.row.seen t)) ∧
            (snapshot = amountOf (s.row.seen t) ∨ (start ≤ snapshot ∧
              snapshot ≤ amountOf (s.row.seen t) ∧ amountOf (s.row.seen t) = s.current)) := by
          obtain ⟨hheld, hfree'⟩ := h.running t _ hrunning
          rcases Row.free_iff.mp hfree with hnone | ⟨a, ha⟩
          · have hnot : ¬ s.row.Holds t := Row.not_holds_of_none hnone
            rw [Row.seen_of_not_holds hnot, h.idle t hnot]
            obtain ⟨hle, hle'⟩ := hfree' hnot
            exact ⟨rfl, .inr ⟨hle, hle', rfl⟩⟩
          · rw [Row.seen_of_some ha]
            exact ⟨h.held t a ha, .inl (hheld a ha)⟩
        refine ⟨h.reported, h.fresh, ?_, ?_, ?_, ?_⟩
        · intro t' ht'
          by_cases ht : t' = t
          · subst ht
            exact absurd ⟨_, rfl⟩ ht'
          · simp only [Function.update_of_ne ht]
            exact h.idle t' (hother t' ht)
        · intro t' a ha
          obtain ⟨rfl, rfl⟩ : t = t' ∧ some _ = a := by simpa using ha
          simp only [Function.update_self]
          exact hchain.1.append ⟨rfl, rfl⟩
        · intro t' r hr
          by_cases ht : t' = t
          · subst ht
            simp only [Function.update_self, List.mem_append, List.mem_singleton] at hr
            rcases hr with hr | rfl
            · exact h.snapshots t' r hr
            · exact hchain.2
          · simp only [Function.update_of_ne ht] at hr
            exact h.snapshots t' r hr
        · intro t' p hp
          by_cases ht : t' = t
          · subst ht
            simp at hp
          · simp only [Function.update_of_ne ht] at hp
            obtain ⟨_, hle⟩ := h.running t' p hp
            refine ⟨?_, fun _ ↦ hle (hother t' ht)⟩
            intro a ha
            obtain ⟨rfl, _⟩ : t = t' ∧ _ := by simpa using ha
            exact absurd rfl ht
      · cases hs

/-- Ending a transaction that leaves the committed chain intact. -/
theorem XpInv.of_end (h : XpInv start s) {row : Row τ (Option Int)} {reported : List XpReport}
    (hchain : Chained start reported (amountOf row.committed)) (hfresh : ∀ r ∈ reported, r.Fresh)
    (hle : s.current ≤ amountOf row.committed)
    (hrow : (row.pending = none ∧ ∀ t', t' ≠ t → ¬ s.row.Holds t') ∨ (row = s.row ∧ ¬ s.row.Holds t)) :
    XpInv start { row, sessions := Function.update s.sessions t {}, reported } := by
  refine ⟨hchain, hfresh, ?_, ?_, ?_, ?_⟩
  · intro t' ht'
    by_cases ht : t' = t
    · subst ht
      simp
    · simp only [Function.update_of_ne ht]
      rcases hrow with ⟨_, hother⟩ | ⟨rfl, _⟩
      · exact h.idle t' (hother t' ht)
      · exact h.idle t' ht'
  · intro t' a ha
    rcases hrow with ⟨hnone, _⟩ | ⟨rfl, hnot⟩
    · rw [hnone] at ha
      cases ha
    · have ht : t' ≠ t := by
        rintro rfl
        exact hnot ⟨a, ha⟩
      simp only [Function.update_of_ne ht]
      exact h.held t' a ha
  · intro t' r hr
    by_cases ht : t' = t
    · subst ht
      simp at hr
    · simp only [Function.update_of_ne ht] at hr
      rcases hrow with ⟨_, hother⟩ | ⟨rfl, _⟩
      · rw [h.idle t' (hother t' ht)] at hr
        cases hr
      · exact h.snapshots t' r hr
  · intro t' p hp
    by_cases ht : t' = t
    · subst ht
      simp at hp
    · simp only [Function.update_of_ne ht] at hp
      rcases hrow with ⟨hnone, hother⟩ | ⟨rfl, _⟩
      · obtain ⟨hle₁, hle₂⟩ := (h.running t' p hp).2 (hother t' ht)
        refine ⟨?_, fun _ ↦ ⟨hle₁, hle₂.trans hle⟩⟩
        intro a ha
        rw [hnone] at ha
        cases ha
      · exact h.running t' p hp

theorem XpInv.rollback_step (h : XpInv start s) (hs : xpStep s (.rollback t) = some s') :
    XpInv start s' := by
  obtain rfl := Option.some.inj hs
  rcases s.row.holds_or t with ⟨a, ha, hother⟩ | hnot
  · rw [Row.rollback_of_some ha]
    exact h.of_end h.reported h.fresh le_rfl (.inl ⟨rfl, hother⟩)
  · rw [Row.rollback_of_not_holds hnot]
    exact h.of_end h.reported h.fresh le_rfl (.inr ⟨rfl, hnot⟩)

theorem XpInv.commit_step (h : XpInv start s) (hs : xpStep s (.commit t) = some s')
    (hfresh : ∀ r ∈ (s.sessions t).reports, r.Fresh) : XpInv start s' := by
  simp only [xpStep] at hs
  split at hs
  · obtain rfl := Option.some.inj hs
    rcases s.row.holds_or t with ⟨a, ha, hother⟩ | hnot
    · rw [Row.commit_of_some ha]
      have hchain := h.held t a ha
      refine h.of_end (h.reported.append hchain) ?_ (hchain.le hfresh) (.inl ⟨rfl, hother⟩)
      intro r hr
      rcases List.mem_append.mp hr with hr | hr
      · exact h.fresh r hr
      · exact hfresh r hr
    · rw [Row.commit_of_not_holds hnot, h.idle t hnot, List.append_nil]
      exact h.of_end h.reported h.fresh le_rfl (.inr ⟨rfl, hnot⟩)
  · cases hs

theorem XpInv.step (h : XpInv start s) {l : XpLabel τ} (hs : xpStep s l = some s')
    (hfresh : FreshCommit s l) : XpInv start s' := by
  cases l with
  | start t xpAmount multiplier => exact h.start_step hs
  | finish t => exact h.finish_step hs
  | commit t => exact h.commit_step hs (hfresh t rfl)
  | rollback t => exact h.rollback_step hs

/-- The intervals of the committed grants fit together after a commit only if the
grants committed are fresh. -/
theorem XpInv.fresh_of_tiles (h : XpInv start s) {l : XpLabel τ} (hs : xpStep s l = some s')
    (htiles : Tiles start s'.reported s'.current) : FreshCommit s l := by
  rintro t rfl
  simp only [xpStep] at hs
  split at hs
  · obtain rfl := Option.some.inj hs
    rcases s.row.holds_or t with ⟨a, ha, _⟩ | hnot
    · have hcurrent : XpState.current ⟨s.row.commit t, Function.update s.sessions t {},
          s.reported ++ (s.sessions t).reports⟩ = amountOf a := by
        rw [XpState.current, Row.commit_of_some ha]
      rw [hcurrent] at htiles
      have hchain := h.held t a ha
      have hsnapshot : ∀ r ∈ (s.sessions t).reports, r.snapshot ≤ r.base := by
        intro r hr
        rcases h.snapshots t r hr with heq | ⟨_, hle, _⟩
        · exact le_of_eq heq
        · exact hle
      intro r hr
      have hproper := htiles.proper r (List.mem_append_right _ hr)
      rw [XpReport.previousAmount, XpReport.newAmount] at hproper
      rcases h.snapshots t r hr with heq | ⟨hstart, hle, hbase⟩
      · refine ⟨heq, ?_⟩
        omega
      · by_cases heq : r.snapshot = r.base
        · refine ⟨heq, ?_⟩
          omega
        · -- a stale snapshot: the amount it missed is crossed a second time
          exfalso
          have hlt : r.snapshot < s.current := by omega
          obtain ⟨r₁, hr₁, hcross₁⟩ :=
            ((h.reported.tiles h.fresh).cover s.current).mpr ⟨by omega, le_rfl⟩
          have hreach := ((htiles.cover s.current).mp
            ⟨r₁, List.mem_append_left _ hr₁, hcross₁⟩).2
          obtain ⟨r₂, hr₂, hcross₂⟩ := hchain.exists_crosses hreach hsnapshot ⟨r, hr, hlt⟩
          exact (List.pairwise_append.mp htiles.disjoint).2.2 r₁ hr₁ r₂ hr₂ _ ⟨hcross₁, hcross₂⟩
    · intro r hr
      rw [h.idle t hnot] at hr
      cases hr
  · cases hs

end Inv

/-- The user's row before any grant. -/
def initialXp (amount : Option Int) : XpState τ := { row := { committed := amount } }

/-- In every run of concurrent grants the reported intervals are disjoint and cover the
user's gain exactly when every committed grant still had the latest amount in its
snapshot and took nothing away. -/
theorem grants_tile_iff (amount : Option Int) {ls : List (XpLabel τ)} {s : XpState τ} :
    Run (fun s l s' ↦ xpStep s l = some s' ∧ Tiles (amountOf amount) s'.reported s'.current)
        (initialXp amount) ls s ↔
      Run (Guarded FreshCommit (ofStep xpStep)) (initialXp amount) ls s := by
  apply Run.congr (XpInv (amountOf amount))
  · intro s l s' h
    constructor
    · rintro ⟨hs, htiles⟩
      exact ⟨h.fresh_of_tiles hs htiles, hs⟩
    · rintro ⟨hfresh, hs⟩
      have h' := h.step hs hfresh
      exact ⟨hs, h'.reported.tiles h'.fresh⟩
  · rintro s l s' h ⟨hs, htiles⟩
    exact h.step hs (h.fresh_of_tiles hs htiles)
  · constructor <;> simp [initialXp, XpState.current, Chained]

/-- Two grants of ten whose statements start together: both report zero as the amount
before. -/
theorem overlappingGrants_not_tile :
    let ls : List (XpLabel Bool) := [.start false 10 1, .start true 10 1, .finish false,
      .commit false, .finish true, .commit true]
    ∃ s, ls.foldlM xpStep (initialXp none) = some s ∧ ¬ Tiles 0 s.reported s.current := by
  refine ⟨_, rfl, fun h ↦ ?_⟩
  have hreported : ∀ r ∈ [(⟨0, 0, 10⟩ : XpReport), ⟨0, 10, 10⟩], r.Crosses 1 := by
    simp [XpReport.Crosses, XpReport.previousAmount, XpReport.newAmount]
  have hdisjoint := h.disjoint
  generalize hrs : XpState.reported _ = rs at hdisjoint
  have hrs : rs = [⟨0, 0, 10⟩, ⟨0, 10, 10⟩] := by
    rw [← hrs]
    decide +kernel
  subst hrs
  have := (List.pairwise_cons.mp hdisjoint).1 _ List.mem_cons_self 1
  exact this ⟨hreported _ List.mem_cons_self, hreported _ (List.mem_cons_of_mem _ List.mem_cons_self)⟩

end Genjishimada.Lootbox
