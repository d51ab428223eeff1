import Genjishimada.Library.Ranking
import Mathlib.Data.List.Dedup
import Mathlib.Data.List.MinMax
import Mathlib.Order.OrderDual

/-!
# Groups of rows that follow one another

Rows come in groups, and the rows of a group are on together, from one moment to another.
`Successive` says that no two groups are ever on at once, and `Rested` that something shown by a
group comes back only after some other groups.  Taking off what is on and putting on a new group
keeps both, provided that it shows nothing that the `newest` groups show.
-/

namespace Genjishimada.Library

universe u v w x

/-- The columns that place a row in time. -/
structure Timetable (α : Type u) (γ : Type v) (T : Type w) where
  group : α → γ
  start : α → T
  stop : α → T

namespace Timetable

variable {α : Type u} {γ : Type v} {T : Type w} [LinearOrder T]

/-- The row is on. -/
def on (τ : Timetable α γ T) (t : T) (a : α) : Bool := τ.start a ≤ t ∧ t < τ.stop a

/-- `max(start)` of a group. -/
def latest [DecidableEq γ] (τ : Timetable α γ T) (l : List α) (g : γ) : WithBot T :=
  ((l.filter fun a ↦ τ.group a = g).map τ.start).maximum

/-- `SELECT group … GROUP BY group ORDER BY max(start) DESC LIMIT k` -/
def newest [DecidableEq γ] (τ : Timetable α γ T) (k : Nat) (l : List α) : List γ :=
  (orderBy (fun g ↦ OrderDual.toDual (τ.latest l g)) (l.map τ.group).dedup).take k

/-- The rows of a group are on together, and one group after another. -/
structure Successive (τ : Timetable α γ T) (l : List α) : Prop where
  same : ∀ a ∈ l, ∀ b ∈ l, τ.group a = τ.group b → τ.start a = τ.start b ∧ τ.stop a = τ.stop b
  apart : ∀ a ∈ l, ∀ b ∈ l, τ.group a ≠ τ.group b →
    τ.start a < τ.start b ∧ τ.stop a ≤ τ.start b ∨ τ.start b < τ.start a ∧ τ.stop b ≤ τ.start a

/-- What a row shows is shown again only after `k` other groups. -/
def Rested {ι : Type x} (τ : Timetable α γ T) (k : Nat) (item : α → ι) (l : List α) : Prop :=
  ∀ a ∈ l, ∀ b ∈ l, item a = item b → τ.start a < τ.start b →
    ∃ gs : List γ, gs.Nodup ∧ gs.length = k ∧
      ∀ g ∈ gs, ∃ c ∈ l, τ.group c = g ∧ τ.start a < τ.start c ∧ τ.start c < τ.start b

/-- `f` takes off the rows that are on, and does nothing else that matters to the timetable. -/
structure Closes (τ : Timetable α γ T) (now : T) (f : α → α) : Prop where
  group : ∀ a, τ.group (f a) = τ.group a
  start : ∀ a, τ.start (f a) = τ.start a
  stop : ∀ a, τ.stop (f a) = if τ.on now a then now else τ.stop a

variable {τ : Timetable α γ T} {l new : List α} {a b : α} {t now stop : T} {f : α → α} {g : γ}
  {k : Nat}

theorem on_iff : τ.on t a = true ↔ τ.start a ≤ t ∧ t < τ.stop a := decide_eq_true_iff

/-! ## One group at a time -/

theorem Successive.nil : τ.Successive [] := by
  constructor <;> simp

/-- Rows that are on at the same time are of one group. -/
theorem Successive.group_eq (h : τ.Successive l) (ha : a ∈ l) (hb : b ∈ l) (hona : τ.on t a = true)
    (honb : τ.on t b = true) : τ.group a = τ.group b := by
  rw [on_iff] at hona honb
  by_contra hne
  rcases h.apart a ha b hb hne with ⟨_, hle⟩ | ⟨_, hle⟩
  · exact absurd (hona.2.trans_le (hle.trans honb.1)) (lt_irrefl _)
  · exact absurd (honb.2.trans_le (hle.trans hona.1)) (lt_irrefl _)

/-- Rows that started together are of one group. -/
theorem Successive.group_eq_of_start (h : τ.Successive l) (ha : a ∈ l) (hb : b ∈ l)
    (hstart : τ.start a = τ.start b) : τ.group a = τ.group b := by
  by_contra hne
  rcases h.apart a ha b hb hne with ⟨hlt, _⟩ | ⟨hlt, _⟩
  · exact absurd hlt hstart.not_lt
  · exact absurd hlt hstart.symm.not_lt

/-- What has started is off once it is taken off. -/
theorem Closes.stop_le (hf : τ.Closes now f) (hstart : τ.start a ≤ now) : τ.stop (f a) ≤ now := by
  rw [hf.stop]
  split
  · exact le_rfl
  · next hoff =>
    rw [on_iff] at hoff
    exact not_lt.mp fun hlt ↦ hoff ⟨hstart, hlt⟩

theorem Closes.le_stop (hf : τ.Closes now f) (a : α) : τ.stop (f a) ≤ τ.stop a := by
  rw [hf.stop]
  split
  · next hon => exact (on_iff.mp hon).2.le
  · exact le_rfl

/-- Groups that are taken off still follow one another. -/
theorem Successive.close (h : τ.Successive l) (hf : τ.Closes now f) : τ.Successive (l.map f) := by
  constructor
  · intro _ ha _ hb hgroup
    obtain ⟨a, ha', rfl⟩ := List.mem_map.mp ha
    obtain ⟨b, hb', rfl⟩ := List.mem_map.mp hb
    rw [hf.group, hf.group] at hgroup
    obtain ⟨hstart, hstop⟩ := h.same a ha' b hb' hgroup
    have hon : τ.on now a = τ.on now b := by rw [on, on, hstart, hstop]
    rw [hf.start, hf.start, hf.stop, hf.stop, hstart, hstop, hon]
    exact ⟨rfl, rfl⟩
  · intro _ ha _ hb hne
    obtain ⟨a, ha', rfl⟩ := List.mem_map.mp ha
    obtain ⟨b, hb', rfl⟩ := List.mem_map.mp hb
    rw [hf.group, hf.group] at hne
    rw [hf.start, hf.start]
    rcases h.apart a ha' b hb' hne with ⟨hlt, hle⟩ | ⟨hlt, hle⟩
    · exact .inl ⟨hlt, (hf.le_stop a).trans hle⟩
    · exact .inr ⟨hlt, (hf.le_stop b).trans hle⟩

/-- A new group follows groups that are over. -/
theorem Successive.append (h : τ.Successive l)
    (hold : ∀ a ∈ l, τ.group a ≠ g ∧ τ.start a < now ∧ τ.stop a ≤ now)
    (hnew : ∀ b ∈ new, τ.group b = g ∧ τ.start b = now ∧ τ.stop b = stop) :
    τ.Successive (l ++ new) := by
  constructor
  · intro a ha b hb hgroup
    rcases List.mem_append.mp ha with ha | ha <;> rcases List.mem_append.mp hb with hb | hb
    · exact h.same a ha b hb hgroup
    · exact absurd (hgroup.trans (hnew b hb).1) (hold a ha).1
    · exact absurd (hgroup.symm.trans (hnew a ha).1) (hold b hb).1
    · obtain ⟨-, hstart, hstop⟩ := hnew a ha
      obtain ⟨-, hstart', hstop'⟩ := hnew b hb
      exact ⟨hstart.trans hstart'.symm, hstop.trans hstop'.symm⟩
  · intro a ha b hb hne
    rcases List.mem_append.mp ha with ha | ha <;> rcases List.mem_append.mp hb with hb | hb
    · exact h.apart a ha b hb hne
    · rw [(hnew b hb).2.1]
      exact .inl (hold a ha).2
    · rw [(hnew a ha).2.1]
      exact .inr (hold b hb).2
    · exact absurd ((hnew a ha).1.trans (hnew b hb).1.symm) hne

/-- A new group replaces the one that is on. -/
theorem Successive.relieve (h : τ.Successive l) (hf : τ.Closes now f)
    (hold : ∀ a ∈ l, τ.group a ≠ g ∧ τ.start a < now)
    (hnew : ∀ b ∈ new, τ.group b = g ∧ τ.start b = now ∧ τ.stop b = stop) :
    τ.Successive (l.map f ++ new) := by
  refine (h.close hf).append (fun _ ha ↦ ?_) hnew
  obtain ⟨a, ha', rfl⟩ := List.mem_map.mp ha
  obtain ⟨hne, hlt⟩ := hold a ha'
  rw [hf.group, hf.start]
  exact ⟨hne, hlt, hf.stop_le hlt.le⟩

/-! ## The newest groups -/

section Newest

variable [DecidableEq γ]

theorem Successive.latest_eq (h : τ.Successive l) (ha : a ∈ l) :
    τ.latest l (τ.group a) = τ.start a := by
  refine le_antisymm (List.maximum_le_of_forall_le fun t ht ↦ ?_) (List.le_maximum_of_mem' ?_)
  · obtain ⟨b, hb, rfl⟩ := List.mem_map.mp ht
    rw [List.mem_filter, decide_eq_true_iff] at hb
    exact WithBot.coe_le_coe.mpr (h.same b hb.1 a ha hb.2).1.le
  · exact List.mem_map_of_mem (List.mem_filter.mpr ⟨ha, decide_eq_true rfl⟩)

theorem newest_nodup : (τ.newest k l).Nodup :=
  ((perm_orderBy _ _).nodup_iff.mpr (List.nodup_dedup _)).sublist (List.take_sublist _ _)

theorem mem_of_mem_newest (hg : g ∈ τ.newest k l) : ∃ a ∈ l, τ.group a = g := by
  have hmem := List.mem_dedup.mp (mem_orderBy.mp (List.mem_of_mem_take hg))
  exact List.mem_map.mp hmem

/-- If all rows are of one group, that is the newest one. -/
theorem newest_of_forall (ha : a ∈ l) (h : ∀ b ∈ l, τ.group b = τ.group a) :
    τ.newest 1 l = [τ.group a] := by
  have hperm : [τ.group a].Perm (l.map τ.group).dedup := by
    refine (List.perm_ext_iff_of_nodup (List.nodup_singleton _) (List.nodup_dedup _)).mpr fun g ↦ ?_
    rw [List.mem_singleton, List.mem_dedup, List.mem_map]
    constructor
    · rintro rfl
      exact ⟨a, ha, rfl⟩
    · rintro ⟨b, hb, rfl⟩
      exact h b hb
  have hsingle : (l.map τ.group).dedup = [τ.group a] := List.perm_singleton.mp hperm.symm
  rw [newest, hsingle]
  rfl

/-- A group that is not among the newest comes before all of them. -/
theorem Successive.newest_after (h : τ.Successive l) (ha : a ∈ l)
    (hnot : τ.group a ∉ τ.newest k l) :
    (τ.newest k l).length = k ∧
      ∀ g ∈ τ.newest k l, ∃ c ∈ l, τ.group c = g ∧ τ.start a < τ.start c := by
  set key := fun g ↦ OrderDual.toDual (τ.latest l g) with hkey
  set sorted := orderBy key (l.map τ.group).dedup with hsorted
  have hmem : τ.group a ∈ sorted :=
    mem_orderBy.mpr (List.mem_dedup.mpr (List.mem_map_of_mem ha))
  have hdrop : τ.group a ∈ sorted.drop k := by
    rw [← List.take_append_drop k sorted] at hmem
    exact (List.mem_append.mp hmem).resolve_left hnot
  constructor
  · rw [newest, List.length_take]
    refine min_eq_left (le_of_lt ?_)
    have hpos := List.length_pos_of_mem hdrop
    rw [List.length_drop] at hpos
    exact Nat.lt_of_sub_pos hpos
  · intro g hg
    obtain ⟨c, hc, rfl⟩ := mem_of_mem_newest hg
    have hpair : sorted.Pairwise fun g g' ↦ key g ≤ key g' := pairwise_orderBy _ _
    rw [← List.take_append_drop k sorted, List.pairwise_append] at hpair
    have hle := hpair.2.2 _ hg _ hdrop
    rw [hkey, OrderDual.toDual_le_toDual, h.latest_eq ha, h.latest_eq hc, WithBot.coe_le_coe] at hle
    refine ⟨c, hc, rfl, lt_of_le_of_ne hle fun heq ↦ hnot ?_⟩
    rw [h.group_eq_of_start ha hc heq]
    exact hg

/-- A new group that shows nothing of the newest ones keeps what is shown rested. -/
theorem Rested.relieve {ι : Type x} {item : α → ι} (h : τ.Rested k item l) (hl : τ.Successive l)
    (hf : τ.Closes now f) (hitem : ∀ a, item (f a) = item a) (hold : ∀ a ∈ l, τ.start a < now)
    (hnew : ∀ b ∈ new, τ.start b = now)
    (hfresh : ∀ a ∈ l, ∀ b ∈ new, item a = item b → τ.group a ∉ τ.newest k (l.map f)) :
    τ.Rested k item (l.map f ++ new) := by
  have hbefore : ∀ a ∈ l.map f, τ.start a < now := by
    intro _ ha
    obtain ⟨a, ha', rfl⟩ := List.mem_map.mp ha
    rw [hf.start]
    exact hold a ha'
  intro a ha b hb hsame hlt
  rcases List.mem_append.mp hb with hb | hb
  · have hmem : a ∈ l.map f := by
      refine (List.mem_append.mp ha).resolve_right fun ha ↦ ?_
      rw [hnew a ha] at hlt
      exact absurd hlt (hbefore b hb).not_gt
    obtain ⟨a, ha', rfl⟩ := List.mem_map.mp hmem
    obtain ⟨b, hb', rfl⟩ := List.mem_map.mp hb
    rw [hitem, hitem] at hsame
    rw [hf.start, hf.start] at hlt
    obtain ⟨gs, hnodup, hlength, hgs⟩ := h a ha' b hb' hsame hlt
    refine ⟨gs, hnodup, hlength, fun g hg ↦ ?_⟩
    obtain ⟨c, hc, hgroup, hafter, hsooner⟩ := hgs g hg
    refine ⟨f c, List.mem_append_left _ (List.mem_map_of_mem hc), ?_⟩
    rw [hf.group, hf.start, hf.start, hf.start]
    exact ⟨hgroup, hafter, hsooner⟩
  · have ha : a ∈ l.map f := by
      refine (List.mem_append.mp ha).resolve_right fun ha ↦ ?_
      rw [hnew a ha, hnew b hb] at hlt
      exact lt_irrefl _ hlt
    have hnot : τ.group a ∉ τ.newest k (l.map f) := by
      obtain ⟨a', ha', rfl⟩ := List.mem_map.mp ha
      rw [hitem] at hsame
      rw [hf.group]
      exact hfresh a' ha' b hb hsame
    obtain ⟨hlength, hafter⟩ := (hl.close hf).newest_after ha hnot
    refine ⟨τ.newest k (l.map f), newest_nodup, hlength, fun g hg ↦ ?_⟩
    obtain ⟨c, hc, hgroup, hlt'⟩ := hafter g hg
    exact ⟨c, List.mem_append_left _ hc, hgroup, hlt', (hnew b hb).symm ▸ hbefore c hc⟩

end Newest

end Timetable

end Genjishimada.Library
