import Genjishimada.Library.Run
import Genjishimada.Services.Skill
import Mathlib.Data.List.Induction

/-!
# Coalesced recompute triggers

Calls of `recompute_all` share one guard: a call that finds the lock held leaves its
descriptor and the flag, and the holder rebuilds once more.  When a rebuild raises the
holder leaves the loop, so a trigger coalesced onto it waits for a later call; nothing
is lost exactly as long as there is one.
-/

namespace Genjishimada.Skill

open Library Services

/-! ## The event loop -/

/-- What the log records: a trigger is accepted, a rebuild starts. -/
inductive RecomputeEvent where
  | arrived (descriptor : TriggerDescriptor)
  | started (drained : List TriggerDescriptor)
deriving DecidableEq, Repr

/-- The process: the guard, the calls made that have not run yet, and the log.  While the
lock is held a rebuild is suspended. -/
structure Recomputes where
  guard : RecomputeGuard := {}
  calls : List (Option TriggerDescriptor) := []
  log : List RecomputeEvent := []
deriving DecidableEq, Repr

/-- What the event loop can do next. -/
inductive RecomputeLabel where
  | /-- `recompute_all` is called. -/
    call (descriptor : Option TriggerDescriptor)
  | /-- The `i`-th waiting call runs, up to its first suspension. -/
    enter (i : Nat)
  | /-- The rebuild in progress returns and its holder goes on. -/
    finish
  | /-- The rebuild in progress raises. -/
    raise
deriving DecidableEq, Repr

/-- The entry of a rebuild that starts. -/
def startedEvents (drained : Option (List TriggerDescriptor)) : List RecomputeEvent :=
  (drained.map RecomputeEvent.started).toList

/-- One step of the event loop. -/
def recomputeStep (s : Recomputes) : RecomputeLabel → Option Recomputes
  | .call descriptor => some { s with calls := s.calls ++ [descriptor] }
  | .enter i =>
      s.calls[i]?.map fun descriptor ↦
        let ran := recomputeAll descriptor s.guard
        { guard := ran.1
          calls := s.calls.eraseIdx i
          log := s.log ++ .arrived (descriptor.getD {}) :: startedEvents ran.2 }
  | .finish =>
      if s.guard.locked then
        let ran := rebuildLoop s.guard
        some { s with guard := ran.1, log := s.log ++ startedEvents ran.2 }
      else none
  | .raise =>
      if s.guard.locked then some { s with guard := rebuildRaises s.guard } else none

/-! ## Lost triggers -/

/-- The triggers that arrived after the last rebuild started. -/
def waiting (log : List RecomputeEvent) : List TriggerDescriptor :=
  log.foldl (fun acc e ↦ match e with
    | .arrived descriptor => acc ++ [descriptor]
    | .started _ => []) []

/-- Every trigger in the log is followed by a rebuild that started after it. -/
def Followed (log : List RecomputeEvent) : Prop :=
  ∀ before descriptor after, log = before ++ .arrived descriptor :: after →
    ∃ drained, .started drained ∈ after

/-- No rebuild is running and no call is waiting to run. -/
def Quiescent (s : Recomputes) : Prop := s.guard.locked = false ∧ s.calls = []

/-- Once everything has come to rest, every trigger was followed by a rebuild and the
guard is clear. -/
def NoLostTrigger (s : Recomputes) : Prop :=
  Quiescent s → Followed s.log ∧ s.guard.pending = [] ∧ s.guard.rerunRequested = false

/-- A rebuild raises although a trigger has been coalesced onto it, and no other call
is there to pick the trigger up. -/
def Strands (s : Recomputes) (l : RecomputeLabel) : Prop :=
  l = .raise ∧ s.guard.rerunRequested = true ∧ s.calls = []

@[simp] theorem waiting_arrived (log : List RecomputeEvent) (d : TriggerDescriptor) :
    waiting (log ++ [.arrived d]) = waiting log ++ [d] := by
  simp [waiting]

@[simp] theorem waiting_started (log : List RecomputeEvent) (ds : List TriggerDescriptor) :
    waiting (log ++ [.started ds]) = [] := by
  simp [waiting]

/-- Every trigger is followed by a rebuild exactly when none arrived after the last. -/
theorem followed_iff (log : List RecomputeEvent) : Followed log ↔ waiting log = [] := by
  induction log using List.reverseRecOn with
  | nil => simp [Followed, waiting]
  | append_singleton log e ih =>
      cases e with
      | arrived d =>
          rw [waiting_arrived]
          constructor
          · intro h
            obtain ⟨ds, hds⟩ := h log d [] rfl
            simp at hds
          · intro h
            simp at h
      | started ds =>
          rw [waiting_started]
          constructor
          · intro _
            rfl
          · intro _ before d after h
            -- the trigger is not the last entry, so the rebuild at the end follows it
            rcases List.eq_nil_or_concat after with rfl | ⟨after, e, rfl⟩
            · have := List.append_inj_right' h rfl
              simp at this
            · rw [List.concat_eq_append, ← List.cons_append, ← List.append_assoc] at h
              obtain rfl : RecomputeEvent.started ds = e := by
                simpa using List.append_inj_right' h rfl
              exact ⟨ds, by simp⟩

/-! ## The guard's invariant -/

/-- The accumulator holds the triggers no rebuild has started for, and the flag says
whether there are any. -/
structure GuardInv (s : Recomputes) : Prop where
  pending_eq : s.guard.pending = waiting s.log
  rerun_iff : s.guard.rerunRequested = true ↔ s.guard.pending ≠ []

/-- A run of the loop on an accurate guard. -/
theorem GuardInv.loop {g : RecomputeGuard} {calls : List (Option TriggerDescriptor)}
    {log : List RecomputeEvent} (h : GuardInv ⟨g, calls, log⟩) :
    GuardInv ⟨(rebuildLoop g).1, calls, log ++ startedEvents (rebuildLoop g).2⟩ := by
  rw [rebuildLoop]
  split
  · constructor
    · simp [startedEvents]
    · simp
  · constructor
    · simpa [startedEvents] using h.pending_eq
    · simpa using h.rerun_iff

/-- Every step keeps the guard accurate. -/
theorem GuardInv.step {s s' : Recomputes} {l : RecomputeLabel} (h : GuardInv s)
    (hl : recomputeStep s l = some s') : GuardInv s' := by
  cases l with
  | call d =>
      obtain rfl := Option.some.inj hl
      exact ⟨h.pending_eq, h.rerun_iff⟩
  | enter i =>
      obtain ⟨d, _, rfl⟩ := Option.map_eq_some_iff.mp hl
      -- the descriptor is accounted for before the lock is looked at
      have harrived (locked : Bool) (calls : List (Option TriggerDescriptor)) :
          GuardInv ⟨⟨locked, true, s.guard.pending ++ [d.getD {}]⟩, calls,
            s.log ++ [.arrived (d.getD {})]⟩ := by
        constructor
        · simp [h.pending_eq]
        · simp
      simp only [recomputeAll]
      split
      · have := harrived s.guard.locked (s.calls.eraseIdx i)
        simpa [startedEvents] using this
      · have := (harrived true (s.calls.eraseIdx i)).loop
        simpa using this
  | finish =>
      simp only [recomputeStep] at hl
      split at hl
      · obtain rfl := Option.some.inj hl
        exact h.loop
      · cases hl
  | raise =>
      simp only [recomputeStep] at hl
      split at hl
      · obtain rfl := Option.some.inj hl
        exact ⟨h.pending_eq, h.rerun_iff⟩
      · cases hl

/-- With an accurate guard, only the flag of a guard at rest can tell of a lost trigger. -/
theorem GuardInv.noLost_iff {s : Recomputes} (h : GuardInv s) :
    NoLostTrigger s ↔ (Quiescent s → s.guard.rerunRequested = false) := by
  constructor
  · intro hs hq
    exact (hs hq).2.2
  · intro hs hq
    have hrerun := hs hq
    have hpending : s.guard.pending = [] := by
      by_contra hne
      rw [h.rerun_iff.mpr hne] at hrerun
      cases hrerun
    refine ⟨?_, hpending, hrerun⟩
    rw [followed_iff, ← h.pending_eq]
    exact hpending

/-- A step leaves a lost trigger behind exactly when it strands one. -/
theorem GuardInv.step_noLostTrigger_iff {s s' : Recomputes} {l : RecomputeLabel} (h : GuardInv s)
    (hl : recomputeStep s l = some s') : NoLostTrigger s' ↔ ¬ Strands s l := by
  rw [(h.step hl).noLost_iff]
  cases l with
  | call d =>
      obtain rfl := Option.some.inj hl
      simp [Quiescent, Strands]
  | enter i =>
      obtain ⟨d, _, rfl⟩ := Option.map_eq_some_iff.mp hl
      cases hlocked : s.guard.locked <;>
        simp [recomputeAll, rebuildLoop, Quiescent, Strands, hlocked]
  | finish =>
      simp only [recomputeStep] at hl
      split at hl
      · obtain rfl := Option.some.inj hl
        cases hrerun : s.guard.rerunRequested <;>
          simp [rebuildLoop, Quiescent, Strands, hrerun]
      · cases hl
  | raise =>
      simp only [recomputeStep] at hl
      split at hl
      · obtain rfl := Option.some.inj hl
        cases hrerun : s.guard.rerunRequested <;>
          simp [rebuildRaises, Quiescent, Strands, hrerun]
      · cases hl

/-- In a run of the event loop no trigger is ever lost exactly when no rebuild of the
run strands one. -/
theorem noLostTrigger_iff {ls : List RecomputeLabel} {s : Recomputes} :
    Run (fun s l s' ↦ recomputeStep s l = some s' ∧ NoLostTrigger s') {} ls s ↔
      Run (Guarded (fun s l ↦ ¬ Strands s l) (ofStep recomputeStep)) {} ls s := by
  apply Run.congr GuardInv
  · intro s l s' h
    constructor
    · rintro ⟨hl, hs⟩
      exact ⟨(h.step_noLostTrigger_iff hl).mp hs, hl⟩
    · rintro ⟨hs, hl⟩
      exact ⟨hl, (h.step_noLostTrigger_iff hl).mpr hs⟩
  · rintro s l s' h ⟨hl, _⟩
    exact h.step hl
  · constructor
    · rfl
    · simp

/-- A second trigger arrives during a rebuild that raises. -/
theorem raisingRebuild_strands :
    let ls : List RecomputeLabel :=
      [.call none, .enter 0, .call (some ⟨.playerAction, some 7⟩), .enter 0, .raise]
    ∃ s, ls.foldlM recomputeStep {} = some s ∧ ¬ NoLostTrigger s := by
  refine ⟨_, rfl, ?_⟩
  intro h
  have h := (h ⟨rfl, rfl⟩).2.2
  cases h

end Genjishimada.Skill
