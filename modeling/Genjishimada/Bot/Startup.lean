import Genjishimada.Library.Run
import Mathlib.Algebra.BigOperators.Group.Finset.Piecewise
import Mathlib.Logic.Function.Basic

/-!
# Draining the queues at startup

`RabbitHandler._set_up_queues` declares the queues one after the other: it adds the depth
of a queue to `_pending_startup_messages` and starts consuming from it before it goes on
to the next.  `_wrap_handler` takes one off that counter for *every* message whose handler
returns while the bot is draining, and the drain is complete when the counter is at zero
or below.

So the counter holds the messages that were waiting and are not handled yet, *plus* those
whose handler raised, *minus* the later arrivals that were handled (`StartupState.level`).
The event is set exactly when it should be in the runs in which that number reaches zero
with the last waiting message and not before (`startup_drained_iff`).
-/

namespace Genjishimada.Bot

open Library

/-! ## The bot at startup -/

/-- The queues, numbered in the order of `self._queues`, and the fields of `RabbitHandler`.
`waiting` counts the messages a queue held when its depth was read, `later` those that
arrived since; a queue is first in, first out. -/
structure StartupState where
  size : Nat
  waiting : Nat → Nat
  later : Nat → Nat := fun _ ↦ 0
  /-- The queues whose depth has been read. -/
  counted : Nat := 0
  /-- The queues that are consumed from. -/
  consuming : Nat := 0
  /-- `_set_up_queues` has returned. -/
  finished : Bool := false
  /-- `_pending_startup_messages` -/
  pending : Int := 0
  /-- `_startup_draining` -/
  draining : Bool := true
  /-- `_startup_drain_complete` is set. -/
  complete : Bool := false
  /-- The waiting messages whose handler raised; no code reads it. -/
  raised : Nat := 0
  /-- The later messages handled while draining; no code reads it. -/
  ahead : Nat := 0

inductive StartupLabel where
  | /-- A message is published to queue `q`. -/
    arrive (q : Nat)
  | /-- The passive declare of the next queue. -/
    count
  | /-- `queue.consume` of the queue that was counted. -/
    consume
  | /-- The end of `_set_up_queues`. -/
    finish
  | /-- The handler of the message at the head of queue `q` returns or raises. -/
    handle (q : Nat) (returns : Bool)

namespace StartupState

/-- `if self._startup_draining: …`, after a handler has returned. -/
def countDown (s : StartupState) : StartupState :=
  if s.draining then
    if s.pending - 1 ≤ 0 then
      { s with pending := s.pending - 1, draining := false, complete := true }
    else { s with pending := s.pending - 1 }
  else s

/-- The message at the head of `q`, one that was waiting, leaves the queue. -/
def takeWaiting (s : StartupState) (q : Nat) (returns : Bool) : StartupState :=
  { s with
    waiting := Function.update s.waiting q (s.waiting q - 1)
    raised := if returns then s.raised else s.raised + 1 }

/-- The message at the head of `q`, a later one, leaves the queue. -/
def takeLater (s : StartupState) (q : Nat) (returns : Bool) : StartupState :=
  { s with
    later := Function.update s.later q (s.later q - 1)
    ahead := if returns && s.draining then s.ahead + 1 else s.ahead }

end StartupState

/-- One step of the bot at startup. -/
def startupStep (s : StartupState) : StartupLabel → Option StartupState
  | .arrive q =>
      if q < s.size then
        if q < s.counted then some { s with later := Function.update s.later q (s.later q + 1) }
        else some { s with waiting := Function.update s.waiting q (s.waiting q + 1) }
      else none
  | .count =>
      if s.counted = s.consuming ∧ s.counted < s.size then
        some { s with counted := s.counted + 1, pending := s.pending + s.waiting s.counted }
      else none
  | .consume =>
      if s.consuming < s.counted then some { s with consuming := s.consuming + 1 } else none
  | .finish =>
      if s.consuming = s.size ∧ s.finished = false then
        if s.pending = 0 then some { s with finished := true, draining := false, complete := true }
        else some { s with finished := true }
      else none
  | .handle q returns =>
      if q < s.consuming then
        if 0 < s.waiting q then
          let s' := s.takeWaiting q returns
          -- a handler that raises leaves `message.process()` before the count-down
          some (if returns then s'.countDown else s')
        else if 0 < s.later q then
          let s' := s.takeLater q returns
          some (if returns then s'.countDown else s')
        else none
      else none

/-- Queues of the given depths, before `_set_up_queues`. -/
def startup (depths : List Nat) : StartupState where
  size := depths.length
  waiting q := depths.getD q 0

/-! ## What the event says -/

/-- `_startup_drain_complete` is set iff all queues have been set up and every message that
was waiting has been handled, one way or the other. -/
def Drained (s : StartupState) : Prop :=
  s.complete = true ↔ s.finished = true ∧ ∀ q, q < s.size → s.waiting q = 0

namespace StartupState

/-- The messages that were waiting in the queues counted so far and are not handled. -/
def outstanding (s : StartupState) : Nat := ∑ q ∈ Finset.range s.counted, s.waiting q

/-- What the counter holds while the bot drains. -/
def level (s : StartupState) : Int := s.outstanding + s.raised - s.ahead

/-- All queues are set up and `n` waiting messages are left. -/
def Left (s : StartupState) (n : Nat) : Prop := s.finished = true ∧ s.outstanding = n

end StartupState

/-- The step that brings the level to zero is the one that handles the last waiting message
after the setup, or the end of the setup with nothing waiting; and the handler of that
last message returns. -/
def OnTime (s : StartupState) : StartupLabel → Prop
  | .arrive _ | .count | .consume => True
  | .finish => s.level = 0 ↔ s.outstanding = 0
  | .handle q returns =>
      if 0 < s.waiting q then
        if returns = true then s.level ≤ 1 ↔ s.Left 1 else ¬ s.Left 1
      else returns = true → s.Left 0 ∨ 1 < s.level

/-! ## The counter -/

/-- What holds at every moment. -/
structure StartupInv (s : StartupState) : Prop where
  consuming : s.consuming ≤ s.counted
  counted : s.counted ≤ s.size
  finished : s.finished = true → s.consuming = s.size
  pending : s.draining = true → s.pending = s.level
  complete : s.draining = !s.complete

section Inv

variable {s s' : StartupState} {l : StartupLabel} {q : Nat} {returns : Bool}

/-- With all queues counted nothing is outstanding when no queue has a waiting message. -/
theorem StartupInv.drained_iff (h : StartupInv s) :
    Drained s ↔ (s.complete = true ↔ s.Left 0) := by
  refine iff_congr Iff.rfl (and_congr_right fun hfin ↦ ?_)
  have hsize : s.counted = s.size :=
    Nat.le_antisymm h.counted ((h.finished hfin).symm.le.trans h.consuming)
  rw [StartupState.outstanding, hsize, Finset.sum_eq_zero_iff]
  exact forall_congr' fun q ↦ by rw [Finset.mem_range]

/-- A message handled takes one off what is outstanding. -/
theorem outstanding_takeWaiting (returns : Bool) (hq : q < s.counted) (hw : 0 < s.waiting q) :
    (s.takeWaiting q returns).outstanding + 1 = s.outstanding := by
  have hmem : q ∈ Finset.range s.counted := Finset.mem_range.mpr hq
  simp only [StartupState.outstanding, StartupState.takeWaiting]
  rw [Finset.sum_update_of_mem hmem, Finset.sdiff_singleton_eq_erase,
    ← Finset.add_sum_erase (Finset.range s.counted) s.waiting hmem]
  omega

/-- A message that arrives in a queue not counted yet is not outstanding. -/
theorem outstanding_arrive (hq : ¬ q < s.counted) :
    ∑ i ∈ Finset.range s.counted, Function.update s.waiting q (s.waiting q + 1) i =
      s.outstanding :=
  Finset.sum_update_of_notMem (by simpa using hq) s.waiting _

/-- A waiting message is outstanding. -/
theorem outstanding_pos (hq : q < s.counted) (hw : 0 < s.waiting q) : 0 < s.outstanding := by
  rw [← outstanding_takeWaiting true hq hw]
  exact Nat.succ_pos _

/-- A handler that has returned takes one off the counter while the bot drains. -/
theorem countDown_of_draining (hd : s.draining = true) :
    s.countDown = { s with
      pending := s.pending - 1
      draining := !decide (s.pending - 1 ≤ 0)
      complete := s.complete || decide (s.pending - 1 ≤ 0) } := by
  unfold StartupState.countDown
  rw [if_pos hd]
  split
  · next h => simp [h]
  · next h => simp [h, hd]

/-- Later it does nothing. -/
theorem countDown_of_not_draining (hd : s.draining = false) : s.countDown = s := by
  rw [StartupState.countDown, hd]
  rfl

/-- The count-down of a counter that is one too high for the messages left. -/
theorem StartupInv.countDown (h : StartupInv { s with pending := s.pending - 1 }) :
    StartupInv s.countDown := by
  cases hd : s.draining with
  | false =>
      rw [countDown_of_not_draining hd]
      exact ⟨h.consuming, h.counted, h.finished, by simp [hd], h.complete⟩
  | true =>
      rw [countDown_of_draining hd]
      have hcomplete : s.complete = false := by simpa [hd] using h.complete
      refine ⟨h.consuming, h.counted, h.finished, fun _ ↦ h.pending hd, ?_⟩
      simp [hcomplete]

/-- A waiting message is handled. -/
theorem StartupInv.handleWaiting (h : StartupInv s) (returns : Bool) (hq : q < s.counted)
    (hw : 0 < s.waiting q) :
    StartupInv (if returns then (s.takeWaiting q returns).countDown
      else s.takeWaiting q returns) := by
  have hout := outstanding_takeWaiting returns hq hw
  cases returns with
  | true =>
      refine StartupInv.countDown ⟨h.consuming, h.counted, h.finished, fun hd ↦ ?_, h.complete⟩
      have hpending := h.pending hd
      simp only [StartupState.level] at hpending ⊢
      change s.pending - 1 = ((s.takeWaiting q true).outstanding : Int) + s.raised - s.ahead
      omega
  | false =>
      refine ⟨h.consuming, h.counted, h.finished, fun hd ↦ ?_, h.complete⟩
      have hpending := h.pending hd
      simp only [StartupState.level] at hpending ⊢
      change s.pending =
        ((s.takeWaiting q false).outstanding : Int) + (s.raised + 1 : Nat) - s.ahead
      omega

/-- A later message is handled: the counter goes down for it too. -/
theorem StartupInv.handleLater (h : StartupInv s) (returns : Bool) :
    StartupInv (if returns then (s.takeLater q returns).countDown else s.takeLater q returns) := by
  cases returns with
  | true =>
      refine StartupInv.countDown ⟨h.consuming, h.counted, h.finished, fun hd ↦ ?_, h.complete⟩
      have hdraining : s.draining = true := hd
      have hpending := h.pending hd
      simp only [StartupState.level] at hpending ⊢
      change s.pending - 1 = (s.outstanding : Int) + s.raised -
        (if true && s.draining then s.ahead + 1 else s.ahead : Nat)
      rw [hdraining]
      simp only [Bool.and_true, if_true]
      omega
  | false => exact ⟨h.consuming, h.counted, h.finished, h.pending, h.complete⟩

/-- The counter's invariant is kept by every step. -/
theorem StartupInv.step (h : StartupInv s) (hs : startupStep s l = some s') : StartupInv s' := by
  cases l with
  | arrive q =>
      simp only [startupStep] at hs
      split at hs
      · split at hs
        · cases hs
          exact ⟨h.consuming, h.counted, h.finished, h.pending, h.complete⟩
        · next hq =>
            cases hs
            refine ⟨h.consuming, h.counted, h.finished, fun hd ↦ ?_, h.complete⟩
            rw [StartupState.level, StartupState.outstanding, outstanding_arrive hq]
            exact h.pending hd
      · cases hs
  | count =>
      simp only [startupStep] at hs
      split at hs
      · next hc =>
          cases hs
          refine ⟨h.consuming.trans (Nat.le_succ _), hc.2, h.finished, fun hd ↦ ?_, h.complete⟩
          have hpending := h.pending hd
          simp only [StartupState.level, StartupState.outstanding, Finset.sum_range_succ]
            at hpending ⊢
          omega
      · cases hs
  | consume =>
      simp only [startupStep] at hs
      split at hs
      · next hc =>
          cases hs
          refine ⟨hc, h.counted, fun hfin ↦ ?_, h.pending, h.complete⟩
          have := h.finished hfin
          have := h.counted
          omega
      · cases hs
  | finish =>
      simp only [startupStep] at hs
      split at hs
      · next hc =>
          split at hs
          · cases hs
            exact ⟨h.consuming, h.counted, fun _ ↦ hc.1, by simp, by simp⟩
          · cases hs
            exact ⟨h.consuming, h.counted, fun _ ↦ hc.1, h.pending, h.complete⟩
      · cases hs
  | handle q returns =>
      simp only [startupStep] at hs
      split at hs
      · next hq =>
          split at hs
          · next hw =>
              cases hs
              exact h.handleWaiting returns (hq.trans_le h.consuming) hw
          · split at hs
            · cases hs
              exact h.handleLater returns
            · cases hs
      · cases hs

theorem left_countDown (n : Nat) : s.countDown.Left n ↔ s.Left n := by
  cases hd : s.draining with
  | true =>
      rw [countDown_of_draining hd]
      rfl
  | false => rw [countDown_of_not_draining hd]

/-- While queues are being set up nothing says that they are drained. -/
theorem not_complete_of_not_finished (hd : s.complete = true ↔ s.Left 0)
    (hfin : s.finished = false) : s.complete = false := by
  by_contra hc
  have := (hd.mp (Bool.not_eq_false _ ▸ hc)).1
  rw [hfin] at this
  cases this

/-- What a returning handler leaves: the event is set if it was, or if the counter has come
down to one. -/
theorem complete_countDown (h : s.draining = !s.complete) :
    s.countDown.complete = true ↔ s.complete = true ∨ s.complete = false ∧ s.pending ≤ 1 := by
  cases hc : s.complete with
  | true =>
      have hd : s.draining = false := by simpa [hc] using h
      simp [countDown_of_not_draining hd, hc]
  | false =>
      have hd : s.draining = true := by simpa [hc] using h
      rw [countDown_of_draining hd]
      simp only [hc, Bool.false_or, decide_eq_true_eq, Bool.false_eq_true, true_and, false_or]
      omega

/-- Handling a waiting message is on time if the event is set with the last one. -/
theorem StartupInv.drained_handleWaiting_iff (h : StartupInv s)
    (hd : s.complete = true ↔ s.Left 0) (returns : Bool) (hq : q < s.counted)
    (hw : 0 < s.waiting q) :
    ((if returns then (s.takeWaiting q returns).countDown
        else s.takeWaiting q returns).complete = true ↔
      (if returns then (s.takeWaiting q returns).countDown
        else s.takeWaiting q returns).Left 0) ↔ OnTime s (.handle q returns) := by
  have hout := outstanding_takeWaiting returns hq hw
  -- a waiting message is left, so the event is not set yet
  have hcomplete : s.complete = false := by
    by_contra hc
    have := (hd.mp (by simpa using hc)).2
    have := outstanding_pos hq hw
    omega
  have hpending := h.pending (by simp [h.complete, hcomplete])
  have hleft : (s.takeWaiting q returns).Left 0 ↔ s.Left 1 :=
    and_congr_right fun _ ↦ by omega
  cases returns with
  | true =>
      have hdown : (s.takeWaiting q true).countDown.complete = true ↔ s.level ≤ 1 := by
        rw [complete_countDown (s := s.takeWaiting q true) h.complete, ← hpending]
        simp [StartupState.takeWaiting, hcomplete]
      rw [if_pos rfl, hdown, left_countDown, hleft, OnTime, if_pos hw, if_pos rfl]
  | false =>
      have hkept : (s.takeWaiting q false).complete = false := hcomplete
      rw [if_neg Bool.false_ne_true, hkept, hleft, OnTime, if_pos hw, if_neg Bool.false_ne_true]
      simp

/-- Handling a later message is on time if the counter does not reach zero by it. -/
theorem StartupInv.drained_handleLater_iff (h : StartupInv s)
    (hd : s.complete = true ↔ s.Left 0) (returns : Bool) (hw : ¬ 0 < s.waiting q) :
    ((if returns then (s.takeLater q returns).countDown
        else s.takeLater q returns).complete = true ↔
      (if returns then (s.takeLater q returns).countDown
        else s.takeLater q returns).Left 0) ↔ OnTime s (.handle q returns) := by
  cases returns with
  | true =>
      have hdown : (s.takeLater q true).countDown.complete = true ↔
          s.complete = true ∨ s.complete = false ∧ s.pending ≤ 1 :=
        complete_countDown h.complete
      have hleft : (s.takeLater q true).Left 0 ↔ s.Left 0 := Iff.rfl
      rw [if_pos rfl, hdown, left_countDown, hleft, ← hd, OnTime, if_neg hw]
      cases hc : s.complete with
      | true =>
          exact iff_of_true (by simp) fun _ ↦ .inl (hd.mp hc)
      | false =>
          have hpending := h.pending (by simp [h.complete, hc])
          have hnot : ¬ s.Left 0 := fun hl ↦ by
            rw [hd.mpr hl] at hc
            cases hc
          simp [hnot, hpending]
  | false =>
      rw [if_neg Bool.false_ne_true, OnTime, if_neg hw]
      exact iff_of_true hd fun h ↦ absurd h Bool.false_ne_true

/-- **The event says what it should after a step exactly when the step is on time.** -/
theorem StartupInv.drained_step_iff (h : StartupInv s) (hdrained : Drained s)
    (hs : startupStep s l = some s') : Drained s' ↔ OnTime s l := by
  have hd := h.drained_iff.mp hdrained
  rw [(h.step hs).drained_iff]
  cases l with
  | arrive q =>
      simp only [startupStep] at hs
      split at hs
      · split at hs
        · cases hs
          exact iff_of_true hd trivial
        · next hq =>
            cases hs
            refine iff_of_true ?_ trivial
            rw [StartupState.Left, StartupState.outstanding, outstanding_arrive hq]
            exact hd
      · cases hs
  | count =>
      simp only [startupStep] at hs
      split at hs
      · next hc =>
          cases hs
          have hfin : s.finished = false := by
            by_contra hfin
            have := h.finished (by simpa using hfin)
            omega
          have hcomplete := not_complete_of_not_finished hd hfin
          refine iff_of_true ?_ trivial
          simp [StartupState.Left, hfin, hcomplete]
      · cases hs
  | consume =>
      simp only [startupStep] at hs
      split at hs
      · cases hs
        exact iff_of_true hd trivial
      · cases hs
  | finish =>
      simp only [startupStep] at hs
      split at hs
      · next hc =>
          have hcomplete := not_complete_of_not_finished hd hc.2
          have hpending := h.pending (by simp [h.complete, hcomplete])
          split at hs
          · next hzero =>
              cases hs
              simp only [StartupState.Left, OnTime, ← hpending, hzero, true_and, true_iff]
              rfl
          · next hzero =>
              cases hs
              simp only [StartupState.Left, OnTime, ← hpending, hzero, hcomplete, true_and,
                Bool.false_eq_true, false_iff]
              rfl
      · cases hs
  | handle q returns =>
      simp only [startupStep] at hs
      split at hs
      · next hq =>
          split at hs
          · next hw =>
              cases hs
              exact h.drained_handleWaiting_iff hd returns (hq.trans_le h.consuming) hw
          · next hw =>
              split at hs
              · cases hs
                exact h.drained_handleLater_iff hd returns hw
              · cases hs
      · cases hs

end Inv

/-! ## Runs -/

theorem startupInv_startup (depths : List Nat) : StartupInv (startup depths) := by
  constructor <;> simp [startup, StartupState.level, StartupState.outstanding]

/-- **In every run of the bot from any startup depths the event is set exactly when all queues
are set up and all waiting messages are handled, in every state the run reaches, iff every
step of the run is on time.** -/
theorem startup_drained_iff (depths : List Nat) (ls : List StartupLabel) (s : StartupState) :
    Run (fun s l s' ↦ startupStep s l = some s' ∧ Drained s') (startup depths) ls s ↔
      Run (Guarded OnTime (ofStep startupStep)) (startup depths) ls s := by
  apply Run.congr fun s ↦ StartupInv s ∧ Drained s
  · rintro s l s' ⟨h, hd⟩
    constructor
    · rintro ⟨hs, hd'⟩
      exact ⟨(h.drained_step_iff hd hs).mp hd', hs⟩
    · rintro ⟨htime, hs⟩
      exact ⟨hs, (h.drained_step_iff hd hs).mpr htime⟩
  · rintro s l s' ⟨h, _⟩ ⟨hs, hd'⟩
    exact ⟨h.step hs, hd'⟩
  · exact ⟨startupInv_startup depths, by simp [Drained, startup]⟩

/-- Two queues with a message each: the message of the first is handled before the second is
declared, and the drain is complete with a message waiting. -/
theorem fastConsumer_setEarly :
    let ls : List StartupLabel := [.count, .consume, .handle 0 true]
    ∃ s, ls.foldlM startupStep (startup [1, 1]) = some s ∧ s.complete = true ∧
      s.finished = false ∧ s.waiting 1 = 1 ∧ ¬ Drained s := by
  refine ⟨_, rfl, by decide, by decide, by decide, fun h ↦ ?_⟩
  have hfin := (h.mp (by decide)).1
  revert hfin
  decide

/-- One queue with a message whose handler raises: it is dead-lettered and the drain never
completes. -/
theorem raisingHandler_neverSet :
    let ls : List StartupLabel := [.count, .consume, .finish, .handle 0 false]
    ∃ s, ls.foldlM startupStep (startup [1]) = some s ∧ s.complete = false ∧
      s.finished = true ∧ s.waiting 0 = 0 ∧ ¬ Drained s := by
  refine ⟨_, rfl, by decide, by decide, by decide, fun h ↦ ?_⟩
  have hset := h.mpr ⟨by decide, fun q hq ↦ ?_⟩
  · revert hset
    decide
  · obtain rfl : q = 0 := Nat.lt_one_iff.mp hq
    decide

end Genjishimada.Bot
