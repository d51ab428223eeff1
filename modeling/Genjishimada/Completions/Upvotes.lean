import Genjishimada.Library.Run
import Genjishimada.Sdk.Completions
import Mathlib.Data.List.Nodup
import Mathlib.Data.List.Range
import Mathlib.Logic.Function.Basic

/-!
# Concurrent upvotes

`insert_upvote` is one statement outside of a transaction.  The count in its `RETURNING` is taken
in the statement's own snapshot, which shows neither the row it inserts nor what others commit
after it has started.  The counts are the numbers from one on exactly when no upvote is committed
while another statement runs.
-/

namespace Genjishimada.Completions

open Library Sdk

/-! ## The request -/

inductive UpvoteError where
  | duplicateUpvote (userId messageId : Nat)
  | completionNotFound (messageId : Nat)
deriving DecidableEq, Repr

/-- `insert_upvote`: `snapshot` are the upvotes of the message that the statement sees, `upvotes`
those that the `UNIQUE (message_id, user_id)` is checked against. -/
def insertUpvote (snapshot upvotes : List Nat) (userId : Nat) : Option Nat × List Nat :=
  if userId ∈ upvotes then (none, upvotes) else (some (snapshot.length + 1), upvotes ++ [userId])

/-- `upvote_channel_amount_breakpoint` -/
def upvoteChannelAmountBreakpoint : Nat := 10

/-- The answer to a request, and the event that is published before it. -/
structure UpvoteReply where
  userId : Nat
  upvotes : Nat
  event : Option UpvoteUpdateEvent
deriving DecidableEq, Repr

def upvoteReply (data : UpvoteCreateRequest) (count : Nat) : UpvoteReply where
  userId := data.userId
  upvotes := count
  event :=
    if count ≠ 0 ∧ count % upvoteChannelAmountBreakpoint = 0 then
      some { userId := data.userId, messageId := data.messageId }
    else none

/-- `upvote_submission`, once the statement has returned `count`. -/
def upvoteSubmission (data : UpvoteCreateRequest) : Option Nat → Except UpvoteError UpvoteReply
  | none => .error (.duplicateUpvote data.userId data.messageId)
  | some count => .ok (upvoteReply data count)

/-! ## The statements -/

/-- Where the request of a user is. -/
inductive UpvotePhase where
  | idle
  | /-- The statement has taken its snapshot. -/
    running (snapshot : List Nat)
  | ended (result : Except UpvoteError UpvoteReply)

/-- The committed upvotes of a message, one request of each user, and the answers in the order in
which they were given. -/
structure UpvoteState where
  upvotes : List Nat := []
  phase : Nat → UpvotePhase := fun _ ↦ .idle
  replies : List UpvoteReply := []

inductive UpvoteLabel where
  | /-- The user's statement starts. -/
    start (userId : Nat)
  | /-- It returns, which commits it. -/
    finish (userId : Nat)
  | /-- The foreign key fails, and nothing is inserted. -/
    fail (userId : Nat)
deriving DecidableEq, Repr

/-- One step of the requests for a message. -/
def upvoteStep (messageId : Nat) (s : UpvoteState) : UpvoteLabel → Option UpvoteState
  | .start u =>
      match s.phase u with
      | .idle => some { s with phase := Function.update s.phase u (.running s.upvotes) }
      | _ => none
  | .finish u =>
      match s.phase u with
      | .running snapshot =>
          let (count, upvotes) := insertUpvote snapshot s.upvotes u
          let result := upvoteSubmission { userId := u, messageId } count
          some {
            upvotes
            phase := Function.update s.phase u (.ended result)
            replies := s.replies ++ result.toOption.toList }
      | _ => none
  | .fail u =>
      match s.phase u with
      | .running _ =>
          some { s with
            phase := Function.update s.phase u (.ended (.error (.completionNotFound messageId))) }
      | _ => none

/-! ## Counts -/

/-- The answer announces a milestone. -/
def UpvoteReply.Announces (r : UpvoteReply) (count : Nat) : Prop :=
  r.upvotes = count ∧ r.event ≠ none

instance (r : UpvoteReply) (count : Nat) : Decidable (r.Announces count) :=
  inferInstanceAs (Decidable (_ ∧ _))

/-- The counts are the numbers from one on, each once, and each milestone among them is announced
by one event. -/
structure Numbered (replies : List UpvoteReply) : Prop where
  counts : (replies.map UpvoteReply.upvotes).Perm (List.range' 1 replies.length)
  milestones : ∀ count, 1 ≤ count → count ≤ replies.length → count % 10 = 0 →
    (replies.filter fun r ↦ r.Announces count).length = 1

/-- Nobody's upvote was committed between the start of the statement and its end. -/
def Undisturbed (s : UpvoteState) (l : UpvoteLabel) : Prop :=
  ∀ u snapshot, l = .finish u → s.phase u = .running snapshot → s.upvotes = snapshot

/-! ## The invariant -/

/-- The answers so far are numbered in order, and each upvote is one of them. -/
structure UpvoteInv (s : UpvoteState) : Prop where
  counts : s.replies.map UpvoteReply.upvotes = List.range' 1 s.replies.length
  upvotes : s.replies.map UpvoteReply.userId = s.upvotes
  announces : ∀ r ∈ s.replies, r.event ≠ none ↔ r.upvotes ≠ 0 ∧ r.upvotes % 10 = 0
  ended : ∀ u ∈ s.upvotes, ∃ result, s.phase u = .ended result
  running : ∀ u snapshot, s.phase u = .running snapshot → snapshot <+: s.upvotes

namespace UpvoteInv

variable {messageId u : Nat} {s s' : UpvoteState} {snapshot : List Nat}

theorem length_upvotes (h : UpvoteInv s) : s.upvotes.length = s.replies.length := by
  rw [← h.upvotes, List.length_map]

/-- A user whose request has not ended has no upvote yet. -/
theorem notMem (h : UpvoteInv s) (hu : ∀ result, s.phase u ≠ .ended result) : u ∉ s.upvotes := by
  intro hmem
  obtain ⟨result, hended⟩ := h.ended u hmem
  exact hu result hended

/-- The phases after a user's request has gone on to `p`. -/
theorem phases (h : UpvoteInv s) {l : List Nat} {p : UpvotePhase}
    (hmem : ∀ v ∈ l, v ≠ u → v ∈ s.upvotes) (hgrows : s.upvotes <+: l)
    (hself : u ∈ l → ∃ result, p = .ended result)
    (hrunning : ∀ snapshot, p = .running snapshot → snapshot <+: l) :
    (∀ v ∈ l, ∃ result, Function.update s.phase u p v = .ended result) ∧
      ∀ v snapshot, Function.update s.phase u p v = .running snapshot → snapshot <+: l := by
  constructor
  · intro v hv
    by_cases hvu : v = u
    · subst hvu
      rw [Function.update_self]
      exact hself hv
    · rw [Function.update_of_ne hvu]
      exact h.ended v (hmem v hv hvu)
  · intro v snapshot hv
    by_cases hvu : v = u
    · subst hvu
      rw [Function.update_self] at hv
      exact hrunning snapshot hv
    · rw [Function.update_of_ne hvu] at hv
      exact (h.running v snapshot hv).trans hgrows

/-- What a statement does when it returns: its own upvote is not there yet. -/
theorem finish_eq (h : UpvoteInv s) (hs : upvoteStep messageId s (.finish u) = some s') :
    ∃ snapshot, s.phase u = .running snapshot ∧
      s' = {
        upvotes := s.upvotes ++ [u]
        phase := Function.update s.phase u
          (.ended (.ok (upvoteReply { userId := u, messageId } (snapshot.length + 1))))
        replies := s.replies ++
          [upvoteReply { userId := u, messageId } (snapshot.length + 1)] } := by
  cases hu : s.phase u with
  | idle => simp [upvoteStep, hu] at hs
  | ended result => simp [upvoteStep, hu] at hs
  | running snapshot =>
      have hnot : u ∉ s.upvotes := h.notMem (by simp [hu])
      simp only [upvoteStep, hu, insertUpvote, if_neg hnot] at hs
      exact ⟨snapshot, rfl, (Option.some.inj hs).symm⟩

theorem start_step (h : UpvoteInv s) (hs : upvoteStep messageId s (.start u) = some s') :
    UpvoteInv s' ∧ s'.replies = s.replies := by
  cases hu : s.phase u with
  | running snapshot => simp [upvoteStep, hu] at hs
  | ended result => simp [upvoteStep, hu] at hs
  | idle =>
      simp only [upvoteStep, hu] at hs
      obtain rfl := Option.some.inj hs
      have hnot : u ∉ s.upvotes := h.notMem (by simp [hu])
      obtain ⟨hended, hrunning⟩ := h.phases (p := .running s.upvotes) (fun v hv _ ↦ hv)
        List.prefix_rfl (fun hmem ↦ absurd hmem hnot) (by
          rintro _ ⟨⟩
          exact List.prefix_rfl)
      exact ⟨⟨h.counts, h.upvotes, h.announces, hended, hrunning⟩, rfl⟩

theorem fail_step (h : UpvoteInv s) (hs : upvoteStep messageId s (.fail u) = some s') :
    UpvoteInv s' ∧ s'.replies = s.replies := by
  cases hu : s.phase u with
  | idle => simp [upvoteStep, hu] at hs
  | ended result => simp [upvoteStep, hu] at hs
  | running snapshot =>
      simp only [upvoteStep, hu] at hs
      obtain rfl := Option.some.inj hs
      obtain ⟨hended, hrunning⟩ := h.phases (u := u)
        (p := .ended (.error (.completionNotFound messageId))) (fun v hv _ ↦ hv)
        List.prefix_rfl (fun _ ↦ ⟨_, rfl⟩) (by
          intro snapshot hp
          cases hp)
      exact ⟨⟨h.counts, h.upvotes, h.announces, hended, hrunning⟩, rfl⟩

/-- An undisturbed statement returns the next number. -/
theorem finish_step (h : UpvoteInv s) (hs : upvoteStep messageId s (.finish u) = some s')
    (hlone : Undisturbed s (.finish u)) : UpvoteInv s' := by
  obtain ⟨snapshot, hu, rfl⟩ := h.finish_eq hs
  obtain rfl := hlone u snapshot rfl hu
  obtain ⟨hended, hrunning⟩ := h.phases (u := u) (l := s.upvotes ++ [u])
    (p := .ended (.ok (upvoteReply { userId := u, messageId } (s.upvotes.length + 1))))
    (by
      intro v hv hvu
      rcases List.mem_append.mp hv with hv | hv
      · exact hv
      · exact absurd (List.mem_singleton.mp hv) hvu)
    (List.prefix_append ..) (fun _ ↦ ⟨_, rfl⟩) (by
      intro snapshot hp
      cases hp)
  refine ⟨?_, ?_, fun r hr ↦ ?_, hended, hrunning⟩
  · rw [List.map_append, h.counts, List.length_append, List.length_singleton, List.range'_concat,
      ← h.length_upvotes, Nat.one_mul, Nat.add_comm 1]
    rfl
  · rw [List.map_append, h.upvotes]
    rfl
  · rcases List.mem_append.mp hr with hr | hr
    · exact h.announces r hr
    · obtain rfl := List.mem_singleton.mp hr
      rw [upvoteReply, ite_ne_right_iff]
      exact and_iff_left (by simp)

/-- Answers numbered in order. -/
theorem numbered (h : UpvoteInv s) : Numbered s.replies := by
  refine ⟨List.Perm.of_eq h.counts, fun count hpos hle hmilestone ↦ ?_⟩
  have hfilter : (s.replies.filter fun r ↦ r.Announces count) =
      s.replies.filter fun r ↦ r.upvotes = count := by
    apply List.filter_congr
    intro r hr
    rw [decide_eq_decide, UpvoteReply.Announces, and_iff_left_iff_imp]
    rintro rfl
    exact (h.announces r hr).mpr ⟨by omega, hmilestone⟩
  have hcount : (s.replies.map UpvoteReply.upvotes).count count = 1 := by
    rw [h.counts]
    exact List.count_eq_one_of_mem List.nodup_range' (List.mem_range'_1.mpr ⟨hpos, by omega⟩)
  rw [hfilter, ← hcount, List.count, List.countP_map, List.countP_eq_length_filter]
  refine congrArg List.length (List.filter_congr fun r _ ↦ ?_)
  exact (beq_eq_decide ..).symm

/-- A number is drawn twice unless the statement was undisturbed. -/
theorem undisturbed_of_numbered (h : UpvoteInv s) {l : UpvoteLabel}
    (hs : upvoteStep messageId s l = some s') (hnumbered : Numbered s'.replies) :
    Undisturbed s l := by
  rintro u snapshot rfl hu
  obtain ⟨snapshot', hu', rfl⟩ := h.finish_eq hs
  obtain rfl : snapshot = snapshot' := by
    rw [hu] at hu'
    cases hu'
    rfl
  have hgrows := h.running u snapshot hu
  have hnodup := (hnumbered.counts.nodup_iff.mpr List.nodup_range')
  rw [List.map_append, h.counts, List.nodup_append] at hnodup
  have hnot := hnodup.2.2 (snapshot.length + 1)
  by_contra hne
  have hlt : snapshot.length < s.upvotes.length :=
    lt_of_le_of_ne hgrows.length_le fun heq ↦ hne (hgrows.eq_of_length heq).symm
  rw [h.length_upvotes] at hlt
  exact hnot (List.mem_range'_1.mpr ⟨by omega, by omega⟩) _ List.mem_cons_self rfl

theorem step (h : UpvoteInv s) {l : UpvoteLabel} (hs : upvoteStep messageId s l = some s')
    (hlone : Undisturbed s l) : UpvoteInv s' := by
  cases l with
  | start u => exact (h.start_step hs).1
  | finish u => exact h.finish_step hs hlone
  | fail u => exact (h.fail_step hs).1

end UpvoteInv

/-- **At every moment of a run the counts returned are the numbers from one on, each once, exactly
when every statement of the run was undisturbed.** -/
theorem upvotes_numbered_iff (messageId : Nat) (ls : List UpvoteLabel) (s : UpvoteState) :
    Run (fun s l s' ↦ upvoteStep messageId s l = some s' ∧ Numbered s'.replies) {} ls s ↔
      Run (Guarded Undisturbed (ofStep (upvoteStep messageId))) {} ls s := by
  apply Run.congr UpvoteInv
  · intro s l s' h
    constructor
    · rintro ⟨hs, hnumbered⟩
      exact ⟨h.undisturbed_of_numbered hs hnumbered, hs⟩
    · rintro ⟨hlone, hs⟩
      exact ⟨hs, (h.step hs hlone).numbered⟩
  · rintro s l s' h ⟨hs, hnumbered⟩
    exact h.step hs (h.undisturbed_of_numbered hs hnumbered)
  · constructor <;> simp

/-- Two statements that start together both count one upvote. -/
theorem togetherUpvotes_not_numbered :
    ∃ s, [UpvoteLabel.start 1, .start 2, .finish 1, .finish 2].foldlM (upvoteStep 9) {} = some s ∧
      ¬ Numbered s.replies := by
  refine ⟨_, rfl, fun h ↦ ?_⟩
  have hcounts := h.counts
  revert hcounts
  decide

end Genjishimada.Completions
