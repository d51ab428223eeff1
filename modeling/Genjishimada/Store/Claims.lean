import Genjishimada.Library.ReadCommitted
import Genjishimada.Library.Run
import Mathlib.Logic.Function.Basic

/-!
# Claiming a quest

Three calls pay the reward of a quest.  `claim_quest` and the rotation's
`auto_claim_completed_quests` claim the row by a conditional `UPDATE`, which PostgreSQL
evaluates again on the version it finds once it has the row.  `admin_update_user_quest`
claims unconditionally and pays if the row was unclaimed when it read it, before its
transaction; so it pays a second time when somebody else has claimed the row since.
-/

namespace Genjishimada.Store

open Library

variable {τ : Type} [DecidableEq τ]

/-! ## The three payers -/

/-- The columns of a `user_quest_progress` row that claiming reads or writes;
`coinReward` is `quest_data->>'coin_reward'`. -/
structure QuestRow where
  completedAt : Option Int
  coinReward : Int
  claimedAt : Option Int := none
  coinsRewarded : Option Int := none
deriving DecidableEq, Repr

/-- `AdminUpdateUserQuestRequest` with `claimed` set: the fields that matter here. -/
structure AdminRequest where
  completed : Option Bool := none
  coinReward : Option Int := none
deriving DecidableEq, Repr

inductive Payer where
  | claimQuest
  | autoClaim
  | adminUpdate
deriving DecidableEq, Repr

/-- Where a call is. -/
inductive ClaimPhase where
  | idle
  | /-- `admin_update_user_quest` has read the row; its transaction has not begun. -/
    read (request : AdminRequest) (existing : QuestRow)
  | /-- The row is claimed and the reward is still to be added. -/
    claimed (payer : Payer) (reward : Int)
  | /-- All that is left is to commit; what the call pays, if it does. -/
    settled (payer : Payer) (paid : Option Int)
deriving DecidableEq, Repr

/-- The quest row, the user's coins, the calls, and the rewards added by those that have
committed.  An admin update whose reward is zero settles it without adding anything. -/
structure ClaimState (τ : Type) where
  row : Row τ QuestRow
  coins : Row τ Int
  phases : τ → ClaimPhase := fun _ ↦ .idle
  payments : List Int := []

inductive ClaimLabel (τ : Type) where
  | /-- The conditional `UPDATE` of `claim_quest` or of the auto-claim. -/
    claim (t : τ) (payer : Payer) (now : Int)
  | adminRead (t : τ) (request : AdminRequest)
  | adminWrite (t : τ) (now : Int)
  | /-- `UPDATE core.users SET coins = coins + reward` -/
    pay (t : τ)
  | commit (t : τ)
  | /-- The call raises. -/
    fail (t : τ)
  | /-- Some other transaction marks the quest complete. -/
    complete (now : Int)

/-- `SET claimed_at = now(), coins_rewarded = (quest_data->>'coin_reward')::int` -/
def QuestRow.claim (q : QuestRow) (now : Int) : QuestRow :=
  { q with claimedAt := some now, coinsRewarded := some q.coinReward }

/-- `completed_at IS NOT NULL AND claimed_at IS NULL` -/
def QuestRow.claimable (q : QuestRow) : Bool := q.completedAt.isSome && q.claimedAt.isNone

/-- The `SET` clauses of an admin update that claims. -/
def QuestRow.adminUpdate (q : QuestRow) (request : AdminRequest) (now : Int) : QuestRow :=
  { q.claim now with
    coinReward := request.coinReward.getD q.coinReward
    completedAt := match request.completed with
      | some true => some now
      | some false => none
      | none => q.completedAt }

/-- What is left of an admin update once it has written the row. -/
def adminOwes (request : AdminRequest) (existing : QuestRow) : ClaimPhase :=
  if existing.claimedAt.isSome then .settled .adminUpdate none
  else
    let reward := request.coinReward.getD existing.coinReward
    if reward = 0 then .settled .adminUpdate (some 0) else .claimed .adminUpdate reward

/-- One step of the calls. -/
def claimStep (s : ClaimState τ) : ClaimLabel τ → Option (ClaimState τ)
  | .claim t payer now =>
      if s.phases t = .idle ∧ payer ≠ .adminUpdate ∧ s.row.free t then
        let q := s.row.seen t
        if q.claimable then
          some { s with
            row := s.row.write t (q.claim now)
            phases := Function.update s.phases t (.claimed payer q.coinReward) }
        else some s
      else none
  | .adminRead t request =>
      if s.phases t = .idle then
        some { s with phases := Function.update s.phases t (.read request (s.row.seen t)) }
      else none
  | .adminWrite t now =>
      match s.phases t with
      | .read request existing =>
          if s.row.free t then
            some { s with
              row := s.row.write t ((s.row.seen t).adminUpdate request now)
              phases := Function.update s.phases t (adminOwes request existing) }
          else none
      | _ => none
  | .pay t =>
      match s.phases t with
      | .claimed payer reward =>
          if s.coins.free t then
            some { s with
              coins := s.coins.write t (s.coins.seen t + reward)
              phases := Function.update s.phases t (.settled payer (some reward)) }
          else none
      | _ => none
  | .commit t =>
      match s.phases t with
      | .settled _ paid =>
          some { row := s.row.commit t
                 coins := s.coins.commit t
                 phases := Function.update s.phases t .idle
                 payments := s.payments ++ paid.toList }
      | _ => none
  | .fail t =>
      some { s with
        row := s.row.rollback t
        coins := s.coins.rollback t
        phases := Function.update s.phases t .idle }
  | .complete now =>
      match s.row.pending with
      | none =>
          some { s with row := { committed := { s.row.committed with completedAt := some now } } }
      | some _ => none

/-! ## Paying once -/

/-- The reward has been added at most once. -/
def PaidOnce (s : ClaimState τ) : Prop := s.payments.length ≤ 1

instance (s : ClaimState τ) : Decidable (PaidOnce s) := inferInstanceAs (Decidable (_ ≤ _))

/-- An admin update that pays commits while the row is still unclaimed. -/
def StillUnclaimed (s : ClaimState τ) (l : ClaimLabel τ) : Prop :=
  ∀ t reward, l = .commit t → s.phases t = .settled .adminUpdate (some reward) →
    s.row.committed.claimedAt = none

/-- The call has written the row. -/
def ClaimPhase.writes : ClaimPhase → Bool
  | .claimed _ _ | .settled _ _ => true
  | _ => false

/-- The call pays or has paid by a conditional `UPDATE`. -/
def ClaimPhase.conditional : ClaimPhase → Bool
  | .claimed payer _ | .settled payer (some _) => payer ≠ .adminUpdate
  | _ => false

/-- What holds at every moment: the row is claimed when it has been paid; whoever has
written the row holds it and has claimed it; a conditional claim found it unclaimed; and
an admin update that does not pay found it claimed. -/
structure ClaimInv (s : ClaimState τ) : Prop where
  claimed_iff : s.row.committed.claimedAt.isSome ↔ s.payments ≠ []
  writes_iff : ∀ t, (s.phases t).writes = true ↔ s.row.Holds t
  pending : ∀ t q, s.row.pending = some (t, q) → q.claimedAt.isSome
  conditional : ∀ t, (s.phases t).conditional = true → s.row.committed.claimedAt = none
  admin_settled : ∀ t payer, s.phases t = .settled payer none → s.row.committed.claimedAt.isSome
  admin_read : ∀ t request existing, s.phases t = .read request existing →
    existing.claimedAt.isSome → s.row.committed.claimedAt.isSome

section Inv

variable {s s' : ClaimState τ} {t t' : τ} {l : ClaimLabel τ}

omit [DecidableEq τ] in
/-- Only a call that has written the row claims it conditionally. -/
theorem ClaimPhase.writes_of_conditional {phase : ClaimPhase} (h : phase.conditional = true) :
    phase.writes = true := by
  cases phase with
  | claimed payer reward => rfl
  | settled payer paid => rfl
  | idle => cases h
  | read request existing => cases h

omit [DecidableEq τ] in
theorem adminOwes_writes (request : AdminRequest) (existing : QuestRow) :
    (adminOwes request existing).writes = true ∧
      (adminOwes request existing).conditional = false := by
  simp only [adminOwes]
  split
  · exact ⟨rfl, rfl⟩
  · split
    · exact ⟨rfl, rfl⟩
    · exact ⟨rfl, rfl⟩

omit [DecidableEq τ] in
/-- A call that has not written the row sees what is committed. -/
theorem ClaimInv.not_holds (h : ClaimInv s) (ht : (s.phases t).writes = false) : ¬ s.row.Holds t := by
  rw [← h.writes_iff, ht]
  exact Bool.false_ne_true

/-- A call writes the row and goes on to `phase`. -/
theorem ClaimInv.write (h : ClaimInv s) (hfree : s.row.free t = true) {q : QuestRow}
    (hq : q.claimedAt.isSome) {phase : ClaimPhase} (hwrites : phase.writes = true)
    (hconditional : phase.conditional = true → s.row.committed.claimedAt = none)
    (hsettled : ∀ payer, phase = .settled payer none → s.row.committed.claimedAt.isSome) :
    ClaimInv { s with row := s.row.write t q, phases := Function.update s.phases t phase } := by
  constructor
  · exact h.claimed_iff
  · intro t'
    by_cases ht : t' = t
    · subst ht
      simp only [Function.update_self, hwrites, true_iff]
      exact ⟨q, rfl⟩
    · simp only [Function.update_of_ne ht, h.writes_iff]
      have hnot := Row.not_holds_of_free hfree ht
      have hnot' : ¬ (s.row.write t q).Holds t' := Row.not_holds_of_some rfl ht
      exact iff_of_false hnot hnot'
  · intro t' q' hq'
    obtain ⟨rfl, rfl⟩ : t = t' ∧ q = q' := by simpa using hq'
    exact hq
  · intro t' ht'
    by_cases ht : t' = t
    · subst ht
      exact hconditional (by simpa using ht')
    · simp only [Function.update_of_ne ht] at ht'
      exact h.conditional t' ht'
  · intro t' payer ht'
    by_cases ht : t' = t
    · subst ht
      exact hsettled payer (by simpa using ht')
    · simp only [Function.update_of_ne ht] at ht'
      exact h.admin_settled t' payer ht'
  · intro t' request existing ht'
    by_cases ht : t' = t
    · subst ht
      simp only [Function.update_self] at ht'
      rw [ht'] at hwrites
      cases hwrites
    · simp only [Function.update_of_ne ht] at ht'
      exact h.admin_read t' request existing ht'

/-- A call that has not written the row goes from phase to phase without writing it, or
one that has goes on. -/
theorem ClaimInv.advance (h : ClaimInv s) {coins : Row τ Int} {phase : ClaimPhase}
    (hwrites : phase.writes = (s.phases t).writes)
    (hconditional : phase.conditional = true → (s.phases t).conditional = true)
    (hsettled : ∀ payer, phase ≠ .settled payer none)
    (hread : ∀ request existing, phase = .read request existing →
      existing.claimedAt.isSome → s.row.committed.claimedAt.isSome) :
    ClaimInv { s with coins, phases := Function.update s.phases t phase } := by
  constructor
  · exact h.claimed_iff
  · intro t'
    by_cases ht : t' = t
    · subst ht
      simp only [Function.update_self, hwrites]
      exact h.writes_iff t'
    · simp only [Function.update_of_ne ht]
      exact h.writes_iff t'
  · exact h.pending
  · intro t' ht'
    by_cases ht : t' = t
    · subst ht
      exact h.conditional t' (hconditional (by simpa using ht'))
    · simp only [Function.update_of_ne ht] at ht'
      exact h.conditional t' ht'
  · intro t' payer ht'
    by_cases ht : t' = t
    · subst ht
      simp only [Function.update_self] at ht'
      exact absurd ht' (hsettled payer)
    · simp only [Function.update_of_ne ht] at ht'
      exact h.admin_settled t' payer ht'
  · intro t' request existing ht'
    by_cases ht : t' = t
    · subst ht
      simp only [Function.update_self] at ht'
      exact hread request existing ht'
    · simp only [Function.update_of_ne ht] at ht'
      exact h.admin_read t' request existing ht'

/-- A call ends, and the row is as it was or, if the call held it, released in a version
that is claimed if the row was. -/
theorem ClaimInv.of_end (h : ClaimInv s) {row : Row τ QuestRow} {coins : Row τ Int}
    {payments : List Int}
    (hclaimed : row.committed.claimedAt.isSome ↔ payments ≠ [])
    (hkeep : s.row.committed.claimedAt.isSome → row.committed.claimedAt.isSome)
    (hrow : (row.pending = none ∧ ∀ t', t' ≠ t → ¬ s.row.Holds t') ∨
      (row = s.row ∧ ¬ s.row.Holds t)) :
    ClaimInv { row, coins, phases := Function.update s.phases t .idle, payments } := by
  constructor
  · exact hclaimed
  · intro t'
    by_cases ht : t' = t
    · subst ht
      simp only [Function.update_self]
      refine iff_of_false Bool.false_ne_true ?_
      rcases hrow with ⟨hnone, _⟩ | ⟨rfl, hnot⟩
      · exact Row.not_holds_of_none hnone
      · exact hnot
    · simp only [Function.update_of_ne ht, h.writes_iff]
      rcases hrow with ⟨hnone, hother⟩ | ⟨rfl, _⟩
      · exact iff_of_false (hother t' ht) (Row.not_holds_of_none hnone)
      · exact Iff.rfl
  · intro t' q hq
    rcases hrow with ⟨hnone, _⟩ | ⟨rfl, _⟩
    · rw [hnone] at hq
      cases hq
    · exact h.pending t' q hq
  · intro t' ht'
    by_cases ht : t' = t
    · subst ht
      simp only [Function.update_self] at ht'
      cases ht'
    · simp only [Function.update_of_ne ht] at ht'
      rcases hrow with ⟨_, hother⟩ | ⟨rfl, _⟩
      · -- a conditional claimer holds the row, but another call did
        have hholds := (h.writes_iff t').mp (ClaimPhase.writes_of_conditional ht')
        exact absurd hholds (hother t' ht)
      · exact h.conditional t' ht'
  · intro t' payer ht'
    by_cases ht : t' = t
    · subst ht
      simp at ht'
    · simp only [Function.update_of_ne ht] at ht'
      exact hkeep (h.admin_settled t' payer ht')
  · intro t' request existing ht' hexisting
    by_cases ht : t' = t
    · subst ht
      simp at ht'
    · simp only [Function.update_of_ne ht] at ht'
      exact hkeep (h.admin_read t' request existing ht' hexisting)

/-- Every step keeps the invariant. -/
theorem ClaimInv.step (h : ClaimInv s) (hs : claimStep s l = some s') : ClaimInv s' := by
  cases l with
  | claim t payer now =>
      simp only [claimStep] at hs
      split at hs
      · rename_i hcond
        obtain ⟨hidle, hpayer, hfree⟩ := hcond
        split at hs
        · rename_i hclaimable
          obtain rfl := Option.some.inj hs
          have hnot : ¬ s.row.Holds t := h.not_holds (by rw [hidle]; rfl)
          rw [Row.seen_of_not_holds hnot, QuestRow.claimable, Bool.and_eq_true,
            Option.isNone_iff_eq_none] at hclaimable
          apply h.write hfree
          · rfl
          · rfl
          · intro _
            exact hclaimable.2
          · rintro payer' ⟨⟩
        · obtain rfl := Option.some.inj hs
          exact h
      · cases hs
  | adminRead t request =>
      simp only [claimStep] at hs
      split at hs
      · rename_i hidle
        obtain rfl := Option.some.inj hs
        have hnot : ¬ s.row.Holds t := h.not_holds (by rw [hidle]; rfl)
        apply h.advance
        · rw [hidle]
          rfl
        · rintro ⟨⟩
        · rintro payer ⟨⟩
        · rintro request' existing heq
          obtain ⟨rfl, rfl⟩ := ClaimPhase.read.inj heq
          rw [Row.seen_of_not_holds hnot]
          exact id
      · cases hs
  | adminWrite t now =>
      simp only [claimStep] at hs
      split at hs
      · rename_i request existing hread
        split at hs
        · rename_i hfree
          obtain rfl := Option.some.inj hs
          apply h.write hfree
          · rfl
          · exact (adminOwes_writes request existing).1
          · rw [(adminOwes_writes request existing).2]
            rintro ⟨⟩
          · intro payer hsettled
            simp only [adminOwes] at hsettled
            split at hsettled
            · rename_i hclaimed
              exact h.admin_read t request existing hread hclaimed
            · split at hsettled
              · cases hsettled
              · cases hsettled
        · cases hs
      · cases hs
  | pay t =>
      simp only [claimStep] at hs
      split at hs
      · rename_i payer reward hclaimed
        split at hs
        · obtain rfl := Option.some.inj hs
          apply h.advance
          · rw [hclaimed]
            rfl
          · rw [hclaimed]
            exact id
          · rintro payer' ⟨⟩
          · rintro request existing ⟨⟩
        · cases hs
      · cases hs
  | commit t =>
      simp only [claimStep] at hs
      split at hs
      · rename_i payer paid hsettled
        obtain rfl := Option.some.inj hs
        have hholds : s.row.Holds t := (h.writes_iff t).mp (by rw [hsettled]; rfl)
        rcases s.row.holds_or t with ⟨q, hq, hother⟩ | hnot
        · rw [Row.commit_of_some hq]
          have hclaimed : q.claimedAt.isSome := h.pending t q hq
          refine h.of_end ?_ (fun _ ↦ hclaimed) (.inl ⟨rfl, hother⟩)
          refine iff_of_true hclaimed ?_
          cases paid with
          | some reward => simp
          | none =>
              have := h.claimed_iff.mp (h.admin_settled t payer hsettled)
              simpa using this
        · exact absurd hholds hnot
      · cases hs
  | fail t =>
      obtain rfl := Option.some.inj hs
      apply h.of_end
      · rw [Row.committed_rollback]
        exact h.claimed_iff
      · rw [Row.committed_rollback]
        exact id
      · rcases s.row.holds_or t with ⟨q, hq, hother⟩ | hnot
        · rw [Row.rollback_of_some hq]
          exact .inl ⟨rfl, hother⟩
        · exact .inr ⟨Row.rollback_of_not_holds hnot, hnot⟩
  | complete now =>
      simp only [claimStep] at hs
      split at hs
      · rename_i hnone
        obtain rfl := Option.some.inj hs
        have hholds (t : τ) : (⟨{ s.row.committed with completedAt := some now }, none⟩ :
            Row τ QuestRow).Holds t ↔ s.row.Holds t :=
          iff_of_false (Row.not_holds_of_none rfl) (Row.not_holds_of_none hnone)
        refine ⟨h.claimed_iff, fun t ↦ ?_, ?_, h.conditional, h.admin_settled, h.admin_read⟩
        · rw [hholds]
          exact h.writes_iff t
        · rintro t q ⟨⟩
      · cases hs

/-- Only a commit adds a reward. -/
theorem payments_eq (hs : claimStep s l = some s') (hl : ∀ t, l ≠ .commit t) :
    s'.payments = s.payments := by
  cases l with
  | commit t => exact absurd rfl (hl t)
  | fail t =>
      obtain rfl := Option.some.inj hs
      rfl
  | claim t payer now =>
      simp only [claimStep] at hs
      split at hs
      · split at hs
        · obtain rfl := Option.some.inj hs
          rfl
        · obtain rfl := Option.some.inj hs
          rfl
      · cases hs
  | adminRead t request =>
      simp only [claimStep] at hs
      split at hs
      · obtain rfl := Option.some.inj hs
        rfl
      · cases hs
  | adminWrite t now =>
      simp only [claimStep] at hs
      split at hs
      · split at hs
        · obtain rfl := Option.some.inj hs
          rfl
        · cases hs
      · cases hs
  | pay t =>
      simp only [claimStep] at hs
      split at hs
      · split at hs
        · obtain rfl := Option.some.inj hs
          rfl
        · cases hs
      · cases hs
  | complete now =>
      simp only [claimStep] at hs
      split at hs
      · obtain rfl := Option.some.inj hs
        rfl
      · cases hs

/-- A step pays a second time exactly when an admin update pays for a row that has been
claimed since it read it. -/
theorem ClaimInv.paidOnce_iff (h : ClaimInv s) (hpaid : PaidOnce s)
    (hs : claimStep s l = some s') : PaidOnce s' ↔ StillUnclaimed s l := by
  by_cases hl : ∀ t, l ≠ .commit t
  · refine iff_of_true ?_ ?_
    · rw [PaidOnce, payments_eq hs hl]
      exact hpaid
    · intro t reward hcommit
      exact absurd hcommit (hl t)
  · obtain ⟨t, rfl⟩ : ∃ t, l = .commit t := by simpa using hl
    simp only [claimStep] at hs
    split at hs
    · rename_i payer paid hsettled
      obtain rfl := Option.some.inj hs
      cases paid with
      | none =>
          refine iff_of_true ?_ ?_
          · simpa [PaidOnce] using hpaid
          · rintro t' reward ⟨⟩ ht
            rw [hsettled] at ht
            cases ht
      | some reward =>
          have honce : PaidOnce (τ := τ) ⟨s.row.commit t, s.coins.commit t,
              Function.update s.phases t .idle, s.payments ++ [reward]⟩ ↔
              s.row.committed.claimedAt = none := by
            rw [← Option.not_isSome_iff_eq_none, h.claimed_iff, not_not]
            simp [PaidOnce]
          rw [Option.toList_some, honce]
          constructor
          · intro hnone t' reward' _ _
            exact hnone
          · intro hguard
            -- a conditional claim found the row unclaimed and holds it
            cases payer with
            | adminUpdate => exact hguard t reward rfl hsettled
            | claimQuest => exact h.conditional t (by rw [hsettled]; rfl)
            | autoClaim => exact h.conditional t (by rw [hsettled]; rfl)
    · cases hs

end Inv

/-- An unclaimed quest, and a user with some coins. -/
def unclaimedQuest (completedAt : Option Int) (coinReward coins : Int) : ClaimState τ where
  row := { committed := { completedAt, coinReward } }
  coins := { committed := coins }

/-- In every run of the three payers the quest is paid at most once exactly when every
admin update that pays commits while the row is still unclaimed. -/
theorem quest_paidOnce_iff (completedAt : Option Int) (coinReward coins : Int)
    {ls : List (ClaimLabel τ)} {s : ClaimState τ} :
    Run (fun s l s' ↦ claimStep s l = some s' ∧ PaidOnce s')
        (unclaimedQuest completedAt coinReward coins) ls s ↔
      Run (Guarded StillUnclaimed (ofStep claimStep))
        (unclaimedQuest completedAt coinReward coins) ls s := by
  apply Run.congr fun s ↦ ClaimInv s ∧ PaidOnce s
  · rintro s l s' ⟨h, hpaid⟩
    constructor
    · rintro ⟨hs, hpaid'⟩
      exact ⟨(h.paidOnce_iff hpaid hs).mp hpaid', hs⟩
    · rintro ⟨hguard, hs⟩
      exact ⟨hs, (h.paidOnce_iff hpaid hs).mpr hguard⟩
  · rintro s l s' ⟨h, _⟩ ⟨hs, hpaid'⟩
    exact ⟨h.step hs, hpaid'⟩
  · constructor
    · constructor <;> simp [unclaimedQuest, Row.Holds, ClaimPhase.writes, ClaimPhase.conditional]
    · simp [PaidOnce, unclaimedQuest]

/-- An admin update reads an unclaimed quest worth 500 coins, the user claims it, and the
admin update goes on: the user gets the coins twice. -/
theorem staleAdminUpdate_paysTwice :
    let ls : List (ClaimLabel Bool) := [.adminRead true {}, .claim false .claimQuest 1, .pay false,
      .commit false, .adminWrite true 2, .pay true, .commit true]
    ∃ s, ls.foldlM claimStep (unclaimedQuest (some 0) 500 0) = some s ∧
      s.payments = [500, 500] ∧ s.coins.committed = 1000 ∧ ¬ PaidOnce s := by
  refine ⟨_, rfl, ?_, ?_, ?_⟩
  · decide
  · decide
  · decide

end Genjishimada.Store
