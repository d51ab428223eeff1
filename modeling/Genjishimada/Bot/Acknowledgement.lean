import Genjishimada.Bot.Consumer

/-!
# When a message is acknowledged

The claim of a message id is stored before the handler runs and deleted by the `except`
of the wrapper only.  A bot that dies in between leaves the claim behind, and the next
delivery of the message finds it, returns, and is acknowledged: the message is gone and no
handler has run to completion.  The same happens behind a claim that could not be deleted,
and when the second of two overlapping deliveries is turned away while the first still runs.

A delivery that has run its own handler is always acknowledged after it; so everything
hangs on the deliveries that were turned away, and on what left the claim that turned them
away (`acked_after_handled_iff`).
-/

namespace Genjishimada.Bot

open Library

variable {β : Type} {consumers : String → QueueConsumer β} {s s' : ConsumerState β}
  {key : String}

/-! ## The property and its condition -/

/-- The handler has run to completion for some delivery of the message id. -/
def Handled (key : String) (s : ConsumerState β) : Prop :=
  ∃ δ ∈ s.deliveries, s.key δ = some key ∧ δ.handled = true

/-- The message id is acknowledged only after its handler has run to completion. -/
def AckedAfterHandled (key : String) (s : ConsumerState β) : Prop :=
  ∀ δ ∈ s.deliveries, ∀ o, δ.phase = .acked o → s.key δ = some key → Handled key s

/-- A delivery of the message id whose wrapper returned without running the handler is not
settled while the handler has run to completion for none. -/
def NotTooSoon (key : String) (s : ConsumerState β) (l : ConsumerLabel β) : Prop :=
  ∀ d δ o, l = .act d .settle → s.deliveries[d]? = some δ → s.key δ = some key →
    δ.phase = .returned o → o ≠ .handled → Handled key s

/-! ## The step -/

/-- No step takes back that a handler has run. -/
theorem Handled.step {l : ConsumerLabel β} (hinv : ConsumerInv s) (h : Handled key s)
    (hs : consumerStep consumers s l = some s') : Handled key s' :=
  hinv.exists_step (fun _ _ hnext ↦ hnext.handled) h hs

/-- **A step keeps the property exactly when it settles no turned-away delivery too soon.** -/
theorem ackedAfterHandled_step_iff {l : ConsumerLabel β} (hinv : ConsumerInv s)
    (h : AckedAfterHandled key s) (hs : consumerStep consumers s l = some s') :
    AckedAfterHandled key s' ↔ NotTooSoon key s l := by
  have hkeep : Handled key s → Handled key s' := fun hh ↦ hh.step hinv hs
  cases l with
  | publish m =>
      refine iff_of_true ?_ (fun _ _ _ hl ↦ by cases hl)
      cases hs
      intro δ hδ o hacked hkey
      rw [key_publish (hinv.published δ hδ)] at hkey
      exact hkeep (h δ hδ o hacked hkey)
  | deliver event =>
      refine iff_of_true ?_ (fun _ _ _ hl ↦ by cases hl)
      intro δ hδ o hacked hkey
      simp only [consumerStep] at hs
      split at hs
      · cases hs
        rcases List.mem_append.mp hδ with hδ | hδ
        · exact hkeep (h δ hδ o hacked hkey)
        · rw [List.mem_singleton.mp hδ] at hacked
          cases hacked
      · cases hs
  | act d l =>
      obtain ⟨δ, p, δ', claims, hd, hp, hstep, rfl⟩ := consumerStep_act hs
      have hδ : δ ∈ s.deliveries := List.mem_of_getElem? hd
      have hevent := (deliveryStep_next hstep).event
      constructor
      · intro h' d₀ δ₀ o hl hd₀ hkey hphase _
        cases hl
        obtain rfl : δ₀ = δ := Option.some.inj (hd₀.symm.trans hd)
        have hacked : δ'.phase = .acked o := (deliveryStep_acked hstep).mpr ⟨rfl, hphase⟩
        have hkey' : s.key δ' = some key := by
          simp only [ConsumerState.key, hevent]
          exact hkey
        -- settling has run no handler, so one had run before
        obtain ⟨x, hx, hxkey, hxhandled⟩ := h' δ' (mem_set_self hd) o hacked hkey'
        rcases List.mem_or_eq_of_mem_set hx with hx | rfl
        · exact ⟨x, hx, hxkey, hxhandled⟩
        · exact ⟨δ₀, hδ, hkey, by rwa [deliveryStep_settle_handled hstep] at hxhandled⟩
      · intro hsoon x hx o hacked hkey
        rcases List.mem_or_eq_of_mem_set hx with hx | rfl
        · exact hkeep (h x hx o hacked hkey)
        · obtain ⟨rfl, hphase⟩ := (deliveryStep_acked hstep).mp hacked
          have hkey' : s.key δ = some key := by
            rw [← hkey]
            simp only [ConsumerState.key, hevent]
          by_cases ho : o = .handled
          · subst ho
            exact hkeep ⟨δ, hδ, hkey', hinv.honest δ hδ (.inl hphase)⟩
          · exact hkeep (hsoon d δ o rfl hd hkey' hphase ho)

/-- The runs that keep the property are those that settle no turned-away delivery too soon. -/
theorem run_ackedAfterHandled_iff (consumers : String → QueueConsumer β) (key : String)
    (ls : List (ConsumerLabel β)) (s : ConsumerState β) :
    Run (fun s l s' ↦ consumerStep consumers s l = some s' ∧ AckedAfterHandled key s') {} ls s ↔
      Run (Guarded (NotTooSoon key) (ofStep (consumerStep consumers))) {} ls s := by
  apply Run.congr fun s ↦ ConsumerInv s ∧ AckedAfterHandled key s
  · rintro s l s' ⟨hinv, h⟩
    constructor
    · rintro ⟨hs, h'⟩
      exact ⟨(ackedAfterHandled_step_iff hinv h hs).mp h', hs⟩
    · rintro ⟨hsoon, hs⟩
      exact ⟨hs, (ackedAfterHandled_step_iff hinv h hs).mpr hsoon⟩
  · rintro s l s' ⟨hinv, _⟩ ⟨hs, h'⟩
    exact ⟨hinv.step hs, h'⟩
  · refine ⟨⟨?_, ?_⟩, ?_⟩ <;> intro δ hδ <;> cases hδ

/-! ## What keeps the claim honest -/

/-- The delivery holds the claim of the message id: its handler runs, or has raised and the
claim is not deleted yet. -/
def Delivery.Holds (key : String) (δ : Delivery) : Prop :=
  δ.phase = .running (some key) ∨ δ.phase = .cleaning key

section Holds

variable {consumer : QueueConsumer β} {message : Message β} {claims claims' : List String}
  {δ δ' : Delivery} {l : DeliveryLabel} {o : Outcome}

/-- A delivery holds a claim that it held before, or that it has just taken under its id. -/
theorem deliveryStep_holds (h : deliveryStep consumer message claims δ l = some (δ', claims'))
    (hδ' : δ'.Holds key) : δ.Holds key ∨ message.key = some key := by
  cases deliveryStep_move h with
  | @claim k _ hclaims _ =>
      have hkk : k = key := by simpa [Delivery.Holds] using hδ'
      exact .inr (hkk ▸ key_of_claims hclaims)
  | @clean k hphase =>
      have hkk : k = key := by simpa [Delivery.Holds] using hδ'
      exact .inl (.inl (hkk ▸ hphase))
  | _ => simp [Delivery.Holds] at hδ'

/-- What becomes of a delivery that holds the claim. -/
theorem deliveryStep_of_holds (h : deliveryStep consumer message claims δ l = some (δ', claims'))
    (hδ : δ.Holds key) :
    δ'.Holds key ∨ δ'.handled = true ∨ l = .lose ∨ l = .release false ∨ key ∉ claims' := by
  cases deliveryStep_move h with
  | finish => exact .inr (.inl rfl)
  | lose => exact .inr (.inr (.inl rfl))
  | @clean k hphase =>
      have hkk : k = key := by simpa [Delivery.Holds, hphase] using hδ
      exact .inl (.inr (by rw [hkk]))
  | @release k deleted hphase =>
      have hkk : k = key := by simpa [Delivery.Holds, hphase] using hδ
      cases deleted with
      | true => exact .inr (.inr (.inr (.inr (by simp [hkk]))))
      | false => exact .inr (.inr (.inr (.inl rfl)))
  | pass hphase | decode hphase | call hphase | turnAway hphase | claim hphase | cut hphase
  | cutOff hphase | raise hphase | ack hphase | reject hphase => simp [Delivery.Holds, hphase] at hδ

/-- Where a stored claim comes from. -/
theorem deliveryStep_newClaim (h : deliveryStep consumer message claims δ l = some (δ', claims'))
    (hkey : key ∈ claims') :
    key ∈ claims ∨ δ'.Holds key ∨ l = .cutOff true ∧ message.key = some key := by
  cases deliveryStep_move h with
  | claim =>
      rcases List.mem_cons.mp hkey with rfl | hkey
      · exact .inr (.inl (.inl rfl))
      · exact .inl hkey
  | cut _ hclaims =>
      rcases List.mem_cons.mp hkey with rfl | hkey
      · exact .inr (.inr ⟨rfl, key_of_claims hclaims⟩)
      · exact .inl hkey
  | release deleted => exact .inl (mem_of_mem_release hkey)
  | _ => exact .inl hkey

/-- A wrapper returns without running its handler when it is entered, with a test message or with
a claim that is stored already. -/
theorem deliveryStep_returned (h : deliveryStep consumer message claims δ l = some (δ', claims'))
    (hδ' : δ'.phase = .returned o) (ho : o ≠ .handled) :
    l = .enter ∧ (message.headers.holds consumer.pytestHeader = true ∨
      ∃ key ∈ claims, message.key = some key) := by
  cases deliveryStep_move h with
  | pass _ hpytest => exact ⟨rfl, .inl hpytest⟩
  | turnAway _ hclaims hmem => exact ⟨rfl, .inr ⟨_, hmem, key_of_claims hclaims⟩⟩
  | finish => exact absurd (Phase.returned.inj hδ').symm ho
  | _ => cases hδ'

end Holds

/-- Nothing goes wrong with the claim of the message id: no claim request is cut off after the
API has stored the claim, no deletion fails, no bot dies holding the claim, no delivery
enters while another one holds it, and none is a test message. -/
structure Careful (consumers : String → QueueConsumer β) (key : String) (s : ConsumerState β)
    (l : ConsumerLabel β) : Prop where
  cutOff : ∀ d δ, s.deliveries[d]? = some δ → s.key δ = some key → l ≠ .act d (.cutOff true)
  release : ∀ d δ, s.deliveries[d]? = some δ → δ.Holds key → l ≠ .act d (.release false)
  lose : ∀ d δ, s.deliveries[d]? = some δ → δ.Holds key → l ≠ .act d .lose
  alone : ∀ d δ, s.deliveries[d]? = some δ → s.key δ = some key → l = .act d .enter →
    ∀ x ∈ s.deliveries, ¬ x.Holds key
  pytest : ∀ p ∈ s.published, p.message.key = some key →
    p.message.headers.holds (consumers p.routingKey).pytestHeader = false

/-- What careful steps keep: a stored claim is held, or has served its handler. -/
structure ClaimInv (key : String) (s : ConsumerState β) : Prop where
  consumer : ConsumerInv s
  own : ∀ x ∈ s.deliveries, ∀ k, x.Holds k → s.key x = some k
  claimed : key ∈ s.claims → Handled key s ∨ ∃ x ∈ s.deliveries, x.Holds key
  turnedAway : ∀ x ∈ s.deliveries, ∀ o, x.phase = .returned o → o ≠ .handled →
    s.key x = some key → Handled key s

theorem ClaimInv.step {l : ConsumerLabel β} (h : ClaimInv key s)
    (hcareful : Careful consumers key s l) (hs : consumerStep consumers s l = some s') :
    ClaimInv key s' := by
  have hkeep : Handled key s → Handled key s' := fun hh ↦ hh.step h.consumer hs
  have hinv := h.consumer.step hs
  cases l with
  | publish m =>
      cases hs
      refine ⟨hinv, fun x hx k hk ↦ ?_, fun hkey ↦ ?_, fun x hx o ho hne hkey ↦ ?_⟩
      · rw [key_publish (h.consumer.published x hx)]
        exact h.own x hx k hk
      · exact (h.claimed hkey).imp_left hkeep
      · rw [key_publish (h.consumer.published x hx)] at hkey
        exact hkeep (h.turnedAway x hx o ho hne hkey)
  | deliver event =>
      simp only [consumerStep] at hs
      split at hs
      · cases hs
        refine ⟨hinv, fun x hx k hk ↦ ?_, fun hkey ↦ ?_, fun x hx o ho hne hkey ↦ ?_⟩
        · rcases List.mem_append.mp hx with hx | hx
          · exact h.own x hx k hk
          · rw [List.mem_singleton.mp hx] at hk
            simp [Delivery.Holds] at hk
        · refine (h.claimed hkey).imp hkeep ?_
          rintro ⟨x, hx, hholds⟩
          exact ⟨x, List.mem_append_left _ hx, hholds⟩
        · rcases List.mem_append.mp hx with hx | hx
          · exact hkeep (h.turnedAway x hx o ho hne hkey)
          · rw [List.mem_singleton.mp hx] at ho
            cases ho
      · cases hs
  | act d l =>
      obtain ⟨δ, p, δ', claims, hd, hp, hstep, rfl⟩ := consumerStep_act hs
      have hδ : δ ∈ s.deliveries := List.mem_of_getElem? hd
      have hkeyδ : s.key δ = p.message.key := by
        simp only [ConsumerState.key, hp, Option.bind_some]
      have hkeyδ' : s.key δ' = s.key δ := by
        simp only [ConsumerState.key, (deliveryStep_next hstep).event]
      refine ⟨hinv, fun x hx k hk ↦ ?_, fun hkey ↦ ?_, fun x hx o ho hne hkey ↦ ?_⟩
      · rcases List.mem_or_eq_of_mem_set hx with hx | rfl
        · exact h.own x hx k hk
        · refine hkeyδ'.trans ?_
          rcases deliveryStep_holds hstep hk with hk | hk
          · exact h.own δ hδ k hk
          · exact hkeyδ.trans hk
      · rcases deliveryStep_newClaim hstep hkey with hold | hnew | ⟨rfl, hmessage⟩
        · rcases h.claimed hold with hh | ⟨x, hx, hholds⟩
          · exact .inl (hkeep hh)
          · rcases mem_set_of_mem δ' hd hx with rfl | hx
            · -- the holder itself moves on
              rcases deliveryStep_of_holds hstep hholds with hholds' | hhandled | rfl | rfl | hgone
              · exact .inr ⟨δ', mem_set_self hd, hholds'⟩
              · exact .inl ⟨δ', mem_set_self hd, hkeyδ'.trans (h.own x hδ key hholds), hhandled⟩
              · exact absurd rfl (hcareful.lose d x hd hholds)
              · exact absurd rfl (hcareful.release d x hd hholds)
              · exact absurd hkey hgone
            · exact .inr ⟨x, hx, hholds⟩
        · exact .inr ⟨δ', mem_set_self hd, hnew⟩
        · exact absurd rfl (hcareful.cutOff d δ hd (hkeyδ.trans hmessage))
      · rcases List.mem_or_eq_of_mem_set hx with hx | rfl
        · exact hkeep (h.turnedAway x hx o ho hne hkey)
        · have hkey' : s.key δ = some key := hkeyδ'.symm.trans hkey
          obtain ⟨rfl, hpytest | ⟨k, hmem, hmessage⟩⟩ := deliveryStep_returned hstep ho hne
          · have := hcareful.pytest p (List.mem_of_getElem? hp) (hkeyδ.symm.trans hkey')
            rw [this] at hpytest
            cases hpytest
          · -- the claim that turned it away is held by nobody, so it has served its handler
            obtain rfl : k = key :=
              Option.some.inj (hmessage.symm.trans (hkeyδ.symm.trans hkey'))
            rcases h.claimed hmem with hh | ⟨x, hx, hholds⟩
            · exact hkeep hh
            · exact absurd hholds (hcareful.alone d δ hd hkey' rfl x hx)

/-- Careful steps settle no turned-away delivery too soon. -/
theorem run_notTooSoon_of_careful {ls : List (ConsumerLabel β)}
    (hrun : Run (Guarded (Careful consumers key) (ofStep (consumerStep consumers))) {} ls s) :
    Run (Guarded (NotTooSoon key) (ofStep (consumerStep consumers))) {} ls s := by
  have hiff : Run (Guarded (Careful consumers key) (ofStep (consumerStep consumers))) {} ls s ↔
      Run (fun a l b ↦ Careful consumers key a l ∧
        Guarded (NotTooSoon key) (ofStep (consumerStep consumers)) a l b) {} ls s := by
    apply Run.congr (ClaimInv key)
    · intro a l b h
      refine and_congr_right fun _ ↦ ⟨fun hs ↦ ⟨?_, hs⟩, fun hs ↦ hs.2⟩
      intro d δ o _ hd hkey hphase ho
      exact h.turnedAway δ (List.mem_of_getElem? hd) o hphase ho hkey
    · rintro a l b h ⟨hcareful, hs⟩
      exact h.step hcareful hs
    · refine ⟨⟨?_, ?_⟩, ?_, fun h ↦ absurd h List.not_mem_nil, ?_⟩ <;> intro x hx <;> cases hx
  exact (hiff.mp hrun).mono fun _ _ _ h ↦ h.2

/-- **In every run of the broker and the bot, whatever is delivered again, raises or dies, a
message id is acknowledged only after its handler has run to completion iff no turned-away
delivery of the run is settled too soon, and none is if nothing goes wrong with the claim of
the id.** -/
theorem acked_after_handled_iff (consumers : String → QueueConsumer β) (key : String)
    (ls : List (ConsumerLabel β)) (s : ConsumerState β) :
    (Run (fun s l s' ↦ consumerStep consumers s l = some s' ∧ AckedAfterHandled key s') {} ls s ↔
      Run (Guarded (NotTooSoon key) (ofStep (consumerStep consumers))) {} ls s) ∧
    (Run (Guarded (Careful consumers key) (ofStep (consumerStep consumers))) {} ls s →
      Run (Guarded (NotTooSoon key) (ofStep (consumerStep consumers))) {} ls s) :=
  ⟨run_ackedAfterHandled_iff consumers key ls s, run_notTooSoon_of_careful⟩

/-- The bot dies in the handler; the message is delivered again, turned away and acknowledged. -/
def diesInHandler : List (ConsumerLabel Unit) :=
  [.publish { routingKey := "api.newsfeed.create"
              message := { body := (), messageId := some "newsfeed:create:1" } },
    .deliver 0, .act 0 .enter, .act 0 .lose, .deliver 0, .act 1 .enter, .act 1 .settle]

/-- An idempotent consumer of every queue. -/
def idempotentConsumer (queueName : String) : QueueConsumer Unit where
  queueName := queueName
  decodes _ := true
  idempotent := true

/-- The message is acknowledged and its handler has run to completion for no delivery. -/
theorem diesInHandler_acked :
    ∃ s, diesInHandler.foldlM (consumerStep idempotentConsumer) {} = some s ∧
      ¬ AckedAfterHandled "newsfeed:create:1" s := by
  refine ⟨_, rfl, fun h ↦ ?_⟩
  obtain ⟨δ, hδ, _, hhandled⟩ := h { event := 0, phase := .acked .duplicate }
    (List.mem_cons_of_mem _ List.mem_cons_self) .duplicate rfl (by decide)
  rcases List.mem_cons.mp hδ with rfl | hδ
  · cases hhandled
  · rw [List.mem_singleton.mp hδ] at hhandled
    cases hhandled

end Genjishimada.Bot
