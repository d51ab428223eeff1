import Genjishimada.Bot.Consumer

/-!
# A message id is handled at most once

The claim of a message id is taken before the handler is called and given back only by the wrapper
that took it, when its handler has raised.  So however deliveries, redeliveries, failures and deaths
of the bot interleave, and on however many queues the id was published, no two handlers of one id
run side by side, and after one has run to completion no other is called.
-/

namespace Genjishimada.Bot

open Library

variable {β : Type}

/-! ## Engaged deliveries -/

/-- The claim that the wrapper asks for with a delivery. -/
def ConsumerState.claim (consumers : String → QueueConsumer β) (s : ConsumerState β)
    (δ : Delivery) : Option String :=
  s.published[δ.event]?.bind fun p ↦ (consumers p.routingKey).claims p.message

/-- The handler runs, has raised and its claim is still there, or has run to completion. -/
def Delivery.Engaged (δ : Delivery) : Prop :=
  (∃ claim, δ.phase = .running claim) ∨ (∃ key, δ.phase = .cleaning key) ∨ δ.handled = true

/-- What a delivery whose wrapper asks for this claim looks like. -/
structure Delivery.Sound (claim : Option String) (δ : Delivery) : Prop where
  running : ∀ c, δ.phase = .running c → c = claim
  cleaning : ∀ key, δ.phase = .cleaning key → claim = some key
  delivered : δ.phase = .delivered → δ.handled = false
  runs : ∀ c, δ.phase = .running c → δ.handled = false
  cleans : ∀ key, δ.phase = .cleaning key → δ.handled = false

section Step

variable {consumer : QueueConsumer β} {message : Message β} {claims claims' : List String}
  {δ δ' : Delivery} {l : DeliveryLabel}

/-- A handler is called without a claim only where none is asked for. -/
theorem claims_of_enter (h : (consumer.enter message claims δ).1.phase = .running none) :
    consumer.claims message = none := by
  by_contra hne
  obtain ⟨key, hkey⟩ := Option.ne_none_iff_exists'.mp hne
  rw [enter_of_claims hkey] at h
  split at h <;> simp at h

/-- A delivery that is delivered and not yet handled, or over, is engaged exactly if it was
handled. -/
theorem engaged_iff_handled (hrunning : ∀ c, δ.phase ≠ .running c)
    (hcleaning : ∀ key, δ.phase ≠ .cleaning key) : δ.Engaged ↔ δ.handled = true := by
  refine ⟨?_, fun h ↦ .inr (.inr h)⟩
  rintro (⟨c, hc⟩ | ⟨key, hkey⟩ | h)
  · exact absurd hc (hrunning c)
  · exact absurd hkey (hcleaning key)
  · exact h

theorem deliveryStep_sound (hδ : δ.Sound (consumer.claims message))
    (h : deliveryStep consumer message claims δ l = some (δ', claims')) :
    δ'.Sound (consumer.claims message) := by
  cases deliveryStep_move h with
  | call hphase =>
      have henter : (consumer.enter message claims δ).1.phase = .running none := by
        rw [deliveryStep, if_pos hphase] at h
        rw [Option.some.inj h]
      rw [claims_of_enter henter]
      have hhandled := hδ.delivered hphase
      constructor <;> simp [hhandled]
  | claim hphase hclaims =>
      rw [hclaims]
      have hhandled := hδ.delivered hphase
      constructor <;> simp [hhandled]
  | clean hphase =>
      have hclaim := hδ.running _ hphase
      have hhandled := hδ.runs _ hphase
      constructor <;> simp [← hclaim, hhandled]
  | _ => constructor <;> simp

/-- A handler is called under a claim that was not there; the claim stays while the delivery is
engaged; and no claim is deleted but the delivery's own, which is engaged no longer. -/
theorem deliveryStep_engaged (hδ : δ.Sound (consumer.claims message))
    (hkept : δ.Engaged → ∀ key, consumer.claims message = some key → key ∈ claims)
    (h : deliveryStep consumer message claims δ l = some (δ', claims')) :
    (δ'.Engaged → ∀ key, consumer.claims message = some key →
      key ∈ claims' ∧ (δ.Engaged ∨ key ∉ claims)) ∧
    ∀ key ∈ claims, key ∈ claims' ∨
      consumer.claims message = some key ∧ δ.Engaged ∧ ¬ δ'.Engaged := by
  have hstays (hengaged : δ'.Engaged → δ.Engaged) : (δ'.Engaged → ∀ key,
      consumer.claims message = some key → key ∈ claims ∧ (δ.Engaged ∨ key ∉ claims)) ∧
      ∀ key ∈ claims, key ∈ claims ∨
        consumer.claims message = some key ∧ δ.Engaged ∧ ¬ δ'.Engaged :=
    ⟨fun h' key hkey ↦ ⟨hkept (hengaged h') key hkey, .inl (hengaged h')⟩,
      fun key hkey ↦ .inl hkey⟩
  cases deliveryStep_move h with
  | call hphase =>
      have henter : (consumer.enter message claims δ).1.phase = .running none := by
        rw [deliveryStep, if_pos hphase] at h
        rw [Option.some.inj h]
      have hclaims := claims_of_enter henter
      exact ⟨fun _ key hkey ↦ (by rw [hclaims] at hkey; cases hkey), fun key hkey ↦ .inl hkey⟩
  | claim hphase hclaims hnew =>
      refine ⟨fun _ key hkey ↦ ?_, fun key hkey ↦ .inl (List.mem_cons_of_mem _ hkey)⟩
      obtain rfl : _ = key := Option.some.inj (hclaims.symm.trans hkey)
      exact ⟨List.mem_cons_self, .inr hnew⟩
  | cut hphase hclaims =>
      have hnot : ¬ Delivery.Engaged { δ with phase := .raised, cut := true } := by
        rw [engaged_iff_handled (by simp) (by simp)]
        simp [hδ.delivered hphase]
      exact ⟨fun h' ↦ absurd h' hnot, fun key hkey ↦ .inl (List.mem_cons_of_mem _ hkey)⟩
  | finish hphase => exact hstays fun _ ↦ .inl ⟨_, hphase⟩
  | clean hphase => exact hstays fun _ ↦ .inl ⟨_, hphase⟩
  | release deleted hphase =>
      rename_i key
      have hnot : ¬ Delivery.Engaged { δ with phase := .raised } := by
        rw [engaged_iff_handled (by simp) (by simp)]
        simp [hδ.cleans _ hphase]
      refine ⟨fun h' ↦ absurd h' hnot, fun k hk ↦ ?_⟩
      by_cases heq : k = key
      · rw [heq]
        exact .inr ⟨hδ.cleaning _ hphase, .inr (.inl ⟨_, hphase⟩), hnot⟩
      · refine .inl ?_
        cases deleted with
        | true => exact List.mem_filter.mpr ⟨hk, decide_eq_true heq⟩
        | false => exact hk
  | _ =>
      refine hstays fun h' ↦ .inr (.inr ?_)
      rwa [engaged_iff_handled (by simp) (by simp)] at h'

end Step

/-! ## The invariant -/

section Invariant

variable {consumers : String → QueueConsumer β} {s s' : ConsumerState β}

/-- Every claim that an engaged delivery asked for is stored, and it is the only one with it. -/
structure Exclusive (consumers : String → QueueConsumer β) (s : ConsumerState β) : Prop where
  consumer : ConsumerInv s
  sound : ∀ δ ∈ s.deliveries, δ.Sound (s.claim consumers δ)
  stored : ∀ δ ∈ s.deliveries, δ.Engaged → ∀ key, s.claim consumers δ = some key → key ∈ s.claims
  unique : ∀ (i j : Nat) (x y : Delivery), s.deliveries[i]? = some x →
    s.deliveries[j]? = some y → x.Engaged → y.Engaged →
    ∀ key, s.claim consumers x = some key → s.claim consumers y = some key → i = j

/-- A message published keeps the claims of the deliveries. -/
theorem claim_publish {m : Published β} {δ : Delivery} (hδ : δ.event < s.published.length) :
    ConsumerState.claim consumers { s with published := s.published ++ [m] } δ =
      s.claim consumers δ := by
  simp only [ConsumerState.claim]
  rw [List.getElem?_append_left hδ]

/-- A new delivery is not engaged. -/
theorem not_engaged_delivered (event : Nat) : ¬ Delivery.Engaged { event } := by
  rw [engaged_iff_handled (by simp) (by simp)]
  simp

theorem Exclusive.publish (h : Exclusive consumers s) {m : Published β}
    (hs : consumerStep consumers s (.publish m) = some s') : Exclusive consumers s' := by
  have hconsumer := h.consumer.step hs
  cases hs
  have hclaim (δ : Delivery) (hδ : δ ∈ s.deliveries) :
      ConsumerState.claim consumers { s with published := s.published ++ [m] } δ =
        s.claim consumers δ := claim_publish (h.consumer.published δ hδ)
  refine ⟨hconsumer, fun δ hδ ↦ ?_, fun δ hδ hengaged key hkey ↦ ?_, ?_⟩
  · rw [hclaim δ hδ]
    exact h.sound δ hδ
  · rw [hclaim δ hδ] at hkey
    exact h.stored δ hδ hengaged key hkey
  · intro i j x y hx hy hxe hye key hxk hyk
    rw [hclaim x (List.mem_of_getElem? hx)] at hxk
    rw [hclaim y (List.mem_of_getElem? hy)] at hyk
    exact h.unique i j x y hx hy hxe hye key hxk hyk

theorem Exclusive.deliver (h : Exclusive consumers s) {event : Nat}
    (hs : consumerStep consumers s (.deliver event) = some s') : Exclusive consumers s' := by
  have hconsumer := h.consumer.step hs
  simp only [consumerStep] at hs
  split at hs
  · cases hs
    refine ⟨hconsumer, fun δ hδ ↦ ?_, fun δ hδ hengaged ↦ ?_, ?_⟩
    · rcases List.mem_append.mp hδ with hδ | hδ
      · exact h.sound δ hδ
      · rw [List.mem_singleton.mp hδ]
        constructor <;> simp
    · rcases List.mem_append.mp hδ with hδ | hδ
      · exact h.stored δ hδ hengaged
      · rw [List.mem_singleton.mp hδ] at hengaged
        exact absurd hengaged (not_engaged_delivered event)
    · intro i j x y hx hy hxe hye
      rcases getElem?_append_cases hx with hx | ⟨_, rfl⟩
      · rcases getElem?_append_cases hy with hy | ⟨_, rfl⟩
        · exact h.unique i j x y hx hy hxe hye
        · exact absurd hye (not_engaged_delivered event)
      · exact absurd hxe (not_engaged_delivered event)
  · cases hs

/-- A step of a delivery: a handler that is called is the only one under its claim, and a claim that
is deleted is no other delivery's. -/
theorem Exclusive.act (h : Exclusive consumers s) {d : Nat} {l : DeliveryLabel}
    (hs : consumerStep consumers s (.act d l) = some s') : Exclusive consumers s' := by
  have hconsumer := h.consumer.step hs
  obtain ⟨δ, p, δ', claims, hd, hp, hstep, rfl⟩ := consumerStep_act hs
  have hδ : δ ∈ s.deliveries := List.mem_of_getElem? hd
  have hclaimδ : s.claim consumers δ = (consumers p.routingKey).claims p.message := by
    rw [ConsumerState.claim, hp]
    rfl
  have hclaimδ' : s.claim consumers δ' = (consumers p.routingKey).claims p.message := by
    rw [ConsumerState.claim, (deliveryStep_next hstep).event, hp]
    rfl
  have hsound := h.sound δ hδ
  have hstored := h.stored δ hδ
  rw [hclaimδ] at hsound hstored
  obtain ⟨htaken, hdeleted⟩ := deliveryStep_engaged hsound hstored hstep
  refine ⟨hconsumer, fun x hx ↦ ?_, fun x hx hengaged key hkey ↦ ?_, ?_⟩
  · change x.Sound (s.claim consumers x)
    rcases List.mem_or_eq_of_mem_set hx with hx | rfl
    · exact h.sound x hx
    · rw [hclaimδ']
      exact deliveryStep_sound hsound hstep
  · change s.claim consumers x = some key at hkey
    obtain ⟨j, hj⟩ := List.mem_iff_getElem?.mp hx
    rcases getElem?_set_cases hd hj with ⟨_, rfl⟩ | ⟨hne, hj⟩
    · exact (htaken hengaged key (hclaimδ' ▸ hkey)).1
    · -- the claim of another delivery is deleted by none but that one
      have hx := List.mem_of_getElem? hj
      refine (hdeleted key (h.stored x hx hengaged key hkey)).resolve_right ?_
      rintro ⟨hclaims, hδengaged, -⟩
      exact hne (h.unique j d x δ hj hd hengaged hδengaged key hkey (hclaimδ.trans hclaims))
  · have hother {j : Nat} {y : Delivery} (hj : s.deliveries[j]? = some y) (hne : j ≠ d)
        (hy : y.Engaged) {key : String} (hykey : s.claim consumers y = some key)
        (hδ'engaged : δ'.Engaged) (hkey : s.claim consumers δ' = some key) : False := by
      have hin := h.stored y (List.mem_of_getElem? hj) hy key hykey
      rcases (htaken hδ'engaged key (hclaimδ' ▸ hkey)).2 with hengaged | hnew
      · refine hne (h.unique j d y δ hj hd hy hengaged key hykey ?_)
        rw [hclaimδ, ← hclaimδ', hkey]
      · exact hnew hin
    intro i j x y hx hy hxe hye key hxk hyk
    change s.claim consumers x = some key at hxk
    change s.claim consumers y = some key at hyk
    rcases getElem?_set_cases hd hx with ⟨hi, rfl⟩ | ⟨hi, hx'⟩
    · rcases getElem?_set_cases hd hy with ⟨hj, rfl⟩ | ⟨hj, hy'⟩
      · rw [hi, hj]
      · exact (hother hy' hj hye hyk hxe hxk).elim
    · rcases getElem?_set_cases hd hy with ⟨hj, rfl⟩ | ⟨hj, hy'⟩
      · exact (hother hx' hi hxe hxk hye hyk).elim
      · exact h.unique i j x y hx' hy' hxe hye key hxk hyk

theorem Exclusive.step {l : ConsumerLabel β} (h : Exclusive consumers s)
    (hs : consumerStep consumers s l = some s') : Exclusive consumers s' := by
  cases l with
  | publish m => exact h.publish hs
  | deliver event => exact h.deliver hs
  | act d l => exact h.act hs

theorem exclusive_empty : Exclusive consumers ({} : ConsumerState β) := by
  refine ⟨⟨?_, ?_⟩, ?_, ?_, ?_⟩ <;> simp

/-- However messages, deliveries, failures and deaths of the bot interleave: of all the deliveries
whose wrapper asks for one claim, on whatever queue, at most one has its handler running, being
cleaned up after, or run to completion; and when one has run to completion, every delivery that
comes after it is turned away. -/
theorem handled_at_most_once {ls : List (ConsumerLabel β)}
    (h : Run (ofStep (consumerStep consumers)) {} ls s) (key : String) :
    (∀ (i j : Nat) (x y : Delivery), s.deliveries[i]? = some x → s.deliveries[j]? = some y →
      s.claim consumers x = some key → s.claim consumers y = some key →
      x.Engaged → y.Engaged → i = j) ∧
    ∀ x ∈ s.deliveries, s.claim consumers x = some key → x.handled = true →
      ∀ (d : Nat) (δ : Delivery), s.deliveries[d]? = some δ → s.claim consumers δ = some key →
        ∀ s', consumerStep consumers s (.act d .enter) = some s' →
          s'.claims = s.claims ∧
            s'.deliveries = s.deliveries.set d { δ with phase := .returned .duplicate } := by
  have hinv : Exclusive consumers s :=
    h.invariant (fun _ _ _ hinv hstep ↦ hinv.step hstep) exclusive_empty
  refine ⟨fun i j x y hx hy hxk hyk hxe hye ↦ hinv.unique i j x y hx hy hxe hye key hxk hyk, ?_⟩
  intro x hx hxkey hhandled d δ hd hδkey s' hs
  have hmem := hinv.stored x hx (.inr (.inr hhandled)) key hxkey
  obtain ⟨δ₁, p, δ', claims, hd₁, hp, hstep, rfl⟩ := consumerStep_act hs
  obtain rfl : δ = δ₁ := Option.some.inj (hd.symm.trans hd₁)
  rw [ConsumerState.claim, hp] at hδkey
  rw [deliveryStep] at hstep
  split at hstep
  · rw [enter_of_claims hδkey, if_pos hmem] at hstep
    cases hstep
    exact ⟨rfl, rfl⟩
  · cases hstep

end Invariant

/-- The second delivery of a message, after the bot has died in the handler of the first. -/
def overlapping : List (ConsumerLabel Unit) :=
  [.publish { routingKey := "api.tournament.results"
              message := { body := (), messageId := some "tournament:results:1" } },
    .deliver 0, .act 0 .enter, .act 0 .lose, .deliver 0, .act 1 .enter]

/-- The consumer of the results of an edition. -/
def resultsConsumer (queueName : String) : QueueConsumer Unit where
  queueName
  decodes := fun _ ↦ true
  idempotent := true

theorem overlapping_handled_once :
    ∃ s, overlapping.foldlM (consumerStep resultsConsumer) {} = some s ∧
      ∀ (i j : Nat) (x y : Delivery), s.deliveries[i]? = some x → s.deliveries[j]? = some y →
        s.claim resultsConsumer x = some "tournament:results:1" →
        s.claim resultsConsumer y = some "tournament:results:1" →
        x.Engaged → y.Engaged → i = j := by
  refine ⟨_, rfl, ?_⟩
  have hrun : Run (ofStep (consumerStep resultsConsumer)) {} overlapping _ :=
    Run.ofStep_iff.mpr rfl
  exact (handled_at_most_once hrun "tournament:results:1").1

end Genjishimada.Bot
