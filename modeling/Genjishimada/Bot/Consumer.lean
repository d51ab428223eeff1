import Genjishimada.Bot.Message
import Genjishimada.Library.Parties
import Genjishimada.Library.Run

/-!
# Queue consumers

A delivery of a message goes through the wrapper of `queue_consumer` inside
`message.process()` of `RabbitHandler._wrap_handler`.  The wrapper lets a test message
pass, decodes the body, claims the message id over the API, runs the handler, and gives
the claim back when the handler raises; a delivery whose wrapper returns is acknowledged,
one whose wrapper raises is rejected, and then goes to the dead-letter queue.

The broker delivers a message again while nobody has settled it, a bot can die at any
await point, and deliveries of one message can overlap (a channel that is lost does not
stop the handler that runs on it).  All of that is in `consumerStep`: it puts no condition on
when a message is delivered.
-/

namespace Genjishimada.Bot

open Library

variable {β : Type}

/-! ## Deliveries -/

/-- A handler under `@queue_consumer`; the message of a queue decodes or not. -/
structure QueueConsumer (β : Type) where
  queueName : String
  /-- `msgspec.json.decode(message.body, type=struct_type)` returns. -/
  decodes : β → Bool
  idempotent : Bool := false
  pytestHeader : String := "x-pytest-enabled"

/-- Why a wrapper has returned. -/
inductive Outcome where
  | /-- The handler has run to completion. -/
    handled
  | /-- The message id was claimed already. -/
    duplicate
  | /-- The message has the test header. -/
    pytest
deriving DecidableEq, Repr

/-- Where a delivery is. -/
inductive Phase where
  | /-- Handed to the wrapper. -/
    delivered
  | /-- The handler runs, under this claim. -/
    running (claim : Option String)
  | /-- The handler has raised and the claim is to be deleted. -/
    cleaning (claim : String)
  | /-- The wrapper has returned. -/
    returned (outcome : Outcome)
  | /-- The wrapper has raised. -/
    raised
  | acked (outcome : Outcome)
  | rejected
  | /-- The bot has died, or its channel. -/
    lost
deriving DecidableEq, Repr

/-- A delivery of the message published at `event`; no code reads the last three fields. -/
structure Delivery where
  event : Nat
  phase : Phase := .delivered
  /-- The handler has been called. -/
  started : Bool := false
  /-- The handler has run to completion. -/
  handled : Bool := false
  /-- The API has stored the claim and its answer has not arrived. -/
  cut : Bool := false
deriving DecidableEq, Repr

/-- A message handed to the default exchange. -/
structure Published (β : Type) where
  routingKey : String
  message : Message β
deriving DecidableEq, Repr

/-- What happens to a delivery. -/
inductive DeliveryLabel where
  | /-- The wrapper, up to the call of the handler. -/
    enter
  | /-- The claim request raises, whether or not the API has stored the claim. -/
    cutOff (stored : Bool)
  | /-- The handler returns. -/
    finish
  | /-- The handler raises. -/
    raise
  | /-- `delete_claimed_idempotency`, whose failure is logged. -/
    release (deleted : Bool)
  | /-- The end of `message.process()`. -/
    settle
  | /-- The bot dies. -/
    lose
deriving DecidableEq, Repr

/-- The claim the wrapper asks for: none for a test message, a body that does not decode, a
consumer that is not idempotent or a message without an id. -/
def QueueConsumer.claims (consumer : QueueConsumer β) (message : Message β) : Option String :=
  if message.headers.holds consumer.pytestHeader then none
  else if !consumer.decodes message.body then none
  else if !consumer.idempotent then none
  else message.key

/-- The wrapper up to the call of the handler, over the claims in `processed_messages`. -/
def QueueConsumer.enter (consumer : QueueConsumer β) (message : Message β) (claims : List String)
    (δ : Delivery) : Delivery × List String :=
  if message.headers.holds consumer.pytestHeader then
    ({ δ with phase := .returned .pytest }, claims)
  else if !consumer.decodes message.body then ({ δ with phase := .raised }, claims)
  else
    match consumer.claims message with
    | none => ({ δ with phase := .running none, started := true }, claims)
    | some key =>
        -- `INSERT … ON CONFLICT DO NOTHING`
        if key ∈ claims then ({ δ with phase := .returned .duplicate }, claims)
        else ({ δ with phase := .running (some key), started := true }, key :: claims)

/-- One step of a delivery, and the claims it leaves. -/
def deliveryStep (consumer : QueueConsumer β) (message : Message β) (claims : List String)
    (δ : Delivery) : DeliveryLabel → Option (Delivery × List String)
  | .enter => if δ.phase = .delivered then some (consumer.enter message claims δ) else none
  | .cutOff stored =>
      match δ.phase, consumer.claims message with
      | .delivered, some key =>
          if stored ∧ key ∉ claims then some ({ δ with phase := .raised, cut := true }, key :: claims)
          else some ({ δ with phase := .raised }, claims)
      | _, _ => none
  | .finish =>
      match δ.phase with
      | .running _ => some ({ δ with phase := .returned .handled, handled := true }, claims)
      | _ => none
  | .raise =>
      match δ.phase with
      | .running none => some ({ δ with phase := .raised }, claims)
      | .running (some key) => some ({ δ with phase := .cleaning key }, claims)
      | _ => none
  | .release deleted =>
      match δ.phase with
      | .cleaning key =>
          some ({ δ with phase := .raised }, if deleted then claims.filter (· ≠ key) else claims)
      | _ => none
  | .settle =>
      match δ.phase with
      | .returned outcome => some ({ δ with phase := .acked outcome }, claims)
      | .raised => some ({ δ with phase := .rejected }, claims)
      | _ => none
  | .lose =>
      match δ.phase with
      | .acked _ | .rejected | .lost => none
      | _ => some ({ δ with phase := .lost }, claims)

/-! ## The bot and the broker -/

/-- The messages published so far, the rows of `public.processed_messages` and the deliveries. -/
structure ConsumerState (β : Type) where
  published : List (Published β) := []
  claims : List String := []
  deliveries : List Delivery := []

inductive ConsumerLabel (β : Type) where
  | publish (message : Published β)
  | /-- The broker delivers the message published at `event`, for the first time or again. -/
    deliver (event : Nat)
  | /-- Something happens to the `d`-th delivery. -/
    act (d : Nat) (l : DeliveryLabel)

/-- One step, under the consumers of the bot. -/
def consumerStep (consumers : String → QueueConsumer β) (s : ConsumerState β) :
    ConsumerLabel β → Option (ConsumerState β)
  | .publish message => some { s with published := s.published ++ [message] }
  | .deliver event =>
      if event < s.published.length then
        some { s with deliveries := s.deliveries ++ [{ event }] }
      else none
  | .act d l => do
      let δ ← s.deliveries[d]?
      let p ← s.published[δ.event]?
      let (δ', claims) ← deliveryStep (consumers p.routingKey) p.message s.claims δ l
      return { s with deliveries := s.deliveries.set d δ', claims }

/-- The message id under which the event of a delivery was published. -/
def ConsumerState.key (s : ConsumerState β) (δ : Delivery) : Option String :=
  s.published[δ.event]?.bind fun p ↦ p.message.key

/-! ## What one step does -/

/-- What no step of a delivery takes back. -/
structure Delivery.Next (δ δ' : Delivery) : Prop where
  event : δ'.event = δ.event
  started : δ.started = true → δ'.started = true
  handled : δ.handled = true → δ'.handled = true
  cut : δ.cut = true → δ'.cut = true

section Step

variable {consumer : QueueConsumer β} {message : Message β} {claims claims' : List String}
  {δ δ' : Delivery} {l : DeliveryLabel}

/-- What a step of a delivery can do. -/
inductive DeliveryMove (consumer : QueueConsumer β) (message : Message β) (claims : List String)
    (δ : Delivery) : DeliveryLabel → Delivery → List String → Prop
  | /-- A test message passes. -/
    pass (hphase : δ.phase = .delivered)
      (hpytest : message.headers.holds consumer.pytestHeader = true) :
      DeliveryMove consumer message claims δ .enter { δ with phase := .returned .pytest } claims
  | /-- The body does not decode. -/
    decode (hphase : δ.phase = .delivered) :
      DeliveryMove consumer message claims δ .enter { δ with phase := .raised } claims
  | /-- The handler is called without a claim. -/
    call (hphase : δ.phase = .delivered) :
      DeliveryMove consumer message claims δ .enter
        { δ with phase := .running none, started := true } claims
  | turnAway {key : String} (hphase : δ.phase = .delivered)
      (hclaims : consumer.claims message = some key) (hmem : key ∈ claims) :
      DeliveryMove consumer message claims δ .enter { δ with phase := .returned .duplicate } claims
  | claim {key : String} (hphase : δ.phase = .delivered)
      (hclaims : consumer.claims message = some key) (hnew : key ∉ claims) :
      DeliveryMove consumer message claims δ .enter
        { δ with phase := .running (some key), started := true } (key :: claims)
  | /-- The claim is stored, the answer does not arrive. -/
    cut {key : String} (hphase : δ.phase = .delivered)
      (hclaims : consumer.claims message = some key) :
      DeliveryMove consumer message claims δ (.cutOff true)
        { δ with phase := .raised, cut := true } (key :: claims)
  | cutOff {stored : Bool} (hphase : δ.phase = .delivered) :
      DeliveryMove consumer message claims δ (.cutOff stored) { δ with phase := .raised } claims
  | finish {claim : Option String} (hphase : δ.phase = .running claim) :
      DeliveryMove consumer message claims δ .finish
        { δ with phase := .returned .handled, handled := true } claims
  | raise (hphase : δ.phase = .running none) :
      DeliveryMove consumer message claims δ .raise { δ with phase := .raised } claims
  | clean {key : String} (hphase : δ.phase = .running (some key)) :
      DeliveryMove consumer message claims δ .raise { δ with phase := .cleaning key } claims
  | release {key : String} (deleted : Bool) (hphase : δ.phase = .cleaning key) :
      DeliveryMove consumer message claims δ (.release deleted) { δ with phase := .raised }
        (if deleted then claims.filter (· ≠ key) else claims)
  | ack {outcome : Outcome} (hphase : δ.phase = .returned outcome) :
      DeliveryMove consumer message claims δ .settle { δ with phase := .acked outcome } claims
  | reject (hphase : δ.phase = .raised) :
      DeliveryMove consumer message claims δ .settle { δ with phase := .rejected } claims
  | lose : DeliveryMove consumer message claims δ .lose { δ with phase := .lost } claims

/-- Entering the wrapper is one of the moves. -/
theorem enter_move (hphase : δ.phase = .delivered) :
    DeliveryMove consumer message claims δ .enter (consumer.enter message claims δ).1
      (consumer.enter message claims δ).2 := by
  unfold QueueConsumer.enter
  by_cases hpytest : message.headers.holds consumer.pytestHeader = true
  · rw [if_pos hpytest]
    exact .pass hphase hpytest
  rw [if_neg hpytest]
  by_cases hdecodes : (!consumer.decodes message.body) = true
  · rw [if_pos hdecodes]
    exact .decode hphase
  rw [if_neg hdecodes]
  cases hclaims : consumer.claims message with
  | none => exact .call hphase
  | some key =>
      by_cases hkey : key ∈ claims
      · simp only [if_pos hkey]
        exact .turnAway hphase hclaims hkey
      · simp only [if_neg hkey]
        exact .claim hphase hclaims hkey

/-- A step is one of the moves. -/
theorem deliveryStep_move (h : deliveryStep consumer message claims δ l = some (δ', claims')) :
    DeliveryMove consumer message claims δ l δ' claims' := by
  cases l with
  | enter =>
      simp only [deliveryStep] at h
      split at h
      · next hphase =>
          have hmove : DeliveryMove consumer message claims δ .enter
              (consumer.enter message claims δ).1 (consumer.enter message claims δ).2 :=
            enter_move hphase
          rw [Option.some.inj h] at hmove
          exact hmove
      · cases h
  | cutOff stored =>
      simp only [deliveryStep] at h
      split at h
      · next key hphase hclaims =>
          split at h
          · next hstored =>
              cases h
              rw [hstored.1]
              exact .cut hphase hclaims
          · cases h
            exact .cutOff hphase
      · cases h
  | finish =>
      simp only [deliveryStep] at h
      split at h
      · next hphase =>
          cases h
          exact .finish hphase
      · cases h
  | raise =>
      simp only [deliveryStep] at h
      split at h
      · next hphase =>
          cases h
          exact .raise hphase
      · next hphase =>
          cases h
          exact .clean hphase
      · cases h
  | release deleted =>
      simp only [deliveryStep] at h
      split at h
      · next hphase =>
          cases h
          exact .release deleted hphase
      · cases h
  | settle =>
      simp only [deliveryStep] at h
      split at h
      · next hphase =>
          cases h
          exact .ack hphase
      · next hphase =>
          cases h
          exact .reject hphase
      · cases h
  | lose =>
      simp only [deliveryStep] at h
      split at h <;> cases h
      exact .lose

/-- A claim is asked for under the id of the message. -/
theorem key_of_claims {key : String} (h : consumer.claims message = some key) :
    message.key = some key := by
  unfold QueueConsumer.claims at h
  split at h
  · cases h
  · split at h
    · cases h
    · split at h
      · cases h
      · exact h

/-- Entering the wrapper with a message that asks for a claim. -/
theorem enter_of_claims {key : String} (h : consumer.claims message = some key) :
    consumer.enter message claims δ =
      if key ∈ claims then ({ δ with phase := .returned .duplicate }, claims)
      else ({ δ with phase := .running (some key), started := true }, key :: claims) := by
  unfold QueueConsumer.enter
  rw [h]
  unfold QueueConsumer.claims at h
  split at h
  · cases h
  · next hpytest =>
      rw [if_neg hpytest]
      split at h
      · cases h
      · next hdecodes => rw [if_neg hdecodes]

/-- Deleting a claim adds none. -/
theorem mem_of_mem_release {key k : String} {deleted : Bool}
    (h : k ∈ if deleted then claims.filter (· ≠ key) else claims) : k ∈ claims := by
  cases deleted with
  | true => exact List.mem_of_mem_filter h
  | false => exact h

/-- A step takes nothing back. -/
theorem deliveryStep_next (h : deliveryStep consumer message claims δ l = some (δ', claims')) :
    δ.Next δ' := by
  cases deliveryStep_move h with
  | call | claim => exact ⟨rfl, fun _ ↦ rfl, id, id⟩
  | cut => exact ⟨rfl, id, id, fun _ ↦ rfl⟩
  | finish => exact ⟨rfl, id, fun _ ↦ rfl, id⟩
  | _ => exact ⟨rfl, id, id, id⟩

/-- A delivery is acknowledged by the end of `message.process()` alone, when its wrapper has
returned. -/
theorem deliveryStep_acked {o : Outcome}
    (h : deliveryStep consumer message claims δ l = some (δ', claims')) :
    δ'.phase = .acked o ↔ l = .settle ∧ δ.phase = .returned o := by
  cases deliveryStep_move h with
  | ack hphase => simp [hphase]
  | reject hphase => simp [hphase]
  | _ => simp

/-- Settling records nothing but itself. -/
theorem deliveryStep_settle_handled
    (h : deliveryStep consumer message claims δ .settle = some (δ', claims')) :
    δ'.handled = δ.handled := by
  cases deliveryStep_move h with
  | ack => rfl
  | reject => rfl

/-- A claim that is stored after a step was stored before or is the delivery's own. -/
theorem deliveryStep_claims {key : String}
    (h : deliveryStep consumer message claims δ l = some (δ', claims')) (hkey : key ∈ claims') :
    key ∈ claims ∨ message.key = some key ∧ (δ'.started = true ∨ δ'.cut = true) := by
  cases deliveryStep_move h with
  | claim _ hclaims =>
      rcases List.mem_cons.mp hkey with rfl | hkey
      · exact .inr ⟨key_of_claims hclaims, .inl rfl⟩
      · exact .inl hkey
  | cut _ hclaims =>
      rcases List.mem_cons.mp hkey with rfl | hkey
      · exact .inr ⟨key_of_claims hclaims, .inr rfl⟩
      · exact .inl hkey
  | release deleted => exact .inl (mem_of_mem_release hkey)
  | _ => exact .inl hkey

/-- A delivery is turned away by a claim that is stored under its message id. -/
theorem deliveryStep_duplicate
    (h : deliveryStep consumer message claims δ l = some (δ', claims'))
    (hδ' : δ'.phase = .returned .duplicate ∨ δ'.phase = .acked .duplicate) :
    δ.phase = .returned .duplicate ∨ ∃ key ∈ claims, message.key = some key := by
  cases deliveryStep_move h with
  | turnAway _ hclaims hmem => exact .inr ⟨_, hmem, key_of_claims hclaims⟩
  | ack hphase =>
      refine .inl ?_
      rw [hphase]
      simpa using hδ'
  | _ => simp at hδ'

/-- A wrapper that has returned from its handler has run it. -/
def Delivery.Honest (δ : Delivery) : Prop :=
  δ.phase = .returned .handled ∨ δ.phase = .acked .handled → δ.handled = true

theorem deliveryStep_honest (hδ : δ.Honest)
    (h : deliveryStep consumer message claims δ l = some (δ', claims')) : δ'.Honest := by
  cases deliveryStep_move h with
  | ack hphase =>
      intro hacked
      refine hδ (.inl ?_)
      rw [hphase]
      simpa using hacked
  | _ => simp [Delivery.Honest]

end Step

section Consumers

variable {consumers : String → QueueConsumer β} {s s' : ConsumerState β} {d : Nat}
  {δ δ' x : Delivery} {ds : List Delivery}

/-- A step of a delivery, taken apart. -/
theorem consumerStep_act {l : DeliveryLabel} (h : consumerStep consumers s (.act d l) = some s') :
    ∃ δ p δ' claims, s.deliveries[d]? = some δ ∧ s.published[δ.event]? = some p ∧
      deliveryStep (consumers p.routingKey) p.message s.claims δ l = some (δ', claims) ∧
      s' = { s with deliveries := s.deliveries.set d δ', claims } := by
  simp only [consumerStep, Option.bind_eq_bind, Option.bind_eq_some_iff] at h
  obtain ⟨δ, hδ, p, hp, ⟨δ', claims⟩, hstep, heq⟩ := h
  exact ⟨δ, p, δ', claims, hδ, hp, hstep, (Option.some.inj heq).symm⟩

/-- A step of a delivery, put together. -/
theorem consumerStep_act_of {l : DeliveryLabel} {p : Published β} {claims : List String}
    (hd : s.deliveries[d]? = some δ) (hp : s.published[δ.event]? = some p)
    (h : deliveryStep (consumers p.routingKey) p.message s.claims δ l = some (δ', claims)) :
    consumerStep consumers s (.act d l) =
      some { s with deliveries := s.deliveries.set d δ', claims } := by
  simp only [consumerStep, hd, hp, h, Option.bind_eq_bind, Option.bind_some]
  rfl

/-! ## The deliveries -/

/-- What holds of the deliveries at every moment. -/
structure ConsumerInv (s : ConsumerState β) : Prop where
  published : ∀ δ ∈ s.deliveries, δ.event < s.published.length
  honest : ∀ δ ∈ s.deliveries, δ.Honest

/-- A message published keeps the ids of the deliveries. -/
theorem key_publish {m : Published β} (hδ : δ.event < s.published.length) :
    ConsumerState.key { s with published := s.published ++ [m] } δ = s.key δ := by
  simp only [ConsumerState.key]
  rw [List.getElem?_append_left hδ]

theorem ConsumerInv.step {l : ConsumerLabel β} (h : ConsumerInv s)
    (hs : consumerStep consumers s l = some s') : ConsumerInv s' := by
  cases l with
  | publish m =>
      cases hs
      refine ⟨fun δ hδ ↦ ?_, h.honest⟩
      have := h.published δ hδ
      simp only [List.length_append, List.length_singleton]
      omega
  | deliver event =>
      simp only [consumerStep] at hs
      split at hs
      · next hevent =>
          cases hs
          constructor
          · intro δ hδ
            rcases List.mem_append.mp hδ with hδ | hδ
            · exact h.published δ hδ
            · rw [List.mem_singleton.mp hδ]
              exact hevent
          · intro δ hδ
            rcases List.mem_append.mp hδ with hδ | hδ
            · exact h.honest δ hδ
            · rw [List.mem_singleton.mp hδ]
              simp [Delivery.Honest]
      · cases hs
  | act d l =>
      obtain ⟨δ, p, δ', claims, hd, hp, hstep, rfl⟩ := consumerStep_act hs
      have hδ : δ ∈ s.deliveries := List.mem_of_getElem? hd
      constructor
      · intro x hx
        rcases List.mem_or_eq_of_mem_set hx with hx | rfl
        · exact h.published x hx
        · rw [(deliveryStep_next hstep).event]
          exact h.published δ hδ
      · intro x hx
        rcases List.mem_or_eq_of_mem_set hx with hx | rfl
        · exact h.honest x hx
        · exact deliveryStep_honest (h.honest δ hδ) hstep

/-- What holds of a delivery of a message id and is not taken back holds of one after every
step. -/
theorem ConsumerInv.exists_step {P : Delivery → Prop} {key : String} {l : ConsumerLabel β}
    (hinv : ConsumerInv s) (hP : ∀ δ δ', δ.Next δ' → P δ → P δ')
    (h : ∃ δ ∈ s.deliveries, s.key δ = some key ∧ P δ)
    (hs : consumerStep consumers s l = some s') :
    ∃ δ ∈ s'.deliveries, s'.key δ = some key ∧ P δ := by
  cases l with
  | publish m =>
      cases hs
      obtain ⟨δ, hδ, hkey, hPδ⟩ := h
      exact ⟨δ, hδ, by rwa [key_publish (hinv.published δ hδ)], hPδ⟩
  | deliver event =>
      simp only [consumerStep] at hs
      split at hs
      · cases hs
        obtain ⟨δ, hδ, hkey, hPδ⟩ := h
        exact ⟨δ, List.mem_append_left _ hδ, hkey, hPδ⟩
      · cases hs
  | act d l =>
      obtain ⟨δ, p, δ', claims, hd, hp, hstep, rfl⟩ := consumerStep_act hs
      have hnext := deliveryStep_next hstep
      refine exists_mem_set hd ?_ h
      rintro ⟨hkey, hPδ⟩
      refine ⟨?_, hP δ δ' hnext hPδ⟩
      rw [← hkey]
      simp only [ConsumerState.key, hnext.event]

end Consumers

end Genjishimada.Bot
