import Genjishimada.Bot.Consumer
import Genjishimada.Services.Completions
import Mathlib

/-!
# The claim keys of verdicts and resets

`verify_completion` publishes its event under `completion:verify:{record_id}` and
`PlaytestService.reset` under `playtest:reset:{thread_id}`.  The key names what was
decided on and not the decision, and a claim that has served its handler is never
deleted: the second verdict on a completion, or the second reset of a thread, is published
under a key that is taken, and the bot turns it away.

So no event is swallowed, in whatever order the broker delivers and redelivers, exactly
when no completion is judged twice and no thread is reset twice (`events_consumed_iff`).
-/

namespace Genjishimada.Bot

open Library Sdk

/-! ## The publishers -/

/-- `PlaytestResetEvent` -/
structure PlaytestResetEvent where
  verifierId : Nat
  reason : String
  removeVotes : Bool
  removeCompletions : Bool
  threadId : Nat
deriving DecidableEq, Repr

/-- The bodies published on the two queues. -/
inductive ActionEvent where
  | verificationChanged (e : VerificationChangedEvent)
  | playtestReset (e : PlaytestResetEvent)
deriving DecidableEq, Repr

/-- A call of a service that gets as far as publishing its event. -/
inductive Call where
  | verifyCompletion (recordId : Nat) (data : CompletionVerificationUpdateRequest)
  | reset (threadId verifierId : Nat) (reason : String) (removeVotes removeCompletions : Bool)
deriving DecidableEq, Repr

/-- What a call decides on. -/
inductive Target where
  | completion (recordId : Nat)
  | playtest (threadId : Nat)
deriving DecidableEq, Repr

namespace Call

def target : Call → Target
  | verifyCompletion recordId _ => .completion recordId
  | reset threadId _ _ _ _ => .playtest threadId

/-- The `data` of the publication. -/
def event : Call → ActionEvent
  | verifyCompletion recordId data =>
      .verificationChanged
        { completionId := recordId, verified := data.verified, verifiedBy := data.verifiedBy
          reason := data.reason }
  | reset threadId verifierId reason removeVotes removeCompletions =>
      .playtestReset { verifierId, reason, removeVotes, removeCompletions, threadId }

def routingKey : Call → String
  | verifyCompletion _ _ => "api.completion.verification"
  | reset _ _ _ _ _ => "api.playtest.reset"

theorem routingKey_reset (threadId verifierId : Nat) (reason : String)
    (removeVotes removeCompletions : Bool) :
    (reset threadId verifierId reason removeVotes removeCompletions).routingKey =
      "api.playtest.reset" := rfl

/-- The `idempotency_key` of the publication. -/
def idempotencyKey : Call → String
  | verifyCompletion recordId _ => "completion:verify:" ++ recordId.repr
  | reset threadId _ _ _ _ => "playtest:reset:" ++ threadId.repr

theorem idempotencyKey_verifyCompletion (recordId : Nat)
    (data : CompletionVerificationUpdateRequest) :
    (verifyCompletion recordId data).idempotencyKey = "completion:verify:" ++ recordId.repr := rfl

theorem idempotencyKey_reset (threadId verifierId : Nat) (reason : String)
    (removeVotes removeCompletions : Bool) :
    (reset threadId verifierId reason removeVotes removeCompletions).idempotencyKey =
      "playtest:reset:" ++ threadId.repr := rfl

end Call

/-- What `publish_message` hands to the exchange for a call, with a fresh job id. -/
def publication (call : Call) (jobId : String) : Published ActionEvent where
  routingKey := call.routingKey
  message :=
    { body := call.event
      correlationId := some jobId
      messageId := some call.idempotencyKey
      deliveryMode := some 2 }

/-- `CompletionHandler._process_verification_status_change` -/
def processVerificationStatusChange : QueueConsumer ActionEvent where
  queueName := "api.completion.verification"
  decodes
    | .verificationChanged _ => true
    | .playtestReset _ => false
  idempotent := true

/-- `PlaytestHandler._process_reset_playtest` -/
def processResetPlaytest : QueueConsumer ActionEvent where
  queueName := "api.playtest.reset"
  decodes
    | .verificationChanged _ => false
    | .playtestReset _ => true
  idempotent := true

/-- The consumers of the two queues. -/
def actionConsumers (queue : String) : QueueConsumer ActionEvent :=
  if queue = processVerificationStatusChange.queueName then processVerificationStatusChange
  else processResetPlaytest

/-- A `publish_message` that returns a queued job has handed its message over. -/
theorem publishMessage_queued {δ β ε : Type} {routingKey : Services.RoutingKey} {data : β}
    {headers : Services.Headers} {key : Services.IdempotencyKey} {w w' : Services.World δ β}
    {response : Services.JobStatusResponse}
    (h : (Services.publishMessage routingKey data headers (some key) :
      Services.Service δ β ε _) w = .ok response w')
    (hqueued : response.status = .queued) :
    ∃ sent jobId, w'.broker = sent ++
      [{ routingKey, body := data, correlationId := jobId, messageId := .key key }] := by
  obtain ⟨pytest⟩ := headers
  cases pytest with
  | true =>
      have hkey : ¬ (routingKey ∉ Services.ignoreIdempotency ∧ some key = none) := by simp
      rw [Services.publishMessage, if_neg hkey] at h
      cases h
      cases hqueued
  | false =>
      rw [Services.publishMessage_apply routingKey data (some key) (.inr (by simp)) w] at h
      cases hattempt : w.nextFaults.attempt with
      | raised e =>
          rw [hattempt] at h
          cases h
      | swallowed =>
          rw [hattempt] at h
          cases h
          cases hqueued
      | delivered =>
          rw [hattempt] at h
          cases h
          exact ⟨w.broker, w.uuid, rfl⟩

/-- A `verify_completion` that returns a queued job has handed this event to the broker under
this key. -/
theorem verifyCompletion_queued {recordId : Nat} {data : CompletionVerificationUpdateRequest}
    {headers : Services.Headers} {now : Int} {provision : Services.Provision}
    {w w' : Services.World Db Event} {response : Services.JobStatusResponse}
    (h : Services.verifyCompletion recordId data headers now provision w = .ok response w')
    (hqueued : response.status = .queued) :
    ∃ sent jobId, w'.broker = sent ++
      [{ routingKey := .completionVerification
         body := .verificationChanged
          { completionId := recordId, verified := data.verified, verifiedBy := data.verifiedBy
            reason := data.reason }
         correlationId := jobId
         messageId := .key (.completionVerify recordId) }] := by
  unfold Services.verifyCompletion at h
  obtain ⟨found, w₁, _, h⟩ := exists_of_bind_ok h
  cases found with
  | false => cases h
  | true =>
      obtain ⟨info, w₂, _, h⟩ := exists_of_bind_ok h
      cases info with
      | none => cases h
      | some info =>
          obtain ⟨_, w₃, _, h⟩ := exists_of_bind_ok h
          obtain ⟨_, w₄, _, h⟩ := exists_of_bind_ok h
          obtain ⟨_, w₅, _, h⟩ := exists_of_bind_ok h
          exact publishMessage_queued h hqueued

/-! ## Keys -/

/-- The two kinds of keys do not meet. -/
theorem verifyKey_ne_resetKey (m n : Nat) :
    "completion:verify:" ++ m.repr ≠ "playtest:reset:" ++ n.repr := by
  intro h
  have hhead := congrArg (fun s : String ↦ s.toList.head?) h
  simp [String.toList_append] at hhead

/-- Two calls carry the same key exactly when they decide on the same thing. -/
theorem idempotencyKey_eq_iff {a b : Call} :
    a.idempotencyKey = b.idempotencyKey ↔ a.target = b.target := by
  cases a with
  | verifyCompletion m data =>
      rw [Call.idempotencyKey_verifyCompletion]
      cases b with
      | verifyCompletion n data' =>
          rw [Call.idempotencyKey_verifyCompletion, String.append_right_inj, Nat.repr_inj]
          exact (Target.completion.injEq m n).to_iff.symm
      | reset n verifierId reason removeVotes removeCompletions =>
          rw [Call.idempotencyKey_reset]
          exact iff_of_false (verifyKey_ne_resetKey m n) Target.noConfusion
  | reset m verifierId reason removeVotes removeCompletions =>
      rw [Call.idempotencyKey_reset]
      cases b with
      | verifyCompletion n data =>
          rw [Call.idempotencyKey_verifyCompletion]
          exact iff_of_false (verifyKey_ne_resetKey n m).symm Target.noConfusion
      | reset n verifierId' reason' removeVotes' removeCompletions' =>
          rw [Call.idempotencyKey_reset, String.append_right_inj, Nat.repr_inj]
          exact (Target.playtest.injEq m n).to_iff.symm

theorem key_publication (call : Call) (jobId : String) :
    (publication call jobId).message.key = some call.idempotencyKey := by
  have hne : call.idempotencyKey ≠ "" := by
    cases call with
    | verifyCompletion recordId data =>
        rw [Call.idempotencyKey_verifyCompletion, Ne, String.append_eq_empty_iff]
        exact fun h ↦ absurd h.1 (by decide)
    | reset threadId verifierId reason removeVotes removeCompletions =>
        rw [Call.idempotencyKey_reset, Ne, String.append_eq_empty_iff]
        exact fun h ↦ absurd h.1 (by decide)
  rw [Message.key, show (publication call jobId).message.messageId = some call.idempotencyKey from rfl,
    Option.filter_some, if_pos (decide_eq_true hne)]

/-- The queue of a call is consumed by an idempotent handler that decodes its event. -/
theorem decodes_event (call : Call) :
    (actionConsumers call.routingKey).decodes call.event = true ∧
      (actionConsumers call.routingKey).idempotent = true := by
  cases call with
  | verifyCompletion recordId data =>
      have hconsumer : actionConsumers (Call.verifyCompletion recordId data).routingKey =
          processVerificationStatusChange := if_pos rfl
      rw [hconsumer]
      exact ⟨rfl, rfl⟩
  | reset threadId verifierId reason removeVotes removeCompletions =>
      have hconsumer : actionConsumers "api.playtest.reset" = processResetPlaytest :=
        if_neg (by decide)
      rw [Call.routingKey_reset, hconsumer]
      exact ⟨rfl, rfl⟩

/-- The consumer of a published event asks for a claim under its key. -/
theorem claims_publication (call : Call) (jobId : String) :
    (actionConsumers (publication call jobId).routingKey).claims
      (publication call jobId).message = some call.idempotencyKey := by
  obtain ⟨hdecodes, hidempotent⟩ := decodes_event call
  have hheader : (publication call jobId).message.headers.holds
      (actionConsumers (publication call jobId).routingKey).pytestHeader = false := rfl
  have hbody : (actionConsumers (publication call jobId).routingKey).decodes
      (publication call jobId).message.body = true := hdecodes
  have hclaims : (actionConsumers (publication call jobId).routingKey).idempotent = true :=
    hidempotent
  rw [QueueConsumer.claims, hheader, hbody, hclaims, key_publication]
  rfl

/-! ## Claims that are taken -/

section Taken

variable {β : Type} {consumers : String → QueueConsumer β} {s s' : ConsumerState β}

/-- Some delivery of the message id has called its handler, or was cut off when it had just
claimed. -/
def Taken (key : String) (s : ConsumerState β) : Prop :=
  ∃ δ ∈ s.deliveries, s.key δ = some key ∧ (δ.started = true ∨ δ.cut = true)

/-- What is claimed was claimed by a delivery of the id, and only such a claim turns a delivery
away. -/
structure TakenInv (s : ConsumerState β) : Prop where
  consumer : ConsumerInv s
  claims : ∀ key ∈ s.claims, Taken key s
  turnedAway : ∀ δ ∈ s.deliveries, δ.phase = .returned .duplicate ∨ δ.phase = .acked .duplicate →
    ∃ key, s.key δ = some key ∧ Taken key s

theorem Taken.step {key : String} {l : ConsumerLabel β} (hinv : ConsumerInv s) (h : Taken key s)
    (hs : consumerStep consumers s l = some s') : Taken key s' :=
  hinv.exists_step (fun _ _ hnext hδ ↦ hδ.imp hnext.started hnext.cut) h hs

theorem TakenInv.step {l : ConsumerLabel β} (h : TakenInv s)
    (hs : consumerStep consumers s l = some s') : TakenInv s' := by
  have hkeep : ∀ key, Taken key s → Taken key s' := fun key ht ↦ ht.step h.consumer hs
  refine ⟨h.consumer.step hs, ?_, ?_⟩
  · intro key hkey
    cases l with
    | publish m =>
        cases hs
        exact hkeep key (h.claims key hkey)
    | deliver event =>
        simp only [consumerStep] at hs
        split at hs
        · cases hs
          exact hkeep key (h.claims key hkey)
        · cases hs
    | act d l =>
        obtain ⟨δ, p, δ', claims, hd, hp, hstep, rfl⟩ := consumerStep_act hs
        rcases deliveryStep_claims hstep hkey with hkey | ⟨hmessage, htaken⟩
        · exact hkeep key (h.claims key hkey)
        · refine ⟨δ', mem_set_self hd, ?_, htaken⟩
          simp only [ConsumerState.key, (deliveryStep_next hstep).event, hp, Option.bind_some,
            hmessage]
  · intro x hx hphase
    cases l with
    | publish m =>
        cases hs
        obtain ⟨key, hkey, ht⟩ := h.turnedAway x hx hphase
        exact ⟨key, by rwa [key_publish (h.consumer.published x hx)], hkeep key ht⟩
    | deliver event =>
        simp only [consumerStep] at hs
        split at hs
        · cases hs
          rcases List.mem_append.mp hx with hx | hx
          · obtain ⟨key, hkey, ht⟩ := h.turnedAway x hx hphase
            exact ⟨key, hkey, hkeep key ht⟩
          · rw [List.mem_singleton.mp hx] at hphase
            simp at hphase
        · cases hs
    | act d l =>
        obtain ⟨δ, p, δ', claims, hd, hp, hstep, rfl⟩ := consumerStep_act hs
        rcases List.mem_or_eq_of_mem_set hx with hx | rfl
        · obtain ⟨key, hkey, ht⟩ := h.turnedAway x hx hphase
          exact ⟨key, hkey, hkeep key ht⟩
        · have hkey : s.key x = s.key δ := by
            simp only [ConsumerState.key, (deliveryStep_next hstep).event]
          rcases deliveryStep_duplicate hstep hphase with hδ | ⟨key, hmem, hmessage⟩
          · obtain ⟨key, hkey', ht⟩ := h.turnedAway δ (List.mem_of_getElem? hd) (.inl hδ)
            exact ⟨key, hkey.trans hkey', hkeep key ht⟩
          · refine ⟨key, ?_, hkeep key (h.claims key hmem)⟩
            refine hkey.trans ?_
            simp only [ConsumerState.key, hp, Option.bind_some, hmessage]

theorem takenInv_empty : TakenInv ({} : ConsumerState β) := by
  refine ⟨⟨?_, ?_⟩, ?_, ?_⟩ <;> intro x hx <;> cases hx

end Taken

/-! ## Swallowed events -/

/-- No event is swallowed as a duplicate: where a delivery was turned away and acknowledged, the
handler has been called for a delivery of the same event (or that delivery was cut off when it
had claimed, which is the bot dying and not a duplicate). -/
def NoneSwallowed (s : ConsumerState ActionEvent) : Prop :=
  ∀ δ ∈ s.deliveries, δ.phase = .acked .duplicate →
    ∃ δ' ∈ s.deliveries, δ'.event = δ.event ∧ (δ'.started = true ∨ δ'.cut = true)

/-- The events of a sequence of calls, each with the job id of its publication. -/
def publications (calls : List (Call × String)) : List (Published ActionEvent) :=
  calls.map fun c ↦ publication c.1 c.2

section Runs

variable {calls : List (Call × String)} {s : ConsumerState ActionEvent}

/-- Keys are distinct exactly when targets are. -/
theorem keys_nodup_iff (calls : List (Call × String)) :
    (calls.map fun c ↦ c.1.idempotencyKey).Nodup ↔ (calls.map fun c ↦ c.1.target).Nodup := by
  rw [List.Nodup, List.Nodup, List.pairwise_map, List.pairwise_map]
  exact List.Pairwise.iff fun _ _ ↦ not_congr idempotencyKey_eq_iff

/-- The id of a delivery is the key of a call. -/
theorem key_eq_some_iff (hs : s.published = publications calls) (δ : Delivery) (key : String) :
    s.key δ = some key ↔ (calls.map fun c ↦ c.1.idempotencyKey)[δ.event]? = some key := by
  rw [ConsumerState.key, hs, publications, List.getElem?_map, List.getElem?_map]
  cases calls[δ.event]? with
  | none => simp
  | some c => simp only [Option.map_some, Option.bind_some, key_publication]

/-- Under distinct keys a delivery is turned away by a claim of its own event. -/
theorem TakenInv.noneSwallowed (h : TakenInv s) (hs : s.published = publications calls)
    (hnodup : (calls.map fun c ↦ c.1.idempotencyKey).Nodup) : NoneSwallowed s := by
  intro δ hδ hphase
  obtain ⟨key, hkey, δ', hδ', hkey', htaken⟩ := h.turnedAway δ hδ (.inr hphase)
  rw [key_eq_some_iff hs] at hkey hkey'
  refine ⟨δ', hδ', ?_, htaken⟩
  have hlt : δ'.event < (calls.map fun c ↦ c.1.idempotencyKey).length :=
    (List.getElem?_eq_some_iff.mp hkey').1
  exact (List.getElem?_inj hlt hnodup).mp (hkey'.trans hkey.symm)

/-- The calls publish one after the other. -/
theorem run_publish (ms : List (Published ActionEvent)) (s : ConsumerState ActionEvent) :
    Run (ofStep (consumerStep actionConsumers)) s (ms.map .publish)
      { s with published := s.published ++ ms } := by
  induction ms generalizing s with
  | nil => simp
  | cons m ms ih =>
      refine .cons rfl ?_
      have h := ih { s with published := s.published ++ [m] }
      rwa [List.append_assoc, List.singleton_append] at h

/-- The events published at `i` and `j` are delivered one after the other, the first handled. -/
def deliverBoth (i j : Nat) : List (ConsumerLabel ActionEvent) :=
  [.deliver i, .act 0 .enter, .act 0 .finish, .act 0 .settle, .deliver j, .act 1 .enter,
    .act 1 .settle]

/-- Of two events under one key the second is turned away. -/
theorem run_deliverBoth {i j : Nat} {a b : Call × String} (hi : calls[i]? = some a)
    (hj : calls[j]? = some b) (hkey : a.1.idempotencyKey = b.1.idempotencyKey) :
    Run (ofStep (consumerStep actionConsumers)) { published := publications calls }
      (deliverBoth i j)
      { published := publications calls
        claims := [a.1.idempotencyKey]
        deliveries :=
          [{ event := i, phase := .acked .handled, started := true, handled := true },
            { event := j, phase := .acked .duplicate }] } := by
  have hpi : (publications calls)[i]? = some (publication a.1 a.2) := by
    rw [publications, List.getElem?_map, hi, Option.map_some]
  have hpj : (publications calls)[j]? = some (publication b.1 b.2) := by
    rw [publications, List.getElem?_map, hj, Option.map_some]
  have hlti : i < (publications calls).length := (List.getElem?_eq_some_iff.mp hpi).1
  have hltj : j < (publications calls).length := (List.getElem?_eq_some_iff.mp hpj).1
  have hfirst (δ : Delivery) :
      (actionConsumers (publication a.1 a.2).routingKey).enter (publication a.1 a.2).message [] δ =
        ({ δ with phase := .running (some a.1.idempotencyKey), started := true },
          [a.1.idempotencyKey]) := by
    rw [enter_of_claims (claims_publication a.1 a.2), if_neg List.not_mem_nil]
  have hsecond (δ : Delivery) :
      (actionConsumers (publication b.1 b.2).routingKey).enter (publication b.1 b.2).message
          [a.1.idempotencyKey] δ =
        ({ δ with phase := .returned .duplicate }, [a.1.idempotencyKey]) := by
    rw [enter_of_claims (claims_publication b.1 b.2), hkey, if_pos List.mem_cons_self]
  have hstep₁ (δ : Delivery) (hδ : δ.phase = .delivered) :
      deliveryStep (actionConsumers (publication a.1 a.2).routingKey) (publication a.1 a.2).message
          [] δ .enter =
        some ({ δ with phase := .running (some a.1.idempotencyKey), started := true },
          [a.1.idempotencyKey]) := by
    rw [deliveryStep, if_pos hδ, hfirst]
  have hstep₂ (δ : Delivery) (hδ : δ.phase = .delivered) :
      deliveryStep (actionConsumers (publication b.1 b.2).routingKey) (publication b.1 b.2).message
          [a.1.idempotencyKey] δ .enter =
        some ({ δ with phase := .returned .duplicate }, [a.1.idempotencyKey]) := by
    rw [deliveryStep, if_pos hδ, hsecond]
  refine .cons (if_pos hlti) ?_
  refine .cons (consumerStep_act_of rfl hpi (hstep₁ _ rfl)) ?_
  refine .cons (consumerStep_act_of rfl hpi rfl) ?_
  refine .cons (consumerStep_act_of rfl hpi rfl) ?_
  refine .cons (if_pos hltj) ?_
  refine .cons (consumerStep_act_of rfl hpj (hstep₂ _ rfl)) ?_
  refine .cons (consumerStep_act_of rfl hpj rfl) ?_
  exact .nil _

end Runs

/-- **The calls carry distinct keys, and the bot calls its handler for the event of each in
every order of deliveries and redeliveries, exactly when no completion is judged twice and no
thread is reset twice.** -/
theorem events_consumed_iff (calls : List (Call × String)) :
    ((calls.map fun c ↦ c.1.idempotencyKey).Nodup ↔ (calls.map fun c ↦ c.1.target).Nodup) ∧
      ((∀ ls s, Run (ofStep (consumerStep actionConsumers)) {} ls s →
          s.published = publications calls → NoneSwallowed s) ↔
        (calls.map fun c ↦ c.1.target).Nodup) := by
  refine ⟨keys_nodup_iff calls, ?_, ?_⟩
  · intro h
    by_contra hdup
    rw [List.nodup_iff_getElem?_ne_getElem?] at hdup
    push Not at hdup
    obtain ⟨i, j, hij, hj, heq⟩ := hdup
    rw [List.length_map] at hj
    have hi : i < calls.length := hij.trans hj
    rw [List.getElem?_map, List.getElem?_map, List.getElem?_eq_getElem hi,
      List.getElem?_eq_getElem hj] at heq
    have hkey := idempotencyKey_eq_iff.mpr (Option.some.inj heq)
    have hrun := (run_publish (publications calls) {}).append
      (run_deliverBoth (List.getElem?_eq_getElem hi) (List.getElem?_eq_getElem hj) hkey)
    obtain ⟨δ', hδ', hevent, htaken⟩ := h _ _ hrun rfl { event := j, phase := .acked .duplicate }
      (List.mem_cons_of_mem _ List.mem_cons_self) rfl
    rcases List.mem_cons.mp hδ' with rfl | hδ'
    · exact absurd hevent (Nat.ne_of_lt hij)
    · rw [List.mem_singleton.mp hδ'] at htaken
      simp at htaken
  · intro hnodup ls s hrun hs
    have hinv : TakenInv s := hrun.invariant (fun _ _ _ h hs ↦ h.step hs) takenInv_empty
    exact hinv.noneSwallowed hs ((keys_nodup_iff calls).mpr hnodup)

/-- A completion is rejected and then verified after all. -/
def rejectThenVerify : List (Call × String) :=
  [(.verifyCompletion 7 { verifiedBy := 1, verified := false, reason := some "No video" }, "a"),
    (.verifyCompletion 7 { verifiedBy := 1, verified := true, reason := none }, "b")]

/-- The bot handles the rejection and drops the verification. -/
theorem rejectThenVerify_swallowed :
    ∃ ls s, Run (ofStep (consumerStep actionConsumers)) {} ls s ∧
      s.published = publications rejectThenVerify ∧ ¬ NoneSwallowed s := by
  have hfirst : rejectThenVerify[0]? = some (rejectThenVerify[0]) := rfl
  have hsecond : rejectThenVerify[1]? = some (rejectThenVerify[1]) := rfl
  have hboth := run_deliverBoth hfirst hsecond rfl
  refine ⟨_, _, (run_publish (publications rejectThenVerify) {}).append hboth, rfl, ?_⟩
  intro h
  obtain ⟨δ', hδ', hevent, htaken⟩ := h { event := 1, phase := .acked .duplicate }
    (List.mem_cons_of_mem _ List.mem_cons_self) rfl
  rcases List.mem_cons.mp hδ' with rfl | hδ'
  · exact absurd hevent (by decide)
  · rw [List.mem_singleton.mp hδ'] at htaken
    simp at htaken

end Genjishimada.Bot
