import Genjishimada.Library.Program
import Mathlib.Data.List.Basic

/-!
# `services/base.py`: the world a service runs in and `publish_message`

A service changes a database `δ` and hands messages to the broker.  The database
of the caller's connection is `World.db`; `public.jobs` is written by
`publish_message` on a connection of its own, so it is a separate field that no
caller's transaction takes back, and neither is a message once it is handed over.

The pattern of broker and database failures inside `publish_message` is an input:
`World.faults` says, publish attempt by publish attempt, which exception each of
its three await points raises.
-/

namespace Genjishimada.Services

open Genjishimada.Library

/-- Exceptions of the infrastructure below the services. -/
inductive InfraError where
  /-- `asyncpg.exceptions.PostgresError`. -/
  | postgresError
  /-- `aio_pika.exceptions.AMQPError`. -/
  | amqpError
  /-- Any other `Exception`: a closed pool, a timeout. -/
  | other
deriving DecidableEq, Repr

/-- What a service raises; `ε` are the domain exceptions of the service. -/
inductive Failure (ε : Type) where
  | infra (e : InfraError)
  | valueError (message : String)
  | runtimeError (message : String)
  | keyError
  | validationError
  | domain (e : ε)
deriving DecidableEq, Repr

/-- The routing keys the services publish under. -/
inductive RoutingKey where
  | completionAutoverificationFailed
  | completionSubmission
  | completionUpvote
  | completionVerification
  | completionVerificationDelete
  | mapEditCreated
  | mapEditResolved
  | newsfeedCreate
  | notificationDelivery
  | playtestApprove
  | playtestCreate
  | playtestForceAccept
  | playtestForceDeny
  | playtestReset
  | playtestVoteCast
  | playtestVoteRemove
  | tournamentCompletionCreated
  | tournamentResults
  | tournamentRollover
  | tournamentVerificationChanged
  | xpGrant
deriving DecidableEq, Repr

/-- `IGNORE_IDEMPOTENCY`: the routing keys published without an idempotency key. -/
def ignoreIdempotency : List RoutingKey :=
  [.completionUpvote, .completionVerificationDelete, .notificationDelivery, .playtestVoteCast,
    .playtestVoteRemove, .xpGrant, .completionAutoverificationFailed]

/-- The idempotency keys of the modelled services, by the text they render to. -/
inductive IdempotencyKey where
  /-- `tournament:rollover:{edition_id}:start` -/
  | tournamentRolloverStart (editionId : Nat)
  /-- `tournament:rollover:{edition_id}` -/
  | tournamentRollover (editionId : Nat)
  /-- `tournament:active-reroll:{cycle_id}` -/
  | tournamentActiveReroll (cycleId : Nat)
  /-- `tournament:results:{edition_id}` -/
  | tournamentResults (editionId : Nat)
  /-- `tournament:verify:{tournament_completion_id}` -/
  | tournamentVerify (tournamentCompletionId : Nat)
  /-- `tournament:reject:{tournament_completion_id}` -/
  | tournamentReject (tournamentCompletionId : Nat)
  /-- `tournament:submission:{user_id}:{tc_id}` -/
  | tournamentSubmission (userId tcId : Nat)
  /-- `completion:submission:{user_id}:{completion_id}` -/
  | completionSubmission (userId completionId : Nat)
  /-- `completion:verify:{record_id}` -/
  | completionVerify (recordId : Nat)
deriving DecidableEq, Repr

/-- The `message_id` of a message: the idempotency key, or else the job id. -/
inductive MessageId where
  | key (k : IdempotencyKey)
  | job (id : Nat)
deriving DecidableEq, Repr

/-- A message handed to the broker's default exchange. -/
structure Message (β : Type) where
  routingKey : RoutingKey
  body : β
  correlationId : Nat
  messageId : MessageId
deriving DecidableEq, Repr

/-- A row of `public.jobs`. -/
structure Job where
  id : Nat
  action : RoutingKey
deriving DecidableEq, Repr

inductive JobStatus where
  | processing
  | succeeded
  | failed
  | timeout
  | queued
deriving DecidableEq, Repr

structure JobStatusResponse where
  id : Nat
  status : JobStatus
  errorCode : Option String := none
  errorMsg : Option String := none
deriving DecidableEq, Repr

/-- The request headers a publish looks at: whether `X-PYTEST-ENABLED` is `"1"`. -/
structure Headers where
  pytestEnabled : Bool := false
deriving DecidableEq, Repr

/-- What the three await points of one publish attempt raise, if anything. -/
structure PublishFaults where
  /-- Taking a channel from `mq_channel_pool`. -/
  acquireChannel : Option InfraError := none
  /-- Taking a connection and inserting the `public.jobs` row. -/
  insertJob : Option InfraError := none
  /-- `default_exchange.publish`. -/
  publish : Option InfraError := none
deriving DecidableEq, Repr

/-- The world of a service over a database `δ`, publishing bodies of type `β`. -/
structure World (δ β : Type) where
  db : δ
  broker : List (Message β) := []
  jobs : List Job := []
  /-- The next `uuid4()`. -/
  uuid : Nat := 0
  /-- The faults of the publish attempts still to come; a list that has run out
  injects none. -/
  faults : List PublishFaults := []

abbrev Service (δ β ε : Type) := EStateM (Failure ε) (World δ β)

variable {δ β ε α : Type}

/-- A query on the caller's connection. -/
def query (q : δ → α) : Service δ β ε α := do return q (← get).db

/-- A statement on the caller's connection that changes the database. -/
def execute (f : δ → δ) : Service δ β ε PUnit := modify fun w ↦ { w with db := f w.db }

/-- Repository calls that neither raise nor publish, on the caller's connection. -/
def statements (x : StateM δ α) : Service δ β ε α := do
  let w ← get
  let (a, db) := x w.db
  set { w with db := db }
  return a

/-- What follows a query goes on with what it has read. -/
theorem query_bind_apply {γ : Type} (q : δ → α) (f : α → Service δ β ε γ) (w : World δ β) :
    (query q >>= f) w = f (q w.db) w := rfl

/-- What follows a statement sees the database it leaves. -/
theorem execute_bind_apply {γ : Type} (g : δ → δ) (f : PUnit → Service δ β ε γ) (w : World δ β) :
    (execute g >>= f) w = f ⟨⟩ { w with db := g w.db } := rfl

/-- `async with pool.acquire() as conn, conn.transaction()`. -/
def inTransaction (x : Service δ β ε α) : Service δ β ε α :=
  transaction (fun before after ↦ { after with db := before.db }) x

/-- `uuid.uuid4()`. -/
def uuid4 : Service δ β ε Nat := modifyGet fun w ↦ (w.uuid, { w with uuid := w.uuid + 1 })

/-- The faults of the attempt being made. -/
def nextFaults : Service δ β ε PublishFaults :=
  modifyGet fun w ↦ (w.faults.head?.getD {}, { w with faults := w.faults.tail })

/-- An await point that may raise. -/
def await : Option InfraError → Service δ β ε PUnit
  | none => pure ⟨⟩
  | some e => throw (.infra e)

/-- `except (PostgresError, AMQPError)`. -/
def caught : InfraError → Bool
  | .postgresError | .amqpError => true
  | .other => false

/-- The `try` block of `publish_message`: record the job, hand the message over. -/
def recordAndSend (jobId : Nat) (message : Message β) (faults : PublishFaults) :
    Service δ β ε JobStatusResponse :=
  tryCatch (do
      await faults.insertJob
      modify fun w ↦ { w with jobs := w.jobs ++ [⟨jobId, message.routingKey⟩] }
      await faults.publish
      modify fun w ↦ { w with broker := w.broker ++ [message] }
      return { id := jobId, status := .queued })
    fun e ↦ match e with
      | .infra e =>
          -- the error is logged and reported in the return value, not raised
          if caught e then
            return { id := jobId, status := .failed, errorCode := some ""
                     errorMsg := some "Failed to send message." }
          else throw (.infra e)
      | e => throw e

/-- `BaseService.publish_message`. -/
def publishMessage (routingKey : RoutingKey) (data : β) (headers : Headers)
    (idempotencyKey : Option IdempotencyKey) : Service δ β ε JobStatusResponse := do
  if routingKey ∉ ignoreIdempotency ∧ idempotencyKey = none then
    throw (.valueError "idempotency_key required for routing_key")
  if headers.pytestEnabled then
    return { id := ← uuid4, status := .succeeded }
  let jobId ← uuid4
  let faults ← nextFaults
  await faults.acquireChannel
  recordAndSend jobId
    { routingKey := routingKey, body := data, correlationId := jobId
      messageId := (idempotencyKey.map MessageId.key).getD (.job jobId) } faults

/-! ## What one attempt does -/

/-- How an attempt ends, read off its faults. -/
inductive Attempt where
  | raised (e : InfraError)
  | swallowed
  | delivered
deriving DecidableEq, Repr

/-- The attempt ends in an exception of `publish_message`. -/
def Attempt.isRaised : Attempt → Bool
  | raised _ => true
  | _ => false

/-- An exception inside the `try` block is swallowed when it is caught. -/
def Attempt.ofError (e : InfraError) : Attempt := if caught e then .swallowed else .raised e

namespace PublishFaults

/-- The end of the attempt with these faults: the first await point that raises
decides it, and only the two inside the `try` block are covered by the `except`. -/
def attempt (f : PublishFaults) : Attempt :=
  match f.acquireChannel, f.insertJob, f.publish with
  | some e, _, _ => .raised e
  | none, some e, _ => .ofError e
  | none, none, some e => .ofError e
  | none, none, none => .delivered

/-- The attempt gets as far as its `public.jobs` row. -/
def jobInserted (f : PublishFaults) : Bool := f.acquireChannel.isNone && f.insertJob.isNone

end PublishFaults

namespace World

variable (w : World δ β)

/-- The faults of the next attempt. -/
def nextFaults : PublishFaults := w.faults.head?.getD {}

/-- The world after the next attempt, the message itself apart. -/
def attempted (routingKey : RoutingKey) : World δ β :=
  { w with
    uuid := w.uuid + 1
    faults := w.faults.tail
    jobs := if w.nextFaults.jobInserted then w.jobs ++ [⟨w.uuid, routingKey⟩] else w.jobs }

/-- The message the next attempt sends. -/
def message (routingKey : RoutingKey) (data : β) (idempotencyKey : Option IdempotencyKey) :
    Message β :=
  { routingKey := routingKey, body := data, correlationId := w.uuid
    messageId := (idempotencyKey.map MessageId.key).getD (.job w.uuid) }

/-- The world once a message has been handed to the broker. -/
def handedOver (m : Message β) : World δ β := { w with broker := w.broker ++ [m] }

@[simp] theorem attempted_db (k : RoutingKey) : (w.attempted k).db = w.db := rfl

@[simp] theorem attempted_broker (k : RoutingKey) : (w.attempted k).broker = w.broker := rfl

@[simp] theorem attempted_faults (k : RoutingKey) : (w.attempted k).faults = w.faults.tail := rfl

@[simp] theorem handedOver_db (m : Message β) : (w.handedOver m).db = w.db := rfl

@[simp] theorem handedOver_broker (m : Message β) :
    (w.handedOver m).broker = w.broker ++ [m] := rfl

@[simp] theorem handedOver_faults (m : Message β) : (w.handedOver m).faults = w.faults := rfl

end World

/-- The three ends of `publish_message`: it raises, it returns a failed job without
having sent anything, or it returns a queued job having sent the message. -/
theorem publishMessage_apply (routingKey : RoutingKey) (data : β)
    (idempotencyKey : Option IdempotencyKey)
    (hk : routingKey ∈ ignoreIdempotency ∨ idempotencyKey ≠ none) (w : World δ β) :
    (publishMessage routingKey data {} idempotencyKey : Service δ β ε JobStatusResponse) w =
      match w.nextFaults.attempt with
      | .raised e => .error (.infra e) (w.attempted routingKey)
      | .swallowed =>
          .ok { id := w.uuid, status := .failed, errorCode := some ""
                errorMsg := some "Failed to send message." } (w.attempted routingKey)
      | .delivered =>
          .ok { id := w.uuid, status := .queued }
            ((w.attempted routingKey).handedOver (w.message routingKey data idempotencyKey)) := by
  have hkey : ¬ (routingKey ∉ ignoreIdempotency ∧ idempotencyKey = none) := by tauto
  have hrun : (publishMessage routingKey data {} idempotencyKey : Service δ β ε _) w =
      (do
        await w.nextFaults.acquireChannel
        recordAndSend w.uuid (w.message routingKey data idempotencyKey) w.nextFaults)
        { w with uuid := w.uuid + 1, faults := w.faults.tail } := by
    rw [publishMessage, if_neg hkey]
    rfl
  rw [hrun, World.attempted]
  rcases w.nextFaults with ⟨_ | _, _ | e, _ | e'⟩
  · rfl
  · cases e' <;> rfl
  · cases e <;> rfl
  · cases e <;> rfl
  all_goals rfl

/-- However `x` ends, `R` relates the database before to the one after. -/
def Moves (R : δ → δ → Prop) (x : Service δ β ε α) : Prop := ∀ w, R w.db (final (x w)).db

namespace Moves

variable {R : δ → δ → Prop} {γ : Type}

theorem pure (hrefl : ∀ db, R db db) (a : α) : Moves R (Pure.pure a : Service δ β ε α) :=
  fun w ↦ hrefl w.db

theorem throw (hrefl : ∀ db, R db db) (e : Failure ε) : Moves R (throw e : Service δ β ε α) :=
  fun w ↦ hrefl w.db

theorem bind (htrans : ∀ a b c, R a b → R b c → R a c) {x : Service δ β ε α}
    {f : α → Service δ β ε γ} (hx : Moves R x) (hf : ∀ a, Moves R (f a)) : Moves R (x >>= f) := by
  intro w
  have hbind := final_bind (R := fun w w' : World δ β ↦ R w.db w'.db) (x := x) (f := f) (s := w)
    (fun _ _ _ h h' ↦ htrans _ _ _ h h') (hx w) (fun a w' _ ↦ hf a w')
  exact hbind

/-- A service that has read the database goes on knowing what it has read. -/
theorem query_bind {q : δ → α} {f : α → Service δ β ε γ}
    (hf : ∀ w, R w.db (final (f (q w.db) w)).db) : Moves R (query q >>= f) := hf

theorem execute {f : δ → δ} (hf : ∀ db, R db (f db)) :
    Moves R (execute f : Service δ β ε PUnit) := fun w ↦ hf w.db

theorem statements {x : StateM δ α} (hx : Steps R x) :
    Moves R (statements x : Service δ β ε α) := fun w ↦ hx w.db

theorem inTransaction (hrefl : ∀ db, R db db) {x : Service δ β ε α} (hx : Moves R x) :
    Moves R (inTransaction x) := by
  intro w
  have hw := hx w
  rw [Services.inTransaction]
  cases h : x w with
  | ok a w' =>
      rw [transaction_of_ok h]
      rw [h] at hw
      exact hw
  | error e w' =>
      rw [transaction_of_error h]
      exact hrefl w.db

end Moves

/-- `x` leaves the database alone. -/
abbrev KeepsDb (x : Service δ β ε α) : Prop := Moves (fun db db' ↦ db' = db) x

namespace KeepsDb

variable {γ : Type}

theorem pure (a : α) : KeepsDb (Pure.pure a : Service δ β ε α) := fun _ ↦ rfl

theorem throw (e : Failure ε) : KeepsDb (throw e : Service δ β ε α) := fun _ ↦ rfl

theorem bind {x : Service δ β ε α} {f : α → Service δ β ε γ} (hx : KeepsDb x)
    (hf : ∀ a, KeepsDb (f a)) : KeepsDb (x >>= f) := Moves.bind (fun _ _ _ h h' ↦ h'.trans h) hx hf

/-- What leaves the database alone may be left out. -/
theorem db_bind {f : α → Service δ β ε γ} (hf : ∀ a, KeepsDb (f a)) (x : Service δ β ε α)
    (w : World δ β) : (final ((x >>= f) w)).db = (final (x w)).db := by
  rw [bind_apply]
  cases x w with
  | ok a w' => exact hf a w'
  | error e w' => rfl

end KeepsDb

/-- Whether a call has raised. -/
def raises (r : EStateM.Result (Failure ε) (World δ β) α) : Bool :=
  match r with
  | .ok _ _ => false
  | .error _ _ => true

theorem raises_bind_of_ok {γ : Type} {x : Service δ β ε α} {f : α → Service δ β ε γ}
    {w : World δ β} (hf : ∀ a w', raises (f a w') = false) : raises ((x >>= f) w) = raises (x w) := by
  rw [bind_apply]
  cases x w with
  | ok a w' => exact hf a w'
  | error e w' => rfl

theorem raises_inTransaction (x : Service δ β ε α) (w : World δ β) :
    raises (inTransaction x w) = raises (x w) := by
  rw [inTransaction, transaction]
  cases x w <;> rfl

/-- Two runs end alike: both return the same value or both raise, in databases related by
`R`. -/
def EndAlike (R : δ → δ → Prop) :
    EStateM.Result (Failure ε) (World δ β) α → EStateM.Result (Failure ε) (World δ β) α → Prop
  | .ok a w, .ok a' w' => a = a' ∧ R w.db w'.db
  | .error _ w, .error _ w' => R w.db w'.db
  | _, _ => False

theorem EndAlike.final {R : δ → δ → Prop} {r r' : EStateM.Result (Failure ε) (World δ β) α}
    (h : EndAlike R r r') : R (final r).db (final r').db := by
  cases r with
  | ok a w =>
      cases r' with
      | ok a' w' => exact h.2
      | error e' w' => exact h.elim
  | error e w =>
      cases r' with
      | ok a' w' => exact h.elim
      | error e' w' => exact h

/-- Run from databases related by `R`, `x` ends alike. -/
def Respects (R : δ → δ → Prop) (x : Service δ β ε α) : Prop :=
  ∀ w w' : World δ β, R w.db w'.db → EndAlike R (x w) (x w')

namespace Respects

variable {R : δ → δ → Prop} {γ : Type}

theorem pure (a : α) : Respects R (Pure.pure a : Service δ β ε α) := fun _ _ h ↦ ⟨rfl, h⟩

theorem throw (e : Failure ε) : Respects R (throw e : Service δ β ε α) := fun _ _ h ↦ h

theorem query {q : δ → α} (hq : ∀ db db', R db db' → q db = q db') :
    Respects R (query q : Service δ β ε α) := fun _ _ h ↦ ⟨hq _ _ h, h⟩

theorem execute {f : δ → δ} (hf : ∀ db db', R db db' → R (f db) (f db')) :
    Respects R (execute f : Service δ β ε PUnit) := fun _ _ h ↦ ⟨rfl, hf _ _ h⟩

theorem statements {x : StateM δ α}
    (hx : ∀ db db', R db db' → (x db).1 = (x db').1 ∧ R (x db).2 (x db').2) :
    Respects R (statements x : Service δ β ε α) := fun _ _ h ↦ hx _ _ h

theorem bind {x : Service δ β ε α} {f : α → Service δ β ε γ} (hx : Respects R x)
    (hf : ∀ a, Respects R (f a)) : Respects R (x >>= f) := by
  intro w w' h
  have hends := hx w w' h
  rw [bind_apply, bind_apply]
  cases hw : x w with
  | ok a w₁ =>
      cases hw' : x w' with
      | ok a' w₁' =>
          rw [hw, hw'] at hends
          obtain ⟨rfl, hdb⟩ := hends
          exact hf a w₁ w₁' hdb
      | error e' w₁' =>
          rw [hw, hw'] at hends
          exact hends.elim
  | error e w₁ =>
      cases hw' : x w' with
      | ok a' w₁' =>
          rw [hw, hw'] at hends
          exact hends.elim
      | error e' w₁' =>
          rw [hw, hw'] at hends
          exact hends

/-- What is read may differ, as long as what follows makes up for it. -/
theorem query_bind {S : α → α → Prop} {q : δ → α} {f : α → Service δ β ε γ}
    (hq : ∀ db db', R db db' → S (q db) (q db'))
    (hf : ∀ a a', S a a' → ∀ w w', R w.db w'.db → EndAlike R (f a w) (f a' w')) :
    Respects R (Services.query q >>= f) :=
  fun w w' h ↦ hf _ _ (hq _ _ h) w w' h

theorem inTransaction {x : Service δ β ε α} (hx : Respects R x) :
    Respects R (inTransaction x) := by
  intro w w' h
  have hends := hx w w' h
  rw [Services.inTransaction]
  cases hw : x w with
  | ok a w₁ =>
      cases hw' : x w' with
      | ok a' w₁' =>
          rw [hw, hw'] at hends
          rw [transaction_of_ok hw, transaction_of_ok hw']
          exact hends
      | error e' w₁' =>
          rw [hw, hw'] at hends
          exact hends.elim
  | error e w₁ =>
      cases hw' : x w' with
      | ok a' w₁' =>
          rw [hw, hw'] at hends
          exact hends.elim
      | error e' w₁' =>
          rw [transaction_of_error hw, transaction_of_error hw']
          exact h

end Respects

/-- Publishing leaves the database of the caller alone. -/
theorem publishMessage_keepsDb (routingKey : RoutingKey) (data : β) (headers : Headers)
    (idempotencyKey : Option IdempotencyKey) :
    KeepsDb (publishMessage routingKey data headers idempotencyKey : Service δ β ε _) := by
  intro w
  by_cases hk : routingKey ∉ ignoreIdempotency ∧ idempotencyKey = none
  · rw [publishMessage, if_pos hk]
    rfl
  · obtain ⟨pytestEnabled⟩ := headers
    cases pytestEnabled with
    | true =>
        rw [publishMessage, if_neg hk]
        rfl
    | false =>
        have happly := publishMessage_apply (ε := ε) routingKey data idempotencyKey (by tauto) w
        rw [happly]
        cases w.nextFaults.attempt <;> rfl

end Genjishimada.Services
