import Genjishimada.Bot.Message
import Mathlib.Data.List.Perm.Basic
import Mathlib.Data.List.TakeWhile

/-!
# The sweep of a dead-letter queue

`RabbitHandler._process_one_dlq` alerts on the messages of `<queue>.dlq`, republishes
each with a header that says so, and leaves the ones that already carry the header
alone.  The queue is a list: `get` takes its head, `nack(requeue=True)` puts a message
back where it stood, `publish` appends.

A message that is put back stands at the head again, so the next `get` returns the same
message: the sweep never sees what stands behind the first flagged message
(`sweepLoop_flagged`).  It does what it is for exactly on the queues in which
nothing unflagged stands behind a flagged message (`processOneDlq_flagsAll_iff`); what it
never does is lose or duplicate a body (`processOneDlq_bodies`).
-/

namespace Genjishimada.Bot

/-- A dead letter: its body is bytes. -/
abbrev Letter := Message (List UInt8)

/-! ## Flags -/

/-- The module constants of `extensions/rabbit.py`, read from the environment. -/
structure DlqConfig where
  /-- `DLQ_HEADER_KEY` -/
  headerKey : String := "dlq_notified"
  /-- `DLQ_MAX_PER_QUEUE_TICK` -/
  maxPerQueueTick : Int := 5000

/-- `headers.get(DLQ_HEADER_KEY)`: the message has been alerted on. -/
def Letter.flagged (cfg : DlqConfig) (msg : Letter) : Bool := msg.headers.holds cfg.headerKey

/-- The wall clock at the iterations of a sweep, after the epoch. -/
structure Clock where
  time : Nat → Int
  pos : ∀ i, 0 < time i

/-- The message that `_process_one_dlq` publishes for `msg` at `now`. -/
def repub (cfg : DlqConfig) (now : Int) (msg : Letter) : Letter :=
  { msg with
    headers := (msg.headers.set cfg.headerKey (.bool true)).set "dlq_notified_at" (.int now) }

@[simp] theorem repub_body (cfg : DlqConfig) (now : Int) (msg : Letter) :
    (repub cfg now msg).body = msg.body := rfl

/-- A republished message is flagged. -/
theorem repub_flagged (cfg : DlqConfig) {now : Int} (hnow : 0 < now) (msg : Letter) :
    (repub cfg now msg).flagged cfg = true := by
  by_cases hkey : cfg.headerKey = "dlq_notified_at"
  · -- the time stamp overwrites the flag, and is truthy itself
    rw [Letter.flagged, repub, hkey, Headers.holds_set_self]
    exact bne_iff_ne.mpr (Int.ne_of_gt hnow)
  · rw [Letter.flagged, repub, Headers.holds_set_of_ne _ _ hkey, Headers.holds_set_self]
    rfl

/-! ## The alert channel -/

/-- What a sweep raises. -/
inductive SweepError where
  | runtimeError (text : String)
  | assertionError
  | sendFailed
deriving DecidableEq, Repr

/-- A text channel: whether `send` of a text goes through. -/
structure TextChannel where
  send : String → Bool

/-- A guild: what `get_channel(config.channels.updates.dlq_alerts)` returns, when it is a
`TextChannel`. -/
structure Guild where
  dlqAlerts : Option TextChannel

/-- The bot, as a sweep uses it. -/
structure Client where
  guild : Option Guild

/-- The digits of `\xNN`. -/
def hexByte (b : UInt8) : List Char :=
  [Nat.digitChar (b.toNat / 16), Nat.digitChar (b.toNat % 16)]

/-- One byte in the `repr` of a `bytes` object quoted by `quote`. -/
def byteRepr (quote : Char) (b : UInt8) : List Char :=
  let c := Char.ofNat b.toNat
  if c = '\\' ∨ c = quote then ['\\', c]
  else if c = '\t' then ['\\', 't']
  else if c = '\n' then ['\\', 'n']
  else if c = '\r' then ['\\', 'r']
  else if 32 ≤ b.toNat ∧ b.toNat < 127 then [c]
  else '\\' :: 'x' :: hexByte b

/-- `f"{body}"` of a `bytes` object: double quotes only around a body with single ones and
without double ones. -/
def bytesRepr (body : List UInt8) : String :=
  let quote := if body.contains 39 && !body.contains 34 then '"' else '\''
  String.ofList ('b' :: quote :: body.flatMap (byteRepr quote) ++ [quote])

/-- The text of an alert, at most 1999 characters. -/
def alertText (dlqName : String) (msg : Letter) : String :=
  let content := "### " ++ dlqName ++ "\n<@141372217677053952>\n```json\n" ++ bytesRepr msg.body
  (content.take 1996).toString ++ "```"

/-- Alerts on `msg`, or raises. -/
def Client.alert (bot : Client) (dlqName : String) (msg : Letter) : Except SweepError Unit :=
  match bot.guild with
  | none => .error (.runtimeError "Why is there no guild")
  | some guild =>
    match guild.dlqAlerts with
    | none => .error .assertionError
    | some channel => if channel.send (alertText dlqName msg) then .ok () else .error .sendFailed

/-! ## The sweep -/

/-- A dead-letter queue and what a sweep has done: the messages that wait, in order, those
taken and neither acknowledged nor put back, and the messages alerted on. -/
structure Sweep where
  ready : List Letter
  unacked : List Letter := []
  alerted : List Letter := []
  processed : Nat := 0
deriving DecidableEq, Repr

namespace Sweep

/-- `queue.get`: the head, unacknowledged from then on. -/
def get (s : Sweep) : Option (Letter × Sweep) :=
  match s.ready with
  | [] => none
  | msg :: rest => some (msg, { s with ready := rest, unacked := msg :: s.unacked })

/-- `msg.nack(requeue=True)`: back to the position it had. -/
def nack (s : Sweep) (msg : Letter) : Sweep :=
  { s with ready := msg :: s.ready, unacked := s.unacked.erase msg }

/-- `exchange.publish`, routed to the queue itself. -/
def publish (s : Sweep) (msg : Letter) : Sweep := { s with ready := s.ready ++ [msg] }

/-- `msg.ack()` -/
def ack (s : Sweep) (msg : Letter) : Sweep := { s with unacked := s.unacked.erase msg }

/-- `processed += 1` -/
def tick (s : Sweep) : Sweep := { s with processed := s.processed + 1 }

/-- The bodies in the queue, those taken from it included. -/
def bodies (s : Sweep) : List (List UInt8) := (s.ready ++ s.unacked).map Message.body

end Sweep

variable (cfg : DlqConfig) (bot : Client) (clock : Clock) (dlqName : String)

/-- One round of the loop on the message `get` returned. -/
def sweepOne (msg : Letter) (s : Sweep) : Sweep × Except SweepError Unit :=
  if msg.flagged cfg then ((s.nack msg).tick, .ok ())
  else
    match bot.alert dlqName msg with
    | .error e => (s, .error e)
    | .ok () =>
      (((Sweep.publish { s with alerted := s.alerted ++ [msg] }
        (repub cfg (clock.time s.processed) msg)).ack msg).tick, .ok ())

/-- `while processed < cap`, with the rounds that are left. -/
def sweepLoop : Nat → Sweep → Sweep × Except SweepError Unit
  | 0, s => (s, .ok ())
  | n + 1, s =>
    match s.get with
    | none => (s, .ok ())
    | some (msg, s') =>
      match sweepOne cfg bot clock dlqName msg s' with
      | (s'', .error e) => (s'', .error e)
      | (s'', .ok ()) => sweepLoop n s''

/-- `_process_one_dlq`; without a queue of that name the passive declare finds nothing. -/
def processOneDlq (baseQueue : String) (queue : Option (List Letter)) :
    Sweep × Except SweepError Nat :=
  match queue with
  | none => ({ ready := [] }, .ok 0)
  | some ready =>
    let cap := min (ready.length : Int) cfg.maxPerQueueTick
    let (s, result) := sweepLoop cfg bot clock (baseQueue ++ ".dlq") cap.toNat { ready := ready }
    (s, result.map fun () ↦ s.processed)

/-! ## What a sweep keeps -/

section Bodies

variable {cfg bot clock dlqName}

/-- Taking a message keeps the bodies. -/
theorem Sweep.bodies_get {s s' : Sweep} {msg : Letter} (h : s.get = some (msg, s')) :
    s'.bodies.Perm s.bodies ∧ msg ∈ s'.unacked := by
  cases hr : s.ready with
  | nil =>
      rw [Sweep.get, hr] at h
      cases h
  | cons m rest =>
      rw [Sweep.get, hr] at h
      cases h
      refine ⟨?_, List.mem_cons_self⟩
      rw [Sweep.bodies, Sweep.bodies, hr]
      exact List.perm_middle.map Message.body

/-- A round puts back what it took, as it was or republished. -/
theorem bodies_sweepOne (cfg : DlqConfig) (bot : Client) (clock : Clock) (dlqName : String)
    {s : Sweep} {msg : Letter} (h : msg ∈ s.unacked) :
    (sweepOne cfg bot clock dlqName msg s).1.bodies.Perm s.bodies := by
  have herase : (msg.body :: (s.unacked.erase msg).map Message.body).Perm
      (s.unacked.map Message.body) := ((List.perm_cons_erase h).symm.map Message.body)
  unfold sweepOne
  split
  · simp only [Sweep.bodies, Sweep.nack, Sweep.tick, List.map_append, List.map_cons]
    exact List.perm_middle.symm.trans (herase.append_left _)
  · split
    · exact List.Perm.refl _
    · simp only [Sweep.bodies, Sweep.publish, Sweep.ack, Sweep.tick, List.map_append,
        List.map_cons, repub_body, List.append_assoc, List.cons_append,
        List.nil_append]
      exact herase.append_left _

theorem bodies_sweepLoop (n : Nat) (s : Sweep) :
    (sweepLoop cfg bot clock dlqName n s).1.bodies.Perm s.bodies := by
  induction n generalizing s with
  | zero => exact List.Perm.refl _
  | succ n ih =>
      rw [sweepLoop]
      split
      · exact List.Perm.refl _
      · next msg s' hget =>
          have hs' := Sweep.bodies_get hget
          have hone := (bodies_sweepOne cfg bot clock dlqName hs'.2).trans hs'.1
          split
          · next heq => rwa [heq] at hone
          · next heq =>
              rw [heq] at hone
              exact (ih _).trans hone

/-- **A sweep loses and duplicates no body**, whatever the queue holds, at whatever cap, and
also when it raises. -/
theorem processOneDlq_bodies (baseQueue : String) (queue : List Letter) :
    (processOneDlq cfg bot clock baseQueue (some queue)).1.bodies.Perm
      (queue.map Message.body) := by
  refine (bodies_sweepLoop _ _).trans ?_
  rw [Sweep.bodies, List.append_nil]

end Bodies

/-! ## What a sweep does to the messages in front of the first flagged one -/

/-- The republications of `us`, from the `i`-th round on. -/
def republished : Nat → List Letter → List Letter
  | _, [] => []
  | i, msg :: us => repub cfg (clock.time i) msg :: republished (i + 1) us

section Rounds

variable {cfg bot clock dlqName} {msg : Letter} {us rest unacked alerted : List Letter}
  {i n : Nat}

/-- A round that alerts. -/
theorem sweepLoop_alert (hmsg : msg.flagged cfg = false) (hbot : bot.alert dlqName msg = .ok ()) :
    sweepLoop cfg bot clock dlqName (n + 1) ⟨msg :: rest, unacked, alerted, i⟩ =
      sweepLoop cfg bot clock dlqName n
        ⟨rest ++ [repub cfg (clock.time i) msg], unacked, alerted ++ [msg], i + 1⟩ := by
  rw [sweepLoop, Sweep.get]
  simp only [sweepOne, hmsg, hbot, Sweep.publish, Sweep.ack, Sweep.tick, Bool.false_eq_true,
    ↓reduceIte, List.erase_cons_head]

/-- A round that raises. -/
theorem sweepLoop_raise {e : SweepError} (hmsg : msg.flagged cfg = false)
    (hbot : bot.alert dlqName msg = .error e) :
    (sweepLoop cfg bot clock dlqName (n + 1) ⟨msg :: rest, unacked, alerted, i⟩).2 = .error e := by
  rw [sweepLoop, Sweep.get]
  simp only [sweepOne, hmsg, hbot, Bool.false_eq_true, ↓reduceIte]

/-- **With a flagged message at the head a sweep does nothing**: it takes the same message
and puts it back until the cap. -/
theorem sweepLoop_flagged (hmsg : msg.flagged cfg = true) :
    sweepLoop cfg bot clock dlqName n ⟨msg :: rest, unacked, alerted, i⟩ =
      (⟨msg :: rest, unacked, alerted, i + n⟩, .ok ()) := by
  induction n generalizing i with
  | zero => rfl
  | succ n ih =>
      rw [sweepLoop, Sweep.get]
      simp only [sweepOne, hmsg, ↓reduceIte, Sweep.nack, Sweep.tick, List.erase_cons_head]
      rw [ih, Nat.add_assoc, Nat.add_comm 1 n]

/-- The unflagged messages at the front are alerted on and republished, in order. -/
theorem sweepLoop_unflagged (hus : ∀ m ∈ us, m.flagged cfg = false)
    (hbot : ∀ m ∈ us, bot.alert dlqName m = .ok ()) :
    sweepLoop cfg bot clock dlqName (us.length + n) ⟨us ++ rest, unacked, alerted, i⟩ =
      sweepLoop cfg bot clock dlqName n
        ⟨rest ++ republished cfg clock i us, unacked, alerted ++ us, i + us.length⟩ := by
  induction us generalizing rest alerted i with
  | nil => simp [republished]
  | cons m us ih =>
      have hlen : (m :: us).length + n = (us.length + n) + 1 := by
        rw [List.length_cons]
        omega
      rw [hlen, List.cons_append,
        sweepLoop_alert (hus m List.mem_cons_self) (hbot m List.mem_cons_self), List.append_assoc,
        ih (fun m' h ↦ hus m' (List.mem_cons_of_mem m h))
          (fun m' h ↦ hbot m' (List.mem_cons_of_mem m h))]
      have hi : i + 1 + us.length = i + (m :: us).length := by
        rw [List.length_cons]
        omega
      simp only [republished, List.append_assoc, List.cons_append, List.nil_append, hi]

/-- A sweep that gets through the unflagged messages at the front could alert on each. -/
theorem alert_of_sweepLoop_ok (hus : ∀ m ∈ us, m.flagged cfg = false)
    (h : (sweepLoop cfg bot clock dlqName (us.length + n)
      ⟨us ++ rest, unacked, alerted, i⟩).2 = .ok ()) :
    ∀ m ∈ us, bot.alert dlqName m = .ok () := by
  induction us generalizing rest alerted i with
  | nil =>
      intro m hm
      cases hm
  | cons m us ih =>
      have hlen : (m :: us).length + n = (us.length + n) + 1 := by
        rw [List.length_cons]
        omega
      rw [hlen, List.cons_append] at h
      have hm := hus m List.mem_cons_self
      cases hbot : bot.alert dlqName m with
      | error e =>
          rw [sweepLoop_raise hm hbot] at h
          cases h
      | ok _ =>
          rw [sweepLoop_alert hm hbot, List.append_assoc] at h
          have hrest := ih (fun m' h' ↦ hus m' (List.mem_cons_of_mem m h')) h
          intro m' hm'
          rcases List.mem_cons.mp hm' with rfl | hm'
          · exact hbot
          · exact hrest m' hm'

end Rounds

/-! ## What a sweep is for -/

/-- `msg'` is `msg` with the flag. -/
def FlaggedCopy (msg msg' : Letter) : Prop :=
  msg'.flagged cfg = true ∧ ∃ now, msg' = repub cfg now msg

/-- What one call of `_process_one_dlq` is for: it returns, it has alerted once on every
message that was unflagged, the queue now holds the flagged ones and a flagged copy of each
of the others, and the bodies are those it held before. -/
structure FlagsAll (queue : List Letter) (r : Sweep × Except SweepError Nat) : Prop where
  returns : ∃ n, r.2 = .ok n
  alerts : r.1.alerted.Perm (queue.filter fun msg ↦ !msg.flagged cfg)
  flags : ∃ copies, List.Forall₂ (FlaggedCopy cfg) (queue.filter fun msg ↦ !msg.flagged cfg) copies ∧
    r.1.ready.Perm (queue.filter (fun msg ↦ msg.flagged cfg) ++ copies)
  bodies : (r.1.ready.map Message.body).Perm (queue.map Message.body)

/-- Nothing unflagged stands behind a flagged message, and the bot can alert on what is
unflagged. -/
structure Sweepable (queue : List Letter) : Prop where
  front : queue.Pairwise fun a b ↦ a.flagged cfg = true → b.flagged cfg = true
  alert : ∀ msg ∈ queue, msg.flagged cfg = false → bot.alert dlqName msg = .ok ()

section Spec

variable {cfg bot clock dlqName} {queue : List Letter}

theorem forall₂_republished (i : Nat) (us : List Letter) :
    List.Forall₂ (FlaggedCopy cfg) us (republished cfg clock i us) := by
  induction us generalizing i with
  | nil => exact .nil
  | cons msg us ih =>
      exact .cons ⟨repub_flagged cfg (clock.pos i) msg, _, rfl⟩ (ih (i + 1))

/-- The messages in front of the first flagged one. -/
def front (cfg : DlqConfig) (queue : List Letter) : List Letter :=
  queue.takeWhile fun msg ↦ !msg.flagged cfg

/-- The first flagged message and what stands behind it. -/
def back (cfg : DlqConfig) (queue : List Letter) : List Letter :=
  queue.dropWhile fun msg ↦ !msg.flagged cfg

@[simp] theorem front_append_back (cfg : DlqConfig) (queue : List Letter) :
    front cfg queue ++ back cfg queue = queue :=
  List.takeWhile_append_dropWhile

theorem flagged_of_mem_front {msg : Letter} (h : msg ∈ front cfg queue) :
    msg.flagged cfg = false := by
  simpa using List.mem_takeWhile_imp h

/-- What stopped the front is flagged. -/
theorem flagged_of_back {msg : Letter} {rest : List Letter} (h : back cfg queue = msg :: rest) :
    msg.flagged cfg = true := by
  have hne : queue.dropWhile (fun m ↦ !m.flagged cfg) ≠ [] := by
    rw [show queue.dropWhile _ = msg :: rest from h]
    exact List.cons_ne_nil _ _
  have hhead := List.head_dropWhile_not (fun m : Letter ↦ !m.flagged cfg) hne
  simpa only [show queue.dropWhile (fun m ↦ !m.flagged cfg) = msg :: rest from h, List.head_cons,
    Bool.not_eq_false'] using hhead

/-- The rounds from which the flagged message at the head is taken again and again. -/
theorem sweepLoop_back (i : Nat) (alerted copies : List Letter) :
    sweepLoop cfg bot clock dlqName (back cfg queue).length
        ⟨back cfg queue ++ copies, [], alerted, i⟩ =
      (⟨back cfg queue ++ copies, [], alerted, i + (back cfg queue).length⟩, .ok ()) := by
  cases hb : back cfg queue with
  | nil => rfl
  | cons msg rest => exact sweepLoop_flagged (flagged_of_back hb)

/-- What a call whose cap covers the queue computes, when it can alert on the front. -/
theorem processOneDlq_eq (baseQueue : String) (hcap : queue.length ≤ cfg.maxPerQueueTick)
    (hbot : ∀ msg ∈ front cfg queue, bot.alert (baseQueue ++ ".dlq") msg = .ok ()) :
    processOneDlq cfg bot clock baseQueue (some queue) =
      (⟨back cfg queue ++ republished cfg clock 0 (front cfg queue), [], front cfg queue,
        queue.length⟩, .ok queue.length) := by
  have hlen : (front cfg queue).length + (back cfg queue).length = queue.length := by
    rw [← List.length_append, front_append_back]
  have htake : (min (queue.length : Int) cfg.maxPerQueueTick).toNat =
      (front cfg queue).length + (back cfg queue).length := by omega
  have hloop : sweepLoop cfg bot clock (baseQueue ++ ".dlq")
        ((front cfg queue).length + (back cfg queue).length)
        ⟨front cfg queue ++ back cfg queue, [], [], 0⟩ =
      sweepLoop cfg bot clock (baseQueue ++ ".dlq") (back cfg queue).length
        ⟨back cfg queue ++ republished cfg clock 0 (front cfg queue), [], [] ++ front cfg queue,
          0 + (front cfg queue).length⟩ :=
    sweepLoop_unflagged (fun _ ↦ flagged_of_mem_front) hbot
  rw [front_append_back, sweepLoop_back, List.nil_append, Nat.zero_add, hlen] at hloop
  simp only [processOneDlq, htake, hlen]
  rw [hloop]
  rfl

/-- A call that returns could alert on the front. -/
theorem alert_of_processOneDlq_ok {baseQueue : String} {n : Nat}
    (hcap : queue.length ≤ cfg.maxPerQueueTick)
    (h : (processOneDlq cfg bot clock baseQueue (some queue)).2 = .ok n) :
    ∀ msg ∈ front cfg queue, bot.alert (baseQueue ++ ".dlq") msg = .ok () := by
  have hlen : (front cfg queue).length + (back cfg queue).length = queue.length := by
    rw [← List.length_append, front_append_back]
  have htake : (min (queue.length : Int) cfg.maxPerQueueTick).toNat =
      (front cfg queue).length + (back cfg queue).length := by omega
  have hloop : (sweepLoop cfg bot clock (baseQueue ++ ".dlq")
      ((front cfg queue).length + (back cfg queue).length)
      ⟨front cfg queue ++ back cfg queue, [], [], 0⟩).2 = .ok () := by
    simp only [processOneDlq, htake] at h
    rw [front_append_back]
    cases hres : (sweepLoop cfg bot clock (baseQueue ++ ".dlq")
        ((front cfg queue).length + (back cfg queue).length) { ready := queue }).2 with
    | ok u => rfl
    | error e =>
        rw [hres] at h
        cases h
  exact alert_of_sweepLoop_ok (fun _ ↦ flagged_of_mem_front) hloop

/-- The unflagged messages are the front when everything behind it is flagged. -/
theorem filter_unflagged (h : ∀ msg ∈ back cfg queue, msg.flagged cfg = true) :
    (queue.filter fun msg ↦ !msg.flagged cfg) = front cfg queue := by
  conv_lhs => rw [← front_append_back cfg queue]
  rw [List.filter_append, List.filter_eq_self.mpr, List.filter_eq_nil_iff.mpr, List.append_nil]
  · intro msg hmsg
    simp [h msg hmsg]
  · intro msg hmsg
    simp [flagged_of_mem_front hmsg]

/-- The flagged messages are then what stands behind it. -/
theorem filter_flagged (h : ∀ msg ∈ back cfg queue, msg.flagged cfg = true) :
    (queue.filter fun msg ↦ msg.flagged cfg) = back cfg queue := by
  conv_lhs => rw [← front_append_back cfg queue]
  rw [List.filter_append, List.filter_eq_nil_iff.mpr, List.filter_eq_self.mpr, List.nil_append]
  · exact h
  · intro msg hmsg
    simp [flagged_of_mem_front hmsg]

/-- Nothing unflagged behind a flagged message: everything behind the front is flagged. -/
theorem pairwise_flagged_iff :
    (queue.Pairwise fun a b ↦ a.flagged cfg = true → b.flagged cfg = true) ↔
      ∀ msg ∈ back cfg queue, msg.flagged cfg = true := by
  constructor
  · intro h msg hmsg
    have hback : (back cfg queue).Pairwise fun a b ↦ a.flagged cfg = true → b.flagged cfg = true :=
      h.sublist (List.dropWhile_sublist _)
    cases hb : back cfg queue with
    | nil =>
        rw [hb] at hmsg
        cases hmsg
    | cons head rest =>
        rw [hb] at hmsg hback
        rcases List.mem_cons.mp hmsg with rfl | hrest
        · exact flagged_of_back hb
        · exact (List.pairwise_cons.mp hback).1 msg hrest (flagged_of_back hb)
  · intro h
    rw [← front_append_back cfg queue, List.pairwise_append]
    refine ⟨?_, ?_, ?_⟩
    · refine List.pairwise_of_forall_mem_list fun a ha b _ hflag ↦ ?_
      rw [flagged_of_mem_front ha] at hflag
      cases hflag
    · exact List.pairwise_of_forall_mem_list fun a _ b hb _ ↦ h b hb
    · exact fun a _ b hb _ ↦ h b hb

/-- The bodies of republished messages are those of the messages. -/
theorem map_body_republished (i : Nat) (us : List Letter) :
    (republished cfg clock i us).map Message.body = us.map Message.body := by
  induction us generalizing i with
  | nil => rfl
  | cons msg us ih => rw [republished, List.map_cons, List.map_cons, ih, repub_body]

end Spec

/-- **One call of `_process_one_dlq` whose cap covers the queue alerts on and flags every
unflagged message exactly once iff nothing unflagged stands behind a flagged message** (and the
alerts go through). -/
theorem processOneDlq_flagsAll_iff (baseQueue : String) (queue : List Letter)
    (hcap : queue.length ≤ cfg.maxPerQueueTick) :
    FlagsAll cfg queue (processOneDlq cfg bot clock baseQueue (some queue)) ↔
      Sweepable cfg bot (baseQueue ++ ".dlq") queue := by
  constructor
  · rintro ⟨⟨n, hreturns⟩, halerts, -, -⟩
    have hfront := alert_of_processOneDlq_ok hcap hreturns
    rw [processOneDlq_eq baseQueue hcap hfront] at halerts
    -- the messages alerted on are the front, so no message behind it is unflagged
    have hback : ∀ msg ∈ back cfg queue, msg.flagged cfg = true := by
      have hlen := halerts.length_eq
      conv_rhs at hlen => rw [← front_append_back cfg queue]
      rw [List.filter_append, List.length_append, List.filter_eq_self.mpr fun m hm ↦ by
        simp [flagged_of_mem_front hm]] at hlen
      have hnil : ((back cfg queue).filter fun msg ↦ !msg.flagged cfg) = [] :=
        List.length_eq_zero_iff.mp (by dsimp only at hlen; omega)
      intro msg hmsg
      simpa using List.filter_eq_nil_iff.mp hnil msg hmsg
    refine ⟨pairwise_flagged_iff.mpr hback, fun msg hmsg hflag ↦ ?_⟩
    rw [← front_append_back cfg queue, List.mem_append] at hmsg
    rcases hmsg with hmsg | hmsg
    · exact hfront msg hmsg
    · rw [hback msg hmsg] at hflag
      cases hflag
  · rintro ⟨hpair, halert⟩
    have hback := pairwise_flagged_iff.mp hpair
    have hfront : ∀ msg ∈ front cfg queue, bot.alert (baseQueue ++ ".dlq") msg = .ok () :=
      fun msg hmsg ↦ halert msg (List.takeWhile_subset _ hmsg) (flagged_of_mem_front hmsg)
    rw [processOneDlq_eq baseQueue hcap hfront]
    refine ⟨⟨_, rfl⟩, ?_, ⟨republished cfg clock 0 (front cfg queue), ?_, ?_⟩, ?_⟩
    · rw [filter_unflagged hback]
    · rw [filter_unflagged hback]
      exact forall₂_republished 0 (front cfg queue)
    · rw [filter_flagged hback]
    · conv_rhs => rw [← front_append_back cfg queue]
      rw [List.map_append, List.map_append, map_body_republished]
      exact List.perm_append_comm

/-! ## A dead letter behind a flagged one -/

/-- A bot whose alerts go through. -/
def reachableClient : Client := ⟨some ⟨some ⟨fun _ ↦ true⟩⟩⟩

/-- A clock that stands at the first second. -/
def stoppedClock : Clock := ⟨fun _ ↦ 1, fun _ ↦ Int.one_pos⟩

/-- A dead letter that a sweep has flagged. -/
def oldLetter : Letter := { body := [123, 125], headers := [("dlq_notified", .bool true)] }

/-- A dead letter that has arrived since. -/
def newLetter : Letter := { body := [91, 93], headers := [] }

/-- Nobody is told about a dead letter that arrives behind one of an earlier sweep. -/
theorem newLetter_not_alerted :
    ¬ FlagsAll {} [oldLetter, newLetter]
      (processOneDlq {} reachableClient stoppedClock "api.xp.grant"
        (some [oldLetter, newLetter])) := by
  intro h
  have hlen := h.alerts.length_eq
  revert hlen
  decide

/-- In front of the old one it is flagged. -/
theorem newLetter_flagsAll :
    FlagsAll {} [newLetter, oldLetter]
      (processOneDlq {} reachableClient stoppedClock "api.xp.grant"
        (some [newLetter, oldLetter])) := by
  apply (processOneDlq_flagsAll_iff {} reachableClient stoppedClock "api.xp.grant"
    [newLetter, oldLetter] (by decide)).mpr
  exact ⟨by decide, fun _ _ _ ↦ rfl⟩

end Genjishimada.Bot
