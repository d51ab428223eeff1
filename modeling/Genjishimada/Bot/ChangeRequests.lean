import Genjishimada.Library.Run
import Genjishimada.Library.Words
import Genjishimada.Services.ChangeRequests

/-!
# Change requests

A request is opened in a thread of its own, for the creators of the map that are in the server, or
for the moderators if none is; those may answer it.  Every hour `alert_stale_change_requests` posts
in the threads of the requests that nobody has resolved in two weeks.  If one of its calls raises,
the loop has stopped until it is started again.
-/

namespace Genjishimada.Bot

open Library Repository Services

/-! ## Opening a request -/

/-- `member.mention` -/
def mention (id : Nat) : String := "<@" ++ toString id ++ ">"

/-- Whom a request mentions: the creators that are in the server, or the moderators. -/
def addressees (inGuild : Nat → Bool) (modmail : Nat) (creators : List Nat) : List Nat :=
  let members := creators.filter inGuild
  if members = [] then [modmail] else members

/-- The mentions that `ChangeRequestSubmitButton` writes. -/
def creatorMentions (inGuild : Nat → Bool) (modmail : Nat) (creators : List Nat) : String :=
  let members := creators.filter inGuild
  if members = [] then
    "<@&" ++ toString modmail ++ ">\n-# The creator of this map is not in this server."
  else String.join (members.map mention)

/-! ## The calls -/

/-- Where the hourly loop is. -/
inductive AlertPhase where
  | idle
  | /-- These requests were stale when they were read. -/
    alerting (readAt : Int) (rows : List StaleChangeRequest)
  | /-- The alert of the first one is posted. -/
    sent (readAt : Int) (row : StaleChangeRequest) (rows : List StaleChangeRequest)
  | stopped
deriving DecidableEq, Repr

/-- The tables and the loop; the alerts that were posted, with the time at which their requests were
read; the requests that were resolved, with the time; the alerts that could not be marked; and whom
each request addresses. -/
structure RequestState where
  clock : Int
  db : ChangeRequestDb
  phase : AlertPhase := .idle
  alerts : List (Nat × Int) := []
  resolutions : List (Nat × Int) := []
  unmarked : List Nat := []
  addressed : Nat → List Nat := fun _ ↦ []

/-- What the loop does. -/
inductive LoopLabel where
  | /-- `get_stale_change_requests` -/
    fetch
  | /-- There is no thread. -/
    skip
  | send
  | /-- `update_alerted_change_request` -/
    mark
  | finish
  | /-- A call raises; `marked` if it is the last one of an alert and has gone through. -/
    fail (marked : Bool)
  | restart

inductive RequestLabel where
  | submit (threadId userId : Nat) (code content changeRequestType : String)
      (inGuild : Nat → Bool) (creators : List Nat)
  | resolve (threadId : Nat)
  | /-- The code of a map changes, or is released. -/
    recode (old : String) (new : Option String)
  | loop (l : LoopLabel)

namespace RequestState

variable (s : RequestState)

/-- The bot and then the API create the request. -/
def submit (modmail : Nat) (now : Int) (threadId userId : Nat)
    (code content changeRequestType : String) (inGuild : Nat → Bool) (creators : List Nat) :
    RequestState :=
  match createChangeRequest
      { threadId, userId, code, content, changeRequestType
        creatorMentions := creatorMentions inGuild modmail creators } now s.db with
  | .error _ => s
  | .ok db =>
      { s with
        db
        addressed := Function.update s.addressed threadId (addressees inGuild modmail creators) }

/-- `resolve_request`, noted if there is a request to resolve. -/
def resolve (now : Int) (threadId : Nat) : RequestState :=
  { s with
    db := s.db.markResolved threadId
    resolutions :=
      if threadId ∈ s.db.rows.map ChangeRequest.threadId then (threadId, now) :: s.resolutions
      else s.resolutions }

/-- `alert_stale_change_requests` -/
def loop (now : Int) : LoopLabel → Option RequestState
  | .fetch =>
      match s.phase with
      | .idle => some { s with phase := .alerting now (s.db.fetchStaleRequests now) }
      | _ => none
  | .skip =>
      match s.phase with
      | .alerting readAt (_ :: rows) => some { s with phase := .alerting readAt rows }
      | _ => none
  | .send =>
      match s.phase with
      | .alerting readAt (row :: rows) =>
          some { s with
            phase := .sent readAt row rows
            alerts := (row.threadId, readAt) :: s.alerts }
      | _ => none
  | .mark =>
      match s.phase with
      | .sent readAt row rows =>
          some { s with phase := .alerting readAt rows, db := s.db.markAlerted row.threadId }
      | _ => none
  | .finish =>
      match s.phase with
      | .alerting _ [] => some { s with phase := .idle }
      | _ => none
  | .fail marked =>
      match s.phase with
      | .sent _ row _ =>
          if marked then some { s with phase := .stopped, db := s.db.markAlerted row.threadId }
          else some { s with phase := .stopped, unmarked := row.threadId :: s.unmarked }
      | _ => some { s with phase := .stopped }
  | .restart =>
      match s.phase with
      | .stopped => some { s with phase := .idle }
      | _ => none

end RequestState

/-- One step, at a time. -/
def requestStep (modmail : Nat) (s : RequestState) (l : Int × RequestLabel) :
    Option RequestState :=
  if l.1 < s.clock then none
  else
    match l.2 with
    | .submit threadId userId code content changeRequestType inGuild creators =>
        some ({ s with clock := l.1 }.submit modmail l.1 threadId userId code content
          changeRequestType inGuild creators)
    | .resolve threadId => some ({ s with clock := l.1 }.resolve l.1 threadId)
    | .recode old new => some { s with clock := l.1, db := s.db.recode old new }
    | .loop label => { s with clock := l.1 }.loop l.1 label

/-! ## Who may answer -/

section Mentions

variable {inGuild : Nat → Bool} {modmail userId : Nat} {creators : List Nat}

/-- The digits of a user's id stand in those of another. -/
def DigitsIn (userId id : Nat) : Prop := Nat.toDigits 10 userId <:+: Nat.toDigits 10 id

/-- Ids with as many digits are told apart. -/
theorem digitsIn_iff {id : Nat}
    (hlength : (Nat.toDigits 10 userId).length = (Nat.toDigits 10 id).length) :
    DigitsIn userId id ↔ userId = id := by
  constructor
  · intro h
    have heq := h.eq_of_length hlength
    have hchars := congrArg (fun digits ↦ Nat.ofDigitChars 10 digits 0) heq
    rwa [Nat.ofDigitChars_ten_toDigits, Nat.ofDigitChars_ten_toDigits] at hchars
  · rintro rfl
    exact List.infix_rfl

/-- A user is found in the mentions exactly if the digits of the id stand in those of someone the
request addresses. -/
theorem isIn_creatorMentions :
    isIn (toString userId) (creatorMentions inGuild modmail creators) = true ↔
      ∃ id ∈ addressees inGuild modmail creators, DigitsIn userId id := by
  have hdigits (id : Nat) : (toString id).toList = Nat.toDigits 10 id := Nat.toList_repr
  have hword : Nat.toDigits 10 userId ≠ [] := Nat.toDigits_ne_nil
  have hnot : ∀ letters : List Char, letters.all (fun c ↦ !c.isDigit) = true →
      ∀ c ∈ letters, c ∉ Nat.toDigits 10 userId := by
    intro letters hletters c hc hmem
    have hdigit := Nat.isDigit_of_mem_toDigits (by decide) (by decide) hmem
    have hother := List.all_eq_true.mp hletters c hc
    rw [hdigit] at hother
    cases hother
  rw [isIn, decide_eq_true_iff, hdigits, creatorMentions, addressees]
  split
  · rw [String.toList_append, String.toList_append, hdigits, List.append_assoc,
      infix_append_left_iff hword (hnot _ (by decide)),
      ← List.append_nil (">\n-# The creator of this map is not in this server.".toList),
      infix_append_append_iff hword (hnot _ (by decide)) (by decide)]
    simp only [List.mem_singleton, exists_eq_left]
    exact or_iff_left fun h ↦ hword (List.infix_nil.mp h)
  · rw [String.toList_join, List.flatMap_map]
    have hmention (id : Nat) :
        (mention id).toList = "<@".toList ++ Nat.toDigits 10 id ++ ">".toList := by
      rw [mention, String.toList_append, String.toList_append, hdigits]
    simp only [hmention]
    exact infix_flatMap_iff hword (hnot _ (by decide)) (hnot _ (by decide)) (by decide)

end Mentions

/-! ## What the calls do to the rows -/

section Rows

variable {db db' : ChangeRequestDb} {now : Int}

/-- A row that an update leaves, and what it was. -/
theorem mem_modify {p : ChangeRequest → Bool} {f : ChangeRequest → ChangeRequest} {hf}
    {r' : ChangeRequest} :
    r' ∈ (db.modify p f hf).rows ↔ ∃ r ∈ db.rows, (if p r then f r else r) = r' :=
  List.mem_map

theorem modify_cases {p : ChangeRequest → Bool} {f : ChangeRequest → ChangeRequest}
    {r' : ChangeRequest} (h : r' ∈ db.rows.map fun r ↦ if p r then f r else r)
    (hf : ∀ r, (f r).threadId = r.threadId) :
    ∃ r ∈ db.rows, r'.threadId = r.threadId ∧ (r' = f r ∧ p r = true ∨ r' = r ∧ p r = false) := by
  obtain ⟨r, hr, rfl⟩ := List.mem_map.mp h
  refine ⟨r, hr, ?_⟩
  cases p r with
  | true => exact ⟨hf r, .inl ⟨rfl, rfl⟩⟩
  | false => exact ⟨rfl, .inr ⟨rfl, rfl⟩⟩

/-- A request is created for a thread that had none. -/
theorem createChangeRequest_spec {data : ChangeRequestCreateRequest}
    (h : createChangeRequest data now db = .ok db') :
    data.threadId ∉ db.rows.map ChangeRequest.threadId ∧
      ∃ r : ChangeRequest, db'.rows = db.rows ++ [r] ∧ r.threadId = data.threadId ∧
        r.creatorMentions = data.creatorMentions ∧ r.resolved = false ∧ r.alerted = false := by
  rw [createChangeRequest] at h
  split at h
  · cases h
  · next hcode =>
    rw [ChangeRequestDb.createRequest, if_neg hcode] at h
    by_cases hthread : data.threadId ∈ db.rows.map ChangeRequest.threadId
    · rw [dif_pos hthread] at h
      cases h
    · rw [dif_neg hthread] at h
      by_cases huser : data.userId ∈ db.users
      · rw [if_neg (not_not.mpr huser)] at h
        cases h
        exact ⟨hthread, _, rfl, rfl, rfl, rfl, rfl⟩
      · rw [if_pos huser] at h
        cases h

end Rows

/-! ## Permissions -/

section Permission

variable {modmail : Nat} {s s' : RequestState} {l : Int × RequestLabel} {now : Int}

/-- What the loop changes beside itself: at most, an alert is marked. -/
theorem db_loop {label : LoopLabel} (h : s.loop now label = some s') :
    (s'.db = s.db ∨ ∃ threadId, s'.db = s.db.markAlerted threadId) ∧
      s'.addressed = s.addressed := by
  cases label with
  | fail marked =>
      rw [RequestState.loop] at h
      split at h
      · split at h <;> cases h
        · exact ⟨.inr ⟨_, rfl⟩, rfl⟩
        · exact ⟨.inl rfl, rfl⟩
      · cases h
        exact ⟨.inl rfl, rfl⟩
  | mark =>
      rw [RequestState.loop] at h
      split at h <;> cases h
      exact ⟨.inr ⟨_, rfl⟩, rfl⟩
  | fetch | skip | send | finish | restart =>
      rw [RequestState.loop] at h
      split at h <;> cases h
      exact ⟨.inl rfl, rfl⟩

/-- Every request has the mentions of those whom it addresses. -/
def Mentions (s : RequestState) : Prop :=
  ∀ r ∈ s.db.rows, ∀ userId, isIn (toString userId) r.creatorMentions = true ↔
    ∃ id ∈ s.addressed r.threadId, DigitsIn userId id

theorem Mentions.modify (h : Mentions s) {p : ChangeRequest → Bool}
    {f : ChangeRequest → ChangeRequest}
    (hrows : s'.db.rows = s.db.rows.map fun r ↦ if p r then f r else r)
    (haddressed : s'.addressed = s.addressed) (hf : ∀ r, (f r).threadId = r.threadId)
    (hmentions : ∀ r, (f r).creatorMentions = r.creatorMentions) : Mentions s' := by
  intro r' hr'
  rw [hrows] at hr'
  obtain ⟨r, hr, hthread, hrow⟩ := modify_cases hr' hf
  rw [haddressed, hthread]
  rcases hrow with ⟨rfl, -⟩ | ⟨rfl, -⟩
  · rw [hmentions]
    exact h r hr
  · exact h _ hr

theorem Mentions.submit (h : Mentions s) (threadId userId : Nat)
    (code content changeRequestType : String) (inGuild : Nat → Bool) (creators : List Nat) :
    Mentions (s.submit modmail now threadId userId code content changeRequestType inGuild
      creators) := by
  rw [RequestState.submit]
  split
  · exact h
  · next db hcreate =>
    obtain ⟨hfresh, r', hrows, hthread, hmentions, -⟩ := createChangeRequest_spec hcreate
    intro r hr userId
    rw [hrows, List.mem_append, List.mem_singleton] at hr
    rcases hr with hr | rfl
    · have hne : r.threadId ≠ threadId := fun heq ↦ hfresh (heq ▸ List.mem_map_of_mem hr)
      simp only [Function.update_of_ne hne]
      exact h r hr userId
    · simp only [hthread, hmentions, Function.update_self]
      exact isIn_creatorMentions

theorem Mentions.step (h : Mentions s) (hstep : requestStep modmail s l = some s') :
    Mentions s' := by
  obtain ⟨now, label⟩ := l
  rw [requestStep] at hstep
  split at hstep
  · cases hstep
  · have hnow : Mentions { s with clock := now } := h
    cases label with
    | submit threadId userId code content changeRequestType inGuild creators =>
        cases hstep
        exact hnow.submit threadId userId code content changeRequestType inGuild creators
    | resolve threadId =>
        cases hstep
        exact h.modify rfl rfl (fun _ ↦ rfl) fun _ ↦ rfl
    | recode old new =>
        cases hstep
        exact h.modify rfl rfl (fun _ ↦ rfl) fun _ ↦ rfl
    | loop label =>
        obtain ⟨hdb, haddressed⟩ := db_loop hstep
        rcases hdb with hdb | ⟨threadId, hdb⟩
        · rw [Mentions, hdb, haddressed]
          exact h
        · exact hnow.modify (congrArg ChangeRequestDb.rows hdb) haddressed (fun _ ↦ rfl) fun _ ↦ rfl

end Permission

/-- Before any request. -/
def noRequests (clock : Int) (codes : List String) (users : List Nat) : RequestState where
  clock
  db := { codes, users }

section Check

variable {s : RequestState} {threadId userId : Nat} {code : String}

theorem Mentions.checkPermission_iff (h : Mentions s) :
    checkPermission threadId userId code s.db = true ↔
      (∃ r ∈ s.db.rows, r.threadId = threadId ∧ r.code = some code) ∧
        ∃ id ∈ s.addressed threadId, DigitsIn userId id := by
  rw [checkPermission, ChangeRequestDb.fetchCreatorMentions]
  cases hfind : s.db.rows.find? fun r ↦ r.threadId = threadId ∧ r.code = some code with
  | none =>
      rw [List.find?_eq_none] at hfind
      refine iff_of_false Bool.false_ne_true ?_
      rintro ⟨⟨r, hr, hrow⟩, -⟩
      exact hfind r hr (decide_eq_true hrow)
  | some r =>
      have hr := List.mem_of_find?_eq_some hfind
      have hrow : r.threadId = threadId ∧ r.code = some code := by
        simpa using List.find?_some hfind
      have hword : (toString userId).toList ≠ [] := by
        rw [show (toString userId).toList = Nat.toDigits 10 userId from Nat.toList_repr]
        exact Nat.toDigits_ne_nil
      have hne : isIn (toString userId) r.creatorMentions = true → r.creatorMentions ≠ "" := by
        intro hin hempty
        rw [isIn, decide_eq_true_iff, hempty] at hin
        exact hword (List.infix_nil.mp hin)
      simp only [Option.map_some, Bool.and_eq_true, decide_eq_true_iff]
      rw [and_iff_right_of_imp hne, h r hr, hrow.1]
      exact (and_iff_right ⟨r, hr, hrow⟩).symm

end Check

/-- A request may be answered by those whose digits stand in those of someone it addresses.  Where
all ids have as many digits, these are the ones it addresses. -/
theorem permission_after {modmail : Nat} {clock : Int} {codes : List String} {users : List Nat}
    {s : RequestState} {ls : List (Int × RequestLabel)}
    (hrun : Run (ofStep (requestStep modmail)) (noRequests clock codes users) ls s)
    (threadId userId : Nat) (code : String) :
    (checkPermission threadId userId code s.db = true ↔
      (∃ r ∈ s.db.rows, r.threadId = threadId ∧ r.code = some code) ∧
        ∃ id ∈ s.addressed threadId, DigitsIn userId id) ∧
    ((∀ id ∈ s.addressed threadId,
        (Nat.toDigits 10 userId).length = (Nat.toDigits 10 id).length) →
      (checkPermission threadId userId code s.db = true ↔
        (∃ r ∈ s.db.rows, r.threadId = threadId ∧ r.code = some code) ∧
          userId ∈ s.addressed threadId)) := by
  have hmentions : Mentions s :=
    hrun.invariant (fun _ _ _ h hstep ↦ h.step hstep) fun _ hr ↦ by cases hr
  refine ⟨hmentions.checkPermission_iff, fun hlength ↦ ?_⟩
  rw [hmentions.checkPermission_iff]
  refine and_congr_right fun _ ↦ ⟨?_, fun hmem ↦ ⟨userId, hmem, List.infix_rfl⟩⟩
  rintro ⟨id, hid, hin⟩
  exact (digitsIn_iff (hlength id hid)).mp hin ▸ hid

/-- A request of user 5 for the map of user 7; its first alert is not marked. -/
def firstRequests : List (Int × RequestLabel) :=
  [(0, .submit 1 5 "AAAA" "" "Other" (fun _ ↦ true) [7]),
    (twoWeeks + 1, .loop .fetch), (twoWeeks + 1, .loop .send),
    (twoWeeks + 2, .loop (.fail false)), (twoWeeks + 3, .loop .restart),
    (twoWeeks + 4, .loop .fetch), (twoWeeks + 4, .loop .send), (twoWeeks + 5, .loop .mark)]

theorem run_firstRequests : ∃ s,
    Run (ofStep (requestStep 9)) (noRequests 0 ["AAAA"] [5]) firstRequests s ∧
      (s.db.rows.map fun r ↦ (r.threadId, r.code, r.alerted)) = [(1, some "AAAA", true)] ∧
      s.addressed 1 = [7] ∧ s.unmarked = [1] :=
  ⟨_, .cons rfl (.cons rfl (.cons rfl (.cons rfl (.cons rfl (.cons rfl (.cons rfl
    (.single rfl))))))), rfl, rfl, rfl⟩

/-- The creator may answer, and another user may not. -/
theorem permission_after_first : ∃ s,
    Run (ofStep (requestStep 9)) (noRequests 0 ["AAAA"] [5]) firstRequests s ∧
      checkPermission 1 7 "AAAA" s.db = true ∧ checkPermission 1 8 "AAAA" s.db = false := by
  obtain ⟨s, hrun, hrows, haddressed, -⟩ := run_firstRequests
  refine ⟨s, hrun, (permission_after hrun 1 7 "AAAA").1.mpr ⟨?_, 7, ?_, List.infix_rfl⟩, ?_⟩
  · have hmem : (1, some "AAAA", true) ∈ s.db.rows.map fun r ↦ (r.threadId, r.code, r.alerted) :=
      hrows ▸ List.mem_cons_self
    obtain ⟨r, hr, heq⟩ := List.mem_map.mp hmem
    exact ⟨r, hr, congrArg Prod.fst heq, congrArg (fun row ↦ row.2.1) heq⟩
  · exact haddressed ▸ List.mem_cons_self
  · have hlength : ∀ id ∈ s.addressed 1,
        (Nat.toDigits 10 8).length = (Nat.toDigits 10 id).length := by
      rw [haddressed]
      decide
    rw [Bool.eq_false_iff, ne_eq, (permission_after hrun 1 8 "AAAA").2 hlength, haddressed]
    exact fun h ↦ absurd h.2 (by decide)

end Genjishimada.Bot
