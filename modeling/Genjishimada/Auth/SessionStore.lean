import Genjishimada.Services.SessionStore

/-!
# The session store

A session that is not read or written for the lifetime is gone, whether it has been collected or not:
what the site is shown does not depend on when the garbage collection runs (`shown_eq_shown_without_gc`),
and what is read of a session is decided by the calls on that session alone
(`payload_sessionRead_eq`).
-/

namespace Genjishimada.Auth

open Library Repository Services

variable {s s' : SessionDb} {now later : Int} {call : SessionCall} {sessionId : String}

/-! ## Runs -/

/-- The tables after some calls, each made at its time. -/
def runCalls (calls : List (Int × SessionCall)) (s : SessionDb) : SessionDb :=
  calls.foldl (fun s call ↦ (call.2.run call.1 s).2) s

/-- What the calls show. -/
def shown : List (Int × SessionCall) → SessionDb → List SessionReply
  | [], _ => []
  | (now, call) :: calls, s => (call.run now s).1.toList ++ shown calls (call.run now s).2

/-- When a session has to have been touched to be live. -/
def cutoff (now : Int) : Int := now - sessionLifetimeMinutes * SessionDb.minute

theorem cutoff_mono (hle : now ≤ later) : cutoff now ≤ cutoff later :=
  Int.sub_le_sub_right hle _

/-- The live session of an id. -/
def liveSession (now : Int) (s : SessionDb) (sessionId : String) : Option Session :=
  liveRow Session.lastActivity (cutoff now) s.sessions sessionId

/-! ## What a call depends on -/

theorem sessionRead_eq : sessionRead sessionId now s =
    ((liveSession now s sessionId).elim ({ payload := none, isMod := false }, s) fun row ↦
      ({ payload := some row.payload
         isMod := decide (row.payload ≠ "") && row.userId.any fun u ↦ decide (u ∈ s.mods) },
        { s with
          sessions := Function.update s.sessions sessionId (some { row with lastActivity := now }) })) := by
  rw [sessionRead, SessionDb.readSession, liveSession, liveRow]
  cases hrow : s.sessions sessionId with
  | none => rfl
  | some row =>
      rw [Option.filter_some]
      by_cases hlive : cutoff now < row.lastActivity
      · have hkept : SessionDb.live sessionLifetimeMinutes now row = true := decide_eq_true hlive
        rw [if_pos (decide_eq_true hlive)]
        simp only [hkept, if_true, SessionDb.checkIsMod, Function.update_self, Option.bind_some,
          Option.elim_some, Option.any_some]
        cases row.userId <;> rfl
      · have hgone : SessionDb.live sessionLifetimeMinutes now row = false := decide_eq_false hlive
        rw [if_neg (by simpa using hlive)]
        simp only [hgone, Bool.false_eq_true, if_false]
        rfl

theorem getUserSessions_eq (userId : Nat) :
    s.getUserSessions userId sessionLifetimeMinutes now sessionId =
      ((liveSession now s sessionId).filter fun row ↦ row.userId = some userId).map fun row ↦
        { lastActivity := row.lastActivity, ipAddress := row.ipAddress
          userAgent := row.userAgent } := by
  rw [SessionDb.getUserSessions, liveSession, liveRow, Option.filter_filter]
  simp only [Bool.and_comm]
  rfl

/-- The tables show the same sessions. -/
structure SameSessions (now : Int) (s s' : SessionDb) : Prop where
  auth : s.auth = s'.auth
  mods : s.mods = s'.mods
  alike : Alike Session.lastActivity (cutoff now) s.sessions s'.sessions

theorem SameSessions.trans {s'' : SessionDb} (h : SameSessions now s s')
    (h' : SameSessions now s' s'') : SameSessions now s s'' :=
  ⟨h.auth.trans h'.auth, h.mods.trans h'.mods, h.alike.trans h'.alike⟩

theorem SameSessions.of_le (h : SameSessions now s s') (hle : now ≤ later) :
    SameSessions later s s' :=
  ⟨h.auth, h.mods, h.alike.of_le (cutoff_mono hle)⟩

/-- A call shows the same on both, and leaves both the same. -/
theorem SameSessions.run (h : SameSessions now s s') (call : SessionCall) :
    (call.run now s).1 = (call.run now s').1 ∧
      SameSessions now (call.run now s).2 (call.run now s').2 := by
  obtain ⟨hauth, hmods, halike⟩ := h
  cases call with
  | read sessionId =>
      have hlive : liveSession now s sessionId = liveSession now s' sessionId := halike sessionId
      simp only [SessionCall.run, sessionRead_eq, hlive, hmods]
      cases liveSession now s' sessionId with
      | none => exact ⟨rfl, hauth, hmods, halike⟩
      | some row => exact ⟨rfl, hauth, rfl, halike.update _ _⟩
  | write sessionId payload userId ipAddress userAgent =>
      refine ⟨rfl, ?_⟩
      simp only [SessionCall.run, sessionWrite, SessionDb.writeSession, hauth]
      split
      · exact ⟨rfl, hmods, halike.update _ _⟩
      · exact ⟨hauth, hmods, halike⟩
  | destroy sessionId => exact ⟨rfl, hauth, hmods, halike.update _ _⟩
  | gc =>
      refine ⟨rfl, hauth, hmods, ?_⟩
      exact ((alike_collect s.sessions).symm.trans halike).trans (alike_collect s'.sessions)
  | userSessions userId =>
      refine ⟨?_, hauth, hmods, halike⟩
      have hlive : liveSession now s = liveSession now s' := funext halike
      have hsessions : s.getUserSessions userId sessionLifetimeMinutes now =
          s'.getUserSessions userId sessionLifetimeMinutes now := by
        funext sessionId
        rw [getUserSessions_eq, getUserSessions_eq, hlive]
      simp only [SessionCall.run, hsessions]
  | destroyAll userId exceptSessionId => exact ⟨rfl, hauth, hmods, halike.drop _⟩

/-- A collection changes no session that can still be shown. -/
theorem sameSessions_gc (now : Int) (s : SessionDb) :
    SameSessions now (SessionCall.gc.run now s).2 s :=
  ⟨rfl, rfl, (alike_collect s.sessions).symm⟩

/-! ## Garbage collection -/

/-- Tables that show the same sessions show the same in every run, with the collections of one left
out in the other. -/
theorem SameSessions.shown_eq (h : SameSessions now s s') {calls : List (Int × SessionCall)}
    (htimes : (now :: calls.map Prod.fst).Pairwise (· ≤ ·)) :
    shown calls s = shown (calls.filter fun call ↦ call.2 ≠ .gc) s' := by
  induction calls generalizing s s' now with
  | nil => rfl
  | cons call calls ih =>
      obtain ⟨later, call⟩ := call
      obtain ⟨hle, htimes⟩ := List.pairwise_cons.mp htimes
      have hlater := h.of_le (hle later List.mem_cons_self)
      by_cases hgc : call = .gc
      · subst hgc
        rw [List.filter_cons_of_neg (by simp), shown, ih ((sameSessions_gc later s).trans hlater) htimes]
        rfl
      · obtain ⟨hreply, hafter⟩ := hlater.run call
        rw [List.filter_cons_of_pos (by simpa using hgc), shown, shown, hreply, ih hafter htimes]

/-- When the sessions are collected makes no difference to what the site is shown. -/
theorem shown_eq_shown_without_gc (calls : List (Int × SessionCall)) (s : SessionDb)
    (htimes : (calls.map Prod.fst).Pairwise (· ≤ ·)) :
    shown calls s = shown (calls.filter fun call ↦ call.2 ≠ .gc) s := by
  have hsame (now : Int) : SameSessions now s s := ⟨rfl, rfl, .refl _⟩
  cases calls with
  | nil => rfl
  | cons call calls =>
      refine (hsame call.1).shown_eq (List.pairwise_cons.mpr ⟨fun later hlater ↦ ?_, htimes⟩)
      rcases List.mem_cons.mp hlater with rfl | hlater
      · exact le_rfl
      · exact (List.pairwise_cons.mp htimes).1 later hlater

/-- A login that is collected a hundred days later, between two calls. -/
theorem shown_login_eq :
    shown [(0, .write "s" "p" none none none), (8640000000000, .gc), (8640000000001, .read "s")] {} =
      shown ([(0, .write "s" "p" none none none), (8640000000000, .gc),
        (8640000000001, .read "s")].filter fun call ↦ call.2 ≠ .gc) {} :=
  shown_eq_shown_without_gc _ _ (by decide)

/-! ## One session -/

/-- The session, if it is live. -/
def ifLive (now : Int) (row : Option Session) : Option Session :=
  row.filter fun row ↦ cutoff now < row.lastActivity

/-- What a call makes of the session of an id. -/
def sessionAfter (users : List Nat) (sessionId : String) (now : Int) (row : Option Session) :
    SessionCall → Option Session
  | .read id =>
      if id = sessionId then (ifLive now row).map fun row ↦ { row with lastActivity := now } else row
  | .write id payload userId ipAddress userAgent =>
      if id = sessionId ∧ userId.all (fun u ↦ decide (u ∈ users)) = true then
        some { userId, payload, lastActivity := now, ipAddress, userAgent }
      else row
  | .destroy id => if id = sessionId then none else row
  | .gc => row
  | .userSessions _ => row
  | .destroyAll userId exceptSessionId =>
      row.filter fun row ↦ !(row.userId = some userId &&
        (exceptSessionId.all (· = "") || exceptSessionId ≠ some sessionId))

/-- What the calls make of it. -/
def history (users : List Nat) (sessionId : String) (calls : List (Int × SessionCall))
    (row : Option Session) : Option Session :=
  calls.foldl (fun row call ↦ sessionAfter users sessionId call.1 row call.2) row

theorem auth_run (now : Int) (s : SessionDb) (call : SessionCall) :
    (call.run now s).2.auth = s.auth := by
  cases call with
  | read sessionId =>
      rw [SessionCall.run, sessionRead_eq]
      cases liveSession now s sessionId <;> rfl
  | write sessionId payload userId ipAddress userAgent =>
      rw [SessionCall.run, sessionWrite, SessionDb.writeSession]
      split <;> rfl
  | destroy sessionId => rfl
  | gc => rfl
  | userSessions userId => rfl
  | destroyAll userId exceptSessionId => rfl

/-- A row that is written is the session of its id, and no other. -/
theorem liveSession_of_update {id : String} {row : Option Session}
    (hsessions : s'.sessions = Function.update s.sessions id row) : liveSession now s' sessionId =
      if id = sessionId then ifLive now row else liveSession now s sessionId := by
  rw [liveSession, liveRow, hsessions]
  split
  · rename_i hid
    subst hid
    rw [Function.update_self]
    rfl
  · rename_i hid
    rw [Function.update_of_ne (Ne.symm hid)]
    rfl

/-- A call makes of a live session what it makes of that session alone. -/
theorem liveSession_run {row : Option Session} (h : liveSession now s sessionId = ifLive now row)
    (call : SessionCall) : liveSession now (call.run now s).2 sessionId =
      ifLive now (sessionAfter s.auth.users sessionId now row call) := by
  cases call with
  | read id =>
      rw [SessionCall.run, sessionRead_eq, sessionAfter]
      cases hlive : liveSession now s id with
      | none =>
          rw [Option.elim_none]
          split
          · rename_i hid
            subst hid
            rw [← h, hlive]
            rfl
          · exact h
      | some found =>
          rw [Option.elim_some, liveSession_of_update rfl]
          split
          · rename_i hid
            subst hid
            rw [← h, hlive]
            rfl
          · exact h
  | write id payload userId ipAddress userAgent =>
      rw [SessionCall.run, sessionWrite, SessionDb.writeSession, sessionAfter]
      by_cases husers : userId.all (fun u ↦ decide (u ∈ s.auth.users)) = true
      · rw [if_pos husers, Option.getD_some, liveSession_of_update rfl, h]
        by_cases hid : id = sessionId
        · rw [if_pos hid, if_pos ⟨hid, husers⟩]
        · rw [if_neg hid, if_neg fun hwritten ↦ hid hwritten.1]
      · rw [if_neg husers, if_neg fun hwritten ↦ husers hwritten.2]
        exact h
  | destroy id =>
      rw [SessionCall.run, SessionDb.deleteSession, sessionAfter, liveSession_of_update rfl, h]
      split <;> rfl
  | gc =>
      rw [sessionAfter, ← h]
      exact ((sameSessions_gc now s).alike sessionId)
  | userSessions userId => exact h
  | destroyAll userId exceptSessionId =>
      have hcomm (p : Session → Bool) (row : Option Session) :
          ifLive now (row.filter p) = (ifLive now row).filter p := by
        rw [ifLive, ifLive, Option.filter_filter, Option.filter_filter]
        simp only [Bool.and_comm]
      rw [sessionAfter, hcomm, ← h]
      exact hcomm _ (s.sessions sessionId)

/-- A run makes of a session what its calls make of it alone. -/
theorem liveSession_runCalls {row : Option Session} {calls : List (Int × SessionCall)}
    (h : liveSession now s sessionId = ifLive now row)
    (htimes : (now :: (calls.map Prod.fst ++ [later])).Pairwise (· ≤ ·)) :
    liveSession later (runCalls calls s) sessionId =
      ifLive later (history s.auth.users sessionId calls row) := by
  have hlater {now later : Int} {s : SessionDb} {row : Option Session} (hle : now ≤ later)
      (h : liveSession now s sessionId = ifLive now row) :
      liveSession later s sessionId = ifLive later row := by
    have hrow : liveRow Session.lastActivity (cutoff later) (fun _ : Unit ↦ row) () =
        (liveRow Session.lastActivity (cutoff now) (fun _ : Unit ↦ row) ()).filter fun row ↦
          cutoff later < row.lastActivity := liveRow_later (cutoff_mono hle)
    have hrow : ifLive later row =
        (ifLive now row).filter fun row ↦ cutoff later < row.lastActivity := hrow
    rw [hrow, ← h, liveSession, liveRow_later (cutoff_mono hle)]
    rfl
  induction calls generalizing s now row with
  | nil => exact hlater ((List.pairwise_cons.mp htimes).1 later (by simp)) h
  | cons call calls ih =>
      obtain ⟨hle, htimes⟩ := List.pairwise_cons.mp htimes
      have hrun := liveSession_run (hlater (hle call.1 (by simp)) h) call.2
      have hafter := ih hrun htimes
      rw [auth_run] at hafter
      exact hafter

/-- What is read of a session is the payload of its last write, if it has been neither destroyed
since nor left alone for the lifetime; other sessions and the collection do not matter. -/
theorem payload_sessionRead_eq (calls : List (Int × SessionCall)) (s : SessionDb)
    (sessionId : String) (now : Int) (htimes : (calls.map Prod.fst ++ [now]).Pairwise (· ≤ ·)) :
    (sessionRead sessionId now (runCalls calls s)).1.payload =
      (ifLive now (history s.auth.users sessionId calls (s.sessions sessionId))).map
        Session.payload := by
  have hlive : liveSession now (runCalls calls s) sessionId =
      ifLive now (history s.auth.users sessionId calls (s.sessions sessionId)) := by
    cases calls with
    | nil => rfl
    | cons call calls =>
        have hstart : liveSession call.1 s sessionId = ifLive call.1 (s.sessions sessionId) := rfl
        refine liveSession_runCalls hstart (List.pairwise_cons.mpr ⟨fun time htime ↦ ?_, htimes⟩)
        rcases List.mem_cons.mp htime with rfl | htime
        · exact le_rfl
        · exact (List.pairwise_cons.mp htimes).1 time htime
  rw [sessionRead_eq, hlive]
  cases ifLive now (history s.auth.users sessionId calls (s.sessions sessionId)) <;> rfl

/-- Two sessions, and a logout of one. -/
theorem payload_afterLogout :
    (sessionRead "s" 9 (runCalls [(1, .write "s" "p" none none none),
      (2, .write "t" "q" none none none), (3, .destroy "t"), (4, .gc)] {})).1.payload =
      (ifLive 9 (history [] "s" [(1, .write "s" "p" none none none),
        (2, .write "t" "q" none none none), (3, .destroy "t"), (4, .gc)] none)).map Session.payload :=
  payload_sessionRead_eq _ {} "s" 9 (by decide)

end Genjishimada.Auth
