import Genjishimada.Library.Dict
import Genjishimada.Library.Paging
import Genjishimada.Services.Notifications

/-!
# The tray and the preferences

A channel is delivered to as the user's last setting says, and as the default of the type says where
there is none; what the preferences show, `should_deliver` and what is published agree on it
(`delivered_after`).  A notification stays in the tray until it is dismissed, and unread until it is
read, alone or with the others of its user (`tray_after`); the tray, read page by page, shows each
once (`tray_pages`).
-/

namespace Genjishimada.Users

open Library Repository Services

variable {db : NotificationDb} {call : NotificationCall} {u : Nat} {t : NotificationEventType}
  {c : NotificationChannel} {now : Int} {e : NotificationEvent}

/-- The tables after some calls, each made at its time. -/
def afterCalls (calls : List (Int × NotificationCall)) (db : NotificationDb) : NotificationDb :=
  calls.foldl (fun db call ↦ call.2.after call.1 db) db

/-! ## Preferences -/

/-- What a call sets for a user. -/
def settings (u : Nat) : NotificationCall → List NotificationPreference
  | .updatePreference userId preference => if userId = u then [preference] else []
  | .bulkUpdatePreferences userId preferences => if userId = u then preferences else []
  | .create _ | .markRead _ | .markAllRead _ | .dismiss _ | .dismissAll _ => []

/-- What the settings say of each channel, the last one counting. -/
def settingOf (settings : List NotificationPreference) :
    NotificationEventType × NotificationChannel → Option Bool :=
  dictOf (settings.map fun p ↦ ((p.eventType, p.channel), p.enabled))

section Preferences

theorem settingOf_append (ps ps' : List NotificationPreference)
    (k : NotificationEventType × NotificationChannel) :
    settingOf (ps ++ ps') k = (settingOf ps' k).or (settingOf ps k) := by
  rw [settingOf, List.map_append, dictOf_append]
  rfl

theorem updatePreference_eq (userId : Nat) (p : NotificationPreference) (db : NotificationDb) :
    updatePreference userId p.eventType p.channel p.enabled db =
      if userId ∈ db.users then
        .ok { db with
          preferences := fun u t c ↦
            if u = userId ∧ t = p.eventType ∧ c = p.channel then some p.enabled
            else db.preferences u t c }
      else .error (.userNotFound userId) := by
  rw [updatePreference, NotificationDb.upsertPreference]
  split <;> rfl

/-- A bulk update of a user that exists goes through, and sets what its last rows say. -/
theorem bulkUpdatePreferences_eq (userId : Nat) (ps : List NotificationPreference)
    (huser : userId ∈ db.users) :
    ∃ db', bulkUpdatePreferences userId ps db = .ok db' ∧ db'.users = db.users ∧
      db'.events = db.events ∧ ∀ u t c, db'.preferences u t c =
        (if userId = u then settingOf ps (t, c) else none).or (db.preferences u t c) := by
  rw [bulkUpdatePreferences, if_pos huser]
  induction ps generalizing db with
  | nil =>
      refine ⟨db, rfl, rfl, rfl, fun u t c ↦ ?_⟩
      split <;> rfl
  | cons p ps ih =>
      rw [List.foldlM_cons, updatePreference_eq, if_pos huser]
      obtain ⟨db', hok, husers, hevents, hpreferences⟩ := @ih { db with
        preferences := fun u t c ↦
          if u = userId ∧ t = p.eventType ∧ c = p.channel then some p.enabled
          else db.preferences u t c } huser
      refine ⟨db', hok, husers, hevents, fun u t c ↦ ?_⟩
      rw [hpreferences, ← List.singleton_append, settingOf_append]
      by_cases hown : userId = u
      · subst hown
        rw [if_pos rfl, if_pos rfl, Option.or_assoc]
        congr 1
        rw [settingOf, List.map_singleton, dictOf, List.foldl_cons, List.foldl_nil,
          Function.update_apply]
        simp only [true_and, Prod.mk.injEq]
        split <;> rfl
      · have hother : ¬ (u = userId ∧ t = p.eventType ∧ c = p.channel) := fun h ↦ hown h.1.symm
        simp only [if_neg hown, if_neg hother]

/-- A notification for a user that exists is stored, and published for the Discord channels that
are enabled. -/
theorem createAndDispatch_eq_ok {data : NotificationCreateRequest} (huser : data.userId ∈ db.users)
    (now : Int) : ∃ dispatched, createAndDispatch data now db = .ok dispatched ∧
      dispatched.event =
        { id := db.events.nextId, userId := data.userId, eventType := data.eventType
          title := data.title, body := data.body, metadata := data.metadata, createdAt := now } ∧
      dispatched.db = { db with
        events := db.events.insert fun id ↦
          { id, userId := data.userId, eventType := data.eventType, title := data.title
            body := data.body, metadata := data.metadata, createdAt := now } } ∧
      ∀ c, (∃ delivery, dispatched.delivery = some delivery ∧ c ∈ delivery.channelsToDeliver) ↔
        c ∈ getEnabledChannels data.userId data.eventType db ∧ c ≠ .web ∧
          discordUserIdLowerLimit ≤ data.userId := by
  rw [createAndDispatch, NotificationDb.insertEvent, if_pos huser]
  refine ⟨_, rfl, rfl, rfl, fun c ↦ ?_⟩
  have hdiscord (cs : List NotificationChannel) :
      c ∈ cs.filter (fun c ↦ decide (c = .discordDm) || decide (c = .discordPing)) ↔
        c ∈ cs ∧ c ≠ .web := by
    rw [List.mem_filter]
    cases c <;> simp
  dsimp only
  split
  · rename_i hpublished
    simp only [Option.some.injEq, exists_eq_left', hdiscord, hpublished.2, and_true]
    exact Iff.rfl
  · rename_i hpublished
    refine iff_of_false (fun h ↦ by simp at h) ?_
    rintro ⟨hc, hweb, hlimit⟩
    exact hpublished ⟨List.ne_nil_of_mem ((hdiscord _).mpr ⟨hc, hweb⟩), hlimit⟩

theorem createAndDispatch_eq_error {data : NotificationCreateRequest}
    (huser : data.userId ∉ db.users) (now : Int) :
    createAndDispatch data now db = .error (.userNotFound data.userId) := by
  rw [createAndDispatch, NotificationDb.insertEvent, if_neg huser]

end Preferences

/-! ## The tray -/

/-- What a call makes of a notification. -/
def noticeAfter (now : Int) (e : NotificationEvent) : NotificationCall → NotificationEvent
  | .markRead eventId => if e.id = eventId then { e with readAt := some now } else e
  | .markAllRead userId =>
      if e.userId = userId ∧ e.readAt = none then { e with readAt := some now } else e
  | .dismiss eventId => if e.id = eventId then { e with dismissedAt := some now } else e
  | .dismissAll userId =>
      if e.userId = userId ∧ e.dismissedAt = none then
        { e with dismissedAt := some now, readAt := e.readAt.or (some now) }
      else e
  | .create _ | .updatePreference _ _ | .bulkUpdatePreferences _ _ => e

/-- The call dismisses the notification. -/
def Dismisses (e : NotificationEvent) (call : NotificationCall) : Prop :=
  call = .dismiss e.id ∨ call = .dismissAll e.userId

/-- The call reads it. -/
def Reads (e : NotificationEvent) (call : NotificationCall) : Prop :=
  call = .markRead e.id ∨ call = .markAllRead e.userId

section Tray

/-- A call makes of each notification what it makes of it alone, and adds at most one. -/
theorem events_after (now : Int) (db : NotificationDb) (call : NotificationCall) :
    (call.after now db).events.rows = db.events.rows.map (noticeAfter now · call) ∨
      ∃ new : NotificationEvent, new.createdAt = now ∧ new.id = db.events.nextId ∧
        (call.after now db).events.rows = db.events.rows ++ [new] ∧
        (∀ e, noticeAfter now e call = e) := by
  have hsame (db' : NotificationDb) (h : db'.events = db.events)
      (hcall : ∀ e, noticeAfter now e call = e) :
      db'.events.rows = db.events.rows.map (noticeAfter now · call) := by
    rw [h, List.map_congr_left fun e _ ↦ hcall e, List.map_id']
  cases call with
  | create data =>
      rw [NotificationCall.after]
      by_cases huser : data.userId ∈ db.users
      · obtain ⟨dispatched, hok, hevent, hdb, -⟩ := createAndDispatch_eq_ok huser now
        rw [hok]
        refine .inr ⟨dispatched.event, by rw [hevent], by rw [hevent], ?_, fun _ ↦ rfl⟩
        simp only [hdb, hevent]
        exact Table.rows_insert _ _
      · rw [createAndDispatch_eq_error huser]
        exact .inl (hsame db rfl fun _ ↦ rfl)
  | markRead eventId =>
      left
      rw [NotificationCall.after, NotificationDb.markEventRead, Table.rows_modify]
      refine List.map_congr_left fun e _ ↦ ?_
      simp [noticeAfter]
  | markAllRead userId =>
      left
      rw [NotificationCall.after, NotificationDb.markAllEventsRead, Table.rows_modify]
      refine List.map_congr_left fun e _ ↦ ?_
      simp [noticeAfter]
  | dismiss eventId =>
      left
      rw [NotificationCall.after, NotificationDb.dismissEvent, Table.rows_modify]
      refine List.map_congr_left fun e _ ↦ ?_
      simp [noticeAfter]
  | dismissAll userId =>
      left
      rw [NotificationCall.after, NotificationDb.dismissAllEvents, Table.rows_modify]
      refine List.map_congr_left fun e _ ↦ ?_
      simp [noticeAfter]
  | updatePreference userId p =>
      rw [NotificationCall.after, updatePreference_eq]
      left
      by_cases huser : userId ∈ db.users
      · rw [if_pos huser]
        exact hsame _ rfl fun _ ↦ rfl
      · rw [if_neg huser]
        exact hsame db rfl fun _ ↦ rfl
  | bulkUpdatePreferences userId ps =>
      left
      rw [NotificationCall.after]
      by_cases huser : userId ∈ db.users
      · obtain ⟨db', hok, -, hevents, -⟩ := bulkUpdatePreferences_eq userId ps huser
        rw [hok]
        exact hsame db' hevents fun _ ↦ rfl
      · have herror : bulkUpdatePreferences userId ps db = .error (.userNotFound userId) :=
          if_neg huser
        rw [herror]
        exact hsame db rfl fun _ ↦ rfl

@[simp] theorem id_noticeAfter : (noticeAfter now e call).id = e.id := by
  cases call <;> simp only [noticeAfter] <;> split <;> rfl

@[simp] theorem userId_noticeAfter : (noticeAfter now e call).userId = e.userId := by
  cases call <;> simp only [noticeAfter] <;> split <;> rfl

@[simp] theorem createdAt_noticeAfter : (noticeAfter now e call).createdAt = e.createdAt := by
  cases call <;> simp only [noticeAfter] <;> split <;> rfl

/-- A notification is dismissed by the calls that dismiss it. -/
theorem dismissedAt_noticeAfter : (noticeAfter now e call).dismissedAt = none ↔
    e.dismissedAt = none ∧ ¬ Dismisses e call := by
  cases call with
  | create _ | updatePreference _ _ | bulkUpdatePreferences _ _ => simp [noticeAfter, Dismisses]
  | markRead _ | markAllRead _ | dismiss _ | dismissAll _ =>
      simp only [noticeAfter, Dismisses]
      split <;> grind

/-- It is read by the calls that read or dismiss it. -/
theorem readAt_noticeAfter :
    (noticeAfter now e call).dismissedAt = none ∧ (noticeAfter now e call).readAt = none ↔
      (e.dismissedAt = none ∧ e.readAt = none) ∧ ¬ Dismisses e call ∧ ¬ Reads e call := by
  cases call with
  | create _ | updatePreference _ _ | bulkUpdatePreferences _ _ =>
      simp [noticeAfter, Dismisses, Reads]
  | markRead _ | markAllRead _ | dismiss _ | dismissAll _ =>
      simp only [noticeAfter, Dismisses, Reads]
      split <;> grind

/-- A notification is there after any calls, dismissed and read by them alone. -/
theorem event_afterCalls (calls : List (Int × NotificationCall)) (he : e ∈ db.events.rows) :
    ∃ e' ∈ (afterCalls calls db).events.rows, e'.id = e.id ∧ e'.userId = e.userId ∧
      (e'.dismissedAt = none ↔ e.dismissedAt = none ∧ ∀ call ∈ calls, ¬ Dismisses e call.2) ∧
      (e'.dismissedAt = none ∧ e'.readAt = none ↔ (e.dismissedAt = none ∧ e.readAt = none) ∧
        ∀ call ∈ calls, ¬ Dismisses e call.2 ∧ ¬ Reads e call.2) := by
  induction calls generalizing db e with
  | nil => exact ⟨e, he, rfl, rfl, by simp, by simp⟩
  | cons call calls ih =>
      have hmem : noticeAfter call.1 e call.2 ∈ (call.2.after call.1 db).events.rows := by
        rcases events_after call.1 db call.2 with hrows | ⟨new, -, -, hrows, hsame⟩
        · rw [hrows]
          exact List.mem_map_of_mem he
        · rw [hrows, hsame]
          exact List.mem_append_left _ he
      obtain ⟨e', he', hid, huser, hdismissed, hread⟩ := ih hmem
      have hdismisses (call' : NotificationCall) :
          Dismisses (noticeAfter call.1 e call.2) call' ↔ Dismisses e call' := by
        rw [Dismisses, Dismisses, id_noticeAfter, userId_noticeAfter]
      have hreads (call' : NotificationCall) :
          Reads (noticeAfter call.1 e call.2) call' ↔ Reads e call' := by
        rw [Reads, Reads, id_noticeAfter, userId_noticeAfter]
      refine ⟨e', he', hid.trans id_noticeAfter, huser.trans userId_noticeAfter, ?_, ?_⟩
      · rw [hdismissed, dismissedAt_noticeAfter, List.forall_mem_cons, and_assoc]
        simp only [hdismisses]
      · rw [hread, readAt_noticeAfter, List.forall_mem_cons, and_assoc]
        simp only [hdismisses, hreads]

theorem mem_userEvents {unreadOnly : Bool} : e ∈ db.userEvents u unreadOnly ↔
    e ∈ db.events.rows ∧ e.userId = u ∧ e.dismissedAt = none ∧
      (unreadOnly = true → e.readAt = none) := by
  rw [NotificationDb.userEvents, Table.mem_select]
  cases unreadOnly <;> simp [and_assoc]

/-- A notification that is created stays in its user's tray until it is dismissed, and unread until
it is dismissed or read. -/
theorem tray_after {data : NotificationCreateRequest} {dispatched : Dispatched}
    (hok : createAndDispatch data now db = .ok dispatched) (calls : List (Int × NotificationCall))
    (u : Nat) :
    ((∃ e ∈ (afterCalls calls dispatched.db).userEvents u false, e.id = dispatched.event.id) ↔
        u = data.userId ∧ ∀ call ∈ calls, ¬ Dismisses dispatched.event call.2) ∧
      ((∃ e ∈ (afterCalls calls dispatched.db).userEvents u true, e.id = dispatched.event.id) ↔
        u = data.userId ∧ ∀ call ∈ calls, ¬ Dismisses dispatched.event call.2 ∧
          ¬ Reads dispatched.event call.2) := by
  have huser : data.userId ∈ db.users := by
    by_contra huser
    rw [createAndDispatch_eq_error huser] at hok
    cases hok
  obtain ⟨dispatched', hok', hevent, hdb, -⟩ := createAndDispatch_eq_ok huser now
  cases hok.symm.trans hok'
  have hmem : dispatched.event ∈ dispatched.db.events.rows := by
    rw [hevent, hdb]
    exact Table.mem_insert.mpr (.inr rfl)
  have hfresh : dispatched.event.dismissedAt = none ∧ dispatched.event.readAt = none ∧
      dispatched.event.userId = data.userId := by
    rw [hevent]
    exact ⟨rfl, rfl, rfl⟩
  obtain ⟨hundismissed, hunread, howner⟩ := hfresh
  obtain ⟨e', he', hid, hown, hdismissed, hread⟩ := event_afterCalls calls hmem
  have hunique (unreadOnly : Bool) :
      (∃ e ∈ (afterCalls calls dispatched.db).userEvents u unreadOnly, e.id = dispatched.event.id) ↔
        e'.userId = u ∧ e'.dismissedAt = none ∧ (unreadOnly = true → e'.readAt = none) := by
    constructor
    · rintro ⟨e, he, heid⟩
      obtain ⟨hrow, hrest⟩ := mem_userEvents.mp he
      obtain rfl : e = e' := Table.eq_of_key_eq hrow he' (heid.trans hid.symm)
      exact hrest
    · intro hrest
      exact ⟨e', mem_userEvents.mpr ⟨he', hrest⟩, hid⟩
  have hkept := hdismissed.trans (and_iff_right hundismissed)
  have hkeptUnread := hread.trans (and_iff_right ⟨hundismissed, hunread⟩)
  constructor
  · rw [hunique, hown, howner, hkept, eq_comm (a := data.userId),
      and_iff_left fun h ↦ absurd h Bool.false_ne_true]
  · rw [hunique, hown, howner, eq_comm (a := data.userId), ← hkeptUnread]
    simp only [forall_const]

/-- A notification of user 7, after it was read and one of user 8 was dismissed. -/
theorem tray_of_seven :
    ((∃ e ∈ (afterCalls [(2, .markRead 1), (3, .dismissAll 8)]
          { users := [7, 8], events := Table.empty.insert fun id ↦
              { id, userId := 7, eventType := .rankUp, title := "t", body := "b"
                createdAt := 1 } }).userEvents 7 false, e.id = 1) ↔
        7 = 7 ∧ ∀ call ∈ [((2 : Int), NotificationCall.markRead 1), (3, .dismissAll 8)],
          ¬ Dismisses { id := 1, userId := 7, eventType := .rankUp, title := "t", body := "b"
                        createdAt := 1 } call.2) :=
  (@tray_after { users := [7, 8] } 1
    { userId := 7, eventType := .rankUp, title := "t", body := "b" } _ rfl
    [(2, .markRead 1), (3, .dismissAll 8)] 7).1

end Tray

/-! ## Pages -/

section Pages

instance : IsTrans NotificationEvent NotificationDb.newestFirst :=
  ⟨fun _ _ _ hab hbc ↦ hbc.trans hab⟩

instance : Std.Total NotificationDb.newestFirst :=
  ⟨fun a b ↦ (le_total a.createdAt b.createdAt).symm⟩

/-- The notifications were created one after the other, the last one by `now`. -/
structure Stamped (now : Int) (db : NotificationDb) : Prop where
  sorted : db.events.rows.Pairwise fun e e' ↦ e.createdAt < e'.createdAt
  before : ∀ e ∈ db.events.rows, e.createdAt ≤ now

theorem Stamped.after {later : Int} (h : Stamped now db) (hlt : now < later)
    (call : NotificationCall) : Stamped later (call.after later db) := by
  obtain ⟨hsorted, hbefore⟩ := h
  rcases events_after later db call with hrows | ⟨new, hnow, -, hrows, -⟩
  · constructor
    · rw [hrows, List.pairwise_map]
      simpa using hsorted
    · intro e he
      rw [hrows] at he
      obtain ⟨e₀, he₀, rfl⟩ := List.mem_map.mp he
      rw [createdAt_noticeAfter]
      exact (hbefore e₀ he₀).trans hlt.le
  · constructor
    · rw [hrows, List.pairwise_append]
      refine ⟨hsorted, List.pairwise_singleton _ _, fun e he e' he' ↦ ?_⟩
      rw [List.mem_singleton.mp he', hnow]
      exact (hbefore e he).trans_lt hlt
    · intro e he
      rw [hrows] at he
      rcases List.mem_append.mp he with he | he
      · exact (hbefore e he).trans hlt.le
      · rw [List.mem_singleton.mp he, hnow]

theorem sorted_afterCalls {calls : List (Int × NotificationCall)} (h : Stamped now db)
    (htimes : (now :: calls.map Prod.fst).Pairwise (· < ·)) :
    (afterCalls calls db).events.rows.Pairwise fun e e' ↦ e.createdAt < e'.createdAt := by
  induction calls generalizing db now with
  | nil => exact h.sorted
  | cons call calls ih =>
      obtain ⟨hlt, htimes⟩ := List.pairwise_cons.mp htimes
      exact ih (h.after (hlt call.1 List.mem_cons_self) call.2) htimes

theorem fetchUnreadCount_eq (u : Nat) (db : NotificationDb) :
    db.fetchUnreadCount u = (db.userEvents u true).length := by
  rw [NotificationDb.fetchUnreadCount, NotificationDb.userEvents, Table.select,
    ← List.countP_eq_length_filter]
  refine List.countP_congr fun e _ ↦ ?_
  simp only [Bool.and_eq_true, decide_eq_true_eq, Bool.not_true, Bool.false_or]
  rw [and_right_comm]

/-- If no two calls are made at the same time, the tray, asked for page by page, shows each of its
notifications once, in whatever order the database breaks ties, and the unread ones are as many as
are counted. -/
theorem tray_pages (users : List Nat) (calls : List (Int × NotificationCall))
    (htimes : (calls.map Prod.fst).Pairwise (· < ·)) (u : Nat) (unreadOnly : Bool) {size n : Nat}
    {answers : Nat → List NotificationEvent}
    (hanswers : ∀ k, Resolves NotificationDb.newestFirst
      ((afterCalls calls { users }).userEvents u unreadOnly) (answers k))
    (hn : ((afterCalls calls { users }).userEvents u unreadOnly).length ≤ n * size) :
    (pages size answers n).Perm ((afterCalls calls { users }).userEvents u unreadOnly) ∧
      (unreadOnly = true →
        (pages size answers n).length = (afterCalls calls { users }).fetchUnreadCount u) := by
  have hsorted : (afterCalls calls { users }).events.rows.Pairwise fun e e' ↦
      e.createdAt < e'.createdAt := by
    cases calls with
    | nil => exact List.Pairwise.nil
    | cons call calls =>
        have hempty : Stamped (call.1 - 1) { users } := ⟨List.Pairwise.nil, by rintro e ⟨⟩⟩
        refine sorted_afterCalls hempty (List.pairwise_cons.mpr ⟨fun time htime ↦ ?_, htimes⟩)
        rcases List.mem_cons.mp htime with rfl | htime
        · omega
        · have hlt := (List.pairwise_cons.mp htimes).1 time htime
          omega
  have htimes' : (((afterCalls calls { users }).userEvents u unreadOnly).map
      NotificationEvent.createdAt).Nodup :=
    List.pairwise_map.mpr ((hsorted.filter _).imp ne_of_lt)
  have hsettled : Settled NotificationDb.newestFirst size
      ((afterCalls calls { users }).userEvents u unreadOnly) :=
    settled_of_antisymm (List.Nodup.of_map _ htimes') fun a ha b hb hab hba ↦
      List.inj_on_of_nodup_map htimes' ha hb (le_antisymm hba hab)
  have hperm := pages_perm hsettled hanswers hn
  refine ⟨hperm, ?_⟩
  rintro rfl
  rw [fetchUnreadCount_eq, hperm.length_eq]

/-- Two notifications of user 7. -/
def twoNotices : List (Int × NotificationCall) :=
  [(1, .create { userId := 7, eventType := .rankUp, title := "t", body := "b" }),
    (2, .create { userId := 7, eventType := .prestige, title := "t", body := "b" })]

/-- They are read one at a time. -/
theorem tray_pages_two :
    (pages 1 (fun _ ↦ ((afterCalls twoNotices { users := [7] }).userEvents 7 true).reverse) 2).Perm
      ((afterCalls twoNotices { users := [7] }).userEvents 7 true) :=
  (tray_pages [7] twoNotices (by decide) 7 true
    (fun _ ↦ ⟨List.reverse_perm _, by decide⟩) (by decide)).1

end Pages

end Genjishimada.Users
