import Genjishimada.Library.Table
import Mathlib.Logic.Function.Basic

/-!
# `repository/notifications_repository.py`

The tray of notifications and the preferences, with the types of
`genjishimada_sdk.notifications`.  Metadata is only carried along, as its JSON text.
-/

namespace Genjishimada.Repository

open Library

/-- `NotificationChannel` -/
inductive NotificationChannel where
  | discordDm
  | discordPing
  | web
deriving DecidableEq, Repr

/-- `for channel in NotificationChannel` -/
def NotificationChannel.all : List NotificationChannel := [.discordDm, .discordPing, .web]

/-- `NotificationEventType` -/
inductive NotificationEventType where
  | verificationApproved
  | verificationRejected
  | recordRemoved
  | recordEdited
  | autoVerifyFailed
  | skillRoleUpdate
  | xpGain
  | rankUp
  | prestige
  | masteryEarned
  | lootboxEarned
  | playtestUpdate
  | mapEditApproved
  | mapEditRejected
  | questComplete
  | questRotation
  | questRivalMention
deriving DecidableEq, Repr

/-- `for event_type in NotificationEventType` -/
def NotificationEventType.all : List NotificationEventType :=
  [.verificationApproved, .verificationRejected, .recordRemoved, .recordEdited, .autoVerifyFailed,
    .skillRoleUpdate, .xpGain, .rankUp, .prestige, .masteryEarned, .lootboxEarned, .playtestUpdate,
    .mapEditApproved, .mapEditRejected, .questComplete, .questRotation, .questRivalMention]

/-- `EVENT_TYPE_DEFAULT_CHANNELS`; an edited record has none. -/
def NotificationEventType.defaultChannels : NotificationEventType → List NotificationChannel
  | .recordEdited => []
  | .xpGain | .rankUp | .prestige | .masteryEarned => [.discordPing, .web]
  | .questComplete => [.discordDm, .discordPing, .web]
  | .questRotation => [.web]
  | .verificationApproved | .verificationRejected | .recordRemoved | .autoVerifyFailed
  | .skillRoleUpdate | .lootboxEarned | .playtestUpdate | .mapEditApproved | .mapEditRejected
  | .questRivalMention => [.discordDm, .web]

/-- A row of `notifications.events`. -/
structure NotificationEvent where
  id : Nat
  userId : Nat
  eventType : NotificationEventType
  title : String
  body : String
  metadata : Option String := none
  createdAt : Int
  readAt : Option Int := none
  dismissedAt : Option Int := none
deriving DecidableEq, Repr

instance : Keyed NotificationEvent := ⟨NotificationEvent.id⟩

/-- `notifications.events`, and `notifications.preferences` by its primary key. -/
structure NotificationDb where
  users : List Nat := []
  events : Table NotificationEvent := .empty
  preferences : Nat → NotificationEventType → NotificationChannel → Option Bool :=
    fun _ _ _ ↦ none

namespace NotificationDb

variable (db : NotificationDb)

/-- What `insert_event` is given. -/
structure NewEvent where
  userId : Nat
  eventType : NotificationEventType
  title : String
  body : String
  metadata : Option String := none
deriving DecidableEq, Repr

/-- `insert_event`; `none` if there is no such user. -/
def insertEvent (new : NewEvent) (now : Int) : Option (Nat × NotificationDb) :=
  if new.userId ∈ db.users then
    some (db.events.nextId, { db with
      events := db.events.insert fun id ↦
        { id, userId := new.userId, eventType := new.eventType, title := new.title, body := new.body
          metadata := new.metadata, createdAt := now } })
  else none

/-- The rows of `fetch_user_events`, before they are ordered and cut into a page. -/
def userEvents (userId : Nat) (unreadOnly : Bool) : List NotificationEvent :=
  db.events.select fun e ↦
    e.userId = userId && e.dismissedAt = none && (!unreadOnly || e.readAt = none)

/-- `ORDER BY created_at DESC` -/
def newestFirst (a b : NotificationEvent) : Prop := b.createdAt ≤ a.createdAt

instance : DecidableRel newestFirst := fun a b ↦
  inferInstanceAs (Decidable (b.createdAt ≤ a.createdAt))

/-- `fetch_unread_count` -/
def fetchUnreadCount (userId : Nat) : Nat :=
  db.events.rows.countP fun e ↦ e.userId = userId && e.readAt = none && e.dismissedAt = none

/-- `mark_event_read` -/
def markEventRead (eventId : Nat) (now : Int) : NotificationDb :=
  { db with
    events := db.events.modify (fun e ↦ e.id = eventId) fun e ↦ { e with readAt := some now } }

/-- `mark_all_events_read`; also counts those that were dismissed unread. -/
def markAllEventsRead (userId : Nat) (now : Int) : Nat × NotificationDb :=
  (db.events.rows.countP fun e ↦ e.userId = userId && e.readAt = none,
    { db with
      events := db.events.modify (fun e ↦ e.userId = userId && e.readAt = none)
        fun e ↦ { e with readAt := some now } })

/-- `dismiss_all_events` -/
def dismissAllEvents (userId : Nat) (now : Int) : Nat × NotificationDb :=
  (db.events.rows.countP fun e ↦ e.userId = userId && e.dismissedAt = none,
    { db with
      events := db.events.modify (fun e ↦ e.userId = userId && e.dismissedAt = none)
        fun e ↦ { e with dismissedAt := some now, readAt := e.readAt.or (some now) } })

/-- `dismiss_event` -/
def dismissEvent (eventId : Nat) (now : Int) : NotificationDb :=
  { db with
    events := db.events.modify (fun e ↦ e.id = eventId) fun e ↦ { e with dismissedAt := some now } }

/-- `upsert_preference`; `none` if there is no such user. -/
def upsertPreference (userId : Nat) (eventType : NotificationEventType)
    (channel : NotificationChannel) (enabled : Bool) : Option NotificationDb :=
  if userId ∈ db.users then
    some { db with
      preferences := fun u t c ↦
        if u = userId ∧ t = eventType ∧ c = channel then some enabled else db.preferences u t c }
  else none

end NotificationDb

end Genjishimada.Repository
