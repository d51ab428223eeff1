import Genjishimada.Repository.Notifications

/-!
# `services/notifications_service.py`

The calls on the tray and on the preferences.  What `create_and_dispatch` hands to the broker is
part of its result; that the broker may refuse it is left out.
-/

namespace Genjishimada.Services

open Repository

/-- `DISCORD_USER_ID_LOWER_LIMIT` -/
def discordUserIdLowerLimit : Nat := 1000000000000000

/-- `_get_enabled_channels` -/
def getEnabledChannels (userId : Nat) (eventType : NotificationEventType) (db : NotificationDb) :
    List NotificationChannel :=
  let explicitPrefs := db.preferences userId eventType
  NotificationChannel.all.filter fun channel ↦
    match explicitPrefs channel with
    | some enabled => enabled
    | none => decide (channel ∈ eventType.defaultChannels)

inductive NotificationError where
  | userNotFound (userId : Nat)
deriving DecidableEq, Repr

/-- `update_preference` -/
def updatePreference (userId : Nat) (eventType : NotificationEventType)
    (channel : NotificationChannel) (enabled : Bool) (db : NotificationDb) :
    Except NotificationError NotificationDb :=
  if userId ∈ db.users then
    match db.upsertPreference userId eventType channel enabled with
    | some db => .ok db
    | none => .error (.userNotFound userId)
  else .error (.userNotFound userId)

/-- `NotificationPreference` -/
structure NotificationPreference where
  eventType : NotificationEventType
  channel : NotificationChannel
  enabled : Bool
deriving DecidableEq, Repr

/-- `bulk_update_preferences` -/
def bulkUpdatePreferences (userId : Nat) (preferences : List NotificationPreference)
    (db : NotificationDb) : Except NotificationError NotificationDb :=
  if userId ∈ db.users then
    preferences.foldlM (fun db pref ↦
      updatePreference userId pref.eventType pref.channel pref.enabled db) db
  else .error (.userNotFound userId)

/-- `NotificationCreateRequest` -/
structure NotificationCreateRequest extends NotificationDb.NewEvent where
  discordMessage : Option String := none
deriving DecidableEq, Repr

/-- `NotificationDeliveryEvent` -/
structure NotificationDeliveryEvent where
  eventId : Nat
  userId : Nat
  eventType : NotificationEventType
  title : String
  body : String
  discordMessage : Option String
  metadata : Option String
  channelsToDeliver : List NotificationChannel
deriving DecidableEq, Repr

/-- What `create_and_dispatch` returns, publishes and leaves. -/
structure Dispatched where
  event : NotificationEvent
  delivery : Option NotificationDeliveryEvent
  db : NotificationDb

/-- `create_and_dispatch` -/
def createAndDispatch (data : NotificationCreateRequest) (now : Int) (db : NotificationDb) :
    Except NotificationError Dispatched :=
  match db.insertEvent data.toNewEvent now with
  | none => .error (.userNotFound data.userId)
  | some (eventId, db) =>
      let event : NotificationEvent :=
        { id := eventId, userId := data.userId, eventType := data.eventType, title := data.title
          body := data.body, metadata := data.metadata, createdAt := now }
      let channelsToDeliver := getEnabledChannels data.userId data.eventType db
      let discordChannels := channelsToDeliver.filter fun c ↦ c = .discordDm || c = .discordPing
      let delivery : NotificationDeliveryEvent :=
        { eventId, userId := data.userId, eventType := data.eventType, title := data.title
          body := data.body, discordMessage := data.discordMessage, metadata := data.metadata
          channelsToDeliver := discordChannels }
      .ok { event, db
            delivery :=
              if discordChannels ≠ [] ∧ discordUserIdLowerLimit ≤ data.userId then some delivery
              else none }

/-- A call that changes the tray or the preferences. -/
inductive NotificationCall where
  | create (data : NotificationCreateRequest)
  | markRead (eventId : Nat)
  | markAllRead (userId : Nat)
  | dismiss (eventId : Nat)
  | dismissAll (userId : Nat)
  | updatePreference (userId : Nat) (preference : NotificationPreference)
  | bulkUpdatePreferences (userId : Nat) (preferences : List NotificationPreference)

/-- The tables after a call; one that raises leaves them as they were. -/
def NotificationCall.after (now : Int) (db : NotificationDb) : NotificationCall → NotificationDb
  | .create data =>
      match createAndDispatch data now db with
      | .ok dispatched => dispatched.db
      | .error _ => db
  | .markRead eventId => db.markEventRead eventId now
  | .markAllRead userId => (db.markAllEventsRead userId now).2
  | .dismiss eventId => db.dismissEvent eventId now
  | .dismissAll userId => (db.dismissAllEvents userId now).2
  | .updatePreference userId pref =>
      match Services.updatePreference userId pref.eventType pref.channel pref.enabled db with
      | .ok db => db
      | .error _ => db
  | .bulkUpdatePreferences userId preferences =>
      match Services.bulkUpdatePreferences userId preferences db with
      | .ok db => db
      | .error _ => db

end Genjishimada.Services
