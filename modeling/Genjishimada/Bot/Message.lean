import Mathlib.Data.List.Basic

/-!
# Messages of the broker

An `aio_pika` message as the bot receives it.
-/

namespace Genjishimada.Bot

/-- A value of an AMQP header table. -/
inductive HeaderValue where
  | null
  | bool (b : Bool)
  | int (i : Int)
  | str (s : String)
deriving DecidableEq, Repr

/-- `bool(value)` -/
def HeaderValue.truthy : HeaderValue → Bool
  | .null => false
  | .bool b => b
  | .int i => i != 0
  | .str s => s != ""

/-- The headers of a message, a `dict`. -/
abbrev Headers := List (String × HeaderValue)

/-- `bool(headers.get(key))` -/
def Headers.holds (headers : Headers) (key : String) : Bool :=
  (headers.lookup key).any HeaderValue.truthy

/-- `{**headers, key: value}` -/
def Headers.set (headers : Headers) (key : String) (value : HeaderValue) : Headers :=
  (key, value) :: headers.filter fun h ↦ h.1 != key

/-- An `aio_pika` message with a body of type `β`, and the fields a republication copies. -/
structure Message (β : Type) where
  body : β
  headers : Headers := []
  contentType : Option String := none
  contentEncoding : Option String := none
  deliveryMode : Option Nat := none
  correlationId : Option String := none
  messageId : Option String := none
  timestamp : Option Int := none
  type : Option String := none
  appId : Option String := none
  userId : Option String := none
deriving DecidableEq, Repr

/-- A key that was set reads as it was set. -/
theorem Headers.holds_set_self (headers : Headers) (key : String) (value : HeaderValue) :
    (headers.set key value).holds key = value.truthy := by
  simp [Headers.holds, Headers.set]

/-- Setting another key does not change what a key reads. -/
theorem Headers.holds_set_of_ne (headers : Headers) {key key' : String} (value : HeaderValue)
    (h : key ≠ key') : (headers.set key' value).holds key = headers.holds key := by
  have hbeq : (key == key') = false := beq_eq_false_iff_ne.mpr h
  simp only [Headers.holds, Headers.set, List.lookup_cons, hbeq]
  congr 1
  induction headers with
  | nil => rfl
  | cons e headers ih =>
      obtain ⟨k, v⟩ := e
      by_cases hk : k = key'
      · subst hk
        simp only [List.filter_cons, bne_self_eq_false, Bool.false_eq_true, ↓reduceIte, ih,
          List.lookup_cons, hbeq]
      · have hne : (k != key') = true := bne_iff_ne.mpr hk
        simp only [List.filter_cons, hne, ↓reduceIte, List.lookup_cons, ih]

/-- `message.message_id`, when it is there and not empty. -/
def Message.key {β : Type} (message : Message β) : Option String :=
  message.messageId.filter fun id ↦ id ≠ ""

end Genjishimada.Bot
