import Mathlib.Tactic.TypeStar

/-!
# `genjishimada_sdk.completions`

The requests of the completions service.  An `UNSET` field is `none`; the texts that
only end up in a notification are left out.
-/

namespace Genjishimada.Sdk

structure CompletionCreateRequest where
  code : String
  userId : Nat
  /-- Hundredths of a second. -/
  time : Int
  screenshot : String
  video : Option String
deriving DecidableEq, Repr

structure CompletionVerificationUpdateRequest where
  verifiedBy : Nat
  verified : Bool
  reason : Option String := none
deriving DecidableEq, Repr

structure CompletionModerateRequest where
  moderatedBy : Nat
  time : Option Int := none
  timeChangeReason : Option String := none
  verified : Option Bool := none
  markSuspicious : Bool := false
  unmarkSuspicious : Bool := false
  suspiciousContext : Option String := none
  suspiciousFlagType : Option String := none
deriving DecidableEq, Repr

structure UpvoteCreateRequest where
  userId : Nat
  messageId : Nat
deriving DecidableEq, Repr

structure UpvoteUpdateEvent where
  userId : Nat
  messageId : Nat
deriving DecidableEq, Repr

end Genjishimada.Sdk
