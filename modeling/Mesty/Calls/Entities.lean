import Mesty.Base.Ids

namespace Mesty.Calls.Entities

open Mesty.Base.Ids

abbrev Timestamp := Nat

inductive CallType where
  | audio
  | video
  deriving DecidableEq

namespace CallType

def asDbStr : CallType → String
  | audio => "audio"
  | video => "video"

def fromDbStr (s : String) : Option CallType :=
  if s = "audio" then some audio else if s = "video" then some video else none

theorem fromDbStr_asDbStr (t : CallType) : fromDbStr t.asDbStr = some t := by
  cases t <;> rfl

end CallType

inductive CallStatus where
  | initiated
  | ringing
  | answered
  | ended
  | missed
  | rejected
  | busy
  deriving DecidableEq

namespace CallStatus

def asDbStr : CallStatus → String
  | initiated => "initiated"
  | ringing => "ringing"
  | answered => "answered"
  | ended => "ended"
  | missed => "missed"
  | rejected => "rejected"
  | busy => "busy"

/-- The `Debug` text. -/
def debugStr : CallStatus → String
  | initiated => "Initiated"
  | ringing => "Ringing"
  | answered => "Answered"
  | ended => "Ended"
  | missed => "Missed"
  | rejected => "Rejected"
  | busy => "Busy"

def isActive : CallStatus → Bool
  | initiated | ringing | answered => true
  | ended | missed | rejected | busy => false

theorem asDbStr_injective : Function.Injective asDbStr := by
  intro s t h
  cases s <;> cases t <;> first | rfl | exact absurd h (by decide)

end CallStatus

structure Call where
  id : Uuid
  callerId : Uuid
  receiverId : Uuid
  callType : CallType
  status : CallStatus
  startedAt : Option Timestamp
  endedAt : Option Timestamp
  createdAt : Timestamp
  updatedAt : Timestamp
  deriving DecidableEq

structure NewCall where
  callerId : Uuid
  receiverId : Uuid
  callType : CallType
  deriving DecidableEq

end Mesty.Calls.Entities
