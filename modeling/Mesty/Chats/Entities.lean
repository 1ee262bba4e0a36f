import Mathlib.Order.Lattice
import Mesty.Base.Ids

namespace Mesty.Chats.Entities

open Mesty.Base.Ids

/-- Microseconds since 1970. -/
abbrev Timestamp := Int

/-- An instant as a request has it, in nanoseconds since 1970. -/
structure Instant where
  nanos : Int
  deriving DecidableEq

namespace Instant

/-- The epoch of PostgreSQL. -/
def postgresEpoch : Int := 946684800000000

/-- The value that is bound for TIMESTAMPTZ: the whole microseconds from PostgreSQL's epoch. -/
def bound (t : Instant) : Timestamp :=
  postgresEpoch + (t.nanos - 1000 * postgresEpoch).tdiv 1000

/-- The range of TIMESTAMPTZ. -/
def InRange (t : Instant) : Prop :=
  -211813488000000000 ≤ t.bound - postgresEpoch ∧ t.bound - postgresEpoch < 9223371331200000000

instance (t : Instant) : Decidable t.InRange := inferInstanceAs (Decidable (_ ∧ _))

/-- What is read back. -/
def ofTimestamp (t : Timestamp) : Instant := ⟨1000 * t⟩

theorem bound_ofTimestamp (t : Timestamp) : (ofTimestamp t).bound = t := by
  have hcut : (1000 * t - 1000 * postgresEpoch).tdiv 1000 = t - postgresEpoch := by
    rw [← Int.mul_sub, Int.mul_tdiv_cancel_left _ (by decide)]
  rw [bound, ofTimestamp, hcut]
  exact (Int.add_comm _ _).trans (Int.sub_add_cancel _ _)

/-- Less than a microsecond is cut off. -/
theorem nanos_near_bound (t : Instant) : (1000 * t.bound - t.nanos).natAbs < 1000 := by
  have hcut : ∀ epoch micros rest nanos : Int, 1000 * micros + rest = nanos - 1000 * epoch →
      1000 * (epoch + micros) - nanos = -rest := by
    intros
    omega
  rw [bound, hcut _ _ _ _ (Int.mul_tdiv_add_tmod (t.nanos - 1000 * postgresEpoch) 1000),
    Int.natAbs_neg, Int.natAbs_tmod]
  exact Nat.mod_lt _ (by decide)

end Instant

inductive ChatType where
  | «private»
  | group
  | channel
  | selfChat
  deriving DecidableEq

namespace ChatType

def asDbStr : ChatType → String
  | «private» => "private"
  | group => "group"
  | channel => "channel"
  | selfChat => "self"

def fromDbStr (s : String) : Option ChatType :=
  if s = "private" then some «private»
  else if s = "group" then some group
  else if s = "channel" then some channel
  else if s = "self" then some selfChat
  else none

theorem fromDbStr_asDbStr (t : ChatType) : fromDbStr t.asDbStr = some t := by
  cases t <;> rfl

end ChatType

inductive ParticipantRole where
  | member
  | moderator
  | admin
  | owner
  deriving DecidableEq

namespace ParticipantRole

def rank : ParticipantRole → Nat
  | member => 1
  | moderator => 2
  | admin => 3
  | owner => 4

theorem rank_injective : Function.Injective rank := by
  intro a b h
  cases a <;> cases b <;> first | rfl | cases h

instance : LinearOrder ParticipantRole := LinearOrder.lift' rank rank_injective

def asDbStr : ParticipantRole → String
  | member => "member"
  | moderator => "moderator"
  | admin => "admin"
  | owner => "owner"

def fromDbStr (s : String) : Option ParticipantRole :=
  if s = "member" then some member
  else if s = "moderator" then some moderator
  else if s = "admin" then some admin
  else if s = "owner" then some owner
  else none

theorem fromDbStr_asDbStr (r : ParticipantRole) : fromDbStr r.asDbStr = some r := by
  cases r <;> rfl

end ParticipantRole

structure ParticipantDetail where
  userId : Uuid
  chatId : Uuid
  role : ParticipantRole
  encryptionKeyEnc : Option String
  addedBy : Option Uuid
  joinedAt : Timestamp
  deriving DecidableEq

structure Chat where
  id : Uuid
  chatType : ChatType
  name : Option String
  description : Option String
  avatarUrl : Option String
  createdBy : Option Uuid
  createdAt : Timestamp
  deriving DecidableEq

/-- A row of `chats`. -/
structure ChatRow where
  chatType : ChatType
  name : Option String
  description : Option String
  avatarUrl : Option String
  createdBy : Option Uuid
  inviteLink : Option String
  createdAt : Timestamp
  deletedAt : Option Timestamp
  deriving DecidableEq

def ChatRow.toChat (row : ChatRow) (id : Uuid) : Chat :=
  ⟨id, row.chatType, row.name, row.description, row.avatarUrl, row.createdBy, row.createdAt⟩

/-- A row of `chat_participants`. -/
structure ParticipantRow where
  role : ParticipantRole
  encryptionKeyEnc : Option String
  addedBy : Option Uuid
  joinedAt : Timestamp
  leftAt : Option Timestamp
  deriving DecidableEq

def ParticipantRow.toDetail (row : ParticipantRow) (chatId userId : Uuid) : ParticipantDetail :=
  ⟨userId, chatId, row.role, row.encryptionKeyEnc, row.addedBy, row.joinedAt⟩

end Mesty.Chats.Entities
