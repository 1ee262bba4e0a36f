import Mathlib.Data.List.AList
import Mesty.Base.Error
import Mesty.Calls.Entities
import Mesty.Concurrency.Program

namespace Mesty.Calls.Repository

open Mesty.Base.Ids Mesty.Base.Error Mesty.Calls.Entities Mesty.Concurrency.Program

/-- The payloads that the call handlers relay to a user's channel. SDP and ICE
data pass through unread. -/
inductive CallEvent where
  | incoming (callId callerId : Uuid) (callType offer : String)
  | accepted (callId receiverId : Uuid) (answer : String)
  | rejected (callId receiverId : Uuid) (reason : String)
  | iceCandidate (callId senderId : Uuid) (candidate : String)
  | ended (callId endedBy : Uuid) (status : String)
  deriving DecidableEq

structure PushNotificationJob where
  userId : Uuid
  notificationType : String
  callId : Uuid
  callerId : Uuid
  callType : String
  title : String
  body : String
  deriving DecidableEq

/-- What a call handler awaits: the four methods of `CallRepository`, the
clock, and its three ways of sending something away. -/
inductive CallCmd where
  | create (newCall : NewCall)
  | findById (callId : Uuid)
  | updateStatus (callId : Uuid) (status : CallStatus) (startedAt endedAt : Option Timestamp)
  | isUserInActiveCall (userId : Uuid)
  | utcNow
  | publish (userId : Uuid) (event : CallEvent)
  | reply (message : String)
  | enqueuePush (job : PushNotificationJob)
  deriving DecidableEq

abbrev CallCmd.Ans : CallCmd → Type
  | create _ => Except DomainError Call
  | findById _ => Option Call
  | updateStatus .. => Except DomainError Call
  | isUserInActiveCall _ => Bool
  | utcNow => Timestamp
  | publish .. | reply _ | enqueuePush _ => Unit

abbrev CallTask := Prog CallCmd CallCmd.Ans

namespace CallTask

abbrev create (newCall : NewCall) : CallTask (Except DomainError Call) :=
  Prog.cmd (CallCmd.create newCall)

abbrev findById (callId : Uuid) : CallTask (Option Call) := Prog.cmd (CallCmd.findById callId)

abbrev updateStatus (callId : Uuid) (status : CallStatus) (startedAt endedAt : Option Timestamp) :
    CallTask (Except DomainError Call) :=
  Prog.cmd (CallCmd.updateStatus callId status startedAt endedAt)

abbrev isUserInActiveCall (userId : Uuid) : CallTask Bool := Prog.cmd (CallCmd.isUserInActiveCall userId)

abbrev utcNow : CallTask Timestamp := Prog.cmd CallCmd.utcNow

abbrev publish (userId : Uuid) (event : CallEvent) : CallTask Unit :=
  Prog.cmd (CallCmd.publish userId event)

abbrev reply (message : String) : CallTask Unit := Prog.cmd (CallCmd.reply message)

abbrev enqueuePush (job : PushNotificationJob) : CallTask Unit := Prog.cmd (CallCmd.enqueuePush job)

end CallTask

structure CallsDb where
  users : List Uuid
  calls : AList (fun _ : Uuid => Call)
  published : List (Uuid × CallEvent)
  replies : List String
  pushQueue : List PushNotificationJob

/-- The choices outside the program: `gen_random_uuid()` and the clock. -/
structure Choice where
  uuid : Uuid
  now : Timestamp

namespace CallsDb

def empty (users : List Uuid) : CallsDb := ⟨users, ∅, [], [], []⟩

/-- The INSERT with its CHECK and foreign keys. -/
def create (db : CallsDb) (ω : Choice) (c : NewCall) : Option (Except DomainError Call × CallsDb) :=
  if ω.uuid ∈ db.calls then none
  else if c.callerId = c.receiverId then some (.error (.fromSqlx .checkViolation), db)
  else if c.callerId ∉ db.users ∨ c.receiverId ∉ db.users then
    some (.error (.fromSqlx .foreignKeyViolation), db)
  else
    let call : Call := ⟨ω.uuid, c.callerId, c.receiverId, c.callType, .initiated, none, none,
      ω.now, ω.now⟩
    some (.ok call, { db with calls := db.calls.insert ω.uuid call })

/-- The UPDATE is unconditional: it looks at no column but the key. -/
def updateStatus (db : CallsDb) (now : Timestamp) (callId : Uuid) (status : CallStatus)
    (startedAt endedAt : Option Timestamp) : Except DomainError Call × CallsDb :=
  match db.calls.lookup callId with
  | none => (.error (.fromSqlx .rowNotFound), db)
  | some call =>
    let call' := { call with
      status := status, startedAt := startedAt.or call.startedAt, endedAt := endedAt,
      updatedAt := now }
    (.ok call', { db with calls := db.calls.insert callId call' })

def isUserInActiveCall (db : CallsDb) (userId : Uuid) : Bool :=
  db.calls.entries.any (fun e => (e.2.callerId = userId ∨ e.2.receiverId = userId) ∧
    e.2.status ∈ [CallStatus.initiated, .ringing, .answered])

def exec (ω : Choice) : (c : CallCmd) → CallsDb → Option (c.Ans × CallsDb)
  | .create newCall, db => db.create ω newCall
  | .findById callId, db => some (db.calls.lookup callId, db)
  | .updateStatus callId status startedAt endedAt, db =>
    some (db.updateStatus ω.now callId status startedAt endedAt)
  | .isUserInActiveCall userId, db => some (db.isUserInActiveCall userId, db)
  | .utcNow, db => some (ω.now, db)
  | .publish userId event, db => some ((), { db with published := db.published ++ [(userId, event)] })
  | .reply message, db => some ((), { db with replies := db.replies ++ [message] })
  | .enqueuePush job, db => some ((), { db with pushQueue := db.pushQueue ++ [job] })

variable {ω : Choice} {db db' : CallsDb}

/-- What a command does to a row that is there: only the UPDATE of its key changes it. -/
theorem exec_lookup {c : CallCmd} {ans : c.Ans} (h : exec ω c db = some (ans, db')) {callId : Uuid}
    {x : Call} (hx : db.calls.lookup callId = some x) :
    (∃ st s e, c = .updateStatus callId st s e ∧ db'.calls.lookup callId = some { x with
      status := st, startedAt := s.or x.startedAt, endedAt := e, updatedAt := ω.now }) ∨
    ((∀ st s e, c ≠ .updateStatus callId st s e) ∧ db'.calls.lookup callId = some x) := by
  cases c with
  | create newCall =>
    refine .inr ⟨by simp, ?_⟩
    simp only [exec, create] at h
    split at h
    · cases h
    · next hfresh =>
      have hne : callId ≠ ω.uuid := by
        rintro rfl
        exact hfresh (AList.lookup_isSome.mp (by simp [hx]))
      split_ifs at h <;> simp only [Option.some.injEq, Prod.mk.injEq] at h <;>
        obtain ⟨-, rfl⟩ := h <;> simp [AList.lookup_insert_ne hne, hx]
  | updateStatus id st s e =>
    simp only [exec, updateStatus, Option.some.injEq] at h
    rcases eq_or_ne callId id with rfl | hne
    · refine .inl ⟨st, s, e, rfl, ?_⟩
      simp only [hx, Prod.mk.injEq] at h
      simp [← h.2]
    · refine .inr ⟨by simp [hne.symm], ?_⟩
      split at h <;> simp only [Prod.mk.injEq] at h <;> simp [← h.2, AList.lookup_insert_ne hne, hx]
  | findById | isUserInActiveCall | utcNow | publish | reply | enqueuePush =>
    refine .inr ⟨by simp, ?_⟩
    simp only [exec, Option.some.injEq, Prod.mk.injEq] at h
    obtain ⟨-, rfl⟩ := h
    exact hx

/-- Where a row comes from: it was there, or it is new, or it is an updated row. -/
theorem lookup_exec {c : CallCmd} {ans : c.Ans} (h : exec ω c db = some (ans, db')) {callId : Uuid}
    {y : Call} (hy : db'.calls.lookup callId = some y) :
    db.calls.lookup callId = some y ∨
    (∃ newCall, c = .create newCall ∧ callId ∉ db.calls ∧ y = ⟨callId, newCall.callerId,
      newCall.receiverId, newCall.callType, .initiated, none, none, ω.now, ω.now⟩) ∨
    (∃ st s e x, c = .updateStatus callId st s e ∧ db.calls.lookup callId = some x ∧ y = { x with
      status := st, startedAt := s.or x.startedAt, endedAt := e, updatedAt := ω.now }) := by
  cases hx : db.calls.lookup callId with
  | some x =>
    rcases exec_lookup h hx with ⟨st, s, e, rfl, hl⟩ | ⟨-, hl⟩
    · exact .inr (.inr ⟨st, s, e, x, rfl, rfl, Option.some.inj (hy.symm.trans hl)⟩)
    · exact .inl (hl.symm.trans hy)
  | none =>
    have hmem : callId ∉ db.calls := fun hm => by simp [← AList.lookup_isSome, hx] at hm
    cases c with
    | create newCall =>
      refine .inr (.inl ⟨newCall, rfl, hmem, ?_⟩)
      simp only [exec, create] at h
      split_ifs at h <;> simp only [Option.some.injEq, Prod.mk.injEq] at h <;>
        obtain ⟨-, rfl⟩ := h
      · simp [hx] at hy
      · simp [hx] at hy
      · rcases eq_or_ne callId ω.uuid with rfl | hne
        · simpa [eq_comm] using hy
        · simp [AList.lookup_insert_ne hne, hx] at hy
    | updateStatus id st s e =>
      simp only [exec, updateStatus, Option.some.injEq] at h
      split at h <;> simp only [Prod.mk.injEq] at h <;> obtain ⟨-, rfl⟩ := h
      · simp [hx] at hy
      · next x hl =>
        have hne : callId ≠ id := by
          rintro rfl
          simp [hx] at hl
        simp [AList.lookup_insert_ne hne, hx] at hy
    | findById | isUserInActiveCall | utcNow | publish | reply | enqueuePush =>
      simp only [exec, Option.some.injEq, Prod.mk.injEq] at h
      obtain ⟨-, rfl⟩ := h
      simp [hx] at hy

end CallsDb

end Mesty.Calls.Repository
