import Mesty.Auth.Entities
import Mesty.Base.Error
import Mesty.Concurrency.Pool
import Mathlib.Data.List.AList

namespace Mesty.Push.Queue

open Mesty.Base.Ids Mesty.Base.Error Mesty.Concurrency.Program Mesty.Concurrency.Pool
open Mesty.Auth.Entities (SessionRow)

/-- `Value` is the type of JSON values. -/
structure PushNotificationJob (Value : Type) where
  userId : Uuid
  notificationType : String
  payload : Value
  deriving DecidableEq

structure PushTokenRow where
  id : Uuid
  pushToken : Option String
  deviceType : Option String
  deriving DecidableEq

inductive DeviceType where
  | android
  | ios
  | web
  deriving DecidableEq

/-- The conversion from `&str`. -/
def DeviceType.from (s : String) : DeviceType :=
  match s.toLower with
  | "android" => android
  | "ios" => ios
  | "web" => web
  | _ => android

/-- What is logged in the place of the call to FCM or APNs. -/
structure SentPush where
  sessionId : Uuid
  deviceType : DeviceType
  userId : Uuid
  deriving DecidableEq

/-- The table `user_sessions`. -/
structure SessionTable where
  rows : AList (fun _ : Uuid × String => SessionRow)
  uniqueIds : (rows.entries.map (fun e => e.2.id)).Nodup

/-- `WHERE user_id = $1 AND push_token IS NOT NULL` -/
def SessionTable.pushTokens (t : SessionTable) (userId : Uuid) : List PushTokenRow :=
  (t.rows.entries.filter (fun e => e.1.1 = userId && e.2.pushToken.isSome)).map (fun e =>
    ⟨e.2.id, e.2.pushToken, some e.2.deviceType⟩)

/-- Redis, the sessions, and what the workers have sent. The queue is a list of Redis, whose left
end comes first. -/
structure PushDb where
  queue : List String
  sessions : SessionTable
  sent : List SentPush

inductive PushCmd where
  | lpush (payload : String)
  | brpop
  | fetchPushTokens (userId : Uuid)
  | send (push : SentPush)

abbrev PushCmd.Ans : PushCmd → Type
  | lpush _ => Except String Unit
  | brpop => Except String (Option String)
  | fetchPushTokens _ => Except DomainError (List PushTokenRow)
  | send _ => Unit

/-- A command of Redis is answered, or it fails, or its answer is lost. -/
inductive Reply where
  | arrives
  | lost
  | fails
  deriving DecidableEq

/-- The choices of Redis and of the database, and the sessions that other requests make. -/
structure PushChoice where
  reply : Reply
  fault : Option SqlError
  rows : List PushTokenRow
  sessions : SessionTable

def ioError : String := "broken pipe"

namespace PushDb

def exec (ω : PushChoice) : (c : PushCmd) → PushDb → Option (c.Ans × PushDb)
  | .lpush payload, db =>
    match ω.reply with
    | .arrives => some (.ok (), { db with queue := payload :: db.queue })
    | .lost => some (.error ioError, { db with queue := payload :: db.queue })
    | .fails => some (.error ioError, db)
  | .brpop, db =>
    match ω.reply with
    | .arrives => some (.ok db.queue.getLast?, { db with queue := db.queue.dropLast })
    | .lost => some (.error ioError, { db with queue := db.queue.dropLast })
    | .fails => some (.error ioError, db)
  | .fetchPushTokens userId, db =>
    match ω.fault with
    | none =>
      let found := db.sessions.pushTokens userId
      some (.ok (if ω.rows.Perm found then ω.rows else found), db)
    | some e => some (.error (.fromSqlx e), db)
  | .send push, db => some ((), { db with sent := db.sent ++ [push] })

/-- Users log in and out. -/
def tick (ω : PushChoice) (db : PushDb) : Option PushDb := some { db with sessions := ω.sessions }

end PushDb

/-- `serde_json` on jobs. -/
structure PushLib (Value : Type) where
  toString : PushNotificationJob Value → Except String String
  fromStr : String → Except String (PushNotificationJob Value)

/-- What has been written is read back. -/
def PushLib.RoundTrip {Value : Type} (lib : PushLib Value) : Prop :=
  ∀ job payload, lib.toString job = .ok payload → lib.fromStr payload = .ok job

section Tasks

variable {Value : Type} (lib : PushLib Value)

def enqueuePushNotification (job : PushNotificationJob Value) :
    Prog PushCmd PushCmd.Ans (Except DomainError Unit) :=
  match lib.toString job with
  | .error e => return .error (.internal ("Failed to serialize job: " ++ e))
  | .ok payload => do
    match ← Prog.cmd (PushCmd.lpush payload) with
    | .error e => return .error (.internal ("Failed to queue push: " ++ e))
    | .ok () => return .ok ()

/-- The loop over the tokens. -/
def pushAll (userId : Uuid) : List PushTokenRow → Prog PushCmd PushCmd.Ans Unit
  | [] => return ()
  | tokenInfo :: rest =>
    match tokenInfo.pushToken with
    | none => pushAll userId rest
    | some _ => do
      Prog.cmd (PushCmd.send
        ⟨tokenInfo.id, DeviceType.from (tokenInfo.deviceType.getD "android"), userId⟩)
      pushAll userId rest

/-- One turn of the loop in `push_notification_worker`. -/
def workerTurn : Prog PushCmd PushCmd.Ans Unit := do
  match ← Prog.cmd PushCmd.brpop with
  | .ok (some payload) =>
    match lib.fromStr payload with
    | .error _ => return ()
    | .ok job =>
      match ← Prog.cmd (PushCmd.fetchPushTokens job.userId) with
      | .error _ => return ()
      | .ok tokens => pushAll job.userId tokens
  | .ok none => return ()
  | .error _ => return ()

inductive PushReq (Value : Type) where
  | enqueue (job : PushNotificationJob Value)
  | turn

/-- Any handlers that enqueue jobs, and any workers that take turns. -/
def pushServer : System PushCmd PushCmd.Ans PushDb PushChoice (PushReq Value)
    (Except DomainError Unit) where
  exec := PushDb.exec
  tick := PushDb.tick
  handler
    | .enqueue job => enqueuePushNotification lib job
    | .turn => do
      workerTurn lib
      return .ok ()

end Tasks

end Mesty.Push.Queue
