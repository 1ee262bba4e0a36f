import Mesty.Calls.Peers
import Mesty.Concurrency.Provenance

namespace Mesty.Calls.Control

open Mesty.Base.Ids Mesty.Base.Error Mesty.Calls.Entities Mesty.Calls.Repository
open Mesty.Calls.Service Mesty.Calls.Signaling Mesty.Calls.Availability
open Mesty.Calls.Outcome (CallConfig CallAct)
open Mesty.Calls.Timing (CallEntry)
open Mesty.Calls.Peers (peer)
open Mesty.Concurrency.Program Mesty.Concurrency.Pool Mesty.Concurrency.Visits
open Mesty.Concurrency.Provenance

/-- The task has read the call, or has made it, with these participants. -/
def Knows (h : List CallEntry) (callId callerId receiverId : Uuid) : Prop :=
  (∃ x : Call, ⟨.findById callId, some x⟩ ∈ h ∧ x.callerId = callerId ∧ x.receiverId = receiverId) ∨
    ∃ (newCall : NewCall) (x : Call), ⟨.create newCall, .ok x⟩ ∈ h ∧ x.id = callId ∧
      newCall.callerId = callerId ∧ newCall.receiverId = receiverId

/-- The message of this user brings a call of these participants into the status. -/
def Permits (r : Uuid × CallMessage) (callId callerId receiverId : Uuid) : CallStatus → Prop
  | .initiated => False
  | .ringing => r.1 = callerId ∧ ∃ callType offer, r.2 = .callInitiate receiverId callType offer
  | .answered => r.1 = receiverId ∧ ∃ answer, r.2 = .callAccept callId answer
  | .busy => (callerId = r.1 ∨ receiverId = r.1) ∧ r.2 = .callReject callId (some "busy")
  | .rejected => (callerId = r.1 ∨ receiverId = r.1) ∧
      ∃ reason, r.2 = .callReject callId reason ∧ reason ≠ some "busy"
  | .ended | .missed => (callerId = r.1 ∨ receiverId = r.1) ∧ r.2 = .callHangup callId

/-- The task has written the status. -/
def Wrote (h : List CallEntry) (callId : Uuid) (status : CallStatus) (y : Call) : Prop :=
  ∃ startedAt endedAt, ⟨.updateStatus callId status startedAt endedAt, .ok y⟩ ∈ h

/-- The event on the channel of the user follows from what the task has written. -/
def Announces (r : Uuid × CallMessage) (h : List CallEntry) (userId : Uuid) : CallEvent → Prop
  | .incoming callId callerId callType offer => ∃ given domainType y,
      r = (callerId, .callInitiate userId given offer) ∧ callType = domainType.asDbStr ∧
        ⟨.create ⟨callerId, userId, domainType⟩, .ok y⟩ ∈ h ∧ y.id = callId
  | .accepted callId receiverId answer => r = (receiverId, .callAccept callId answer) ∧
      ∃ y, Wrote h callId .answered y ∧ userId = y.callerId
  | .rejected callId senderId reason => ∃ given, r = (senderId, .callReject callId given) ∧
      reason = given.getD "rejected" ∧
      ∃ y, Wrote h callId (if reason = "busy" then .busy else .rejected) y ∧ userId = y.callerId
  | .ended callId endedBy status => r = (endedBy, .callHangup callId) ∧
      ∃ requested y, (requested = .ended ∨ requested = .missed) ∧ Wrote h callId requested y ∧
        status = y.status.asDbStr ∧ userId = peer y endedBy
  | .iceCandidate callId senderId candidate =>
    r = (senderId, .callIceCandidate callId userId candidate)

/-- What a request does: it makes calls of its own, and writes and announces what it may. -/
def Within (r : Uuid × CallMessage) (h : List CallEntry) : CallCmd → Prop
  | .create newCall => r.1 = newCall.callerId ∧
      ∃ callType offer, r.2 = .callInitiate newCall.receiverId callType offer
  | .updateStatus callId status _ _ => ∃ callerId receiverId,
      Knows h callId callerId receiverId ∧ Permits r callId callerId receiverId status
  | .publish userId event => Announces r h userId event
  | _ => True

section Protocol

variable {r : Uuid × CallMessage} {h : List CallEntry} {callId userId : Uuid}

theorem Wrote.snoc {status : CallStatus} {startedAt endedAt : Option Timestamp} (y : Call) :
    Wrote (h ++ [⟨.updateStatus callId status startedAt endedAt, .ok y⟩]) callId status y :=
  ⟨startedAt, endedAt, by simp⟩

theorem initiateCall_within {callerId receiverId : Uuid} {callType offer : String}
    {domainType : CallType}
    {Q : List CallEntry → Except DomainError Call → Prop} (herror : ∀ h' e, Q h' (.error e))
    (hok : ∀ h' y, ⟨.create ⟨callerId, receiverId, domainType⟩, .ok y⟩ ∈ h' → Q h' (.ok y)) :
    (initiateCall callerId receiverId domainType).Follows
      (Within (callerId, .callInitiate receiverId callType offer)) Q h := by
  simp only [initiateCall, Prog.pure_eq, Prog.cmd_bind]
  split_ifs
  · exact herror _ _
  · refine ⟨trivial, fun receiverBusy => ?_⟩
    dsimp only
    split_ifs
    · exact herror _ _
    · refine ⟨trivial, fun callerBusy => ?_⟩
      dsimp only
      split_ifs
      · exact herror _ _
      · refine ⟨⟨rfl, callType, offer, rfl⟩, fun result => ?_⟩
        cases result with
        | error e => exact herror _ _
        | ok y => exact hok _ y (by simp)

theorem callInitiate_within {callerId receiverId : Uuid} {callType offer : String} :
    (callInitiate callerId receiverId callType offer).Follows
      (Within (callerId, .callInitiate receiverId callType offer)) (fun _ _ => True) [] := by
  refine Prog.follows_bind.mpr (initiateCall_within (fun _ _ => ⟨trivial, fun _ => trivial⟩)
    fun h' y hy => ⟨⟨callType, _, y, rfl, rfl, hy, rfl⟩, fun _ => ⟨?_, fun _ => ?_⟩⟩)
  · exact ⟨callerId, receiverId, .inr ⟨_, y, List.mem_append_left _ hy, rfl, rfl, rfl⟩, rfl,
      callType, offer, rfl⟩
  · exact ⟨trivial, fun _ => trivial⟩

theorem callAccept_within {answer : String} : (callAccept callId userId answer).Follows
    (Within (userId, .callAccept callId answer)) (fun _ _ => True) [] := by
  simp only [callAccept, acceptCall, Prog.pure_eq, Prog.cmd_bind]
  refine ⟨trivial, fun found => ?_⟩
  cases found with
  | none => trivial
  | some x =>
    dsimp only
    split_ifs with hreceiver
    · trivial
    · trivial
    · refine ⟨trivial, fun now => ⟨?_, fun result => ?_⟩⟩
      · exact ⟨x.callerId, userId, .inl ⟨x, by simp, rfl, not_not.mp hreceiver⟩, rfl, answer, rfl⟩
      · cases result with
        | error e => trivial
        | ok y => exact ⟨⟨rfl, y, .snoc y, rfl⟩, fun _ => trivial⟩

/-- A participant closes the call. -/
theorem endCall_within {requested : CallStatus} {Q : List CallEntry → Except DomainError Call → Prop}
    (hpermits : ∀ callerId receiverId, callerId = userId ∨ receiverId = userId →
      Permits r callId callerId receiverId requested)
    (herror : ∀ h' e, Q h' (.error e)) (hok : ∀ h' y, Wrote h' callId requested y → Q h' (.ok y)) :
    (endCall callId userId requested).Follows (Within r) Q h := by
  simp only [endCall, Prog.pure_eq, Prog.cmd_bind]
  refine ⟨trivial, fun found => ?_⟩
  cases found with
  | none => exact herror _ _
  | some x =>
    dsimp only
    split_ifs with hengages
    · exact herror _ _
    · have hclose : (Prog.call CallCmd.utcNow fun now => Prog.cmd (CallCmd.updateStatus callId
          requested x.startedAt (some now))).Follows (Within r) Q
            (h ++ [⟨.findById callId, some x⟩]) := by
        refine ⟨trivial, fun now => ⟨?_, fun result => ?_⟩⟩
        · refine ⟨x.callerId, x.receiverId, .inl ⟨x, by simp, rfl, rfl⟩, hpermits _ _ ?_⟩
          by_contra hno
          exact hengages (not_or.mp hno)
        · cases result with
          | error e => exact herror _ _
          | ok y => exact hok _ y (.snoc y)
      cases requested with
      | initiated | ringing | answered => exact herror _ _
      | ended | missed | rejected | busy => exact hclose
    · exact herror _ _

theorem callReject_within {reason : Option String} : (callReject callId userId reason).Follows
    (Within (userId, .callReject callId reason)) (fun _ _ => True) [] := by
  refine Prog.follows_bind.mpr (endCall_within (fun callerId receiverId hengages => ?_)
    (fun _ _ => trivial) fun h' y hy => ?_)
  · cases reason with
    | none => exact ⟨hengages, none, rfl, by rintro ⟨⟩⟩
    | some given =>
      rw [Option.getD_some]
      split_ifs with hbusy
      · exact ⟨hengages, by rw [hbusy]⟩
      · exact ⟨hengages, some given, rfl, fun heq => hbusy (Option.some.inj heq)⟩
  · exact ⟨⟨reason, rfl, rfl, y, hy, rfl⟩, fun _ => trivial⟩

theorem callHangup_within : (callHangup callId userId).Follows
    (Within (userId, .callHangup callId)) (fun _ _ => True) [] := by
  have hannounce : ∀ h' y requested, (requested = .ended ∨ requested = .missed) →
      Wrote h' callId requested y → (announceEnd callId userId y).Follows
        (Within (userId, .callHangup callId)) (fun _ _ => True) h' := by
    intro h' y requested hrequested hy
    exact ⟨⟨rfl, requested, y, hrequested, hy, rfl, rfl⟩, fun _ => trivial⟩
  refine Prog.follows_bind.mpr (endCall_within (fun _ _ hengages => ⟨hengages, rfl⟩) (fun h' e => ?_)
    fun h' y hy => hannounce h' y .ended (.inl rfl) hy)
  exact Prog.follows_bind.mpr (endCall_within (fun _ _ hengages => ⟨hengages, rfl⟩)
    (fun _ _ => trivial) fun h' y hy => hannounce h' y .missed (.inr rfl) hy)

theorem handleClientMessage_within (r : Uuid × CallMessage) :
    (signaling.handler r).Follows (Within r) (fun _ _ => True) [] := by
  obtain ⟨userId, msg⟩ := r
  cases msg with
  | callInitiate receiverId callType offer => exact callInitiate_within
  | callAccept callId answer => exact callAccept_within
  | callReject callId reason => exact callReject_within
  | callIceCandidate callId receiverId candidate => exact ⟨rfl, fun _ => trivial⟩
  | callHangup callId => exact callHangup_within

end Protocol

/-- Some run leads from `c` to `d`. -/
abbrev Runs (c d : CallConfig) : Prop := signaling.Reach (fun _ _ => True) c d

/-- It is the same call, whatever has become of it. -/
def Same (x y : Call) : Prop :=
  y.id = x.id ∧ y.callerId = x.callerId ∧ y.receiverId = x.receiverId ∧ y.callType = x.callType ∧
    y.createdAt = x.createdAt

/-- A request of the caller has made the row, or a request that may has updated it. -/
def Writes (callId : Uuid) (y : Call) (db : CallsDb) (r : Uuid × CallMessage) : Prop :=
  (callId ∉ db.calls ∧ y.status = .initiated ∧ r.1 = y.callerId ∧
    ∃ callType offer, r.2 = .callInitiate y.receiverId callType offer) ∨
  ∃ x, db.calls.lookup callId = some x ∧ Same x y ∧ Permits r callId y.callerId y.receiverId y.status

/-- What an event tells of the row. -/
def Reports (x : Call) (userId : Uuid) : CallEvent → Prop
  | .incoming _ callerId callType _ => x.status = .initiated ∧ x.callerId = callerId ∧
      x.receiverId = userId ∧ x.callType.asDbStr = callType
  | .accepted _ receiverId _ => x.status = .answered ∧ x.receiverId = receiverId ∧ x.callerId = userId
  | .rejected _ senderId reason => x.status = (if reason = "busy" then .busy else .rejected) ∧
      Engages x senderId ∧ x.callerId = userId
  | .ended _ endedBy status => (x.status = .ended ∨ x.status = .missed) ∧ status = x.status.asDbStr ∧
      Engages x endedBy ∧ userId = peer x endedBy
  | .iceCandidate .. => True

def eventCall : CallEvent → Uuid
  | .incoming callId .. | .accepted callId .. | .rejected callId .. | .iceCandidate callId ..
  | .ended callId .. => callId

/-- The user from whom an event comes. -/
def eventSender : CallEvent → Uuid
  | .incoming _ callerId _ _ => callerId
  | .accepted _ receiverId _ => receiverId
  | .rejected _ userId _ => userId
  | .iceCandidate _ senderId _ => senderId
  | .ended _ endedBy _ => endedBy

/-- The message asks for this event on the channel of the user. -/
def Causes (userId : Uuid) : CallMessage → CallEvent → Prop
  | .callInitiate receiverId _ offer, .incoming _ _ _ offer' => receiverId = userId ∧ offer' = offer
  | .callAccept callId answer, .accepted callId' _ answer' => callId' = callId ∧ answer' = answer
  | .callReject callId given, .rejected callId' _ reason =>
    callId' = callId ∧ reason = given.getD "rejected"
  | .callIceCandidate callId receiverId candidate, .iceCandidate callId' _ candidate' =>
    receiverId = userId ∧ callId' = callId ∧ candidate' = candidate
  | .callHangup callId, .ended callId' _ _ => callId' = callId
  | _, _ => False

/-- The event that an executed command has published, with the channel. -/
def publication : Event CallCmd CallCmd.Ans → Option (Uuid × CallEvent)
  | ⟨_, .publish userId event, _⟩ => some (userId, event)
  | _ => none

/-- Participants alone change a call, and an event tells what its sender has made of it. -/
structure Controlled (c d : CallConfig) : Prop where
  kept : ∀ callId x, c.db.calls.lookup callId = some x →
    ∃ y, d.db.calls.lookup callId = some y ∧ Same x y
  written : ∀ callId y, d.db.calls.lookup callId = some y → c.db.calls.lookup callId = some y ∨
    Performed signaling (fun _ _ => True) (fun db r _ => Writes callId y db r) c d
  published : d.db.published = d.log.filterMap publication
  announced : ∀ i userId event, ⟨i, .publish userId event, ()⟩ ∈ d.log →
    (∃ msg, d.request i = some (eventSender event, msg) ∧ Causes userId msg event) ∧
      ((∃ callId senderId candidate, event = .iceCandidate callId senderId candidate) ∨
        ∃ e x, Runs e d ∧ e.db.calls.lookup (eventCall event) = some x ∧ Reports x userId event)

section Rows

variable {c d : CallConfig} {callId callerId receiverId : Uuid}

theorem same_of_exec {ω : Choice} {cmd : CallCmd} {ans : cmd.Ans} {db db' : CallsDb}
    (he : CallsDb.exec ω cmd db = some (ans, db')) {x : Call} (hx : db.calls.lookup callId = some x) :
    ∃ y, db'.calls.lookup callId = some y ∧ Same x y := by
  obtain ⟨st, s, e, rfl, hl⟩ | ⟨-, hl⟩ := CallsDb.exec_lookup he hx
  · exact ⟨_, hl, rfl, rfl, rfl, rfl, rfl⟩
  · exact ⟨x, hl, rfl, rfl, rfl, rfl, rfl⟩

theorem Same.trans {x y z : Call} (hxy : Same x y) (hyz : Same y z) : Same x z := by
  obtain ⟨h₁, h₂, h₃, h₄, h₅⟩ := hxy
  obtain ⟨h₁', h₂', h₃', h₄', h₅'⟩ := hyz
  exact ⟨h₁'.trans h₁, h₂'.trans h₂, h₃'.trans h₃, h₄'.trans h₄, h₅'.trans h₅⟩

theorem same_of_runs (h : Runs c d) {x : Call} (hx : c.db.calls.lookup callId = some x) :
    ∃ y, d.db.calls.lookup callId = some y ∧ Same x y := by
  refine kept_of_forall (S := signaling) (I := fun db : CallsDb =>
    ∃ y, db.calls.lookup callId = some y ∧ Same x y) (fun he ⟨y, hy, hxy⟩ => ?_) (by rintro _ _ _ ⟨⟩)
    ⟨x, hx, rfl, rfl, rfl, rfl, rfl⟩ h
  obtain ⟨z, hz, hyz⟩ := same_of_exec he hy
  exact ⟨z, hz, hxy.trans hyz⟩

/-- An INSERT that succeeds stores the row that it returns. -/
theorem create_ok {ω : Choice} {newCall : NewCall} {y : Call} {db db' : CallsDb}
    (he : CallsDb.exec ω (.create newCall) db = some (.ok y, db')) :
    db'.calls.lookup y.id = some y ∧ y.callerId = newCall.callerId ∧
      y.receiverId = newCall.receiverId ∧ y.callType = newCall.callType ∧ y.status = .initiated := by
  simp only [CallsDb.exec, CallsDb.create] at he
  split_ifs at he
  · cases (Prod.mk.inj (Option.some.inj he)).1
  · cases (Prod.mk.inj (Option.some.inj he)).1
  · obtain ⟨hy, rfl⟩ := Prod.mk.inj (Option.some.inj he)
    obtain rfl := Except.ok.inj hy
    exact ⟨AList.lookup_insert _, rfl, rfl, rfl, rfl⟩

theorem updateStatus_ok {ω : Choice} {status : CallStatus} {startedAt endedAt : Option Timestamp}
    {y : Call} {db db' : CallsDb}
    (he : CallsDb.exec ω (.updateStatus callId status startedAt endedAt) db = some (.ok y, db')) :
    db'.calls.lookup callId = some y ∧ y.status = status := by
  simp only [CallsDb.exec, CallsDb.updateStatus] at he
  split at he
  · cases (Prod.mk.inj (Option.some.inj he)).1
  · obtain ⟨hy, rfl⟩ := Prod.mk.inj (Option.some.inj he)
    obtain rfl := Except.ok.inj hy
    exact ⟨AList.lookup_insert _, rfl⟩

/-- What a task knows of the participants of a call is so for good. -/
theorem known_of_runs {users : List Uuid} (h : Runs (System.start (CallsDb.empty users)) c) {i : Nat}
    (hknows : Knows (c.history i) callId callerId receiverId) : ∃ x,
      c.db.calls.lookup callId = some x ∧ x.callerId = callerId ∧ x.receiverId = receiverId := by
  obtain ⟨x, hread, rfl, rfl⟩ | ⟨newCall, x, hmade, rfl, rfl, rfl⟩ := hknows
  · obtain ⟨e, e', ω, -, hee, hec, he⟩ :=
      executed_since (System.replays_start _) h (Nat.zero_le i) hread
    have hx : e.db.calls.lookup callId = some x := (Prod.mk.inj (Option.some.inj he)).1
    obtain ⟨y, hy, -, hcaller, hreceiver, -⟩ := same_of_runs (hee.trans hec) hx
    exact ⟨y, hy, hcaller, hreceiver⟩
  · obtain ⟨e, e', ω, -, -, hec, he⟩ :=
      executed_since (System.replays_start _) h (Nat.zero_le i) hmade
    obtain ⟨hx, hcaller, hreceiver, -⟩ := create_ok he
    obtain ⟨y, hy, -, hcaller', hreceiver', -⟩ := same_of_runs hec hx
    exact ⟨y, hy, hcaller'.trans hcaller, hreceiver'.trans hreceiver⟩

/-- A command of a request writes rows as it may. -/
theorem writes_of_exec {users : List Uuid} (h : Runs (System.start (CallsDb.empty users)) c) {i : Nat}
    {r : Uuid × CallMessage} {cmd : CallCmd} {k : cmd.Ans → CallTask Unit} {ω : Choice} {ans : cmd.Ans}
    {s : CallsDb} (ht : c.tasks[i]? = some (r, .call cmd k))
    (he : CallsDb.exec ω cmd c.db = some (ans, s)) {y : Call} (hy : s.calls.lookup callId = some y) :
    c.db.calls.lookup callId = some y ∨ Writes callId y c.db r := by
  have hwithin := (h.replays.follows handleClientMessage_within ht).1
  obtain hold | ⟨newCall, rfl, hfresh, rfl⟩ | ⟨st, started, ended, x, rfl, hx, rfl⟩ :=
    CallsDb.lookup_exec he hy
  · exact .inl hold
  · exact .inr (.inl ⟨hfresh, rfl, hwithin.1, hwithin.2⟩)
  · obtain ⟨callerId, receiverId, hknows, hpermits⟩ := hwithin
    obtain ⟨x', hx', rfl, rfl⟩ := known_of_runs h hknows
    obtain rfl := Option.some.inj (hx.symm.trans hx')
    exact .inr (.inr ⟨x, hx, ⟨rfl, rfl, rfl, rfl, rfl⟩, hpermits⟩)

theorem published_of_exec {i : Nat} {ω : Choice} {cmd : CallCmd} {ans : cmd.Ans} {db db' : CallsDb}
    (he : CallsDb.exec ω cmd db = some (ans, db')) :
    db'.published = db.published ++ (publication ⟨i, cmd, ans⟩).toList := by
  cases cmd with
  | publish userId event =>
    obtain ⟨-, rfl⟩ := Prod.mk.inj (Option.some.inj he)
    rfl
  | create newCall =>
    simp only [CallsDb.exec, CallsDb.create] at he
    split_ifs at he <;> obtain ⟨-, rfl⟩ := Prod.mk.inj (Option.some.inj he) <;>
      exact (List.append_nil _).symm
  | updateStatus callId status startedAt endedAt =>
    simp only [CallsDb.exec, CallsDb.updateStatus] at he
    split at he <;> obtain ⟨-, rfl⟩ := Prod.mk.inj (Option.some.inj he) <;>
      exact (List.append_nil _).symm
  | findById | isUserInActiveCall | utcNow | reply | enqueuePush =>
    obtain ⟨-, rfl⟩ := Prod.mk.inj (Option.some.inj he)
    exact (List.append_nil _).symm

/-- What has been published is what the tasks have published, in this order. -/
theorem published_eq {users : List Uuid} (h : Runs (System.start (CallsDb.empty users)) c) :
    c.db.published = c.log.filterMap publication := by
  refine h.invariant (J := fun c => c.db.published = c.log.filterMap publication)
    (fun {c a d} hc _ ha => ?_) rfl
  obtain ⟨r, rfl, rfl⟩ | ⟨i, ω, r, cmd, k, ans, s, rfl, ht, he, rfl⟩ | ⟨ω, s, rfl, hs, rfl⟩ :=
    System.apply_cases ha
  · exact hc
  · rw [World.after_db, World.after_log, List.filterMap_append, ← hc,
      published_of_exec (i := i) he]
    cases hp : publication ⟨i, cmd, ans⟩ <;> simp [hp]
  · cases hs

theorem Knows.mono {h h' : List CallEntry} (hknows : Knows h callId callerId receiverId) (hle : h ⊆ h') :
    Knows h' callId callerId receiverId := by
  obtain ⟨x, hread, hx⟩ | ⟨newCall, x, hmade, hx⟩ := hknows
  · exact .inl ⟨x, hle hread, hx⟩
  · exact .inr ⟨newCall, x, hle hmade, hx⟩

/-- What a task has written was there at some moment, and the task was one that may write it. -/
theorem moment_of_wrote {users : List Uuid} (h : Runs (System.start (CallsDb.empty users)) d) {i : Nat}
    {r : Uuid × CallMessage} (hr : d.request i = some r) {status : CallStatus} {y : Call}
    (hwrote : Wrote (d.history i) callId status y) : ∃ e, Runs e d ∧
      e.db.calls.lookup callId = some y ∧ y.status = status ∧
      Permits r callId y.callerId y.receiverId status := by
  obtain ⟨startedAt, endedAt, hmem⟩ := hwrote
  obtain ⟨before, later, hlog⟩ := List.append_of_mem (World.mem_history.mp hmem)
  obtain ⟨r', hr', callerId, receiverId, hknows, hpermits⟩ :=
    followed_of_mem h.replays handleClientMessage_within hlog
  obtain rfl := Option.some.inj (hr.symm.trans hr')
  have hle : eventsOf i before ⊆ d.history i := by
    rw [World.history, hlog, eventsOf_append]
    exact List.subset_append_left _ _
  obtain ⟨x, hx, rfl, rfl⟩ := known_of_runs h (hknows.mono hle)
  obtain ⟨e, e', ω, -, hee, hed, he⟩ := executed_since (System.replays_start _) h (Nat.zero_le i) hmem
  obtain ⟨hy, hstatus⟩ := updateStatus_ok he
  obtain ⟨x', hx', -, hcaller, hreceiver, -⟩ := same_of_runs hed hy
  obtain rfl := Option.some.inj (hx.symm.trans hx')
  exact ⟨e', hed, hy, hstatus, hcaller ▸ hreceiver ▸ hpermits⟩

theorem reports_of_announces {users : List Uuid} (h : Runs (System.start (CallsDb.empty users)) d)
    {i : Nat} {r : Uuid × CallMessage} (hr : d.request i = some r) {userId : Uuid} {event : CallEvent}
    (hannounces : Announces r (d.history i) userId event) :
    (r.1 = eventSender event ∧ Causes userId r.2 event) ∧
      ((∃ callId senderId candidate, event = .iceCandidate callId senderId candidate) ∨
        ∃ e x, Runs e d ∧ e.db.calls.lookup (eventCall event) = some x ∧ Reports x userId event) := by
  cases event with
  | incoming callId callerId callType offer =>
    obtain ⟨given, domainType, y, rfl, rfl, hmade, rfl⟩ := hannounces
    obtain ⟨e, e', ω, -, -, hed, he⟩ := executed_since (System.replays_start _) h (Nat.zero_le i) hmade
    obtain ⟨hy, hcaller, hreceiver, htype, hstatus⟩ := create_ok he
    exact ⟨⟨rfl, rfl, rfl⟩, .inr ⟨e', y, hed, hy, hstatus, hcaller, hreceiver, htype ▸ rfl⟩⟩
  | accepted callId receiverId answer =>
    obtain ⟨rfl, y, hwrote, rfl⟩ := hannounces
    obtain ⟨e, hed, hy, hstatus, hpermits⟩ := moment_of_wrote h hr hwrote
    exact ⟨⟨rfl, rfl, rfl⟩, .inr ⟨e, y, hed, hy, hstatus, hpermits.1.symm, rfl⟩⟩
  | rejected callId senderId reason =>
    obtain ⟨given, rfl, rfl, y, hwrote, rfl⟩ := hannounces
    obtain ⟨e, hed, hy, hstatus, hpermits⟩ := moment_of_wrote h hr hwrote
    refine ⟨⟨rfl, rfl, rfl⟩, .inr ⟨e, y, hed, hy, hstatus, ?_, rfl⟩⟩
    split_ifs at hpermits
    · exact hpermits.1
    · exact hpermits.1
  | ended callId endedBy status =>
    obtain ⟨rfl, requested, y, hrequested, hwrote, rfl, rfl⟩ := hannounces
    obtain ⟨e, hed, hy, rfl, hpermits⟩ := moment_of_wrote h hr hwrote
    refine ⟨⟨rfl, rfl⟩, .inr ⟨e, y, hed, hy, hrequested, rfl, ?_, rfl⟩⟩
    obtain hended | hmissed := hrequested
    · rw [hended] at hpermits
      exact hpermits.1
    · rw [hmissed] at hpermits
      exact hpermits.1
  | iceCandidate callId senderId candidate =>
    obtain rfl : r = _ := hannounces
    exact ⟨⟨rfl, rfl, rfl, rfl⟩, .inl ⟨_, _, _, rfl⟩⟩

theorem Announces.mono {r : Uuid × CallMessage} {h h' : List CallEntry} {userId : Uuid}
    {event : CallEvent}
    (hannounces : Announces r h userId event) (hle : h ⊆ h') : Announces r h' userId event := by
  have hwrote : ∀ {status y}, Wrote h (eventCall event) status y → Wrote h' (eventCall event) status y :=
    fun ⟨startedAt, endedAt, hmem⟩ => ⟨startedAt, endedAt, hle hmem⟩
  cases event with
  | incoming =>
    obtain ⟨given, domainType, y, hr, htype, hmade, hid⟩ := hannounces
    exact ⟨given, domainType, y, hr, htype, hle hmade, hid⟩
  | accepted =>
    obtain ⟨hr, y, hy, huser⟩ := hannounces
    exact ⟨hr, y, hwrote hy, huser⟩
  | rejected =>
    obtain ⟨given, hr, hreason, y, hy, huser⟩ := hannounces
    exact ⟨given, hr, hreason, y, hwrote hy, huser⟩
  | ended =>
    obtain ⟨hr, requested, y, hrequested, hy, hrest⟩ := hannounces
    exact ⟨hr, requested, y, hrequested, hwrote hy, hrest⟩
  | iceCandidate => exact hannounces

end Rows

end Mesty.Calls.Control
