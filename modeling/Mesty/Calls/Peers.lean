import Mesty.Calls.Availability
import Mesty.Calls.Timing

namespace Mesty.Calls.Peers

open Mesty.Base.Ids Mesty.Base.Error Mesty.Calls.Entities Mesty.Calls.Repository
open Mesty.Calls.Service Mesty.Calls.Signaling Mesty.Calls.Availability
open Mesty.Calls.Outcome (CallConfig CallAct alice bob theCall clockAt)
open Mesty.Calls.Timing (CallEntry Dated reach_dated)
open Mesty.Concurrency.Program Mesty.Concurrency.Pool

/-- The call that a participant answers, rejects or hangs up. -/
def about : CallMessage → Option Uuid
  | .callAccept callId _ | .callReject callId _ | .callHangup callId => some callId
  | .callInitiate .. | .callIceCandidate .. => none

/-- The other participant. -/
def peer (x : Call) (userId : Uuid) : Uuid :=
  if x.callerId = userId then x.receiverId else x.callerId

/-- The user whose channel gets the event about the row that a message has written. -/
def addressee (req : Uuid × CallMessage) (x : Call) : Uuid :=
  match req.2 with
  | .callHangup _ => peer x req.1
  | _ => x.callerId

/-- The last command has written the row. -/
def Wrote (h : List CallEntry) (callId : Uuid) (y : Call) : Prop :=
  ∃ status startedAt endedAt, h.getLast? = some ⟨.updateStatus callId status startedAt endedAt, .ok y⟩

/-- A request publishes right after it has written, and it is the receiver that accepts. -/
def Tells (req : Uuid × CallMessage) (h : List CallEntry) (cmd : CallCmd) : Prop :=
  ∀ callId, about req.2 = some callId →
    (∀ y, Wrote h callId y → ∃ event, cmd = .publish (addressee req y) event) ∧
    ∀ answer status startedAt endedAt, req.2 = .callAccept callId answer →
      cmd = .updateStatus callId status startedAt endedAt →
        ∃ x : Call, ⟨.findById callId, some x⟩ ∈ h ∧ x.receiverId = req.1

/-- Nothing is written without an event. -/
def Told (req : Uuid × CallMessage) (h : List CallEntry) : Prop :=
  ∀ callId, about req.2 = some callId → ∀ y, ¬ Wrote h callId y

section Requests

variable {req : Uuid × CallMessage} {h : List CallEntry} {callId : Uuid}

theorem wrote_snoc {e : CallEntry} {y : Call} : Wrote (h ++ [e]) callId y ↔
    ∃ status startedAt endedAt, e = ⟨.updateStatus callId status startedAt endedAt, .ok y⟩ := by
  simp [Wrote]

theorem told_nil : Told req [] := by
  rintro callId - y ⟨status, startedAt, endedAt, hlast⟩
  cases hlast

theorem told_snoc {cmd : CallCmd} {ans : cmd.Ans}
    (hcmd : ∀ callId status startedAt endedAt, cmd ≠ .updateStatus callId status startedAt endedAt) :
    Told req (h ++ [⟨cmd, ans⟩]) := by
  intro callId _ y hy
  obtain ⟨status, startedAt, endedAt, heq⟩ := wrote_snoc.mp hy
  cases heq
  exact hcmd _ _ _ _ rfl

theorem tells_of_told {cmd : CallCmd} (hh : Told req h)
    (hcmd : ∀ callId status startedAt endedAt, cmd ≠ .updateStatus callId status startedAt endedAt) :
    Tells req h cmd := by
  intro callId habout
  exact ⟨fun y hy => absurd hy (hh callId habout y),
    fun _ _ _ _ _ heq => absurd heq (hcmd _ _ _ _)⟩

/-- What a method of the service has written when it returns the row. -/
def Written (req : Uuid × CallMessage) (callId : Uuid) (h : List CallEntry) :
    Except DomainError Call → Prop
  | .ok y => Wrote h callId y
  | .error _ => Told req h

theorem written_snoc {status : CallStatus} {startedAt endedAt : Option Timestamp}
    (r : Except DomainError Call) :
    Written req callId (h ++ [⟨.updateStatus callId status startedAt endedAt, r⟩]) r := by
  cases r with
  | ok y => exact wrote_snoc.mpr ⟨status, startedAt, endedAt, rfl⟩
  | error e =>
    intro callId' _ y hy
    obtain ⟨_, _, _, heq⟩ := wrote_snoc.mp hy
    cases heq

theorem acceptCall_tells : (acceptCall callId req.1).Follows (Tells req) (Written req callId) [] := by
  simp only [acceptCall, Prog.pure_eq, Prog.cmd_bind]
  refine ⟨tells_of_told told_nil (by simp), fun found => ?_⟩
  have hfound : Told req ([] ++ [⟨.findById callId, found⟩]) := told_snoc (by simp)
  cases found with
  | none => exact hfound
  | some x =>
    dsimp only
    split_ifs with hreceiver
    · exact hfound
    · exact hfound
    · refine ⟨tells_of_told hfound (by simp), fun now => ⟨?_, fun r => ?_⟩⟩
      · intro callId' habout
        refine ⟨fun y hy => absurd hy (told_snoc (by simp) callId' habout y), ?_⟩
        rintro _ _ _ _ - ⟨⟩
        exact ⟨x, by simp, not_not.mp hreceiver⟩
      · exact written_snoc r

theorem endCall_tells {userId : Uuid} {requestedStatus : CallStatus} (hh : Told req h)
    (hreq : ∀ callId answer, req.2 ≠ .callAccept callId answer) :
    (endCall callId userId requestedStatus).Follows (Tells req) (Written req callId) h := by
  simp only [endCall, Prog.pure_eq, Prog.cmd_bind]
  refine ⟨tells_of_told hh (by simp), fun found => ?_⟩
  have hfound : Told req (h ++ [⟨.findById callId, found⟩]) := told_snoc (by simp)
  cases found with
  | none => exact hfound
  | some x =>
    dsimp only
    split_ifs
    · exact hfound
    · have hclose : (Prog.call CallCmd.utcNow fun now => Prog.cmd (CallCmd.updateStatus callId
          requestedStatus x.startedAt (some now))).Follows (Tells req) (Written req callId)
          (h ++ [⟨.findById callId, some x⟩]) := by
        refine ⟨tells_of_told hfound (by simp), fun now => ⟨fun callId' habout => ?_, written_snoc⟩⟩
        exact ⟨fun y hy => absurd hy (told_snoc (by simp) callId' habout y),
          fun answer _ _ _ heq => absurd heq (hreq callId' answer)⟩
      cases requestedStatus with
      | initiated | ringing | answered => exact hfound
      | ended | missed | rejected | busy => exact hclose
    · exact hfound

/-- A row that is written is announced at once. -/
theorem announce_tells {y : Call} {event : CallEvent} (habout : about req.2 = some callId)
    (hy : Wrote h callId y) : Tells req h (.publish (addressee req y) event) := by
  intro callId' habout'
  refine ⟨fun y' hy' => ?_, fun _ _ _ _ _ heq => by cases heq⟩
  obtain rfl := Option.some.inj (habout.symm.trans habout')
  obtain ⟨_, _, _, hlast⟩ := hy
  obtain ⟨_, _, _, hlast'⟩ := hy'
  cases hlast.symm.trans hlast'
  exact ⟨event, rfl⟩

theorem handleClientMessage_tells (req : Uuid × CallMessage) :
    (handleClientMessage req.1 req.2).Follows (Tells req) (fun h _ => Told req h) [] := by
  obtain ⟨userId, msg⟩ := req
  cases msg with
  | callInitiate | callIceCandidate =>
    exact Prog.follows_of_prefix (fun _ _ _ _ habout => by cases habout)
      (fun _ _ _ _ habout => by cases habout) _
  | callAccept callId answer =>
    refine Prog.follows_bind.mpr (acceptCall_tells.mono (fun _ _ => id) fun h' result hw => ?_)
    cases result with
    | error e => exact hw
    | ok y => exact ⟨announce_tells rfl hw, fun _ => told_snoc (by simp)⟩
  | callReject callId reason =>
    refine Prog.follows_bind.mpr ((endCall_tells told_nil (by simp)).mono (fun _ _ => id)
      fun h' result hw => ?_)
    cases result with
    | error e => exact hw
    | ok y => exact ⟨announce_tells rfl hw, fun _ => told_snoc (by simp)⟩
  | callHangup callId =>
    refine Prog.follows_bind.mpr ((endCall_tells told_nil (by simp)).mono (fun _ _ => id)
      fun h' result hw => ?_)
    cases result with
    | ok y => exact ⟨announce_tells rfl hw, fun _ => told_snoc (by simp)⟩
    | error e =>
      refine Prog.follows_bind.mpr ((endCall_tells hw (by simp)).mono (fun _ _ => id)
        fun h' result hw => ?_)
      cases result with
      | ok y => exact ⟨announce_tells rfl hw, fun _ => told_snoc (by simp)⟩
      | error e => exact hw

end Requests

/-- Nobody calls himself. -/
def NoSelfCall (db : CallsDb) : Prop :=
  ∀ callId x, db.calls.lookup callId = some x → x.callerId ≠ x.receiverId

theorem noSelfCall_exec {ω : Choice} {cmd : CallCmd} {ans : cmd.Ans} {db db' : CallsDb}
    (hdb : NoSelfCall db) (he : db.exec ω cmd = some (ans, db')) : NoSelfCall db' := by
  intro callId y hy
  obtain hx | ⟨newCall, rfl, hfresh, rfl⟩ | ⟨st, s, e, x, rfl, hx, rfl⟩ := CallsDb.lookup_exec he hy
  · exact hdb callId y hx
  · have hnone := AList.lookup_eq_none.mpr hfresh
    simp only [CallsDb.exec, CallsDb.create] at he
    split_ifs at he with hmem hself hforeign <;> obtain ⟨-, rfl⟩ := Prod.mk.inj (Option.some.inj he)
    · cases hnone.symm.trans hy
    · cases hnone.symm.trans hy
    · exact hself
  · exact hdb callId x hx

/-- The event about a changed status goes to the other participant: after the UPDATE the next
command of the task publishes it there. -/
def PeerTold (c : CallConfig) : CallAct → Prop
  | .step i ω => ∀ d, signaling.apply (.step i ω) c = some d → ∀ req callId,
      c.request i = some req → about req.2 = some callId → ∀ x y,
        c.db.calls.lookup callId = some x → d.db.calls.lookup callId = some y →
          x.status ≠ y.status → Engages x req.1 → ∃ event,
            d.tasks[i]?.bind (fun t => t.2.next) = some (.publish (peer x req.1) event)
  | _ => True

/-- When the UPDATE of a rejection is about to change the status of a call, it is not the
caller that rejects. -/
def NotByCaller (c : CallConfig) : CallAct → Prop
  | .step i _ => ∀ userId callId reason status startedAt endedAt x,
      c.request i = some (userId, .callReject callId reason) →
      c.tasks[i]?.bind (fun t => t.2.next) = some (.updateStatus callId status startedAt endedAt) →
      c.db.calls.lookup callId = some x → x.status ≠ status → x.callerId ≠ userId
  | _ => True

section Step

variable {users : List Uuid} {c : CallConfig} {i : Nat} {ω : Choice} {req : Uuid × CallMessage}
  {callId : Uuid} {status : CallStatus} {startedAt endedAt : Option Timestamp}
  {k : CallCmd.Ans (.updateStatus callId status startedAt endedAt) → CallTask Unit}
  {ans : CallCmd.Ans (.updateStatus callId status startedAt endedAt)} {s : CallsDb} {x : Call}

abbrev Reached (users : List Uuid) (c : CallConfig) : Prop :=
  signaling.Reach (fun _ _ => True) (System.start (CallsDb.empty users)) c

theorem reach_noSelfCall (hc : Reached users c) : NoSelfCall c.db := by
  refine hc.invariant (J := fun c => NoSelfCall c.db) (fun {c a d} hc _ ha => ?_) ?_
  · obtain ⟨r, rfl, rfl⟩ | ⟨i, ω, r, cmd, k, ans, s, rfl, ht, he, rfl⟩ | ⟨ω, s, -, hs, -⟩ :=
      System.apply_cases ha
    · exact hc
    · exact noSelfCall_exec hc he
    · cases hs
  · intro callId x hx
    simp [System.start, CallsDb.empty] at hx

theorem next_of_wrote {h : List CallEntry} {p : CallTask Unit} {y : Call}
    (hp : p.Follows (Tells req) (fun h _ => Told req h) h) (habout : about req.2 = some callId)
    (hy : Wrote h callId y) : ∃ event, p.next = some (.publish (addressee req y) event) := by
  cases p with
  | ret => exact absurd hy (hp callId habout y)
  | call cmd k =>
    obtain ⟨event, rfl⟩ := (hp.1 callId habout).1 y hy
    exact ⟨event, rfl⟩

/-- After an UPDATE of the call that a message is about, its task publishes the row. -/
theorem next_of_update (hc : Reached users c) (habout : about req.2 = some callId)
    (ht : c.tasks[i]? = some (req, .call (.updateStatus callId status startedAt endedAt) k))
    (he : CallsDb.exec ω (.updateStatus callId status startedAt endedAt) c.db = some (ans, s))
    (hx : c.db.calls.lookup callId = some x) : ∃ y event, s.calls.lookup callId = some y ∧
      y.status = status ∧ y.callerId = x.callerId ∧ y.receiverId = x.receiverId ∧
      (k ans).next = some (.publish (addressee req y) event) := by
  simp only [CallsDb.exec, CallsDb.updateStatus, hx, Option.some.injEq, Prod.mk.injEq] at he
  obtain ⟨rfl, rfl⟩ := he
  have hfollows := (hc.replays.follows handleClientMessage_tells ht).2 (.ok { x with
    status := status, startedAt := startedAt.or x.startedAt, endedAt := endedAt, updatedAt := ω.now })
  obtain ⟨event, hnext⟩ := next_of_wrote hfollows habout (wrote_snoc.mpr ⟨_, _, _, rfl⟩)
  exact ⟨_, event, AList.lookup_insert _, rfl, rfl, rfl, hnext⟩

/-- Who gets the event is the other participant, unless the caller rejects. -/
theorem addressee_eq_peer (hc : Reached users c) (habout : about req.2 = some callId)
    (ht : c.tasks[i]? = some (req, .call (.updateStatus callId status startedAt endedAt) k))
    (hx : c.db.calls.lookup callId = some x) {y : Call} (hcaller : y.callerId = x.callerId)
    (hreceiver : y.receiverId = x.receiverId) :
    addressee req y = peer x req.1 ↔ ¬ ((∃ reason, req.2 = .callReject callId reason) ∧
      x.callerId = req.1) := by
  have hne := reach_noSelfCall hc callId x hx
  have hpeer : x.callerId = peer x req.1 ↔ x.callerId ≠ req.1 := by
    rw [peer]
    split_ifs with h
    · exact iff_of_false hne (not_not.mpr h)
    · exact iff_of_true rfl h
  obtain ⟨userId, msg⟩ := req
  cases msg with
  | callInitiate | callIceCandidate => cases habout
  | callAccept callId' answer =>
    obtain rfl := Option.some.inj habout
    obtain ⟨z, hmem, hz⟩ := ((hc.replays.follows handleClientMessage_tells ht).1 _ rfl).2 answer
      status startedAt endedAt rfl rfl
    obtain ⟨x', hx', hkept⟩ := ((reach_dated hc).read i callId' z (World.mem_history.mp hmem)).1
    obtain rfl := Option.some.inj (hx.symm.trans hx')
    refine iff_of_true ?_ (by rintro ⟨⟨_, ⟨⟩⟩, -⟩)
    change y.callerId = peer x userId
    rw [hcaller, hpeer]
    intro h
    exact hne (h.trans (hkept.trans hz).symm)
  | callReject callId' reason =>
    obtain rfl := Option.some.inj habout
    change y.callerId = peer x userId ↔ _
    rw [hcaller, hpeer]
    simp
  | callHangup callId' =>
    refine iff_of_true ?_ (by rintro ⟨⟨_, ⟨⟩⟩, -⟩)
    change peer y userId = peer x userId
    rw [peer, peer, hcaller, hreceiver]

theorem notByCaller_iff {d : CallConfig} {a : CallAct} (hc : Reached users c)
    (ha : signaling.apply a c = some d) : NotByCaller c a ↔ PeerTold c a := by
  obtain ⟨r, rfl, rfl⟩ | ⟨i, ω, req, cmd, k, ans, s, rfl, ht, he, rfl⟩ | ⟨ω, s, -, hs, -⟩ :=
    System.apply_cases ha
  · exact Iff.rfl
  · have hlt := (List.getElem?_eq_some_iff.mp ht).1
    constructor
    · intro hcond d' hd' req' callId hreq habout x y hx hy hne _
      obtain rfl := Option.some.inj (ha.symm.trans hd')
      obtain rfl := Option.some.inj ((Config.request_eq ht).symm.trans hreq)
      obtain ⟨st, s', e, rfl, -⟩ | ⟨-, hl⟩ := CallsDb.exec_lookup he hx
      · obtain ⟨y', event, hy', hst, hcaller, hreceiver, hnext⟩ := next_of_update hc habout ht he hx
        obtain rfl := Option.some.inj (hy.symm.trans hy')
        have hpeer := (addressee_eq_peer hc habout ht hx hcaller hreceiver).mpr (by
          rintro ⟨⟨reason, hreject⟩, hself⟩
          exact hcond req.1 callId reason st s' e x
            (hreq.trans (congrArg some (Prod.ext rfl hreject))) (by simp [ht]) hx (hst ▸ hne) hself)
        refine ⟨event, ?_⟩
        rw [List.getElem?_set_self hlt, Option.bind_some, hnext, hpeer]
      · obtain rfl := Option.some.inj (hl.symm.trans hy)
        exact absurd rfl hne
    · intro htold userId callId reason st s' e x hreq hnext hx hne hself
      obtain rfl := Option.some.inj ((Config.request_eq ht).symm.trans hreq)
      obtain rfl : cmd = .updateStatus callId st s' e := by simpa [ht] using hnext
      obtain ⟨y, event, hy, hst, hcaller, hreceiver, hpub⟩ := next_of_update hc rfl ht he hx
      obtain ⟨event', hpub'⟩ := htold _ ha _ callId hreq rfl x y hx hy (hst ▸ hne) (.inl hself)
      rw [List.getElem?_set_self hlt, Option.bind_some, hpub] at hpub'
      have haddressee := (CallCmd.publish.inj (Option.some.inj hpub')).1
      exact (addressee_eq_peer hc rfl ht hx hcaller hreceiver).mp haddressee ⟨⟨reason, rfl⟩, hself⟩
  · cases hs

end Step

/-- In a run the other participant is told of every change of a call exactly if no caller
rejects its own call. -/
theorem peer_told_iff_not_by_caller (users : List Uuid) (acts : List CallAct) :
    signaling.Every NotByCaller acts (System.start (.empty users)) ↔
      signaling.Every PeerTold acts (System.start (.empty users)) :=
  System.every_iff_every (J := Reached users) (fun hc ha => hc.tail trivial ha)
    (fun hc ha => notByCaller_iff hc ha) acts .refl

/-- Alice calls Bob and takes the call back with a rejection. -/
def rejectsOwnCall : List CallAct :=
  [.spawn (alice, .callInitiate bob "audio" "offer"),
    .step 0 (clockAt 1), .step 0 (clockAt 2), .step 0 (clockAt 3), .step 0 (clockAt 4),
    .step 0 (clockAt 5), .spawn (alice, .callReject theCall none),
    .step 1 (clockAt 6), .step 1 (clockAt 7), .step 1 (clockAt 8)]

theorem bob_not_told : ¬ signaling.Every PeerTold rejectsOwnCall
    (System.start (.empty [alice, bob])) := by
  intro h
  obtain ⟨-, -, -, -, -, -, -, -, -, hreject, -⟩ := h
  obtain ⟨event, hnext⟩ := hreject _ rfl (alice, .callReject theCall none) theCall rfl rfl
    ⟨theCall, alice, bob, .audio, .ringing, none, none, 3, 5⟩
    ⟨theCall, alice, bob, .audio, .rejected, none, some 7, 3, 8⟩ rfl rfl (by decide) (.inl rfl)
  cases hnext

end Mesty.Calls.Peers
