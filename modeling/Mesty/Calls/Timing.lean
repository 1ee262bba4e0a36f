import Mesty.Calls.Outcome

namespace Mesty.Calls.Timing

open Mesty.Base.Ids Mesty.Base.Error Mesty.Calls.Entities Mesty.Calls.Repository
open Mesty.Calls.Service Mesty.Calls.Signaling Mesty.Calls.Outcome
open Mesty.Concurrency.Program Mesty.Concurrency.Pool

abbrev CallEntry := (c : CallCmd) × c.Ans

variable {req : Uuid × CallMessage} {h : List CallEntry}

/-- What a request writes to `started_at`: the time at which the receiver accepts,
or what it has read there before. -/
def Dates (req : Uuid × CallMessage) (h : List CallEntry) : CallCmd → Prop
  | .updateStatus callId status startedAt endedAt =>
    (status = .answered ∧ startedAt.isSome ∧ endedAt = none ∧
      (∃ answer, req.2 = .callAccept callId answer) ∧
      ∃ x : Call, ⟨.findById callId, some x⟩ ∈ h ∧ x.receiverId = req.1) ∨
    (status ≠ .answered ∧ (startedAt.isSome →
      ∃ x : Call, ⟨.findById callId, some x⟩ ∈ h ∧ startedAt = x.startedAt))
  | _ => True

theorem initiateCall_dates {Q : List CallEntry → Except DomainError Call → Prop}
    (callerId receiverId : Uuid) (callType : CallType) (hQ : ∀ h' r, Q h' r) :
    (initiateCall callerId receiverId callType).Follows (Dates req) Q h := by
  simp only [initiateCall, Prog.pure_eq, Prog.cmd_bind]
  split_ifs
  · exact hQ _ _
  · refine ⟨trivial, fun receiverBusy => ?_⟩
    dsimp only
    split_ifs
    · exact hQ _ _
    · refine ⟨trivial, fun callerBusy => ?_⟩
      dsimp only
      split_ifs
      · exact hQ _ _
      · exact ⟨trivial, fun _ => hQ _ _⟩

theorem acceptCall_dates {Q : List CallEntry → Except DomainError Call → Prop} {callId : Uuid}
    {answer : String} (hreq : req.2 = .callAccept callId answer) (hQ : ∀ h' r, Q h' r) :
    (acceptCall callId req.1).Follows (Dates req) Q h := by
  simp only [acceptCall, Prog.pure_eq, Prog.cmd_bind]
  refine ⟨trivial, fun found => ?_⟩
  cases found with
  | none => exact hQ _ _
  | some call =>
    dsimp only
    split_ifs with hreceiver
    · exact hQ _ _
    · exact hQ _ _
    · refine ⟨trivial, fun now => ⟨.inl ⟨rfl, rfl, rfl, ⟨answer, hreq⟩, call, ?_, ?_⟩, fun _ => hQ _ _⟩⟩
      · simp
      · exact not_not.mp hreceiver

theorem endCall_dates {Q : List CallEntry → Except DomainError Call → Prop} (callId userId : Uuid)
    (requestedStatus : CallStatus) (hQ : ∀ h' r, Q h' r) :
    (endCall callId userId requestedStatus).Follows (Dates req) Q h := by
  simp only [endCall, Prog.pure_eq, Prog.cmd_bind]
  refine ⟨trivial, fun found => ?_⟩
  cases found with
  | none => exact hQ _ _
  | some call =>
    dsimp only
    split_ifs
    · exact hQ _ _
    · cases requestedStatus with
      | initiated | ringing | answered => exact hQ _ _
      | ended | missed | rejected | busy =>
        refine ⟨trivial, fun now => ⟨.inr ⟨by decide, fun _ => ⟨call, ?_, rfl⟩⟩, fun _ => hQ _ _⟩⟩
        simp
    · exact hQ _ _

theorem announceEnd_dates (callId userId : Uuid) (call : Call) :
    (announceEnd callId userId call).Follows (Dates req) (fun _ _ => True) h :=
  ⟨trivial, fun _ => trivial⟩

theorem handleClientMessage_dates (req : Uuid × CallMessage) :
    (handleClientMessage req.1 req.2).Follows (Dates req) (fun _ _ => True) [] := by
  obtain ⟨userId, msg⟩ := req
  cases msg with
  | callInitiate receiverId callType offer =>
    refine Prog.follows_bind.mpr (initiateCall_dates _ _ _ fun h' result => ?_)
    cases result with
    | error e => exact ⟨trivial, fun _ => trivial⟩
    | ok call =>
      refine ⟨trivial, fun _ => ⟨.inr ⟨by decide, ?_⟩, fun _ => ⟨trivial, fun _ => trivial⟩⟩⟩
      intro hs
      cases hs
  | callAccept callId answer =>
    refine Prog.follows_bind.mpr (acceptCall_dates rfl fun h' result => ?_)
    cases result with
    | error e => trivial
    | ok call => exact ⟨trivial, fun _ => trivial⟩
  | callReject callId reason =>
    refine Prog.follows_bind.mpr (endCall_dates _ _ _ fun h' result => ?_)
    cases result with
    | error e => trivial
    | ok call => exact ⟨trivial, fun _ => trivial⟩
  | callIceCandidate callId receiverId candidate => exact ⟨trivial, fun _ => trivial⟩
  | callHangup callId =>
    refine Prog.follows_bind.mpr (endCall_dates _ _ _ fun h' result => ?_)
    cases result with
    | ok call => exact announceEnd_dates _ _ _
    | error e =>
      refine Prog.follows_bind.mpr (endCall_dates _ _ _ fun h' result => ?_)
      cases result with
      | ok call => exact announceEnd_dates _ _ _
      | error e => trivial

/-- The receiver has accepted the call: one of its own `call_accept` tasks has written
`answered`. -/
def AcceptedBy (c : CallConfig) (callId receiverId : Uuid) : Prop :=
  ∃ i answer now y, c.request i = some (receiverId, .callAccept callId answer) ∧
    ⟨i, .updateStatus callId .answered (some now) none, .ok y⟩ ∈ c.log

theorem AcceptedBy.mono {c d : CallConfig} {callId receiverId : Uuid}
    (hreq : ∀ i r, c.request i = some r → d.request i = some r) (hlog : ∀ e ∈ c.log, e ∈ d.log)
    (h : AcceptedBy c callId receiverId) : AcceptedBy d callId receiverId := by
  obtain ⟨i, answer, now, y, hi, hm⟩ := h
  exact ⟨i, answer, now, y, hreq i _ hi, hlog _ hm⟩

/-- What every configuration of a run knows of the times of its calls. -/
structure Dated (c : CallConfig) : Prop where
  answered : ∀ callId x, c.db.calls.lookup callId = some x → x.status = .answered →
    x.startedAt.isSome
  accepted : ∀ callId x, c.db.calls.lookup callId = some x → x.startedAt.isSome →
    AcceptedBy c callId x.receiverId
  -- what a task has read may be old, but it was true of the same call
  read : ∀ i callId x, ⟨i, .findById callId, some x⟩ ∈ c.log →
    (∃ y, c.db.calls.lookup callId = some y ∧ y.receiverId = x.receiverId) ∧
      (x.startedAt.isSome → AcceptedBy c callId x.receiverId)

section Step

variable {c : CallConfig} {i : Nat} {ω : Choice} {cmd : CallCmd}
  {k : cmd.Ans → CallTask Unit} {ans : cmd.Ans} {s : CallsDb}

theorem dated_spawn (hr : signaling.Replays c) (hc : Dated c) (r : Uuid × CallMessage) :
    Dated { c with tasks := c.tasks ++ [(r, signaling.handler r)] } := by
  have hmono : ∀ callId receiverId, AcceptedBy c callId receiverId →
      AcceptedBy { c with tasks := c.tasks ++ [(r, signaling.handler r)] } callId receiverId := by
    rintro callId receiverId ⟨i, answer, now, y, hi, hm⟩
    exact ⟨i, answer, now, y, (Config.request_spawn (hr.1 _ hm) _).trans hi, hm⟩
  exact ⟨hc.answered, fun callId x hx hs => hmono _ _ (hc.accepted callId x hx hs),
    fun i callId x hm => ⟨(hc.read i callId x hm).1, fun hs => hmono _ _ ((hc.read i callId x hm).2 hs)⟩⟩

theorem accepted_step (ht : c.tasks[i]? = some (req, .call cmd k)) {callId receiverId : Uuid}
    (hacc : AcceptedBy c callId receiverId) :
    AcceptedBy ⟨c.after i cmd ans s, c.tasks.set i (req, k ans)⟩ callId receiverId :=
  hacc.mono (fun j _ hj => (Config.request_set ht _ _ j).trans hj) fun _ he => List.mem_append_left _ he

/-- The row that a write leaves has a start only if its receiver has accepted. -/
theorem accepted_write (hc : Dated c) {callId : Uuid} {st : CallStatus} {started ended : Option Timestamp}
    {k : CallCmd.Ans (.updateStatus callId st started ended) → CallTask Unit} {y : Call}
    (ht : c.tasks[i]? = some (req, .call (.updateStatus callId st started ended) k))
    (hN : Dates req (c.history i) (.updateStatus callId st started ended)) {x : Call}
    (hx : c.db.calls.lookup callId = some x) (hs : (started.or x.startedAt).isSome) :
    AcceptedBy ⟨c.after i (.updateStatus callId st started ended) (.ok y) s,
      c.tasks.set i (req, k (.ok y))⟩ callId x.receiverId := by
  obtain ⟨rfl, hstarted, rfl, ⟨answer, hmsg⟩, z, hm, hz⟩ | ⟨-, hread⟩ := hN
  · obtain ⟨now, rfl⟩ := Option.isSome_iff_exists.mp hstarted
    obtain ⟨x', hx', hreceiver⟩ := (hc.read i callId z (World.mem_history.mp hm)).1
    obtain rfl := Option.some.inj (hx.symm.trans hx')
    refine ⟨i, answer, now, y, ?_, List.mem_append_right _ (List.mem_singleton_self _)⟩
    rw [Config.request_set ht, Config.request_eq ht, hreceiver, hz, ← hmsg]
  · by_cases hstarted : started.isSome
    · obtain ⟨z, hm, hz⟩ := hread hstarted
      obtain ⟨⟨x', hx', hreceiver⟩, hacc⟩ := hc.read i callId z (World.mem_history.mp hm)
      obtain rfl := Option.some.inj (hx.symm.trans hx')
      rw [hreceiver]
      exact accepted_step ht (hacc (hz ▸ hstarted))
    · have hold : x.startedAt.isSome := by simpa [hstarted] using hs
      exact accepted_step ht (hc.accepted callId x hx hold)

theorem receiver_kept (he : CallsDb.exec ω cmd c.db = some (ans, s)) {callId : Uuid} {x : Call}
    (hx : c.db.calls.lookup callId = some x) :
    ∃ y, s.calls.lookup callId = some y ∧ y.receiverId = x.receiverId := by
  obtain ⟨st, started, ended, rfl, hl⟩ | ⟨-, hl⟩ := CallsDb.exec_lookup he hx
  · exact ⟨_, hl, rfl⟩
  · exact ⟨x, hl, rfl⟩

theorem dated_step (hc : Dated c) (ht : c.tasks[i]? = some (req, .call cmd k))
    (hN : Dates req (c.history i) cmd) (he : CallsDb.exec ω cmd c.db = some (ans, s)) :
    Dated ⟨c.after i cmd ans s, c.tasks.set i (req, k ans)⟩ := by
  constructor
  · intro callId y hy hst
    obtain hx | ⟨_, rfl, -, rfl⟩ | ⟨st, started, ended, x, rfl, hx, rfl⟩ := CallsDb.lookup_exec he hy
    · exact hc.answered callId y hx hst
    · cases hst
    · obtain ⟨-, hstarted, -⟩ | ⟨hne, -⟩ := hN
      · obtain ⟨now, rfl⟩ := Option.isSome_iff_exists.mp hstarted
        rfl
      · exact absurd hst hne
  · intro callId y hy hs
    obtain hx | ⟨_, rfl, -, rfl⟩ | ⟨st, started, ended, x, rfl, hx, rfl⟩ := CallsDb.lookup_exec he hy
    · exact accepted_step ht (hc.accepted callId y hx hs)
    · cases hs
    · have hans : ∃ y, ans = .ok y := by
        simp only [CallsDb.exec, CallsDb.updateStatus, hx, Option.some.injEq, Prod.mk.injEq] at he
        exact ⟨_, he.1.symm⟩
      obtain ⟨y, rfl⟩ := hans
      exact accepted_write (x := x) hc ht hN hx hs
  · intro j callId x hm
    obtain hm | hm := List.mem_append.mp hm
    · obtain ⟨⟨y, hy, hreceiver⟩, hacc⟩ := hc.read j callId x hm
      obtain ⟨y', hy', hreceiver'⟩ := receiver_kept he hy
      exact ⟨⟨y', hy', hreceiver'.trans hreceiver⟩, fun hs => accepted_step ht (hacc hs)⟩
    · cases List.mem_singleton.mp hm
      obtain ⟨hx, rfl⟩ := Prod.mk.inj (Option.some.inj he)
      exact ⟨⟨x, hx, rfl⟩, fun hs => accepted_step ht (hc.accepted callId x hx hs)⟩

end Step

theorem reach_dated {users : List Uuid} {c : CallConfig}
    (h : signaling.Reach (fun _ _ => True) (System.start (CallsDb.empty users)) c) : Dated c := by
  refine System.Reach.preserves (N := Dates) (Q := fun _ _ _ => True) handleClientMessage_dates
    ?_ (fun r hr hc => dated_spawn hr hc r) (fun _ hc _ ht hN he _ => dated_step hc ht hN he)
    (fun _ _ htick => by cases htick) h
  refine ⟨fun callId x hx => ?_, fun callId x hx => ?_, fun i callId x hm => ?_⟩
  · simp [System.start, CallsDb.empty] at hx
  · simp [System.start, CallsDb.empty] at hx
  · cases hm

/-- The times of a call agree with its status, and it has a start only if the receiver
has accepted it. -/
structure Timed (c : CallConfig) (callId : Uuid) (x : Call) : Prop where
  ended : x.endedAt.isSome ↔ x.status ∈ [CallStatus.ended, .missed, .rejected, .busy]
  answered : x.status = .answered → x.startedAt.isSome
  accepted : x.startedAt.isSome → AcceptedBy c callId x.receiverId

/-- What has started in `a` has started in `b`. -/
def StartKept (a b : CallsDb) : Prop :=
  ∀ callId x, a.calls.lookup callId = some x → ∃ y, b.calls.lookup callId = some y ∧
    (x.startedAt.isSome → y.startedAt.isSome)

theorem StartKept.trans {a b c : CallsDb} (hab : StartKept a b) (hbc : StartKept b c) :
    StartKept a c := by
  intro callId x hx
  obtain ⟨y, hy, hkept⟩ := hab callId x hx
  obtain ⟨z, hz, hkept'⟩ := hbc callId y hy
  exact ⟨z, hz, fun hs => hkept' (hkept hs)⟩

theorem startKept_exec {ω : Choice} {cmd : CallCmd} {ans : cmd.Ans} {db db' : CallsDb}
    (he : db.exec ω cmd = some (ans, db')) : StartKept db db' := by
  intro callId x hx
  obtain ⟨st, started, ended, rfl, hl⟩ | ⟨-, hl⟩ := CallsDb.exec_lookup he hx
  · exact ⟨_, hl, fun hs => by simp [hs]⟩
  · exact ⟨x, hl, id⟩

theorem startKept_apply {c d : CallConfig} {a : CallAct} (ha : signaling.apply a c = some d) :
    StartKept c.db d.db := by
  obtain ⟨r, rfl, rfl⟩ | ⟨i, ω, r, cmd, k, ans, s, rfl, ht, he, rfl⟩ | ⟨ω, s, -, hs, -⟩ :=
    System.apply_cases ha
  · exact fun callId x hx => ⟨x, hx, id⟩
  · exact startKept_exec he
  · cases hs

/-- In every run from an empty table the times of all calls are right in all states, and
no later state clears the start of a call. -/
theorem calls_timed (users : List Uuid) (acts : List CallAct) :
    (∀ c ∈ signaling.trace acts (System.start (CallsDb.empty users)), ∀ callId x,
      c.db.calls.lookup callId = some x → Timed c callId x) ∧
    (signaling.trace acts (System.start (CallsDb.empty users))).Pairwise
      (fun a b => StartKept a.db b.db) := by
  have hevery : signaling.Every (fun _ _ => True) acts (System.start (CallsDb.empty users)) :=
    System.every_of_forall (fun _ _ => trivial) acts _
  constructor
  · intro c hc callId x hx
    have hreach := System.reach_of_mem_trace hevery hc
    have hdated := reach_dated hreach
    have hended : EndedAtSet c.db := by
      refine (sound_outline.reach (Outline.start ?_) hreach).1
      intro callId x hx
      simp [CallsDb.empty] at hx
    refine ⟨?_, hdated.answered callId x hx, hdated.accepted callId x hx⟩
    rw [Option.isSome_iff_ne_none, Ne, hended callId x hx]
    cases x.status <;> decide
  · exact hevery.pairwise (K := fun a b => StartKept a.db b.db)
      (fun c callId x hx => ⟨x, hx, id⟩) fun hcd _ ha => hcd.trans (startKept_apply ha)

end Mesty.Calls.Timing
