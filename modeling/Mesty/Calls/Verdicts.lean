import Mesty.Calls.Availability
import Mesty.Concurrency.Sequential

namespace Mesty.Calls.Verdicts

open Mesty.Base.Ids Mesty.Base.Error Mesty.Calls.Entities Mesty.Calls.Repository
open Mesty.Calls.Service Mesty.Calls.Signaling Mesty.Calls.Availability
open Mesty.Calls.Outcome (alice bob theCall clockAt)
open Mesty.Concurrency.Program Mesty.Concurrency.Pool Mesty.Concurrency.Sequential

/-- The call that a message asks to end, and the status that is requested first. -/
def closing : CallMessage → Option (Uuid × CallStatus)
  | .callReject callId reason =>
    some (callId, if reason.getD "rejected" = "busy" then .busy else .rejected)
  | .callHangup callId => some (callId, .ended)
  | .callInitiate .. | .callAccept .. | .callIceCandidate .. => none

/-- The user can end the call. -/
def Ends (userId : Uuid) (x : Call) : Prop := Engages x userId ∧ x.status.isActive = true

/-- The row of a call that is ended at `now`. -/
def finished (x : Call) (status : CallStatus) (now now' : Timestamp) : Call :=
  { x with status := status, endedAt := some now, updatedAt := now' }

/-- The row of a call that is answered at `now`. -/
def answeredAt (x : Call) (now now' : Timestamp) : Call :=
  { x with status := .answered, startedAt := some now, endedAt := none, updatedAt := now' }

/-- All that a request that runs alone can do to the row of a call. -/
inductive Changed (r : Uuid × CallMessage) (callId : Uuid) : Option Call → Option Call → Prop where
  | same {o : Option Call} (hopen : ∀ status, closing r.2 = some (callId, status) →
      ∀ x ∈ o, ¬ Ends r.1 x) : Changed r callId o o
  | rung {y : Call} (hstatus : y.status = .ringing) (hstart : y.startedAt = none) :
      Changed r callId none (some y)
  | answered {x : Call} {now now' : Timestamp} (hclosing : closing r.2 = none) :
      Changed r callId (some x) (some (answeredAt x now now'))
  | closed {x : Call} {status : CallStatus} {now now' : Timestamp}
      (hclosing : closing r.2 = some (callId, status)) (hends : Ends r.1 x) :
      Changed r callId (some x) (some (finished x status now now'))

section Requests

variable {db : CallsDb} {userId callId : Uuid}

theorem accept_eq {x : Call} (hx : db.calls.lookup callId = some x) (now now' : Timestamp) :
    db.updateStatus now' callId .answered (some now) none =
      (.ok (answeredAt x now now'), setCall db callId (answeredAt x now now')) := by
  rw [CallsDb.updateStatus, hx]
  rfl

theorem close_eq {x : Call} (hx : db.calls.lookup callId = some x) (status : CallStatus)
    (now now' : Timestamp) : db.updateStatus now' callId status x.startedAt (some now) =
      (.ok (finished x status now now'), setCall db callId (finished x status now now')) := by
  simp only [CallsDb.updateStatus, hx, Option.or_self, finished, setCall]

theorem initiateCall_wp {callerId receiverId : Uuid} {callType : CallType}
    {Q : Except DomainError Call → CallsDb → Prop}
    (hok : ∀ x : Call, x.id ∉ db.calls → x.startedAt = none → Q (.ok x) (setCall db x.id x))
    (herr : ∀ e, Q (.error e) db) :
    (initiateCall callerId receiverId callType).wp CallsDb.exec Q db := by
  simp only [initiateCall, Prog.pure_eq, Prog.cmd_bind]
  split_ifs
  · exact herr _
  intro ω receiverBusy db₁ he
  obtain ⟨-, rfl⟩ := Prod.mk.inj (Option.some.inj he)
  dsimp only
  split_ifs
  · exact herr _
  intro ω₁ callerBusy db₂ he₁
  obtain ⟨-, rfl⟩ := Prod.mk.inj (Option.some.inj he₁)
  dsimp only
  split_ifs
  · exact herr _
  intro ω₂ created db₃ he₂
  simp only [CallsDb.exec, CallsDb.create] at he₂
  split_ifs at he₂ with hfresh <;> obtain ⟨rfl, rfl⟩ := Prod.mk.inj (Option.some.inj he₂)
  · exact herr _
  · exact hok _ hfresh rfl

theorem acceptCall_wp {Q : Except DomainError Call → CallsDb → Prop}
    (hok : ∀ x now now', db.calls.lookup callId = some x →
      Q (.ok (answeredAt x now now')) (setCall db callId (answeredAt x now now')))
    (herr : ∀ e, Q (.error e) db) : (acceptCall callId userId).wp CallsDb.exec Q db := by
  simp only [acceptCall, Prog.pure_eq, Prog.cmd_bind]
  intro ω found db₁ he
  obtain ⟨hfound, rfl⟩ := Prod.mk.inj (Option.some.inj he)
  cases found with
  | none => exact herr _
  | some x =>
    dsimp only
    split_ifs
    · exact herr _
    · exact herr _
    · intro ω₁ now db₂ he₁
      obtain ⟨-, rfl⟩ := Prod.mk.inj (Option.some.inj he₁)
      intro ω₂ y db₃ he₂
      obtain ⟨rfl, rfl⟩ := Prod.mk.inj ((accept_eq hfound now ω₂.now).symm.trans (Option.some.inj he₂))
      exact hok x now ω₂.now hfound

theorem endCall_wp {Q : Except DomainError Call → CallsDb → Prop} {status : CallStatus}
    (hstatus : status.isActive = false)
    (hok : ∀ x now now', db.calls.lookup callId = some x → Ends userId x →
      Q (.ok (finished x status now now')) (setCall db callId (finished x status now now')))
    (herr : (∀ x ∈ db.calls.lookup callId, ¬ Ends userId x) → ∀ e, Q (.error e) db) :
    (endCall callId userId status).wp CallsDb.exec Q db := by
  simp only [endCall, Prog.pure_eq, Prog.cmd_bind]
  intro ω found db₁ he
  obtain ⟨hfound, rfl⟩ := Prod.mk.inj (Option.some.inj he)
  cases found with
  | none => exact herr (by simp [hfound]) _
  | some x =>
    dsimp only
    split_ifs with hparty hactive
    · refine herr (fun y hy hends => ?_) _
      obtain rfl := Option.some.inj (hfound.symm.trans hy)
      exact hends.1.elim hparty.1 hparty.2
    · have hends : Ends userId x := ⟨by rw [Engages]; tauto, hactive⟩
      have hclose : (Prog.call CallCmd.utcNow fun now => Prog.cmd (CallCmd.updateStatus callId status
          x.startedAt (some now))).wp CallsDb.exec Q db := by
        intro ω₁ now db₂ he₁
        obtain ⟨-, rfl⟩ := Prod.mk.inj (Option.some.inj he₁)
        intro ω₂ y db₃ he₂
        obtain ⟨rfl, rfl⟩ := Prod.mk.inj
          ((close_eq hfound status now ω₂.now).symm.trans (Option.some.inj he₂))
        exact hok x now ω₂.now hfound hends
      cases status with
      | initiated | ringing | answered => cases hstatus
      | ended | missed | rejected | busy => exact hclose
    · refine herr (fun y hy hends => ?_) _
      obtain rfl := Option.some.inj (hfound.symm.trans hy)
      exact hactive hends.2

theorem changed_setCall {r : Uuid × CallMessage} {x y : Call} (hx : db.calls.lookup callId = some x)
    (hself : Changed r callId (some x) (some y))
    (hother : ∀ callId' ≠ callId, ∀ status, closing r.2 ≠ some (callId', status)) (callId' : Uuid) :
    Changed r callId' (db.calls.lookup callId') ((setCall db callId y).calls.lookup callId') := by
  rw [setCall]
  obtain rfl | hne := eq_or_ne callId' callId
  · rw [AList.lookup_insert, hx]
    exact hself
  · rw [AList.lookup_insert_ne hne]
    exact .same fun status hclosing => absurd hclosing (hother callId' hne status)

theorem changed_of_open {r : Uuid × CallMessage} (hclosing : closing r.2 = none) (callId : Uuid) :
    Changed r callId (db.calls.lookup callId) (db.calls.lookup callId) :=
  .same fun status h => by simp [hclosing] at h

theorem callInitiate_wp (callerId receiverId : Uuid) (callType offer : String) :
    (callInitiate callerId receiverId callType offer).wp CallsDb.exec (fun _ db' => ∀ callId,
      Changed (callerId, .callInitiate receiverId callType offer) callId (db.calls.lookup callId)
        (db'.calls.lookup callId)) db := by
  refine Prog.wp_bind.mpr (initiateCall_wp (fun x hfresh hstart => ?_) fun e => ?_)
  · intro ω _ db₁ he
    obtain ⟨-, rfl⟩ := Prod.mk.inj (Option.some.inj he)
    intro ω₁ rung db₂ he₁
    have hx : (setCall db x.id x).calls.lookup x.id = some x := AList.lookup_insert _
    simp only [CallsDb.exec, CallsDb.updateStatus, hx] at he₁
    obtain ⟨-, rfl⟩ := Prod.mk.inj (Option.some.inj he₁)
    intro ω₂ _ db₃ he₂
    obtain ⟨-, rfl⟩ := Prod.mk.inj (Option.some.inj he₂)
    intro callId
    change Changed _ callId _ (AList.lookup callId (AList.insert x.id _ (AList.insert x.id x db.calls)))
    obtain rfl | hne := eq_or_ne callId x.id
    · rw [AList.lookup_insert, AList.lookup_eq_none.mpr hfresh]
      exact .rung rfl (by simp [hstart])
    · rw [AList.lookup_insert_ne hne, AList.lookup_insert_ne hne]
      exact changed_of_open rfl callId
  · intro ω _ db₁ he
    obtain ⟨-, rfl⟩ := Prod.mk.inj (Option.some.inj he)
    exact changed_of_open rfl

/-- What a request that runs alone does to the calls. -/
theorem handle_changed (userId : Uuid) (msg : CallMessage) :
    (handleClientMessage userId msg).wp CallsDb.exec (fun _ db' => ∀ callId,
      Changed (userId, msg) callId (db.calls.lookup callId) (db'.calls.lookup callId)) db := by
  cases msg with
  | callInitiate receiverId callType offer => exact callInitiate_wp userId receiverId callType offer
  | callAccept callId answer =>
    refine Prog.wp_bind.mpr (acceptCall_wp (fun x now now' hx => ?_) fun e => changed_of_open rfl)
    intro ω _ db' he
    obtain ⟨-, rfl⟩ := Prod.mk.inj (Option.some.inj he)
    exact changed_setCall hx (.answered rfl) (fun _ _ _ => by rintro ⟨⟩)
  | callReject callId reason =>
    have hstatus : (if reason.getD "rejected" = "busy" then CallStatus.busy else .rejected).isActive =
        false := by
      split_ifs <;> rfl
    refine Prog.wp_bind.mpr (endCall_wp hstatus (fun x now now' hx hends => ?_) fun hopen e => ?_)
    · intro ω _ db' he
      obtain ⟨-, rfl⟩ := Prod.mk.inj (Option.some.inj he)
      refine changed_setCall hx (.closed rfl hends) fun callId' hne status h => ?_
      exact hne (Prod.mk.inj (Option.some.inj h)).1.symm
    · refine fun callId' => .same fun status h => ?_
      obtain ⟨rfl, -⟩ := Prod.mk.inj (Option.some.inj h)
      exact hopen
  | callIceCandidate callId receiverId candidate =>
    intro ω _ db' he
    obtain ⟨-, rfl⟩ := Prod.mk.inj (Option.some.inj he)
    exact changed_of_open rfl
  | callHangup callId =>
    refine Prog.wp_bind.mpr (endCall_wp rfl (fun x now now' hx hends => ?_) fun hopen e => ?_)
    · intro ω _ db' he
      obtain ⟨-, rfl⟩ := Prod.mk.inj (Option.some.inj he)
      refine changed_setCall hx (.closed rfl hends) fun callId' hne status h => ?_
      exact hne (Prod.mk.inj (Option.some.inj h)).1.symm
    · -- what the first attempt could not end, the second cannot either
      refine Prog.wp_bind.mpr (endCall_wp rfl (fun x now now' hx hends => ?_) fun hopen e => ?_)
      · exact absurd hends (hopen x hx)
      · refine fun callId' => .same fun status h => ?_
        obtain ⟨rfl, -⟩ := Prod.mk.inj (Option.some.inj h)
        exact hopen

end Requests

/-- A call that is active has a start exactly if it is answered. -/
def StartedIfAnswered (db : CallsDb) : Prop :=
  ∀ callId x, db.calls.lookup callId = some x → x.status.isActive = true →
    (x.status = .answered ↔ x.startedAt.isSome)

/-- What a final status says of a call: whether it was answered before, and which of the
two has ended it with which message. -/
def Truthful (r : Uuid × CallMessage) (callId : Uuid) (y : Call) : Prop :=
  match y.status with
  | .ended => y.startedAt.isSome
  | .missed => y.startedAt = none ∧ r = (y.callerId, .callHangup callId)
  | .rejected | .busy => y.startedAt = none ∧ ∃ reason, r = (y.receiverId, .callReject callId reason)
  | .initiated | .ringing | .answered => True

/-- A call that the request finishes gets a status that is true of it. The others stay. -/
def ToldAt (r : Uuid × CallMessage) (callId : Uuid) (o o' : Option Call) : Prop :=
  ∀ y ∈ o', y.status.isActive = false → o = some y ∨
    ∃ x ∈ o, x.status.isActive = true ∧ Truthful r callId y

/-- The message fits the call that it ends: a hangup an answered one, a rejection one that
is not answered and whose receiver sends it. -/
def FitsAt (r : Uuid × CallMessage) (callId : Uuid) (o : Option Call) : Prop :=
  ∀ status, closing r.2 = some (callId, status) → ∀ x ∈ o, Ends r.1 x →
    if status = .ended then x.status = .answered else x.status ≠ .answered ∧ x.receiverId = r.1

section Moves

variable {r : Uuid × CallMessage} {callId : Uuid} {o o' : Option Call}

theorem closing_eq_some {status : CallStatus} (h : closing r.2 = some (callId, status)) :
    (r = (r.1, .callHangup callId) ∧ status = .ended) ∨
      (∃ reason, r = (r.1, .callReject callId reason)) ∧ (status = .rejected ∨ status = .busy) := by
  obtain ⟨userId, msg⟩ := r
  cases msg with
  | callInitiate | callAccept | callIceCandidate => cases h
  | callReject =>
    obtain ⟨rfl, rfl⟩ := Prod.mk.inj (Option.some.inj h)
    refine .inr ⟨⟨_, rfl⟩, ?_⟩
    split_ifs
    · exact .inr rfl
    · exact .inl rfl
  | callHangup =>
    obtain ⟨rfl, rfl⟩ := Prod.mk.inj (Option.some.inj h)
    exact .inl ⟨rfl, rfl⟩

theorem fits_iff_truthful {x : Call} {status : CallStatus} (now now' : Timestamp)
    (hclosing : closing r.2 = some (callId, status))
    (hstarted : x.status = .answered ↔ x.startedAt.isSome) :
    (if status = .ended then x.status = .answered else x.status ≠ .answered ∧ x.receiverId = r.1) ↔
      Truthful r callId (finished x status now now') := by
  have hnone : x.status ≠ .answered ↔ x.startedAt = none := by
    rw [Ne, hstarted, Option.not_isSome_iff_eq_none]
  have hreceiver : ∀ reason, r = (r.1, CallMessage.callReject callId reason) →
      (x.receiverId = r.1 ↔ ∃ reason, r = (x.receiverId, CallMessage.callReject callId reason)) := by
    intro reason hr
    constructor
    · intro h
      exact ⟨reason, h ▸ hr⟩
    · rintro ⟨reason', hr'⟩
      rw [hr']
  obtain ⟨-, rfl⟩ | ⟨⟨reason, hr⟩, rfl | rfl⟩ := closing_eq_some hclosing
  · exact hstarted
  · exact and_congr hnone (hreceiver reason hr)
  · exact and_congr hnone (hreceiver reason hr)

theorem isActive_of_closing {status : CallStatus} (h : closing r.2 = some (callId, status)) :
    status.isActive = false := by
  obtain ⟨-, rfl⟩ | ⟨-, rfl | rfl⟩ := closing_eq_some h <;> rfl

theorem fitsAt_iff_toldAt (h : Changed r callId o o')
    (ho : ∀ x ∈ o, x.status.isActive = true → (x.status = .answered ↔ x.startedAt.isSome)) :
    FitsAt r callId o ↔ ToldAt r callId o o' := by
  cases h with
  | same hopen =>
    refine iff_of_true (fun status h x hx hends => absurd hends (hopen status h x hx)) ?_
    exact fun y hy _ => .inl hy
  | rung hstatus hstart =>
    refine iff_of_true (fun status h x hx => by cases hx) fun y hy hfinal => ?_
    obtain rfl := Option.some.inj hy
    rw [hstatus] at hfinal
    cases hfinal
  | answered hclosing =>
    refine iff_of_true (fun status h => by simp [hclosing] at h) fun y hy hfinal => ?_
    obtain rfl := Option.some.inj hy
    cases hfinal
  | @closed x status now now' hclosing hends =>
    have hfinal := isActive_of_closing hclosing
    have hiff := fits_iff_truthful now now' hclosing (ho x rfl hends.2)
    constructor
    · intro hfits y hy _
      obtain rfl := Option.some.inj hy
      exact .inr ⟨x, rfl, hends.2, hiff.mp (hfits status hclosing x rfl hends)⟩
    · intro htold status' hclosing' x' hx' _
      obtain rfl := Option.some.inj hx'
      obtain ⟨-, rfl⟩ := Prod.mk.inj (Option.some.inj (hclosing.symm.trans hclosing'))
      obtain heq | ⟨-, -, -, htrue⟩ := htold _ rfl hfinal
      · -- the row was active before
        have hstatus : x.status = status := congrArg Call.status (Option.some.inj heq)
        exact absurd hends.2 (by simp [hstatus, hfinal])
      · exact hiff.mpr htrue

theorem startedIfAnswered_changed (h : Changed r callId o o')
    (ho : ∀ x ∈ o, x.status.isActive = true → (x.status = .answered ↔ x.startedAt.isSome)) :
    ∀ x ∈ o', x.status.isActive = true → (x.status = .answered ↔ x.startedAt.isSome) := by
  cases h with
  | same => exact ho
  | rung hstatus hstart =>
    intro x hx _
    obtain rfl := Option.some.inj hx
    simp [hstatus, hstart]
  | answered =>
    intro x hx _
    obtain rfl := Option.some.inj hx
    simp [answeredAt]
  | closed hclosing =>
    intro x hx hactive
    obtain rfl := Option.some.inj hx
    simp [finished, isActive_of_closing hclosing] at hactive

end Moves

abbrev AtomicConfig :=
  Config (Uuid × CallMessage) (fun _ => Unit) CallsDb (Uuid × CallMessage) Unit

abbrev AtomicAct := Act (Uuid × CallMessage) (List Choice)

/-- The request that a move executes. -/
def executed (c : AtomicConfig) : AtomicAct → Option (Uuid × CallMessage)
  | .step i _ => c.tasks[i]?.bind (fun t => t.2.next)
  | _ => none

/-- The message that is handled fits the call that it ends. -/
def Fitting (c : AtomicConfig) (a : AtomicAct) : Prop :=
  ∀ r ∈ executed c a, ∀ callId, FitsAt r callId (c.db.calls.lookup callId)

/-- The calls that a request finishes get a status that is true of them. -/
def TellsTruth (c : AtomicConfig) (a : AtomicAct) : Prop :=
  ∀ r ∈ executed c a, ∀ d, (atomic signaling).apply a c = some d → ∀ callId,
    ToldAt r callId (c.db.calls.lookup callId) (d.db.calls.lookup callId)

theorem changed_of_apply {c d : AtomicConfig} {a : AtomicAct} {r : Uuid × CallMessage}
    (ha : (atomic signaling).apply a c = some d) (hr : r ∈ executed c a) (callId : Uuid) :
    Changed r callId (c.db.calls.lookup callId) (d.db.calls.lookup callId) := by
  obtain ⟨r', rfl, rfl⟩ | ⟨i, ωs, r', cmd, k, ans, s, rfl, ht, he, rfl⟩ | ⟨ωs, s, rfl, hs, rfl⟩ :=
    System.apply_cases ha
  · cases hr
  · simp only [executed, ht, Option.bind_some, Prog.next_call, Option.mem_some_iff] at hr
    subst hr
    exact (handle_changed cmd.1 cmd.2).of_alone he callId
  · cases hr

theorem startedIfAnswered_apply {c d : AtomicConfig} {a : AtomicAct}
    (hc : StartedIfAnswered c.db) (ha : (atomic signaling).apply a c = some d) :
    StartedIfAnswered d.db := by
  obtain hdb | ⟨i, ωs, r, out, rfl, hr, -⟩ | ⟨ω, hω⟩ := atomic_cases ha
  · rw [hdb]
    exact hc
  · exact fun callId x hx => startedIfAnswered_changed (changed_of_apply ha hr callId)
      (hc callId) x hx
  · cases hω

/-- In a run in which the messages are handled one at a time, the final statuses are true of
the calls exactly if every message fits the call that it ends. -/
theorem verdicts_true_iff_fitting (users : List Uuid) (acts : List AtomicAct) :
    (atomic signaling).Every Fitting acts (System.start (.empty users)) ↔
      (atomic signaling).Every TellsTruth acts (System.start (.empty users)) := by
  refine System.every_iff_every (J := fun c => StartedIfAnswered c.db)
    startedIfAnswered_apply (fun {c a d} hc ha => ?_) acts ?_
  · refine forall_congr' fun r => forall_congr' fun hr => ?_
    have hiff : ∀ callId, FitsAt r callId (c.db.calls.lookup callId) ↔
        ToldAt r callId (c.db.calls.lookup callId) (d.db.calls.lookup callId) :=
      fun callId => fitsAt_iff_toldAt (changed_of_apply ha hr callId) (hc callId)
    constructor
    · intro hfits d' hd' callId
      obtain rfl := Option.some.inj (ha.symm.trans hd')
      exact (hiff callId).mp (hfits callId)
    · exact fun htold callId => (hiff callId).mpr (htold d ha callId)
  · intro callId x hx
    simp [System.start, CallsDb.empty] at hx

/-- Alice calls Bob and hangs up while his phone is ringing. -/
def hangsUpWhileRinging : List AtomicAct :=
  [.spawn (alice, .callInitiate bob "audio" "offer"), .step 0 ((List.range 6).map clockAt),
    .spawn (alice, .callHangup theCall), .step 1 ((List.range 4).map clockAt)]

theorem unanswered_call_ended : ¬ (atomic signaling).Every TellsTruth hangsUpWhileRinging
    (System.start (.empty [alice, bob])) := by
  intro h
  obtain ⟨-, -, -, hhangup, -⟩ := h
  have htold := hhangup (alice, .callHangup theCall) rfl _ rfl theCall
    ⟨theCall, alice, bob, .audio, .ended, none, some 1, 2, 2⟩ rfl rfl
  obtain heq | ⟨x, -, -, htrue⟩ := htold
  · cases heq
  · cases htrue

end Mesty.Calls.Verdicts
