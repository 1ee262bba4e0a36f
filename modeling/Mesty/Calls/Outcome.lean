import Mesty.Calls.Signaling

namespace Mesty.Calls.Outcome

open Mesty.Base.Ids Mesty.Base.Error Mesty.Calls.Entities Mesty.Calls.Repository
open Mesty.Calls.Service Mesty.Calls.Signaling Mesty.Concurrency.Program Mesty.Concurrency.Pool

abbrev CallConfig := Config CallCmd CallCmd.Ans CallsDb (Uuid × CallMessage) Unit

abbrev CallAct := Act (Uuid × CallMessage) Choice

/-- The writes of the service: an active status clears `ended_at`, a final
status sets it, and no write goes back to `initiated`. -/
def UpdateShape : CallCmd → Prop
  | .updateStatus _ status _ endedAt =>
    status ≠ .initiated ∧ (endedAt = none ↔ status.isActive = true)
  | _ => True

theorem initiateCall_shape (callerId receiverId : Uuid) (callType : CallType) :
    (initiateCall callerId receiverId callType).Issues UpdateShape := by
  simp only [initiateCall, Prog.pure_eq, Prog.cmd_bind]
  split_ifs
  · trivial
  · rw [Prog.issues_call]
    refine ⟨trivial, fun receiverBusy => ?_⟩
    split_ifs
    · trivial
    · rw [Prog.issues_call]
      refine ⟨trivial, fun callerBusy => ?_⟩
      split_ifs
      · trivial
      · simp [UpdateShape]

theorem acceptCall_shape (callId userId : Uuid) :
    (acceptCall callId userId).Issues UpdateShape := by
  simp only [acceptCall, Prog.pure_eq, Prog.cmd_bind, Prog.issues_call]
  refine ⟨trivial, fun found => ?_⟩
  cases found with
  | none => trivial
  | some call =>
    dsimp only
    split_ifs
    · trivial
    · trivial
    · simp [UpdateShape, CallStatus.isActive]

theorem endCall_shape (callId userId : Uuid) (requestedStatus : CallStatus) :
    (endCall callId userId requestedStatus).Issues UpdateShape := by
  simp only [endCall, Prog.pure_eq, Prog.cmd_bind, Prog.issues_call]
  refine ⟨trivial, fun found => ?_⟩
  cases found with
  | none => trivial
  | some call =>
    dsimp only
    split_ifs
    · trivial
    · cases requestedStatus <;> simp [UpdateShape, CallStatus.isActive]
    · trivial

theorem announceEnd_shape (callId userId : Uuid) (call : Call) :
    (announceEnd callId userId call).Issues UpdateShape := by
  simp [announceEnd, UpdateShape]

theorem handleClientMessage_shape (userId : Uuid) (msg : CallMessage) :
    (handleClientMessage userId msg).Issues UpdateShape := by
  cases msg with
  | callInitiate receiverId callType offer =>
    refine (initiateCall_shape _ _ _).bind fun result => ?_
    cases result <;> simp [markRinging, UpdateShape, CallStatus.isActive]
  | callAccept callId answer =>
    refine (acceptCall_shape _ _).bind fun result => ?_
    cases result <;> simp [UpdateShape]
  | callReject callId reason =>
    refine (endCall_shape _ _ _).bind fun result => ?_
    cases result <;> simp [UpdateShape]
  | callIceCandidate callId receiverId candidate =>
    simp [handleClientMessage, callIceCandidate, UpdateShape]
  | callHangup callId =>
    refine (endCall_shape _ _ _).bind fun result => ?_
    cases result with
    | ok call => exact announceEnd_shape _ _ _
    | error _ =>
      refine (endCall_shape _ _ _).bind fun result => ?_
      cases result with
      | ok call => exact announceEnd_shape _ _ _
      | error _ => trivial

/-- `ended_at` is set exactly on the rows whose status is final. -/
def EndedAtSet (db : CallsDb) : Prop :=
  ∀ callId x, db.calls.lookup callId = some x → (x.endedAt = none ↔ x.status.isActive = true)

theorem endedAtSet_exec {ω : Choice} {db db' : CallsDb} {c : CallCmd} {ans : c.Ans}
    (hdb : EndedAtSet db) (hc : UpdateShape c) (h : db.exec ω c = some (ans, db')) :
    EndedAtSet db' := by
  intro callId y hy
  rcases CallsDb.lookup_exec h hy with hx | ⟨newCall, rfl, -, rfl⟩ | ⟨st, s, e, x, rfl, -, rfl⟩
  · exact hdb callId y hx
  · simp [CallStatus.isActive]
  · exact hc.2

/-- What the later state `b` has kept of the earlier state `a`: a final status
with its `ended_at`, and the fact that a call was answered. -/
def OutcomeKept (a b : CallsDb) : Prop :=
  ∀ callId x, a.calls.lookup callId = some x → ∃ y, b.calls.lookup callId = some y ∧
    (x.status.isActive = false → y.status = x.status ∧ y.endedAt.isSome) ∧
    (x.status = .answered → y.status ≠ .initiated ∧ y.status ≠ .ringing)

theorem OutcomeKept.trans {a b c : CallsDb} (hab : OutcomeKept a b) (hbc : OutcomeKept b c) :
    OutcomeKept a c := by
  intro callId x hx
  obtain ⟨y, hy, hfin, hans⟩ := hab callId x hx
  obtain ⟨z, hz, hfin', hans'⟩ := hbc callId y hy
  refine ⟨z, hz, fun hf => ?_, fun ha => ?_⟩
  · have hy' := (hfin hf).1
    obtain ⟨hs, he⟩ := hfin' (hy' ▸ hf)
    exact ⟨hs.trans hy', he⟩
  · obtain ⟨hi, hr⟩ := hans ha
    cases hst : y.status with
    | initiated => exact absurd hst hi
    | ringing => exact absurd hst hr
    | answered => exact hans' hst
    | ended | missed | rejected | busy =>
      have hz' := (hfin' (by rw [hst]; rfl)).1
      rw [hz', hst]
      decide

/-- The check of the service for writing `new` over `old`: the one that `accept_call`
makes for `ringing` and `answered`, the one of `end_call` for a final status. -/
def transitionAllowed (old : CallStatus) : CallStatus → Bool
  | .initiated => false
  | .ringing | .answered => old = .initiated ∨ old = .ringing
  | .ended | .missed | .rejected | .busy => old.isActive

/-- When the move is an UPDATE of the status, the row passes the check of the service
at that moment, or it has the written status already. -/
def InTime (c : CallConfig) : CallAct → Prop
  | .step i _ => ∀ callId status startedAt endedAt,
      c.tasks[i]?.bind (fun t => t.2.next) = some (.updateStatus callId status startedAt endedAt) →
      ∀ x, c.db.calls.lookup callId = some x →
        x.status = status ∨ transitionAllowed x.status status = true
  | _ => True

theorem kept_iff_allowed {old new : CallStatus} {endedAt : Option Timestamp}
    (hnew : new ≠ .initiated) (he : endedAt = none ↔ new.isActive = true) :
    (old = new ∨ transitionAllowed old new = true) ↔
      (old.isActive = false → new = old ∧ endedAt.isSome) ∧
      (old = .answered → new ≠ .initiated ∧ new ≠ .ringing) := by
  cases endedAt <;> cases new <;> cases old <;>
    simp [transitionAllowed, CallStatus.isActive] at he hnew ⊢

theorem outcomeKept_refl {db : CallsDb} (h : EndedAtSet db) {callId : Uuid} {x : Call}
    (hx : db.calls.lookup callId = some x) :
    (x.status.isActive = false → x.status = x.status ∧ x.endedAt.isSome) ∧
      (x.status = .answered → x.status ≠ .initiated ∧ x.status ≠ .ringing) := by
  refine ⟨fun hf => ⟨rfl, ?_⟩, fun ha => by simp [ha]⟩
  rw [Option.isSome_iff_ne_none, Ne, h callId x hx, hf]
  decide

/-- What every configuration of a run has, in time or not. -/
def Sound : CallConfig → Prop :=
  Config.Meets (fun w => EndedAtSet w.db) (fun _ _ _ p => p.Issues UpdateShape)

theorem sound_outline : Outline signaling (fun _ _ => True)
    (fun w => EndedAtSet w.db) (fun _ _ _ p => p.Issues UpdateShape) where
  spawn _ r _ := handleClientMessage_shape r.1 r.2
  step hc _ ht he :=
    have hp := hc.2 _ _ _ ht
    ⟨endedAtSet_exec hc.1 hp.1 he, hp.2 _, fun _ _ _ _ h => h⟩
  tick _ _ h := nomatch h

theorem step_kept_iff {c d : CallConfig} {a : CallAct} (hc : Sound c)
    (h : signaling.apply a c = some d) : InTime c a ↔ OutcomeKept c.db d.db := by
  obtain ⟨r, rfl, rfl⟩ | ⟨i, ω, r, cmd, k, ans, s, rfl, ht, he, rfl⟩ | ⟨ω, s, -, hs, -⟩ :=
    System.apply_cases h
  · simp only [InTime, true_iff]
    exact fun callId x hx => ⟨x, hx, outcomeKept_refl hc.1 hx⟩
  · simp only [InTime, ht, Option.bind_some, Prog.next_call, Option.some.injEq, World.after_db]
    have hshape := (hc.2 _ _ _ ht).1
    constructor
    · intro hin callId x hx
      rcases CallsDb.exec_lookup he hx with ⟨st, s', e, rfl, hl⟩ | ⟨-, hl⟩
      · exact ⟨_, hl, (kept_iff_allowed hshape.1 hshape.2).mp (hin _ _ _ _ rfl x hx)⟩
      · exact ⟨x, hl, outcomeKept_refl hc.1 hx⟩
    · rintro hkept callId st s' e rfl x hx
      obtain ⟨y, hy, hk⟩ := hkept callId x hx
      rcases CallsDb.exec_lookup (c := .updateStatus callId st s' e) he hx with
        ⟨st', s'', e', heq, hl⟩ | ⟨hne, -⟩
      · obtain ⟨-, rfl, rfl, rfl⟩ := CallCmd.updateStatus.inj heq
        obtain rfl := Option.some.inj (hl.symm.trans hy)
        exact (kept_iff_allowed hshape.1 hshape.2).mpr hk
      · exact absurd rfl (hne st s' e)
  · exact nomatch hs

/-- In a run from an empty table the outcomes of the calls are final exactly if every
UPDATE finds its row as the check of the service wants it. -/
theorem outcomes_final_iff_in_time (users : List Uuid) (acts : List CallAct) :
    signaling.Every InTime acts (System.start (CallsDb.empty users)) ↔
      (signaling.trace acts (System.start (CallsDb.empty users))).Pairwise
        (fun a b => OutcomeKept a.db b.db) := by
  refine System.every_iff_pairwise (J := Sound)
    (fun hc ha => sound_outline.apply hc trivial ha) (fun h h' => h.trans h') step_kept_iff
    acts (Outline.start ?_)
  intro callId x hx
  simp [CallsDb.empty] at hx

def alice : Uuid := .ofNat 1

def bob : Uuid := .ofNat 2

def theCall : Uuid := .ofNat 3

def clockAt (now : Timestamp) : Choice := ⟨theCall, now⟩

/-- The receiver rejects as soon as the call reaches its channel, before the
initiating task writes `ringing`. -/
def rejectBeforeRinging : List CallAct :=
  [.spawn (alice, .callInitiate bob "audio" "offer"),
    .step 0 (clockAt 1), .step 0 (clockAt 2), .step 0 (clockAt 3), .step 0 (clockAt 4),
    .spawn (bob, .callReject theCall none),
    .step 1 (clockAt 5), .step 1 (clockAt 6), .step 1 (clockAt 7),
    .step 0 (clockAt 8)]

theorem rejected_call_rings_again :
    ¬ (signaling.trace rejectBeforeRinging
        (System.start (CallsDb.empty [alice, bob]))).Pairwise
      (fun a b => OutcomeKept a.db b.db) := by
  intro h
  have hlen : (signaling.trace rejectBeforeRinging
      (System.start (CallsDb.empty [alice, bob]))).length = 11 := rfl
  have hkept := List.pairwise_iff_getElem.mp h 9 10 (by omega) (by omega) (by omega)
  obtain ⟨y, hy, hfin, -⟩ := hkept theCall ⟨theCall, alice, bob, .audio, .rejected, none,
    some 6, 3, 7⟩ rfl
  have hrings : (signaling.trace rejectBeforeRinging (System.start
      (CallsDb.empty [alice, bob])))[10].db.calls.lookup theCall = some ⟨theCall, alice,
        bob, .audio, .ringing, none, none, 3, 8⟩ := rfl
  obtain rfl := Option.some.inj (hy.symm.trans hrings)
  exact absurd (hfin rfl).1 (by decide)

end Mesty.Calls.Outcome
