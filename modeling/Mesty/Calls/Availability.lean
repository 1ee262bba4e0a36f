import Mesty.Calls.Outcome

namespace Mesty.Calls.Availability

open Mesty.Base.Ids Mesty.Calls.Entities Mesty.Calls.Repository Mesty.Calls.Signaling
open Mesty.Calls.Outcome (CallConfig CallAct alice bob)
open Mesty.Concurrency.Program Mesty.Concurrency.Pool

def Engages (x : Call) (userId : Uuid) : Prop := x.callerId = userId ∨ x.receiverId = userId

/-- `userId` is caller or receiver of the call, which is initiated, ringing or answered. -/
def InCall (db : CallsDb) (userId callId : Uuid) : Prop :=
  ∃ x, db.calls.lookup callId = some x ∧ Engages x userId ∧ x.status.isActive = true

def AtMostOneCall (db : CallsDb) : Prop :=
  ∀ userId callId callId', InCall db userId callId → InCall db userId callId' → callId = callId'

theorem mem_active_iff {s : CallStatus} :
    s ∈ [CallStatus.initiated, .ringing, .answered] ↔ s.isActive = true := by
  cases s <;> simp [CallStatus.isActive]

variable {db : CallsDb}

/-- The query of the service sees every active call. -/
theorem isUserInActiveCall_iff {userId : Uuid} :
    db.isUserInActiveCall userId = true ↔ ∃ callId, InCall db userId callId := by
  simp only [CallsDb.isUserInActiveCall, List.any_eq_true, decide_eq_true_eq]
  constructor
  · rintro ⟨⟨callId, x⟩, hmem, hparty, hactive⟩
    exact ⟨callId, x, AList.mem_lookup_iff.mpr hmem, hparty, mem_active_iff.mp hactive⟩
  · rintro ⟨callId, x, hx, hparty, hactive⟩
    exact ⟨⟨callId, x⟩, AList.mem_lookup_iff.mp hx, hparty, mem_active_iff.mpr hactive⟩

theorem free_iff {userId : Uuid} :
    db.isUserInActiveCall userId = false ↔ ∀ callId, ¬ InCall db userId callId := by
  rw [← Bool.not_eq_true, isUserInActiveCall_iff, not_exists]

/-- The table with one row written. -/
def setCall (db : CallsDb) (callId : Uuid) (x : Call) : CallsDb :=
  { db with calls := db.calls.insert callId x }

theorem inCall_setCall {userId callId callId' : Uuid} {x : Call} :
    InCall (setCall db callId x) userId callId' ↔
      if callId' = callId then Engages x userId ∧ x.status.isActive = true
      else InCall db userId callId' := by
  by_cases h : callId' = callId
  · subst h
    simp [InCall, setCall]
  · simp [InCall, setCall, AList.lookup_insert_ne h, h]

/-- A write that makes no call active keeps the calls exclusive. -/
theorem atMostOne_of_imp {db' : CallsDb} (h : AtMostOneCall db)
    (hsub : ∀ userId callId, InCall db' userId callId → InCall db userId callId) :
    AtMostOneCall db' :=
  fun userId callId callId' hc hc' =>
    h userId callId callId' (hsub userId callId hc) (hsub userId callId' hc')

/-- A row that becomes active keeps the calls exclusive exactly if both parties were free. -/
theorem atMostOne_setCall_iff (h : AtMostOneCall db) {callId : Uuid} {x : Call}
    (hidle : ∀ userId, ¬ InCall db userId callId) (hx : x.status.isActive = true) :
    AtMostOneCall (setCall db callId x) ↔
      db.isUserInActiveCall x.callerId = false ∧ db.isUserInActiveCall x.receiverId = false := by
  have hself : ∀ userId, Engages x userId → InCall (setCall db callId x) userId callId :=
    fun userId hp => inCall_setCall.mpr (by simp [hp, hx])
  have hold : ∀ userId callId', InCall db userId callId' →
      InCall (setCall db callId x) userId callId' := by
    intro userId callId' hc
    rw [inCall_setCall, if_neg]
    · exact hc
    · rintro rfl
      exact hidle userId hc
  constructor
  · intro hone
    have hfree : ∀ userId, Engages x userId → db.isUserInActiveCall userId = false := by
      intro userId hp
      refine free_iff.mpr fun callId' hc => ?_
      obtain rfl := hone userId callId callId' (hself userId hp) (hold userId callId' hc)
      exact hidle userId hc
    exact ⟨hfree _ (.inl rfl), hfree _ (.inr rfl)⟩
  · rintro ⟨hcaller, hreceiver⟩
    have hfree : ∀ userId callId', Engages x userId → ¬ InCall db userId callId' := by
      rintro userId callId' (rfl | rfl)
      · exact free_iff.mp hcaller callId'
      · exact free_iff.mp hreceiver callId'
    intro userId c c' hc hc'
    rw [inCall_setCall] at hc hc'
    split_ifs at hc hc' with h₁ h₂ h₂
    · rw [h₁, h₂]
    · exact absurd hc' (hfree userId c' hc.1)
    · exact absurd hc (hfree userId c hc'.1)
    · exact h userId c c' hc hc'

/-- When the move makes a call active (an INSERT that passes its constraints, or an UPDATE of
a finished row to an active status), neither party is in an active call at that moment. -/
def PartiesFree (c : CallConfig) : CallAct → Prop
  | .step i _ =>
    (∀ newCall, c.tasks[i]?.bind (fun t => t.2.next) = some (.create newCall) →
      newCall.callerId ≠ newCall.receiverId → newCall.callerId ∈ c.db.users →
      newCall.receiverId ∈ c.db.users →
      c.db.isUserInActiveCall newCall.callerId = false ∧
        c.db.isUserInActiveCall newCall.receiverId = false) ∧
    (∀ callId status startedAt endedAt,
      c.tasks[i]?.bind (fun t => t.2.next) = some (.updateStatus callId status startedAt endedAt) →
      status.isActive = true →
      ∀ x, c.db.calls.lookup callId = some x → x.status.isActive = false →
        c.db.isUserInActiveCall x.callerId = false ∧ c.db.isUserInActiveCall x.receiverId = false)
  | _ => True

theorem create_iff {ω : Choice} {newCall : NewCall} {db' : CallsDb}
    {ans : (CallCmd.create newCall).Ans} (h : AtMostOneCall db)
    (he : db.create ω newCall = some (ans, db')) :
    (newCall.callerId ≠ newCall.receiverId → newCall.callerId ∈ db.users →
      newCall.receiverId ∈ db.users → db.isUserInActiveCall newCall.callerId = false ∧
        db.isUserInActiveCall newCall.receiverId = false) ↔ AtMostOneCall db' := by
  simp only [CallsDb.create] at he
  split_ifs at he with hfresh hself husers
  · obtain ⟨-, rfl⟩ := Prod.mk.inj (Option.some.inj he)
    simp [hself, h]
  · obtain ⟨-, rfl⟩ := Prod.mk.inj (Option.some.inj he)
    simp only [h, iff_true]
    intro _ hcaller hreceiver
    simp [hcaller, hreceiver] at husers
  · obtain ⟨-, rfl⟩ := Prod.mk.inj (Option.some.inj he)
    rw [not_or, not_not, not_not] at husers
    have hidle : ∀ userId, ¬ InCall db userId ω.uuid := by
      rintro userId ⟨x, hx, -⟩
      exact hfresh (AList.lookup_isSome.mp (by simp [hx]))
    have hiff := atMostOne_setCall_iff h (x := ⟨ω.uuid, newCall.callerId, newCall.receiverId,
      newCall.callType, .initiated, none, none, ω.now, ω.now⟩) hidle rfl
    exact ⟨fun hf => hiff.mpr (hf hself husers.1 husers.2), fun hone _ _ _ => hiff.mp hone⟩

theorem updateStatus_iff {now : Timestamp} {callId : Uuid} {status : CallStatus}
    {startedAt endedAt : Option Timestamp} (h : AtMostOneCall db) :
    (status.isActive = true → ∀ x, db.calls.lookup callId = some x → x.status.isActive = false →
      db.isUserInActiveCall x.callerId = false ∧ db.isUserInActiveCall x.receiverId = false) ↔
    AtMostOneCall (db.updateStatus now callId status startedAt endedAt).2 := by
  rw [CallsDb.updateStatus]
  cases hx : db.calls.lookup callId with
  | none => simp [h]
  | some x =>
    simp only [Option.some.injEq, forall_eq']
    change _ ↔ AtMostOneCall (setCall db callId _)
    by_cases hrevive : status.isActive = true ∧ x.status.isActive = false
    · have hidle : ∀ userId, ¬ InCall db userId callId := by
        rintro userId ⟨y, hy, -, hactive⟩
        obtain rfl := Option.some.inj (hx.symm.trans hy)
        rw [hrevive.2] at hactive
        cases hactive
      rw [atMostOne_setCall_iff h hidle hrevive.1]
      simp [hrevive]
    · refine iff_of_true (fun hnew hold => absurd ⟨hnew, hold⟩ hrevive)
        (atMostOne_of_imp h fun userId callId' hc => ?_)
      rw [inCall_setCall] at hc
      split_ifs at hc with heq
      · -- the row was active already, with the same parties
        refine ⟨x, heq ▸ hx, hc.1, ?_⟩
        by_contra hold
        exact hrevive ⟨hc.2, Bool.eq_false_of_not_eq_true hold⟩
      · exact hc

theorem step_atMostOne_iff {c d : CallConfig} {a : CallAct} (hc : AtMostOneCall c.db)
    (ha : signaling.apply a c = some d) : PartiesFree c a ↔ AtMostOneCall d.db := by
  obtain ⟨r, rfl, rfl⟩ | ⟨i, ω, r, cmd, k, ans, s, rfl, ht, he, rfl⟩ | ⟨ω, s, -, hs, -⟩ :=
    System.apply_cases ha
  · simpa [PartiesFree] using hc
  · simp only [PartiesFree, ht, Option.bind_some, Prog.next_call, Option.some.injEq,
      World.after_db]
    cases cmd with
    | create newCall =>
      simpa using create_iff hc he
    | updateStatus callId status startedAt endedAt =>
      obtain rfl : (c.db.updateStatus ω.now callId status startedAt endedAt).2 = s :=
        congrArg Prod.snd (Option.some.inj he)
      rw [← updateStatus_iff hc]
      constructor
      · rintro ⟨-, hfree⟩
        exact hfree _ _ _ _ rfl
      · intro hfree
        refine ⟨by simp, fun callId' status' startedAt' endedAt' heq => ?_⟩
        obtain ⟨rfl, rfl, -, -⟩ := CallCmd.updateStatus.inj heq
        exact hfree
    | findById | isUserInActiveCall | utcNow | publish | reply | enqueuePush =>
      obtain ⟨-, rfl⟩ := Prod.mk.inj (Option.some.inj he)
      exact iff_of_true ⟨by simp, by simp⟩ hc
  · exact nomatch hs

/-- In a run from an empty table every user is in at most one active call, in all states,
exactly if both parties are free whenever a call becomes active. -/
theorem one_active_call_iff_parties_free (users : List Uuid) (acts : List CallAct) :
    signaling.Every PartiesFree acts (System.start (CallsDb.empty users)) ↔
      ∀ d ∈ signaling.trace acts (System.start (CallsDb.empty users)), AtMostOneCall d.db := by
  refine System.every_iff_forall (J := fun _ => True) (fun _ _ => trivial)
    (fun _ hc ha => step_atMostOne_iff hc ha) acts trivial ?_
  rintro userId callId callId' ⟨x, hx, -⟩
  simp [CallsDb.empty, System.start] at hx

def carol : Uuid := .ofNat 3

def aliceCall : Uuid := .ofNat 4

def carolCall : Uuid := .ofNat 5

/-- Alice and Carol call Bob at the same time: both see him idle before either inserts. -/
def callBobTwice : List CallAct :=
  [.spawn (alice, .callInitiate bob "audio" "offer"),
    .spawn (carol, .callInitiate bob "audio" "offer"),
    .step 0 ⟨aliceCall, 1⟩, .step 0 ⟨aliceCall, 2⟩, .step 1 ⟨carolCall, 3⟩,
    .step 1 ⟨carolCall, 4⟩, .step 0 ⟨aliceCall, 5⟩, .step 1 ⟨carolCall, 6⟩]

theorem bob_in_two_calls :
    ¬ ∀ d ∈ signaling.trace callBobTwice (System.start (CallsDb.empty [alice, bob, carol])),
      AtMostOneCall d.db := by
  intro h
  have hlen : (signaling.trace callBobTwice
      (System.start (CallsDb.empty [alice, bob, carol]))).length = 9 := rfl
  have hone := h _ (List.getElem_mem (n := 8) (by omega)) bob aliceCall carolCall
    ⟨⟨aliceCall, alice, bob, .audio, .initiated, none, none, 5, 5⟩, rfl, .inr rfl, rfl⟩
    ⟨⟨carolCall, carol, bob, .audio, .initiated, none, none, 6, 6⟩, rfl, .inr rfl, rfl⟩
  exact absurd hone (by decide)

end Mesty.Calls.Availability
