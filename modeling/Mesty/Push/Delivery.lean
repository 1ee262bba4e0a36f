import Mesty.Concurrency.Ledger
import Mesty.Concurrency.Visits
import Mesty.Push.Fifo

namespace Mesty.Push.Delivery

open Mesty.Base.Ids Mesty.Base.Error Mesty.Concurrency.Program Mesty.Concurrency.Pool
open Mesty.Concurrency.Visits Mesty.Concurrency.Ledger
open Mesty.Push.Queue Mesty.Push.Fifo Mesty.Refinement.Channel
open Mesty.Auth.Entities (SessionRow)

abbrev Asked := List ((c : PushCmd) × c.Ans)

section Amounts

variable {Value : Type} (lib : PushLib Value) (userId sessionId : Uuid)

/-- The payload is a job for the user. -/
def isFor (payload : String) : Bool :=
  match lib.fromStr payload with
  | .ok job => job.userId = userId
  | .error _ => false

/-- The push goes to the session for the user. -/
def goesTo (push : SentPush) : Bool := push.sessionId = sessionId ∧ push.userId = userId

def sends : (cmd : PushCmd) → cmd.Ans → Nat
  | .send push, _ => (goesTo userId sessionId push).toNat
  | _, _ => 0

def sending : PushEvent → Option SentPush
  | ⟨_, .send push, _⟩ => some push
  | _ => none

def receives : (cmd : PushCmd) → cmd.Ans → Nat
  | .brpop, .ok (some payload) => (isFor lib userId payload).toNat
  | _, _ => 0

def enqueues : (cmd : PushCmd) → cmd.Ans → Nat
  | .lpush payload, _ => (isFor lib userId payload).toNat
  | _, _ => 0

/-- The request is to enqueue a job for the user. -/
def asksFor : PushReq Value → Nat
  | .enqueue job => (decide (job.userId = userId)).toNat
  | .turn => 0

end Amounts

section Protocol

variable {Value : Type} (lib : PushLib Value) (userId sessionId : Uuid)

/-- No session comes twice in the rows of an answer. -/
def Distinct (h : Asked) : Prop :=
  ∀ owner rows, ⟨.fetchPushTokens owner, .ok rows⟩ ∈ h → (rows.map PushTokenRow.id).Nodup

/-- The task has got a job for the user of the push, and then the session among the rows. -/
def Justified (h : Asked) (push : SentPush) : Prop :=
  ∃ payload job rows row, ⟨.brpop, .ok (some payload)⟩ ∈ h ∧ lib.fromStr payload = .ok job ∧
    ⟨.fetchPushTokens job.userId, .ok rows⟩ ∈ h ∧ row ∈ rows ∧
    push = ⟨row.id, DeviceType.from (row.deviceType.getD "android"), job.userId⟩

/-- The task has sent no more to the session than it has got jobs. -/
def Within (h : Asked) : Prop :=
  Distinct h → earned (sends userId sessionId) h ≤ earned (receives lib userId) h

def Turns (h : Asked) (cmd : PushCmd) : Prop :=
  Within lib userId sessionId h ∧ ∀ push, cmd = .send push → Justified lib h push

variable {lib userId sessionId}

theorem Distinct.of_append {h h' : Asked} (hd : Distinct (h ++ h')) : Distinct h :=
  fun owner rows hmem => hd owner rows (List.mem_append_left _ hmem)

theorem pushAll_turns {payload : String} {job : PushNotificationJob Value}
    {rows rest : List PushTokenRow}
    {h : Asked} (hpop : ⟨.brpop, .ok (some payload)⟩ ∈ h) (hjob : lib.fromStr payload = .ok job)
    (hrows : ⟨.fetchPushTokens job.userId, .ok rows⟩ ∈ h) (hrest : rest ⊆ rows)
    (hwithin : Distinct h → earned (sends userId sessionId) h +
      (rest.map (fun row => (goesTo userId sessionId ⟨row.id, .android, job.userId⟩).toNat)).sum ≤
        earned (receives lib userId) h) :
    (pushAll job.userId rest).Follows (Turns lib userId sessionId)
      (fun h _ => Within lib userId sessionId h) h := by
  induction rest generalizing h with
  | nil => exact fun hd => by simpa using hwithin hd
  | cons row rest ih =>
    obtain ⟨hrow, hrest⟩ := List.cons_subset.mp hrest
    rw [pushAll]
    split
    · refine ih hpop hrows hrest fun hd => ?_
      have := hwithin hd
      simp only [List.map_cons, List.sum_cons] at this
      omega
    · refine ⟨⟨fun hd => ?_, ?_⟩, fun _ => ?_⟩
      · have := hwithin hd
        omega
      · rintro push ⟨⟩
        exact ⟨payload, job, rows, row, hpop, hjob, hrows, hrow, rfl⟩
      · refine ih (List.mem_append_left _ hpop) (List.mem_append_left _ hrows) hrest fun hd => ?_
        have := hwithin hd.of_append
        simp only [List.map_cons, List.sum_cons] at this
        simp only [earned_append, earned_singleton, sends, receives, goesTo] at this ⊢
        omega

/-- A session is there once at most. -/
theorem sum_goesTo_le (userId sessionId owner : Uuid) {rows : List PushTokenRow}
    (h : (rows.map PushTokenRow.id).Nodup) :
    (rows.map (fun row => (goesTo userId sessionId ⟨row.id, .android, owner⟩).toNat)).sum ≤
      (decide (owner = userId)).toNat := by
  by_cases howner : owner = userId
  · have hcount := List.nodup_iff_count_le_one.mp h sessionId
    refine Nat.le_trans (Nat.le_of_eq ?_) (by simpa [howner] using hcount)
    clear hcount h
    induction rows with
    | nil => rfl
    | cons row rows ih =>
      rw [List.map_cons, List.sum_cons, ih, List.map_cons, List.count_cons]
      by_cases hid : row.id = sessionId <;> simp [goesTo, howner, hid, Nat.add_comm]
  · simp [goesTo, howner]

theorem handler_turns (lib : PushLib Value) (userId sessionId : Uuid) (r : PushReq Value) :
    ((pushServer lib).handler r).Follows
    (Turns lib userId sessionId) (fun h _ => Within lib userId sessionId h) [] := by
  cases r with
  | enqueue job =>
    change (enqueuePushNotification lib job).Follows _ _ _
    rw [enqueuePushNotification]
    split
    · exact fun _ => Nat.le_refl _
    · refine ⟨⟨fun _ => Nat.le_refl _, by rintro push ⟨⟩⟩, fun ans => ?_⟩
      obtain e | ⟨⟩ := ans <;> exact fun _ => Nat.le_refl _
  | turn =>
    refine Prog.follows_bind.mpr ⟨⟨fun _ => Nat.le_refl _, by rintro push ⟨⟩⟩, fun popped => ?_⟩
    obtain e | _ | payload := popped
    · exact fun _ => Nat.le_refl _
    · exact fun _ => Nat.le_refl _
    · dsimp only [Prog.bind]
      split
      · exact fun _ => Nat.zero_le _
      · next job hjob =>
        refine ⟨⟨fun _ => Nat.zero_le _, by rintro push ⟨⟩⟩, fun found => ?_⟩
        cases found with
        | error e => exact fun _ => Nat.zero_le _
        | ok rows =>
          have hpop : ⟨.brpop, .ok (some payload)⟩ ∈ ([⟨.brpop, .ok (some payload)⟩,
              ⟨.fetchPushTokens job.userId, .ok rows⟩] : Asked) := by simp
          refine pushAll_turns hpop hjob (by simp) (List.Subset.refl _) fun hd => ?_
          have hle := sum_goesTo_le userId sessionId job.userId (hd job.userId rows (by simp))
          simpa [earned, sends, receives, isFor, hjob] using hle

end Protocol

/-- Some run leads from `c` to `d`. -/
abbrev Runs {Value : Type} (lib : PushLib Value) (c d : PushConfig Value) : Prop :=
  (pushServer lib).Reach (fun _ _ => True) c d

section Moments

variable {Value : Type} {lib : PushLib Value} {userId sessionId : Uuid} {c : PushConfig Value} {db : PushDb}

theorem pushTokens_nodup (t : SessionTable) (owner : Uuid) :
    ((t.pushTokens owner).map PushTokenRow.id).Nodup := by
  rw [SessionTable.pushTokens, List.map_map]
  exact t.uniqueIds.sublist (List.filter_sublist.map _)

theorem sent_of_exec {ω : PushChoice} {i : Nat} {cmd : PushCmd} {ans : cmd.Ans} {db' : PushDb}
    (he : PushDb.exec ω cmd db = some (ans, db')) :
    db'.sent = db.sent ++ (sending ⟨i, cmd, ans⟩).toList := by
  cases cmd with
  | send push =>
    obtain ⟨-, rfl⟩ := Prod.mk.inj (Option.some.inj he)
    rfl
  | lpush payload | brpop | fetchPushTokens owner =>
    rw [PushDb.exec] at he
    split at he <;> obtain ⟨-, rfl⟩ := Prod.mk.inj (Option.some.inj he) <;>
      exact (List.append_nil _).symm

/-- What the database answers. -/
theorem fetched {ω : PushChoice} {db' : PushDb} {owner : Uuid} {rows : List PushTokenRow}
    (he : PushDb.exec ω (.fetchPushTokens owner) db = some (.ok rows, db')) :
    rows.Perm (db.sessions.pushTokens owner) := by
  rw [PushDb.exec] at he
  split at he
  · obtain ⟨hans, -⟩ := Prod.mk.inj (Option.some.inj he)
    obtain rfl := Except.ok.inj hans
    split_ifs with hperm
    · exact hperm
    · exact .refl _
  · cases (Prod.mk.inj (Option.some.inj he)).1

theorem fetched_moment (h : Runs lib (System.start db) c) {i : Nat} {owner : Uuid}
    {rows : List PushTokenRow} (hmem : ⟨.fetchPushTokens owner, .ok rows⟩ ∈ c.history i) :
    ∃ e, Runs lib (System.start db) e ∧ Runs lib e c ∧ rows.Perm (e.db.sessions.pushTokens owner) := by
  obtain ⟨e, e', ω, hce, hee, hed, he⟩ :=
    executed_since (System.replays_start db) h (Nat.zero_le i) hmem
  exact ⟨e, hce, hee.trans hed, fetched he⟩

theorem history_distinct (h : Runs lib (System.start db) c) (i : Nat) : Distinct (c.history i) := by
  intro owner rows hmem
  obtain ⟨e, -, -, hperm⟩ := fetched_moment h hmem
  exact (hperm.map _).nodup_iff.mpr (pushTokens_nodup _ _)

/-- What has been sent, the tasks have sent. -/
theorem sent_eq (h : Runs lib (System.start db) c) :
    c.db.sent = db.sent ++ c.log.filterMap sending := by
  refine h.invariant (J := fun c => c.db.sent = db.sent ++ c.log.filterMap sending) (fun hJ _ ha => ?_)
    (List.append_nil _).symm
  obtain ⟨r, rfl, rfl⟩ | ⟨i, ω, r, cmd, k, ans, s, rfl, ht, he, rfl⟩ | ⟨ω, s, rfl, hs, rfl⟩ :=
    System.apply_cases ha
  · exact hJ
  · rw [World.after_db, World.after_log, filterMap_snoc, ← List.append_assoc, ← hJ]
    exact sent_of_exec he
  · obtain rfl := Option.some.inj hs
    exact hJ

end Moments

section Issues

variable {Value : Type} {lib : PushLib Value} {P : PushCmd → Prop}

theorem pushAll_issues (hsend : ∀ push, P (.send push)) (owner : Uuid) (rows : List PushTokenRow) :
    (pushAll owner rows).Issues P := by
  induction rows with
  | nil => trivial
  | cons row rows ih =>
    rw [pushAll]
    split
    · exact ih
    · exact ⟨hsend _, fun _ => ih⟩

theorem workerTurn_issues (hpop : P .brpop) (hfetch : ∀ owner, P (.fetchPushTokens owner))
    (hsend : ∀ push, P (.send push)) : (workerTurn lib).Issues P := by
  refine ⟨hpop, fun popped => ?_⟩
  obtain e | _ | payload := popped
  · trivial
  · trivial
  · dsimp only [Prog.bind]
    split
    · trivial
    · refine ⟨hfetch _, fun found => ?_⟩
      cases found with
      | error e => trivial
      | ok rows => exact pushAll_issues hsend _ rows

end Issues

section Counts

variable {Value : Type} {lib : PushLib Value} {userId sessionId : Uuid} {c : PushConfig Value} {db : PushDb}

theorem countP_sending (log : List PushEvent) :
    (log.filterMap sending).countP (goesTo userId sessionId) = total (sends userId sessionId) log :=
  countP_filterMap fun ⟨_, cmd, _⟩ => by cases cmd <;> rfl

theorem countP_receipt (log : List PushEvent) :
    (log.filterMap receipt).countP (isFor lib userId) = total (receives lib userId) log :=
  countP_filterMap fun ⟨_, cmd, ans⟩ => by
    cases cmd with
    | brpop => obtain e | _ | payload := ans <;> rfl
    | _ => rfl

theorem countP_attempt (log : List PushEvent) :
    (log.filterMap attempt).countP (isFor lib userId) = total (enqueues lib userId) log :=
  countP_filterMap fun ⟨_, cmd, _⟩ => by cases cmd <;> rfl

/-- A request enqueues its own job, and once. -/
theorem handler_enqueues (userId : Uuid) (hlib : lib.RoundTrip) (r : PushReq Value) :
    ((pushServer lib).handler r).Follows
      (fun h _ => earned (enqueues lib userId) h ≤ asksFor userId r)
      (fun h _ => earned (enqueues lib userId) h ≤ asksFor userId r) [] := by
  cases r with
  | enqueue job =>
    change (enqueuePushNotification lib job).Follows _ _ _
    rw [enqueuePushNotification]
    split
    · exact Nat.zero_le _
    · next payload hpayload =>
      refine ⟨Nat.zero_le _, fun ans => ?_⟩
      have hone : (isFor lib userId payload).toNat = asksFor userId (.enqueue job) := by
        rw [isFor, hlib job payload hpayload]
        rfl
      have hle : earned (enqueues lib userId) [⟨.lpush payload, ans⟩] ≤ asksFor userId
        (.enqueue job) := by
        rw [earned_singleton]
        exact Nat.le_of_eq hone
      obtain e | ⟨⟩ := ans <;> exact hle
  | turn =>
    have hissues : ((pushServer lib).handler .turn).Issues
        (fun cmd => ∀ ans, enqueues lib userId cmd ans = 0) := by
      have hturn : (workerTurn lib).Issues (fun cmd => ∀ ans, enqueues lib userId cmd ans = 0) :=
        workerTurn_issues (fun _ => rfl) (fun _ _ => rfl) (fun _ _ => rfl)
      exact hturn.bind fun _ => trivial
    exact (follows_of_free hissues (fun _ _ hh => hh.le) rfl).mono (fun _ _ hh => hh.le)
      (fun _ _ hh => hh)

end Counts

/-- The push goes to a session that its user has, with a token. -/
def Real (db : PushDb) (push : SentPush) : Prop :=
  ∃ deviceId row, db.sessions.rows.lookup (push.userId, deviceId) = some row ∧
    row.id = push.sessionId ∧ row.pushToken.isSome ∧ push.deviceType = DeviceType.from row.deviceType

/-- Each push was due at some moment, and a session gets no more of them than jobs were queued or
enqueued for its user. -/
structure Delivered {Value : Type} (lib : PushLib Value) (db : PushDb) (c : PushConfig Value) : Prop where
  real : ∀ push ∈ c.db.sent, push ∈ db.sent ∨
    ∃ e, Runs lib (System.start db) e ∧ Runs lib e c ∧ Real e.db push
  bounded : ∀ userId sessionId, c.db.sent.countP (goesTo userId sessionId) ≤
    db.sent.countP (goesTo userId sessionId) + db.queue.countP (isFor lib userId) +
      (c.tasks.map (fun t => asksFor userId t.1)).sum

section Result

variable {Value : Type} {lib : PushLib Value} {c : PushConfig Value} {db : PushDb}

theorem real_of_run (h : Runs lib (System.start db) c) {push : SentPush} (hsent : push ∈ c.db.sent) :
    push ∈ db.sent ∨ ∃ e, Runs lib (System.start db) e ∧ Runs lib e c ∧ Real e.db push := by
  rw [sent_eq h] at hsent
  refine (List.mem_append.mp hsent).imp_right fun hlogged => ?_
  obtain ⟨⟨i, cmd, ans⟩, hev, hsending⟩ := List.mem_filterMap.mp hlogged
  cases cmd with
  | send push' =>
    obtain rfl := Option.some.inj hsending
    obtain ⟨before, later, hlog⟩ := List.append_of_mem hev
    obtain ⟨r, p, -, -, hjustified⟩ := h.replays.followed
      (handler_turns lib push'.userId push'.sessionId) hlog
    obtain ⟨payload, job, rows, row, -, -, hrows, hrow, hpush⟩ := hjustified push' rfl
    have hmem : ⟨.fetchPushTokens job.userId, .ok rows⟩ ∈ c.history i := by
      rw [World.history, hlog, eventsOf_append]
      exact List.mem_append_left _ hrows
    obtain ⟨e, hse, hec, hperm⟩ := fetched_moment h hmem
    refine ⟨e, hse, hec, ?_⟩
    obtain ⟨⟨⟨owner, deviceId⟩, session⟩, hfound, rfl⟩ := List.mem_map.mp (hperm.mem_iff.mp hrow)
    obtain ⟨hentry, htoken⟩ := List.mem_filter.mp hfound
    obtain ⟨howner, hsome⟩ := Bool.and_eq_true_iff.mp htoken
    obtain rfl := of_decide_eq_true howner
    subst hpush
    exact ⟨deviceId, session, AList.mem_lookup_iff.mpr hentry, rfl, hsome, rfl⟩
  | lpush | brpop | fetchPushTokens => cases hsending

theorem bounded_of_run (hlib : lib.RoundTrip) (h : Runs lib (System.start db) c)
    (hordered : Ordered db.queue c) (userId sessionId : Uuid) :
    c.db.sent.countP (goesTo userId sessionId) ≤
      db.sent.countP (goesTo userId sessionId) + db.queue.countP (isFor lib userId) +
        (c.tasks.map (fun t => asksFor userId t.1)).sum := by
  obtain ⟨pushed, taken, hpasses, -, hpushed, hreceived⟩ := hordered
  have hsends : total (sends userId sessionId) c.log ≤ total (receives lib userId) c.log := by
    refine total_le_total h.replays fun i t ht => ?_
    obtain ⟨r, p⟩ := t
    have hfollows := h.replays.follows (handler_turns lib userId sessionId) ht
    cases p with
    | ret a => exact hfollows (history_distinct h i)
    | call cmd k => exact hfollows.1.1 (history_distinct h i)
  have hasked : total (enqueues lib userId) c.log ≤
    (c.tasks.map (fun t => asksFor userId t.1)).sum := by
    refine total_le_sum h.replays fun i r p ht => ?_
    have hfollows := h.replays.follows (handler_enqueues userId hlib) ht
    cases p with
    | ret a => exact hfollows
    | call cmd k => exact hfollows.1
  have hentered := calc total (receives lib userId) c.log
    _ = (c.log.filterMap receipt).countP (isFor lib userId) := (countP_receipt c.log).symm
    _ ≤ taken.countP (isFor lib userId) := hreceived.countP_le _
    _ ≤ (db.queue.reverse ++ pushed).countP (isFor lib userId) := hpasses.countP_left_le _
    _ = db.queue.countP (isFor lib userId) + pushed.countP (isFor lib userId) := by
      rw [List.countP_append, List.countP_reverse]
    _ ≤ db.queue.countP (isFor lib userId) + total (enqueues lib userId) c.log := by
      rw [← countP_attempt]
      exact Nat.add_le_add_left hpushed.countP_le _
  rw [sent_eq h, List.countP_append, countP_sending]
  omega

end Result

def alice : Uuid := .ofNat 1

def bob : Uuid := .ofNat 2

def aliceJob : PushNotificationJob Unit := ⟨alice, "story_view", ()⟩

def bobJob : PushNotificationJob Unit := ⟨bob, "story_view", ()⟩

def alicePayload : String :=
  "\x7b\"user_id\":\"00000000-0000-0000-0000-000000000001\",\"notification_type\":\"story_view\"," ++
  "\"payload\":null\x7d"

def bobPayload : String :=
  "\x7b\"user_id\":\"00000000-0000-0000-0000-000000000002\",\"notification_type\":\"story_view\"," ++
  "\"payload\":null\x7d"

def aliceLib : PushLib Unit where
  toString job :=
    if job = aliceJob then .ok alicePayload else if job = bobJob then .ok bobPayload else .error ""
  fromStr payload :=
    if payload = alicePayload then .ok aliceJob else if payload = bobPayload then .ok bobJob
    else .error ""

theorem aliceLib_roundTrip : aliceLib.RoundTrip := by
  intro job payload hpayload
  have hother : bobPayload ≠ alicePayload := by decide
  simp only [aliceLib] at hpayload ⊢
  split_ifs at hpayload with halice hbob
  · rw [halice, if_pos (Except.ok.inj hpayload).symm]
  · rw [hbob, ← Except.ok.inj hpayload, if_neg hother, if_pos rfl]

def aliceSession : SessionRow := ⟨.ofNat 7, "phone", "ios", some "token", none, 0, 0⟩

def aliceDb : PushDb where
  queue := []
  sessions := ⟨AList.singleton (alice, "device") aliceSession, by decide⟩
  sent := []

def choose : PushChoice := ⟨.arrives, none, [], aliceDb.sessions⟩

def alicePush : SentPush := ⟨.ofNat 7, .ios, alice⟩

/-- A job for Alice is enqueued, and a worker takes it. -/
def oneJob : List (PushAct Unit) :=
  [.spawn (.enqueue aliceJob), .step 0 choose, .spawn .turn, .step 1 choose, .step 1 choose, .step 1 choose]

section Drain

variable {Value : Type} (lib : PushLib Value)

/-- Nothing fails. -/
def Fine : Type := { ω : PushChoice // ω.reply = .arrives ∧ ω.fault = none }

def enqueueAll : List (PushNotificationJob Value) → Prog PushCmd PushCmd.Ans Unit
  | [] => return ()
  | job :: jobs => do
    let _ ← enqueuePushNotification lib job
    enqueueAll jobs

def turns : Nat → Prog PushCmd PushCmd.Ans Unit
  | 0 => return ()
  | n + 1 => do
    workerTurn lib
    turns n

def toPush (userId : Uuid) (row : PushTokenRow) : Option SentPush :=
  row.pushToken.map (fun _ => ⟨row.id, DeviceType.from (row.deviceType.getD "android"), userId⟩)

/-- One push for each session of the user that has a token. -/
def pushesTo (t : SessionTable) (userId : Uuid) : List SentPush :=
  (t.pushTokens userId).filterMap (toPush userId)

/-- The jobs have been handled in this order. -/
def Handled (t : SessionTable) (jobs : List (PushNotificationJob Value)) (pushes : List SentPush) : Prop :=
  ∃ blocks, List.Forall₂ (fun job block => block.Perm (pushesTo t job.userId)) jobs blocks ∧
    pushes = blocks.flatten

variable {lib} {db : PushDb} {owner : Uuid} {Q : Unit → PushDb → Prop}

/-- The database answers, as long as nothing fails. -/
abbrev fineExec (ω : Fine) : (c : PushCmd) → PushDb → Option (c.Ans × PushDb) := PushDb.exec ω.1

theorem pushAll_wp (rows : List PushTokenRow) (db : PushDb) : (pushAll owner rows).wp fineExec
    (fun _ db' => db' = { db with sent := db.sent ++ rows.filterMap (toPush owner) }) db := by
  induction rows generalizing db with
  | nil => exact congrArg (fun sent => { db with sent }) (List.append_nil _).symm
  | cons row rows ih =>
    rw [pushAll]
    split
    · next hnone =>
      rw [List.filterMap_cons_none (by rw [toPush, hnone]; rfl)]
      exact ih db
    · next token hsome =>
      rintro ω ⟨⟩ db' ⟨⟩
      refine (ih _).mono fun _ db' hdb' => ?_
      have hpush : toPush owner row =
          some ⟨row.id, DeviceType.from (row.deviceType.getD "android"), owner⟩ := by
        rw [toPush, hsome]
        rfl
      rw [hdb', List.filterMap_cons_some hpush]
      exact congrArg (PushDb.mk _ _) (List.append_cons _ _ _).symm

/-- A turn takes the job that has waited longest. -/
theorem workerTurn_wp {job : PushNotificationJob Value} {payload : String} {queue : List String}
    (hjob : lib.fromStr payload = .ok job) (hqueue : db.queue = queue ++ [payload]) :
    (workerTurn lib).wp fineExec (fun _ db' => ∃ block, block.Perm (pushesTo db.sessions job.userId) ∧
      db' = { db with queue := queue, sent := db.sent ++ block }) db := by
  rintro ⟨ω, harrives, hfault⟩ popped db₁ he
  change PushDb.exec ω _ _ = _ at he
  rw [PushDb.exec, harrives] at he
  obtain ⟨rfl, rfl⟩ := Prod.mk.inj (Option.some.inj he)
  rw [hqueue, List.getLast?_concat, List.dropLast_concat]
  dsimp only [Prog.bind]
  rw [hjob]
  rintro ⟨ω', harrives', hfault'⟩ found db₂ hfetch
  change PushDb.exec ω' _ _ = _ at hfetch
  cases found with
  | error e =>
    rw [PushDb.exec, hfault'] at hfetch
    cases (Prod.mk.inj (Option.some.inj hfetch)).1
  | ok rows =>
    have hperm := fetched hfetch
    rw [PushDb.exec, hfault'] at hfetch
    obtain ⟨-, rfl⟩ := Prod.mk.inj (Option.some.inj hfetch)
    exact (pushAll_wp rows _).mono fun _ db' hdb' => ⟨_, hperm.filterMap _, hdb'⟩

theorem turns_wp (jobs : List (PushNotificationJob Value)) (payloads : List String)
    (hjobs : List.Forall₂ (fun job payload => lib.fromStr payload = .ok job) jobs payloads)
    (db : PushDb) (hqueue : db.queue = payloads.reverse) :
    (turns lib jobs.length).wp fineExec (fun _ db' => ∃ pushes, Handled db.sessions jobs pushes ∧
      db' = { db with queue := [], sent := db.sent ++ pushes }) db := by
  induction hjobs generalizing db with
  | nil =>
    refine ⟨[], ⟨[], .nil, rfl⟩, ?_⟩
    rw [List.append_nil, ← show db.queue = [] from hqueue]
  | @cons job payload jobs payloads hjob hrest ih =>
    rw [List.length_cons, turns, Prog.wp_bind]
    rw [List.reverse_cons] at hqueue
    refine (workerTurn_wp hjob hqueue).mono ?_
    rintro - db' ⟨block, hblock, rfl⟩
    refine (ih _ rfl).mono ?_
    rintro - db' ⟨pushes, ⟨blocks, hblocks, rfl⟩, rfl⟩
    refine ⟨block ++ blocks.flatten, ⟨block :: blocks, .cons hblock hblocks, rfl⟩, ?_⟩
    rw [List.append_assoc]

theorem enqueueAll_wp (jobs : List (PushNotificationJob Value)) (payloads : List String)
    (hjobs : List.Forall₂ (fun job payload => lib.toString job = .ok payload) jobs payloads)
    (db : PushDb) : (enqueueAll lib jobs).wp fineExec
      (fun _ db' => db' = { db with queue := payloads.reverse ++ db.queue }) db := by
  induction hjobs generalizing db with
  | nil => rfl
  | @cons job payload jobs payloads hjob hrest ih =>
    rw [enqueueAll, enqueuePushNotification, hjob]
    rintro ⟨ω, harrives, hfault⟩ answer db₁ he
    change PushDb.exec ω _ _ = _ at he
    rw [PushDb.exec, harrives] at he
    obtain ⟨rfl, rfl⟩ := Prod.mk.inj (Option.some.inj he)
    refine (ih _).mono fun _ db' hdb' => ?_
    rw [hdb', List.reverse_cons, List.append_assoc]
    rfl

end Drain

/-- As long as nothing fails, the jobs that are enqueued are handled by as many turns, in the order
of their arrival, and the queue is empty again. -/
theorem drained {Value : Type} {lib : PushLib Value} (hlib : lib.RoundTrip)
    (jobs : List (PushNotificationJob Value))
    (hjobs : ∀ job ∈ jobs, ∃ payload, lib.toString job = .ok payload)
    (db : PushDb) (hempty : db.queue = []) :
    (do enqueueAll lib jobs; turns lib jobs.length).wp fineExec (fun _ db' =>
      ∃ pushes, Handled db.sessions jobs pushes ∧ db' = { db with sent := db.sent ++ pushes }) db := by
  obtain ⟨payloads, hpayloads⟩ : ∃ payloads,
      List.Forall₂ (fun job payload => lib.toString job = .ok payload) jobs payloads := by
    induction jobs with
    | nil => exact ⟨[], .nil⟩
    | cons job jobs ih =>
      obtain ⟨payload, hpayload⟩ := hjobs job List.mem_cons_self
      obtain ⟨payloads, hpayloads⟩ := ih fun job' hjob' => hjobs job' (List.mem_cons_of_mem _ hjob')
      exact ⟨payload :: payloads, .cons hpayload hpayloads⟩
  rw [Prog.wp_bind]
  refine (enqueueAll_wp jobs payloads hpayloads db).mono ?_
  rintro - db' rfl
  rw [hempty, List.append_nil]
  refine (turns_wp jobs payloads (hpayloads.imp fun job payload => hlib job payload) _ rfl).mono ?_
  rintro - db' ⟨pushes, hhandled, rfl⟩
  obtain ⟨queue, sessions, sent⟩ := db
  obtain rfl : queue = [] := hempty
  exact ⟨pushes, hhandled, rfl⟩

def bobSession : SessionRow := ⟨.ofNat 8, "tablet", "android", some "token", none, 0, 0⟩

def twoUsersDb : PushDb where
  queue := []
  sessions := ⟨(AList.singleton (alice, "device") aliceSession).insert (bob, "tablet") bobSession,
    by decide⟩
  sent := []

def bobPush : SentPush := ⟨.ofNat 8, .android, bob⟩

/-- There is one push for each of two jobs, in their order. -/
theorem two_jobs_drained :
    (do enqueueAll aliceLib [aliceJob, bobJob]; turns aliceLib [aliceJob, bobJob].length).wp fineExec
      (fun _ db' => db' = { twoUsersDb with sent := [alicePush, bobPush] }) twoUsersDb := by
  refine (drained aliceLib_roundTrip [aliceJob, bobJob] ?_ twoUsersDb rfl).mono ?_
  · rintro job hjob
    obtain rfl | hjob := List.mem_cons.mp hjob
    · exact ⟨_, rfl⟩
    · obtain rfl := List.mem_singleton.mp hjob
      exact ⟨bobPayload, by decide⟩
  · rintro - db' ⟨pushes, ⟨blocks, hblocks, rfl⟩, rfl⟩
    obtain _ | ⟨halice, hblocks⟩ := hblocks
    obtain _ | ⟨hbob, hblocks⟩ := hblocks
    obtain _ | _ := hblocks
    have hpushes : pushesTo twoUsersDb.sessions aliceJob.userId = [alicePush] ∧
        pushesTo twoUsersDb.sessions bobJob.userId = [bobPush] := by decide +kernel
    rw [hpushes.1, List.perm_singleton] at halice
    rw [hpushes.2, List.perm_singleton] at hbob
    rw [halice, hbob]
    rfl

end Mesty.Push.Delivery
