import Mesty.Push.Queue
import Mesty.Refinement.Channel

namespace Mesty.Push.Fifo

open Mesty.Base.Ids Mesty.Base.Error Mesty.Concurrency.Program Mesty.Concurrency.Pool
open Mesty.Push.Queue Mesty.Refinement.Channel

abbrev PushEvent := Event PushCmd PushCmd.Ans

abbrev PushConfig (Value : Type) :=
  Config PushCmd PushCmd.Ans PushDb (PushReq Value) (Except DomainError Unit)

abbrev PushAct (Value : Type) := Act (PushReq Value) PushChoice

section Log

/-- The payload that a handler has tried to enqueue. -/
def attempt : PushEvent → Option String
  | ⟨_, .lpush payload, _⟩ => some payload
  | _ => none

/-- The payload whose LPUSH has been answered. -/
def ack : PushEvent → Option String
  | ⟨_, .lpush payload, .ok ()⟩ => some payload
  | _ => none

/-- The payload that a worker has got. -/
def receipt : PushEvent → Option String
  | ⟨_, .brpop, .ok payload⟩ => payload
  | _ => none

def pushFailed : PushEvent → Bool
  | ⟨_, .lpush _, .error _⟩ => true
  | _ => false

def popFailed : PushEvent → Bool
  | ⟨_, .brpop, .error _⟩ => true
  | _ => false

variable {log : List PushEvent}

theorem filterMap_snoc {α : Type} {f : PushEvent → Option α} {e : PushEvent} :
    (log ++ [e]).filterMap f = log.filterMap f ++ (f e).toList := by
  rw [List.filterMap_append]
  cases h : f e <;> simp [h]

theorem countP_snoc {f : PushEvent → Bool} {e : PushEvent} :
    (log ++ [e]).countP f = log.countP f + (f e).toNat := by
  rw [List.countP_append]
  cases h : f e <;> simp [h]

end Log

/-- The queue of the start and the payloads that have been enqueued come out in this order, each
once; what handlers and workers see of it lacks one element at most for every command that has
reported a failure. -/
def Ordered (start : List String) {Value : Type} (c : PushConfig Value) : Prop :=
  ∃ pushed taken, Passes (start.reverse ++ pushed) taken c.db.queue.reverse ∧
    Partly (c.log.filterMap ack) pushed (c.log.countP pushFailed) ∧
    pushed.Sublist (c.log.filterMap attempt) ∧
    Partly (c.log.filterMap receipt) taken (c.log.countP popFailed)

section Step

variable {Value : Type} {lib : PushLib Value} {ω : PushChoice} {db db' : PushDb} {log : List PushEvent}
  {i : Nat} {cmd : PushCmd} {ans : cmd.Ans} {start pushed taken : List String}

theorem queue_of_lpush {payload : String} {ans : Except String Unit}
    (he : PushDb.exec ω (.lpush payload) db = some (ans, db')) :
    (db'.queue = payload :: db.queue) ∨ (db'.queue = db.queue ∧ ∃ e, ans = .error e) := by
  rw [PushDb.exec] at he
  split at he <;> obtain ⟨rfl, rfl⟩ := Prod.mk.inj (Option.some.inj he)
  · exact .inl rfl
  · exact .inl rfl
  · exact .inr ⟨rfl, _, rfl⟩

theorem queue_of_brpop {ans : Except String (Option String)}
    (he : PushDb.exec ω .brpop db = some (ans, db')) :
    (ans = .ok db.queue.getLast? ∧ db'.queue = db.queue.dropLast) ∨
      ((∃ e, ans = .error e) ∧ (db'.queue = db.queue.dropLast ∨ db'.queue = db.queue)) := by
  rw [PushDb.exec] at he
  split at he <;> obtain ⟨rfl, rfl⟩ := Prod.mk.inj (Option.some.inj he)
  · exact .inl ⟨rfl, rfl⟩
  · exact .inr ⟨⟨_, rfl⟩, .inl rfl⟩
  · exact .inr ⟨⟨_, rfl⟩, .inr rfl⟩

theorem queue_of_fetchPushTokens {userId : Uuid} {ans : Except DomainError (List PushTokenRow)}
    (he : PushDb.exec ω (.fetchPushTokens userId) db = some (ans, db')) : db'.queue = db.queue := by
  rw [PushDb.exec] at he
  split at he <;> obtain ⟨-, rfl⟩ := Prod.mk.inj (Option.some.inj he) <;> rfl

/-- The right end of the queue leaves it. -/
theorem leave_dropLast {queue : List String} (h : Passes pushed taken queue.reverse) :
    Passes pushed (taken ++ queue.getLast?.toList) queue.dropLast.reverse := by
  obtain rfl | ⟨rest, last, rfl⟩ := List.eq_nil_or_concat queue
  · simpa using h
  · rw [List.concat_eq_append] at h ⊢
    rw [List.reverse_concat] at h
    simpa using h.leave

theorem ordered_start (db : PushDb) : Ordered db.queue (System.start db : PushConfig Value) :=
  ⟨[], [], by simp [Passes, System.start], .nil, .refl _, .nil⟩

theorem ordered_apply {c d : PushConfig Value} {a : PushAct Value} (h : Ordered start c)
    (ha : (pushServer lib).apply a c = some d) : Ordered start d := by
  obtain ⟨pushed, taken, hpasses, hacked, hattempted, hreceived⟩ := h
  obtain ⟨r, rfl, rfl⟩ | ⟨i, ω, r, cmd, k, ans, s, rfl, ht, he, rfl⟩ | ⟨ω, s, rfl, hs, rfl⟩ :=
    System.apply_cases ha
  · exact ⟨pushed, taken, hpasses, hacked, hattempted, hreceived⟩
  · simp only [Ordered, World.after_db, World.after_log, filterMap_snoc, countP_snoc]
    cases cmd with
    | lpush payload =>
      obtain hqueue | ⟨hqueue, e, rfl⟩ := queue_of_lpush he
      · refine ⟨pushed ++ [payload], taken, ?_, ?_, hattempted.append (.refl _), ?_⟩
        · rw [hqueue, List.reverse_cons, ← List.append_assoc]
          exact hpasses.enter
        · obtain e | ⟨⟩ := ans
          · simpa [ack, pushFailed] using hacked.miss
          · simpa [ack, pushFailed] using hacked.snoc
        · simpa [receipt, popFailed] using hreceived
      · refine ⟨pushed, taken, hqueue ▸ hpasses, ?_, ?_, ?_⟩
        · simpa [ack, pushFailed] using hacked.mono (Nat.le_succ _)
        · exact hattempted.trans (List.sublist_append_left _ _)
        · simpa [receipt, popFailed] using hreceived
    | brpop =>
      obtain ⟨rfl, hqueue⟩ | ⟨⟨e, rfl⟩, hqueue | hqueue⟩ := queue_of_brpop he
      · refine ⟨pushed, _, hqueue ▸ leave_dropLast hpasses, ?_, ?_, ?_⟩
        · simpa [ack, pushFailed] using hacked
        · simpa [attempt] using hattempted
        · exact hreceived.append_toList _
      · refine ⟨pushed, _, hqueue ▸ leave_dropLast hpasses, ?_, ?_, ?_⟩
        · simpa [ack, pushFailed] using hacked
        · simpa [attempt] using hattempted
        · simpa [receipt, popFailed] using hreceived.miss_toList _
      · refine ⟨pushed, taken, hqueue ▸ hpasses, ?_, ?_, ?_⟩
        · simpa [ack, pushFailed] using hacked
        · simpa [attempt] using hattempted
        · simpa [receipt, popFailed] using hreceived.mono (Nat.le_succ _)
    | fetchPushTokens userId =>
      refine ⟨pushed, taken, queue_of_fetchPushTokens he ▸ hpasses, ?_, ?_, ?_⟩
      · simpa [ack, pushFailed] using hacked
      · simpa [attempt] using hattempted
      · simpa [receipt, popFailed] using hreceived
    | send push =>
      obtain ⟨-, rfl⟩ := Prod.mk.inj (Option.some.inj he)
      refine ⟨pushed, taken, hpasses, ?_, ?_, ?_⟩
      · simpa [ack, pushFailed] using hacked
      · simpa [attempt] using hattempted
      · simpa [receipt, popFailed] using hreceived
  · obtain rfl := Option.some.inj hs
    exact ⟨pushed, taken, hpasses, hacked, hattempted, hreceived⟩

theorem ordered_reach {P : PushConfig Value → PushAct Value → Prop} {c : PushConfig Value}
    (h : (pushServer lib).Reach P (System.start db) c) : Ordered db.queue c :=
  h.invariant (fun hJ _ ha => ordered_apply hJ ha) (ordered_start db)

end Step

/-- In every run, whatever commands of Redis fail. -/
theorem ordered_of_run {Value : Type} (lib : PushLib Value) (db : PushDb) (acts : List (PushAct Value)) :
    Ordered db.queue ((pushServer lib).run acts (System.start db)) :=
  ordered_reach (System.reach_run acts (System.start db))

end Mesty.Push.Fifo
