import Mesty.Ws.Connections

namespace Mesty.Ws.Tickets

open Mesty.Base.Ids Mesty.Base.Error Mesty.Concurrency.Program Mesty.Concurrency.Pool
open Mesty.Redis.Server Mesty.Ws.Connections

/-- The ticket was stored by the task that drew it. -/
def Issued (log : List WsEvent) (ticket : String) : Prop :=
  ∃ i u value seconds ans, ⟨i, .newUuid, u⟩ ∈ log ∧ ticket = u.toString ∧
    ⟨i, .redis (.setEx (ticketKey ticket) value seconds), ans⟩ ∈ log

/-- A ticket that is found has not been deleted before. -/
def FoundFresh (before : List WsEvent) (e : WsEvent) : Prop :=
  ∀ i ticket value, e = ⟨i, .redis (.get (ticketKey ticket)), some (some value)⟩ →
    ∀ j n, ⟨j, .redis (.del (ticketKey ticket)), some n⟩ ∉ before

/-- What every configuration of a run knows about the tickets. -/
structure Sound (c : WsConfig) : Prop where
  drawn : ∀ i u, ⟨i, .newUuid, u⟩ ∈ c.log → u ∈ c.db.drawn
  once : ∀ i j u, ⟨i, .newUuid, u⟩ ∈ c.log → ⟨j, .newUuid, u⟩ ∈ c.log → i = j
  stored : ∀ ticket e, c.db.redis.lookup (ticketKey ticket) = some e → Issued c.log ticket
  found : ∀ i ticket value, ⟨i, .redis (.get (ticketKey ticket)), some (some value)⟩ ∈ c.log →
    Issued c.log ticket
  deleted : ∀ i ticket ans, ⟨i, .redis (.del (ticketKey ticket)), ans⟩ ∈ c.log →
    Issued c.log ticket
  spent : ∀ i ticket n, ⟨i, .redis (.del (ticketKey ticket)), some n⟩ ∈ c.log →
    c.db.redis.lookup (ticketKey ticket) = none
  fresh : Backed FoundFresh c.log

/-- A request with the ticket has got its connection. -/
def Upgraded (c : WsConfig) (i : Nat) (ticket : String) : Prop :=
  c.request i = some (.connect ticket) ∧ ∃ userId socket, ⟨i, .connect userId, socket⟩ ∈ c.log

def SingleUse (c : WsConfig) : Prop :=
  ∀ ticket i j, Upgraded c i ticket → Upgraded c j ticket → i = j

/-- Another request has got its connection, and had not deleted the ticket when task `i` read it. -/
def Overlaps (c : WsConfig) (i : Nat) (ticket : String) : Prop :=
  ∃ before value later,
    c.log = before ++ ⟨i, .redis (.get (ticketKey ticket)), some (some value)⟩ :: later ∧
    ∃ j, j ≠ i ∧ Upgraded c j ticket ∧ ∀ n, ⟨j, .redis (.del (ticketKey ticket)), some n⟩ ∉ before

/-- A request is upgraded only after every other one that got its connection with the same
ticket had deleted it before this one read it. -/
def Apart (c : WsConfig) (a : WsAct) : Prop :=
  ∀ i ω ticket userId k, a = .step i ω →
    c.tasks[i]? = some (.connect ticket, .call (.connect userId) k) → ¬ Overlaps c i ticket

section Moves

variable {c : WsConfig} {i : Nat} {ω : WsChoice} {r : WsReq} {cmd : WsCmd}
  {k : cmd.Ans → Prog WsCmd WsCmd.Ans (Except ApiError Response)} {ans : cmd.Ans} {s : WsState}
  {ticket : String}

theorem Issued.append {log : List WsEvent} (h : Issued log ticket) (e : WsEvent) :
    Issued (log ++ [e]) ticket := by
  obtain ⟨i, u, value, seconds, ans, hu, heq, hset⟩ := h
  exact ⟨i, u, value, seconds, ans, List.mem_append_left _ hu, heq, List.mem_append_left _ hset⟩

/-- A ticket is there only if it was there before or the command stores it. -/
theorem lookup_step (hN : Expected r (c.history i) cmd)
    (he : WsState.exec ω cmd c.db = some (ans, s)) {e : Entry}
    (h : s.redis.lookup (ticketKey ticket) = some e) :
    (∃ value seconds, cmd = .redis (.setEx (ticketKey ticket) value seconds)) ∨
      c.db.redis.lookup (ticketKey ticket) = some e := by
  cases cmd with
  | redis cmd =>
    obtain ⟨-, rfl⟩ := Prod.ext_iff.mp (Option.some.inj he)
    cases hfails : ω.fails with
    | true => exact .inr (by simpa [WsState.call, hfails] using h)
    | false =>
      have hexec : (Store.exec cmd c.db.redis).2.lookup (ticketKey ticket) = some e := by
        simpa [WsState.call, hfails] using h
      by_cases hkey : cmd.key = some (ticketKey ticket)
      · cases cmd with
        | get key => exact .inr hexec
        | setEx key value seconds =>
          obtain rfl := Option.some.inj hkey
          exact .inl ⟨value, seconds, rfl⟩
        | del key =>
          obtain rfl := Option.some.inj hkey
          simp [Store.exec] at hexec
        | incr | ttl | expire | sadd => cases hN
      · exact .inr ((Store.exec_lookup hkey _).symm.trans hexec)
  | newUuid =>
    refine .inr ?_
    simp only [WsState.exec] at he
    split_ifs at he
    obtain ⟨-, rfl⟩ := Prod.mk.inj (Option.some.inj he)
    exact h
  | awaitClose =>
    refine .inr ?_
    simp only [WsState.exec] at he
    split_ifs at he
    obtain ⟨-, rfl⟩ := Prod.mk.inj (Option.some.inj he)
    exact h
  | countConnections | retainOpen =>
    obtain ⟨-, rfl⟩ := Prod.ext_iff.mp (Option.some.inj he)
    exact .inr (by simpa using h)
  | connect | remove =>
    obtain ⟨-, rfl⟩ := Prod.ext_iff.mp (Option.some.inj he)
    exact .inr h

/-- An answer tells what was stored. -/
theorem found_step {key value : String} {ans : Option (Option String)}
    (he : WsState.exec ω (.redis (.get key)) c.db = some (ans, s))
    (hans : ans = some (some value)) : ∃ e, c.db.redis.lookup key = some e := by
  obtain ⟨rfl, -⟩ := Prod.ext_iff.mp (Option.some.inj he)
  cases hfails : ω.fails with
  | true => simp [WsState.call, hfails] at hans
  | false =>
    have hvalue : (c.db.redis.lookup key).map Entry.value = some value := by
      simpa [WsState.call, hfails, Store.exec] using hans
    obtain ⟨e, he, -⟩ := Option.map_eq_some_iff.mp hvalue
    exact ⟨e, he⟩

theorem deleted_step {key : String} {ans : Option Nat}
    (he : WsState.exec ω (.redis (.del key)) c.db = some (ans, s)) {n : Nat} (hans : ans = some n) :
    s.redis.lookup key = none := by
  obtain ⟨rfl, rfl⟩ := Prod.ext_iff.mp (Option.some.inj he)
  cases hfails : ω.fails with
  | true => simp [WsState.call, hfails] at hans
  | false => simp [WsState.call, hfails, Store.exec]

theorem drawn_step (he : WsState.exec ω cmd c.db = some (ans, s)) :
    (∀ u ∈ c.db.drawn, u ∈ s.drawn) ∧
      ∀ u, (⟨cmd, ans⟩ : (c : WsCmd) × c.Ans) = ⟨.newUuid, u⟩ → u ∉ c.db.drawn ∧ u ∈ s.drawn := by
  cases cmd with
  | newUuid =>
    simp only [WsState.exec] at he
    split_ifs at he with hmem
    obtain ⟨rfl, rfl⟩ := Prod.mk.inj (Option.some.inj he)
    refine ⟨fun u hu => List.mem_cons_of_mem _ hu, ?_⟩
    rintro u ⟨⟩
    exact ⟨hmem, List.mem_cons_self⟩
  | awaitClose =>
    simp only [WsState.exec] at he
    split_ifs at he
    obtain ⟨-, rfl⟩ := Prod.mk.inj (Option.some.inj he)
    exact ⟨fun u hu => hu, by rintro u ⟨⟩⟩
  | redis =>
    obtain ⟨-, rfl⟩ := Prod.ext_iff.mp (Option.some.inj he)
    refine ⟨fun u hu => ?_, by rintro u ⟨⟩⟩
    dsimp only [WsState.call]
    split_ifs <;> exact hu
  | countConnections | retainOpen =>
    obtain ⟨-, rfl⟩ := Prod.ext_iff.mp (Option.some.inj he)
    refine ⟨fun u hu => ?_, by rintro u ⟨⟩⟩
    dsimp only [WsState.retain]
    split_ifs <;> exact hu
  | connect | remove =>
    obtain ⟨-, rfl⟩ := Prod.ext_iff.mp (Option.some.inj he)
    exact ⟨fun u hu => hu, by rintro u ⟨⟩⟩

/-- What is there after a step has been issued. -/
theorem issued_step (hs : Sound c) (hN : Expected r (c.history i) cmd)
    (he : WsState.exec ω cmd c.db = some (ans, s)) {e : Entry}
    (hlookup : s.redis.lookup (ticketKey ticket) = some e) :
    Issued (c.log ++ [⟨i, cmd, ans⟩]) ticket := by
  obtain ⟨value, seconds, rfl⟩ | hold := lookup_step hN he hlookup
  · obtain ⟨u, hhist, hkey⟩ | ⟨userId, hkey⟩ := hN
    · refine ⟨i, u, value, seconds, ans, ?_, ticketKey_injective hkey, by simp⟩
      exact List.mem_append_left _ (World.mem_history.mp (hhist ▸ List.mem_singleton_self _))
    · exact absurd hkey (ticketKey_ne_presenceKey ticket userId)
  · exact (hs.stored ticket e hold).append _

/-- A ticket that has been deleted is not stored again: only the task that drew it stores it, and it
has done so. -/
theorem spent_step (hs : Sound c) (hN : Expected r (c.history i) cmd)
    (he : WsState.exec ω cmd c.db = some (ans, s)) {j n : Nat}
    (hdel : ⟨j, .redis (.del (ticketKey ticket)), some n⟩ ∈ c.log) :
    s.redis.lookup (ticketKey ticket) = none := by
  by_contra hne
  obtain ⟨e, hlookup⟩ := Option.ne_none_iff_exists'.mp hne
  obtain ⟨value, seconds, rfl⟩ | hold := lookup_step hN he hlookup
  · obtain ⟨i', u, value', seconds', ans', hu, rfl, hset⟩ := hs.deleted j ticket _ hdel
    obtain ⟨v, hhist, hkey⟩ | ⟨userId, hkey⟩ := hN
    · obtain rfl := Uuid.toString_injective (ticketKey_injective hkey)
      have hv : ⟨i, .newUuid, u⟩ ∈ c.log :=
        World.mem_history.mp (hhist ▸ List.mem_singleton_self _)
      obtain rfl := hs.once i i' u hv hu
      have hset' := World.mem_history.mpr hset
      rw [hhist] at hset'
      cases List.mem_singleton.mp hset'
    · exact absurd hkey (ticketKey_ne_presenceKey _ userId)
  · rw [hs.spent j ticket n hdel] at hold
    cases hold

theorem sound_step (hs : Sound c) (ht : c.tasks[i]? = some (r, .call cmd k))
    (hN : Expected r (c.history i) cmd) (he : WsState.exec ω cmd c.db = some (ans, s)) :
    Sound ⟨c.after i cmd ans s, c.tasks.set i (r, k ans)⟩ := by
  obtain ⟨hdrawn, hnew⟩ := drawn_step he
  have hmem : ∀ {e : WsEvent}, e ∈ c.log ++ [⟨i, cmd, ans⟩] → e ∈ c.log ∨ e = ⟨i, cmd, ans⟩ :=
    fun h => (List.mem_append.mp h).imp_right List.mem_singleton.mp
  refine ⟨?_, ?_, fun ticket e hlookup => issued_step hs hN he hlookup, ?_, ?_, ?_, ?_⟩
  · intro j u hm
    obtain hm | heq := hmem hm
    · exact hdrawn u (hs.drawn j u hm)
    · cases heq
      exact (hnew u rfl).2
  · intro j j' u hm hm'
    obtain hold | heq := hmem hm <;> obtain hold' | heq' := hmem hm'
    · exact hs.once j j' u hold hold'
    · cases heq'
      exact absurd (hs.drawn j u hold) (hnew u rfl).1
    · cases heq
      exact absurd (hs.drawn j' u hold') (hnew u rfl).1
    · exact (congrArg Event.task heq).trans (congrArg Event.task heq').symm
  · intro j ticket value hm
    obtain hm | heq := hmem hm
    · exact (hs.found j ticket value hm).append _
    · cases heq
      obtain ⟨e, hlookup⟩ := found_step he rfl
      exact (hs.stored ticket e hlookup).append _
  · intro j ticket ans' hm
    obtain hm | heq := hmem hm
    · exact (hs.deleted j ticket ans' hm).append _
    · cases heq
      obtain ⟨ticket', value, -, hkey, hfound⟩ | ⟨userId, hkey⟩ := hN
      · exact (hs.found i ticket value (World.mem_history.mp hfound)).append _
      · exact absurd hkey (ticketKey_ne_presenceKey ticket userId)
  · intro j ticket n hm
    obtain hdel | heq := hmem hm
    · exact spent_step hs hN he hdel
    · cases heq
      exact deleted_step he rfl
  · refine hs.fresh.snoc ?_
    rintro j ticket value heq j' n hm
    cases heq
    obtain ⟨e, hlookup⟩ := found_step he rfl
    rw [hs.spent j' ticket n hm] at hlookup
    cases hlookup

theorem upgraded_step (ht : c.tasks[i]? = some (r, .call cmd k)) (ans : cmd.Ans) (s : WsState)
    {j : Nat} : Upgraded ⟨c.after i cmd ans s, c.tasks.set i (r, k ans)⟩ j ticket ↔
      Upgraded c j ticket ∨ j = i ∧ r = .connect ticket ∧ ∃ userId, cmd = .connect userId := by
  simp only [Upgraded, Config.request_set ht, World.after_log, List.mem_append, List.mem_singleton,
    exists_or, and_or_left]
  refine or_congr_right ⟨?_, ?_⟩
  · rintro ⟨hreq, userId, socket, heq⟩
    obtain ⟨rfl, rfl, -⟩ := Event.mk.inj heq
    exact ⟨rfl, Option.some.inj ((Config.request_eq ht).symm.trans hreq), userId, rfl⟩
  · rintro ⟨rfl, rfl, userId, rfl⟩
    exact ⟨Config.request_eq ht, userId, ans, rfl⟩

theorem upgraded_spawn (hr : connectionServer.Replays c) {j : Nat}
    (t : WsReq × Prog WsCmd WsCmd.Ans (Except ApiError Response)) :
    Upgraded { c with tasks := c.tasks ++ [t] } j ticket ↔ Upgraded c j ticket := by
  refine and_congr_left fun ⟨userId, socket, hm⟩ => ?_
  rw [Config.request_spawn (hr.1 _ hm)]

end Moves

theorem reach_sound {now : Nat} {c : WsConfig}
    (h : connectionServer.Reach (fun _ _ => True) (System.start (.init now)) c) : Sound c := by
  refine System.Reach.preserves (N := Expected) (Q := fun _ => Refuses) handle_expected ?_
    (fun _ _ hs => ⟨hs.drawn, hs.once, hs.stored, hs.found, hs.deleted, hs.spent, hs.fresh⟩)
    (fun _ hs _ ht hN he _ => sound_step hs ht hN he) (fun {c} ω s hs _ htick => ?_) h
  · constructor <;> simp [System.start, WsState.init, Store.lookup_empty, backed_nil]
  · have hkept : s.drawn = c.db.drawn ∧ ∀ key e, s.redis.lookup key = some e →
        c.db.redis.lookup key = some e := by
      cases hchange : ω.change <;>
        · simp only [connectionServer, WsState.tick, hchange] at htick
          obtain rfl := Option.some.inj htick
          refine ⟨rfl, fun key e he => ?_⟩
          first | exact he | exact Store.lookup_of_wait he
    refine ⟨?_, hs.once, fun ticket e he => hs.stored ticket e (hkept.2 _ _ he), hs.found,
      hs.deleted, ?_, hs.fresh⟩
    · intro i u hm
      rw [hkept.1]
      exact hs.drawn i u hm
    · intro i ticket n hm
      by_contra hne
      obtain ⟨e, he⟩ := Option.ne_none_iff_exists'.mp hne
      have hold := hkept.2 _ _ he
      rw [hs.spent i ticket n hm] at hold
      cases hold

/-- From a state in which no ticket was used twice. -/
theorem apart_iff {c d : WsConfig} {a : WsAct} (hr : connectionServer.Replays c) (hs : Sound c)
    (hc : SingleUse c) (ha : connectionServer.apply a c = some d) : Apart c a ↔ SingleUse d := by
  obtain ⟨r, rfl, rfl⟩ | ⟨i, ω, r, cmd, k, ans, s, rfl, ht, he, rfl⟩ | ⟨ω, s, rfl, -, rfl⟩ :=
    System.apply_cases ha
  · simp only [SingleUse, upgraded_spawn hr]
    refine iff_of_true ?_ hc
    rintro i ω ticket userId k ⟨⟩
  · have hN : Expected r (c.history i) cmd := (hr.follows handle_expected ht).1
    simp only [SingleUse, upgraded_step ht]
    constructor
    · intro hapart ticket j j' hj hj'
      -- if the move is one of the two upgrades, the other one was before it
      have hnew : ∀ j, Upgraded c j ticket → r = .connect ticket →
          (∃ userId, cmd = .connect userId) → j = i := by
        rintro j hup rfl ⟨userId, rfl⟩
        by_contra hne
        obtain ⟨ticket', value, n, heq, hfound, -⟩ := hN
        cases heq
        obtain ⟨before, later, hlog⟩ := List.append_of_mem (World.mem_history.mp hfound)
        refine hapart i ω ticket userId k rfl ht
          ⟨before, value, later, hlog, j, hne, hup, fun n hm => ?_⟩
        exact hs.fresh before _ later hlog i ticket value rfl j n hm
      obtain hj | ⟨rfl, hreq, hcmd⟩ := hj <;> obtain hj' | ⟨rfl, hreq', hcmd'⟩ := hj'
      · exact hc ticket j j' hj hj'
      · exact hnew j hj hreq' hcmd'
      · exact (hnew j' hj' hreq hcmd).symm
      · rfl
    · rintro hd i' ω' ticket userId k' heq ht' ⟨before, value, later, -, j, hne, hup, -⟩
      cases heq
      cases ht.symm.trans ht'
      exact hne (hd ticket j i (.inl hup) (.inr ⟨rfl, rfl, userId, rfl⟩))
  · refine iff_of_true ?_ hc
    rintro i ω ticket userId k ⟨⟩

/-- In every state of a run each ticket has led to at most one connection, exactly if no
request is upgraded with a ticket that another upgraded one had not deleted when this one
read it. -/
theorem single_use_iff_apart (now : Nat) (acts : List WsAct) :
    connectionServer.Every Apart acts (System.start (.init now)) ↔
      ∀ d ∈ connectionServer.trace acts (System.start (.init now)), SingleUse d := by
  refine System.every_iff_forall (J := connectionServer.Reach (fun _ _ => True)
      (System.start (.init now)))
    (fun hc ha => hc.tail trivial ha) (fun hc hG ha => ?_) acts .refl ?_
  · exact apart_iff hc.replays (reach_sound hc) hG ha
  · rintro ticket i j ⟨hreq, -⟩
    cases hreq

def isConnect (i : Nat) (e : WsEvent) : Bool :=
  e.task = i && match e.cmd with
    | .connect _ => true
    | _ => false

instance (c : WsConfig) (i : Nat) (ticket : String) : Decidable (Upgraded c i ticket) :=
  decidable_of_iff (c.request i = some (.connect ticket) ∧ c.log.any (isConnect i)) <| by
  refine and_congr_right fun _ => ?_
  simp only [List.any_eq_true, isConnect, Bool.and_eq_true, decide_eq_true_eq]
  constructor
  · rintro ⟨⟨j, cmd, ans⟩, hm, rfl, hcmd⟩
    split at hcmd
    · next userId heq =>
      obtain rfl := heq
      exact ⟨userId, ans, hm⟩
    · cases hcmd
  · rintro ⟨userId, socket, hm⟩
    exact ⟨_, hm, rfl, rfl⟩

def move (i : Nat) : WsAct := .step i ⟨false, .nil, .wait 0⟩

/-- Two handshakes with one ticket, in turns. -/
def twoHandshakes : List WsAct :=
  [.spawn (.createWsTicket .nil), move 0, move 0,
    .spawn (.connect Uuid.nil.toString), .spawn (.connect Uuid.nil.toString),
    move 1, move 2, move 1, move 2, move 1, move 2, move 1, move 2]

theorem ticket_used_twice :
    ¬ ∀ d ∈ connectionServer.trace twoHandshakes (System.start (.init 0)), SingleUse d := by
  intro h
  have hlast : ∃ d ∈ (connectionServer.trace twoHandshakes (System.start (.init 0))).getLast?,
      Upgraded d 1 Uuid.nil.toString ∧ Upgraded d 2 Uuid.nil.toString := by decide +kernel
  obtain ⟨d, hd, h1, h2⟩ := hlast
  exact absurd (h d (List.mem_of_getLast? hd) _ 1 2 h1 h2) (by decide)

end Mesty.Ws.Tickets
