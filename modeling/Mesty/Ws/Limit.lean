import Mathlib.Data.List.Perm.Subperm
import Mesty.Concurrency.Visits
import Mesty.Ws.Connections

namespace Mesty.Ws.Limit

open Mesty.Base.Ids Mesty.Base.Error Mesty.Concurrency.Program Mesty.Concurrency.Pool
open Mesty.Concurrency.Visits Mesty.Redis.Server Mesty.Ws.Connections

/-- The senders of the user whose sockets are live and those of nobody else are registered. -/
structure Registered (s : WsState) : Prop where
  nodup : ∀ userId, (s.senders userId).Nodup
  lt : ∀ userId, ∀ socket ∈ s.senders userId, socket < s.sockets.length
  live : ∀ userId socket, s.isLive userId socket = true → socket ∈ s.senders userId
  unclosed : ∀ userId socket, s.isLive userId socket = true → s.isClosed socket = false

/-- The task has passed the count and is about to connect the user. -/
def connecting (userId : Uuid) (p : Prog WsCmd WsCmd.Ans (Except ApiError Response)) : Bool :=
  match p.next with
  | some (.connect userId') => userId' = userId
  | _ => false

def inFlight (c : WsConfig) (userId : Uuid) : Nat :=
  c.tasks.countP (fun t => connecting userId t.2)

/-- When a count stays below five, the sockets in it that are live and the handshakes in flight
are fewer than five together; when it reaches five, all sockets in it are live. The entry of
a user is removed only while it holds no sender of a live socket. -/
def CalmCmd (c : WsConfig) : WsCmd → Prop
  | .countConnections userId =>
    if (c.db.unclosed userId).length < 5 then
      ((c.db.unclosed userId).filter (c.db.isLive userId)).length + inFlight c userId < 5
    else ∀ socket ∈ c.db.unclosed userId, c.db.isLive userId socket = true
  | .remove userId => ∀ socket ∈ c.db.senders userId, c.db.isLive userId socket = false
  | _ => True

def Calm (c : WsConfig) : WsAct → Prop
  | .step i _ => ∀ cmd ∈ c.tasks[i]?.bind (fun t => t.2.next), CalmCmd c cmd
  | _ => True

/-- If the move refuses a user for too many connections, five sockets of the user are live. -/
def Justified (c : WsConfig) (a : WsAct) : Prop :=
  ∀ d i ω r, a = .step i ω → connectionServer.apply a c = some d →
    d.tasks[i]? = some (r, .ret (.error tooManyConnections)) →
    ∃ userId n, d.log = c.log ++ [⟨i, .countConnections userId, n⟩] ∧
      5 ≤ (c.db.live userId).length

section Registration

variable {s s' : WsState} {userId owner : Uuid} {socket : Nat} {ω : WsChoice}

theorem live_nodup (s : WsState) (userId : Uuid) : (s.live userId).Nodup :=
  List.nodup_range.filter _

theorem live_length_le (h : ∀ i, s'.isLive userId i = true → s.isLive userId i = true) :
    (s'.live userId).length ≤ (s.live userId).length := by
  refine ((live_nodup s' userId).subperm fun i hi => ?_).length_le
  exact WsState.mem_live.mpr (h i (WsState.mem_live.mp hi))

theorem live_connect_length : ((s.connect userId).live owner).length =
    (s.live owner).length + if owner = userId then 1 else 0 := by
  have hlen : (s.connect userId).sockets.length = s.sockets.length + 1 := by
    rw [WsState.connect, List.length_append, List.length_singleton]
  have hold : ∀ i ∈ List.range s.sockets.length,
      (s.connect userId).isLive owner i = s.isLive owner i := by
    intro i hi
    have hne : i ≠ s.sockets.length := Nat.ne_of_lt (List.mem_range.mp hi)
    rw [Bool.eq_iff_iff, WsState.isLive_connect]
    simp [hne]
  have hnot : s.isLive owner s.sockets.length = false := by
    by_contra h
    exact Nat.lt_irrefl _ (WsState.isLive_lt (Bool.eq_true_of_not_eq_false h))
  have hnew : (s.connect userId).isLive owner s.sockets.length = decide (owner = userId) := by
    rw [Bool.eq_iff_iff, WsState.isLive_connect, hnot]
    simp
  rw [WsState.live, hlen, List.range_succ, List.filter_append, List.length_append,
    List.filter_congr hold, List.filter_singleton, hnew]
  by_cases h : owner = userId <;> simp [h, WsState.live]

theorem senders_retain : (s.retain userId).senders owner =
    if owner = userId then s.unclosed userId else s.senders owner := by
  rw [WsState.retain]
  by_cases hown : owner = userId
  · subst hown
    rw [if_pos rfl]
    by_cases hmem : owner ∈ s.connections
    · rw [if_pos hmem, WsState.senders, AList.lookup_insert, Option.getD_some]
    · rw [if_neg hmem, WsState.unclosed, WsState.senders, AList.lookup_eq_none.mpr hmem]
      simp
  · rw [if_neg hown]
    split_ifs
    · rw [WsState.senders, AList.lookup_insert_ne hown, WsState.senders]
    · trivial

theorem senders_connect : (s.connect userId).senders owner =
    if owner = userId then s.senders userId ++ [s.sockets.length] else s.senders owner := by
  rw [WsState.senders, WsState.connect]
  by_cases hown : owner = userId
  · rw [if_pos hown, hown, AList.lookup_insert, Option.getD_some]
  · rw [if_neg hown, AList.lookup_insert_ne hown, WsState.senders]

theorem senders_remove : (s.remove userId).senders owner =
    if owner = userId then [] else s.senders owner := by
  rw [WsState.senders, WsState.remove]
  by_cases hown : owner = userId
  · rw [if_pos hown, hown, AList.lookup_erase, Option.getD_none]
  · rw [if_neg hown, AList.lookup_erase_ne hown, WsState.senders]

theorem isClosed_congr (h : s'.sockets = s.sockets) : s'.isClosed = s.isClosed := by
  funext i
  rw [WsState.isClosed, WsState.isClosed, h]

theorem isClosed_modify {f : Socket → Socket} {i : Nat} : (s.modify socket f).isClosed i =
    s.sockets[i]?.any (fun c => (if socket = i then f c else c).isClosed) := by
  have hsockets : (s.modify socket f).sockets = s.sockets.modify socket f := rfl
  rw [WsState.isClosed, hsockets, List.getElem?_modify]
  cases s.sockets[i]? with
  | none => simp
  | some c => by_cases h : socket = i <;> simp [h]

theorem Registered.congr (h : Registered s) (hsockets : s'.sockets = s.sockets)
    (hconnections : s'.connections = s.connections) : Registered s' := by
  have hsenders : s'.senders = s.senders := by
    funext owner
    rw [WsState.senders, WsState.senders, hconnections]
  refine ⟨?_, ?_, ?_, ?_⟩ <;>
    simp only [hsenders, hsockets, WsState.isLive_congr hsockets, isClosed_congr hsockets]
  · exact h.nodup
  · exact h.lt
  · exact h.live
  · exact h.unclosed

/-- Pruning leaves the senders of the live sockets. -/
theorem Registered.retain (h : Registered s) (userId : Uuid) : Registered (s.retain userId) := by
  refine ⟨fun owner => ?_, fun owner socket hm => ?_, fun owner socket hl => ?_, ?_⟩
  · rw [senders_retain]
    split_ifs
    · exact (h.nodup userId).filter _
    · exact h.nodup owner
  · rw [WsState.retain_sockets]
    rw [senders_retain] at hm
    split_ifs at hm
    · exact h.lt userId socket (List.mem_of_mem_filter hm)
    · exact h.lt owner socket hm
  · rw [WsState.isLive_congr WsState.retain_sockets] at hl
    rw [senders_retain]
    split_ifs with hown
    · subst hown
      exact List.mem_filter.mpr ⟨h.live owner socket hl, by simp [h.unclosed owner socket hl]⟩
    · exact h.live owner socket hl
  · rw [WsState.isLive_congr WsState.retain_sockets, isClosed_congr WsState.retain_sockets]
    exact h.unclosed

theorem Registered.connect (h : Registered s) (userId : Uuid) : Registered (s.connect userId) := by
  have hsockets : (s.connect userId).sockets = s.sockets ++ [.connected userId] := rfl
  refine ⟨fun owner => ?_, fun owner socket hm => ?_, fun owner socket hl => ?_, ?_⟩
  · rw [senders_connect]
    split_ifs
    · rw [← List.concat_eq_append]
      exact (h.nodup userId).concat fun hm => Nat.lt_irrefl _ (h.lt userId _ hm)
    · exact h.nodup owner
  · rw [hsockets, List.length_append, List.length_singleton]
    rw [senders_connect] at hm
    split_ifs at hm
    · obtain hm | hm := List.mem_append.mp hm
      · exact Nat.lt_succ_of_lt (h.lt userId socket hm)
      · rw [List.mem_singleton.mp hm]
        exact Nat.lt_succ_self _
    · exact Nat.lt_succ_of_lt (h.lt owner socket hm)
  · rw [senders_connect]
    obtain hl | ⟨rfl, rfl⟩ := WsState.isLive_connect.mp hl
    · have hm := h.live owner socket hl
      split_ifs with hown
      · exact List.mem_append_left _ (hown ▸ hm)
      · exact hm
    · rw [if_pos rfl]
      exact List.mem_append_right _ (List.mem_singleton_self _)
  · intro owner socket hl
    rw [WsState.isClosed, hsockets]
    obtain hl | ⟨rfl, rfl⟩ := WsState.isLive_connect.mp hl
    · rw [List.getElem?_append_left (WsState.isLive_lt hl)]
      exact h.unclosed owner socket hl
    · rw [List.getElem?_concat_length]
      rfl

theorem Registered.remove (h : Registered s)
    (hgone : ∀ socket ∈ s.senders userId, s.isLive userId socket = false) :
    Registered (s.remove userId) := by
  refine ⟨fun owner => ?_, fun owner socket hm => ?_, fun owner socket hl => ?_, h.unclosed⟩
  · rw [senders_remove]
    split_ifs
    · exact List.nodup_nil
    · exact h.nodup owner
  · rw [senders_remove] at hm
    split_ifs at hm
    · cases hm
    · exact h.lt owner socket hm
  · have hold : s.isLive owner socket = true := hl
    have hm := h.live owner socket hold
    rw [senders_remove]
    split_ifs with hown
    · subst hown
      rw [hgone socket hm] at hold
      cases hold
    · exact hm

end Registration

/-- The live sockets of a user and the handshakes that will add one are at most five. -/
def Capped (c : WsConfig) : Prop := ∀ userId, (c.db.live userId).length + inFlight c userId ≤ 5

section Moves

variable {c : WsConfig} {i : Nat} {ω : WsChoice} {r : WsReq} {cmd : WsCmd}
  {k : cmd.Ans → Prog WsCmd WsCmd.Ans (Except ApiError Response)} {ans : cmd.Ans} {s : WsState}
  {userId owner : Uuid}

theorem registered_step (hc : Registered c.db) (hcalm : CalmCmd c cmd)
    (he : WsState.exec ω cmd c.db = some (ans, s)) : Registered s := by
  cases cmd with
  | newUuid | awaitClose =>
    simp only [WsState.exec] at he
    split_ifs at he
    obtain ⟨-, rfl⟩ := Prod.mk.inj (Option.some.inj he)
    exact hc.congr rfl rfl
  | redis =>
    obtain ⟨-, rfl⟩ := Prod.ext_iff.mp (Option.some.inj he)
    exact hc.congr WsState.call_sockets WsState.call_connections
  | countConnections userId | retainOpen userId =>
    obtain ⟨-, rfl⟩ := Prod.ext_iff.mp (Option.some.inj he)
    exact hc.retain userId
  | connect userId =>
    obtain ⟨-, rfl⟩ := Prod.ext_iff.mp (Option.some.inj he)
    exact hc.connect userId
  | remove userId =>
    obtain ⟨-, rfl⟩ := Prod.ext_iff.mp (Option.some.inj he)
    exact hc.remove hcalm

theorem registered_tick (hc : Registered c.db) (htick : WsState.tick ω c.db = some s) :
    Registered s := by
  rw [WsState.tick] at htick
  cases hchange : ω.change with
  | wait ms =>
    rw [hchange] at htick
    obtain rfl := Option.some.inj htick
    exact hc.congr rfl rfl
  | close socket =>
    rw [hchange] at htick
    obtain rfl := Option.some.inj htick
    refine ⟨hc.nodup, ?_, ?_, ?_⟩
    · intro owner socket' hm
      rw [WsState.modify, List.length_modify]
      exact hc.lt owner socket' hm
    · exact fun owner socket' hl => hc.live owner socket' (WsState.isLive_close.mp hl).1
    · intro owner socket' hl
      obtain ⟨hold, hne⟩ := WsState.isLive_close.mp hl
      rw [isClosed_modify]
      simp only [if_neg (Ne.symm hne)]
      exact hc.unclosed owner socket' hold
  | deliver socket =>
    rw [hchange] at htick
    obtain rfl := Option.some.inj htick
    refine ⟨hc.nodup, ?_, ?_, ?_⟩
    · intro owner socket' hm
      rw [WsState.modify, List.length_modify]
      exact hc.lt owner socket' hm
    · intro owner socket' hl
      rw [WsState.isLive_deliver] at hl
      exact hc.live owner socket' hl
    · intro owner socket' hl
      rw [WsState.isLive_deliver] at hl
      -- the write to a socket that is open succeeds
      have hopen := hc.unclosed owner socket' hl
      obtain ⟨conn, hget, -, hconn⟩ := WsState.isLive_iff.mp hl
      rw [WsState.isClosed, hget, Option.any_some] at hopen
      rw [isClosed_modify, hget, Option.any_some]
      split_ifs
      · simp [Socket.deliver, hopen, hconn]
      · exact hopen

theorem inFlight_step (ht : c.tasks[i]? = some (r, .call cmd k)) :
    inFlight ⟨c.after i cmd ans s, c.tasks.set i (r, k ans)⟩ userId +
        (if connecting userId (.call cmd k) then 1 else 0) =
      inFlight c userId + if connecting userId (k ans) then 1 else 0 := by
  obtain ⟨hlt, hget⟩ := List.getElem?_eq_some_iff.mp ht
  have hle := List.boole_getElem_le_countP (p := fun t => connecting userId t.2) hlt
  rw [hget] at hle
  rw [inFlight, inFlight, List.countP_set hlt, hget]
  dsimp only at hle ⊢
  omega

/-- Only a count below five leads to another connection. -/
theorem counted_of_connecting {hist : History} {p : Prog WsCmd WsCmd.Ans (Except ApiError Response)}
    {e : (c : WsCmd) × c.Ans} (hp : p.Follows (Expected r) Refuses (hist ++ [e]))
    (hnext : connecting userId p = true) : ∃ n, e = ⟨.countConnections userId, n⟩ ∧ n < 5 := by
  cases p with
  | ret out => cases hnext
  | call cmd k =>
    cases cmd with
    | connect userId' =>
      obtain rfl : userId' = userId := of_decide_eq_true hnext
      obtain ⟨ticket, value, n, -, -, hlast, hn⟩ := hp.1
      rw [List.getLast?_concat] at hlast
      exact ⟨n, Option.some.inj hlast, hn⟩
    | _ => cases hnext

theorem live_step (he : WsState.exec ω cmd c.db = some (ans, s)) :
    (s.live userId).length ≤
      (c.db.live userId).length + if connecting userId (.call cmd k) then 1 else 0 := by
  cases cmd with
  | newUuid | awaitClose =>
    simp only [WsState.exec] at he
    split_ifs at he
    obtain ⟨-, rfl⟩ := Prod.mk.inj (Option.some.inj he)
    exact Nat.le_add_right _ _
  | redis =>
    obtain ⟨-, rfl⟩ := Prod.ext_iff.mp (Option.some.inj he)
    exact live_length_le fun i => by rw [WsState.isLive_congr WsState.call_sockets]; exact id
  | countConnections | retainOpen =>
    obtain ⟨-, rfl⟩ := Prod.ext_iff.mp (Option.some.inj he)
    exact live_length_le fun i => by rw [WsState.isLive_congr WsState.retain_sockets]; exact id
  | connect owner =>
    obtain ⟨-, rfl⟩ := Prod.ext_iff.mp (Option.some.inj he)
    rw [live_connect_length]
    simp [connecting, eq_comm]
  | remove =>
    obtain ⟨-, rfl⟩ := Prod.ext_iff.mp (Option.some.inj he)
    exact Nat.le_refl _

/-- The live sockets of a user are among those that are counted. -/
theorem Registered.live_le_counted (h : Registered s) (userId : Uuid) :
    (s.live userId).length ≤ ((s.unclosed userId).filter (s.isLive userId)).length := by
  refine (List.Nodup.subperm (live_nodup s userId) fun i hi => ?_).length_le
  have hl := WsState.mem_live.mp hi
  refine List.mem_filter.mpr ⟨List.mem_filter.mpr ⟨h.live userId i hl, ?_⟩, hl⟩
  simp [h.unclosed userId i hl]

theorem capped_step (hc : Registered c.db) (hcap : Capped c) (hcalm : CalmCmd c cmd)
    (ht : c.tasks[i]? = some (r, .call cmd k))
    (hk : (k ans).Follows (Expected r) Refuses (c.history i ++ [⟨cmd, ans⟩]))
    (he : WsState.exec ω cmd c.db = some (ans, s)) :
    Capped ⟨c.after i cmd ans s, c.tasks.set i (r, k ans)⟩ := by
  intro owner
  have hflight : inFlight ⟨c.after i cmd ans s, c.tasks.set i (r, k ans)⟩ owner +
      (if connecting owner (.call cmd k) then 1 else 0) =
        inFlight c owner + if connecting owner (k ans) then 1 else 0 := inFlight_step ht
  have hlive : (s.live owner).length ≤ (c.db.live owner).length +
      if connecting owner (.call cmd k) then 1 else 0 := live_step he
  have hcap := hcap owner
  change (s.live owner).length + _ ≤ 5
  by_cases hnext : connecting owner (k ans) = true
  · rw [if_pos hnext] at hflight
    obtain ⟨n, heq, hn⟩ := counted_of_connecting hk hnext
    cases heq
    obtain ⟨hcount, -⟩ := Prod.ext_iff.mp (Option.some.inj he)
    have hsmall : (c.db.unclosed owner).length < 5 := by
      rw [senders_retain, if_pos rfl] at hcount
      exact Nat.lt_of_le_of_lt (Nat.le_of_eq hcount) hn
    rw [CalmCmd, if_pos hsmall] at hcalm
    have hle := hc.live_le_counted owner
    have hnot : connecting owner (.call (.countConnections owner) k) = false := rfl
    rw [hnot] at hflight hlive
    simp only [Bool.false_eq_true, if_false] at hflight hlive
    omega
  · rw [if_neg hnext] at hflight
    omega

theorem capped_tick (hcap : Capped c) (htick : WsState.tick ω c.db = some s) :
    Capped { c with db := s } := by
  intro owner
  refine Nat.le_trans (Nat.add_le_add_right (live_length_le fun i => ?_) _) (hcap owner)
  rw [WsState.tick] at htick
  cases hchange : ω.change with
  | wait ms =>
    rw [hchange] at htick
    obtain rfl := Option.some.inj htick
    exact id
  | close socket =>
    rw [hchange] at htick
    obtain rfl := Option.some.inj htick
    exact fun hl => (WsState.isLive_close.mp hl).1
  | deliver socket =>
    rw [hchange] at htick
    obtain rfl := Option.some.inj htick
    rw [WsState.isLive_deliver]
    exact id

theorem counted_le_live (hc : Registered c.db)
    (hall : ∀ socket ∈ c.db.unclosed userId, c.db.isLive userId socket = true) :
    (c.db.unclosed userId).length ≤ (c.db.live userId).length := by
  have hnodup : (c.db.unclosed userId).Nodup := (hc.nodup userId).filter _
  refine (List.Nodup.subperm hnodup fun i hi => ?_).length_le
  exact WsState.mem_live.mpr (hall i hi)

end Moves

structure Limited (c : WsConfig) : Prop where
  registered : Registered c.db
  capped : Capped c

theorem calmCmd_of_calm {c : WsConfig} {i : Nat} {ω : WsChoice} {r : WsReq} {cmd : WsCmd}
    {k : cmd.Ans → Prog WsCmd WsCmd.Ans (Except ApiError Response)} (h : Calm c (.step i ω))
    (ht : c.tasks[i]? = some (r, .call cmd k)) : CalmCmd c cmd := h cmd (by simp [ht])

theorem reach_limited {now : Nat} {c : WsConfig}
    (h : connectionServer.Reach Calm (System.start (.init now)) c) : Limited c := by
  refine System.Reach.preserves (N := Expected) (Q := fun _ => Refuses) handle_expected ?_ ?_ ?_ ?_ h
  · refine ⟨⟨?_, ?_, ?_, ?_⟩, ?_⟩
    · exact fun _ => List.nodup_nil
    · rintro _ _ ⟨⟩
    · rintro _ _ ⟨⟩
    · rintro _ _ ⟨⟩
    · exact fun _ => Nat.zero_le 5
  · intro c r hr hl
    refine ⟨hl.registered, fun owner => ?_⟩
    have hcap := hl.capped owner
    have hnew : connecting owner (connectionServer.handler r) = false := by
      cases r <;> rfl
    rw [inFlight, List.countP_append, List.countP_singleton, hnew]
    exact hcap
  · intro c i ω r cmd k ans s hr hl hp ht hN he hr'
    have hcalm := calmCmd_of_calm hp ht
    have hk := (hr.follows handle_expected ht).2 ans
    exact ⟨registered_step hl.registered hcalm he, capped_step hl.registered hl.capped hcalm ht hk he⟩
  · intro c ω s hl hp htick
    exact ⟨registered_tick hl.registered htick, capped_tick hl.capped htick⟩

/-- Where a count that reaches five counts live sockets only, nobody is refused wrongly. -/
theorem justified_of_calm {c : WsConfig} {a : WsAct} (hr : connectionServer.Replays c)
    (hl : Limited c) (hcalm : Calm c a) : Justified c a := by
  rintro d i ω r rfl ha hout
  obtain ⟨_, ⟨⟩, -⟩ | ⟨_, _, r', cmd, k, ans, s, ⟨⟩, ht, he, rfl⟩ | ⟨_, _, ⟨⟩, -⟩ :=
    System.apply_cases ha
  rw [List.getElem?_set_self (List.getElem?_eq_some_iff.mp ht).1] at hout
  obtain ⟨rfl, hret⟩ := Prod.mk.inj (Option.some.inj hout)
  have hk := (hr.follows handle_expected ht).2 ans
  rw [hret] at hk
  obtain ⟨userId, n, hlast, hn⟩ := hk rfl
  rw [List.getLast?_concat] at hlast
  cases Option.some.inj hlast
  have hcount := (Prod.ext_iff.mp (Option.some.inj he)).1
  rw [senders_retain, if_pos rfl] at hcount
  have hfive : 5 ≤ (c.db.unclosed userId).length := Nat.le_trans hn (Nat.le_of_eq hcount.symm)
  have hall := calmCmd_of_calm hcalm ht
  rw [CalmCmd, if_neg (Nat.not_lt.mpr hfive)] at hall
  exact ⟨userId, _, rfl, Nat.le_trans hfive (counted_le_live hl.registered hall)⟩

/-- In every calm run no user has more than five live sockets, and whoever is refused for too
many connections has five. -/
theorem limit_exact_of_calm (now : Nat) (acts : List WsAct)
    (h : connectionServer.Every Calm acts (System.start (.init now))) :
    (∀ d ∈ connectionServer.trace acts (System.start (.init now)),
      ∀ userId, (d.db.live userId).length ≤ 5) ∧
    connectionServer.Every Justified acts (System.start (.init now)) := by
  constructor
  · intro d hd userId
    have hcap := (reach_limited (System.reach_of_mem_trace h hd)).capped userId
    omega
  · exact h.mono_of_reach fun hr hcalm _ => justified_of_calm hr.replays (reach_limited hr) hcalm

instance (c : WsConfig) : (cmd : WsCmd) → Decidable (CalmCmd c cmd)
  | .countConnections userId => inferInstanceAs (Decidable (if (c.db.unclosed userId).length < 5 then
      ((c.db.unclosed userId).filter (c.db.isLive userId)).length + inFlight c userId < 5
    else ∀ socket ∈ c.db.unclosed userId, c.db.isLive userId socket = true))
  | .remove userId =>
    inferInstanceAs (Decidable (∀ socket ∈ c.db.senders userId, c.db.isLive userId socket = false))
  | .newUuid | .redis _ | .connect _ | .awaitClose _ | .retainOpen _ => .isTrue trivial

instance (c : WsConfig) : (a : WsAct) → Decidable (Calm c a)
  | .step i _ =>
    inferInstanceAs (Decidable (∀ cmd ∈ c.tasks[i]?.bind (fun t => t.2.next), CalmCmd c cmd))
  | .spawn _ | .tick _ => .isTrue trivial

def moveWith (uuid : Uuid) (i : Nat) : WsAct := .step i ⟨false, uuid, .wait 0⟩

/-- Each ticket is drawn with the number of its request. -/
def drawTickets (n : Nat) : List WsAct :=
  (List.range n).flatMap (fun i => [.spawn (.createWsTicket .nil), moveWith (.ofNat i) i,
    moveWith .nil i])

/-- All handshakes make each of their moves in turns. -/
def handshakes (n : Nat) : List WsAct :=
  drawTickets n ++ (List.range n).map (fun i => .spawn (.connect (Uuid.ofNat i).toString)) ++
  (List.replicate 4 ((List.range n).map (fun i => moveWith .nil (n + i)))).flatten

/-- Each handshake makes all its moves before the next one. -/
def handshakesInTurn (n : Nat) : List WsAct :=
  drawTickets n ++ (List.range n).flatMap (fun i =>
    .spawn (.connect (Uuid.ofNat i).toString) :: List.replicate 4 (moveWith .nil (n + i)))

/-- Five of six handshakes in turn connect, and the sixth is refused. -/
theorem limit_exact_six_handshakes :
    (∃ d ∈ (connectionServer.trace (handshakesInTurn 6) (System.start (.init 0))).getLast?,
      (d.db.live .nil).length = 5 ∧ (answerOf d 11).any (fun answer => match answer with
        | .ok _ => false
        | .error e => e = tooManyConnections)) ∧
    (∀ d ∈ connectionServer.trace (handshakesInTurn 6) (System.start (.init 0)),
      ∀ userId, (d.db.live userId).length ≤ 5) ∧
    connectionServer.Every Justified (handshakesInTurn 6) (System.start (.init 0)) :=
  ⟨by decide +kernel, limit_exact_of_calm 0 (handshakesInTurn 6) (by decide +kernel)⟩

/-- All of six handshakes count before the first of them connects. -/
theorem six_live_sockets :
    ¬ ((∀ d ∈ connectionServer.trace (handshakes 6) (System.start (.init 0)),
      ∀ userId, (d.db.live userId).length ≤ 5) ∧
    connectionServer.Every Justified (handshakes 6) (System.start (.init 0))) := by
  rintro ⟨h, -⟩
  have hlast : ∃ d ∈ (connectionServer.trace (handshakes 6) (System.start (.init 0))).getLast?,
      (d.db.live .nil).length = 6 := by decide +kernel
  obtain ⟨d, hd, hsix⟩ := hlast
  have hle := h d (List.mem_of_getLast? hd) .nil
  omega

end Mesty.Ws.Limit
