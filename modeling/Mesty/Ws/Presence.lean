import Mesty.Ws.Connections

namespace Mesty.Ws.Presence

open Mesty.Base.Ids Mesty.Base.Error Mesty.Concurrency.Program Mesty.Concurrency.Pool
open Mesty.Redis.Server Mesty.Ws.Connections

/-- What `EXISTS` answers when a user is looked up for a notification. -/
def isOnline (s : WsState) (userId : Uuid) : Bool := (s.redis.lookup (presenceKey userId)).isSome

inductive DeviceStep where
  | connect (userId : Uuid)
  | disconnect (socket : Nat)

/-- A whole connect, or the end of a connection with all that the server then does. -/
def DeviceStep.exec (ωs : List WsChoice) : DeviceStep → WsState → Option (Unit × WsState)
  | connect userId, s => ((openSocket userId).alone WsState.exec ωs s).map (fun out => ((), out.2))
  | disconnect socket, s => (s.sockets[socket]?.filter Socket.isOpen).bind (fun c =>
      (closeSocket c.userId).alone WsState.exec ωs (s.modify socket Socket.close))

/-- No time passes. -/
def tick (ωs : List WsChoice) (s : WsState) : Option WsState :=
  ωs.head?.bind (fun ω => match ω.change with
    | .deliver socket => some (s.modify socket Socket.deliver)
    | _ => none)

def deviceServer : System DeviceStep (fun _ => Unit) WsState (List WsChoice) DeviceStep Unit where
  exec := DeviceStep.exec
  tick := tick
  handler := Prog.cmd

abbrev DeviceConfig := Config DeviceStep (fun _ => Unit) WsState DeviceStep Unit

abbrev DeviceAct := Act DeviceStep (List WsChoice)

/-- The last call of a connect is its SET, and the last one of a disconnect its DEL. -/
def LastFails (ωs : List WsChoice) : Prop := ∃ ω ∈ ωs.getLast?, ω.fails = true

def Shown (s : WsState) : Prop :=
  ∀ userId, isOnline s userId = true ↔ ∃ socket, s.isLive userId socket = true

/-- Unless another device of the user is connected, the SET of a connect succeeds; the DEL of a
disconnect succeeds if and only if no other device of the user is connected. -/
def DeviceStep.Single (ωs : List WsChoice) (s : WsState) : DeviceStep → Prop
  | connect userId => LastFails ωs → ∃ socket, s.isLive userId socket = true
  | disconnect socket => ∀ userId, s.isLive userId socket = true →
      (LastFails ωs ↔ ∃ other, other ≠ socket ∧ s.isLive userId other = true)

def SingleDevice (c : DeviceConfig) (a : DeviceAct) : Prop :=
  ∀ i ωs step, a = .step i ωs → c.tasks[i]?.bind (fun t => t.2.next) = some step →
    step.Single ωs c.db

section Steps

variable {s s' : WsState} {userId owner : Uuid} {ω : WsChoice} {ωs : List WsChoice}

theorem isOnline_setEx : isOnline (s.call ω (.setEx (presenceKey userId) "1" 65)).2 owner = true ↔
    isOnline s owner = true ∨ owner = userId ∧ ω.fails = false := by
  cases hfails : ω.fails with
  | true => simp [WsState.call, hfails]
  | false =>
    by_cases h : owner = userId
    · subst h
      simp [WsState.call, hfails, isOnline, Store.exec, Entry.live]
    · have hne : presenceKey owner ≠ presenceKey userId := fun heq => h (presenceKey_injective heq)
      simp [WsState.call, hfails, isOnline, Store.exec, Store.lookup_put_of_ne hne, h]

theorem isOnline_del : isOnline (s.call ω (.del (presenceKey userId))).2 owner = true ↔
    isOnline s owner = true ∧ (owner = userId → ω.fails = true) := by
  cases hfails : ω.fails with
  | true => simp [WsState.call, hfails]
  | false =>
    by_cases h : owner = userId
    · subst h
      simp [WsState.call, hfails, isOnline, Store.exec]
    · have hne : presenceKey owner ≠ presenceKey userId := fun heq => h (presenceKey_injective heq)
      simp [WsState.call, hfails, isOnline, Store.exec, Store.lookup_put_of_ne hne, h]

theorem openSocket_alone {socket : Nat}
    (h : (openSocket userId).alone WsState.exec ωs s = some (socket, s')) :
    ∃ ω, ωs.getLast? = some ω ∧
      s' = ((s.connect userId).call ω (.setEx (presenceKey userId) "1" 65)).2 := by
  obtain ⟨ωs₁, ωs₂, _, mid, rfl, hconnect, hset⟩ := Prog.alone_bind h
  obtain ⟨ω₁, rfl, hconnect⟩ := Prog.alone_cmd hconnect
  obtain ⟨-, rfl⟩ := Prod.mk.inj (Option.some.inj hconnect)
  obtain ⟨ωs₃, ωs₄, _, last, rfl, hset, hret⟩ := Prog.alone_bind hset
  obtain ⟨ω₂, rfl, hset⟩ := Prog.alone_cmd hset
  obtain ⟨-, rfl⟩ := Prod.mk.inj (Option.some.inj hset)
  cases ωs₄ with
  | nil =>
    obtain ⟨-, rfl⟩ := Prod.mk.inj (Option.some.inj hret)
    exact ⟨ω₂, rfl, rfl⟩
  | cons => cases hret

/-- Nothing of what is left of the senders changes the sockets or Redis. -/
theorem dropSenders_kept : (dropSenders userId).wp WsState.exec
    (fun _ s' => s'.sockets = s.sockets ∧ s'.redis = s.redis) s := by
  intro ω r s₁ he
  obtain ⟨-, rfl⟩ := Prod.mk.inj (Option.some.inj he)
  cases r with
  | false => exact ⟨WsState.retain_sockets, WsState.retain_redis⟩
  | true =>
    intro ω' r' s₂ he'
    obtain ⟨-, rfl⟩ := Prod.mk.inj (Option.some.inj he')
    exact ⟨WsState.retain_sockets, WsState.retain_redis⟩

theorem closeSocket_alone {u : Unit}
    (h : (closeSocket userId).alone WsState.exec ωs s = some (u, s')) :
    ∃ ω, ∃ mid : WsState, ωs.getLast? = some ω ∧ mid.sockets = s.sockets ∧ mid.redis = s.redis ∧
      s' = (mid.call ω (.del (presenceKey userId))).2 := by
  obtain ⟨ωs₁, ωs₂, _, mid, rfl, hdrop, hdel⟩ := Prog.alone_bind h
  obtain ⟨hsockets, hredis⟩ := dropSenders_kept.of_alone hdrop
  obtain ⟨ωs₃, ωs₄, _, last, rfl, hdel, hret⟩ := Prog.alone_bind hdel
  obtain ⟨ω, rfl, hdel⟩ := Prog.alone_cmd hdel
  obtain ⟨-, rfl⟩ := Prod.mk.inj (Option.some.inj hdel)
  cases ωs₄ with
  | nil =>
    obtain ⟨-, rfl⟩ := Prod.mk.inj (Option.some.inj hret)
    exact ⟨ω, mid, by simp, hsockets, hredis, rfl⟩
  | cons => cases hret

theorem shown_connect {u : Unit} (hs : Shown s)
    (he : (DeviceStep.connect userId).exec ωs s = some (u, s')) :
    (DeviceStep.connect userId).Single ωs s ↔ Shown s' := by
  obtain ⟨⟨socket, _⟩, hrun, heq⟩ := Option.map_eq_some_iff.mp he
  obtain ⟨-, rfl⟩ := Prod.mk.inj heq
  obtain ⟨ω, hlast, rfl⟩ := openSocket_alone hrun
  have hfails : LastFails ωs ↔ ω.fails = true := by simp [LastFails, hlast]
  have honline : ∀ owner, isOnline (s.connect userId) owner = isOnline s owner := fun _ => rfl
  have hlive : ∀ owner, (∃ i, (s.connect userId).isLive owner i = true) ↔
      (∃ i, s.isLive owner i = true) ∨ owner = userId := by
    intro owner
    simp [WsState.isLive_connect, exists_or]
  rw [DeviceStep.Single, hfails]
  simp only [Shown, isOnline_setEx, WsState.isLive_congr WsState.call_sockets, honline, hlive, hs _]
  constructor
  · intro hsingle owner
    by_cases howner : owner = userId
    · subst howner
      cases hω : ω.fails with
      | false => simp
      | true => simp [hsingle hω]
    · simp [howner]
  · intro hshown hω
    obtain hlive | ⟨-, hok⟩ := (hshown userId).mpr (.inr rfl)
    · exact hlive
    · rw [hω] at hok
      cases hok

theorem shown_disconnect {u : Unit} {socket : Nat} (hs : Shown s)
    (he : (DeviceStep.disconnect socket).exec ωs s = some (u, s')) :
    (DeviceStep.disconnect socket).Single ωs s ↔ Shown s' := by
  obtain ⟨c, hc, hrun⟩ := Option.bind_eq_some_iff.mp he
  obtain ⟨hget, hopen⟩ := Option.filter_eq_some_iff.mp hc
  obtain ⟨ω, mid, hlast, hsockets, hredis, rfl⟩ := closeSocket_alone hrun
  have hfails : LastFails ωs ↔ ω.fails = true := by simp [LastFails, hlast]
  have honline : ∀ owner, isOnline mid owner = isOnline s owner := by
    intro owner
    rw [isOnline, hredis]
    rfl
  have hself : ∀ owner, s.isLive owner socket = true ↔ owner = c.userId := by
    intro owner
    rw [WsState.isLive_iff, hget]
    constructor
    · rintro ⟨c', hc', rfl, -⟩
      rw [Option.some.inj hc']
    · rintro rfl
      exact ⟨c, rfl, rfl, hopen⟩
  have hothers : ∀ owner, owner ≠ c.userId → ∀ i, s.isLive owner i = true → i ≠ socket := by
    rintro owner hne i hi rfl
    exact hne ((hself owner).mp hi)
  rw [DeviceStep.Single, hfails]
  simp only [Shown, isOnline_del, WsState.isLive_congr WsState.call_sockets,
    WsState.isLive_congr hsockets, WsState.isLive_close, honline, hs _, hself]
  constructor
  · intro hsingle owner
    by_cases howner : owner = c.userId
    · constructor
      · rintro ⟨-, hω⟩
        obtain ⟨other, hne, hother⟩ := (hsingle owner howner).mp (hω howner)
        exact ⟨other, hother, hne⟩
      · rintro ⟨other, hother, hne⟩
        exact ⟨⟨other, hother⟩, fun _ => (hsingle owner howner).mpr ⟨other, hne, hother⟩⟩
    · constructor
      · rintro ⟨⟨i, hi⟩, -⟩
        exact ⟨i, hi, hothers owner howner i hi⟩
      · rintro ⟨i, hi, -⟩
        exact ⟨⟨i, hi⟩, fun h => absurd h howner⟩
  · rintro hshown owner rfl
    have hlive : ∃ i, s.isLive c.userId i = true := ⟨socket, (hself _).mpr rfl⟩
    constructor
    · intro hω
      obtain ⟨other, hother, hne⟩ := (hshown c.userId).mp ⟨hlive, fun _ => hω⟩
      exact ⟨other, hne, hother⟩
    · rintro ⟨other, hne, hother⟩
      exact ((hshown c.userId).mpr ⟨other, hother, hne⟩).2 rfl

end Steps

theorem singleDevice_iff {c d : DeviceConfig} {a : DeviceAct} (hs : Shown c.db)
    (ha : deviceServer.apply a c = some d) : SingleDevice c a ↔ Shown d.db := by
  obtain ⟨r, rfl, rfl⟩ | ⟨i, ωs, r, step, k, ⟨⟩, s, rfl, ht, he, rfl⟩ | ⟨ωs, s, rfl, htick, rfl⟩ :=
    System.apply_cases ha
  · refine iff_of_true ?_ hs
    rintro i ωs step ⟨⟩
  · have hstep : SingleDevice c (.step i ωs) ↔ step.Single ωs c.db := by
      constructor
      · exact fun h => h i ωs step rfl (by simp [ht])
      · rintro h j ωs' step' ⟨⟩ hnext
        obtain rfl : step = step' := by simpa [ht] using hnext
        exact h
    rw [hstep]
    cases step with
    | connect userId => exact shown_connect hs he
    | disconnect socket => exact shown_disconnect hs he
  · refine iff_of_true (by rintro i ωs step ⟨⟩) ?_
    obtain ⟨ω, -, hω⟩ := Option.bind_eq_some_iff.mp htick
    cases hchange : ω.change with
    | deliver socket =>
      rw [hchange] at hω
      obtain rfl := Option.some.inj hω
      intro userId
      dsimp only
      rw [WsState.isLive_deliver]
      exact hs userId
    | wait | close =>
      rw [hchange] at hω
      cases hω

/-- In every state of a run of connects and disconnects the users shown as online are those
who are connected, exactly if no device disconnects while another one of its user is
connected, up to failed calls of Redis. -/
theorem shown_iff_single (now : Nat) (acts : List DeviceAct) :
    deviceServer.Every SingleDevice acts (System.start (.init now)) ↔
      ∀ d ∈ deviceServer.trace acts (System.start (.init now)), Shown d.db := by
  refine System.every_iff_forall (J := fun _ => True) (fun _ _ => trivial)
    (fun _ hs ha => singleDevice_iff hs ha) acts trivial fun userId => ?_
  simp [System.start, WsState.init, isOnline, Store.lookup_empty, WsState.isLive]

def allSucceed : WsChoice := ⟨false, .nil, .wait 0⟩

/-- One of two devices of a user disconnects. -/
def twoDevices (userId : Uuid) : List DeviceAct :=
  [.spawn (.connect userId), .spawn (.connect userId), .spawn (.disconnect 0),
    .step 0 [allSucceed, allSucceed], .step 1 [allSucceed, allSucceed],
    .step 2 [allSucceed, allSucceed]]

theorem connected_but_offline :
    ¬ ∀ d ∈ deviceServer.trace (twoDevices .nil) (System.start (.init 0)), Shown d.db := by
  intro h
  have hlast : ∃ d ∈ (deviceServer.trace (twoDevices .nil) (System.start (.init 0))).getLast?,
      isOnline d.db .nil = false ∧ d.db.isLive .nil 1 = true := by decide +kernel
  obtain ⟨d, hd, hoffline, hlive⟩ := hlast
  have honline := (h d (List.mem_of_getLast? hd) .nil).mpr ⟨1, hlive⟩
  rw [hoffline] at honline
  cases honline

end Mesty.Ws.Presence
