import Mesty.Auth.Records

namespace Mesty.Auth.SessionCache

open Mesty.Base.Ids Mesty.Base.Error Mesty.Concurrency.Program Mesty.Concurrency.Pool
open Mesty.Redis.Server Mesty.Auth.Entities Mesty.Auth.Otp Mesty.Auth.Repository
open Mesty.Auth.Services Mesty.Auth.Handlers Mesty.Auth.Middleware Mesty.Auth.Permits
open Mesty.Auth.Records

def HasRow (db : AuthDb) (sessionId : Uuid) : Prop :=
  ∃ e ∈ db.sessions.entries, e.2.id = sessionId

instance (db : AuthDb) (sessionId : Uuid) : Decidable (HasRow db sessionId) :=
  inferInstanceAs (Decidable (∃ e ∈ db.sessions.entries, e.2.id = sessionId))

/-- Between the two states task `j` executes one command, and it removes the session. -/
def Removes (a b : AuthConfig) (j : Nat) (sessionId : Uuid) : Prop :=
  HasRow a.db sessionId ∧ ¬ HasRow b.db sessionId ∧
    (b.log.drop a.log.length).map Event.task = [j]

instance (a b : AuthConfig) (j : Nat) (sessionId : Uuid) : Decidable (Removes a b j sessionId) :=
  inferInstanceAs (Decidable (_ ∧ _))

def isHit (key : String) (e : AuthEvent) : Bool :=
  match e.cmd, e.ans with
  | .redis (.get key'), some _ => key' = key
  | _, _ => false

/-- `auth_middleware` has accepted a request with the session in task `i`: it has found the
session in the cache, or has put it there after it had found its row. -/
def Passes (c : AuthConfig) (i : Nat) (sessionId : Uuid) : Prop :=
  ∃ e ∈ c.log, e.task = i ∧
    (isHit (sessionKey sessionId) e ∨ e.cmd.stores = some (sessionKey sessionId))

instance (c : AuthConfig) (i : Nat) (sessionId : Uuid) : Decidable (Passes c i sessionId) :=
  inferInstanceAs (Decidable (∃ e ∈ c.log, _))

def Finished (c : AuthConfig) (j : Nat) : Prop := ∃ t ∈ c.tasks[j]?, t.2.finished

instance (c : AuthConfig) (j : Nat) : Decidable (Finished c j) :=
  inferInstanceAs (Decidable (∃ t ∈ c.tasks[j]?, _))

/-- Once the request that has removed a session has returned, no request is accepted with it. -/
def RemovalHolds (run : List AuthConfig) : Prop :=
  ∀ m n q a b d e j i sessionId, run[m]? = some a → run[m + 1]? = some b → run[n]? = some d →
    run[q]? = some e → m < n → n ≤ q → Removes a b j sessionId → Finished d j →
    Passes e i sessionId → Passes d i sessionId

/-- No task is about to put the session into the cache. -/
def NoneCaches (c : AuthConfig) (sessionId : Uuid) : Prop :=
  ∀ t ∈ c.tasks, t.2.next.bind AuthCmd.stores ≠ some (sessionKey sessionId)

instance (c : AuthConfig) (sessionId : Uuid) : Decidable (NoneCaches c sessionId) :=
  inferInstanceAs (Decidable (∀ t ∈ c.tasks, _))

/-- A request other than a logout removes a session only when it is not in the cache and no task
is about to put it there. When a logout clears the cache, no task is about to put a removed
session there. -/
def Uncached (c : AuthConfig) (a : AuthAct) : Prop :=
  ∀ i ω r cmd k sessionId, a = .step i ω → c.tasks[i]? = some (r, .call cmd k) →
    ((∀ authHeader, r ≠ .withAuth authHeader .logout) → HasRow c.db sessionId →
      (∃ out, AuthDb.exec ω.toChoice cmd c.db = some out ∧ ¬ HasRow out.2 sessionId) →
      c.db.redis.lookup (sessionKey sessionId) = none ∧ NoneCaches c sessionId) ∧
    (cmd = .redis (.del (sessionKey sessionId)) → ¬ HasRow c.db sessionId → NoneCaches c sessionId)

variable {state : AuthState} {c d : AuthConfig} {a : AuthAct} {sessionId : Uuid} {i j : Nat}

theorem isHit_iff {key : String} {e : AuthEvent} :
    isHit key e = true ↔ ∃ i value, e = ⟨i, .redis (.get key), some value⟩ := by
  obtain ⟨i, cmd, ans⟩ := e
  constructor
  · intro h
    simp only [isHit] at h
    split at h
    · next key' value =>
      obtain rfl := of_decide_eq_true h
      exact ⟨i, value, rfl⟩
    · cases h
  · rintro ⟨i, value, heq⟩
    cases heq
    simp [isHit]

/-- A session is put into the cache right after its row was found valid. -/
theorem valid_of_about (hr : (authServer state).Replays c) {t : AuthReq × AuthProg (Except ApiError Response)}
    (ht : c.tasks[i]? = some t) (h : t.2.next.bind AuthCmd.stores = some (sessionKey sessionId)) :
    ∃ userId, (c.history i).getLast? = some ⟨.isSessionValid userId sessionId, true⟩ := by
  obtain ⟨r, p⟩ := t
  cases p with
  | ret out => cases h
  | call cmd k =>
    obtain ⟨value, seconds, rfl⟩ := AuthCmd.eq_of_stores h
    have hperm := (hr.follows (handle_permitted state) ht).1
    obtain ⟨purpose, subject, -, heq⟩ | hs | ⟨_, _, userId, id, -, -, hlast, heq⟩ := hperm
    · exact absurd heq.symm (OtpPurpose.key_ne (by simp [sessionKey]))
    · obtain ⟨_, _, _, _, _, _, _, _, _, -, heq, -⟩ := hs
      have hchars := congrArg String.toList heq
      simp [refreshKey, sessionKey] at hchars
    · obtain rfl := sessionKey_inj heq
      exact ⟨userId, hlast⟩

/-- The session is neither in the cache nor on its way there. -/
structure Absent (c : AuthConfig) (sessionId : Uuid) : Prop where
  dead : c.db.redis.lookup (sessionKey sessionId) = none
  none : NoneCaches c sessionId

/-- The session existed, and its row is gone. -/
structure Gone (db : AuthDb) (sessionId : Uuid) : Prop where
  drawn : sessionId ∈ db.drawn
  row : ¬ HasRow db sessionId

section Step

variable {ω : Env} {r : AuthReq} {cmd : AuthCmd} {k : cmd.Ans → AuthProg (Except ApiError Response)}
  {ans : cmd.Ans} {db' : AuthDb}

theorem gone_exec {ω : Choice} {db : AuthDb} (hg : Gone db sessionId)
    (he : AuthDb.exec ω cmd db = some (ans, db')) : Gone db' sessionId where
  drawn := (AuthDb.exec_drawn he).1 ▸ List.mem_append_right _ hg.drawn
  row := by
    rintro ⟨e, hm, hid⟩
    obtain hold | ⟨-, hnew⟩ := AuthDb.mem_sessions_exec he hm
    · exact hg.row ⟨e, hold, hid⟩
    · exact hnew (hid ▸ hg.drawn)

theorem dead_exec (hperm : Permitted state r (c.history i) cmd)
    (he : AuthDb.exec ω.toChoice cmd c.db = some (ans, db'))
    (hdead : c.db.redis.lookup (sessionKey sessionId) = none)
    (hstores : cmd.stores ≠ some (sessionKey sessionId)) :
    db'.redis.lookup (sessionKey sessionId) = none := by
  by_contra hlive
  obtain ⟨entry, hentry⟩ := Option.ne_none_iff_exists'.mp hlive
  obtain ⟨old, hold, -⟩ | ⟨seconds, rfl⟩ | rfl :=
    AuthDb.exec_value he (not_counterKey_sessionKey sessionId) hentry
  · simp [hdead] at hold
  · exact hstores rfl
  · exact hperm

/-- Only a valid row can bring a task to cache the session. -/
theorem noneCaches_step
    (hr' : (authServer state).Replays ⟨c.after i cmd ans db', c.tasks.set i (r, k ans)⟩)
    (hvalid : ∀ userId, (⟨cmd, ans⟩ : (c : AuthCmd) × c.Ans) ≠ ⟨.isSessionValid userId sessionId, true⟩)
    (hnone : NoneCaches c sessionId) :
    NoneCaches ⟨c.after i cmd ans db', c.tasks.set i (r, k ans)⟩ sessionId := by
  intro t hm hstores
  obtain ⟨j, hj⟩ := List.getElem?_of_mem hm
  by_cases hij : i = j
  · subst hij
    obtain ⟨userId, hlast⟩ := valid_of_about hr' hj hstores
    have hhist := World.history_after c.toWorld i i cmd ans db'
    rw [if_pos rfl] at hhist
    change ((c.after i cmd ans db').history i).getLast? = _ at hlast
    rw [hhist, List.getLast?_concat] at hlast
    exact hvalid userId (Option.some.inj hlast)
  · rw [List.getElem?_set_ne hij] at hj
    exact hnone t (List.mem_of_getElem? hj) hstores

theorem absent_step
    (hr' : (authServer state).Replays ⟨c.after i cmd ans db', c.tasks.set i (r, k ans)⟩)
    (ht : c.tasks[i]? = some (r, .call cmd k)) (hperm : Permitted state r (c.history i) cmd)
    (he : AuthDb.exec ω.toChoice cmd c.db = some (ans, db'))
    (hvalid : ∀ userId, (⟨cmd, ans⟩ : (c : AuthCmd) × c.Ans) ≠ ⟨.isSessionValid userId sessionId, true⟩)
    (h : Absent c sessionId) :
    Absent ⟨c.after i cmd ans db', c.tasks.set i (r, k ans)⟩ sessionId where
  dead := dead_exec hperm he h.dead fun hstores =>
    h.none _ (List.mem_of_getElem? ht) (by simpa using hstores)
  none := noneCaches_step hr' hvalid h.none

/-- A session without a row is not found valid. -/
theorem not_valid_of_gone (he : AuthDb.exec ω.toChoice cmd c.db = some (ans, db'))
    (h : ¬ HasRow c.db sessionId) (userId : Uuid) :
    (⟨cmd, ans⟩ : (c : AuthCmd) × c.Ans) ≠ ⟨.isSessionValid userId sessionId, true⟩ := by
  intro heq
  cases heq
  have hvalid : c.db.isSessionValid userId sessionId = true :=
    (Prod.ext_iff.mp (Option.some.inj he)).1
  obtain ⟨row, hrow, hid⟩ := List.any_eq_true.mp hvalid
  simp only [AuthDb.isSession, Bool.and_eq_true, decide_eq_true_eq] at hid
  exact h ⟨row, hrow, hid.1.2⟩

end Step

theorem noneCaches_spawn {r : AuthReq} (hr : (authServer state).Replays c)
    (hr' : (authServer state).Replays { c with tasks := c.tasks ++ [(r, (authServer state).handler r)] })
    (h : NoneCaches c sessionId) :
    NoneCaches { c with tasks := c.tasks ++ [(r, (authServer state).handler r)] } sessionId := by
  intro t hm hstores
  obtain hm | hm := List.mem_append.mp hm
  · exact h t hm hstores
  · have ht : (c.tasks ++ [(r, (authServer state).handler r)])[c.tasks.length]? = some t := by
      simp [List.mem_singleton.mp hm]
    -- the new task has got no answer yet
    obtain ⟨userId, hlast⟩ := valid_of_about hr' ht hstores
    have hlt := hr.1 _ (World.mem_history.mp (List.mem_of_getLast? hlast))
    exact absurd hlt (Nat.lt_irrefl _)

/-- A session that is gone and absent stays so. -/
theorem gone_absent_apply (hr : (authServer state).Replays c) (hg : Gone c.db sessionId)
    (h : Absent c sessionId) (ha : (authServer state).apply a c = some d) :
    Gone d.db sessionId ∧ Absent d sessionId := by
  have hr' := System.replays_apply hr ha
  obtain ⟨r, rfl, rfl⟩ | ⟨i, ω, r, cmd, k, ans, s, rfl, ht, he, rfl⟩ | ⟨ω, s, rfl, hs, rfl⟩ :=
    System.apply_cases ha
  · exact ⟨hg, h.dead, noneCaches_spawn hr hr' h.none⟩
  · have hperm := (hr.follows (handle_permitted state) ht).1
    exact ⟨gone_exec hg he, absent_step hr' ht hperm he (not_valid_of_gone he hg.row) h⟩
  · obtain rfl := Option.some.inj hs
    refine ⟨⟨hg.drawn, hg.row⟩, ?_, h.none⟩
    rw [Store.lookup_wait, h.dead, Option.filter_none]

theorem passes_apply (h : Absent c sessionId) (ha : (authServer state).apply a c = some d)
    (hp : Passes d i sessionId) : Passes c i sessionId := by
  obtain ⟨r, rfl, rfl⟩ | ⟨j, ω, r, cmd, k, ans, s, rfl, ht, he, rfl⟩ | ⟨ω, s, rfl, hs, rfl⟩ :=
    System.apply_cases ha
  · exact hp
  · obtain ⟨e, hm, hi, hpass⟩ := hp
    obtain hm | hm := List.mem_append.mp hm
    · exact ⟨e, hm, hi, hpass⟩
    · obtain rfl := List.mem_singleton.mp hm
      obtain hhit | hstores := hpass
      · obtain ⟨i', value, heq⟩ := isHit_iff.mp hhit
        obtain ⟨rfl, rfl, hans⟩ := Event.mk.inj heq
        obtain rfl := eq_of_heq hans
        have hvalue := (Prod.ext_iff.mp (Option.some.inj he)).1
        simp [AuthDb.onRedis, Store.exec, h.dead] at hvalue
      · exact absurd (by simpa using hstores) (h.none _ (List.mem_of_getElem? ht))
  · exact hp

/-- Whatever happens from then on, no request is accepted with the session. -/
theorem passes_reach {P : AuthConfig → AuthAct → Prop} (hr : (authServer state).Replays c)
    (hg : Gone c.db sessionId) (h : Absent c sessionId) (hreach : (authServer state).Reach P c d)
    (hp : Passes d i sessionId) : Passes c i sessionId := by
  have hinv : (authServer state).Replays d ∧ (Gone d.db sessionId ∧ Absent d sessionId) ∧
      (Passes d i sessionId → Passes c i sessionId) := by
    clear hp
    induction hreach with
    | refl => exact ⟨hr, ⟨hg, h⟩, id⟩
    | tail _ _ ha ih =>
      obtain ⟨hr', ⟨hg', h'⟩, hback⟩ := ih
      exact ⟨System.replays_apply hr' ha, gone_absent_apply hr' hg' h' ha,
        fun hp => hback (passes_apply h' ha hp)⟩
  exact hinv.2.2 hp

section Removal

variable {ω : Env} {r : AuthReq} {cmd : AuthCmd} {k : cmd.Ans → AuthProg (Except ApiError Response)}
  {ans : cmd.Ans} {db' : AuthDb} {start : AuthDb}

theorem gone_of_removed (hl : Ledger start c.toWorld)
    (he : AuthDb.exec ω.toChoice cmd c.db = some (ans, db')) (hrow : HasRow c.db sessionId)
    (hrow' : ¬ HasRow db' sessionId) : Gone db' sessionId := by
  obtain ⟨e, hm, rfl⟩ := hrow
  exact ⟨(AuthDb.exec_drawn he).1 ▸ List.mem_append_right _ (hl.rows e hm), hrow'⟩

/-- A logout removes its session by the DELETE, before it clears the cache. -/
theorem logout_removes {authHeader : Option String} {hist : History}
    (hperm : Permitted state (.withAuth authHeader .logout) hist cmd)
    (he : AuthDb.exec ω.toChoice cmd c.db = some (ans, db')) (hrow : HasRow c.db sessionId)
    (hrow' : ¬ HasRow db' sessionId) :
    (∃ userId, cmd = .deleteSession userId sessionId) ∧
      ∀ n, ⟨.redis (.del (sessionKey sessionId)), n⟩ ∉ hist := by
  by_cases hdel : ∃ userId id, cmd = .deleteSession userId id
  · obtain ⟨userId, id, rfl⟩ := hdel
    obtain ⟨e, hm, rfl⟩ := hrow
    have hid : AuthDb.isSession userId id e = true := by
      by_contra hne
      obtain ⟨-, rfl⟩ := Prod.ext_iff.mp (Option.some.inj he)
      exact hrow' ⟨e, List.mem_filter.mpr ⟨hm, by simpa using hne⟩, rfl⟩
    simp only [AuthDb.isSession, decide_eq_true_eq] at hid
    obtain ⟨authHeader', heq | ⟨-, -, -, hfresh⟩⟩ := hperm
    · cases heq
    · exact ⟨⟨userId, by rw [hid.2]⟩, hid.2 ▸ hfresh⟩
  · have hsame : db'.sessions = c.db.sessions := by
      apply AuthDb.exec_sessions he
      · rintro _ _ _ _ _ _ rfl
        exact hperm
      · rintro userId id rfl
        exact hdel ⟨userId, id, rfl⟩
    rw [HasRow, hsame] at hrow'
    exact absurd hrow hrow'

theorem absent_of_removed
    (hr' : (authServer state).Replays ⟨c.after i cmd ans db', c.tasks.set i (r, k ans)⟩)
    (hp : Uncached c (.step i ω)) (ht : c.tasks[i]? = some (r, .call cmd k))
    (hperm : Permitted state r (c.history i) cmd)
    (he : AuthDb.exec ω.toChoice cmd c.db = some (ans, db')) (hrow : HasRow c.db sessionId)
    (hrow' : ¬ HasRow db' sessionId) (hlogout : ∀ authHeader, r ≠ .withAuth authHeader .logout) :
    Absent ⟨c.after i cmd ans db', c.tasks.set i (r, k ans)⟩ sessionId := by
  obtain ⟨hdead, hnone⟩ := (hp i ω r cmd k sessionId rfl ht).1 hlogout hrow ⟨(ans, db'), he, hrow'⟩
  refine absent_step hr' ht hperm he (fun userId heq => ?_) ⟨hdead, hnone⟩
  cases heq
  obtain ⟨-, rfl⟩ := Prod.ext_iff.mp (Option.some.inj he)
  exact hrow' hrow

/-- A logout that has made its DELETE. -/
structure Leaving (c : AuthConfig) (j : Nat) (sessionId : Uuid) : Prop where
  request : ∃ authHeader, c.request j = some (.withAuth authHeader .logout)
  deleted : ∃ userId existed, ⟨j, .deleteSession userId sessionId, existed⟩ ∈ c.log
  gone : Gone c.db sessionId
  left : Absent c sessionId ∨ ∀ n, ⟨j, .redis (.del (sessionKey sessionId)), n⟩ ∉ c.log

theorem Leaving.apply (hr : (authServer state).Replays c) (hp : Uncached c a)
    (h : Leaving c j sessionId) (ha : (authServer state).apply a c = some d) :
    Leaving d j sessionId := by
  have hr' := System.replays_apply hr ha
  have hstays := fun habsent => gone_absent_apply hr h.gone habsent ha
  obtain ⟨userId, existed, hdel⟩ := h.deleted
  obtain ⟨r, rfl, rfl⟩ | ⟨i, ω, r, cmd, k, ans, s, rfl, ht, he, rfl⟩ | ⟨ω, s, rfl, hs, rfl⟩ :=
    System.apply_cases ha
  · have hreq := Config.request_spawn (hr.1 _ hdel) (r, (authServer state).handler r)
    exact ⟨hreq ▸ h.request, h.deleted, h.gone, h.left.imp_left fun habsent => (hstays habsent).2⟩
  · refine ⟨?_, ⟨userId, existed, List.mem_append_left _ hdel⟩, gone_exec h.gone he, ?_⟩
    · rw [Config.request_set ht]
      exact h.request
    obtain habsent | hbefore := h.left
    · exact .inl (hstays habsent).2
    by_cases hcmd : cmd = .redis (.del (sessionKey sessionId))
    · subst hcmd
      have hexec : AuthDb.exec ω.toChoice _ c.db = some (ans, s) := he
      refine .inl ⟨?_, noneCaches_step hr' (not_valid_of_gone hexec h.gone.row)
        ((hp i ω r _ k sessionId rfl ht).2 rfl h.gone.row)⟩
      obtain ⟨-, rfl⟩ := Prod.ext_iff.mp (Option.some.inj he)
      exact Store.lookup_put_none
    · refine .inr fun n hm => ?_
      obtain hm | hm := List.mem_append.mp hm
      · exact hbefore n hm
      · exact hcmd (Event.mk.inj (List.mem_singleton.mp hm)).2.1.symm
  · obtain rfl := Option.some.inj hs
    exact ⟨h.request, h.deleted, ⟨h.gone.drawn, h.gone.row⟩,
      h.left.imp_left fun habsent => (hstays habsent).2⟩

/-- A logout that has returned has cleared the cache. -/
theorem Leaving.absent (hr : (authServer state).Replays c) (h : Leaving c j sessionId)
    (hfin : Finished c j) : Absent c sessionId := by
  obtain ⟨authHeader, hreq⟩ := h.request
  obtain ⟨⟨r, p⟩, ht, hp⟩ := hfin
  obtain rfl := Option.some.inj ((Config.request_eq ht).symm.trans hreq)
  cases p with
  | call cmd k => cases hp
  | ret out =>
    have hend := hr.follows (handle_permitted state) ht
    obtain ⟨userId, existed, hdel⟩ := h.deleted
    obtain ⟨n, hm⟩ := hend.1 userId sessionId existed (World.mem_history.mpr hdel)
    exact h.left.resolve_right fun hnone => hnone n (World.mem_history.mp hm)

end Removal

theorem absent_of_returned {P : AuthConfig → AuthAct → Prop} {start : AuthDb} {b : AuthConfig}
    (hP : ∀ c a, P c a → Uncached c a) (hr : (authServer state).Replays c)
    (hl : Ledger start c.toWorld) (hp : P c a) (ha : (authServer state).apply a c = some b)
    (hrem : Removes c b j sessionId) (hreach : (authServer state).Reach P b d) (hfin : Finished d j) :
    (authServer state).Replays d ∧ Gone d.db sessionId ∧ Absent d sessionId := by
  obtain ⟨hrow, hrow', htask⟩ := hrem
  have hr' := System.replays_apply hr ha
  obtain ⟨r, rfl, rfl⟩ | ⟨i, ω, r, cmd, k, ans, s, rfl, ht, he, rfl⟩ | ⟨ω, s, rfl, hs, rfl⟩ :=
    System.apply_cases ha
  · exact absurd hrow hrow'
  · obtain rfl : i = j := by simpa using htask
    have hperm := (hr.follows (handle_permitted state) ht).1
    have hgone := gone_of_removed hl he hrow hrow'
    by_cases hlogout : ∃ authHeader, r = .withAuth authHeader .logout
    · obtain ⟨authHeader, rfl⟩ := hlogout
      obtain ⟨⟨userId, rfl⟩, hfresh⟩ := logout_removes hperm he hrow hrow'
      have hleaving : Leaving ⟨c.after i _ ans s, c.tasks.set i (.withAuth authHeader .logout, k ans)⟩
          i sessionId := by
        refine ⟨⟨authHeader, ?_⟩, ⟨userId, ans, by simp⟩, hgone, .inr fun n hm => ?_⟩
        · rw [Config.request_set ht, Config.request_eq ht]
        · obtain hm | hm := List.mem_append.mp hm
          · exact hfresh n (World.mem_history.mpr hm)
          · cases List.mem_singleton.mp hm
      have hend : (authServer state).Replays d ∧ Leaving d i sessionId :=
        hreach.invariant (J := fun c => (authServer state).Replays c ∧ Leaving c i sessionId)
          (fun hc hp ha => ⟨System.replays_apply hc.1 ha, hc.2.apply hc.1 (hP _ _ hp) ha⟩)
          ⟨hr', hleaving⟩
      exact ⟨hend.1, hend.2.gone, hend.2.absent hend.1 hfin⟩
    · have habsent := absent_of_removed hr' (hP _ _ hp) ht hperm he hrow hrow'
        fun authHeader heq => hlogout ⟨authHeader, heq⟩
      exact hreach.invariant
        (J := fun c => (authServer state).Replays c ∧ Gone c.db sessionId ∧ Absent c sessionId)
        (fun hc _ ha => ⟨System.replays_apply hc.1 ha, gone_absent_apply hc.1 hc.2.1 hc.2.2 ha⟩)
        ⟨hr', hgone, habsent⟩
  · obtain rfl := Option.some.inj hs
    exact absurd hrow hrow'

/-- Once a session is removed and the request has returned, it is never accepted again, in a
run in which sessions are removed only when they are not in the cache nor on their way there. -/
theorem removed_not_accepted (state : AuthState) (now : Nat)
    (users : AList (fun _ : Uuid => UserRow)) (sessions : AList (fun _ : Uuid × String => SessionRow))
    (acts : List AuthAct)
    (h : (authServer state).Every Uncached acts (System.start (.init now users sessions))) :
    RemovalHolds ((authServer state).trace acts (System.start (.init now users sessions))) := by
  intro m n q a b d e j i sessionId ha hb hd he hmn hnq hrem hfin hpass
  obtain ⟨act, hp, hact⟩ := System.apply_of_trace h ha hb
  have hstart := System.reach_of_mem_trace h (List.mem_of_getElem? ha)
  have hr := reach_recorded hstart
  obtain ⟨hr', hgone, habsent⟩ := absent_of_returned (fun _ _ hp => hp) hr.replays hr.ledger hp hact
    hrem (System.reach_of_trace h hmn hb hd) hfin
  exact passes_reach hr' hgone habsent (System.reach_of_trace h hnq hd he) hpass

def isLogout : AuthReq → Bool
  | .withAuth _ .logout => true
  | _ => false

theorem eq_of_isLogout {r : AuthReq} (h : isLogout r = true) :
    ∃ authHeader, r = .withAuth authHeader .logout := by
  unfold isLogout at h
  split at h
  · exact ⟨_, rfl⟩
  · cases h

/-- Only logouts delete sessions, and no task is about to cache one when another is cleared. -/
def quiet (c : AuthConfig) : AuthAct → Bool
  | .step i _ => match c.tasks[i]? with
    | some (_, .call (.upsertSession ..) _) => false
    | some (r, .call (.deleteSession ..) _) => isLogout r
    | some (_, .call (.redis (.del _)) _) =>
      c.tasks.all fun t => (t.2.next.bind AuthCmd.stores).isNone
    | _ => true
  | _ => true

theorem uncached_of_quiet (h : quiet c a = true) : Uncached c a := by
  rintro i ω r cmd k sessionId rfl ht
  simp only [quiet, ht] at h
  refine ⟨fun hlogout hrow ⟨out, he, hrow'⟩ => ?_, fun hcmd _ t hm hstores => ?_⟩
  · by_cases hdel : ∃ userId id, cmd = .deleteSession userId id
    · obtain ⟨userId, id, rfl⟩ := hdel
      obtain ⟨authHeader, hreq⟩ := eq_of_isLogout (by exact h)
      exact absurd hreq (hlogout authHeader)
    · rw [HasRow, AuthDb.exec_sessions he] at hrow'
      · exact absurd hrow hrow'
      · rintro _ _ _ _ _ _ rfl
        cases h
      · rintro userId id rfl
        exact hdel ⟨userId, id, rfl⟩
  · subst hcmd
    have hnone := List.all_eq_true.mp h t hm
    rw [hstores] at hnone
    cases hnone

def aliceSessions : AList (fun _ : Uuid × String => SessionRow) :=
  (∅ : AList _).insert (aliceId, "pixel-8")
    ⟨aliceSessionId, "Pixel 8", "android", none, none, 1700000000000, 1702592000000⟩

/-- Alice is logged in. -/
def loggedIn : AuthConfig := System.start (.init 1700000000000 aliceUsers aliceSessions)

/-- She lists her sessions, logs out, and tries to list them again. -/
def listAfterLogout : List AuthAct :=
  [.spawn (.withAuth aliceBearer .listSessions)] ++ moves 0 6 ++
    [.spawn (.withAuth aliceBearer .logout)] ++ moves 1 6 ++
    [.spawn (.withAuth aliceBearer .listSessions)] ++ moves 2 4

theorem listAfterLogout_uncached :
    (authServer aliceServer).Every Uncached listAfterLogout loggedIn := by
  have hbearer : ∀ authHeader route, .spawn (.withAuth authHeader route) ∈ listAfterLogout →
      authHeader = aliceBearer := by
    intro authHeader route hm
    have hcases : (authHeader = aliceBearer ∧ route = .listSessions) ∨
        authHeader = aliceBearer ∧ route = .logout := by
      simpa [listAfterLogout, or_comm, or_left_comm] using hm
    exact hcases.elim And.left And.left
  have hcheck : (authServer aliceServer).Every (fun c a => quiet c a = true) listAfterLogout
      loggedIn := by
    rw [System.every_congr (handler_alice aliceServer hbearer)]
    decide +kernel
  exact hcheck.mono fun c a h => uncached_of_quiet h

theorem logged_out_not_accepted :
    RemovalHolds ((authServer aliceServer).trace listAfterLogout loggedIn) :=
  removed_not_accepted aliceServer 1700000000000 aliceUsers aliceSessions listAfterLogout
    listAfterLogout_uncached

/-- She deletes her session, which leaves it in the cache, and lists her sessions with it. -/
def listAfterDelete : List AuthAct :=
  [.spawn (.withAuth aliceBearer (.deleteSession aliceSessionId))] ++ moves 0 6 ++
    [.spawn (.withAuth aliceBearer .listSessions)] ++ moves 1 3

theorem accepted_after_delete :
    ¬ RemovalHolds ((authServer aliceServer).trace listAfterDelete loggedIn) := by
  intro h
  have hbearer : ∀ authHeader route, .spawn (.withAuth authHeader route) ∈ listAfterDelete →
      authHeader = aliceBearer := by
    intro authHeader route hm
    have hcases : (authHeader = aliceBearer ∧ route = .deleteSession aliceSessionId) ∨
        authHeader = aliceBearer ∧ route = .listSessions := by
      simpa [listAfterDelete] using hm
    exact hcases.elim And.left And.left
  have hrun : ∃ a ∈ ((authServer aliceServer).trace listAfterDelete loggedIn)[6]?,
      ∃ b ∈ ((authServer aliceServer).trace listAfterDelete loggedIn)[7]?,
      ∃ e ∈ ((authServer aliceServer).trace listAfterDelete loggedIn)[11]?,
        Removes a b 0 aliceSessionId ∧ Finished b 0 ∧ Passes e 1 aliceSessionId ∧
          ¬ Passes b 1 aliceSessionId := by
    rw [System.trace_congr (handler_alice aliceServer hbearer)]
    decide +kernel
  obtain ⟨a, ha, b, hb, e, he, hrem, hfin, hpass, hnot⟩ := hrun
  exact hnot (h 6 7 11 a b b e 0 1 _ ha hb hb he (by decide) (by decide) hrem hfin hpass)

end Mesty.Auth.SessionCache
