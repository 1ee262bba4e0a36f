import Mesty.Auth.RefreshTokens

namespace Mesty.Auth.Revocation

open Mesty.Base.Ids Mesty.Base.Error Mesty.Concurrency.Program Mesty.Concurrency.Pool
open Mesty.Redis.Server Mesty.Auth.Entities Mesty.Auth.Otp Mesty.Auth.Repository
open Mesty.Auth.Services Mesty.Auth.Handlers Mesty.Auth.Middleware Mesty.Auth.Permits
open Mesty.Auth.Records Mesty.Auth.RefreshTokens

/-- The task is a logout, or the deletion of the session, and has returned success. -/
def succeeded (sessionId : Uuid) : AuthReq × AuthProg (Except ApiError Response) → Bool
  | (.withAuth _ .logout, .ret (.ok ⟨200, _⟩)) => true
  | (.withAuth _ (.deleteSession id), .ret (.ok ⟨200, _⟩)) => id = sessionId
  | _ => false

/-- Task `j` is a logout by the session, or a deletion of it, that has returned success. -/
def Revokes (c : AuthConfig) (j : Nat) (sessionId : Uuid) : Prop :=
  (∃ e ∈ c.log, e.task = j ∧ e.cmd.deleted = some sessionId) ∧
    ∃ t ∈ c.tasks[j]?, succeeded sessionId t

/-- `issue_tokens` has stored the token for the session that the same task has upserted. -/
def IssuedFor (state : AuthState) (c : AuthConfig) (sessionId : Uuid) (token : String) : Prop :=
  Occurs (fun before e => e.cmd.stores = some (refreshKey state token) ∧
    ∃ e' ∈ before, e'.task = e.task ∧ e'.cmd.upserted e'.ans = some sessionId) c.log

instance (c : AuthConfig) (j : Nat) (sessionId : Uuid) : Decidable (Revokes c j sessionId) :=
  inferInstanceAs (Decidable (_ ∧ _))

instance (state : AuthState) (c : AuthConfig) (sessionId : Uuid) (token : String) :
    Decidable (IssuedFor state c sessionId token) :=
  inferInstanceAs (Decidable (Occurs _ _))

/-- Where requests execute alone they are numbered in their order: none that comes after the
revocation of a session accepts a refresh token of it. -/
def RevocationHolds (state : AuthState) (run : List AuthConfig) : Prop :=
  ∀ d ∈ run, ∀ j k sessionId token, Revokes d j sessionId → IssuedFor state d sessionId token →
    j < k → ¬ Accepts state d k token

/-- If the move is the DELETE of a logout, or one that finds its session, then no refresh token
issued for the session is stored any more. -/
def Cleared (state : AuthState) (c : AuthConfig) (a : AuthAct) : Prop :=
  ∀ j ω req userId sessionId k, a = .step j ω →
    c.tasks[j]? = some (req, .call (.deleteSession userId sessionId) k) →
    ((∃ authHeader, req = .withAuth authHeader .logout) ∨
      (c.db.deleteSession userId sessionId).1 = true) →
    ∀ token, IssuedFor state c sessionId token → c.db.redis.lookup (refreshKey state token) = none

/-- Task `j` has made the DELETE of a revocation. -/
def Revoking (c : AuthConfig) (j : Nat) (sessionId : Uuid) : Prop :=
  ∃ userId existed, ⟨j, .deleteSession userId sessionId, existed⟩ ∈ c.log ∧
    ((∃ authHeader, c.request j = some (.withAuth authHeader .logout)) ∨ existed = true)

variable {state : AuthState} {start : AuthDb} {cfg : AuthConfig} {i j k : Nat}
  {sessionId userId : Uuid} {token : String} {before later : List AuthEvent}

theorem Revokes.revoking (hr : Recorded state start cfg) (h : Revokes cfg j sessionId) :
    Revoking cfg j sessionId := by
  obtain ⟨⟨⟨_, cmd, existed⟩, hm, rfl, hdel⟩, ⟨r, p⟩, ht, hsucc⟩ := h
  obtain ⟨userId, rfl⟩ := AuthCmd.eq_of_deleted hdel
  unfold succeeded at hsucc
  split at hsucc
  · next authHeader _ heq =>
    cases heq
    exact ⟨userId, existed, hm, .inl ⟨authHeader, Config.request_eq ht⟩⟩
  · next authHeader id body heq =>
    cases heq
    obtain rfl := of_decide_eq_true hsucc
    obtain ⟨userId', hm'⟩ := hr.replays.follows (handle_permitted state) ht body rfl
    exact ⟨userId', true, World.mem_history.mp hm', .inr rfl⟩
  · cases hsucc

/-- A session that was found valid had been created. -/
theorem drawn_of_valid (hr : Recorded state start cfg)
    (hlog : cfg.log = before ++ ⟨i, .isSessionValid userId sessionId, true⟩ :: later) :
    sessionId ∈ start.drawn ∨ ∃ e ∈ before, Draws e sessionId := by
  obtain ⟨ω, db, db', hl, he⟩ := hr.explained _ _ _ hlog
  have hvalid : db.isSessionValid userId sessionId = true := (Prod.ext_iff.mp (Option.some.inj he)).1
  obtain ⟨row, hrow, hid⟩ := List.any_eq_true.mp hvalid
  simp only [AuthDb.isSession, Bool.and_eq_true, decide_eq_true_eq] at hid
  rw [← hid.1.2]
  exact (hl.drawn _).mp (hl.rows row hrow)

theorem drawn_of_deleted (hr : Recorded state start cfg)
    (hlog : cfg.log = before ++ ⟨i, .deleteSession userId sessionId, true⟩ :: later) :
    sessionId ∈ start.drawn ∨ ∃ e ∈ before, Draws e sessionId := by
  obtain ⟨ω, db, db', hl, he⟩ := hr.explained _ _ _ hlog
  have hfound : (db.deleteSession userId sessionId).1 = true :=
    (Prod.ext_iff.mp (Option.some.inj he)).1
  obtain ⟨row, hrow, hid⟩ := List.any_eq_true.mp hfound
  simp only [AuthDb.isSession, decide_eq_true_eq] at hid
  rw [← hid.2]
  exact (hl.drawn _).mp (hl.rows row hrow)

theorem drawn_before {before' : List AuthEvent} (hsub : before' ⊆ before)
    (h : sessionId ∈ start.drawn ∨ ∃ e ∈ before', Draws e sessionId) :
    sessionId ∈ start.drawn ∨ ∃ e ∈ before, Draws e sessionId :=
  h.imp_right fun ⟨e, he, hd⟩ => ⟨e, hsub he, hd⟩

/-- Only a valid session gets into the cache. -/
theorem valid_of_cached (hr : Recorded state start cfg) {value : String} {seconds : Nat}
    {ans : Except RedisError Unit}
    (hlog : cfg.log = before ++ ⟨i, .redis (.setEx (sessionKey sessionId) value seconds), ans⟩ ::
      later) :
    ∃ userId, (eventsOf i before).getLast? = some ⟨.isSessionValid userId sessionId, true⟩ := by
  obtain ⟨req, -, hperm⟩ := hr.permitted hlog
  rcases hperm with ⟨purpose, subject, -, heq⟩ | hs | ⟨_, _, userId, sessionId', -, -, hlast, heq⟩
  · exact absurd heq.symm (OtpPurpose.key_ne (by simp [sessionKey]))
  · obtain ⟨_, _, _, _, _, _, _, _, _, -, heq, -⟩ := hs
    exact absurd heq.symm (refreshKey_ne_sessionKey _ _ _)
  · obtain rfl := sessionKey_inj heq
    exact ⟨userId, hlast⟩

theorem drawn_of_admitted (hr : Recorded state start cfg) (hlog : cfg.log = before ++ later)
    (h : Admitted (eventsOf i before) sessionId) :
    sessionId ∈ start.drawn ∨ ∃ e ∈ before, Draws e sessionId := by
  rcases h with ⟨value, hm⟩ | ⟨userId, hm⟩
  · obtain ⟨first, rest, rfl⟩ := List.append_of_mem (mem_eventsOf.mp hm)
    rw [List.append_assoc, List.cons_append] at hlog
    obtain ⟨first', j, seconds, ans, rest', rfl, -⟩ :=
      hr.kept_of_get hlog (not_counterKey_sessionKey sessionId)
    rw [List.append_assoc, List.cons_append] at hlog
    obtain ⟨userId, hlast⟩ := valid_of_cached hr hlog
    obtain ⟨first'', rest'', rfl⟩ := List.append_of_mem (mem_eventsOf.mp (List.mem_of_getLast? hlast))
    rw [List.append_assoc, List.cons_append] at hlog
    exact drawn_before (by simp) (drawn_of_valid hr hlog)
  · obtain ⟨first, rest, rfl⟩ := List.append_of_mem (mem_eventsOf.mp hm)
    rw [List.append_assoc, List.cons_append] at hlog
    exact drawn_before (by simp) (drawn_of_valid hr hlog)

/-- A session exists before its revocation. -/
theorem Revoking.drawn (hr : Recorded state start cfg) (h : Revoking cfg j sessionId) :
    ∃ before userId existed later,
      cfg.log = before ++ ⟨j, .deleteSession userId sessionId, existed⟩ :: later ∧
      (sessionId ∈ start.drawn ∨ ∃ e ∈ before, Draws e sessionId) := by
  obtain ⟨userId, existed, hm, hkind⟩ := h
  obtain ⟨before, later, hlog⟩ := List.append_of_mem hm
  refine ⟨before, userId, existed, later, hlog, ?_⟩
  rcases hkind with ⟨authHeader, hreq⟩ | rfl
  · obtain ⟨authHeader', heq | ⟨-, -, hadmitted, -⟩⟩ := hr.permitted_of hreq hlog
    · cases heq
    · exact drawn_of_admitted hr hlog hadmitted
  · exact drawn_of_deleted hr hlog

theorem Revoking.request (hr : Recorded state start cfg) (h : Revoking cfg j sessionId) :
    ∃ authHeader route, cfg.request j = some (.withAuth authHeader route) := by
  obtain ⟨userId, existed, hm, -⟩ := h
  obtain ⟨before, later, hlog⟩ := List.append_of_mem hm
  obtain ⟨req, hreq, authHeader, rfl | ⟨rfl, -⟩⟩ := hr.permitted hlog <;> exact ⟨_, _, hreq⟩

theorem draws_of_upserted {e : AuthEvent} (h : e.cmd.upserted e.ans = some sessionId) :
    Draws e sessionId ∧ e.cmd.deleted = none := by
  obtain ⟨i, cmd, ans⟩ := e
  cases cmd <;> first | cases h | exact ⟨h, rfl⟩

/-- No task behind the middleware gets a session. -/
theorem not_withAuth_of_upserted (hr : Recorded state start cfg) {e : AuthEvent} (he : e ∈ cfg.log)
    (h : e.cmd.upserted e.ans = some sessionId) (authHeader : Option String) (route : Route) :
    cfg.request e.task ≠ some (.withAuth authHeader route) := by
  obtain ⟨before, later, hlog⟩ := List.append_of_mem he
  obtain ⟨i, cmd, ans⟩ := e
  intro hreq
  have hperm := hr.permitted_of hreq hlog
  cases cmd <;> first | cases h | exact hperm

section Step

variable {c : AuthConfig} {r : AuthReq} {cmd : AuthCmd}
  {next : cmd.Ans → AuthProg (Except ApiError Response)} {ans : cmd.Ans} {db' : AuthDb} {ω : Env}

/-- When a task is at work, no other one has revoked the session that it has got. -/
theorem Revoking.not_upserted (hr : Recorded state start c) (hs : System.Serial c)
    (ht : c.tasks[i]? = some (r, .call cmd next)) (h : Revoking c j sessionId) :
    ¬ ∃ e ∈ c.log, e.task = i ∧ e.cmd.upserted e.ans = some sessionId := by
  rintro ⟨e, hm, rfl, hup⟩
  obtain ⟨authHeader, route, hreq⟩ := h.request hr
  obtain ⟨before, userId, existed, later, hlog, hdrawn⟩ := h.drawn hr
  have hle : j ≤ e.task := hs.le_of_unfinished ht rfl (hr.replays.1 ⟨j, _, existed⟩ (by simp [hlog]))
  have hne : j ≠ e.task := fun heq => not_withAuth_of_upserted hr hm hup authHeader route (heq ▸ hreq)
  have hsorted := hs.sorted
  rw [hlog, List.pairwise_append] at hsorted
  obtain ⟨hdraws, hdel⟩ := draws_of_upserted hup
  rw [hlog, List.mem_append, List.mem_cons] at hm
  rcases hm with hm | rfl | hm
  · have hge : e.task ≤ j := hsorted.2.2 _ hm _ List.mem_cons_self
    omega
  · cases hdel
  · obtain ⟨between, rest, rfl⟩ := List.append_of_mem hm
    rw [← List.cons_append, ← List.append_assoc] at hlog
    exact hr.fresh hlog hdraws (drawn_before (by simp) hdrawn)

theorem Revoking.of_after (ht : c.tasks[i]? = some (r, .call cmd next))
    (h : Revoking ⟨c.after i cmd ans db', c.tasks.set i (r, next ans)⟩ j sessionId) :
    Revoking c j sessionId ∨ j = i ∧ ∃ userId, cmd = .deleteSession userId sessionId ∧
      ((∃ authHeader, r = .withAuth authHeader .logout) ∨ HEq ans true) := by
  obtain ⟨userId, existed, hm, hkind⟩ := h
  rw [Config.request_set ht] at hkind
  rcases List.mem_append.mp hm with hm | hm
  · exact .inl ⟨userId, existed, hm, hkind⟩
  · obtain ⟨rfl, rfl, hans⟩ := Event.mk.inj (List.mem_singleton.mp hm)
    obtain rfl := eq_of_heq hans
    refine .inr ⟨rfl, userId, rfl, hkind.imp (fun ⟨authHeader, hreq⟩ => ⟨authHeader, ?_⟩) heq_of_eq⟩
    exact Option.some.inj ((Config.request_eq ht).symm.trans hreq)

end Step

/-- No token of a revoked session is stored, and a later request has not found one. -/
structure Shut (state : AuthState) (c : AuthConfig) : Prop where
  dead : ∀ j sessionId token, Revoking c j sessionId → IssuedFor state c sessionId token →
    c.db.redis.lookup (refreshKey state token) = none
  unfound : ∀ j k sessionId token value, Revoking c j sessionId → IssuedFor state c sessionId token →
    j < k → ⟨k, .redis (.get (refreshKey state token)), some value⟩ ∉ c.log

section Step

variable {c : AuthConfig} {r : AuthReq} {cmd : AuthCmd}
  {next : cmd.Ans → AuthProg (Except ApiError Response)} {ans : cmd.Ans} {db' : AuthDb} {ω : Env}

theorem stays_dead
    (hr' : Recorded state start ⟨c.after i cmd ans db', c.tasks.set i (r, next ans)⟩)
    (hsha : state.DistinctHashes) (hperm : Permitted state r (c.history i) cmd)
    (he : AuthDb.exec ω.toChoice cmd c.db = some (ans, db'))
    (hissued : IssuedFor state c sessionId token)
    (hdead : c.db.redis.lookup (refreshKey state token) = none) :
    db'.redis.lookup (refreshKey state token) = none := by
  by_contra hlive
  obtain ⟨entry, hentry⟩ := Option.ne_none_iff_exists'.mp hlive
  rcases AuthDb.exec_value he (not_counterKey_refreshKey state token) hentry with
    ⟨old, hold, -⟩ | ⟨seconds, rfl⟩ | rfl
  · simp [hdead] at hold
  · obtain ⟨before, ⟨i', cmd', ans'⟩, later, hlog, hstores, -⟩ := hissued
    obtain ⟨value, seconds', rfl⟩ := AuthCmd.eq_of_stores hstores
    have hlog' : (c.after i _ ans db').log = before ++ ⟨i', _, ans'⟩ :: (later ++ [⟨i, _, ans⟩]) := by
      simp [hlog]
    exact Recorded.stored_once hr' hsha hlog' i entry.value seconds ans (by simp)
  · exact hperm

theorem shut_step (hr : Recorded state start c)
    (hr' : Recorded state start ⟨c.after i cmd ans db', c.tasks.set i (r, next ans)⟩)
    (hs : System.Serial c) (hsha : state.DistinctHashes) (hc : Shut state c)
    (hcleared : Cleared state c (.step i ω)) (ht : c.tasks[i]? = some (r, .call cmd next))
    (hperm : Permitted state r (c.history i) cmd)
    (he : AuthDb.exec ω.toChoice cmd c.db = some (ans, db')) :
    Shut state ⟨c.after i cmd ans db', c.tasks.set i (r, next ans)⟩ where
  dead := by
    intro j sessionId token hrev hissued
    rcases occurs_snoc.mp hissued with hold | ⟨hstores, hup⟩
    · refine stays_dead hr' hsha hperm he hold ?_
      rcases hrev.of_after ht with hrev' | ⟨rfl, userId, rfl, hkind⟩
      · exact hc.dead j sessionId token hrev' hold
      · refine hcleared j ω r userId sessionId next rfl ht (hkind.imp_right fun hans => ?_) token hold
        rw [(Prod.ext_iff.mp (Option.some.inj he)).1]
        exact eq_of_heq hans
    · rcases hrev.of_after ht with hrev' | ⟨-, userId, heq, -⟩
      · exact absurd hup (hrev'.not_upserted hr hs ht)
      · obtain rfl := heq
        cases hstores
  unfound := by
    intro j k sessionId token value hrev hissued hlt hm
    rcases hrev.of_after ht with hrev' | ⟨rfl, userId, rfl, -⟩
    · rcases occurs_snoc.mp hissued with hold | ⟨-, hup⟩
      · rcases List.mem_append.mp hm with hm | hm
        · exact hc.unfound j k sessionId token value hrev' hold hlt hm
        · obtain ⟨rfl, rfl, hans⟩ := Event.mk.inj (List.mem_singleton.mp hm)
          obtain rfl := eq_of_heq hans
          have hvalue := (Prod.ext_iff.mp (Option.some.inj he)).1
          have hdead := hc.dead j sessionId token hrev' hold
          simp [AuthDb.onRedis, Store.exec, hdead] at hvalue
      · exact hrev'.not_upserted hr hs ht hup
    · -- no later task can have issued anything yet
      rcases List.mem_append.mp hm with hm | hm
      · have hle := hs.le_of_unfinished ht rfl (hr.replays.1 _ hm)
        exact absurd hlt (Nat.not_lt.mpr hle)
      · cases List.mem_singleton.mp hm

end Step

/-- The moves of requests that execute alone, with the refresh tokens cleared in time. -/
def ClearsAlone (state : AuthState) (c : AuthConfig) (a : AuthAct) : Prop :=
  System.Alone c a ∧ Cleared state c a

section Runs

variable {now : Nat} {users : AList (fun _ : Uuid => UserRow)}
  {sessions : AList (fun _ : Uuid × String => SessionRow)}

theorem Revoking.of_spawn (hr : Recorded state start cfg) {t : AuthReq × AuthProg (Except ApiError Response)}
    (h : Revoking { cfg with tasks := cfg.tasks ++ [t] } j sessionId) : Revoking cfg j sessionId := by
  obtain ⟨userId, existed, hm, hkind⟩ := h
  rw [Config.request_spawn (hr.replays.1 _ hm)] at hkind
  exact ⟨userId, existed, hm, hkind⟩

theorem reach_shut (hsha : state.DistinctHashes) (h : (authServer state).Reach (ClearsAlone state)
    (System.start (.init now users sessions)) cfg) : Shut state cfg := by
  induction h with
  | refl =>
    constructor
    · rintro j sessionId token ⟨_, _, hm, -⟩
      cases hm
    · rintro j k sessionId token value ⟨_, _, hm, -⟩
      cases hm
  | tail hreach hp ha ih =>
    have hr := reach_recorded hreach
    have hr' := reach_recorded (hreach.tail hp ha)
    have hs : System.Serial _ := hreach.serial fun _ _ hp => hp.1
    obtain ⟨r, rfl, rfl⟩ | ⟨i, ω, r, cmd, k, ans, s, rfl, ht, he, rfl⟩ | ⟨ω, s, rfl, ht, rfl⟩ :=
      System.apply_cases ha
    · exact ⟨fun j sessionId token hrev => ih.dead j sessionId token (hrev.of_spawn hr),
        fun j k sessionId token value hrev => ih.unfound j k sessionId token value (hrev.of_spawn hr)⟩
    · exact shut_step hr hr' hs hsha ih hp.2 ht (hr.replays.follows (handle_permitted state) ht).1 he
    · obtain rfl := Option.some.inj ht
      refine ⟨fun j sessionId token hrev hissued => ?_, ih.unfound⟩
      rw [Store.lookup_wait, ih.dead j sessionId token hrev hissued, Option.filter_none]

end Runs

/-- In a run whose requests execute alone, no revoked session is refreshed if no refresh token
of a session is stored when it is deleted. -/
theorem revoked_not_refreshed (state : AuthState) (hsha : state.DistinctHashes) (now : Nat)
    (users : AList (fun _ : Uuid => UserRow)) (sessions : AList (fun _ : Uuid × String => SessionRow))
    (acts : List AuthAct)
    (h : (authServer state).Every (ClearsAlone state) acts (System.start (.init now users sessions))) :
    RevocationHolds state
      ((authServer state).trace acts (System.start (.init now users sessions))) := by
  intro d hd j k sessionId token hrev hissued hlt hacc
  have hreach := System.reach_of_mem_trace h hd
  have hr := reach_recorded hreach
  obtain ⟨value, hm⟩ := hacc.found hr
  exact (reach_shut hsha hreach).unfound j k sessionId token value (hrev.revoking hr) hissued hlt hm

/-- No refresh token at all is stored. -/
def noneStored (c : AuthConfig) : Bool :=
  c.log.all fun e => match e.cmd with
    | .redis (.setEx key _ _) =>
      key.toList.take 8 ≠ "refresh:".toList || (c.db.redis.lookup key).isNone
    | _ => true

def deletesSession (c : AuthConfig) : AuthAct → Bool
  | .step j _ => match c.tasks[j]? with
    | some (_, .call (.deleteSession ..) _) => true
    | _ => false
  | _ => false

theorem cleared_of_noneStored {a : AuthAct} (h : deletesSession cfg a → noneStored cfg) :
    Cleared state cfg a := by
  rintro j ω req userId sessionId k rfl ht - token ⟨before, ⟨i, cmd, ans⟩, later, hlog, hstores, -⟩
  obtain ⟨value, seconds, rfl⟩ := AuthCmd.eq_of_stores hstores
  have hall := List.all_eq_true.mp (h (by simp [deletesSession, ht])) ⟨i, _, ans⟩ (by simp [hlog])
  simpa [refreshKey] using hall

/-- With short-lived refresh tokens: Alice logs in, gets her session cached, and logs out after
her refresh token has expired. -/
def lateLogout : List AuthAct :=
  aliceLogin ++ [.spawn (.withAuth aliceBearer .listSessions)] ++ moves 2 6 ++
    [.tick ⟨⟨.nil, 0⟩, 700000⟩, .spawn (.withAuth aliceBearer .logout)] ++ moves 3 6 ++
    [.spawn (.refresh aliceRefreshToken)] ++ moves 4 1

def briefServer : AuthState := { aliceServer with refreshTtl := 600 }

theorem lateLogout_clears : (authServer briefServer).Every (ClearsAlone briefServer) lateLogout
    aliceStart := by
  have hcheck : (authServer briefServer).Every
      (fun c a => System.Alone c a ∧ (deletesSession c a → noneStored c)) lateLogout aliceStart := by
    have hbearer : ∀ authHeader route, .spawn (.withAuth authHeader route) ∈ lateLogout →
        authHeader = aliceBearer := by
      intro authHeader route hm
      have hcases : (authHeader = aliceBearer ∧ route = .listSessions) ∨
          authHeader = aliceBearer ∧ route = .logout := by
        simpa [lateLogout] using hm
      exact hcases.elim And.left And.left
    rw [System.every_congr (handler_alice briefServer hbearer)]
    decide +kernel
  exact hcheck.mono fun c a h => ⟨h.1, cleared_of_noneStored h.2⟩

theorem late_logout_not_refreshed :
    RevocationHolds briefServer ((authServer briefServer).trace lateLogout aliceStart) :=
  revoked_not_refreshed briefServer aliceServer_distinctHashes 1700000000000 aliceUsers ∅ lateLogout
    lateLogout_clears

/-- Alice logs out, and then refreshes. -/
def refreshAfterLogout : List AuthAct :=
  aliceLogin ++ [.spawn (.withAuth aliceBearer .logout)] ++ moves 2 8 ++
    [.spawn (.refresh aliceRefreshToken)] ++ moves 3 2

theorem refreshed_after_logout :
    ¬ RevocationHolds aliceServer ((authServer aliceServer).trace refreshAfterLogout aliceStart) := by
  intro h
  have hrun : ∃ d ∈ ((authServer aliceServer).trace refreshAfterLogout aliceStart).getLast?,
      Revokes d 2 aliceSessionId ∧ IssuedFor aliceServer d aliceSessionId aliceRefreshToken ∧
      Accepts aliceServer d 3 aliceRefreshToken := by
    have hbearer : ∀ authHeader route, .spawn (.withAuth authHeader route) ∈ refreshAfterLogout →
        authHeader = aliceBearer := by
      intro authHeader route hm
      have heq : authHeader = aliceBearer ∧ route = .logout := by
        simpa [refreshAfterLogout] using hm
      exact heq.1
    rw [System.trace_congr (handler_alice aliceServer hbearer)]
    decide +kernel
  obtain ⟨d, hd, hrev, hissued, hacc⟩ := hrun
  exact h d (List.mem_of_getLast? hd) 2 3 _ _ hrev hissued (by decide) hacc

end Mesty.Auth.Revocation
