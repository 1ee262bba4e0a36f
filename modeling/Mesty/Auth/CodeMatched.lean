import Mesty.Auth.RefreshTokens
import Mesty.Auth.TokenPairs
import Mesty.Auth.TwoFactor

namespace Mesty.Auth.CodeMatched

open Mesty.Base.Ids Mesty.Base.Error Mesty.Concurrency.Program Mesty.Concurrency.Pool
open Mesty.Redis.Server
open Mesty.Auth.Entities Mesty.Auth.Otp Mesty.Auth.Repository Mesty.Auth.Services
open Mesty.Auth.Handlers Mesty.Auth.Middleware Mesty.Auth.Permits Mesty.Auth.Records
open Mesty.Auth.RefreshTokens Mesty.Auth.TokenPairs Mesty.Auth.TwoFactor

/-- Right after `first`, task `j` stored the code for the subject, and task `i` matched it later. -/
def Redeems (log first : List AuthEvent) (j i : Nat) (purpose : OtpPurpose)
    (subject code : String) : Prop :=
  ∃ seconds ans rest,
    log = first ++ ⟨j, .redis (.setEx (purpose.key subject) code seconds), ans⟩ :: rest ∧
    ⟨i, .verifyOtp purpose subject code, .ok .matched⟩ ∈ rest

/-- Task `i` is a `login_verify` that has matched a code which a `login` stored for exactly
the phone of the user. -/
def LoginMatched (c : AuthConfig) (log : List AuthEvent) (i : Nat) (user : User) : Prop :=
  ∃ r first j clientIp login, c.request i = some (.loginVerify r) ∧
    c.request j = some (.login clientIp login) ∧ login.phone = user.phone.value ∧
    Redeems log first j i .login user.phone.value r.code

/-- What a session that task `i` gets for the user goes back to. -/
inductive Grounded (state : AuthState) (start : AuthDb) (c : AuthConfig) :
    List AuthEvent → Nat → Uuid → Prop where
  | verifyPhone {log first i j r clientIp register user}
      (hreq : c.request i = some (.verifyPhone r))
      (hstored : c.request j = some (.register clientIp register))
      (hphone : register.phone = user.phone.value)
      (hmatched : Redeems log first j i .register user.phone.value r.code)
      (hcreated : ⟨i, .insertUser user, .ok ()⟩ ∈ log) : Grounded state start c log i user.id
  | loginVerify {log before later i user} (hmatched : LoginMatched c before i user)
      (hlog : log = before ++ ⟨i, .findByPhone user.phone, some user⟩ :: later)
      (htwo : user.twoFaEnabled = false) (hnever : ¬ TwoFaSet start before user.id) :
      Grounded state start c log i user.id
  | twoFaVerify {log first i j r user} (hreq : c.request i = some (.twoFaVerify r))
      (hlogin : LoginMatched c first j user)
      (hmatched : Redeems log first j i .twoFaLogin user.id.toString r.code) :
      Grounded state start c log i user.id
  | refresh {log first rest i j token json seconds ans userId deviceId deviceName deviceType
        pushToken expiresAt sessionId session} (hreq : c.request i = some (.refresh token))
      (hlog : log = first ++ ⟨j, .redis (.setEx (refreshKey state token) json seconds), ans⟩ :: rest)
      (hget : ⟨i, .redis (.get (refreshKey state token)), some json⟩ ∈ rest)
      (hjson : state.fromJson json = .ok session) (huser : session.userId = userId.toString)
      (hsession : session.sessionId = Uuid.toString sessionId)
      (hissued : ⟨j, .upsertSession userId deviceId deviceName deviceType pushToken expiresAt,
        .ok sessionId⟩ ∈ first)
      (hfirst : Grounded state start c first j userId) : Grounded state start c log i userId

section Mono

variable {log log' first : List AuthEvent} {i j : Nat} {purpose : OtpPurpose}
  {subject code : String} {c : AuthConfig} {user : User} {userId : Uuid} {state : AuthState}
  {start : AuthDb}

theorem Redeems.mono (h : Redeems log first j i purpose subject code) (hle : log <+: log') :
    Redeems log' first j i purpose subject code := by
  obtain ⟨seconds, ans, rest, rfl, hm⟩ := h
  obtain ⟨more, rfl⟩ := hle
  exact ⟨seconds, ans, rest ++ more, by simp, List.mem_append_left _ hm⟩

theorem LoginMatched.mono (h : LoginMatched c log i user) (hle : log <+: log') :
    LoginMatched c log' i user := by
  obtain ⟨r, first, j, clientIp, login, hreq, hstored, hphone, hmatched⟩ := h
  exact ⟨r, first, j, clientIp, login, hreq, hstored, hphone, hmatched.mono hle⟩

theorem Grounded.mono (h : Grounded state start c log i userId) (hle : log <+: log') :
    Grounded state start c log' i userId := by
  obtain ⟨more, rfl⟩ := id hle
  cases h with
  | verifyPhone hreq hstored hphone hmatched hcreated =>
    exact .verifyPhone hreq hstored hphone (hmatched.mono hle) (List.mem_append_left _ hcreated)
  | loginVerify hmatched hlog htwo hnever =>
    exact .loginVerify hmatched (by rw [hlog, List.append_assoc, List.cons_append]) htwo hnever
  | twoFaVerify hreq hlogin hmatched => exact .twoFaVerify hreq hlogin (hmatched.mono hle)
  | refresh hreq hlog hget hjson huser hsession hissued hfirst =>
    exact .refresh hreq (by rw [hlog, List.append_assoc, List.cons_append])
      (List.mem_append_left _ hget) hjson huser hsession hissued hfirst

end Mono

theorem storesOtp_of_permitted {state : AuthState} {req : AuthReq} {hist : History}
    {purpose : OtpPurpose} {subject value : String} {seconds : Nat}
    (h : Permitted state req hist (.redis (.setEx (purpose.key subject) value seconds))) :
    StoresOtp req hist purpose subject := by
  obtain ⟨purpose', subject', hs, heq⟩ | hs | ⟨_, _, _, sessionId, -, -, -, heq⟩ := h
  · obtain ⟨rfl, rfl⟩ := OtpPurpose.key_inj.mp heq
    exact hs
  · obtain ⟨_, _, _, _, _, _, _, _, _, -, heq, -⟩ := hs
    exact absurd heq (OtpPurpose.key_ne (by simp [refreshKey]))
  · exact absurd heq (OtpPurpose.key_ne (by simp [sessionKey]))

/-- Before `login_verify` looks for the user, it has matched the code. -/
def MatchesFirst (req : AuthReq) (h : History) (c : AuthCmd) : Prop :=
  ∀ r phone, req = .loginVerify r → c = .findByPhone phone → Matched h .login r.phone r.code

theorem handle_matchesFirst (state : AuthState) (req : AuthReq) :
    (req.handle state).run.Follows (MatchesFirst req) (fun _ _ => True) [] := by
  by_cases hlogin : ∃ r, req = .loginVerify r
  · obtain ⟨r, rfl⟩ := hlogin
    refine (follows_query _ _).mpr ⟨fun _ _ _ => nofun, fun answer => ?_⟩
    refine (follows_liftError _ _ _).mpr ⟨fun result hr => ?_, fun _ _ => trivial⟩
    subst hr
    cases result with
    | matched =>
      refine Prog.follows_of_prefix (fun h' c hle r' phone heq _ => ?_) (fun _ _ _ => trivial) _
      cases heq
      exact hle.subset (by simp)
    | invalid | exceeded | notFound => trivial
  · exact Prog.follows_of_prefix (fun h' c _ r phone heq => absurd ⟨r, heq⟩ hlogin)
      (fun _ _ _ => trivial) _

section Runs

variable {state : AuthState} {P : AuthConfig → AuthAct → Prop} {cfg : AuthConfig} {now : Nat}
  {users : AList (fun _ : Uuid => UserRow)} {sessions : AList (fun _ : Uuid × String => SessionRow)}
  {start : AuthDb} {before later : List AuthEvent} {i : Nat} {userId : Uuid}

theorem Recorded.redeems (hr : Recorded state start cfg) (hlog : cfg.log = before ++ later)
    {purpose : OtpPurpose} {subject code : String} (hcolon : ':' ∉ subject.toList)
    (hm : Matched (eventsOf i before) purpose subject code) :
    ∃ first j req, Redeems before first j i purpose subject code ∧
      cfg.request j = some req ∧ StoresOtp req (eventsOf j first) purpose subject := by
  obtain ⟨before', rest, rfl⟩ := List.append_of_mem (mem_eventsOf.mp hm)
  rw [List.append_assoc, List.cons_append] at hlog
  obtain ⟨ω, db, db', hledger, he⟩ := hr.explained _ _ _ hlog
  obtain ⟨hans, -⟩ := Prod.mk.inj (Option.some.inj he)
  obtain ⟨entry, hentry, rfl⟩ := code_of_matched hans
  obtain ⟨first, j, seconds, ans, between, rfl, -⟩ :=
    hledger.stored _ entry hentry (not_counterKey_key purpose hcolon)
  rw [List.append_assoc, List.cons_append] at hlog
  obtain ⟨req, hreq, hperm⟩ := hr.permitted hlog
  refine ⟨first, j, req, ⟨seconds, ans, between ++ ⟨i, .verifyOtp purpose subject entry.value,
    .ok .matched⟩ :: rest, ?_, by simp⟩, hreq, storesOtp_of_permitted hperm⟩
  rw [List.append_assoc, List.cons_append]

/-- A `login_verify` that has got as far as to find a user has matched a code for the phone. -/
theorem loginMatched (h : (authServer state).Reach P (System.start (.init now users sessions)) cfg)
    {r : LoginVerifyRequest} {phone : PhoneNumber} {user : User}
    (hreq : cfg.request i = some (.loginVerify r))
    (hlog : cfg.log = before ++ ⟨i, .findByPhone phone, some user⟩ :: later)
    (hphone : phone.value = r.phone) : user.phone = phone ∧ LoginMatched cfg before i user := by
  have hr := reach_recorded h
  obtain ⟨ω, db, db', -, he⟩ := hr.explained _ _ _ hlog
  obtain ⟨rfl, -⟩ := AuthDb.findByPhone_eq_some (Prod.mk.inj (Option.some.inj he)).1
  obtain ⟨req, p, ht, hfirst⟩ := hr.replays.followed (handle_matchesFirst state) hlog
  obtain rfl := Option.some.inj (hreq.symm.trans (Config.request_eq ht))
  have hm := hfirst r _ rfl rfl
  rw [← hphone] at hm
  obtain ⟨first, j, _, hredeems, hj, clientIp, login, rfl, heq⟩ :=
    Recorded.redeems hr hlog user.phone.colon_notMem hm
  exact ⟨rfl, r, first, j, clientIp, login, hreq, hj, heq.symm, hredeems⟩

theorem grounded_verifyPhone (hr : Recorded state start cfg) {r : VerifyPhoneRequest}
    (hreq : cfg.request i = some (.verifyPhone r)) (hlog : cfg.log = before ++ later)
    (ha : Authorised state (.verifyPhone r) (eventsOf i before) userId) :
    Grounded state start cfg before i userId := by
  obtain ⟨user, hm, hcreated, hphone, rfl⟩ := ha
  rw [← hphone] at hm
  obtain ⟨first, j, _, hredeems, hj, clientIp, register, rfl, heq⟩ :=
    Recorded.redeems hr hlog user.phone.colon_notMem hm
  exact .verifyPhone hreq hj heq.symm hredeems (mem_eventsOf.mp hcreated)

theorem grounded_loginVerify
    (h : (authServer state).Reach P (System.start (.init now users sessions)) cfg)
    {r : LoginVerifyRequest} (hreq : cfg.request i = some (.loginVerify r))
    (hlog : cfg.log = before ++ later)
    (ha : Authorised state (.loginVerify r) (eventsOf i before) userId) :
    Grounded state (.init now users sessions) cfg before i userId := by
  obtain ⟨phone, user, -, hfound, hphone, htwo, rfl⟩ := ha
  obtain ⟨before', rest, rfl⟩ := List.append_of_mem (mem_eventsOf.mp hfound)
  rw [List.append_assoc, List.cons_append] at hlog
  obtain ⟨rfl, hmatched⟩ := loginMatched h hreq hlog hphone
  exact .loginVerify hmatched rfl htwo (not_twoFaSet_of_found h hlog htwo)

theorem grounded_twoFaVerify
    (h : (authServer state).Reach P (System.start (.init now users sessions)) cfg)
    {r : TwoFactorChallengeRequest} (hreq : cfg.request i = some (.twoFaVerify r))
    (hlog : cfg.log = before ++ later)
    (ha : Authorised state (.twoFaVerify r) (eventsOf i before) userId) :
    Grounded state start cfg before i userId := by
  obtain ⟨id, found, hm, hfound, rfl⟩ := ha
  obtain ⟨first, j, _, hredeems, hj, login, phone, user, rfl, -, hphone, hvalue, heq⟩ :=
    Recorded.redeems (reach_recorded h) hlog id.colon_notMem_toString hm
  obtain rfl := Uuid.toString_injective heq
  obtain ⟨hid, -⟩ := (reach_enrolment h).found i user.id found
    (by simp [hlog, mem_eventsOf.mp hfound])
  rw [hid]
  obtain ⟨first', rest, rfl⟩ := List.append_of_mem (mem_eventsOf.mp hphone)
  obtain ⟨seconds, ans, rest', hbefore, -⟩ := id hredeems
  rw [hbefore, List.append_assoc, List.append_assoc, List.cons_append] at hlog
  obtain ⟨-, hmatched⟩ := loginMatched h hj hlog hvalue
  exact .twoFaVerify hreq (hmatched.mono (List.prefix_append _ _)) hredeems

/-- A refresh finds what an earlier request stored with a session of the same user. -/
theorem grounded_refresh
    (h : (authServer state).Reach P (System.start (.init now users sessions)) cfg)
    (hjson : state.JsonRoundTrip) {token : String} (hreq : cfg.request i = some (.refresh token))
    (hlog : cfg.log = before ++ later)
    (ha : Authorised state (.refresh token) (eventsOf i before) userId)
    (hchain : ∀ first rest j deviceId deviceName deviceType pushToken expiresAt sessionId,
      before = first ++ ⟨j, .upsertSession userId deviceId deviceName deviceType pushToken expiresAt,
        .ok sessionId⟩ :: rest → Grounded state start cfg first j userId) :
    Grounded state start cfg before i userId := by
  have hr := reach_recorded h
  obtain ⟨json, session, n, id, user, hget, hsession, -, hparse, hfound, rfl⟩ := ha
  obtain ⟨hid, -⟩ := (reach_enrolment h).found i id user (by simp [hlog, mem_eventsOf.mp hfound])
  obtain ⟨before', rest, rfl⟩ := List.append_of_mem (mem_eventsOf.mp hget)
  rw [List.append_assoc, List.cons_append] at hlog
  obtain ⟨first, j, seconds, ans, between, rfl, -⟩ :=
    hr.kept_of_get hlog (not_counterKey_refreshKey state token)
  rw [List.append_assoc, List.cons_append] at hlog
  obtain ⟨req, -, hperm⟩ := hr.permitted hlog
  obtain ⟨token', stored, owner, deviceId, deviceName, deviceType, pushToken, expiresAt, sessionId, -,
    -, htoJson, howner, hsid, hissued⟩ := storesRefresh_of_permitted hperm
  obtain rfl := Except.ok.inj ((hjson _ _ htoJson).symm.trans hsession)
  rw [howner, Uuid.parseStr_toString] at hparse
  obtain rfl := Option.some.inj hparse
  rw [hid] at hchain ⊢
  have hissued := mem_eventsOf.mp hissued
  obtain ⟨first', rest', rfl⟩ := List.append_of_mem hissued
  have hfirst := hchain first' _ j deviceId deviceName deviceType pushToken expiresAt sessionId
    (by rw [List.append_assoc, List.append_assoc]; rfl)
  refine .refresh (j := j) hreq (by rw [List.append_assoc]; rfl) ?_ hsession howner hsid hissued
    (hfirst.mono (List.prefix_append _ _))
  simp

/-- Every session goes back to a matched code, by induction on what came before it. -/
theorem grounded (h : (authServer state).Reach P (System.start (.init now users sessions)) cfg)
    (hjson : state.JsonRoundTrip) {deviceId deviceName deviceType : String}
    {pushToken : Option String} {expiresAt : Nat} {ans : Except DomainError Uuid}
    (hlog : cfg.log = before ++ ⟨i, .upsertSession userId deviceId deviceName deviceType pushToken
      expiresAt, ans⟩ :: later) :
    Grounded state (.init now users sessions) cfg before i userId := by
  induction hn : before.length using Nat.strong_induction_on generalizing before later i userId
    deviceId deviceName deviceType pushToken expiresAt ans with
  | h n ih =>
    have hr := reach_recorded h
    obtain ⟨req, hreq, ha⟩ := hr.permitted hlog
    cases req with
    | verifyPhone r => exact grounded_verifyPhone hr hreq hlog ha
    | loginVerify r => exact grounded_loginVerify h hreq hlog ha
    | twoFaVerify r => exact grounded_twoFaVerify h hreq hlog ha
    | refresh token =>
      refine grounded_refresh h hjson hreq hlog ha fun first rest j _ _ _ _ _ _ hbefore => ?_
      subst hbefore
      rw [List.append_assoc, List.cons_append] at hlog
      refine ih first.length ?_ hlog rfl
      rw [← hn, List.length_append, List.length_cons]
      omega
    | register | login | recover | recoverVerify | withAuth => exact ha.elim

/-- In every run, whoever is sent tokens is sent them for a user whose session goes back to a code
that was matched in the run, and no route behind the middleware is reached with a temporary token:
the request does nothing but read the clock, and is answered with 401. -/
theorem session_goes_back_to_matched_code (state : AuthState) (hjson : state.JsonRoundTrip)
    (now : Nat) (users : AList (fun _ : Uuid => UserRow))
    (sessions : AList (fun _ : Uuid × String => SessionRow)) (cfg : AuthConfig)
    (h : (authServer state).Reach (fun _ _ => True) (System.start (.init now users sessions)) cfg) :
    (∀ i req status response,
      cfg.tasks[i]? = some (req, .ret (.ok ⟨status, .tokens response⟩)) →
      ∃ userId, Pair state (cfg.history i) userId response ∧
        Grounded state (.init now users sessions) cfg cfg.log i userId) ∧
    ∀ i authHeader route p, cfg.tasks[i]? = some (.withAuth authHeader route, p) →
      CarriesTemp state.toAuthLib authHeader →
      (∀ e ∈ cfg.history i, e.1 = .utcNow) ∧
        ∀ out, p = .ret out → ∃ text, out = .ok (unauthorizedResponse text) := by
  have hreplays := h.replays
  refine ⟨fun i req status response ht => ?_, fun i authHeader route p ht htemp => ?_⟩
  · obtain ⟨userId, hpair⟩ := hreplays.follows handle_pairs ht status response rfl
    refine ⟨userId, hpair, ?_⟩
    obtain ⟨_, _, _, _, _, _, _, _, hissued, -⟩ := hpair
    obtain ⟨before, later, hlog⟩ := List.append_of_mem (World.mem_history.mp hissued)
    exact (grounded h hjson hlog).mono (hlog ▸ List.prefix_append _ _)
  · have hran := hreplays.2 i _ p ht
    have hrejected := withAuth_temp htemp route
    refine ⟨(hran.issues (hrejected.issues fun _ _ hc => hc)).1, fun out hout => ?_⟩
    subst hout
    exact hran.follows hrejected

end Runs

/-- Alice after her login. -/
def aliceSession : AuthConfig := (authServer aliceServer).run aliceLogin aliceStart

theorem alice_session_goes_back :
    Grounded aliceServer (.init 1700000000000 aliceUsers ∅) aliceSession aliceSession.log 1 aliceId := by
  obtain ⟨req, status, response, ht, huser⟩ : ∃ req status response, aliceSession.tasks[1]? =
      some (req, .ret (.ok ⟨status, .tokens response⟩)) ∧ response.user.id = aliceId.toString :=
    ⟨_, _, _, rfl, rfl⟩
  obtain ⟨userId, hpair, hgrounded⟩ := (session_goes_back_to_matched_code aliceServer
    aliceServer_jsonRoundTrip 1700000000000 aliceUsers ∅ aliceSession
    (System.reach_run aliceLogin aliceStart)).1 1 req status response ht
  obtain ⟨_, _, _, _, _, _, _, _, -, -, -, -, heq⟩ := hpair
  obtain rfl := Uuid.toString_injective (heq.symm.trans huser)
  exact hgrounded

end Mesty.Auth.CodeMatched
