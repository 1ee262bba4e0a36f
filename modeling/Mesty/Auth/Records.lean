import Mathlib.Data.List.Pairwise
import Mesty.Auth.Permits

namespace Mesty.Auth.Records

open Mesty.Base.Ids Mesty.Base.Error Mesty.Concurrency.Program Mesty.Concurrency.Pool
open Mesty.Redis.Server Mesty.Auth.Entities Mesty.Auth.Otp Mesty.Auth.Repository
open Mesty.Auth.Services Mesty.Auth.Handlers Mesty.Auth.Middleware Mesty.Auth.Permits

abbrev AuthEvent := Event AuthCmd AuthCmd.Ans

abbrev AuthWorld := World AuthCmd AuthCmd.Ans AuthDb

abbrev AuthConfig := Config AuthCmd AuthCmd.Ans AuthDb AuthReq (Except ApiError Response)

abbrev AuthAct := Act AuthReq Env

/-- The event creates the identifier. -/
def Draws (e : AuthEvent) (id : Uuid) : Prop := e.cmd.draws e.ans = some id

/-- The value was stored under the key, and the key was not deleted since. -/
def Kept (log : List AuthEvent) (key value : String) : Prop :=
  ∃ before i seconds ans later, log = before ++ ⟨i, .redis (.setEx key value seconds), ans⟩ :: later ∧
    ∀ j n, ⟨j, .redis (.del key), n⟩ ∉ later

theorem Kept.mem {log : List AuthEvent} {key value : String} (h : Kept log key value) :
    ∃ i seconds ans, ⟨i, .redis (.setEx key value seconds), ans⟩ ∈ log := by
  obtain ⟨before, i, seconds, ans, later, rfl, -⟩ := h
  exact ⟨i, seconds, ans, by simp⟩

theorem Kept.snoc {log : List AuthEvent} {key value : String} (h : Kept log key value) {e : AuthEvent}
    (he : e.cmd ≠ .redis (.del key)) : Kept (log ++ [e]) key value := by
  obtain ⟨before, i, seconds, ans, later, rfl, hdel⟩ := h
  refine ⟨before, i, seconds, ans, later ++ [e], by simp, fun j n hm => ?_⟩
  rcases List.mem_append.mp hm with hm | hm
  · exact hdel j n hm
  · obtain rfl := List.mem_singleton.mp hm
    exact he rfl

/-- What the log says about the database: no identifier is created twice, and all that Redis
has besides the counters was stored and not deleted. -/
structure Ledger (start : AuthDb) (w : AuthWorld) : Prop where
  drawn : ∀ id, id ∈ w.db.drawn ↔ id ∈ start.drawn ∨ ∃ e ∈ w.log, Draws e id
  rows : ∀ e ∈ w.db.sessions.entries, e.2.id ∈ w.db.drawn
  once : w.log.Pairwise (fun e e' => ∀ id, Draws e id → ¬ Draws e' id)
  stored : ∀ key entry, w.db.redis.lookup key = some entry → ¬ AuthDb.CounterKey key →
    Kept w.log key entry.value

variable {ω : Choice} {c : AuthCmd} {ans : c.Ans} {start db' : AuthDb} {w : AuthWorld}

/-- Only one event creates an identifier. -/
theorem Ledger.once_split (hw : Ledger start w) {before later : List AuthEvent}
    (hlog : w.log = before ++ later) {e e' : AuthEvent} (he : e ∈ before) (he' : e' ∈ later)
    {id : Uuid} (hd : Draws e id) : ¬ Draws e' id := by
  have honce := hw.once
  rw [hlog, List.pairwise_append] at honce
  exact honce.2.2 e he e' he' id hd

theorem Ledger.once_eq (hw : Ledger start w) {e e' : AuthEvent} (he : e ∈ w.log) (he' : e' ∈ w.log)
    {id : Uuid} (hd : Draws e id) (hd' : Draws e' id) : e = e' := by
  have : Std.Symm fun e e' : AuthEvent => ∀ id, Draws e id → ¬ Draws e' id :=
    { symm := fun _ _ h id hd hd' => h id hd' hd }
  by_contra hne
  exact hw.once.forall he he' hne id hd hd'

theorem ledger_init (now : Nat) (users : AList (fun _ : Uuid => UserRow))
    (sessions : AList (fun _ : Uuid × String => SessionRow)) :
    Ledger (.init now users sessions) ⟨.init now users sessions, []⟩ where
  drawn := by simp
  rows e he := List.mem_append_right _ (List.mem_map_of_mem he)
  once := .nil
  stored key entry h := by simp [AuthDb.init, Store.lookup_empty] at h

theorem ledger_after (hw : Ledger start w) (h : AuthDb.exec ω c w.db = some (ans, db'))
    (hincr : ∀ key, c ≠ .redis (.incr key)) (i : Nat) : Ledger start (w.after i c ans db') where
  drawn id := by
    simp only [World.after_db, World.after_log, (AuthDb.exec_drawn h).1, List.mem_append,
      hw.drawn id, Option.mem_toList, List.mem_singleton, or_and_right, exists_or, exists_eq_left]
    rw [or_comm, or_assoc]
    rfl
  rows := by
    intro e he
    rcases AuthDb.mem_sessions_exec h he with he | ⟨hd, -⟩
    · exact (AuthDb.exec_drawn h).1 ▸ List.mem_append_right _ (hw.rows e he)
    · exact hd
  once := by
    refine List.pairwise_append.mpr ⟨hw.once, List.pairwise_singleton _ _, fun e he e' he' id hd => ?_⟩
    rw [List.mem_singleton.mp he']
    exact fun hd' => (AuthDb.exec_drawn h).2 id hd' ((hw.drawn id).mpr (.inr ⟨e, he, hd⟩))
  stored := by
    intro key entry hl hkey
    rcases AuthDb.exec_value h hkey hl with ⟨old, hold, hv⟩ | ⟨seconds, rfl⟩ | heq
    · refine hv ▸ (hw.stored key old hold hkey).snoc ?_
      rintro rfl
      cases h
      simp [Store.exec] at hl
    · exact ⟨w.log, i, seconds, ans, [], rfl, by simp⟩
    · exact absurd heq (hincr key)

theorem ledger_wait (hw : Ledger start w) (ms : Nat) :
    Ledger start { w with db := { w.db with redis := w.db.redis.wait ms } } where
  drawn := hw.drawn
  rows := hw.rows
  once := hw.once
  stored key entry h := hw.stored key entry (Store.lookup_of_wait h)

theorem ne_incr_of_permitted {state : AuthState} {req : AuthReq} {hist : History}
    (h : Permitted state req hist c) (key : String) : c ≠ .redis (.incr key) := by
  rintro rfl
  exact h

theorem not_counterKey_sessionKey (sessionId : Uuid) : ¬ AuthDb.CounterKey (sessionKey sessionId) := by
  rintro (⟨purpose, subject, h⟩ | ⟨rateKey, h⟩)
  · rw [OtpPurpose.attemptsKey_key] at h
    exact OtpPurpose.key_ne (by simp [sessionKey]) h.symm
  · have hchars := congrArg String.toList h
    simp [sessionKey] at hchars

/-- Where there is no colon in the subject, its code has a key of its own. -/
theorem not_counterKey_key (purpose : OtpPurpose) {subject : String} (h : ':' ∉ subject.toList) :
    ¬ AuthDb.CounterKey (purpose.key subject) := by
  rintro (⟨purpose', subject', heq⟩ | ⟨rateKey, heq⟩)
  · rw [OtpPurpose.attemptsKey_key] at heq
    obtain ⟨-, rfl⟩ := OtpPurpose.key_inj.mp heq
    exact h (by simp)
  · exact OtpPurpose.key_ne (by simp) heq

theorem sessionKey_inj {sessionId sessionId' : Uuid} (h : sessionKey sessionId = sessionKey sessionId') :
    sessionId = sessionId' :=
  Uuid.toString_injective ((String.append_right_inj _).mp h)

section Runs

variable {state : AuthState} {P : AuthConfig → AuthAct → Prop} {cfg : AuthConfig} {now : Nat}
  {users : AList (fun _ : Uuid => UserRow)} {sessions : AList (fun _ : Uuid × String => SessionRow)}

/-- A run from any users and sessions and an empty Redis. -/
theorem reach_ledger
    (h : (authServer state).Reach P (System.start (.init now users sessions)) cfg) :
    Ledger (.init now users sessions) cfg.toWorld := by
  refine System.Reach.preserves (J := fun c => Ledger _ c.toWorld) (handle_permitted state)
    (ledger_init now users sessions) (fun _ _ hc => hc) ?_ ?_ h
  · intro c i ω r cmd k ans s _ hc _ _ hperm he _
    exact ledger_after hc he (ne_incr_of_permitted hperm) i
  · intro c ω s hc _ ht
    obtain rfl := Option.some.inj ht
    exact ledger_wait hc ω.ms

/-- How the events of a run came about. -/
structure Recorded (state : AuthState) (start : AuthDb) (cfg : AuthConfig) : Prop where
  replays : (authServer state).Replays cfg
  ledger : Ledger start cfg.toWorld
  explained : Backed (fun before e => ∃ ω : Env, ∃ db db', Ledger start ⟨db, before⟩ ∧
    AuthDb.exec ω.toChoice e.cmd db = some (e.ans, db')) cfg.log

theorem Recorded.permitted {start : AuthDb} (hr : Recorded state start cfg)
    {before later : List AuthEvent} {i : Nat} {c : AuthCmd} {ans : c.Ans}
    (hlog : cfg.log = before ++ ⟨i, c, ans⟩ :: later) :
    ∃ req, cfg.request i = some req ∧ Permitted state req (eventsOf i before) c := by
  obtain ⟨req, p, ht, hperm⟩ := hr.replays.followed (handle_permitted state) hlog
  exact ⟨req, Config.request_eq ht, hperm⟩

theorem Recorded.permitted_of {start : AuthDb} (hr : Recorded state start cfg)
    {before later : List AuthEvent} {i : Nat} {c : AuthCmd} {ans : c.Ans} {req : AuthReq}
    (hreq : cfg.request i = some req) (hlog : cfg.log = before ++ ⟨i, c, ans⟩ :: later) :
    Permitted state req (eventsOf i before) c := by
  obtain ⟨req', hreq', hperm⟩ := hr.permitted hlog
  obtain rfl := Option.some.inj (hreq.symm.trans hreq')
  exact hperm

/-- A value that a GET has found was kept. -/
theorem Recorded.kept_of_get {start : AuthDb} (hr : Recorded state start cfg)
    {before later : List AuthEvent} {i : Nat} {key value : String}
    (hlog : cfg.log = before ++ ⟨i, .redis (.get key), some value⟩ :: later)
    (hkey : ¬ AuthDb.CounterKey key) : Kept before key value := by
  obtain ⟨ω, db, db', hl, he⟩ := hr.explained _ _ _ hlog
  obtain ⟨hans, -⟩ := Prod.ext_iff.mp (Option.some.inj he)
  obtain ⟨entry, hentry, rfl⟩ := Option.map_eq_some_iff.mp hans
  exact hl.stored key entry hentry hkey

/-- What an event creates is new. -/
theorem Recorded.fresh {start : AuthDb} (hr : Recorded state start cfg)
    {before later : List AuthEvent} {e : AuthEvent} (hlog : cfg.log = before ++ e :: later) {id : Uuid}
    (hd : Draws e id) : ¬ (id ∈ start.drawn ∨ ∃ e' ∈ before, Draws e' id) := by
  obtain ⟨ω, db, db', hl, he⟩ := hr.explained _ _ _ hlog
  exact fun h => (AuthDb.exec_drawn he).2 id hd ((hl.drawn id).mpr h)

theorem reach_recorded
    (h : (authServer state).Reach P (System.start (.init now users sessions)) cfg) :
    Recorded state (.init now users sessions) cfg :=
  ⟨h.replays, reach_ledger h, h.explained reach_ledger⟩

end Runs

section Alice

def aliceId : Uuid := .ofNat 0x5b0f6c5293d14e0e9a530d6f2a7c41e8

def aliceSessionId : Uuid := .ofNat 0xc1a7e3b42f684d198b7e6e50f9d2a413

def aliceTokenId : Uuid := .ofNat 0x7d92b8f046ce4a3bb1d593f8e1c60a27

def alicePhone : String := "+573001234567"

def aliceRow : UserRow :=
  ⟨none, ⟨alicePhone, by decide⟩, "", none, "", false, none, true, none⟩

def aliceClaims : AccessClaims :=
  ⟨"5b0f6c52-93d1-4e0e-9a53-0d6f2a7c41e8", "c1a7e3b4-2f68-4d19-8b7e-6e50f9d2a413",
    1700000900, 1700000000⟩

def aliceRefreshSession : RefreshSession :=
  ⟨"5b0f6c52-93d1-4e0e-9a53-0d6f2a7c41e8", "c1a7e3b4-2f68-4d19-8b7e-6e50f9d2a413",
    "pixel-8", "Pixel 8", "android", none⟩

def aliceRefreshJson : String :=
  "\x7b\"user_id\":\"5b0f6c52-93d1-4e0e-9a53-0d6f2a7c41e8\"," ++
  "\"session_id\":\"c1a7e3b4-2f68-4d19-8b7e-6e50f9d2a413\",\"device_id\":\"pixel-8\"," ++
  "\"device_name\":\"Pixel 8\",\"device_type\":\"android\",\"push_token\":null\x7d"

def aliceAccessToken : String :=
  "eyJ0eXAiOiJKV1QiLCJhbGciOiJFZERTQSJ9." ++
  "eyJzdWIiOiI1YjBmNmM1Mi05M2QxLTRlMGUtOWE1My0wZDZmMmE3YzQxZTgiLCJzaWQiOiJjMWE3ZTNiNC0yZjY4" ++
  "LTRkMTktOGI3ZS02ZTUwZjlkMmE0MTMiLCJleHAiOjE3MDAwMDA5MDAsImlhdCI6MTcwMDAwMDAwMH0." ++
  "yGdyb419H9YL-ujmLk4OObKLo616mH06FQU1HJ0TRccWCfQqtqPdsQ37QLhANck8jclal0-HoRSNUgq8c-LJCA"

def aliceBearer : Option String := some ("Bearer " ++ aliceAccessToken)

def aliceRefreshToken : String := "7d92b8f0-46ce-4a3b-b1d5-93f8e1c60a27"

/-- What the libraries answer when Alice logs in. -/
def aliceServer : AuthState where
  sha256Hash token :=
    if token = aliceRefreshToken then
      "8223400a7c4fb6926364d97049d1f2dddc9c81bcad513867870a6c33b4b64b96"
    else "~" ++ token
  hashPhone phone _ := phone
  toJson session := if session = aliceRefreshSession then .ok aliceRefreshJson else .error ""
  fromJson json := if json = aliceRefreshJson then .ok aliceRefreshSession else .error ""
  jwtEncode claims := if claims = aliceClaims then .ok aliceAccessToken else .error ""
  jwtDecode token now :=
    if token = aliceAccessToken then
      if aliceClaims.exp + 60 < now then .error "ExpiredSignature" else .ok aliceClaims
    else .error "InvalidToken"
  redisErrorText _ := ""
  uuidErrorText _ := ""
  accessTtl := 900
  refreshTtl := 2592000
  phoneHashSecret := ""

theorem aliceServer_distinctHashes : aliceServer.DistinctHashes := by
  have hne : ∀ text, ("8223400a7c4fb6926364d97049d1f2dddc9c81bcad513867870a6c33b4b64b96" : String) ≠
      "~" ++ text := by
    intro text h
    have hchars := congrArg String.toList h
    simp at hchars
  intro u v h
  apply Uuid.toString_injective
  simp only [aliceServer] at h
  split at h
  · next hu =>
    split at h
    · next hv => exact hu.trans hv.symm
    · exact absurd h (hne _)
  · split at h
    · exact absurd h.symm (hne _)
    · exact (String.append_right_inj _).mp h

theorem aliceServer_jsonRoundTrip : aliceServer.JsonRoundTrip := by
  intro session json h
  simp only [aliceServer] at h ⊢
  split at h
  · next hs =>
    obtain rfl := Except.ok.inj h
    rw [if_pos rfl, hs]
  · cases h

def aliceUsers : AList (fun _ : Uuid => UserRow) := (∅ : AList _).insert aliceId aliceRow

def aliceStart : AuthConfig := System.start (.init 1700000000000 aliceUsers ∅)

/-- One step of a task that draws nothing. -/
def moves (i n : Nat) : List AuthAct := List.replicate n (.step i ⟨⟨.nil, 482913⟩, 0⟩)

def movesDrawing (i : Nat) (id : Uuid) : AuthAct := .step i ⟨⟨id, 0⟩, 0⟩

/-- Alice logs in and gets her first tokens. -/
def aliceLogin : List AuthAct :=
  [.spawn (.login "10.0.0.1" ⟨alicePhone, "pixel-8", "Pixel 8", "android", none⟩)] ++ moves 0 4 ++
  [.spawn (.loginVerify ⟨⟨some "pixel-8", some "Pixel 8", some "android", none⟩, alicePhone,
    "482913"⟩)] ++ moves 1 3 ++ [movesDrawing 1 aliceSessionId] ++ moves 1 1 ++
  [movesDrawing 1 aliceTokenId] ++ moves 1 1

@[simp] theorem spawn_notMem_moves (r : AuthReq) (i n : Nat) : .spawn r ∉ moves i n :=
  fun h => nomatch List.eq_of_mem_replicate h

@[simp] theorem withAuth_notMem_aliceLogin (authHeader : Option String) (route : Route) :
    .spawn (.withAuth authHeader route) ∉ aliceLogin := by
  simp [aliceLogin, movesDrawing]

/-- What the server does with Alice's requests, where her token is cut out already. -/
def aliceHandler (state : AuthState) : AuthReq → AuthProg (Except ApiError Response)
  | .withAuth _ route =>
    (protect (authorize state aliceAccessToken) (fun auth => route.handle state auth)).run
  | r => (r.handle state).run

theorem handler_alice (state : AuthState) {acts : List AuthAct}
    (h : ∀ authHeader route, .spawn (.withAuth authHeader route) ∈ acts → authHeader = aliceBearer)
    (r : AuthReq) (hr : .spawn r ∈ acts) : (authServer state).handler r = aliceHandler state r := by
  cases r with
  | withAuth authHeader route =>
    obtain rfl := h authHeader route hr
    simp only [authServer, AuthReq.handle, aliceHandler, aliceBearer, authMiddleware_bearer]
  | register | verifyPhone | login | loginVerify | refresh | recover | recoverVerify | twoFaVerify => rfl

end Alice

end Mesty.Auth.Records
