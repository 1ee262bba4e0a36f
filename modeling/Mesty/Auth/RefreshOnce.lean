import Mesty.Auth.RefreshTokens
import Mesty.Concurrency.Visits

namespace Mesty.Auth.RefreshOnce

open Mesty.Base.Ids Mesty.Base.Error Mesty.Concurrency.Program Mesty.Concurrency.Pool
open Mesty.Concurrency.Visits Mesty.Redis.Server
open Mesty.Auth.Entities Mesty.Auth.Otp Mesty.Auth.Repository Mesty.Auth.Services
open Mesty.Auth.Handlers Mesty.Auth.Middleware Mesty.Auth.Permits Mesty.Auth.Records
open Mesty.Auth.RefreshTokens

variable (state : AuthState)

/-- Task `i` is a refresh that has stored a new token in exchange for the token. -/
def Mints (c : AuthConfig) (i : Nat) (token : String) : Prop :=
  c.request i = some (.refresh token) ∧
    ∃ key value seconds ans, ⟨i, .redis (.setEx key value seconds), ans⟩ ∈ c.log

def OneTime (c : AuthConfig) : Prop :=
  ∀ token i j, (Accepts state c i token → Accepts state c j token → i = j) ∧
    (Mints c i token → Mints c j token → i = j)

/-- After task `i` has found the token, another refresh deleted it. -/
def Overtaken (c : AuthConfig) (i : Nat) (token : String) : Prop :=
  ∃ before value later, c.log = before ++ ⟨i, .redis (.get (refreshKey state token)), some value⟩ ::
      later ∧
    ∃ j n, j ≠ i ∧ c.request j = some (.refresh token) ∧
      ⟨j, .redis (.del (refreshKey state token)), n⟩ ∈ later

/-- If the move is the DEL of a refresh, no other refresh of the token has made its DEL since
the GET of this one. -/
def Uninterrupted (c : AuthConfig) (a : AuthAct) : Prop :=
  ∀ i ω token k, a = .step i ω →
    c.tasks[i]? = some (.refresh token, .call (.redis (.del (refreshKey state token))) k) →
    ¬ Overtaken state c i token

variable {state} {start : AuthDb} {cfg : AuthConfig} {token : String} {i j : Nat}

/-- Where a token is found, no refresh has accepted it before. -/
theorem not_accepted_before (hr : Recorded state start cfg) (hsha : state.DistinctHashes)
    {before later : List AuthEvent} {value : String}
    (hlog : cfg.log = before ++ ⟨i, .redis (.get (refreshKey state token)), some value⟩ :: later)
    (hj : cfg.request j = some (.refresh token)) (n : Nat) :
    ⟨j, .redis (.del (refreshKey state token)), n⟩ ∉ before := by
  intro hm
  have hkey := not_counterKey_refreshKey state token
  obtain ⟨before', i', seconds, ans, later', rfl, hdel⟩ := hr.kept_of_get hlog hkey
  have hm' : ⟨j, .redis (.del (refreshKey state token)), n⟩ ∈ before' := by
    simp only [List.mem_append, List.mem_cons] at hm
    rcases hm with hm | hm | hm
    · exact hm
    · cases hm
    · exact absurd hm (hdel j n)
  obtain ⟨first, rest, rfl⟩ := List.append_of_mem hm'
  simp only [List.append_assoc, List.cons_append] at hlog
  -- what the other refresh had found was stored even earlier
  obtain ⟨-, json, hlast⟩ := del_of_refresh (hr.permitted_of hj hlog)
  obtain ⟨first', between, rfl⟩ := List.append_of_mem (mem_eventsOf.mp (List.mem_of_getLast? hlast))
  simp only [List.append_assoc, List.cons_append] at hlog
  obtain ⟨first'', i'', seconds', ans', between', rfl, -⟩ := hr.kept_of_get hlog hkey
  simp only [List.append_assoc, List.cons_append] at hlog
  exact Recorded.stored_once hr hsha hlog i' value seconds ans (by simp)

theorem Mints.accepts (hr : Recorded state start cfg) (h : Mints cfg i token) :
    Accepts state cfg i token := by
  obtain ⟨hreq, key, value, seconds, ans, hm⟩ := h
  obtain ⟨before, later, hlog⟩ := List.append_of_mem hm
  have hperm := hr.permitted_of hreq hlog
  refine ⟨hreq, ?_⟩
  rcases hperm with ⟨purpose, subject, hs, -⟩ | hs | ⟨_, _, _, _, heq, -⟩
  · cases purpose <;> simp [StoresOtp] at hs
  · obtain ⟨token', session, userId, _, _, _, _, _, sessionId, -, -, -, -, -, hup⟩ := hs
    obtain ⟨first, rest, rfl⟩ := List.append_of_mem (mem_eventsOf.mp hup)
    rw [List.append_assoc, List.cons_append] at hlog
    obtain ⟨json, session', n, id, user, -, -, hdel, -⟩ := hr.permitted_of hreq hlog
    exact ⟨n, by simp [hlog, mem_eventsOf.mp hdel]⟩
  · cases heq

theorem oneTime_iff (hr : Recorded state start cfg) :
    OneTime state cfg ↔
      ∀ token i j, Accepts state cfg i token → Accepts state cfg j token → i = j :=
  ⟨fun h token i j => (h token i j).1,
    fun h token i j => ⟨h token i j, fun hi hj => h token i j (hi.accepts hr) (hj.accepts hr)⟩⟩

theorem accepts_step {c : AuthConfig} {r : AuthReq} {cmd : AuthCmd}
    {k : cmd.Ans → AuthProg (Except ApiError Response)} (ht : c.tasks[i]? = some (r, .call cmd k))
    (ans : cmd.Ans) (s : AuthDb) :
    Accepts state ⟨c.after i cmd ans s, c.tasks.set i (r, k ans)⟩ j token ↔
      Accepts state c j token ∨
        j = i ∧ r = .refresh token ∧ cmd = .redis (.del (refreshKey state token)) := by
  simp only [Accepts, Config.request_set ht, World.after_log, List.mem_append, List.mem_singleton,
    exists_or, and_or_left]
  refine or_congr_right ⟨?_, ?_⟩
  · rintro ⟨hreq, n, heq⟩
    obtain ⟨rfl, rfl, -⟩ := Event.mk.inj heq
    exact ⟨rfl, Option.some.inj ((Config.request_eq ht).symm.trans hreq), rfl⟩
  · rintro ⟨rfl, rfl, rfl⟩
    exact ⟨Config.request_eq ht, ans, rfl⟩

theorem accepts_spawn {c : AuthConfig} (hr : Recorded state start c)
    (t : AuthReq × AuthProg (Except ApiError Response)) :
    Accepts state { c with tasks := c.tasks ++ [t] } j token ↔ Accepts state c j token := by
  refine and_congr_left fun ⟨n, hm⟩ => ?_
  rw [Config.request_spawn (hr.replays.1 _ hm)]

/-- From a state in which no token was accepted twice. -/
theorem uninterrupted_iff {c d : AuthConfig} {a : AuthAct} (hr : Recorded state start c)
    (hr' : Recorded state start d) (hsha : state.DistinctHashes) (hc : OneTime state c)
    (ha : (authServer state).apply a c = some d) :
    Uninterrupted state c a ↔ OneTime state d := by
  rw [oneTime_iff hr] at hc
  rw [oneTime_iff hr']
  obtain ⟨r, rfl, rfl⟩ | ⟨i, ω, r, cmd, k, ans, s, rfl, ht, he, rfl⟩ | ⟨ω, s, rfl, -, rfl⟩ :=
    System.apply_cases ha
  · simp only [accepts_spawn hr]
    exact ⟨fun _ => hc, by rintro - i ω token k ⟨⟩⟩
  · simp only [accepts_step ht]
    constructor
    · intro hP token j j' hj hj'
      -- if the DEL of the move is one of the two, the other one came before the GET
      have hnew : ∀ j, Accepts state c j token → r = .refresh token →
          cmd = .redis (.del (refreshKey state token)) → j = i := by
        rintro j ⟨hreq, n, hm⟩ rfl rfl
        by_contra hne
        obtain ⟨-, json, hlast⟩ := del_of_refresh (hr.replays.follows (handle_permitted state) ht).1
        obtain ⟨before, later, hlog⟩ := List.append_of_mem
          (mem_eventsOf.mp (List.mem_of_getLast? hlast))
        refine hP i ω token k rfl ht ⟨before, json, later, hlog, j, n, hne, hreq, ?_⟩
        rw [hlog, List.mem_append, List.mem_cons] at hm
        rcases hm with hm | hm | hm
        · exact absurd hm (not_accepted_before hr hsha hlog hreq n)
        · cases hm
        · exact hm
      rcases hj with hj | ⟨rfl, hreq, hcmd⟩ <;> rcases hj' with hj' | ⟨rfl, hreq', hcmd'⟩
      · exact hc token j j' hj hj'
      · exact hnew j hj hreq' hcmd'
      · exact (hnew j' hj' hreq hcmd).symm
      · rfl
    · rintro hd i' ω' token k' heq ht' ⟨before, value, later, hlog, j, n, hne, hreq, hm⟩
      cases heq
      cases ht.symm.trans ht'
      exact hne (hd token j i (.inl ⟨hreq, n, by simp [hlog, hm]⟩) (.inr ⟨rfl, rfl, rfl⟩))
  · exact ⟨fun _ => hc, by rintro - i ω token k ⟨⟩⟩

/-- Where hashes of tokens are distinct, in a run from any users and sessions every refresh
token is accepted at most once, and at most one new token is minted from it, exactly if no
refresh of the same token makes its DEL between the GET and the DEL of another one. -/
theorem one_time_iff_uninterrupted (state : AuthState) (hsha : state.DistinctHashes) (now : Nat)
    (users : AList (fun _ : Uuid => UserRow)) (sessions : AList (fun _ : Uuid × String => SessionRow))
    (acts : List AuthAct) :
    (authServer state).Every (Uninterrupted state) acts (System.start (.init now users sessions)) ↔
      ∀ d ∈ (authServer state).trace acts (System.start (.init now users sessions)),
        OneTime state d := by
  refine System.every_iff_forall (J := (authServer state).Reach (fun _ _ => True)
      (System.start (.init now users sessions)))
    (fun hc ha => hc.tail trivial ha) (fun hc hG ha => ?_) acts .refl ?_
  · exact uninterrupted_iff (reach_recorded hc) (reach_recorded (hc.tail trivial ha)) hsha hG ha
  · intro token i j
    exact ⟨fun h => absurd h.1 nofun, fun h => absurd h.1 nofun⟩

def renewedSessionId : Uuid := .ofNat 0xe84d10a97c354f62a0db91c2f7b36e05

def renewedTokenId : Uuid := .ofNat 0x2c6f0b9148de4a75b3197e40d8f5a6c2

def renewedClaims : AccessClaims := { aliceClaims with sid := "e84d10a9-7c35-4f62-a0db-91c2f7b36e05" }

def renewedAccessToken : String :=
  "eyJ0eXAiOiJKV1QiLCJhbGciOiJFZERTQSJ9." ++
  "eyJzdWIiOiI1YjBmNmM1Mi05M2QxLTRlMGUtOWE1My0wZDZmMmE3YzQxZTgiLCJzaWQiOiJlODRkMTBhOS03YzM1" ++
  "LTRmNjItYTBkYi05MWMyZjdiMzZlMDUiLCJleHAiOjE3MDAwMDA5MDAsImlhdCI6MTcwMDAwMDAwMH0." ++
  "R5eKacp__ARDhSb-KdD7z7-2YndYaig4nIANIRLn23RSkNRVzPoFthv28k8N-CxUFpEg7t8keTRVFd1ra_a_0Q"

def renewedSession : RefreshSession :=
  { aliceRefreshSession with sessionId := "e84d10a9-7c35-4f62-a0db-91c2f7b36e05" }

def renewedJson : String :=
  "\x7b\"user_id\":\"5b0f6c52-93d1-4e0e-9a53-0d6f2a7c41e8\"," ++
  "\"session_id\":\"e84d10a9-7c35-4f62-a0db-91c2f7b36e05\",\"device_id\":\"pixel-8\"," ++
  "\"device_name\":\"Pixel 8\",\"device_type\":\"android\",\"push_token\":null\x7d"

/-- The libraries answer as well when Alice refreshes her token. -/
def renewingServer : AuthState :=
  { aliceServer with
    toJson session := if session = renewedSession then .ok renewedJson else aliceServer.toJson session
    fromJson json := if json = renewedJson then .ok renewedSession else aliceServer.fromJson json
    jwtEncode claims :=
      if claims = renewedClaims then .ok renewedAccessToken else aliceServer.jwtEncode claims }

theorem renewingServer_distinctHashes : renewingServer.DistinctHashes := by
  have hsame : renewingServer.sha256Hash = aliceServer.sha256Hash := rfl
  intro u v h
  rw [hsame] at h
  exact aliceServer_distinctHashes u v h

/-- Alice refreshes her token, and then sends the old one again. -/
def refreshInTurn : List AuthAct :=
  aliceLogin ++ [.spawn (.refresh aliceRefreshToken)] ++ moves 2 4 ++
  [movesDrawing 2 renewedSessionId] ++ moves 2 1 ++ [movesDrawing 2 renewedTokenId] ++ moves 2 1 ++
  [.spawn (.refresh aliceRefreshToken)] ++ moves 3 1

theorem alice_one_time_iff_uninterrupted :
    (∃ d ∈ ((authServer renewingServer).trace refreshInTurn aliceStart).getLast?,
      (answerOf d 2).map (fun answer => answer.toOption.map Response.status) = some (some 200) ∧
      (answerOf d 3).map (fun answer => answer.toOption.map Response.status) = some none) ∧
    ((authServer renewingServer).Every (Uninterrupted renewingServer) refreshInTurn aliceStart ↔
      ∀ d ∈ (authServer renewingServer).trace refreshInTurn aliceStart, OneTime renewingServer d) :=
  ⟨by decide +kernel, one_time_iff_uninterrupted renewingServer renewingServer_distinctHashes
    1700000000000 aliceUsers ∅ refreshInTurn⟩

/-- Alice sends the same refresh token twice, and both GETs come before both DELs. -/
def doubleRefresh : List AuthAct :=
  aliceLogin ++ [.spawn (.refresh aliceRefreshToken), .spawn (.refresh aliceRefreshToken)] ++
    moves 2 1 ++ moves 3 1 ++ moves 2 1 ++ moves 3 1

theorem accepted_twice :
    ¬ ∀ d ∈ (authServer aliceServer).trace doubleRefresh aliceStart, OneTime aliceServer d := by
  intro h
  have htwice : ∃ d ∈ ((authServer aliceServer).trace doubleRefresh aliceStart).getLast?,
      Accepts aliceServer d 2 aliceRefreshToken ∧ Accepts aliceServer d 3 aliceRefreshToken := by
    decide +kernel
  obtain ⟨d, hd, h2, h3⟩ := htwice
  exact absurd ((h d (List.mem_of_getLast? hd) aliceRefreshToken 2 3).1 h2 h3) (by decide)

end Mesty.Auth.RefreshOnce
