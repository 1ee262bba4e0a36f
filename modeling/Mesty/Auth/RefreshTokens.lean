import Mesty.Auth.Records

namespace Mesty.Auth.RefreshTokens

open Mesty.Base.Ids Mesty.Base.Error Mesty.Concurrency.Program Mesty.Concurrency.Pool
open Mesty.Redis.Server
open Mesty.Auth.Entities Mesty.Auth.Otp Mesty.Auth.Repository Mesty.Auth.Services
open Mesty.Auth.Handlers Mesty.Auth.Middleware Mesty.Auth.Permits Mesty.Auth.Records

variable {state : AuthState} {start : AuthDb} {cfg : AuthConfig} {token value : String}

theorem not_counterKey_refreshKey (state : AuthState) (token : String) :
    ¬ AuthDb.CounterKey (refreshKey state token) := by
  rintro (⟨purpose, subject, h⟩ | ⟨rateKey, h⟩)
  · rw [OtpPurpose.attemptsKey_key] at h
    exact OtpPurpose.key_ne (by simp [refreshKey]) h.symm
  · have hchars := congrArg String.toList h
    simp [refreshKey] at hchars

theorem refreshKey_ne_sessionKey (state : AuthState) (token : String) (sessionId : Uuid) :
    refreshKey state token ≠ sessionKey sessionId := by
  intro h
  have hchars := congrArg String.toList h
  simp [refreshKey, sessionKey] at hchars

theorem refreshKey_toString_inj (hsha : state.DistinctHashes) {u v : Uuid}
    (h : refreshKey state u.toString = refreshKey state v.toString) : u = v :=
  hsha u v ((String.append_right_inj _).mp h)

theorem storesRefresh_of_permitted {req : AuthReq} {hist : History} {seconds : Nat}
    (h : Permitted state req hist (.redis (.setEx (refreshKey state token) value seconds))) :
    StoresRefresh state hist (refreshKey state token) value := by
  rcases h with ⟨purpose, subject, -, heq⟩ | h | ⟨_, _, _, sessionId, -, -, -, heq⟩
  · exact absurd heq.symm (OtpPurpose.key_ne (by simp [refreshKey]))
  · exact h
  · exact absurd heq (refreshKey_ne_sessionKey state token sessionId)

theorem Recorded.stored_drawn (hr : Recorded state start cfg) {before later : List AuthEvent}
    {i seconds : Nat} {ans : Except RedisError Unit}
    (hlog : cfg.log = before ++ ⟨i, .redis (.setEx (refreshKey state token) value seconds), ans⟩ ::
      later) :
    ∃ u, (eventsOf i before).getLast? = some ⟨.newUuid, u⟩ ∧
      refreshKey state token = refreshKey state (Uuid.toString u) := by
  obtain ⟨req, -, hperm⟩ := hr.permitted hlog
  obtain ⟨u, _, _, _, _, _, _, _, _, hlast, heq, -⟩ := storesRefresh_of_permitted hperm
  exact ⟨u, hlast, heq⟩

/-- A refresh token is stored once, right after its identifier is drawn. -/
theorem Recorded.stored_once (hr : Recorded state start cfg) (hsha : state.DistinctHashes)
    {before later : List AuthEvent} {i seconds : Nat} {ans : Except RedisError Unit}
    (hlog : cfg.log = before ++ ⟨i, .redis (.setEx (refreshKey state token) value seconds), ans⟩ ::
      later) (j : Nat) (value' : String) (seconds' : Nat) (ans' : Except RedisError Unit) :
    ⟨j, .redis (.setEx (refreshKey state token) value' seconds'), ans'⟩ ∉ later := by
  intro hm
  obtain ⟨between, rest, rfl⟩ := List.append_of_mem hm
  obtain ⟨u, hu, hkey⟩ := Recorded.stored_drawn hr hlog
  rw [← List.cons_append, ← List.append_assoc] at hlog
  obtain ⟨v, hv, hkey'⟩ := Recorded.stored_drawn hr hlog
  obtain rfl := refreshKey_toString_inj hsha (hkey.symm.trans hkey')
  have hi := mem_eventsOf.mp (List.mem_of_getLast? hu)
  have hj := mem_eventsOf.mp (List.mem_of_getLast? hv)
  -- the two tasks are the same, and it has drawn the identifier twice
  have heq : (⟨i, .newUuid, u⟩ : AuthEvent) = ⟨j, .newUuid, u⟩ :=
    hr.ledger.once_eq (by simp [hlog, hi]) (hlog ▸ List.mem_append_left _ hj)
      (by rfl : Draws _ u) rfl
  obtain rfl := congrArg Event.task heq
  rw [eventsOf_append, List.getLast?_append_of_ne_nil _ (by simp [eventsOf])] at hv
  rw [List.append_assoc] at hlog
  exact hr.ledger.once_split hlog hi
    (List.mem_append_left _ (mem_eventsOf.mp (List.mem_of_getLast? hv))) (by rfl : Draws _ u) rfl

/-- Task `i` is a refresh in which `validate_refresh_token` has accepted the token: nothing
after its DEL can fail. -/
def Accepts (state : AuthState) (c : AuthConfig) (i : Nat) (token : String) : Prop :=
  c.request i = some (.refresh token) ∧ ∃ n, ⟨i, .redis (.del (refreshKey state token)), n⟩ ∈ c.log

def isRefresh (token : String) : AuthReq → Bool
  | .refresh token' => token' = token
  | _ => false

def isDel (i : Nat) (key : String) (e : AuthEvent) : Bool :=
  e.task = i && match e.cmd with
    | .redis (.del key') => key' = key
    | _ => false

instance (c : AuthConfig) (i : Nat) (token : String) : Decidable (Accepts state c i token) :=
  decidable_of_iff ((c.request i).any (isRefresh token) ∧
    c.log.any (isDel i (refreshKey state token))) <| by
  refine and_congr ?_ ?_
  · cases c.request i with
    | none => simp
    | some r => cases r <;> simp [isRefresh]
  · simp only [List.any_eq_true, isDel, Bool.and_eq_true, decide_eq_true_eq]
    constructor
    · rintro ⟨⟨j, cmd, ans⟩, hm, rfl, hcmd⟩
      split at hcmd
      · next heq =>
        obtain rfl := heq
        obtain rfl := of_decide_eq_true hcmd
        exact ⟨ans, hm⟩
      · cases hcmd
    · rintro ⟨n, hm⟩
      exact ⟨_, hm, rfl, decide_eq_true rfl⟩

theorem del_of_refresh {hist : History} {key : String}
    (h : Permitted state (.refresh token) hist (.redis (.del key))) :
    key = refreshKey state token ∧ ∃ json, hist.getLast? = some ⟨.redis (.get key), some json⟩ := by
  rcases h with ⟨token', json, session, heq, rfl, hlast, -⟩ | ⟨_, _, _, _, heq, -⟩
  · cases heq
    exact ⟨rfl, json, hlast⟩
  · cases heq

theorem Accepts.found {i : Nat} (hr : Recorded state start cfg) (h : Accepts state cfg i token) :
    ∃ value, ⟨i, .redis (.get (refreshKey state token)), some value⟩ ∈ cfg.log := by
  obtain ⟨hreq, n, hm⟩ := h
  obtain ⟨before, later, hlog⟩ := List.append_of_mem hm
  obtain ⟨-, json, hlast⟩ := del_of_refresh (hr.permitted_of hreq hlog)
  exact ⟨json, by simp [hlog, mem_eventsOf.mp (List.mem_of_getLast? hlast)]⟩

end Mesty.Auth.RefreshTokens
