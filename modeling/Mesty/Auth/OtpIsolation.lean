import Mesty.Auth.Permits

namespace Mesty.Auth.OtpIsolation

open Mesty.Base.Ids Mesty.Concurrency.Program Mesty.Redis.Server Mesty.Auth.Otp
open Mesty.Auth.Repository Mesty.Auth.Services Mesty.Auth.Handlers Mesty.Auth.Middleware
open Mesty.Auth.Permits

/-- The purposes whose subjects are phone strings. -/
inductive PhonePurpose where
  | register
  | login
  | recover

namespace PhonePurpose

def otp : PhonePurpose → OtpPurpose
  | register => .register
  | login => .login
  | recover => .recover

/-- A request that verifies a code for the phone string in its body. -/
def verifyRequest (phone code : String) (parts : DeviceParts) : PhonePurpose → AuthReq
  | register => .verifyPhone ⟨parts, phone, code⟩
  | login => .loginVerify ⟨parts, phone, code⟩
  | recover => .recoverVerify phone code

theorem otp_injective : Function.Injective otp := by
  intro purpose purpose' h
  cases purpose <;> cases purpose' <;> first | rfl | cases h

end PhonePurpose

/-- The command answers the same whatever is stored under the key, and leaves it there. -/
def Ignores (key : String) (c : AuthCmd) : Prop :=
  ∀ ω db e, AuthDb.exec ω c (db.put key e) =
    (AuthDb.exec ω c db).map (fun out => (out.1, out.2.put key e))

/-- The stored code and the failed-attempts counter of a phone string. -/
def Spares (purpose : PhonePurpose) (phone : String) (c : AuthCmd) : Prop :=
  Ignores (purpose.otp.key phone) c ∧ Ignores (attemptsKey (purpose.otp.key phone)) c

theorem ignores_of_notMem {key : String} {c : AuthCmd} (h : key ∉ c.keys) : Ignores key c :=
  fun _ _ e => AuthDb.exec_put h e

variable {state : AuthState} {purpose purpose' : PhonePurpose} {p q code : String}
  {parts : DeviceParts} {hist : History} {c : AuthCmd}

theorem verifiesOtp_verifyRequest {other : OtpPurpose} {subject submitted : String}
    (h : VerifiesOtp (purpose.verifyRequest p code parts) other subject submitted) :
    other = purpose.otp ∧ subject = p := by
  cases other <;> cases purpose <;>
    simp_all [VerifiesOtp, PhonePurpose.verifyRequest, PhonePurpose.otp]

theorem storesOtp_verifyRequest {other : OtpPurpose} {subject : String}
    (h : StoresOtp (purpose.verifyRequest p code parts) hist other subject) :
    other = .twoFaLogin := by
  cases other <;> cases purpose <;> simp_all [StoresOtp, PhonePurpose.verifyRequest]

/-- Among the keys of codes and counters a request uses those of its own phone string,
and those of second factors. -/
theorem keys_of_permitted (h : Permitted state (purpose.verifyRequest p code parts) hist c)
    {other : OtpPurpose} {subject : String} (hk : other.key subject ∈ c.keys) :
    other.key subject = purpose.otp.key p ∨ other.key subject = attemptsKey (purpose.otp.key p) ∨
      other = .twoFaLogin := by
  have hrefresh : ∀ token, purpose.verifyRequest p code parts ≠ .refresh token := by
    cases purpose <;> rintro token ⟨⟩
  have hauth : ∀ authHeader route,
      purpose.verifyRequest p code parts ≠ .withAuth authHeader route := by
    cases purpose <;> rintro authHeader route ⟨⟩
  cases c with
  | redis c =>
    cases c with
    | get key =>
      rcases h with ⟨token, heq, -⟩ | ⟨authHeader, route, -, heq, -⟩
      · exact absurd heq (hrefresh token)
      · exact absurd heq (hauth authHeader route)
    | setEx key value seconds =>
      obtain rfl : other.key subject = key := by simpa [AuthCmd.keys, RedisCmd.key] using hk
      rcases h with ⟨purpose₁, subject₁, hs, heq⟩ | hs | ⟨authHeader, route, -, -, heq, -⟩
      · obtain rfl := storesOtp_verifyRequest hs
        exact .inr (.inr (OtpPurpose.key_inj.mp heq).1)
      · obtain ⟨_, _, _, _, _, _, _, _, _, _, heq, -⟩ := hs
        exact absurd heq (OtpPurpose.key_ne (by simp [refreshKey]))
      · exact absurd heq (hauth authHeader route)
    | del key =>
      rcases h with ⟨token, -, -, heq, -⟩ | ⟨authHeader, -, -, -, heq, -⟩
      · exact absurd heq (hrefresh token)
      · exact absurd heq (hauth authHeader _)
    | sadd => cases hk
    | incr | ttl | expire => exact h.elim
  | verifyOtp other' subject' submitted =>
    obtain ⟨rfl, rfl⟩ := verifiesOtp_verifyRequest h
    simpa [AuthCmd.keys, or_assoc] using Or.inl hk
  | checkRateLimit key =>
    exact absurd (List.mem_singleton.mp hk) (OtpPurpose.key_ne (by simp))
  | findByPhone | findById | insertUser | updateUser | upsertSession | listSessions | deleteSession
  | isSessionValid | newUuid | utcNow | random => cases hk

theorem PhonePurpose.key_inj : purpose.otp.key p = purpose'.otp.key q ↔ purpose = purpose' ∧ p = q := by
  rw [OtpPurpose.key_inj, PhonePurpose.otp_injective.eq_iff]

theorem PhonePurpose.otp_ne_twoFaLogin (purpose : PhonePurpose) : purpose.otp ≠ .twoFaLogin := by
  cases purpose <;> exact nofun

theorem spares_of_permitted (h : Permitted state (purpose.verifyRequest p code parts) hist c)
    (hne : (purpose, p) ≠ (purpose', q))
    (hsuffix : ¬ (purpose = purpose' ∧ (p = q ++ ":attempts" ∨ q = p ++ ":attempts"))) :
    Spares purpose' q c := by
  constructor
  · refine ignores_of_notMem fun hk => ?_
    rcases keys_of_permitted h hk with heq | heq | heq
    · obtain ⟨rfl, rfl⟩ := PhonePurpose.key_inj.mp heq
      exact hne rfl
    · rw [OtpPurpose.attemptsKey_key] at heq
      obtain ⟨rfl, rfl⟩ := PhonePurpose.key_inj.mp heq
      exact hsuffix ⟨rfl, .inr rfl⟩
    · exact PhonePurpose.otp_ne_twoFaLogin _ heq
  · refine ignores_of_notMem fun hk => ?_
    rw [OtpPurpose.attemptsKey_key] at hk
    rcases keys_of_permitted h hk with heq | heq | heq
    · obtain ⟨rfl, rfl⟩ := PhonePurpose.key_inj.mp heq
      exact hsuffix ⟨rfl, .inl rfl⟩
    · rw [OtpPurpose.attemptsKey_key] at heq
      obtain ⟨rfl, happ⟩ := PhonePurpose.key_inj.mp heq
      exact hne (by rw [(String.append_left_inj _).mp happ])
    · exact PhonePurpose.otp_ne_twoFaLogin _ heq

/-- The first command of a verify request. -/
theorem issues_verifyOtp {P : AuthCmd → Prop}
    (h : (authServer state).handler (purpose.verifyRequest p code parts) |>.Issues P) :
    P (.verifyOtp purpose.otp p code) := by
  cases purpose <;> exact h.1

theorem Ignores.answer {key : String} {other : OtpPurpose} {subject submitted : String}
    (h : Ignores key (.verifyOtp other subject submitted)) (s : Store) (e : Option Entry) :
    (verifyOtp other subject submitted (s.put key e)).1 =
      (verifyOtp other subject submitted s).1 := by
  have heq := h ⟨Uuid.nil, 0⟩ ⟨s, ∅, ∅, []⟩ e
  simp only [AuthDb.exec, AuthDb.onRedis, AuthDb.put, Option.map_some, Option.some.injEq,
    Prod.mk.injEq] at heq
  exact heq.1

theorem append_attempts_ne (p : String) : p ≠ p ++ ":attempts" := by
  intro h
  have hlen := congrArg String.length h
  simp at hlen

/-- The counter of `q` is read as the code of a longer string. -/
theorem code_reads_counter (purpose : OtpPurpose) (q : String) :
    ¬ Ignores (attemptsKey (purpose.key q)) (.verifyOtp purpose (q ++ ":attempts") "1") := by
  intro h
  have heq := h.answer (Store.empty 0) (some ⟨"1", none⟩)
  rw [OtpPurpose.attemptsKey_key] at heq
  have hone : ((Store.empty 0).put (purpose.key (q ++ ":attempts")) (some ⟨"1", none⟩)).lookup
      (purpose.key (q ++ ":attempts")) = some ⟨"1", none⟩ := Store.lookup_put_live rfl
  simp only [verifyOtp, verify_matched hone rfl, verify_missing (Store.lookup_empty 0)] at heq
  cases heq

/-- The code of a string that ends so is counted up as a counter. -/
theorem counter_changes_code (purpose : OtpPurpose) (p : String) :
    ¬ Ignores (purpose.key (p ++ ":attempts")) (.verifyOtp purpose p "0") := by
  intro h
  let s := (Store.empty 0).put (purpose.key p) (some ⟨"1", none⟩)
  have hcode : s.lookup (purpose.key p) = some ⟨"1", none⟩ := Store.lookup_put_live rfl
  have hnone : s.lookup (attemptsKey (purpose.key p)) = none :=
    (Store.lookup_put_of_ne (attemptsKey_ne _)).trans (Store.lookup_empty 0)
  have heq := h.answer s (some ⟨"1", none⟩)
  rw [← OtpPurpose.attemptsKey_key] at heq
  have hcode' := (Store.lookup_put_of_ne (e := some ⟨"1", none⟩)
    (attemptsKey_ne (purpose.key p)).symm).trans hcode
  have hcount : (s.put (attemptsKey (purpose.key p)) (some ⟨"1", none⟩)).lookup
      (attemptsKey (purpose.key p)) = some ⟨"1", none⟩ := Store.lookup_put_live rfl
  have hwrong : (⟨"1", none⟩ : Entry).value ≠ "0" := by decide
  simp only [verifyOtp, verify_second_wrong hcode' hwrong hcount rfl,
    verify_first_wrong hcode hwrong hnone] at heq
  cases heq

/-- A verify request spares every other purpose and phone string exactly if neither
phone string is the other one followed by `:attempts`. -/
theorem isolated_iff (state : AuthState) (purpose purpose' : PhonePurpose) (p q : String) :
    ((purpose, p) ≠ (purpose', q) → ∀ code parts,
      ((authServer state).handler (purpose.verifyRequest p code parts)).Issues
        (Spares purpose' q)) ↔
      ¬ (purpose = purpose' ∧ (p = q ++ ":attempts" ∨ q = p ++ ":attempts")) := by
  constructor
  · rintro h ⟨rfl, rfl | rfl⟩
    · have hissues := h (fun heq => append_attempts_ne q (Prod.mk.inj heq).2.symm) "1"
        ⟨none, none, none, none⟩
      exact code_reads_counter _ _ (issues_verifyOtp hissues).2
    · have hissues := h (fun heq => append_attempts_ne p (Prod.mk.inj heq).2) "0"
        ⟨none, none, none, none⟩
      exact counter_changes_code _ _ (issues_verifyOtp hissues).1
  · intro hsuffix hne code parts
    exact (handle_permitted state _).issues fun _ _ hc => spares_of_permitted hc hne hsuffix

/-- The string that ends so is not a phone number, but it is looked up before it is checked:
the submitted code is compared with the counter of the phone, and the counter is deleted. -/
theorem counter_reset :
    let phone := "+573001234567"
    let counter := attemptsKey (OtpPurpose.login.key phone)
    let s := ((Store.empty 0).put (OtpPurpose.login.key phone) (some ⟨"482913", some 600000⟩)).put
      counter (some ⟨"1", some 600000⟩)
    (∀ state parts, ((authServer state).handler (.loginVerify ⟨parts, phone ++ ":attempts", "1"⟩)).next
      = some (.verifyOtp .login (phone ++ ":attempts") "1")) ∧
    (verifyOtp .login (phone ++ ":attempts") "1" s).1 = .ok .matched ∧
    (s.lookup counter).map Entry.value = some "1" ∧
    (verifyOtp .login (phone ++ ":attempts") "1" s).2.lookup counter = none := by
  intro phone counter s
  have hcount : s.lookup counter = some ⟨"1", some 600000⟩ := Store.lookup_put_live (by decide)
  have hkey : OtpPurpose.login.key (phone ++ ":attempts") = counter :=
    (OtpPurpose.attemptsKey_key .login phone).symm
  have hverify : verifyOtp .login (phone ++ ":attempts") "1" s = _ :=
    verify_matched (hkey ▸ hcount) rfl
  rw [hverify]
  refine ⟨fun _ _ => rfl, rfl, by rw [hcount]; rfl, ?_⟩
  rw [Store.lookup_put_of_ne (hkey ▸ (attemptsKey_ne _).symm), hkey, Store.lookup_put_none]

end Mesty.Auth.OtpIsolation
