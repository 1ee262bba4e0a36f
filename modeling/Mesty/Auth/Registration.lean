import Mesty.Auth.Middleware

namespace Mesty.Auth.Registration

open Mesty.Base.Ids Mesty.Base.Error Mesty.Concurrency.Program Mesty.Redis.Server
open Mesty.Auth.Entities Mesty.Auth.Otp Mesty.Auth.Repository Mesty.Auth.Services
open Mesty.Auth.Handlers Mesty.Auth.Middleware

/-- The user exists for others. -/
def ActiveUser (users : AList (fun _ : Uuid => UserRow)) (id : Uuid) (phone : String) : Prop :=
  ∃ row, users.lookup id = some row ∧ row.phone.value = phone ∧ row.isActive = true ∧
    row.deletedAt = none

/-- UNIQUE (phone) -/
def UniquePhones (users : AList (fun _ : Uuid => UserRow)) : Prop :=
  ∀ id id' row row', users.lookup id = some row → users.lookup id' = some row' →
    row.phone = row'.phone → id = id'

/-- The code is the stored one and the phone is free, so that the request creates a user. -/
def Registers (db : AuthDb) (r : VerifyPhoneRequest) : Prop :=
  (∃ e, db.redis.lookup (OtpPurpose.register.key r.phone) = some e ∧ e.value = r.code) ∧
    isE164 r.phone = true ∧ ∀ id row, db.users.lookup id = some row → row.phone.value ≠ r.phone

/-- The identifiers of the users are drawn. -/
def UsersDrawn (db : AuthDb) : Prop := ∀ id ∈ db.users, id ∈ db.drawn

/-- What a request to register a phone has made of the users. -/
inductive UsersAfter (db : AuthDb) (r : VerifyPhoneRequest) (db' : AuthDb) : Prop where
  | same (h : ¬ Registers db r) (hsame : db'.users = db.users)
  | new (h : Registers db r) (id : Uuid) (row : UserRow) (hphone : row.phone.value = r.phone)
      (hactive : row.isActive = true) (hkept : row.deletedAt = none) (hid : id ∉ db.users)
      (hnew : db'.users = db.users.insert id row)

def KeepsUsers : AuthCmd → Prop
  | .insertUser _ | .updateUser _ => False
  | _ => True

theorem users_of_keepsUsers {ω : Choice} {c : AuthCmd} {ans : c.Ans} {db db' : AuthDb}
    (hc : KeepsUsers c) (he : AuthDb.exec ω c db = some (ans, db')) : db'.users = db.users := by
  obtain h | ⟨user, rfl, -⟩ | ⟨user, old, rfl, -⟩ := AuthDb.exec_users he
  · exact h
  · exact hc.elim
  · exact hc.elim

/-- What a task that keeps the users leaves as it is. -/
theorem wp_of_keepsUsers {α : Type} {p : AuthProg α} {users : AList (fun _ : Uuid => UserRow)}
    {db : AuthDb} (hp : p.Issues KeepsUsers) (hdrawn : UsersDrawn db) (husers : db.users = users) :
    p.wp (fun ω : Env => AuthDb.exec ω.toChoice)
      (fun _ db' => UsersDrawn db' ∧ db'.users = users) db := by
  refine hp.wp (I := fun db' => UsersDrawn db' ∧ db'.users = users) ?_ ⟨hdrawn, husers⟩
  rintro ω c ans s s' hc ⟨hs, rfl⟩ he
  have hkept := users_of_keepsUsers hc he
  refine ⟨fun id hid => ?_, hkept⟩
  rw [hkept] at hid
  rw [(AuthDb.exec_drawn he).1]
  exact List.mem_append_right _ (hs id hid)

section Tasks

variable (state : AuthState)

theorem issues_liftError {α ε ε' : Type} {P : AuthCmd → Prop} (g : ε' → ε) (r : Except ε' α) :
    (liftError g r : ExceptT ε AuthProg α).run.Issues P := by
  cases r <;> trivial

theorem sendOtp_keepsUsers (purpose : OtpPurpose) (subject : String) :
    (sendOtp state purpose subject).run.Issues KeepsUsers := by
  refine ⟨trivial, fun random => ⟨trivial, fun stored => ?_⟩⟩
  cases stored <;> trivial

theorem register_keepsUsers (clientIp : String) (r : RegisterRequest) :
    (register state clientIp r).run.Issues KeepsUsers := by
  refine Prog.Issues.tryBind (issues_liftError _ _) fun phone => ⟨trivial, fun answer => ?_⟩
  refine Prog.Issues.tryBind (issues_liftError _ _) fun allowed => ?_
  split_ifs
  · trivial
  · refine ⟨trivial, fun existing => ?_⟩
    change (if existing.isSome = true then pure (message 202 "Código enviado") else do
      let _ ← sendOtp state .register phone.value
      return message 202 "Código enviado" : AuthTask Response).run.Issues KeepsUsers
    split_ifs
    · trivial
    · exact Prog.Issues.tryBind (sendOtp_keepsUsers state _ _) fun _ => trivial

theorem issueTokens_keepsUsers (user : User) (device : DeviceContext) :
    (issueTokens state user device).run.Issues KeepsUsers := by
  have hservice : ∀ {α : Type} {x : ServiceTask α}, x.run.Issues KeepsUsers →
      (service x).run.Issues KeepsUsers := fun hx => hx.bind fun _ => trivial
  have hupsert : ∀ expiresAt, (attempt (Prog.cmd (AuthCmd.upsertSession user.id device.deviceId
      device.deviceName device.deviceType device.pushToken expiresAt)) :
      AuthTask Uuid).run.Issues KeepsUsers := fun _ => ⟨trivial, fun _ => trivial⟩
  have haccess : ∀ sessionId,
      (generateAccessToken state user.id sessionId).run.Issues KeepsUsers :=
    fun _ => ⟨trivial, fun _ => issues_liftError _ _⟩
  have hrefresh : generateRefreshToken.run.Issues KeepsUsers := ⟨trivial, fun _ => trivial⟩
  have hstore : ∀ token session, (storeRefreshToken state token session).run.Issues KeepsUsers :=
    fun _ _ => Prog.Issues.tryBind (issues_liftError _ _) fun _ =>
      ⟨trivial, fun _ => issues_liftError _ _⟩
  refine ⟨trivial, fun now => Prog.Issues.tryBind (hupsert _) fun sessionId => ?_⟩
  refine Prog.Issues.tryBind (hservice (haccess _)) fun access => ?_
  refine Prog.Issues.tryBind (hservice hrefresh) fun refresh => ?_
  exact Prog.Issues.tryBind (hservice (hstore _ _)) fun _ => trivial

theorem fromParts_keepsUsers (parts : DeviceParts) :
    (DeviceContext.fromParts parts).run.Issues KeepsUsers := by
  rw [DeviceContext.fromParts]
  cases parts.deviceId with
  | some deviceId => trivial
  | none => exact ⟨trivial, fun _ => trivial⟩

end Tasks

/-- A code matches exactly if it is the stored one. -/
theorem verifyOtp_matched_iff {purpose : OtpPurpose} {subject code : String} {s : Store} :
    (verifyOtp purpose subject code s).1 = .ok .matched ↔
      ∃ e, s.lookup (purpose.key subject) = some e ∧ e.value = code := by
  constructor
  · exact code_of_matched
  · rintro ⟨e, he, hcode⟩
    rw [verifyOtp, verify_matched he hcode]

theorem phoneValue_injective : Function.Injective PhoneNumber.value := by
  rintro ⟨value, _⟩ ⟨_, _⟩ rfl
  trivial

theorem UniquePhones.insert {users : AList (fun _ : Uuid => UserRow)} {id : Uuid} {row : UserRow}
    (hu : UniquePhones users) (hphone : ∀ id' row', users.lookup id' = some row' →
      row'.phone = row.phone → id' = id) : UniquePhones (users.insert id row) := by
  intro id₁ id₂ row₁ row₂ h₁ h₂ heq
  by_cases hid₁ : id₁ = id <;> by_cases hid₂ : id₂ = id
  · exact hid₁.trans hid₂.symm
  · subst hid₁
    obtain rfl := Option.some.inj ((AList.lookup_insert _).symm.trans h₁)
    exact (hphone id₂ row₂ ((AList.lookup_insert_ne hid₂).symm.trans h₂) heq.symm).symm
  · subst hid₂
    obtain rfl := Option.some.inj ((AList.lookup_insert _).symm.trans h₂)
    exact hphone id₁ row₁ ((AList.lookup_insert_ne hid₁).symm.trans h₁) heq
  · rw [AList.lookup_insert_ne hid₁] at h₁
    rw [AList.lookup_insert_ne hid₂] at h₂
    exact hu id₁ id₂ row₁ row₂ h₁ h₂ heq

section Rules

variable {α : Type} {Q : Except DomainError α → AuthDb → Prop} {db : AuthDb}

theorem wp_liftError {β ε : Type} (g : ε → DomainError) (r : Except ε β) (f : β → AuthTask α) :
    (liftError g r >>= f).run.wp (fun ω : Env => AuthDb.exec ω.toChoice) Q db ↔
      (∀ b, r = .ok b → (f b).run.wp (fun ω : Env => AuthDb.exec ω.toChoice) Q db) ∧
        ∀ e, r = .error e → Q (.error (g e)) db := by
  cases r with
  | ok b => exact ⟨fun h => ⟨fun b' hb => Except.ok.inj hb ▸ h, by rintro _ ⟨⟩⟩, fun h => h.1 b rfl⟩
  | error e =>
    exact ⟨fun h => ⟨by rintro _ ⟨⟩, fun e' he => Except.error.inj he ▸ h⟩, fun h => h.2 e rfl⟩

/-- A code is verified, and only one that matches lets the task go on. -/
theorem wp_ifMatched {state : AuthState} {purpose : OtpPurpose} {subject code : String}
    {next : AuthTask Response} {Q : Except DomainError Response → AuthDb → Prop}
    (hmatched : (verifyOtp purpose subject code db.redis).1 = .ok .matched →
      next.run.wp (fun ω : Env => AuthDb.exec ω.toChoice) Q
        (db.onRedis (verifyOtp purpose subject code db.redis)).2)
    (hrejected : (verifyOtp purpose subject code db.redis).1 ≠ .ok .matched →
      ∀ out, Q out (db.onRedis (verifyOtp purpose subject code db.redis)).2) :
    (ifMatched state phoneRejection purpose subject code next).run.wp
      (fun ω : Env => AuthDb.exec ω.toChoice) Q db := by
  intro ω result db₁ he
  obtain ⟨hresult, rfl⟩ := Prod.ext_iff.mp (Option.some.inj he)
  have hanswer : (verifyOtp purpose subject code db.redis).1 = result := hresult
  rw [hanswer] at hmatched hrejected
  obtain e | v := result
  · exact hrejected (by rintro ⟨⟩) _
  cases v with
  | matched => exact hmatched rfl
  | invalid | exceeded | notFound => exact hrejected (by rintro ⟨⟩) _

end Rules

/-- Without a name and an address only the phone of a new user can be taken. -/
theorem conflict_iff (db : AuthDb) (user : User) (hid : user.id ∉ db.users)
    (husername : user.username = none) (hemail : user.email = none) :
    (user.id ∈ db.users ∨
      db.users.entries.any (fun e => AuthDb.conflicts user.toUserRow e.2) = true) ↔
      ∃ id row, db.users.lookup id = some row ∧ row.phone = user.phone := by
  simp only [hid, false_or, List.any_eq_true, AuthDb.conflicts, husername, hemail,
    Option.isSome_none, Bool.false_eq_true, and_false, or_false, decide_eq_true_eq]
  constructor
  · rintro ⟨⟨id, row⟩, hmem, hphone⟩
    exact ⟨id, row, AList.mem_lookup_iff.mpr hmem, hphone⟩
  · rintro ⟨id, row, hrow, hphone⟩
    exact ⟨⟨id, row⟩, AList.mem_lookup_iff.mp hrow, hphone⟩

/-- What a registration that runs alone does to the users. -/
theorem verifyPhone_users (state : AuthState) (r : VerifyPhoneRequest) {db : AuthDb}
    (hdrawn : UsersDrawn db) : (verifyPhone state r).run.wp (fun ω : Env => AuthDb.exec ω.toChoice)
      (fun _ db' => UsersDrawn db' ∧ UsersAfter db r db') db := by
  refine wp_ifMatched (fun hmatched => ?_) fun hne out => ⟨hdrawn, .same ?_ rfl⟩
  · have hcode := verifyOtp_matched_iff.mp hmatched
    refine (wp_liftError _ _ _).mpr ⟨fun phone hphone => ?_, fun e he => ⟨hdrawn, .same ?_ rfl⟩⟩
    · have hvalue := PhoneNumber.new_eq_ok hphone
      intro ω id db₁ he
      obtain ⟨hfresh, rfl⟩ := AuthDb.exec_newUuid_cases he
      intro ω' created db₂ he'
      have hid : id ∉ db.users := fun hm => hfresh (hdrawn id hm)
      have hconflict := conflict_iff db ⟨⟨none, phone,
        state.hashPhone phone.value state.phoneHashSecret, none, "", false, none, true, none⟩, id⟩
        hid rfl rfl
      have hinsert := Option.some.inj he'
      by_cases htaken : ∃ id row, db.users.lookup id = some row ∧ row.phone = phone
      · obtain ⟨rfl, rfl⟩ := Prod.mk.inj ((if_pos (hconflict.mpr htaken)).symm.trans hinsert)
        refine ⟨fun id' hm => List.mem_cons_of_mem _ (hdrawn id' hm), .same ?_ rfl⟩
        rintro ⟨-, -, hfree⟩
        obtain ⟨id', row, hrow, hphone'⟩ := htaken
        exact hfree id' row hrow ((congrArg PhoneNumber.value hphone').trans hvalue)
      · obtain ⟨rfl, rfl⟩ := Prod.mk.inj ((if_neg (mt hconflict.mp htaken)).symm.trans hinsert)
        have hregisters : Registers db r := by
          refine ⟨hcode, isE164_of_new.mp ⟨phone, hphone⟩, fun id' row hrow heq => htaken ?_⟩
          exact ⟨id', row, hrow, phoneValue_injective (heq.trans hvalue.symm)⟩
        refine (wp_of_keepsUsers ?_ ?_ rfl).mono fun _ db' h => ⟨h.1, .new hregisters id _ hvalue rfl rfl
          hid h.2⟩
        · refine ⟨trivial, fun n => Prog.Issues.tryBind (fromParts_keepsUsers _) fun device => ?_⟩
          exact Prog.Issues.tryBind (issueTokens_keepsUsers state _ _) fun _ => trivial
        · intro id' hm
          obtain rfl | hm := (AList.mem_insert _).mp hm
          · exact List.mem_cons_self
          · exact List.mem_cons_of_mem _ (hdrawn id' hm)
    · rintro ⟨-, hvalid, -⟩
      obtain ⟨phone, hphone⟩ := isE164_of_new.mpr hvalid
      cases he.symm.trans hphone
  · rintro ⟨hcode, -⟩
    exact hne (verifyOtp_matched_iff.mpr hcode)

end Mesty.Auth.Registration
