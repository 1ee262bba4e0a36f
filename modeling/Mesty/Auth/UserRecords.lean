import Mesty.Auth.Handlers
import Mesty.Concurrency.Pool
import Mesty.Contacts.Repository

namespace Mesty.Auth.UserRecords

open Mesty.Base.Ids Mesty.Base.Error Mesty.Concurrency.Program Mesty.Concurrency.Pool
open Mesty.Auth.Entities (PhoneNumber)
open Mesty.Auth.Otp (OtpVerifyResult)
open Mesty.Auth.Handlers (Response message setupRejection)
open Mesty.Contacts.Repository (normalizeE164 normalizeE164_value)

abbrev Timestamp := Int

/-- A row of `users` with all its columns but the id. -/
structure UserRecord where
  username : Option String
  phone : String
  phoneHash : Option String
  email : Option String
  avatarUrl : Option String
  statusText : Option String
  twoFaEnabled : Bool
  twoFaSecret : Option String
  isActive : Bool
  lastSeenAt : Option Timestamp
  createdAt : Timestamp
  updatedAt : Timestamp
  deletedAt : Option Timestamp
  deriving DecidableEq

structure Username where
  value : String
  deriving DecidableEq

/-- `isAlphanumeric` is `char::is_alphanumeric`, a property that Unicode defines. -/
def Username.new (isAlphanumeric : Char → Bool) (value : String) : Except DomainError Username :=
  if 3 ≤ value.utf8ByteSize ∧ value.utf8ByteSize ≤ 32 ∧
      value.toList.all (fun c => isAlphanumeric c || c = '_') then .ok ⟨value⟩
  else .error (.validation ("Invalid username: " ++ value))

structure Email where
  value : String
  valid : '@' ∈ value.toList ∧ '.' ∈ value.toList
  deriving DecidableEq

def Email.new (value : String) : Except DomainError Email :=
  if h : '@' ∈ value.toList ∧ '.' ∈ value.toList then .ok ⟨value, h⟩
  else .error (.validation ("Invalid email format: " ++ value))

/-- The entity, which has no avatar. -/
structure User where
  id : Uuid
  username : Option Username
  phone : PhoneNumber
  phoneHash : String
  email : Option Email
  statusText : String
  twoFaEnabled : Bool
  twoFaSecret : Option String
  isActive : Bool
  lastSeenAt : Option Timestamp
  createdAt : Timestamp
  updatedAt : Timestamp
  deletedAt : Option Timestamp
  deriving DecidableEq

/-- A row without `phone_hash` cannot be decoded. -/
def mapRecordToUser (isAlphanumeric : Char → Bool) (id : Uuid) (rec : UserRecord) :
    Except DomainError User := do
  let phoneHash ← rec.phoneHash.elim (.error (.fromSqlx .unexpected)) .ok
  let username ← rec.username.mapM (Username.new isAlphanumeric)
  let phone ← PhoneNumber.new rec.phone
  let email ← rec.email.mapM Email.new
  return {
    id, username, phone, phoneHash, email
    statusText := rec.statusText.getD ""
    twoFaEnabled := rec.twoFaEnabled
    twoFaSecret := rec.twoFaSecret
    isActive := rec.isActive
    lastSeenAt := rec.lastSeenAt
    createdAt := rec.createdAt
    updatedAt := rec.updatedAt
    deletedAt := rec.deletedAt }

/-- Two rows that the UNIQUE constraints do not allow. -/
def Conflicts (row row' : UserRecord) : Prop :=
  row.phone = row'.phone ∨ (row.username = row'.username ∧ row.username.isSome) ∨
    (row.email = row'.email ∧ row.email.isSome)

instance (row row' : UserRecord) : Decidable (Conflicts row row') :=
  inferInstanceAs (Decidable (_ ∨ _ ∨ _))

theorem Conflicts.symm {row row' : UserRecord} (h : Conflicts row row') : Conflicts row' row := by
  obtain h | ⟨h, hsome⟩ | ⟨h, hsome⟩ := h
  · exact .inl h.symm
  · exact .inr (.inl ⟨h.symm, h ▸ hsome⟩)
  · exact .inr (.inr ⟨h.symm, h ▸ hsome⟩)

theorem lookup_insert_ite {β : Type} {rows : AList (fun _ : Uuid => β)} {id id' : Uuid} {row : β} :
    (rows.insert id row).lookup id' = if id' = id then some row else rows.lookup id' := by
  split_ifs with h
  · rw [h, AList.lookup_insert]
  · exact AList.lookup_insert_ne h

structure UserTable where
  rows : AList (fun _ : Uuid => UserRecord)
  unique : ∀ id id' row row', rows.lookup id = some row → rows.lookup id' = some row' → id ≠ id' →
    ¬ Conflicts row row'

namespace UserTable

def empty : UserTable where
  rows := ∅
  unique _ _ _ _ h := by cases h

def put (t : UserTable) (id : Uuid) (row : UserRecord)
    (h : ∀ id' row', id' ≠ id → t.rows.lookup id' = some row' → ¬ Conflicts row row') :
    UserTable where
  rows := t.rows.insert id row
  unique := by
    intro id₁ id₂ row₁ row₂ h₁ h₂ hne
    rw [lookup_insert_ite] at h₁ h₂
    split_ifs at h₁ h₂ with he₁ he₂ he₂
    · exact absurd (he₁.trans he₂.symm) hne
    · obtain rfl := Option.some.inj h₁
      exact h id₂ row₂ he₂ h₂
    · obtain rfl := Option.some.inj h₂
      exact fun hc => h id₁ row₁ he₁ h₁ hc.symm
    · exact t.unique id₁ id₂ row₁ row₂ h₁ h₂ hne

def live (t : UserTable) (id : Uuid) : Option UserRecord :=
  (t.rows.lookup id).filter (fun row => row.deletedAt.isNone)

def findById (isAlphanumeric : Char → Bool) (t : UserTable) (id : Uuid) :
    Except DomainError (Option User) :=
  match t.live id with
  | none => .ok none
  | some row => (mapRecordToUser isAlphanumeric id row).map some

/-- What the UPDATE sets, the triggers included. -/
def updatedRow (now : Timestamp) (user : User) (phone : String) (old : UserRecord) : UserRecord :=
  { old with
    username := user.username.map Username.value
    phone := phone
    phoneHash := some user.phoneHash
    email := user.email.map Email.value
    statusText := some user.statusText
    twoFaEnabled := user.twoFaEnabled
    twoFaSecret := user.twoFaSecret
    isActive := user.isActive
    lastSeenAt := user.lastSeenAt
    updatedAt := now }

def update (now : Timestamp) (user : User) (t : UserTable) : Except DomainError Unit × UserTable :=
  match t.live user.id with
  | none => (.ok (), t)
  | some old =>
    match normalizeE164 user.phone.value with
    | .error e => (.error (.fromSqlx e), t)
    | .ok phone =>
      if h : ∀ e ∈ t.rows.entries, e.1 ≠ user.id → ¬ Conflicts (updatedRow now user phone old) e.2 then
        (.ok (), t.put user.id (updatedRow now user phone old)
          (fun id' row' hne hrow' => h ⟨id', row'⟩ (AList.mem_lookup_iff.mp hrow') hne))
      else (.error (.fromSqlx .uniqueViolation), t)

theorem live_eq_some {t : UserTable} {id : Uuid} {row : UserRecord} :
    t.live id = some row ↔ t.rows.lookup id = some row ∧ row.deletedAt = none := by
  rw [live, Option.filter_eq_some_iff, Option.isNone_iff_eq_none]

def updateLastSeen (now : Timestamp) (id : Uuid) (timestamp : Timestamp) (t : UserTable) : UserTable :=
  match h : t.live id with
  | none => t
  | some old => t.put id { old with lastSeenAt := some timestamp, updatedAt := now }
      (fun id' row' hne hrow' hc =>
        t.unique id id' old row' (live_eq_some.mp h).1 hrow' hne.symm hc)

/-- The entity has been made of the row; a row that it is written to keeps these columns. -/
structure Reads (row : UserRecord) (user : User) : Prop where
  username : user.username.map Username.value = row.username
  phone : user.phone.value = row.phone
  phoneHash : some user.phoneHash = row.phoneHash
  email : user.email.map Email.value = row.email
  statusText : user.statusText = row.statusText.getD ""
  twoFaSecret : user.twoFaSecret = row.twoFaSecret
  isActive : user.isActive = row.isActive

section Statements

variable {isAlphanumeric : Char → Bool} {t : UserTable} {id id' : Uuid} {row : UserRecord} {user : User}
  {now timestamp : Timestamp}

theorem mapM_value {α : Type} {f : String → Except DomainError α} {value : α → String}
    (hf : ∀ s a, f s = .ok a → value a = s) {o : Option String} {o' : Option α}
    (h : o.mapM f = .ok o') : o'.map value = o := by
  cases o with
  | none =>
    cases h
    rfl
  | some s =>
    cases hs : f s with
    | error e =>
      rw [Option.mapM_some, hs] at h
      cases h
    | ok a =>
      rw [Option.mapM_some, hs] at h
      cases h
      exact congrArg some (hf s a hs)

theorem username_new_value {value : String} {username : Username}
    (h : Username.new isAlphanumeric value = .ok username) : username.value = value := by
  rw [Username.new] at h
  split_ifs at h
  cases h
  rfl

theorem email_new_value {value : String} {email : Email} (h : Email.new value = .ok email) :
    email.value = value := by
  rw [Email.new] at h
  split_ifs at h
  cases h
  rfl

theorem reads_of_map (h : mapRecordToUser isAlphanumeric id row = .ok user) :
    user.id = id ∧ Reads row user ∧ user.lastSeenAt = row.lastSeenAt := by
  cases hhash : row.phoneHash with
  | none =>
    rw [mapRecordToUser, hhash] at h
    cases h
  | some phoneHash =>
    cases husername : row.username.mapM (Username.new isAlphanumeric) with
    | error e =>
      rw [mapRecordToUser, hhash, husername] at h
      cases h
    | ok username =>
      cases hphone : PhoneNumber.new row.phone with
      | error e =>
        rw [mapRecordToUser, hhash, husername, hphone] at h
        cases h
      | ok phone =>
        cases hemail : row.email.mapM Email.new with
        | error e =>
          rw [mapRecordToUser, hhash, husername, hphone, hemail] at h
          cases h
        | ok email =>
          rw [mapRecordToUser, hhash, husername, hphone, hemail] at h
          cases h
          exact ⟨rfl, ⟨mapM_value (fun _ _ => username_new_value) husername,
            PhoneNumber.new_eq_ok hphone, hhash.symm, mapM_value (fun _ _ => email_new_value) hemail,
            rfl, rfl, rfl⟩, rfl⟩

theorem readable_of_findById (h : t.findById isAlphanumeric id = .ok (some user)) :
    ∃ row, t.live id = some row ∧ mapRecordToUser isAlphanumeric id row = .ok user := by
  rw [findById] at h
  split at h
  · cases h
  · next row hlive =>
    cases hmap : mapRecordToUser isAlphanumeric id row with
    | error e =>
      rw [hmap] at h
      cases h
    | ok user' =>
      rw [hmap] at h
      cases h
      exact ⟨row, hlive, hmap⟩

theorem findById_of_readable (hrow : t.rows.lookup id = some row) (hdel : row.deletedAt = none)
    (hok : (mapRecordToUser isAlphanumeric id row).isOk) :
    ∃ user, t.findById isAlphanumeric id = .ok (some user) := by
  rw [findById, live_eq_some.mpr ⟨hrow, hdel⟩]
  cases hmap : mapRecordToUser isAlphanumeric id row with
  | error e =>
    rw [hmap] at hok
    cases hok
  | ok user => exact ⟨user, congrArg (Except.map some) hmap⟩

theorem lookup_put {h : ∀ id' row', id' ≠ id → t.rows.lookup id' = some row' → ¬ Conflicts row row'} :
    (t.put id row h).rows.lookup id' = if id' = id then some row else t.rows.lookup id' :=
  lookup_insert_ite

/-- Writing back what has been read of the row: the UPDATE changes at most four columns. -/
theorem update_of_reads (now : Timestamp) (hlive : t.live user.id = some row) (hreads : Reads row user) :
    ∃ t', t.update now user = (.ok (), t') ∧ ∀ id, t'.rows.lookup id =
      if id = user.id then some { row with
        statusText := some (row.statusText.getD "")
        twoFaEnabled := user.twoFaEnabled
        lastSeenAt := user.lastSeenAt
        updatedAt := now }
      else t.rows.lookup id := by
  have hrow : updatedRow now user user.phone.value row = { row with
      statusText := some (row.statusText.getD "")
      twoFaEnabled := user.twoFaEnabled
      lastSeenAt := user.lastSeenAt
      updatedAt := now } := by
    rw [updatedRow, hreads.username, hreads.phone, hreads.phoneHash, hreads.email, hreads.statusText,
      hreads.twoFaSecret, hreads.isActive]
  have hfree : ∀ e ∈ t.rows.entries, e.1 ≠ user.id →
      ¬ Conflicts (updatedRow now user user.phone.value row) e.2 := by
    intro e he hne hc
    rw [hrow] at hc
    exact t.unique user.id e.1 row e.2 (live_eq_some.mp hlive).1 (AList.mem_lookup_iff.mpr he) hne.symm hc
  refine ⟨t.put user.id (updatedRow now user user.phone.value row) (fun id' row' hne hrow' =>
    hfree ⟨id', row'⟩ (AList.mem_lookup_iff.mp hrow') hne), ?_, fun id => ?_⟩
  · simp only [update, hlive, normalizeE164_value]
    rw [dif_pos hfree]
  · rw [lookup_put, hrow]

theorem lookup_updateLastSeen : (t.updateLastSeen now id timestamp).rows.lookup id' =
    (t.rows.lookup id').map (fun row => if id' = id ∧ row.deletedAt = none then
      { row with lastSeenAt := some timestamp, updatedAt := now } else row) := by
  rw [updateLastSeen]
  split
  · next hnone =>
    by_cases hid : id' = id
    · subst hid
      cases hrow : t.rows.lookup id' with
      | none => rfl
      | some row =>
        rw [Option.map_some, if_neg]
        rintro ⟨-, hlive⟩
        rw [live_eq_some.mpr ⟨hrow, hlive⟩] at hnone
        cases hnone
    · simp [hid]
  · next row hlive =>
    obtain ⟨hrow, hdel⟩ := live_eq_some.mp hlive
    rw [lookup_put]
    by_cases hid : id' = id
    · subst hid
      simp [hrow, hdel]
    · simp [hid]

end Statements

end UserTable

/-- The statements of the repository and what the requests ask of Redis and the clock. -/
inductive UserCmd where
  | verifyTwoFaSetupOtp (userId code : String)
  | findById (id : Uuid)
  | update (user : User)
  | sadd (key member : String)
  | del (key : String)
  | utcNow
  | updateLastSeen (userId : Uuid) (timestamp : Timestamp)

abbrev UserCmd.Ans : UserCmd → Type
  | verifyTwoFaSetupOtp .. => Except String OtpVerifyResult
  | findById _ => Except DomainError (Option User)
  | update _ => Except DomainError Unit
  | sadd .. => Except String Unit
  | del _ | updateLastSeen .. => Unit
  | utcNow => Timestamp

/-- The task of a request: it may end with an error at each `?`. -/
abbrev UserTask := ExceptT DomainError (Prog UserCmd UserCmd.Ans)

section Task

variable {α : Type}

def ask (c : UserCmd) : UserTask c.Ans := ExceptT.lift (Prog.cmd c)

/-- A command whose answer is a `Result`. -/
def attempt (p : Prog UserCmd UserCmd.Ans (Except DomainError α)) : UserTask α := ExceptT.mk p

/-- `.map_err(|e| DomainError::Internal(e.to_string()))?` -/
def orInternal (r : Except String α) : UserTask α := ExceptT.mk (pure (r.mapError .internal))

def okOr (o : Option α) (e : DomainError) : UserTask α :=
  match o with
  | none => throw e
  | some a => pure a

end Task

def updateUser (user : User) : UserTask Unit := do
  attempt (Prog.cmd (UserCmd.update user))
  orInternal (← ask (.sadd "phone_hashes" user.phoneHash))

/-- The handler `two_fa_setup_verify`. -/
def twoFaSetupVerify (userId : Uuid) (code : String) : UserTask Response := do
  let result ← orInternal (← ask (.verifyTwoFaSetupOtp userId.toString code))
  match setupRejection result with
  | some response => return response
  | none =>
    let user ← okOr (← attempt (Prog.cmd (UserCmd.findById userId))) (.notFound "Usuario no encontrado")
    updateUser { user with twoFaEnabled := true }
    return message 200 "2FA habilitado"

/-- What the server does at the end of a WebSocket. The results are not looked at. -/
def cleanUp (userId : Uuid) : UserTask Unit := do
  ask (.del ("presence:" ++ userId.toString))
  ask (.updateLastSeen userId (← ask .utcNow))

/-- What Redis answers, and the clock, are not up to the tables. -/
structure UserChoice where
  now : Timestamp
  otp : Except String OtpVerifyResult
  added : Except String Unit

inductive UserReq where
  | twoFaSetupVerify (userId : Uuid) (code : String)
  | cleanUp (userId : Uuid)

def exec (isAlphanumeric : Char → Bool) (ω : UserChoice) :
    (c : UserCmd) → UserTable → Option (c.Ans × UserTable)
  | .verifyTwoFaSetupOtp .., t => some (ω.otp, t)
  | .findById id, t => some (t.findById isAlphanumeric id, t)
  | .update user, t => some (t.update ω.now user)
  | .sadd .., t => some (ω.added, t)
  | .del _, t => some ((), t)
  | .utcNow, t => some (ω.now, t)
  | .updateLastSeen id timestamp, t => some ((), t.updateLastSeen ω.now id timestamp)

/-- The requests that enable the second factor and the ends of the connections of all users. -/
def userServer (isAlphanumeric : Char → Bool) :
    System UserCmd UserCmd.Ans UserTable UserChoice UserReq (Except ApiError (Option Response)) where
  exec := exec isAlphanumeric
  tick _ _ := none
  handler
    | .twoFaSetupVerify userId code => (some <$> twoFaSetupVerify userId code).run
    | .cleanUp userId => ((fun _ => none) <$> cleanUp userId).run

end Mesty.Auth.UserRecords
