import Mesty.Auth.Records
import Mesty.Auth.Registration
import Mesty.Concurrency.Sequential
import Mesty.Contacts.Handlers
import Mesty.Stories.Repository

namespace Mesty.Contacts.Links

open Mesty.Base.Ids Mesty.Base.Error Mesty.Base.Text
open Mesty.Concurrency.Program Mesty.Concurrency.Pool Mesty.Concurrency.Sequential
open Mesty.Auth.Entities Mesty.Auth.Repository Mesty.Auth.Services Mesty.Auth.Middleware
open Mesty.Auth.Records Mesty.Auth.Registration
open Mesty.Auth.Handlers (VerifyPhoneRequest)
open Mesty.Contacts.Repository Mesty.Contacts.Handlers
open Mesty.Stories.Repository (StoriesDb)

/-- Each contact is linked to the user who has its phone, if there is one. -/
def Linked (db : ContactsDb) : Prop :=
  ∀ id row, db.contacts.lookup id = some row →
    ∀ userId, row.contactId = some userId ↔ ActiveUser db.users userId row.phone

/-- The columns of `contacts` that the queries for stories read. -/
def links (db : ContactsDb) : List (Uuid × Option Uuid) :=
  db.contacts.entries.map (fun e => (e.2.ownerId, e.2.contactId))

/-- The stories for contacts are for those whose phones are in the contacts. -/
def Visible (db : ContactsDb) : Prop :=
  ∀ stories : StoriesDb, stories.contacts = links db → ∀ ownerId viewerId,
    stories.hasContact ownerId viewerId = true ↔ ∃ id row, db.contacts.lookup id = some row ∧
      row.ownerId = ownerId ∧ ActiveUser db.users viewerId row.phone

/-- The request creates a contact whose phone is stored as `phone`. -/
def Adds (db : ContactsDb) (ownerId : Uuid) (req : CreateContactRequest) (phone : String) : Prop :=
  (trim req.phone).toList.head? = some '+' ∧
    db.findByOwnerAndPhone ownerId (trim req.phone) = .ok none ∧
    normalizeE164 (trim req.phone) = .ok phone ∧ db.hasContact ownerId phone = false ∧
    ownerId ∈ db.users

/-- Nobody is registered whose phone is in a contact already, and no contact is added for a
registered phone in another spelling than the stored one. -/
def KeepsLinks (db : ContactsDb) : ContactReq → Prop
  | .register .. => True
  | .verifyPhone r => Registers db.toAuthDb r →
      ∀ id row, db.contacts.lookup id = some row → row.phone ≠ r.phone
  | .createContact ownerId req => ∀ phone, Adds db ownerId req phone →
      (∃ userId, ActiveUser db.users userId phone) → trim req.phone = phone

/-- What the constraints of the tables promise. -/
structure Stored (db : ContactsDb) : Prop where
  phones : UniquePhones db.users
  users : UsersDrawn db.toAuthDb
  contacts : ∀ id ∈ db.contacts, id ∈ db.drawn

section Queries

variable {db : ContactsDb} {phone : String} {userId : Uuid}

theorem findIdByPhone_eq_some (hu : UniquePhones db.users) :
    db.findIdByPhone phone = some userId ↔ ActiveUser db.users userId phone := by
  rw [ContactsDb.findIdByPhone, Option.map_eq_some_iff]
  constructor
  · rintro ⟨⟨id, row⟩, hfind, rfl⟩
    have hrow := List.find?_some hfind
    simp only [decide_eq_true_eq] at hrow
    exact ⟨row, AList.mem_lookup_iff.mpr (List.mem_of_find?_eq_some hfind), hrow.1, hrow.2.2, hrow.2.1⟩
  · rintro ⟨row, hrow, hphone, hactive, hkept⟩
    have hmem := AList.mem_lookup_iff.mp hrow
    cases hfind : db.users.entries.find? (fun e => e.2.phone.value = phone ∧ e.2.deletedAt = none ∧
      e.2.isActive = true) with
    | none =>
      have hno := List.find?_eq_none.mp hfind _ hmem
      simp [hphone, hactive, hkept] at hno
    | some e =>
      obtain ⟨id, row'⟩ := e
      have hrow' := List.find?_some hfind
      simp only [decide_eq_true_eq] at hrow'
      refine ⟨_, rfl, hu id userId row' row ?_ hrow (phoneValue_injective (hrow'.1.trans hphone.symm))⟩
      exact AList.mem_lookup_iff.mpr (List.mem_of_find?_eq_some hfind)

/-- Stories are visible as the phones say where the contacts are linked. -/
theorem visible_of_linked (h : Linked db) : Visible db := by
  intro stories hstories ownerId viewerId
  rw [StoriesDb.hasContact, hstories, decide_eq_true_eq, links, List.mem_map]
  constructor
  · rintro ⟨⟨id, row⟩, hmem, heq⟩
    obtain ⟨rfl, hcontact⟩ := Prod.mk.inj heq
    have hrow := AList.mem_lookup_iff.mpr hmem
    exact ⟨id, row, hrow, rfl, (h id row hrow viewerId).mp hcontact⟩
  · rintro ⟨id, row, hrow, rfl, hactive⟩
    exact ⟨⟨id, row⟩, AList.mem_lookup_iff.mp hrow, by rw [(h id row hrow viewerId).mpr hactive]⟩

end Queries

/-- What a request to create a contact has made of the contacts. -/
inductive ContactsAfter (db : ContactsDb) (ownerId : Uuid) (req : CreateContactRequest)
    (db' : ContactsDb) : Prop where
  | same (h : ∀ phone, ¬ Adds db ownerId req phone) (hsame : db'.contacts = db.contacts)
  | new (phone : String) (h : Adds db ownerId req phone) (id : Uuid) (row : ContactRow)
      (hid : id ∉ db.contacts) (hphone : row.phone = phone)
      (hcontact : row.contactId = db.findIdByPhone (trim req.phone))
      (hnew : db'.contacts = db.contacts.insert id row)

/-- What an INSERT does with a new id and the contact that was looked up before. -/
theorem insertContact_cases {db : ContactsDb} (hs : Stored db) {id : Uuid} (hid : id ∉ db.contacts)
    (row : ContactRow) (hcontact : row.contactId = db.findIdByPhone row.phone) :
    (∃ e, db.insertContact id row = (.error e, db) ∧ ∀ phone, normalizeE164 row.phone = .ok phone →
      db.hasContact row.ownerId phone = false → row.ownerId ∉ db.users) ∨
    ∃ phone, normalizeE164 row.phone = .ok phone ∧ db.hasContact row.ownerId phone = false ∧
      row.ownerId ∈ db.users ∧ db.insertContact id row =
        (.ok (), { db with contacts := db.contacts.insert id { row with phone := phone } }) := by
  have hforeign : row.contactId.any (· ∉ db.users) = false := by
    rw [hcontact]
    cases hfind : db.findIdByPhone row.phone with
    | none => trivial
    | some userId =>
      obtain ⟨user, huser, -⟩ := (findIdByPhone_eq_some hs.phones).mp hfind
      have hmem : userId ∈ db.users := AList.lookup_isSome.mp (by rw [huser, Option.isSome_some])
      simp [hmem]
  rw [ContactsDb.insertContact]
  cases hnormal : normalizeE164 row.phone with
  | error e => exact .inl ⟨_, rfl, by rintro phone ⟨⟩⟩
  | ok phone =>
    dsimp only
    by_cases htaken : db.hasContact row.ownerId phone = true
    · rw [if_pos (.inr htaken)]
      refine .inl ⟨_, rfl, fun phone' heq hfree => ?_⟩
      obtain rfl := Except.ok.inj heq
      rw [htaken] at hfree
      cases hfree
    · rw [if_neg (not_or.mpr ⟨hid, htaken⟩)]
      by_cases howner : row.ownerId ∈ db.users
      · rw [if_neg (not_or.mpr ⟨not_not_intro howner, by rw [hforeign]; exact Bool.false_ne_true⟩)]
        exact .inr ⟨phone, rfl, Bool.eq_false_of_not_eq_true htaken, howner, rfl⟩
      · rw [if_pos (.inl howner)]
        exact .inl ⟨_, rfl, fun _ _ _ => howner⟩

section Requests

attribute [local irreducible] trim

variable {db : ContactsDb} {α : Type}

/-- The commands of an auth request leave the contacts as they are. -/
theorem wp_ofAuth {p : AuthProg α} {Q : α → ContactsDb → Prop}
    (h : p.wp (fun ω : Env => AuthDb.exec ω.toChoice)
      (fun a auth => Q a { db with toAuthDb := auth }) db.toAuthDb) :
    (ContactTask.ofAuth p).wp (fun ω : Env => ContactsDb.exec ω.toChoice) Q db := by
  induction p generalizing db with
  | ret a => exact h
  | call c k ih =>
    intro ω r db' he
    obtain ⟨⟨r', auth⟩, hc, heq⟩ := Option.map_eq_some_iff.mp he
    obtain ⟨rfl, rfl⟩ := Prod.mk.inj heq
    exact ih _ (h ω _ _ hc)

theorem handleAuth_wp {state : AuthState} (req : AuthReq) {Q : AuthDb → Prop}
    (h : (req.handle state).run.wp (fun ω : Env => AuthDb.exec ω.toChoice) (fun _ auth => Q auth)
      db.toAuthDb) :
    (handleAuth state req).run.wp (fun ω : Env => ContactsDb.exec ω.toChoice)
      (fun _ db' => Q db'.toAuthDb ∧ db'.contacts = db.contacts) db := by
  refine Prog.wp_run_bind.mpr (wp_ofAuth (h.mono fun out auth hQ => ?_))
  cases out with
  | ok response => exact ⟨hQ, rfl⟩
  | error e => exact ⟨hQ, rfl⟩

theorem Stored.draw (hs : Stored db) (id : Uuid) :
    Stored { db with toAuthDb := { db.toAuthDb with drawn := id :: db.drawn } } :=
  ⟨hs.phones, fun id' h => List.mem_cons_of_mem _ (hs.users id' h),
    fun id' h => List.mem_cons_of_mem _ (hs.contacts id' h)⟩

theorem Stored.insert (hs : Stored db) (id : Uuid) (hid : id ∈ db.drawn) (row : ContactRow) :
    Stored { db with contacts := db.contacts.insert id row } := by
  refine ⟨hs.phones, hs.users, fun id' hm => ?_⟩
  obtain rfl | hm := (AList.mem_insert _).mp hm
  · exact hid
  · exact hs.contacts id' hm

theorem newUuid_cases {ω : Choice} {id : Uuid} {db' : ContactsDb}
    (he : ContactsDb.exec ω (.auth .newUuid) db = some (id, db')) : id ∉ db.drawn ∧
      db' = { db with toAuthDb := { db.toAuthDb with drawn := id :: db.drawn } } := by
  obtain ⟨⟨_, auth⟩, hauth, heq⟩ := Option.map_eq_some_iff.mp he
  obtain ⟨rfl, rfl⟩ := Prod.mk.inj heq
  obtain ⟨hfresh, rfl⟩ := AuthDb.exec_newUuid_cases hauth
  exact ⟨hfresh, rfl⟩

theorem createContact_wp (hs : Stored db) (ownerId : Uuid) (req : CreateContactRequest) :
    (createContact ownerId req).run.wp (fun ω : Env => ContactsDb.exec ω.toChoice)
      (fun _ db' => Stored db' ∧ db'.users = db.users ∧ ContactsAfter db ownerId req db') db := by
  rw [createContact]
  split_ifs with hformat
  · refine ⟨hs, rfl, .same (fun phone hadds => ?_) rfl⟩
    obtain hempty | hhead := hformat
    · have hnil : (trim req.phone).toList = [] := by simpa using hempty
      rw [Adds, hnil] at hadds
      cases hadds.1
    · exact hhead hadds.1
  have hnone : ∀ {phone}, Adds db ownerId req phone →
      db.findByOwnerAndPhone ownerId (trim req.phone) = .ok none := fun hadds => hadds.2.1
  intro ω existing db₁ he
  obtain ⟨hexisting, rfl⟩ := Prod.ext_iff.mp (Option.some.inj he)
  obtain e | existing | existing := existing
  · refine ⟨hs, rfl, .same (fun phone hadds => ?_) rfl⟩
    cases hexisting.symm.trans (hnone hadds)
  · intro ω₁ contactId db₁ he₁
    obtain ⟨hcontact, rfl⟩ := Prod.ext_iff.mp (Option.some.inj he₁)
    intro ω₂ id db₂ he₂
    obtain ⟨hfresh, rfl⟩ := newUuid_cases he₂
    intro ω₃ now db₃ he₃
    obtain ⟨-, rfl⟩ := Prod.ext_iff.mp (Option.some.inj he₃)
    intro ω₄ created db₄ he₄
    have hid : id ∉ db.contacts := fun hm => hfresh (hs.contacts id hm)
    have hinsert := insertContact_cases (hs.draw id) hid
      ⟨ownerId, contactId, trim req.phone, req.nickname, false, now⟩ hcontact.symm
    obtain ⟨e, heq, hno⟩ | ⟨phone, hnormal, hfree, howner, heq⟩ := hinsert
    · obtain ⟨rfl, rfl⟩ := Prod.mk.inj (heq.symm.trans (Option.some.inj he₄))
      exact ⟨hs.draw id, rfl, .same (fun phone hadds =>
        hno phone hadds.2.2.1 hadds.2.2.2.1 hadds.2.2.2.2) rfl⟩
    · obtain ⟨rfl, rfl⟩ := Prod.mk.inj (heq.symm.trans (Option.some.inj he₄))
      have hadds : Adds db ownerId req phone :=
        ⟨not_not.mp (not_or.mp hformat).2, hexisting, hnormal, hfree, howner⟩
      have hstored := (hs.draw id).insert id List.mem_cons_self
        ⟨ownerId, contactId, phone, req.nickname, false, now⟩
      intro ω₅ id' db₅ he₅
      obtain ⟨-, rfl⟩ := newUuid_cases he₅
      intro ω₆ now' db₆ he₆
      obtain ⟨-, rfl⟩ := Prod.ext_iff.mp (Option.some.inj he₆)
      exact ⟨hstored.draw id', rfl, .new phone hadds id _ hid rfl hcontact.symm rfl⟩
  · refine ⟨hs, rfl, .same (fun phone hadds => ?_) rfl⟩
    cases hexisting.symm.trans (hnone hadds)

theorem drawn_exec {ω : Choice} {c : ContactCmd} {ans : c.Ans} {db' : ContactsDb}
    (he : ContactsDb.exec ω c db = some (ans, db')) : ∀ id ∈ db.drawn, id ∈ db'.drawn := by
  intro id hid
  cases c with
  | auth c =>
    obtain ⟨⟨_, auth⟩, hauth, heq⟩ := Option.map_eq_some_iff.mp he
    obtain ⟨-, rfl⟩ := Prod.mk.inj heq
    rw [(AuthDb.exec_drawn hauth).1]
    exact List.mem_append_right _ hid
  | insertContact id' row =>
    obtain ⟨-, rfl⟩ := Prod.ext_iff.mp (Option.some.inj he)
    dsimp only [ContactsDb.insertContact]
    split
    · exact hid
    · split_ifs <;> exact hid
  | findByOwnerAndPhone | findIdByPhone =>
    obtain ⟨-, rfl⟩ := Prod.ext_iff.mp (Option.some.inj he)
    exact hid

end Requests

section Steps

variable {db db' : ContactsDb} {userId : Uuid} {phone : String}

theorem activeUser_insert {users : AList (fun _ : Uuid => UserRow)} {id : Uuid} {row : UserRow}
    (hid : id ∉ users) (hactive : row.isActive = true) (hkept : row.deletedAt = none) :
    ActiveUser (users.insert id row) userId phone ↔
      userId = id ∧ row.phone.value = phone ∨ ActiveUser users userId phone := by
  by_cases heq : userId = id
  · subst heq
    have hnone : users.lookup userId = none := AList.lookup_eq_none.mpr hid
    simp [ActiveUser, AList.lookup_insert, hnone, hactive, hkept]
  · simp [ActiveUser, AList.lookup_insert_ne heq, heq]

/-- A registration leaves the contacts linked if and only if its phone is in none of them. -/
theorem linked_registered {r : VerifyPhoneRequest} (hl : Linked db)
    (hcontacts : db'.contacts = db.contacts) (h : UsersAfter db.toAuthDb r db'.toAuthDb) :
    KeepsLinks db (.verifyPhone r) ↔ Linked db' := by
  cases h with
  | same hno hsame =>
    refine iff_of_true (fun hr => absurd hr hno) fun id row hrow userId => ?_
    rw [hsame]
    exact hl id row (hcontacts ▸ hrow) userId
  | new hr id user hphone hactive hkept hid hnew =>
    constructor
    · intro hkeeps id' row hrow userId
      rw [hcontacts] at hrow
      have hne : user.phone.value ≠ row.phone :=
        fun heq => hkeeps hr id' row hrow (heq.symm.trans hphone)
      rw [hnew, activeUser_insert hid hactive hkept, hl id' row hrow userId]
      simp [hne]
    · intro hl' _ id' row hrow heq
      have hlink := hl' id' row (hcontacts.symm ▸ hrow) id
      rw [hnew, activeUser_insert hid hactive hkept, hphone] at hlink
      obtain ⟨row', hrow', -⟩ := (hl id' row hrow id).mp (hlink.mpr (.inl ⟨rfl, heq.symm⟩))
      exact hid (AList.lookup_isSome.mp (by rw [hrow', Option.isSome_some]))

/-- Who has the phone that a request spells is found under it alone. -/
theorem normalize_of_activeUser (h : ActiveUser db.users userId phone) :
    normalizeE164 phone = .ok phone := by
  obtain ⟨row, -, rfl, -⟩ := h
  exact normalizeE164_value row.phone

theorem linked_added {ownerId : Uuid} {req : CreateContactRequest} (hs : Stored db)
    (hl : Linked db) (husers : db'.users = db.users) (h : ContactsAfter db ownerId req db') :
    KeepsLinks db (.createContact ownerId req) ↔ Linked db' := by
  cases h with
  | same hno hsame =>
    refine iff_of_true (fun phone hadds => absurd hadds (hno phone)) fun id row hrow userId => ?_
    rw [husers]
    exact hl id row (hsame ▸ hrow) userId
  | new phone hadds id row hid hphone hcontact hnew =>
    have hlink : ∀ userId, row.contactId = some userId ↔
        ActiveUser db.users userId (trim req.phone) := by
      intro userId
      rw [hcontact]
      exact findIdByPhone_eq_some hs.phones
    constructor
    · intro hkeeps id' row' hrow' userId
      rw [hnew] at hrow'
      rw [husers]
      by_cases hidd : id' = id
      · subst hidd
        obtain rfl := Option.some.inj ((AList.lookup_insert _).symm.trans hrow')
        rw [hlink userId, hphone]
        constructor
        · intro hactive
          have hsame := Except.ok.inj ((normalize_of_activeUser hactive).symm.trans hadds.2.2.1)
          exact hsame ▸ hactive
        · intro hactive
          exact (hkeeps phone hadds ⟨userId, hactive⟩).symm ▸ hactive
      · exact hl id' row' ((AList.lookup_insert_ne hidd).symm.trans hrow') userId
    · rintro hl' phone' hadds' ⟨userId, hactive⟩
      obtain rfl := Except.ok.inj (hadds.2.2.1.symm.trans hadds'.2.2.1)
      have hrow : db'.contacts.lookup id = some row := by rw [hnew, AList.lookup_insert]
      have hself := hl' id row hrow userId
      rw [husers, hphone] at hself
      obtain ⟨user, huser, hvalue, -⟩ := (hlink userId).mp (hself.mpr hactive)
      obtain ⟨user', huser', hvalue', -⟩ := hactive
      obtain rfl := Option.some.inj (huser.symm.trans huser')
      exact hvalue.symm.trans hvalue'

theorem uniquePhones_after {r : VerifyPhoneRequest} (hu : UniquePhones db.users)
    (h : UsersAfter db.toAuthDb r db'.toAuthDb) : UniquePhones db'.users := by
  cases h with
  | same _ hsame =>
    rw [hsame]
    exact hu
  | new hr id user hphone hactive hkept hid hnew =>
    rw [hnew]
    exact hu.insert fun id' row' hrow' heq =>
      absurd ((congrArg PhoneNumber.value heq).trans hphone) (hr.2.2 id' row' hrow')

end Steps

abbrev SerialConfig := Config ContactReq (fun _ => Except ApiError Response) ContactsDb ContactReq
  (Except ApiError Response)

abbrev SerialAct := Act ContactReq (List Env)

def InOrder (c : SerialConfig) : SerialAct → Prop
  | .step i _ => ∀ r, c.tasks[i]?.bind (fun t => t.2.next) = some r → KeepsLinks c.db r
  | _ => True

attribute [local irreducible] trim in
/-- What one request does to linked contacts. -/
theorem request_linked {state : AuthState} {db db' : ContactsDb} {req : ContactReq} {ωs : List Env}
    {out : Except ApiError Response} (hs : Stored db)
    (he : ((contactServer state).handler req).alone (contactServer state).exec ωs db =
      some (out, db')) : Stored db' ∧ (Linked db → (KeepsLinks db req ↔ Linked db')) := by
  have hdrawn : ∀ id ∈ db.contacts, id ∈ db'.drawn := by
    have hwp : ((contactServer state).handler req).wp (contactServer state).exec
        (fun _ (db' : ContactsDb) => ∀ id ∈ db.contacts, id ∈ db'.drawn) db := by
      refine Prog.Issues.wp (P := fun _ => True)
        (I := fun db' : ContactsDb => ∀ id ∈ db.contacts, id ∈ db'.drawn)
        ?_ (Prog.issues_of_forall (fun _ => trivial) _) hs.contacts
      exact fun ω c r s s' _ hI he id hid => drawn_exec he id (hI id hid)
    exact hwp.of_alone he
  cases req with
  | register clientIp req =>
    have hwp := handleAuth_wp (.register clientIp req) (wp_of_keepsUsers
      (register_keepsUsers state clientIp req) hs.users rfl)
    obtain ⟨⟨hauth, husers⟩, hcontacts⟩ := hwp.of_alone he
    refine ⟨⟨husers.symm ▸ hs.phones, hauth, hcontacts.symm ▸ hdrawn⟩, fun hl => ?_⟩
    refine iff_of_true trivial fun id row hrow userId => ?_
    rw [husers]
    exact hl id row (hcontacts ▸ hrow) userId
  | verifyPhone r =>
    have hwp := handleAuth_wp (.verifyPhone r) (verifyPhone_users state r hs.users)
    obtain ⟨⟨hauth, hafter⟩, hcontacts⟩ := hwp.of_alone he
    refine ⟨⟨uniquePhones_after hs.phones hafter, hauth, hcontacts.symm ▸ hdrawn⟩, fun hl => ?_⟩
    exact linked_registered hl hcontacts hafter
  | createContact ownerId req =>
    obtain ⟨hstored, husers, hafter⟩ := (createContact_wp hs ownerId req).of_alone he
    exact ⟨hstored, fun hl => linked_added hs hl husers hafter⟩

theorem stored_apply {state : AuthState} {c d : SerialConfig} {a : SerialAct} (hs : Stored c.db)
    (ha : (atomic (contactServer state)).apply a c = some d) : Stored d.db := by
  obtain hdb | ⟨i, ωs, r, out, -, -, hrun⟩ | ⟨ω, htick⟩ := atomic_cases ha
  · exact hdb ▸ hs
  · exact (request_linked hs hrun).1
  · rw [← Option.some.inj htick]
    exact ⟨hs.phones, hs.users, hs.contacts⟩

theorem inOrder_iff {state : AuthState} {c d : SerialConfig} {a : SerialAct} (hs : Stored c.db)
    (hl : Linked c.db) (ha : (atomic (contactServer state)).apply a c = some d) :
    InOrder c a ↔ Linked d.db := by
  obtain ⟨r, rfl, rfl⟩ | ⟨i, ωs, r, cmd, k, ans, s, rfl, ht, he, rfl⟩ | ⟨ωs, s, rfl, htick, rfl⟩ :=
    System.apply_cases ha
  · exact iff_of_true trivial hl
  · simp only [InOrder, ht, Option.bind_some, Prog.next_call, Option.some.injEq, forall_eq']
    exact (request_linked hs he).2 hl
  · obtain ⟨ω, -, hω⟩ := Option.bind_eq_some_iff.mp htick
    obtain rfl := Option.some.inj hω
    exact iff_of_true trivial hl

/-- In a run of registrations and new contacts, one request after the other, the contacts are
linked to the users with their phones in all states, and stories are visible accordingly,
exactly if no registered phone was a contact before and no contact spells a registered phone
in another way. -/
theorem linked_iff_in_order (state : AuthState) (now : Nat)
    (users : AList (fun _ : Uuid => UserRow)) (hphones : UniquePhones users)
    (sessions : AList (fun _ : Uuid × String => SessionRow)) (acts : List SerialAct) :
    (atomic (contactServer state)).Every InOrder acts (System.start (.init now users sessions)) ↔
      ∀ c ∈ (atomic (contactServer state)).trace acts (System.start (.init now users sessions)),
        Linked c.db ∧ Visible c.db := by
  have hiff : ∀ c : SerialConfig, Linked c.db ∧ Visible c.db ↔ Linked c.db :=
    fun c => and_iff_left_of_imp visible_of_linked
  simp only [hiff]
  refine System.every_iff_forall (J := fun c => Stored c.db) (fun hs ha => stored_apply hs ha)
    (fun hs hl ha => inOrder_iff hs hl ha) acts ⟨hphones, fun id hm => ?_, ?_⟩ ?_
  · exact List.mem_append_left _ hm
  · rintro id ⟨⟩
  · rintro id row ⟨⟩

theorem aliceUsers_uniquePhones : UniquePhones aliceUsers := by
  intro id id' row row' h h' _
  by_cases hid : id = aliceId <;> by_cases hid' : id' = aliceId
  · exact hid.trans hid'.symm
  · cases (AList.lookup_insert_ne hid').symm.trans h'
  · cases (AList.lookup_insert_ne hid).symm.trans h
  · cases (AList.lookup_insert_ne hid).symm.trans h

section Bob

def bobPhone : String := "+573007654321"

def bobServer : AuthState :=
  { aliceServer with jwtEncode := fun _ => .ok "e30.e30.", toJson := fun _ => .ok "\x7b\x7d" }

def draws (start n : Nat) : List Env := (List.range' start n).map (fun n => ⟨⟨.ofNat n, 482913⟩, 0⟩)

/-- Bob registers. -/
def bobRegisters (i : Nat) : List SerialAct :=
  [.spawn (.register "10.0.0.2" ⟨bobPhone, "pixel-9", "Pixel 9", "android"⟩), .step i (draws 0 4),
    .spawn (.verifyPhone ⟨⟨some "pixel-9", some "Pixel 9", some "android", none⟩, bobPhone,
      "482913"⟩), .step (i + 1) (draws 0 9)]

def aliceAddsBob (i : Nat) : List SerialAct :=
  [.spawn (.createContact aliceId ⟨bobPhone, none⟩), .step i (draws 20 7)]

theorem bob_linked_iff_in_order :
    (atomic (contactServer bobServer)).Every InOrder (bobRegisters 0 ++ aliceAddsBob 2)
      (System.start (.init 1700000000000 aliceUsers ∅)) ↔
    ∀ c ∈ (atomic (contactServer bobServer)).trace (bobRegisters 0 ++ aliceAddsBob 2)
      (System.start (.init 1700000000000 aliceUsers ∅)), Linked c.db ∧ Visible c.db :=
  linked_iff_in_order bobServer 1700000000000 aliceUsers aliceUsers_uniquePhones ∅ _

/-- Alice has a contact with the phone under which Bob registers then. -/
theorem bob_unlinked :
    ¬ ∀ c ∈ (atomic (contactServer bobServer)).trace (aliceAddsBob 0 ++ bobRegisters 1)
      (System.start (.init 1700000000000 aliceUsers ∅)), Linked c.db ∧ Visible c.db := by
  intro h
  have hlast : ∃ c ∈ ((atomic (contactServer bobServer)).trace (aliceAddsBob 0 ++ bobRegisters 1)
      (System.start (.init 1700000000000 aliceUsers ∅)))[6]?,
      (∃ row ∈ c.db.contacts.lookup (.ofNat 22), row.contactId = none ∧ row.phone = bobPhone) ∧
      ∃ user ∈ c.db.users.lookup (.ofNat 1), user.phone.value = bobPhone ∧ user.isActive = true ∧
        user.deletedAt = none := by
    decide +kernel
  obtain ⟨c, hc, ⟨row, hrow, hnone, hphone⟩, user, huser, hactive⟩ := hlast
  have hlink := ((h c (List.mem_of_getElem? hc)).1 _ row hrow _).mpr ⟨user, huser, hphone ▸ hactive⟩
  cases hnone.symm.trans hlink

end Bob

end Mesty.Contacts.Links
