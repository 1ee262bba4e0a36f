import Mathlib.Tactic.IntervalCases
import Mesty.Auth.Middleware
import Mesty.Refinement.Repetition

namespace Mesty.Contacts.Repository

open Mesty.Base.Ids Mesty.Base.Error Mesty.Concurrency.Program Mesty.Redis.Server
open Mesty.Auth.Entities Mesty.Auth.Repository
open Mesty.Refinement.Repetition

/-- The function of the database, where `\d` is an ASCII digit. -/
def normalizeE164 (phone : String) : Except SqlError String :=
  let cleaned := phone.toList.filter (fun c => c.isDigit || c = '+')
  match cleaned with
  | '+' :: digits =>
    if digits.all Char.isDigit && 7 ≤ digits.length && digits.length ≤ 15 then
      .ok (String.ofList cleaned)
    else .error .other
  | _ => .error .other

/-- A row of `contacts` without its id. -/
structure ContactRow where
  ownerId : Uuid
  contactId : Option Uuid
  phone : String
  nickname : Option String
  isFavorite : Bool
  createdAt : Nat
  deriving DecidableEq

structure Contact where
  id : Uuid
  ownerId : Uuid
  contactId : Option Uuid
  phone : PhoneNumber
  nickname : Option String
  isFavorite : Bool
  createdAt : Nat

def mapRecordToContact (id : Uuid) (rec : ContactRow) : Except DomainError Contact := do
  let phone ← PhoneNumber.new rec.phone
  return ⟨id, rec.ownerId, rec.contactId, phone, rec.nickname, rec.isFavorite, rec.createdAt⟩

structure ContactsDb extends AuthDb where
  contacts : AList (fun _ : Uuid => ContactRow)

inductive ContactCmd where
  | auth (c : AuthCmd)
  | findByOwnerAndPhone (ownerId : Uuid) (phone : String)
  | findIdByPhone (phone : String)
  | insertContact (id : Uuid) (row : ContactRow)

abbrev ContactCmd.Ans : ContactCmd → Type
  | auth c => c.Ans
  | findByOwnerAndPhone .. => Except DomainError (Option Contact)
  | findIdByPhone _ => Option Uuid
  | insertContact .. => Except DomainError Unit

namespace ContactsDb

variable (db : ContactsDb)

def findByOwnerAndPhone (ownerId : Uuid) (phone : String) : Except DomainError (Option Contact) :=
  match db.contacts.entries.find? (fun e => e.2.ownerId = ownerId ∧ e.2.phone = phone) with
  | none => .ok none
  | some e => (mapRecordToContact e.1 e.2).map some

def findIdByPhone (phone : String) : Option Uuid :=
  (db.users.entries.find? (fun e => e.2.phone.value = phone ∧ e.2.deletedAt = none ∧
    e.2.isActive = true)).map Sigma.fst

/-- UNIQUE (owner_id, phone) -/
def hasContact (ownerId : Uuid) (phone : String) : Bool :=
  db.contacts.entries.any (fun e => e.2.ownerId = ownerId ∧ e.2.phone = phone)

/-- The trigger normalises the phone before the constraints are checked. -/
def insertContact (id : Uuid) (row : ContactRow) : Except DomainError Unit × ContactsDb :=
  match normalizeE164 row.phone with
  | .error e => (.error (.fromSqlx e), db)
  | .ok phone =>
    if id ∈ db.contacts ∨ db.hasContact row.ownerId phone then
      (.error (.fromSqlx .uniqueViolation), db)
    else if row.ownerId ∉ db.users ∨ row.contactId.any (· ∉ db.users) then
      (.error (.fromSqlx .foreignKeyViolation), db)
    else (.ok (), { db with contacts := db.contacts.insert id { row with phone := phone } })

def exec (ω : Choice) : (c : ContactCmd) → ContactsDb → Option (c.Ans × ContactsDb)
  | .auth c, db => (AuthDb.exec ω c db.toAuthDb).map
      (fun out => (out.1, { db with toAuthDb := out.2 }))
  | .findByOwnerAndPhone ownerId phone, db => some (db.findByOwnerAndPhone ownerId phone, db)
  | .findIdByPhone phone, db => some (db.findIdByPhone phone, db)
  | .insertContact id row, db => some (db.insertContact id row)

/-- Any users and sessions, and no contacts. -/
def init (now : Nat) (users : AList (fun _ : Uuid => UserRow))
    (sessions : AList (fun _ : Uuid × String => SessionRow)) : ContactsDb :=
  ⟨.init now users sessions, ∅⟩

end ContactsDb

section Normal

/-- What `\d` matches. -/
def digits : List Char := ['0', '1', '2', '3', '4', '5', '6', '7', '8', '9']

/-- `^\+\d{7,15}$` -/
def e164 : RegularExpression Char := .char '+' * between (oneOf digits) 7 15

/-- What `regexp_replace` leaves of a phone. -/
def cleaned (phone : String) : List Char :=
  phone.toList.filter (fun c => c.isDigit || c = '+')

variable {s t : String} {w : List Char}

theorem mem_digits {c : Char} : c ∈ digits ↔ c.isDigit := by
  constructor
  · exact List.all_eq_true.mp (by decide : digits.all Char.isDigit = true) c
  · intro h
    obtain ⟨hlower, hupper⟩ : 48 ≤ c.toNat ∧ c.toNat ≤ 57 := Char.isDigit_iff_toNat.mp h
    have hc := Char.ofNat_toNat c
    generalize c.toNat = n at hlower hupper hc
    subst hc
    interval_cases n <;> decide

theorem mem_e164 : w ∈ e164.matches' ↔
    ∃ ds, w = '+' :: ds ∧ 7 ≤ ds.length ∧ ds.length ≤ 15 ∧ ∀ d ∈ ds, d.isDigit := by
  rw [e164, RegularExpression.matches'_mul, Language.mem_mul]
  constructor
  · rintro ⟨u, rfl, ds, hds, rfl⟩
    obtain ⟨hlower, hupper, hmem⟩ := (mem_between (by decide)).mp hds
    exact ⟨ds, rfl, hlower, hupper, fun d hd => mem_digits.mp (hmem d hd)⟩
  · rintro ⟨ds, rfl, hlower, hupper, hdigits⟩
    exact ⟨['+'], rfl, ds, (mem_between (by decide)).mpr
      ⟨hlower, hupper, fun d hd => mem_digits.mpr (hdigits d hd)⟩, rfl⟩

/-- The function of the database strips, and then matches. -/
theorem normalizeE164_eq_ok : normalizeE164 s = .ok t ↔
    cleaned s ∈ e164.matches' ∧ String.ofList (cleaned s) = t := by
  rw [mem_e164]
  dsimp only [normalizeE164]
  split
  · next ds hds =>
    have hcleaned : cleaned s = '+' :: ds := hds
    rw [hcleaned, hds]
    simp only [Bool.and_eq_true, decide_eq_true_eq, List.all_eq_true]
    split_ifs with hvalid
    · obtain ⟨⟨hdigits, hlower⟩, hupper⟩ := hvalid
      constructor
      · intro h
        cases h
        exact ⟨⟨ds, rfl, hlower, hupper, hdigits⟩, rfl⟩
      · rintro ⟨-, rfl⟩
        rfl
    · constructor
      · intro h
        cases h
      · rintro ⟨⟨ds', hcons, hlower, hupper, hdigits⟩, -⟩
        obtain rfl := (List.cons.inj hcons).2
        exact absurd ⟨⟨hdigits, hlower⟩, hupper⟩ hvalid
  · next hne =>
    constructor
    · intro h
      cases h
    · rintro ⟨⟨ds, hcons, -⟩, -⟩
      exact absurd hcons (hne ds)

theorem utf8ByteSize_of_isDigit {digits : List Char} (h : ∀ c ∈ digits, c.isDigit) :
    (String.ofList digits).utf8ByteSize = digits.length := by
  induction digits with
  | nil => rfl
  | cons c digits ih =>
    have hc := h c List.mem_cons_self
    have hone : c.utf8Size = 1 := by
      simp only [Char.isDigit, Bool.and_eq_true, decide_eq_true_eq] at hc
      exact Char.utf8Size_eq_one_iff.mpr (UInt32.le_trans hc.2 (by decide))
    rw [String.ofList_cons, String.utf8ByteSize_append, String.utf8ByteSize_singleton, hone,
      ih fun d hd => h d (List.mem_cons_of_mem c hd), List.length_cons, Nat.add_comm]

theorem isE164_iff : isE164 s = true ↔ s.toList ∈ e164.matches' := by
  rw [mem_e164]
  unfold isE164
  split
  · next ds hds =>
    have hsize (hdigits : ∀ d ∈ ds, d.isDigit) : s.utf8ByteSize = ds.length + 1 := by
      rw [← String.ofList_toList (s := s), hds, String.ofList_cons, String.utf8ByteSize_append,
        String.utf8ByteSize_singleton, utf8ByteSize_of_isDigit hdigits, Nat.add_comm]
      rfl
    simp only [Bool.and_eq_true, decide_eq_true_eq, List.all_eq_true]
    constructor
    · rintro ⟨⟨hlower, hupper⟩, hdigits⟩
      rw [hsize hdigits] at hlower hupper
      exact ⟨ds, hds, by omega, by omega, hdigits⟩
    · rintro ⟨ds', hcons, hlower, hupper, hdigits⟩
      obtain rfl := (List.cons.inj (hds.symm.trans hcons)).2
      rw [hsize hdigits]
      exact ⟨⟨by omega, by omega⟩, hdigits⟩
  · next hne =>
    constructor
    · intro h
      cases h
    · rintro ⟨ds, hcons, -⟩
      exact absurd hcons (hne ds)

theorem exists_new_iff : (∃ phone, PhoneNumber.new s = .ok phone) ↔ s.toList ∈ e164.matches' :=
  isE164_of_new.trans isE164_iff

/-- Nothing is stripped of a phone that matches. -/
theorem cleaned_of_match (h : s.toList ∈ e164.matches') : cleaned s = s.toList := by
  obtain ⟨ds, hds, -, -, hdigits⟩ := mem_e164.mp h
  refine List.filter_eq_self.mpr fun c hc => ?_
  rw [hds] at hc
  obtain rfl | hc := List.mem_cons.mp hc
  · rfl
  · rw [hdigits c hc, Bool.true_or]

theorem new_iff_normalized :
    (∃ phone, PhoneNumber.new s = .ok phone) ↔ normalizeE164 s = .ok s := by
  rw [exists_new_iff, normalizeE164_eq_ok]
  constructor
  · intro h
    rw [cleaned_of_match h]
    exact ⟨h, String.ofList_toList⟩
  · rintro ⟨hmatch, hs⟩
    rwa [← hs, String.toList_ofList]

theorem matches_of_normalized (h : normalizeE164 s = .ok t) : t.toList ∈ e164.matches' := by
  obtain ⟨hmatch, rfl⟩ := normalizeE164_eq_ok.mp h
  rwa [String.toList_ofList]

/-- The trigger leaves a phone number as it is. -/
theorem normalizeE164_value (phone : PhoneNumber) : normalizeE164 phone.value = .ok phone.value :=
  new_iff_normalized.mp (isE164_of_new.mpr phone.valid)

end Normal

end Mesty.Contacts.Repository
