import Mesty.Auth.UserRecords

namespace Mesty.Contacts.PhoneNumbers

open Mesty.Base.Ids Mesty.Base.Error
open Mesty.Auth.Entities (PhoneNumber)
open Mesty.Auth.UserRecords Mesty.Auth.UserRecords.UserTable
open Mesty.Contacts.Repository

section Trigger

theorem lookup_of_erase {β : Type} {rows : AList (fun _ : Uuid => β)} {id id' : Uuid} {row : β}
    (h : (rows.erase id').lookup id = some row) : rows.lookup id = some row := by
  by_cases hid : id = id'
  · rw [hid, AList.lookup_erase] at h
    cases h
  · rwa [AList.lookup_erase_ne hid] at h

def trgNormalizeUserPhone (row : UserRecord) : Except SqlError UserRecord := do
  let phone ← normalizeE164 row.phone
  return { row with phone := phone }

/-- A row of which the phone can be read back. -/
def Accepted (row : UserRecord) : Prop := ∃ phone, PhoneNumber.new row.phone = .ok phone

theorem trgNormalizeUserPhone_of_accepted {row : UserRecord} (h : Accepted row) :
    trgNormalizeUserPhone row = .ok row := by
  rw [trgNormalizeUserPhone, new_iff_normalized.mp h]
  rfl

theorem accepted_of_trgNormalizeUserPhone {row row' : UserRecord}
    (h : trgNormalizeUserPhone row = .ok row') : Accepted row' := by
  cases hphone : normalizeE164 row.phone with
  | error e =>
    rw [trgNormalizeUserPhone, hphone] at h
    cases h
  | ok phone =>
    rw [trgNormalizeUserPhone, hphone] at h
    cases h
    exact exists_new_iff.mpr (matches_of_normalized hphone)

/-- Any statement for one row of `users`. The trigger is for those that write the phone. -/
inductive UserStatement where
  | insert (id : Uuid) (row : UserRecord)
  | updatePhone (id : Uuid) (set : UserRecord → UserRecord)
  | updateOthers (id : Uuid) (set : UserRecord → UserRecord)
  | delete (id : Uuid)

/-- The row is written unless a UNIQUE constraint forbids it. -/
def write (t : UserTable) (id : Uuid) (row : UserRecord) : UserTable :=
  if h : ∀ e ∈ t.rows.entries, e.1 ≠ id → ¬ Conflicts row e.2 then
    t.put id row (fun id' row' hne hrow' => h ⟨id', row'⟩ (AList.mem_lookup_iff.mp hrow') hne)
  else t

def erase (t : UserTable) (id : Uuid) : UserTable where
  rows := t.rows.erase id
  unique id₁ id₂ row₁ row₂ h₁ h₂ :=
    t.unique id₁ id₂ row₁ row₂ (lookup_of_erase h₁) (lookup_of_erase h₂)

def triggered (t : UserTable) (id : Uuid) (row : UserRecord) : UserTable :=
  match trgNormalizeUserPhone row with
  | .error _ => t
  | .ok row => write t id row

def exec (t : UserTable) : UserStatement → UserTable
  | .insert id row => if id ∈ t.rows then t else triggered t id row
  | .updatePhone id set =>
    match t.rows.lookup id with
    | none => t
    | some old => triggered t id (set old)
  | .updateOthers id set =>
    match t.rows.lookup id with
    | none => t
    | some old => write t id { set old with phone := old.phone }
  | .delete id => erase t id

def AllAccepted (t : UserTable) : Prop := ∀ id row, t.rows.lookup id = some row → Accepted row

variable {t : UserTable} {id : Uuid} {row : UserRecord}

theorem AllAccepted.write (h : AllAccepted t) (hrow : Accepted row) :
    AllAccepted (write t id row) := by
  intro id' row' hrow'
  rw [PhoneNumbers.write] at hrow'
  split_ifs at hrow' with hfree
  · rw [lookup_put] at hrow'
    split_ifs at hrow' with hid
    · obtain rfl := Option.some.inj hrow'
      exact hrow
    · exact h id' row' hrow'
  · exact h id' row' hrow'

theorem AllAccepted.triggered (h : AllAccepted t) : AllAccepted (triggered t id row) := by
  rw [PhoneNumbers.triggered]
  split
  · exact h
  · next row' hrow' => exact h.write (accepted_of_trgNormalizeUserPhone hrow')

theorem AllAccepted.exec (h : AllAccepted t) (statement : UserStatement) :
    AllAccepted (exec t statement) := by
  cases statement with
  | insert id row =>
    rw [PhoneNumbers.exec]
    split_ifs
    · exact h
    · exact h.triggered
  | updatePhone id set =>
    rw [PhoneNumbers.exec]
    split
    · exact h
    · exact h.triggered
  | updateOthers id set =>
    rw [PhoneNumbers.exec]
    split
    · exact h
    · next old hold => exact h.write (h id old hold)
  | delete id => exact fun id' row' hrow' => h id' row' (lookup_of_erase hrow')

theorem AllAccepted.run (h : AllAccepted t) (statements : List UserStatement) :
    AllAccepted (statements.foldl PhoneNumbers.exec t) := by
  induction statements generalizing t with
  | nil => exact h
  | cons statement statements ih => exact ih (h.exec statement)

theorem write_eq {h : ∀ id' row', id' ≠ id → t.rows.lookup id' = some row' → ¬ Conflicts row row'} :
    write t id row = t.put id row h :=
  dif_pos fun ⟨id', row'⟩ he hne => h id' row' hne (AList.mem_lookup_iff.mpr he)

/-- The statements of the repository are two of these. -/
theorem update_eq_exec {now : Timestamp} {user : User} {old : UserRecord}
    (hlive : t.live user.id = some old) :
    (t.update now user).2 =
      exec t (.updatePhone user.id (updatedRow now user user.phone.value)) := by
  have htrigger : trgNormalizeUserPhone (updatedRow now user user.phone.value old) =
      .ok (updatedRow now user user.phone.value old) := by
    rw [trgNormalizeUserPhone, updatedRow, normalizeE164_value]
    rfl
  simp only [exec, (live_eq_some.mp hlive).1, triggered, htrigger, write, UserTable.update, hlive,
    normalizeE164_value]
  split_ifs <;> rfl

theorem updateLastSeen_eq_exec {now timestamp : Timestamp} {old : UserRecord}
    (hlive : t.live id = some old) :
    t.updateLastSeen now id timestamp = exec t (.updateOthers id
      (fun old => { old with lastSeenAt := some timestamp, updatedAt := now })) := by
  simp only [exec, (live_eq_some.mp hlive).1]
  rw [UserTable.updateLastSeen]
  split
  · next hnone =>
    rw [hlive] at hnone
    cases hnone
  · next old' hlive' =>
    obtain rfl := Option.some.inj (hlive.symm.trans hlive')
    exact write_eq.symm

end Trigger

/-- The two agree on every text, and what the trigger stores can be read. -/
theorem validators_agree :
    (∀ s, (∃ phone, PhoneNumber.new s = .ok phone) ↔ normalizeE164 s = .ok s) ∧
    (∀ row : UserRecord, (∃ phone, PhoneNumber.new row.phone = .ok phone) →
      trgNormalizeUserPhone row = .ok row) ∧
    (∀ s t, normalizeE164 s = .ok t → normalizeE164 t = .ok t) ∧
    ∀ (statements : List UserStatement) (id : Uuid) (row : UserRecord),
      (statements.foldl exec .empty).rows.lookup id = some row →
        ∃ phone, PhoneNumber.new row.phone = .ok phone ∧ phone.value = row.phone := by
  refine ⟨fun s => new_iff_normalized, fun row => trgNormalizeUserPhone_of_accepted, ?_, ?_⟩
  · intro s t h
    exact new_iff_normalized.mp (exists_new_iff.mpr (matches_of_normalized h))
  · intro statements id row hrow
    have hempty : AllAccepted .empty := fun _ _ h => by cases h
    obtain ⟨phone, hphone⟩ := hempty.run statements id row hrow
    exact ⟨phone, hphone, PhoneNumber.new_eq_ok hphone⟩

end Mesty.Contacts.PhoneNumbers
