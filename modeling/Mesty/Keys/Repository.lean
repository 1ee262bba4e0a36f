import Mathlib.Data.List.AList
import Mesty.Base.Error
import Mesty.Concurrency.Program
import Mesty.Keys.Tables

namespace Mesty.Keys.Repository

open Mesty.Base.Ids Mesty.Base.Error Mesty.Concurrency.Program Mesty.Keys.Tables

/-- The statements of the key repository, each atomic. -/
inductive KeyCmd where
  | upsertKeys (userId : Uuid) (identityKey : String) (signedPrekey : SignedPrekey)
  | insertPrekeys (userId : Uuid) (prekeys : List OneTimePrekey)
  | updatePrekeyCount (userId : Uuid)
  | getPrekeyCount (userId : Uuid)
  | isBlocked (userId targetUserId : Uuid)
  | getUserPublicKeys (targetUserId : Uuid)
  deriving DecidableEq

abbrev KeyCmd.Ans : KeyCmd → Type
  | upsertKeys .. | insertPrekeys .. | updatePrekeyCount _ => Except DomainError Unit
  | getPrekeyCount _ => Nat
  | isBlocked .. => Bool
  | getUserPublicKeys _ => Option KeyBundleWithOpk

abbrev KeyTask := Prog KeyCmd KeyCmd.Ans

namespace KeyTask

abbrev upsertKeys (userId : Uuid) (identityKey : String) (signedPrekey : SignedPrekey) :
    KeyTask (Except DomainError Unit) :=
  Prog.cmd (KeyCmd.upsertKeys userId identityKey signedPrekey)

abbrev getPrekeyCount (userId : Uuid) : KeyTask Nat := Prog.cmd (KeyCmd.getPrekeyCount userId)

abbrev isBlocked (userId targetUserId : Uuid) : KeyTask Bool :=
  Prog.cmd (KeyCmd.isBlocked userId targetUserId)

abbrev getPublicKeyBundle (targetUserId : Uuid) : KeyTask (Option KeyBundleWithOpk) :=
  Prog.cmd (KeyCmd.getUserPublicKeys targetUserId)

def addOneTimePrekeys (userId : Uuid) (prekeys : List OneTimePrekey) :
    KeyTask (Except DomainError Unit) := do
  match ← Prog.cmd (KeyCmd.insertPrekeys userId prekeys) with
  | .error e => return .error e
  | .ok () => Prog.cmd (KeyCmd.updatePrekeyCount userId)

end KeyTask

structure KeysDb where
  users : List Uuid
  userKeys : AList (fun _ : Uuid => UserKeysRow)
  prekeys : PrekeyTable
  blocks : List (Uuid × Uuid)

/-- The rows that other transactions hold locked, and the blocks that users set. -/
structure Choice where
  locked : List Nat
  blocks : List (Uuid × Uuid)

namespace KeysDb

def empty (users : List Uuid) : KeysDb := ⟨users, ∅, .empty, []⟩

def upsertKeys (db : KeysDb) (userId : Uuid) (identityKey : String) (signedPrekey : SignedPrekey) :
    Except DomainError Unit × KeysDb :=
  if userId ∈ db.users then
    let prekeyCount := (db.userKeys.lookup userId).elim 0 UserKeysRow.prekeyCount
    (.ok (), { db with
      userKeys := db.userKeys.insert userId ⟨identityKey, signedPrekey, prekeyCount⟩ })
  else (.error (.fromSqlx .foreignKeyViolation), db)

def insertPrekeys (db : KeysDb) (userId : Uuid) (prekeys : List OneTimePrekey) :
    Except DomainError Unit × KeysDb :=
  if userId ∈ db.users ∨ prekeys = [] then
    (.ok (), { db with prekeys := db.prekeys.insertRows userId prekeys })
  else (.error (.fromSqlx .foreignKeyViolation), db)

def setPrekeyCount (db : KeysDb) (userId : Uuid) (count : Nat → Nat) : KeysDb :=
  match db.userKeys.lookup userId with
  | none => db
  | some row => { db with
      userKeys := db.userKeys.insert userId { row with prekeyCount := count row.prekeyCount } }

/-- The count is assigned to an INTEGER column. -/
def updatePrekeyCount (db : KeysDb) (userId : Uuid) : Except DomainError Unit × KeysDb :=
  let count := db.prekeys.countAvailable userId
  if userId ∈ db.userKeys ∧ 2 ^ 31 ≤ count then (.error (.fromSqlx .other), db)
  else (.ok (), db.setPrekeyCount userId (fun _ => count))

/-- The SQL function `get_user_public_keys`: it consumes the first prekey that is neither
consumed nor locked, and returns it with the keys of the user, if there are any. -/
def getUserPublicKeys (db : KeysDb) (locked : List Nat) (targetUserId : Uuid) :
    Option KeyBundleWithOpk × KeysDb :=
  let opk := db.prekeys.firstAvailable targetUserId locked
  let db' := match opk with
    | none => db
    | some r => { db with prekeys := db.prekeys.consume r.id }.setPrekeyCount targetUserId (· - 1)
  ((db'.userKeys.lookup targetUserId).map (fun uk => ⟨uk.identityKey, uk.signedPrekey.key,
    uk.signedPrekey.id, uk.signedPrekey.signature, opk.map PrekeyRow.keyId,
    opk.map PrekeyRow.publicKey⟩), db')

def exec (ω : Choice) : (c : KeyCmd) → KeysDb → Option (c.Ans × KeysDb)
  | .upsertKeys userId identityKey signedPrekey, db =>
    some (db.upsertKeys userId identityKey signedPrekey)
  | .insertPrekeys userId prekeys, db => some (db.insertPrekeys userId prekeys)
  | .updatePrekeyCount userId, db => some (db.updatePrekeyCount userId)
  | .getPrekeyCount userId, db =>
    some ((db.userKeys.lookup userId).elim 0 UserKeysRow.prekeyCount, db)
  | .isBlocked userId targetUserId, db => some (decide ((userId, targetUserId) ∈ db.blocks), db)
  | .getUserPublicKeys targetUserId, db => some (db.getUserPublicKeys ω.locked targetUserId)

@[simp] theorem setPrekeyCount_prekeys (db : KeysDb) (userId : Uuid) (count : Nat → Nat) :
    (db.setPrekeyCount userId count).prekeys = db.prekeys := by
  rw [setPrekeyCount]
  split <;> rfl

@[simp] theorem setPrekeyCount_users (db : KeysDb) (userId : Uuid) (count : Nat → Nat) :
    (db.setPrekeyCount userId count).users = db.users := by
  rw [setPrekeyCount]
  split <;> rfl

@[simp] theorem upsertKeys_prekeys (db : KeysDb) (userId : Uuid) (identityKey : String)
    (signedPrekey : SignedPrekey) :
    (db.upsertKeys userId identityKey signedPrekey).2.prekeys = db.prekeys := by
  rw [upsertKeys]
  split_ifs <;> rfl

@[simp] theorem updatePrekeyCount_prekeys (db : KeysDb) (userId : Uuid) :
    (db.updatePrekeyCount userId).2.prekeys = db.prekeys := by
  simp only [updatePrekeyCount]
  split_ifs <;> simp

theorem insertPrekeys_cases (db : KeysDb) (userId : Uuid) (prekeys : List OneTimePrekey) :
    db.insertPrekeys userId prekeys =
        (.ok (), { db with prekeys := db.prekeys.insertRows userId prekeys }) ∨
      (db.insertPrekeys userId prekeys).2 = db := by
  rw [insertPrekeys]
  split_ifs
  · exact .inl rfl
  · exact .inr rfl

/-- The statement returns the prekey that it consumes. -/
theorem getUserPublicKeys_cases {db db' : KeysDb} {locked : List Nat} {targetUserId : Uuid}
    {ans : Option KeyBundleWithOpk} (h : db.getUserPublicKeys locked targetUserId = (ans, db')) :
    (db' = db ∧ ∀ b ∈ ans, b.oneTimePrekeyId = none ∧ b.oneTimePrekey = none) ∨
    ∃ r, db.prekeys.firstAvailable targetUserId locked = some r ∧
      db'.prekeys = db.prekeys.consume r.id ∧
      ∀ b ∈ ans, b.oneTimePrekeyId = some r.keyId ∧ b.oneTimePrekey = some r.publicKey := by
  simp only [getUserPublicKeys, Prod.mk.injEq] at h
  obtain ⟨rfl, rfl⟩ := h
  cases db.prekeys.firstAvailable targetUserId locked with
  | none => exact .inl ⟨rfl, by simp⟩
  | some r => exact .inr ⟨r, rfl, by simp, by simp⟩

end KeysDb

end Mesty.Keys.Repository
