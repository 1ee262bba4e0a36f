import Mesty.Discovery.Completeness
import Mesty.Refinement.Hashing

namespace Mesty.Discovery.ContactSync

open Mesty.Base.Ids Mesty.Base.Error Mesty.Concurrency.Program Mesty.Refinement.Hashing
open Mesty.Auth.Entities Mesty.Discovery.Index Mesty.Discovery.Completeness
open Mesty.Auth.Records (aliceId alicePhone)

/-- The tables `users` and `user_profiles`, and the set `phone_hashes`. -/
structure SyncDb extends IndexDb where
  displayNames : AList (fun _ : Uuid => String)

/-- A user that a hash has found. -/
structure MatchedUser where
  phoneHash : String
  userId : Option String
  username : Option String
  displayName : Option String
  deriving DecidableEq

inductive SyncCmd where
  | smismember (members : List String)
  | selectByPhoneHash (phoneHashes : List String)

abbrev SyncCmd.Ans : SyncCmd → Type
  | smismember _ => Except DomainError (List Bool)
  | selectByPhoneHash _ => Except DomainError (List MatchedUser)

/-- An order for a SELECT that gives none. -/
structure SyncChoice where
  rows : List MatchedUser

namespace SyncDb

variable (db : SyncDb)

/-- The row of a user, with the display name of the profile if there is one. -/
def toMatchedUser (id : Uuid) (row : UserRow) : MatchedUser :=
  ⟨row.phoneHash, some id.toString, row.username, db.displayNames.lookup id⟩

def selectByPhoneHash (phoneHashes : List String) : List MatchedUser :=
  (db.users.entries.filter (fun e =>
    e.2.phoneHash ∈ phoneHashes && e.2.deletedAt.isNone && e.2.isActive)).map
      (fun e => db.toMatchedUser e.1 e.2)

/-- Both databases answer. -/
def exec (ω : SyncChoice) : (c : SyncCmd) → SyncDb → Option (c.Ans × SyncDb)
  | .smismember members, db => some (.ok (members.map (fun m => decide (m ∈ db.phoneHashes))), db)
  | .selectByPhoneHash phoneHashes, db =>
    let selected := db.selectByPhoneHash phoneHashes
    some (.ok (if ω.rows.Perm selected then ω.rows else selected), db)

end SyncDb

abbrev SyncTask := ExceptT DomainError (Prog SyncCmd SyncCmd.Ans)

/-- The repository method. It does not look at the owner. -/
def ContactRepository.syncContacts (_ownerId : Uuid) (hashes : List String) :
    SyncTask (List MatchedUser) := do
  if hashes.isEmpty then return []
  else
    let flags ← ExceptT.mk (Prog.cmd (SyncCmd.smismember hashes))
    let existingHashes := flagged hashes flags
    if existingHashes.isEmpty then return []
    else ExceptT.mk (Prog.cmd (SyncCmd.selectByPhoneHash existingHashes))

structure SyncMatch where
  hash : String
  userId : Option String
  username : Option String
  displayName : Option String
  deriving DecidableEq

inductive SyncResponse where
  | badRequest (error : String)
  | ok (found : List SyncMatch)
  deriving DecidableEq

variable (lib : HashLib)

/-- The hash of a match is the one that the client can compute. -/
def toSyncMatch (phones hmacHashes : List String) (user : MatchedUser) : SyncMatch :=
  ⟨lib.sha256Hex ((keyOf phones hmacHashes user.phoneHash).getD ""), user.userId, user.username,
    user.displayName⟩

def syncContacts (authId : Uuid) (phones : List String) : SyncTask SyncResponse := do
  if phones.isEmpty || decide (phones.length > 1000) then
    return .badRequest "Phone list must be between 1 and 1000 items"
  else
    let hmacHashes := phones.map lib.newHash
    let found ← ContactRepository.syncContacts authId hmacHashes
    return .ok (found.map (toSyncMatch lib phones hmacHashes))

/-- The user can be found by one of the phones. -/
structure Registered (db : SyncDb) (phones : List String) (id : Uuid) (row : UserRow) : Prop where
  stored : db.users.lookup id = some row
  kept : row.deletedAt = none
  active : row.isActive
  listed : row.phone.value ∈ phones

def matchOf (db : SyncDb) (id : Uuid) (row : UserRow) : SyncMatch :=
  ⟨lib.sha256Hex row.phone.value, some id.toString, row.username, db.displayNames.lookup id⟩

/-- There is one match for each of these users, and no other. -/
structure Exactly (db : SyncDb) (phones : List String) (found : List SyncMatch) : Prop where
  once : (found.map SyncMatch.userId).Nodup
  complete : ∀ id row, Registered db phones id row → matchOf lib db id row ∈ found
  sound : ∀ m ∈ found, ∃ id row, Registered db phones id row ∧ m = matchOf lib db id row

section Requests

variable {lib} {db : SyncDb} {phones phoneHashes : List String} {authId : Uuid}

theorem mem_selectByPhoneHash {user : MatchedUser} : user ∈ db.selectByPhoneHash phoneHashes ↔
    ∃ id row, db.users.lookup id = some row ∧ row.phoneHash ∈ phoneHashes ∧ row.deletedAt = none ∧
      row.isActive ∧ db.toMatchedUser id row = user := by
  simp only [SyncDb.selectByPhoneHash, List.mem_map, List.mem_filter, Bool.and_eq_true,
    decide_eq_true_eq, Option.isNone_iff_eq_none, and_assoc]
  constructor
  · rintro ⟨⟨id, row⟩, hmem, hhash, hkept, hactive, rfl⟩
    exact ⟨id, row, AList.mem_lookup_iff.mpr hmem, hhash, hkept, hactive, rfl⟩
  · rintro ⟨id, row, hrow, hhash, hkept, hactive, rfl⟩
    exact ⟨⟨id, row⟩, AList.mem_lookup_iff.mp hrow, hhash, hkept, hactive, rfl⟩

theorem nodup_selectByPhoneHash :
    ((db.selectByPhoneHash phoneHashes).map MatchedUser.userId).Nodup := by
  have hkeys : (db.users.entries.map Sigma.fst).Nodup := db.users.nodupKeys
  have hids : ((db.users.entries.map Sigma.fst).map (fun id => some id.toString)).Nodup :=
    hkeys.map fun id id' h => Uuid.toString_injective (Option.some.inj h)
  rw [List.map_map] at hids
  rw [SyncDb.selectByPhoneHash, List.map_map]
  exact hids.sublist (List.filter_sublist.map _)

/-- The repository selects by the hashes that are in the set. -/
theorem wp_repository {Q : Except DomainError (List MatchedUser) → SyncDb → Prop}
    {hashes : List String}
    (h : ∀ rows, rows.Perm (db.selectByPhoneHash (hashes.filter (· ∈ db.phoneHashes))) →
      Q (.ok rows) db) : (ContactRepository.syncContacts authId hashes).run.wp SyncDb.exec Q db := by
  have hnone : db.selectByPhoneHash [] = [] := by simp [SyncDb.selectByPhoneHash]
  have hasked : ∀ ω, SyncDb.exec ω (.smismember hashes) db =
      some (.ok (hashes.map (fun m => decide (m ∈ db.phoneHashes))), db) := fun _ => rfl
  have hselected : ∀ hs ω, SyncDb.exec ω (.selectByPhoneHash hs) db = some (.ok (if
      ω.rows.Perm (db.selectByPhoneHash hs) then ω.rows else db.selectByPhoneHash hs), db) :=
    fun _ _ => rfl
  rw [ContactRepository.syncContacts]
  split_ifs with hempty
  · rw [List.isEmpty_iff.mp hempty, List.filter_nil, hnone] at h
    exact h [] .nil
  · refine (Prog.wp_call_iff hasked).mpr fun _ => ?_
    change (ite _ _ _ : SyncTask _).run.wp _ _ _
    rw [flagged_map]
    split_ifs with hempty
    · rw [List.isEmpty_iff.mp hempty, hnone] at h
      exact h [] .nil
    · refine (Prog.wp_call_iff (hselected _)).mpr fun ω => h _ ?_
      split_ifs with hperm
      · exact hperm
      · exact .refl _

/-- The selected users are the registered ones, and the hash of each leads back to the phone. -/
theorem exactly_of_perm (hcomplete : Complete lib db.toIndexDb)
    (hinj : Set.InjOn lib.newHash
      {p | p ∈ phones ∨ ∃ id row, db.users.lookup id = some row ∧ row.phone.value = p})
    {rows : List MatchedUser}
    (hperm : rows.Perm
      (db.selectByPhoneHash ((phones.map lib.newHash).filter (· ∈ db.phoneHashes)))) :
    Exactly lib db phones (rows.map (toSyncMatch lib phones (phones.map lib.newHash))) := by
  have hlisted : ∀ {id row phone}, db.users.lookup id = some row → row.deletedAt = none →
      phone ∈ phones → lib.newHash phone = row.phoneHash → phone = row.phone.value := by
    intro id row phone hrow hkept hmem heq
    exact hinj (.inl hmem) (.inr ⟨id, row, hrow, rfl⟩) (heq.trans (hcomplete id row hrow hkept).1)
  have hmatch : ∀ {id row}, Registered db phones id row →
      toSyncMatch lib phones (phones.map lib.newHash) (db.toMatchedUser id row) =
        matchOf lib db id row := by
    rintro id row ⟨hrow, hkept, -, hmem⟩
    have hhash := (hcomplete id row hrow hkept).1
    have hkey : keyOf phones (phones.map lib.newHash) row.phoneHash = some row.phone.value := by
      rw [hhash]
      exact keyOf_hash hmem fun p hp heq => hlisted hrow hkept hp (heq.trans hhash.symm)
    simp only [toSyncMatch, SyncDb.toMatchedUser, matchOf, hkey, Option.getD_some]
  refine ⟨?_, fun id row hreg => ?_, fun m hm => ?_⟩
  · rw [List.map_map]
    exact ((hperm.map MatchedUser.userId).nodup_iff).mpr nodup_selectByPhoneHash
  · rw [← hmatch hreg]
    obtain ⟨hrow, hkept, hactive, hmem⟩ := hreg
    obtain ⟨hhash, hindexed⟩ := hcomplete id row hrow hkept
    refine List.mem_map_of_mem (hperm.mem_iff.mpr (mem_selectByPhoneHash.mpr
      ⟨id, row, hrow, ?_, hkept, hactive, rfl⟩))
    refine List.mem_filter.mpr ⟨?_, decide_eq_true hindexed⟩
    exact hhash ▸ List.mem_map_of_mem hmem
  · obtain ⟨user, huser, rfl⟩ := List.mem_map.mp hm
    obtain ⟨id, row, hrow, hhash, hkept, hactive, rfl⟩ :=
      mem_selectByPhoneHash.mp (hperm.mem_iff.mp huser)
    obtain ⟨phone, hphone, heq⟩ := List.mem_map.mp (List.mem_filter.mp hhash).1
    obtain rfl := hlisted hrow hkept hphone heq
    have hreg : Registered db phones id row := ⟨hrow, hkept, hactive, hphone⟩
    exact ⟨id, row, hreg, hmatch hreg⟩

end Requests

/-- If the index is complete and the hashes of the phones do not collide, a list of phones
finds exactly the active users that have one of them. -/
theorem sync_exactly (lib : HashLib) {db : SyncDb} {phones : List String} (authId : Uuid)
    (hlength : 1 ≤ phones.length ∧ phones.length ≤ 1000) (hcomplete : Complete lib db.toIndexDb)
    (hinj : Set.InjOn lib.newHash
      {p | p ∈ phones ∨ ∃ id row, db.users.lookup id = some row ∧ row.phone.value = p}) :
    (syncContacts lib authId phones).run.wp SyncDb.exec (fun out db' => db' = db ∧
      ∃ found, out = .ok (.ok found) ∧ Exactly lib db phones found) db := by
  have hbounds : ¬ (phones.isEmpty || decide (phones.length > 1000)) = true := by
    cases phones with
    | nil => exact absurd hlength.1 (by decide)
    | cons p ps => simpa using hlength.2
  rw [syncContacts, if_neg hbounds]
  exact Prog.wp_run_bind.mpr (wp_repository fun rows hperm =>
    ⟨rfl, _, rfl, exactly_of_perm hcomplete hinj hperm⟩)

section Alice

/-- Alice, and a hash that no user has. -/
def aliceIndexed : SyncDb := ⟨⟨aliceUsers, ["stale", alice.phoneHash]⟩, ∅⟩

theorem complete_aliceIndexed : Complete aliceHashes aliceIndexed.toIndexDb := by
  intro id row hrow _
  obtain ⟨⟩ := List.mem_singleton.mp (AList.mem_lookup_iff.mp hrow)
  exact ⟨rfl, List.mem_cons_of_mem _ (List.mem_singleton_self _)⟩

theorem alice_synced :
    (syncContacts aliceHashes aliceId [alicePhone, alicePhone]).run.wp SyncDb.exec
      (fun out db' => db' = aliceIndexed ∧ ∃ found, out = .ok (.ok found) ∧
        Exactly aliceHashes aliceIndexed [alicePhone, alicePhone] found) aliceIndexed :=
  sync_exactly aliceHashes aliceId ⟨by decide, by decide⟩ complete_aliceIndexed
    aliceHashes_injective.injOn

end Alice

end Mesty.Discovery.ContactSync
