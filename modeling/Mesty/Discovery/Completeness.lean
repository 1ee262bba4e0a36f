import Mesty.Auth.Records
import Mesty.Auth.Registration
import Mesty.Discovery.Index

namespace Mesty.Discovery.Completeness

open Mesty.Base.Ids Mesty.Base.Error Mesty.Concurrency.Program Mesty.Concurrency.Restart
open Mesty.Auth.Entities Mesty.Auth.Repository Mesty.Discovery.Index
open Mesty.Auth.Records (aliceId alicePhone)
open Mesty.Auth.Registration (UniquePhones)

abbrev IndexHost := Host IndexCmd IndexCmd.Ans IndexDb (Except DomainError Unit)

abbrev IndexPhase := Phase IndexCmd IndexCmd.Ans (Except DomainError Unit)

abbrev IndexAct := Act NewUser IndexChoice

/-- The hash that a task is going to add, whatever Redis answers until then. -/
def owed {α : Type} : IndexProg α → Option String
  | .call (.sadd member) _ => some member
  | .call (.srem _) k => owed (k (.ok ()))
  | _ => none

def Owes (m : String) : IndexPhase → Prop
  | .down => False
  | .starting main => owed main = some m
  | .serving tasks => ∃ t ∈ tasks, owed t = some m

/-- No SADD is lost: none fails, and the process does not stop before one of them, unless
the hash is in the set already. -/
def Added (h : IndexHost) (a : IndexAct) : Prop :=
  match a with
  | .boot ω | .step _ ω => ∀ member, h.next a = some (.sadd member) →
    ω.delivery.arrives = true ∨ member ∈ h.db.phoneHashes
  | .stop => ∀ member, Owes member h.phase → member ∈ h.db.phoneHashes
  | _ => True

variable (lib : HashLib)

/-- The index is complete. -/
def Complete (db : IndexDb) : Prop :=
  ∀ id row, db.users.lookup id = some row → row.deletedAt = none →
    row.phoneHash = lib.newHash row.phone.value ∧ row.phoneHash ∈ db.phoneHashes

/-- The rows that are not deleted have the hashes of before, or their hashes are in the set
or will be. -/
def Settled (users : AList (fun _ : Uuid => UserRow)) (members : List String)
    (owes : String → Prop) : Prop :=
  ∀ id row, users.lookup id = some row → row.deletedAt = none →
    row.phoneHash = lib.sha256Hex row.phone.value ∨ row.phoneHash ∈ members ∨ owes row.phoneHash

/-- Some row that is not deleted has the hash of its phone. -/
def Stored (users : AList (fun _ : Uuid => UserRow)) (m : String) : Prop :=
  ∃ id row, users.lookup id = some row ∧ row.deletedAt = none ∧ row.phoneHash = m ∧
    m = lib.newHash row.phone.value

structure Table (users : AList (fun _ : Uuid => UserRow)) : Prop where
  phones : UniquePhones users
  hashes : ∀ id row, users.lookup id = some row →
    row.phoneHash = lib.sha256Hex row.phone.value ∨ row.phoneHash = lib.newHash row.phone.value

/-- What a rewritten row needs. -/
structure Rewrites (users : AList (fun _ : Uuid => UserRow)) (id : Uuid) (row : UserRow) : Prop where
  kept : row.deletedAt = none
  hash : row.phoneHash = lib.newHash row.phone.value
  old : ∀ old, users.lookup id = some old → old.phoneHash = lib.sha256Hex old.phone.value
  phone : ∀ id' row', users.lookup id' = some row' → row'.phone = row.phone → id' = id

section Steps

variable {lib} {users : AList (fun _ : Uuid => UserRow)} {members : List String}
  {owes owes' : String → Prop} {m : String} {id : Uuid} {row : UserRow}

theorem settled_congr (howes : ∀ x, owes' x ↔ owes x) :
    Settled lib users members owes' ↔ Settled lib users members owes := by
  simp only [Settled, howes]

/-- A row with a new hash is settled by the promise to add the hash. -/
theorem settled_write (hlib : lib.Distinct) (ht : Table lib users) (hw : Rewrites lib users id row)
    (howes : ∀ x, owes' x ↔ owes x ∨ x = row.phoneHash) :
    Settled lib (users.insert id row) members owes' ↔ Settled lib users members owes := by
  constructor
  · intro h id' row' hrow' hkept
    by_cases hid : id' = id
    · subst hid
      exact .inl (hw.old row' hrow')
    · obtain hsha | hmem | ho := h id' row' ((AList.lookup_insert_ne hid).trans hrow') hkept
      · exact .inl hsha
      · exact .inr (.inl hmem)
      · obtain ho | heq := (howes _).mp ho
        · exact .inr (.inr ho)
        · obtain hsha | hnew := ht.hashes id' row' hrow'
          · exact .inl hsha
          · have hsame := hlib.newHash _ _ (hnew.symm.trans (heq.trans hw.hash))
            exact absurd (hw.phone id' row' hrow' hsame) hid
  · intro h id' row' hrow' hkept
    by_cases hid : id' = id
    · subst hid
      obtain rfl := Option.some.inj ((AList.lookup_insert _).symm.trans hrow')
      exact .inr (.inr ((howes _).mpr (.inr rfl)))
    · rw [AList.lookup_insert_ne hid] at hrow'
      exact (h id' row' hrow' hkept).imp_right (Or.imp_right fun ho => (howes _).mpr (.inl ho))

/-- A promised hash is settled by being added. -/
theorem settled_add (hlib : lib.Distinct) (howes : ∀ x, owes' x ↔ owes x ∧ x ≠ m)
    (hm : Stored lib users m) (ho : owes m) (arrives : Bool) :
    Settled lib users (if arrives then members.insert m else members) owes' ↔
      Settled lib users members owes ∧ (arrives = true ∨ m ∈ members) := by
  have hmem : ∀ x, x ∈ (if arrives then members.insert m else members) ↔
      x ∈ members ∨ x = m ∧ arrives = true := by
    intro x
    cases arrives <;> simp [or_comm]
  simp only [Settled, hmem, howes]
  constructor
  · intro h
    refine ⟨fun id row hrow hkept => ?_, ?_⟩
    · obtain hsha | (hmem | ⟨heq, -⟩) | ⟨ho', -⟩ := h id row hrow hkept
      · exact .inl hsha
      · exact .inr (.inl hmem)
      · exact .inr (.inr (heq ▸ ho))
      · exact .inr (.inr ho')
    · obtain ⟨id, row, hrow, hkept, rfl, hnew⟩ := hm
      obtain hsha | (hmem | ⟨-, harrives⟩) | ⟨-, hne⟩ := h id row hrow hkept
      · exact absurd (hsha.symm.trans hnew) (hlib.sha256Hex _ _)
      · exact .inr hmem
      · exact .inl harrives
      · exact absurd rfl hne
  · rintro ⟨h, hgood⟩ id row hrow hkept
    obtain hsha | hmem | ho' := h id row hrow hkept
    · exact .inl hsha
    · exact .inr (.inl (.inl hmem))
    · by_cases heq : row.phoneHash = m
      · refine .inr (.inl (hgood.elim (fun harrives => .inr ⟨heq, harrives⟩) fun hmem => .inl ?_))
        exact heq ▸ hmem
      · exact .inr (.inr ⟨ho', heq⟩)

/-- What is left of the promises of a process that stops is in the set. -/
theorem settled_stop (hlib : lib.Distinct) (hm : ∀ m, owes m → Stored lib users m) :
    Settled lib users members (fun _ => False) ↔
      Settled lib users members owes ∧ ∀ m, owes m → m ∈ members := by
  constructor
  · intro h
    refine ⟨fun id row hrow hkept => ?_, fun m ho => ?_⟩
    · exact (h id row hrow hkept).imp_right (Or.imp_right False.elim)
    · obtain ⟨id, row, hrow, hkept, rfl, hnew⟩ := hm m ho
      obtain hsha | hmem | hno := h id row hrow hkept
      · exact absurd (hsha.symm.trans hnew) (hlib.sha256Hex _ _)
      · exact hmem
      · exact hno.elim
  · rintro ⟨h, hgood⟩ id row hrow hkept
    exact (h id row hrow hkept).imp_right fun h => .inl (h.elim (fun hmem => hmem) (hgood _))

/-- The hashes of before are removed in vain. -/
theorem settled_remove (hlib : lib.Distinct) (ht : Table lib users) (phone : PhoneNumber)
    (arrives : Bool) :
    Settled lib users (if arrives then members.filter (· ≠ lib.sha256Hex phone.value) else members)
      owes ↔ Settled lib users members owes := by
  cases arrives with
  | false => rfl
  | true =>
    refine forall₄_congr fun id row hrow _ => ?_
    obtain hsha | hnew := ht.hashes id row hrow
    · exact iff_of_true (.inl hsha) (.inl hsha)
    · have hne : row.phoneHash ≠ lib.sha256Hex phone.value :=
        hnew ▸ (hlib.sha256Hex _ _).symm
      simp [hne]

end Steps

section Rewrites

variable {lib} {users : AList (fun _ : Uuid => UserRow)} {m : String} {id : Uuid} {row : UserRow}

theorem Rewrites.table (h : Rewrites lib users id row) (ht : Table lib users) :
    Table lib (users.insert id row) := by
  refine ⟨ht.phones.insert h.phone, ?_⟩
  intro id' row' hrow'
  by_cases hid : id' = id
  · subst hid
    obtain rfl := Option.some.inj ((AList.lookup_insert _).symm.trans hrow')
    exact .inr h.hash
  · exact ht.hashes id' row' ((AList.lookup_insert_ne hid).symm.trans hrow')

theorem Rewrites.stored_self (h : Rewrites lib users id row) :
    Stored lib (users.insert id row) row.phoneHash :=
  ⟨id, row, AList.lookup_insert _, h.kept, rfl, h.hash⟩

theorem Rewrites.stored (hlib : lib.Distinct) (h : Rewrites lib users id row)
    (hm : Stored lib users m) : Stored lib (users.insert id row) m := by
  obtain ⟨id', row', hrow', hkept, rfl, hnew⟩ := hm
  have hne : id' ≠ id := by
    rintro rfl
    exact hlib.sha256Hex _ _ ((h.old row' hrow').symm.trans hnew)
  exact ⟨id', row', (AList.lookup_insert_ne hne).trans hrow', hkept, rfl, hnew⟩

/-- No hash that is stored is the hash of the rewritten row. -/
theorem Rewrites.not_stored (hlib : lib.Distinct) (h : Rewrites lib users id row) :
    ¬ Stored lib users row.phoneHash := by
  rintro ⟨id', row', hrow', -, heq, hnew⟩
  obtain rfl := h.phone id' row' hrow' (hlib.newHash _ _ (hnew.symm.trans h.hash))
  exact hlib.sha256Hex _ _ ((h.old row' hrow').symm.trans (heq.trans hnew))

end Rewrites

/-- The rows that are left to be rehashed. -/
structure Selected (users : AList (fun _ : Uuid => UserRow)) (rows : List LegacyRow) : Prop where
  nodup : (rows.map LegacyRow.id).Nodup
  legacy : ∀ r ∈ rows, ∃ row, users.lookup r.id = some row ∧ row.deletedAt = none ∧
    row.phone.value = r.phone ∧ row.phoneHash = r.phoneHash ∧
    row.phoneHash = lib.sha256Hex row.phone.value
  covers : ∀ id row, users.lookup id = some row → row.deletedAt = none →
    row.phoneHash = lib.sha256Hex row.phone.value → id ∈ rows.map LegacyRow.id

/-- How far the start has come. -/
inductive Stage (users : AList (fun _ : Uuid => UserRow)) : IndexProg Unit → Prop
  | select : Stage users (rehashPhoneNumbers lib)
  | rows (rows : List LegacyRow) (h : Selected lib users rows) : Stage users (rehashRows lib rows)
  | remove (row : LegacyRow) (rows : List LegacyRow) (h : Selected lib users rows)
      (phone : PhoneNumber) (hhash : row.phoneHash = lib.sha256Hex phone.value) :
      Stage users (.call (.srem row.phoneHash) fun _ =>
        .call (.sadd (lib.newHash row.phone)) fun _ => rehashRows lib rows)
  | add (row : LegacyRow) (rows : List LegacyRow) (h : Selected lib users rows) :
      Stage users (.call (.sadd (lib.newHash row.phone)) fun _ => rehashRows lib rows)

/-- How far a request has come. -/
inductive TaskStage : IndexProg (Except DomainError Unit) → Prop
  | create (user : User) (hkept : user.deletedAt = none)
      (hhash : user.phoneHash = lib.newHash user.phone.value) : TaskStage (create user)
  | add (m : String) : TaskStage (.call (.sadd m) fun r => .ret (r.mapError .internal))
  | done (out : Except DomainError Unit) : TaskStage (.ret out)

/-- No two tasks are going to add the same hash. -/
def OwesOnce (tasks : List (IndexProg (Except DomainError Unit))) : Prop :=
  ∀ (i j : Nat) t u m, tasks[i]? = some t → tasks[j]? = some u → owed t = some m → owed u = some m → i = j

def Running (users : AList (fun _ : Uuid => UserRow)) : IndexPhase → Prop
  | .down => True
  | .starting main => Stage lib users main
  | .serving tasks => (∀ t ∈ tasks, TaskStage lib t) ∧ OwesOnce tasks

structure Inv (h : IndexHost) : Prop where
  table : Table lib h.db.users
  owed : ∀ m, Owes m h.phase → Stored lib h.db.users m
  running : Running lib h.db.users h.phase

def SettledHost (h : IndexHost) : Prop :=
  Settled lib h.db.users h.db.phoneHashes (fun m => Owes m h.phase)

section Boot

variable {lib} {users : AList (fun _ : Uuid => UserRow)} {row : LegacyRow} {rows : List LegacyRow}

theorem owed_rehashRows : owed (rehashRows lib rows) = none := by
  cases rows <;> rfl

theorem Selected.rewrites (ht : Table lib users)
    (h : Selected lib users (row :: rows)) : ∃ user, users.lookup row.id = some user ∧
      user.phone.value = row.phone ∧ row.phoneHash = lib.sha256Hex user.phone.value ∧
      Rewrites lib users row.id { user with phoneHash := lib.newHash row.phone } := by
  obtain ⟨user, huser, hkept, hphone, hsame, hsha⟩ := h.legacy row List.mem_cons_self
  refine ⟨user, huser, hphone, hsame.symm.trans hsha, hkept, ?_, fun old hold => ?_, ?_⟩
  · exact congrArg lib.newHash hphone.symm
  · exact Option.some.inj (huser.symm.trans hold) ▸ hsha
  · exact fun id' row' hrow' heq => ht.phones id' row.id row' user hrow' huser heq

theorem Selected.tail (hlib : lib.Distinct) (h : Selected lib users (row :: rows)) {user : UserRow}
    (hw : Rewrites lib users row.id user) : Selected lib (users.insert row.id user) rows := by
  obtain ⟨hno, hnodup⟩ := List.nodup_cons.mp h.nodup
  refine ⟨hnodup, fun r hr => ?_, fun id row' hrow' hkept hsha => ?_⟩
  · have hne : r.id ≠ row.id := fun heq => hno (heq ▸ List.mem_map_of_mem hr)
    rw [AList.lookup_insert_ne hne]
    exact h.legacy r (List.mem_cons_of_mem row hr)
  · have hne : id ≠ row.id := by
      rintro rfl
      obtain rfl := Option.some.inj ((AList.lookup_insert _).symm.trans hrow')
      exact hlib.sha256Hex _ _ (hsha.symm.trans hw.hash)
    rw [AList.lookup_insert_ne hne] at hrow'
    exact (List.mem_cons.mp (h.covers id row' hrow' hkept hsha)).resolve_left hne

/-- What the SELECT finds is what has the hash of before. -/
theorem selected_of_perm {db : IndexDb} (hrows : rows.Perm (db.legacyRows lib)) :
    Selected lib db.users rows := by
  have hmem : ∀ r, r ∈ rows ↔ ∃ row, db.users.lookup r.id = some row ∧ row.deletedAt = none ∧
      row.phone.value = r.phone ∧ row.phoneHash = r.phoneHash ∧
      row.phoneHash = lib.sha256Hex row.phone.value := by
    rintro ⟨id, phone, phoneHash⟩
    rw [hrows.mem_iff, IndexDb.legacyRows, List.mem_map]
    constructor
    · rintro ⟨⟨id', row⟩, hm, heq⟩
      obtain ⟨hm, hcond⟩ := List.mem_filter.mp hm
      obtain ⟨hkept, hsha⟩ := of_decide_eq_true hcond
      cases heq
      exact ⟨row, AList.mem_lookup_iff.mpr hm, hkept, rfl, rfl, hsha⟩
    · rintro ⟨row, hrow, hkept, rfl, rfl, hsha⟩
      exact ⟨⟨id, row⟩, List.mem_filter.mpr ⟨AList.mem_lookup_iff.mp hrow,
        decide_eq_true ⟨hkept, hsha⟩⟩, rfl⟩
  refine ⟨?_, fun r hr => (hmem r).mp hr, fun id row hrow hkept hsha => ?_⟩
  · refine (hrows.map LegacyRow.id).nodup_iff.mpr ?_
    rw [IndexDb.legacyRows, List.map_map]
    exact (List.filter_sublist.map Sigma.fst).nodup db.users.nodupKeys
  · exact List.mem_map.mpr ⟨⟨id, row.phone.value, row.phoneHash⟩,
      (hmem _).mpr ⟨row, hrow, hkept, rfl, rfl, hsha⟩, rfl⟩

theorem rehashPhoneNumbers_eq : rehashPhoneNumbers lib =
    .call .selectLegacy fun rows => rehashRows lib rows := by
  refine congrArg (Prog.call IndexCmd.selectLegacy) (funext fun rows => ?_)
  cases rows <;> rfl

theorem updatePhoneHash_of_lookup {db : IndexDb} {id : Uuid} {user : UserRow} {m : String}
    (h : db.users.lookup id = some user) : db.updatePhoneHash id m =
      { db with users := db.users.insert id { user with phoneHash := m } } := by
  rw [IndexDb.updatePhoneHash, h]

theorem exec_srem {db db' : IndexDb} {ω : IndexChoice} {member : String} {r : Except String Unit}
    (he : IndexDb.exec lib ω (.srem member) db = some (r, db')) : db'.users = db.users ∧
      db'.phoneHashes = if ω.delivery.arrives then db.phoneHashes.filter (· ≠ member)
        else db.phoneHashes := by
  obtain ⟨-, rfl⟩ := Prod.mk.inj (Option.some.inj he)
  split
  · exact ⟨rfl, rfl⟩
  · exact ⟨rfl, rfl⟩

theorem exec_sadd {db db' : IndexDb} {ω : IndexChoice} {member : String} {r : Except String Unit}
    (he : IndexDb.exec lib ω (.sadd member) db = some (r, db')) : db'.users = db.users ∧
      db'.phoneHashes = if ω.delivery.arrives then db.phoneHashes.insert member
        else db.phoneHashes := by
  obtain ⟨-, rfl⟩ := Prod.mk.inj (Option.some.inj he)
  split
  · exact ⟨rfl, rfl⟩
  · exact ⟨rfl, rfl⟩

/-- One command of a start. -/
theorem boot_step (hlib : lib.Distinct) {db db' : IndexDb} {ω : IndexChoice} {c : IndexCmd}
    {k : c.Ans → IndexProg Unit} {r : c.Ans} (hi : Inv lib ⟨db, .starting (.call c k)⟩)
    (he : IndexDb.exec lib ω c db = some (r, db')) : Inv lib ⟨db', .starting (k r)⟩ ∧
      (SettledHost lib ⟨db', .starting (k r)⟩ ↔ SettledHost lib ⟨db, .starting (.call c k)⟩ ∧
        Added ⟨db, .starting (.call c k)⟩ (.boot ω)) := by
  obtain ⟨ht, ho, hs⟩ := hi
  dsimp only at ht ho hs
  generalize hmain : Prog.call c k = main at hs ho ⊢
  cases hs with
  | select =>
    rw [rehashPhoneNumbers_eq] at hmain
    cases hmain
    simp only [IndexDb.exec] at he
    split_ifs at he with hrows
    obtain ⟨rfl, rfl⟩ := Prod.mk.inj (Option.some.inj he)
    refine ⟨⟨ht, ?_, .rows _ (selected_of_perm hrows)⟩, ?_⟩
    · simp [Owes, owed_rehashRows]
    · rw [rehashPhoneNumbers_eq]
      simp only [SettledHost, Owes, owed_rehashRows]
      exact (and_iff_left (by rintro _ ⟨⟩)).symm
  | rows rows h =>
    cases rows with
    | nil => cases hmain
    | cons row rows =>
      cases hmain
      obtain ⟨rfl, rfl⟩ := Prod.mk.inj (Option.some.inj he)
      obtain ⟨user, huser, hphone, hsha, hw⟩ := h.rewrites ht
      rw [updatePhoneHash_of_lookup huser]
      refine ⟨⟨hw.table ht, ?_, .remove row rows (h.tail hlib hw) user.phone hsha⟩, ?_⟩
      · rintro m ⟨⟩
        exact hw.stored_self
      · have howes : ∀ x, Owes x (.starting (.call (.srem row.phoneHash) fun _ =>
            .call (.sadd (lib.newHash row.phone)) fun _ => rehashRows lib rows)) ↔
            Owes x (.starting (rehashRows lib (row :: rows))) ∨ x = lib.newHash row.phone := by
          simp [Owes, owed, rehashRows, eq_comm]
        exact (settled_write hlib ht hw howes).trans (and_iff_left (by rintro _ ⟨⟩)).symm
  | remove row rows h phone hhash =>
    cases hmain
    obtain ⟨husers, hset⟩ := exec_srem he
    rw [hhash] at hset
    refine ⟨⟨husers.symm ▸ ht, husers.symm ▸ ho, husers.symm ▸ .add row rows h⟩, ?_⟩
    rw [SettledHost, husers, hset]
    exact (settled_remove hlib ht phone _).trans (and_iff_left (by rintro _ ⟨⟩)).symm
  | add row rows h =>
    cases hmain
    obtain ⟨husers, hset⟩ := exec_sadd he
    have hnone : ∀ x, ¬ Owes x (.starting (rehashRows lib rows)) := by simp [Owes, owed_rehashRows]
    refine ⟨⟨husers.symm ▸ ht, fun m hm => absurd hm (hnone m), husers.symm ▸ .rows rows h⟩, ?_⟩
    have howes : ∀ x, Owes x (.starting (rehashRows lib rows)) ↔
        Owes x (.starting (.call (.sadd (lib.newHash row.phone)) fun _ => rehashRows lib rows)) ∧
          x ≠ lib.newHash row.phone := by
      simp [Owes, owed, owed_rehashRows, eq_comm]
    rw [SettledHost, husers, hset]
    refine (settled_add hlib howes (ho _ rfl) rfl _).trans (and_congr_right fun _ => ?_)
    simp [Added]

end Boot

section Serving

variable {lib} {users : AList (fun _ : Uuid => UserRow)} {m : String} {i : Nat}
  {tasks : List (IndexProg (Except DomainError Unit))} {t t' : IndexProg (Except DomainError Unit)}

theorem owes_serving : Owes m (.serving tasks) ↔ ∃ (i : Nat) (t : _), tasks[i]? = some t ∧ owed t = some m := by
  simp only [Owes, List.mem_iff_getElem?]
  tauto

theorem owes_set (honce : OwesOnce tasks) (ht : tasks[i]? = some t) : ∀ m,
    Owes m (.serving (tasks.set i t')) ↔
      Owes m (.serving tasks) ∧ owed t ≠ some m ∨ owed t' = some m := by
  intro m
  have hlt : i < tasks.length := (List.getElem?_eq_some_iff.mp ht).1
  rw [owes_serving, owes_serving]
  constructor
  · rintro ⟨j, u, hj, hu⟩
    by_cases hij : i = j
    · subst hij
      rw [List.getElem?_set_self hlt] at hj
      exact .inr (Option.some.inj hj ▸ hu)
    · rw [List.getElem?_set_ne hij] at hj
      exact .inl ⟨⟨j, u, hj, hu⟩, fun heq => hij (honce i j t u m ht hj heq hu)⟩
  · rintro (⟨⟨j, u, hj, hu⟩, hne⟩ | h)
    · have hij : i ≠ j := by
        rintro rfl
        exact hne (Option.some.inj (ht.symm.trans hj) ▸ hu)
      exact ⟨j, u, (List.getElem?_set_ne hij).trans hj, hu⟩
    · exact ⟨i, t', List.getElem?_set_self hlt, h⟩

theorem owesOnce_set (honce : OwesOnce tasks) (hno : ∀ m, owed t' = some m → ¬ Owes m (.serving tasks)) :
    OwesOnce (tasks.set i t') := by
  have hself : ∀ {j : Nat} {u m}, (tasks.set i t')[j]? = some u → owed u = some m → Owes m (.serving tasks) →
      tasks[j]? = some u := by
    intro j u m hj hu ho
    by_cases hij : i = j
    · subst hij
      rw [List.getElem?_set_self'] at hj
      obtain ⟨_, -, rfl⟩ := Option.map_eq_some_iff.mp hj
      exact absurd ho (hno m hu)
    · rwa [List.getElem?_set_ne hij] at hj
  have hother : ∀ {j : Nat} {u m}, (tasks.set i t')[j]? = some u → owed u = some m →
      j = i ∨ Owes m (.serving tasks) := by
    intro j u m hj hu
    by_cases hij : i = j
    · exact .inl hij.symm
    · rw [List.getElem?_set_ne hij] at hj
      exact .inr (owes_serving.mpr ⟨j, u, hj, hu⟩)
  intro j k u v m hj hk hu hv
  by_cases ho : Owes m (.serving tasks)
  · exact honce j k u v m (hself hj hu ho) (hself hk hv ho) hu hv
  · exact ((hother hj hu).resolve_right ho).trans ((hother hk hv).resolve_right ho).symm

theorem owesOnce_append (honce : OwesOnce tasks) (hnone : owed t = none) :
    OwesOnce (tasks ++ [t]) := by
  have hold : ∀ {j : Nat} {u m}, (tasks ++ [t])[j]? = some u → owed u = some m →
      tasks[j]? = some u := by
    intro j u m hj hu
    by_cases hlt : j < tasks.length
    · rwa [List.getElem?_append_left hlt] at hj
    · rw [List.getElem?_append_right (not_lt.mp hlt)] at hj
      obtain rfl := List.mem_singleton.mp (List.mem_of_getElem? hj)
      cases hnone.symm.trans hu
  exact fun j k u v m hj hk hu hv => honce j k u v m (hold hj hu) (hold hk hv) hu hv

/-- A user that is inserted has a phone of its own. -/
theorem insertUser_cases (db : IndexDb) {user : User} (hkept : user.deletedAt = none)
    (hhash : user.phoneHash = lib.newHash user.phone.value) :
    (∃ e, db.insertUser user = (.error e, db)) ∨ Rewrites lib db.users user.id user.toUserRow ∧
      db.insertUser user =
        (.ok (), { db with users := db.users.insert user.id user.toUserRow }) := by
  rw [IndexDb.insertUser]
  split_ifs with hconflict
  · exact .inl ⟨_, rfl⟩
  · obtain ⟨hid, hfree⟩ := not_or.mp hconflict
    refine .inr ⟨⟨hkept, hhash, fun old hold => ?_, fun id' row' hrow' heq => ?_⟩, rfl⟩
    · exact absurd (AList.lookup_isSome.mp (by rw [hold, Option.isSome_some])) hid
    · refine absurd (List.any_eq_true.mpr ⟨⟨id', row'⟩, AList.mem_lookup_iff.mp hrow', ?_⟩) hfree
      simp [AuthDb.conflicts, heq]

theorem taskStage_set (hstages : ∀ t ∈ tasks, TaskStage lib t) (ht : TaskStage lib t) :
    ∀ u ∈ tasks.set i t, TaskStage lib u := by
  intro u hu
  obtain hu | rfl := List.mem_or_eq_of_mem_set hu
  · exact hstages u hu
  · exact ht

/-- The request inserts its user. -/
theorem create_step (hlib : lib.Distinct) {db db' : IndexDb} {ω : IndexChoice} {user : User}
    {k : Except DomainError Unit → IndexProg (Except DomainError Unit)}
    {r : Except DomainError Unit} (hkept : user.deletedAt = none)
    (hhash : user.phoneHash = lib.newHash user.phone.value)
    (hk : Prog.call (.insertUser user) k = create user) (hi : Inv lib ⟨db, .serving tasks⟩)
    (htask : tasks[i]? = some (create user))
    (he : IndexDb.exec lib ω (.insertUser user) db = some (r, db')) :
    Inv lib ⟨db', .serving (tasks.set i (k r))⟩ ∧
      (SettledHost lib ⟨db', .serving (tasks.set i (k r))⟩ ↔
        SettledHost lib ⟨db, .serving tasks⟩) := by
  obtain ⟨ht, ho, hstages, honce⟩ := hi
  dsimp only at ht ho
  cases hk
  obtain ⟨e, heq⟩ | ⟨hw, heq⟩ := insertUser_cases db hkept hhash
  · obtain ⟨rfl, rfl⟩ := Prod.mk.inj (heq.symm.trans (Option.some.inj he))
    have howes : ∀ m, Owes m (.serving (tasks.set i (.ret (.error e)))) ↔
        Owes m (.serving tasks) := by
      intro m
      rw [owes_set honce htask]
      simp [owed, create]
    refine ⟨⟨ht, fun m hm => ho m ((howes m).mp hm), taskStage_set hstages (.done _),
      owesOnce_set honce (by rintro _ ⟨⟩)⟩, ?_⟩
    exact settled_congr howes
  · obtain ⟨rfl, rfl⟩ := Prod.mk.inj (heq.symm.trans (Option.some.inj he))
    have hno : ¬ Owes user.phoneHash (.serving tasks) :=
      fun h => hw.not_stored hlib (ho _ h)
    have howes : ∀ m, Owes m (.serving (tasks.set i (.call (.sadd user.phoneHash) fun r =>
        .ret (r.mapError .internal)))) ↔ Owes m (.serving tasks) ∨ m = user.phoneHash := by
      intro m
      rw [owes_set honce htask]
      simp [owed, create, eq_comm]
    refine ⟨⟨hw.table ht, fun m hm => ?_, taskStage_set hstages (.add _),
      owesOnce_set honce fun m hm => ?_⟩, ?_⟩
    · obtain hm | rfl := (howes m).mp hm
      · exact (ho m hm |> hw.stored hlib)
      · exact hw.stored_self
    · exact Option.some.inj hm ▸ hno
    · exact settled_write hlib ht hw howes

/-- The request adds the hash of its user. -/
theorem add_step (hlib : lib.Distinct) {db db' : IndexDb} {ω : IndexChoice}
    {r : Except String Unit} (hi : Inv lib ⟨db, .serving tasks⟩)
    (htask : tasks[i]? = some (.call (.sadd m) fun r => .ret (r.mapError .internal)))
    (he : IndexDb.exec lib ω (.sadd m) db = some (r, db')) :
    Inv lib ⟨db', .serving (tasks.set i (.ret (r.mapError .internal)))⟩ ∧
      (SettledHost lib ⟨db', .serving (tasks.set i (.ret (r.mapError .internal)))⟩ ↔
        SettledHost lib ⟨db, .serving tasks⟩ ∧
          (ω.delivery.arrives = true ∨ m ∈ db.phoneHashes)) := by
  obtain ⟨ht, ho, hstages, honce⟩ := hi
  dsimp only at ht ho
  obtain ⟨husers, hset⟩ := exec_sadd he
  have howes : ∀ x, Owes x (.serving (tasks.set i (.ret (r.mapError .internal)))) ↔
      Owes x (.serving tasks) ∧ x ≠ m := by
    intro x
    rw [owes_set honce htask]
    simp [owed, eq_comm]
  refine ⟨⟨husers.symm ▸ ht, fun x hx => husers.symm ▸ ho x ((howes x).mp hx).1,
    taskStage_set hstages (.done _), owesOnce_set honce (by rintro _ ⟨⟩)⟩, ?_⟩
  have hself : Owes m (.serving tasks) := owes_serving.mpr ⟨i, _, htask, rfl⟩
  rw [SettledHost, husers, hset]
  exact settled_add hlib howes (ho m hself) hself _

/-- One command of a request. -/
theorem task_step (hlib : lib.Distinct) {db db' : IndexDb} {ω : IndexChoice} {c : IndexCmd}
    {k : c.Ans → IndexProg (Except DomainError Unit)} {r : c.Ans}
    (hi : Inv lib ⟨db, .serving tasks⟩) (htask : tasks[i]? = some (.call c k))
    (he : IndexDb.exec lib ω c db = some (r, db')) :
    Inv lib ⟨db', .serving (tasks.set i (k r))⟩ ∧
      (SettledHost lib ⟨db', .serving (tasks.set i (k r))⟩ ↔ SettledHost lib ⟨db, .serving tasks⟩ ∧
        Added ⟨db, .serving tasks⟩ (.step i ω)) := by
  have hstage := hi.running.1 _ (List.mem_of_getElem? htask)
  generalize hmain : Prog.call c k = t at hstage htask
  cases hstage with
  | create user hkept hhash =>
    cases hmain
    have hquiet : Added ⟨db, .serving tasks⟩ (.step i ω) := by
      intro member hnext
      rw [Host.next_step htask] at hnext
      cases hnext
    obtain ⟨hinv, hsettled⟩ := create_step hlib hkept hhash rfl hi htask he
    exact ⟨hinv, hsettled.trans (and_iff_left hquiet).symm⟩
  | add m =>
    cases hmain
    obtain ⟨hinv, hsettled⟩ := add_step hlib hi htask he
    refine ⟨hinv, hsettled.trans (and_congr_right fun _ => ?_)⟩
    simp [Added, Host.next_step htask]
  | done out => cases hmain

end Serving

variable {lib}

/-- One move of the server or of the process. -/
theorem inv_moves (hlib : lib.Distinct) {h h' : IndexHost} {a : IndexAct} (hi : Inv lib h)
    (hm : (indexServer lib).Moves h a h') :
    Inv lib h' ∧ (SettledHost lib h' ↔ SettledHost lib h ∧ Added h a) := by
  cases hm with
  | start db =>
    have howes : ∀ m, Owes m (.starting (rehashPhoneNumbers lib)) ↔ Owes m .down :=
      fun m => iff_of_false (by rintro ⟨⟩) not_false
    refine ⟨⟨hi.table, fun m hm => hi.owed m ((howes m).mp hm), .select⟩, ?_⟩
    exact (settled_congr howes).trans (and_iff_left trivial).symm
  | boot he => exact boot_step hlib hi he
  | serve db =>
    have howes : ∀ m, Owes m (.serving []) ↔ Owes m (.starting (.ret ())) :=
      fun m => iff_of_false (by simp [Owes]) (by rintro ⟨⟩)
    refine ⟨⟨hi.table, fun m hm => hi.owed m ((howes m).mp hm), ?_, ?_⟩, ?_⟩
    · simp
    · simp [OwesOnce]
    · exact (settled_congr howes).trans (and_iff_left trivial).symm
  | spawn db tasks r =>
    have hnone : owed (create (User.new lib r.id r.username r.phone r.email)) = none := rfl
    have howes : ∀ m, Owes m (.serving (tasks ++
        [create (User.new lib r.id r.username r.phone r.email)])) ↔ Owes m (.serving tasks) := by
      simp [Owes, hnone, or_and_right, exists_or]
    obtain ⟨ht, ho, hstages, honce⟩ := hi
    refine ⟨⟨ht, fun m hm => ho m ((howes m).mp hm), fun t htask => ?_, ?_⟩, ?_⟩
    · obtain htask | htask := List.mem_append.mp htask
      · exact hstages t htask
      · obtain rfl := List.mem_singleton.mp htask
        exact .create _ rfl rfl
    · exact owesOnce_append honce hnone
    · exact (settled_congr howes).trans (and_iff_left trivial).symm
  | step htask he => exact task_step hlib hi htask he
  | stop db phase =>
    refine ⟨⟨hi.table, by rintro m ⟨⟩, trivial⟩, ?_⟩
    exact settled_stop hlib hi.owed

/-- A start that has come to its end has left no row with the hash of before. -/
theorem newHash_of_started {users : AList (fun _ : Uuid => UserRow)} (ht : Table lib users)
    (hs : Stage lib users (.ret ())) {id : Uuid} {row : UserRow}
    (hrow : users.lookup id = some row) (hkept : row.deletedAt = none) :
    row.phoneHash = lib.newHash row.phone.value := by
  refine (ht.hashes id row hrow).resolve_left fun hsha => ?_
  generalize hmain : (Prog.ret () : IndexProg Unit) = main at hs
  cases hs with
  | rows rows h =>
    cases rows with
    | nil => exact List.not_mem_nil (h.covers id row hrow hkept hsha)
    | cons row rows => cases hmain
  | select | remove | add => cases hmain

theorem complete_iff_settled (hlib : lib.Distinct) {db : IndexDb}
    (hi : Inv lib ⟨db, .starting (.ret ())⟩) :
    Complete lib db ↔ SettledHost lib ⟨db, .starting (.ret ())⟩ := by
  refine forall₄_congr fun id row hrow hkept => ?_
  have hnew := newHash_of_started hi.table hi.running hrow hkept
  have hne : row.phoneHash ≠ lib.sha256Hex row.phone.value :=
    hnew ▸ (hlib.sha256Hex _ _).symm
  simp [hnew, hnew ▸ hne, Owes, owed]

/-- If the hashes of phone numbers are distinct and all rows have the hashes of before at
first, a start that nothing disturbs leaves a complete index, after any run of starts, stops
and new users, exactly if no SADD after a write was lost in it. -/
theorem complete_iff_added (lib : HashLib) (hlib : lib.Distinct)
    (users : AList (fun _ : Uuid => UserRow)) (hphones : UniquePhones users)
    (hhashes : ∀ id row, users.lookup id = some row → row.phoneHash = lib.sha256Hex row.phone.value)
    (phoneHashes : List String) (acts : List IndexAct) (db db' : IndexDb) (ωs : List IndexChoice)
    (hrun : (indexServer lib).run acts ⟨⟨users, phoneHashes⟩, .down⟩ = some ⟨db, .down⟩)
    (hstart : (indexServer lib).run (.start :: ωs.map .boot) ⟨db, .down⟩ =
      some ⟨db', .starting (.ret ())⟩)
    (hdone : ∀ ω ∈ ωs, ω.delivery = .done) :
    Complete lib db' ↔ (indexServer lib).Every Added acts ⟨⟨users, phoneHashes⟩, .down⟩ := by
  have hinv : ∀ {h a h'}, Inv lib h → (indexServer lib).Moves h a h' → Inv lib h' :=
    fun hi hm => (inv_moves hlib hi hm).1
  have hstep : ∀ {h a h'}, Inv lib h → (indexServer lib).Moves h a h' →
      (SettledHost lib h' ↔ SettledHost lib h ∧ Added h a) := fun hi hm => (inv_moves hlib hi hm).2
  have hi : Inv lib ⟨⟨users, phoneHashes⟩, .down⟩ :=
    ⟨⟨hphones, fun id row hrow => .inl (hhashes id row hrow)⟩, by rintro m ⟨⟩, trivial⟩
  have hsettled : SettledHost lib ⟨⟨users, phoneHashes⟩, .down⟩ :=
    fun id row hrow _ => .inl (hhashes id row hrow)
  have hdown := Service.invariant_run hinv hi hrun
  have hkept : (indexServer lib).Every Added (.start :: ωs.map .boot) ⟨db, .down⟩ := by
    refine Service.every_of_forall fun a ha h => ?_
    obtain rfl | ha := List.mem_cons.mp ha
    · trivial
    · obtain ⟨ω, hω, rfl⟩ := List.mem_map.mp ha
      intro member _
      exact .inl (by rw [hdone ω hω]; rfl)
  rw [complete_iff_settled hlib (Service.invariant_run hinv hdown hstart),
    Service.good_iff_every hinv hstep hdown hstart, and_iff_left hkept,
    Service.good_iff_every hinv hstep hi hrun, and_iff_right hsettled]

section Alice

/-- What the libraries compute for the phone of Alice. -/
def aliceHashes : HashLib where
  hashPhone phone secret :=
    if phone = alicePhone ∧ secret = "test_phone_hash_secret_value_32_bytes_long" then
      "a7acdc581effe3d4fb8651c654c6754e16f021b0faad97d61fa5e920c2b2252d"
    else "h" ++ phone
  sha256Hex phone :=
    if phone = alicePhone then "5b181b132cc2c1b40eb94df758a7b9048cbcd7581782bd3dd8d5a2f8aca96ad0"
    else "s" ++ phone
  phoneHashSecret := "test_phone_hash_secret_value_32_bytes_long"

theorem ne_append {c : Char} {digest text : String} (hc : digest.toList.head? ≠ some c) :
    digest ≠ String.singleton c ++ text := by
  rintro rfl
  simp at hc

theorem aliceHashes_injective : Function.Injective aliceHashes.newHash := by
  intro p q h
  simp only [HashLib.newHash, aliceHashes] at h
  split_ifs at h with hp hq hq
  · exact hp.1.trans hq.1.symm
  · exact absurd h (ne_append (c := 'h') (by decide))
  · exact absurd h.symm (ne_append (c := 'h') (by decide))
  · exact (String.append_right_inj _).mp h

theorem aliceHashes_distinct : aliceHashes.Distinct := by
  refine ⟨fun p q h => Mesty.Auth.Registration.phoneValue_injective (aliceHashes_injective h),
    fun p q h => ?_⟩
  simp only [HashLib.newHash, aliceHashes] at h
  split_ifs at h with hp hq hq
  · exact absurd h (by decide)
  · exact absurd h (ne_append (c := 'h') (by decide))
  · exact absurd h.symm (ne_append (c := 's') (by decide))
  · have hchars := congrArg String.toList h
    simp at hchars

def alice : User := User.new aliceHashes aliceId none ⟨alicePhone, rfl⟩ none

def delivered : IndexChoice := ⟨.done, []⟩

/-- The server starts, Alice registers and Redis answers to her SADD, and the server stops. -/
def aliceRegisters (sadd : Delivery) : List IndexAct :=
  [.start, .boot delivered, .serve, .spawn ⟨aliceId, none, ⟨alicePhone, rfl⟩, none⟩,
    .step 0 delivered, .step 0 ⟨sadd, []⟩, .stop]

def aliceUsers : AList (fun _ : Uuid => UserRow) :=
  (∅ : AList _).insert aliceId alice.toUserRow

theorem alice_complete_iff_added :
    Complete aliceHashes ⟨aliceUsers, [alice.phoneHash]⟩ ↔
      (indexServer aliceHashes).Every Added (aliceRegisters .done) ⟨⟨∅, []⟩, .down⟩ :=
  complete_iff_added aliceHashes aliceHashes_distinct ∅ (by rintro id id' row row' ⟨⟩)
    (by rintro id row ⟨⟩) [] (aliceRegisters .done) ⟨aliceUsers, [alice.phoneHash]⟩ _ [delivered]
    rfl rfl (by simp [delivered])

/-- Her SADD fails, and the next start does not find her. -/
theorem alice_missing :
    ¬ ∀ db db', (indexServer aliceHashes).run (aliceRegisters (.refused "broken pipe")) ⟨⟨∅, []⟩, .down⟩ =
        some ⟨db, .down⟩ →
      (indexServer aliceHashes).run [.start, .boot delivered] ⟨db, .down⟩ =
        some ⟨db', .starting (.ret ())⟩ → Complete aliceHashes db' := by
  intro h
  have hmem := (h ⟨aliceUsers, []⟩ ⟨aliceUsers, []⟩ rfl rfl aliceId _ rfl rfl).2
  cases hmem

end Alice

end Mesty.Discovery.Completeness
