import Mesty.Concurrency.Sequential
import Mesty.Keys.Coherence

namespace Mesty.Keys.Counter

open Mesty.Base.Ids Mesty.Base.Error Mesty.Concurrency.Program Mesty.Concurrency.Pool
open Mesty.Concurrency.Sequential Mesty.Keys.Tables Mesty.Keys.Repository Mesty.Keys.Handlers

def ExactFor (db : KeysDb) (userId : Uuid) : Prop :=
  ∀ row, db.userKeys.lookup userId = some row → row.prekeyCount = db.prekeys.countAvailable userId

/-- Every counter is the number of the prekeys of its user that are not consumed. -/
def Exact (db : KeysDb) : Prop := ∀ userId, ExactFor db userId

/-- What the column types and the foreign key promise. -/
structure Stored (db : KeysDb) : Prop where
  users : ∀ userId row, db.userKeys.lookup userId = some row → userId ∈ db.users
  small : ∀ userId row, db.userKeys.lookup userId = some row → row.prekeyCount < 2 ^ 31

section Statements

variable {db : KeysDb} {userId owner : Uuid} {prekeys : List OneTimePrekey}

theorem lookup_setPrekeyCount (count : Nat → Nat) :
    (db.setPrekeyCount userId count).userKeys.lookup owner =
      (db.userKeys.lookup owner).map (fun row =>
        if owner = userId then { row with prekeyCount := count row.prekeyCount } else row) := by
  rw [KeysDb.setPrekeyCount]
  by_cases hown : owner = userId
  · subst hown
    cases hrow : db.userKeys.lookup owner with
    | none => simp [hrow]
    | some row => simp [AList.lookup_insert]
  · cases hrow : db.userKeys.lookup userId with
    | none => simp [hown]
    | some row => simp [hown, AList.lookup_insert_ne hown]

theorem lookup_upsertKeys {identityKey : String} {signedPrekey : SignedPrekey}
    (huser : userId ∈ db.users) :
    (db.upsertKeys userId identityKey signedPrekey).2.userKeys.lookup owner =
      if owner = userId then some ⟨identityKey, signedPrekey,
        (db.userKeys.lookup userId).elim 0 UserKeysRow.prekeyCount⟩
      else db.userKeys.lookup owner := by
  rw [KeysDb.upsertKeys, if_pos huser]
  by_cases hown : owner = userId
  · rw [if_pos hown, hown, AList.lookup_insert]
  · rw [if_neg hown, AList.lookup_insert_ne hown]

/-- Counting anew is right unless the count does not fit into its column. -/
theorem exact_recount_iff (hs : Stored db) (hothers : ∀ owner, owner ≠ userId → ExactFor db owner) :
    Exact ({ db with prekeys := db.prekeys.insertRows userId prekeys }.updatePrekeyCount userId).2 ↔
      (userId ∈ db.userKeys → (db.prekeys.insertRows userId prekeys).countAvailable userId < 2 ^ 31) := by
  simp only [KeysDb.updatePrekeyCount]
  by_cases hlarge : userId ∈ db.userKeys ∧
      2 ^ 31 ≤ (db.prekeys.insertRows userId prekeys).countAvailable userId
  · rw [if_pos hlarge]
    refine iff_of_false (fun hexact => ?_) fun h => absurd (h hlarge.1) (Nat.not_lt.mpr hlarge.2)
    obtain ⟨row, hrow⟩ := Option.isSome_iff_exists.mp (AList.lookup_isSome.mpr hlarge.1)
    have hcount := hexact userId row hrow
    have hsmall := hs.small userId row hrow
    simp only at hcount
    omega
  · rw [if_neg hlarge]
    refine iff_of_true (fun owner row hrow => ?_) fun hmem => by
      rw [not_and, Nat.not_le] at hlarge
      exact hlarge hmem
    rw [lookup_setPrekeyCount] at hrow
    obtain ⟨row', hrow', rfl⟩ := Option.map_eq_some_iff.mp hrow
    rw [KeysDb.setPrekeyCount_prekeys]
    by_cases hown : owner = userId
    · simp [hown]
    · rw [if_neg hown, hothers owner hown row' hrow',
        PrekeyTable.countAvailable_insertRows_ne hown]

theorem stored_updateCount (hs : Stored db) : Stored (db.updatePrekeyCount userId).2 := by
  simp only [KeysDb.updatePrekeyCount]
  split_ifs with hlarge
  · exact hs
  · constructor
    · intro owner row hrow
      rw [lookup_setPrekeyCount] at hrow
      obtain ⟨row', hrow', -⟩ := Option.map_eq_some_iff.mp hrow
      rw [KeysDb.setPrekeyCount_users]
      exact hs.users owner row' hrow'
    · intro owner row hrow
      rw [lookup_setPrekeyCount] at hrow
      obtain ⟨row', hrow', rfl⟩ := Option.map_eq_some_iff.mp hrow
      by_cases hown : owner = userId
      · subst hown
        rw [if_pos rfl]
        have hmem : owner ∈ db.userKeys := AList.lookup_isSome.mp (by rw [hrow']; rfl)
        rw [not_and, Nat.not_le] at hlarge
        exact hlarge hmem
      · rw [if_neg hown]
        exact hs.small owner row' hrow'

theorem stored_upsert (identityKey : String) (signedPrekey : SignedPrekey) (hs : Stored db) :
    Stored (db.upsertKeys userId identityKey signedPrekey).2 := by
  by_cases huser : userId ∈ db.users
  · have husers : (db.upsertKeys userId identityKey signedPrekey).2.users = db.users := by
      rw [KeysDb.upsertKeys, if_pos huser]
    constructor
    · intro owner row hrow
      rw [lookup_upsertKeys huser] at hrow
      rw [husers]
      by_cases hown : owner = userId
      · exact hown ▸ huser
      · rw [if_neg hown] at hrow
        exact hs.users owner row hrow
    · intro owner row hrow
      rw [lookup_upsertKeys huser] at hrow
      by_cases hown : owner = userId
      · rw [if_pos hown] at hrow
        obtain rfl := Option.some.inj hrow
        cases hold : db.userKeys.lookup userId with
        | none => exact Nat.two_pow_pos 31
        | some old => exact hs.small userId old hold
      · rw [if_neg hown] at hrow
        exact hs.small owner row hrow
  · rw [KeysDb.upsertKeys, if_neg huser]
    exact hs

/-- A new row starts to count at zero. -/
theorem exact_upsert_iff (identityKey : String) (signedPrekey : SignedPrekey)
    (huser : userId ∈ db.users) (hdb : Exact db) :
    Exact (db.upsertKeys userId identityKey signedPrekey).2 ↔
      (userId ∈ db.userKeys ∨ db.prekeys.countAvailable userId = 0) := by
  have hothers : ∀ owner, owner ≠ userId →
      ExactFor (db.upsertKeys userId identityKey signedPrekey).2 owner := by
    intro owner hown row hrow
    rw [lookup_upsertKeys huser, if_neg hown] at hrow
    rw [KeysDb.upsertKeys_prekeys]
    exact hdb owner row hrow
  have hself : ExactFor (db.upsertKeys userId identityKey signedPrekey).2 userId ↔
      (db.userKeys.lookup userId).elim 0 UserKeysRow.prekeyCount =
        db.prekeys.countAvailable userId := by
    simp [ExactFor, lookup_upsertKeys huser]
  constructor
  · intro hexact
    have hcount := hself.mp (hexact userId)
    cases hrow : db.userKeys.lookup userId with
    | none =>
      rw [hrow] at hcount
      exact .inr hcount.symm
    | some row => exact .inl (AList.lookup_isSome.mp (by rw [hrow]; rfl))
  · intro h owner
    by_cases hown : owner = userId
    · rw [hown, hself]
      cases hrow : db.userKeys.lookup userId with
      | none =>
        have hno : userId ∉ db.userKeys := AList.lookup_eq_none.mp hrow
        exact (h.resolve_left hno).symm
      | some row => exact hdb userId row hrow
    · exact hothers owner hown

theorem exact_bundle {locked : List Nat} (hdb : Exact db) :
    Exact (db.getUserPublicKeys locked userId).2 := by
  simp only [KeysDb.getUserPublicKeys]
  cases hfirst : db.prekeys.firstAvailable userId locked with
  | none => exact hdb
  | some r =>
    intro owner row hrow
    rw [lookup_setPrekeyCount] at hrow
    obtain ⟨row', hrow', rfl⟩ := Option.map_eq_some_iff.mp hrow
    have hcount := hdb owner row' hrow'
    simp only [KeysDb.setPrekeyCount_prekeys, PrekeyTable.countAvailable_consume hfirst]
    by_cases hown : owner = userId
    · simp [hown, hcount]
    · simp [hown, hcount]

theorem stored_bundle (locked : List Nat) (hs : Stored db) :
    Stored (db.getUserPublicKeys locked userId).2 := by
  simp only [KeysDb.getUserPublicKeys]
  cases hfirst : db.prekeys.firstAvailable userId locked with
  | none => exact hs
  | some r =>
    refine ⟨fun owner row hrow => ?_, fun owner row hrow => ?_⟩ <;>
      rw [lookup_setPrekeyCount] at hrow <;>
      obtain ⟨row', hrow', rfl⟩ := Option.map_eq_some_iff.mp hrow
    · simpa using hs.users owner row' hrow'
    · have hsmall := hs.small owner row' hrow'
      by_cases hown : owner = userId
      · simp only [hown, if_true]
        omega
      · simpa [hown] using hsmall

theorem stored_exec {ω : Choice} {c : KeyCmd} {ans : c.Ans} {db' : KeysDb} (hs : Stored db)
    (h : db.exec ω c = some (ans, db')) : Stored db' := by
  cases c with
  | upsertKeys userId identityKey signedPrekey =>
    obtain ⟨-, rfl⟩ := Prod.ext_iff.mp (Option.some.inj h)
    exact stored_upsert identityKey signedPrekey hs
  | insertPrekeys userId prekeys =>
    obtain ⟨-, rfl⟩ := Prod.ext_iff.mp (Option.some.inj h)
    obtain heq | heq := db.insertPrekeys_cases userId prekeys
    · rw [heq]
      exact ⟨hs.users, hs.small⟩
    · rw [heq]
      exact hs
  | updatePrekeyCount userId =>
    obtain ⟨-, rfl⟩ := Prod.ext_iff.mp (Option.some.inj h)
    exact stored_updateCount hs
  | getUserPublicKeys targetUserId =>
    obtain ⟨-, rfl⟩ := Prod.ext_iff.mp (Option.some.inj h)
    exact stored_bundle ω.locked hs
  | getPrekeyCount | isBlocked =>
    obtain ⟨-, rfl⟩ := Prod.ext_iff.mp (Option.some.inj h)
    exact hs

end Statements

/-- The request passes the checks that precede the first statement. -/
def Accepted (crypto : Crypto) (req : UploadKeysRequest) : Prop :=
  req.identityKey ≠ "" ∧ ¬ (req.signedPrekey.key = "" ∨ req.signedPrekey.signature = "") ∧
    verifySignedPrekey crypto req = .ok ()

/-- The request brings one-time prekeys that are stored. -/
def Recounts (crypto : Crypto) (req : UploadKeysRequest) : Prop :=
  req.oneTimePrekeys ≠ [] ∧ validateOneTimePrekeys crypto req.oneTimePrekeys = .ok ()

/-- The condition on a request: one that stores prekeys for a user with keys does not exceed
the column, and one that only stores keys finds some, or no prekeys of its user. -/
def Counted (crypto : Crypto) (db : KeysDb) : Uuid × KeysReq → Prop
  | (userId, .uploadKeys req) => Accepted crypto req → userId ∈ db.users →
      (Recounts crypto req →
        (db.prekeys.insertRows userId req.oneTimePrekeys).countAvailable userId < 2 ^ 31) ∧
      (¬ Recounts crypto req → userId ∈ db.userKeys ∨ db.prekeys.countAvailable userId = 0)
  | (userId, .uploadPrekeys prekeys) => userId ∈ db.userKeys →
      (db.prekeys.insertRows userId prekeys).countAvailable userId < 2 ^ 31
  | (_, .getKeyBundle _) => True

section Requests

variable {crypto : Crypto} {db : KeysDb} {userId : Uuid} {I : KeysDb → Prop} {α : Type}

/-- The rule for a statement whose answer is known. -/
theorem wp_known {c : KeyCmd} {k : c.Ans → KeyTask α} {a : c.Ans × KeysDb}
    {Q : α → KeysDb → Prop} (h : ∀ ω, KeysDb.exec ω c db = some a)
    (hk : (k a.1).wp KeysDb.exec Q a.2) : (Prog.call c k).wp KeysDb.exec Q db := by
  intro ω r db' he
  obtain ⟨rfl, rfl⟩ := Prod.mk.inj (Option.some.inj ((h ω).symm.trans he))
  exact hk

theorem wp_answer {c : KeyCmd} {k : c.Ans → KeyTask α} {a : c.Ans × KeysDb}
    (h : ∀ ω, KeysDb.exec ω c db = some a) (hk : (k a.1).wp KeysDb.exec (fun _ => I) a.2) :
    (Prog.call c k).wp KeysDb.exec (fun _ => I) db :=
  wp_known h hk

theorem wp_respond (hI : I db) :
    (respondWithCount userId).wp KeysDb.exec (fun _ => I) db :=
  wp_answer (fun _ => rfl) hI

/-- Storing prekeys and counting them anew. -/
theorem wp_addPrekeys {prekeys : List OneTimePrekey} {f : Except DomainError Unit → KeyTask α}
    (huser : userId ∈ db.users) (hf : ∀ r db', I db' → (f r).wp KeysDb.exec (fun _ => I) db')
    (h : I ({ db with prekeys := db.prekeys.insertRows userId prekeys }.updatePrekeyCount userId).2) :
    (KeyTask.addOneTimePrekeys userId prekeys >>= f).wp KeysDb.exec (fun _ => I) db := by
  have hinsert : db.insertPrekeys userId prekeys =
      (.ok (), { db with prekeys := db.prekeys.insertRows userId prekeys }) := if_pos (.inl huser)
  refine wp_known (c := .insertPrekeys userId prekeys) (fun _ => congrArg some hinsert) ?_
  exact wp_known (c := .updatePrekeyCount userId) (fun _ => rfl) (hf _ _ h)

/-- The counters after an accepted request has stored its prekeys. -/
theorem exact_stored_iff (hs : Stored db) (hdb : Exact db) (huser : userId ∈ db.users)
    (req : UploadKeysRequest) {db₁ : KeysDb}
    (hdb₁ : db₁ = (db.upsertKeys userId req.identityKey req.signedPrekey).2) :
    Exact ({ db₁ with prekeys := db₁.prekeys.insertRows userId req.oneTimePrekeys }.updatePrekeyCount
        userId).2 ↔
      (db.prekeys.insertRows userId req.oneTimePrekeys).countAvailable userId < 2 ^ 31 := by
  have hprekeys : db₁.prekeys = db.prekeys := hdb₁ ▸ KeysDb.upsertKeys_prekeys _ _ _ _
  have hmem : userId ∈ db₁.userKeys := by
    rw [hdb₁, ← AList.lookup_isSome, lookup_upsertKeys huser, if_pos rfl]
    rfl
  have hothers : ∀ owner, owner ≠ userId → ExactFor db₁ owner := by
    intro owner hown row hrow
    rw [hdb₁, lookup_upsertKeys huser, if_neg hown] at hrow
    rw [hprekeys]
    exact hdb owner row hrow
  rw [exact_recount_iff (hdb₁ ▸ stored_upsert _ _ hs) hothers, hprekeys]
  exact forall_prop_of_true hmem

theorem uploadKeys_exact (hs : Stored db) (hdb : Exact db) (req : UploadKeysRequest) :
    (uploadKeys crypto userId req).wp KeysDb.exec
      (fun _ db' => Counted crypto db (userId, .uploadKeys req) ↔ Exact db') db := by
  -- a request that ends before the first statement
  have hrefused : ¬ Accepted crypto req →
      (Counted crypto db (userId, .uploadKeys req) ↔ Exact db) :=
    fun h => iff_of_true (fun hacc => absurd hacc h) hdb
  by_cases hidentity : req.identityKey = ""
  · rw [uploadKeys, if_pos hidentity]
    exact hrefused fun h => h.1 hidentity
  by_cases hsigned : req.signedPrekey.key = "" ∨ req.signedPrekey.signature = ""
  · rw [uploadKeys, if_neg hidentity, if_pos hsigned]
    exact hrefused fun h => h.2.1 hsigned
  rw [uploadKeys, if_neg hidentity, if_neg hsigned]
  cases hverify : verifySignedPrekey crypto req with
  | error e => exact hrefused fun h => by rw [h.2.2] at hverify; cases hverify
  | ok u =>
    by_cases huser : userId ∈ db.users
    · obtain ⟨db₁, hdb₁⟩ :
          ∃ db₁, db.upsertKeys userId req.identityKey req.signedPrekey = (.ok (), db₁) :=
        ⟨_, if_pos huser⟩
      have hsnd : db₁ = (db.upsertKeys userId req.identityKey req.signedPrekey).2 := by rw [hdb₁]
      have hacc : Accepted crypto req := ⟨hidentity, hsigned, hverify⟩
      have hcounted : Counted crypto db (userId, .uploadKeys req) ↔ _ :=
        ⟨fun h => h hacc huser, fun h _ _ => h⟩
      -- a request that stores the keys alone
      have hkeys : ¬ Recounts crypto req →
          (Counted crypto db (userId, .uploadKeys req) ↔ Exact db₁) := by
        intro hno
        rw [hcounted, hsnd, exact_upsert_iff _ _ huser hdb]
        exact ⟨fun h => h.2 hno, fun h => ⟨fun hr => absurd hr hno, fun _ => h⟩⟩
      refine wp_answer (a := (.ok (), db₁)) (fun _ => congrArg some hdb₁) ?_
      by_cases hempty : req.oneTimePrekeys = []
      · rw [if_pos hempty]
        exact wp_respond (hkeys fun h => h.1 hempty)
      rw [if_neg hempty]
      cases hvalid : validateOneTimePrekeys crypto req.oneTimePrekeys with
      | error e => exact hkeys fun h => by rw [h.2] at hvalid; cases hvalid
      | ok u =>
        have hrecounts : Recounts crypto req := ⟨hempty, hvalid⟩
        have husers : db₁.users = db.users := by
          rw [hsnd, KeysDb.upsertKeys, if_pos huser]
        refine wp_addPrekeys (husers ▸ huser) (fun r db' hI => ?_) ?_
        · cases r with
          | error e => exact hI
          | ok u => exact wp_respond hI
        · rw [hcounted, exact_stored_iff hs hdb huser req hsnd]
          exact ⟨fun h => h.1 hrecounts, fun h => ⟨fun _ => h, fun hno => absurd hrecounts hno⟩⟩
    · refine wp_answer (a := (.error (.fromSqlx .foreignKeyViolation), db))
        (fun _ => congrArg some (if_neg huser)) ?_
      exact iff_of_true (fun _ hmem => absurd hmem huser) hdb

theorem uploadPrekeys_exact (hs : Stored db) (hdb : Exact db) (prekeys : List OneTimePrekey) :
    (uploadPrekeys userId prekeys).wp KeysDb.exec
      (fun _ db' => Counted crypto db (userId, .uploadPrekeys prekeys) ↔ Exact db') db := by
  rw [uploadPrekeys]
  split_ifs with hempty
  · refine iff_of_true (fun hmem => ?_) hdb
    obtain ⟨row, hrow⟩ := Option.isSome_iff_exists.mp (AList.lookup_isSome.mpr hmem)
    rw [hempty]
    exact (hdb userId row hrow) ▸ hs.small userId row hrow
  · by_cases huser : userId ∈ db.users
    · refine wp_addPrekeys huser (fun r db' hI => ?_) ?_
      · cases r with
        | error e => exact hI
        | ok u => exact wp_respond hI
      · exact (exact_recount_iff hs fun owner _ => hdb owner).symm
    · have hno : userId ∉ db.userKeys := fun hmem => by
        obtain ⟨row, hrow⟩ := Option.isSome_iff_exists.mp (AList.lookup_isSome.mpr hmem)
        exact huser (hs.users userId row hrow)
      have hinsert : db.insertPrekeys userId prekeys = (.error (.fromSqlx .foreignKeyViolation), db) :=
        if_neg (not_or.mpr ⟨huser, hempty⟩)
      refine wp_answer (a := (.error (.fromSqlx .foreignKeyViolation), db))
        (fun _ => congrArg some hinsert) ?_
      exact iff_of_true (fun hmem => absurd hmem hno) hdb

theorem getKeyBundle_exact (hdb : Exact db) (targetUserId : Uuid) :
    (getKeyBundle userId targetUserId).wp KeysDb.exec (fun _ => Exact) db := by
  simp only [getKeyBundle, Prog.pure_eq, Prog.cmd_bind]
  split_ifs
  · exact hdb
  refine wp_answer (fun _ => rfl) ?_
  dsimp only
  split_ifs
  · exact hdb
  refine wp_answer (fun _ => rfl) ?_
  dsimp only
  split_ifs
  · exact hdb
  intro ω bundle db' he
  obtain ⟨rfl, rfl⟩ := Prod.ext_iff.mp (Option.some.inj he)
  cases (db.getUserPublicKeys ω.locked targetUserId).1 with
  | none => exact exact_bundle hdb
  | some bundle => exact wp_answer (fun _ => rfl) (exact_bundle hdb)

/-- A request leaves the counters exact if and only if it meets the condition. -/
theorem handle_exact (hs : Stored db) (hdb : Exact db) (req : KeysReq) :
    (handle crypto userId req).wp KeysDb.exec
      (fun _ db' => Counted crypto db (userId, req) ↔ Exact db') db := by
  cases req with
  | uploadKeys req => exact uploadKeys_exact hs hdb req
  | uploadPrekeys prekeys => exact uploadPrekeys_exact hs hdb prekeys
  | getKeyBundle targetUserId =>
    exact (getKeyBundle_exact hdb targetUserId).mono fun _ _ h => iff_of_true trivial h

end Requests

abbrev SerialConfig := Config (Uuid × KeysReq) (fun _ => Except ApiError Response) KeysDb
  (Uuid × KeysReq) (Except ApiError Response)

abbrev SerialAct := Act (Uuid × KeysReq) (List Choice)

/-- Every request finds the tables as the condition wants them. -/
def InOrder (crypto : Crypto) (c : SerialConfig) : SerialAct → Prop
  | .step i _ => ∀ r, c.tasks[i]?.bind (fun t => t.2.next) = some r → Counted crypto c.db r
  | _ => True

theorem stored_apply {crypto : Crypto} {c d : SerialConfig} {a : SerialAct} (hs : Stored c.db)
    (ha : (atomic (keyServer crypto)).apply a c = some d) : Stored d.db := by
  obtain hdb | ⟨i, ωs, r, out, -, -, hrun⟩ | ⟨ω, htick⟩ := atomic_cases ha
  · exact hdb ▸ hs
  · have hkept : ((keyServer crypto).handler r).wp KeysDb.exec (fun _ => Stored) c.db := by
      refine Prog.Issues.wp (P := fun _ => True) ?_ (Prog.issues_of_forall (fun _ => trivial) _) hs
      intro ω c r s s' _ hs he
      exact stored_exec hs he
    exact hkept.of_alone hrun
  · rw [← Option.some.inj htick]
    exact ⟨hs.users, hs.small⟩

theorem exact_apply_iff {crypto : Crypto} {c d : SerialConfig} {a : SerialAct} (hs : Stored c.db)
    (hc : Exact c.db) (ha : (atomic (keyServer crypto)).apply a c = some d) :
    InOrder crypto c a ↔ Exact d.db := by
  obtain ⟨r, rfl, rfl⟩ | ⟨i, ωs, r, cmd, k, ans, s, rfl, ht, he, rfl⟩ | ⟨ωs, s, rfl, htick, rfl⟩ :=
    System.apply_cases ha
  · exact iff_of_true trivial hc
  · simp only [InOrder, ht, Option.bind_some, Prog.next_call, Option.some.injEq, forall_eq']
    exact (handle_exact hs hc cmd.2).of_alone he
  · obtain ⟨ω, -, hω⟩ := Option.bind_eq_some_iff.mp htick
    obtain rfl := Option.some.inj hω
    exact iff_of_true trivial hc

/-- In a run of requests that are executed one at a time, all counters are exact in all states
exactly if every request is made in order. -/
theorem counters_exact_iff (crypto : Crypto) (users : List Uuid) (acts : List SerialAct) :
    (atomic (keyServer crypto)).Every (InOrder crypto) acts (System.start (.empty users)) ↔
      ∀ c ∈ (atomic (keyServer crypto)).trace acts (System.start (.empty users)), Exact c.db := by
  refine System.every_iff_forall (J := fun c => Stored c.db) (fun hs ha => stored_apply hs ha)
    (fun hs hc ha => exact_apply_iff hs hc ha) acts ?_ ?_
  · constructor <;> intro userId row hrow <;> simp [System.start, KeysDb.empty] at hrow
  · intro userId row hrow
    simp [System.start, KeysDb.empty] at hrow

section Prekeys

open Coherence (bob bobCrypto firstIdentity firstPrekey oldPrekey)

/-- Bob uploads a one-time prekey and then his keys. -/
def prekeysFirst : List SerialAct :=
  [.spawn (bob, .uploadPrekeys [oldPrekey]), .step 0 (List.replicate 3 ⟨[], []⟩),
    .spawn (bob, .uploadKeys ⟨firstIdentity, firstPrekey, []⟩), .step 1 (List.replicate 2 ⟨[], []⟩)]

theorem first_prekeys_uncounted :
    ¬ ∀ c ∈ (atomic (keyServer bobCrypto)).trace prekeysFirst (System.start (.empty [bob])),
      Exact c.db := by
  intro h
  have hcounts : ((atomic (keyServer bobCrypto)).trace prekeysFirst
      (System.start (.empty [bob])))[4]?.any (fun c => c.db.prekeys.countAvailable bob = 1 ∧
        (c.db.userKeys.lookup bob).map UserKeysRow.prekeyCount = some 0) := by decide +kernel
  obtain ⟨c, hc, hany⟩ := (Option.any_eq_true _ _).mp hcounts
  obtain ⟨hcount, hrow⟩ := of_decide_eq_true hany
  obtain ⟨row, hlookup, hzero⟩ := Option.map_eq_some_iff.mp hrow
  have hexact := h c (List.mem_of_getElem? hc) bob row hlookup
  omega

end Prekeys

end Mesty.Keys.Counter
