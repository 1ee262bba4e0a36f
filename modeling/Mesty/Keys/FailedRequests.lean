import Mesty.Concurrency.Faults
import Mesty.Keys.Counter

namespace Mesty.Keys.FailedRequests

open Mesty.Base.Ids Mesty.Base.Error Mesty.Concurrency.Program Mesty.Concurrency.Pool
open Mesty.Concurrency.Faults
open Mesty.Keys.Tables Mesty.Keys.Repository Mesty.Keys.Handlers Mesty.Keys.Counter

def statusOf : Except ApiError Response → Nat
  | .ok r => r.status
  | .error e => e.intoResponse.1

theorem error_status (e : ApiError) : 400 ≤ statusOf (.error e) := by
  cases e <;> simp [statusOf, ApiError.intoResponse]

/-- The tables hold the same of the user. -/
structure SameKeys (db db' : KeysDb) (userId : Uuid) : Prop where
  keys : db'.userKeys.lookup userId = db.userKeys.lookup userId
  prekeys : ∀ r : PrekeyRow, r.userId = userId → (r ∈ db'.prekeys.rows ↔ r ∈ db.prekeys.rows)

/-- The keys of the request are those of the user already. -/
def Keeps (db : KeysDb) (userId : Uuid) (req : UploadKeysRequest) : Prop :=
  ∃ count, db.userKeys.lookup userId = some ⟨req.identityKey, req.signedPrekey, count⟩

/-- The user has a prekey with this id already. -/
def Taken (db : KeysDb) (userId : Uuid) (p : OneTimePrekey) : Prop :=
  (userId, p.id) ∈ db.prekeys.rows.map PrekeyRow.slot

/-- The counter of the user stays: it is the number of the prekeys, or these are too many for it. -/
def CountKept (db : KeysDb) (userId : Uuid) : Prop :=
  2 ^ 31 ≤ db.prekeys.countAvailable userId ∨
    ∃ row, db.userKeys.lookup userId = some row ∧ row.prekeyCount = db.prekeys.countAvailable userId

/-- The statement of the upload changes nothing that the user has, where those before it do not. -/
def Idle (db : KeysDb) (userId : Uuid) (req : UploadKeysRequest) : Nat → Prop
  | 0 => Keeps db userId req
  | 1 => ∀ p ∈ req.oneTimePrekeys, Taken db userId p
  | 2 => CountKept db userId
  | _ => True

abbrev KeyChoice := CallChoice Choice (fun _ : KeyCmd => SqlError)

/-- The upload whose statements may fail. -/
def failingUpload (crypto : Crypto) (userId : Uuid) (req : UploadKeysRequest) :
    Prog KeyCmd (fun c => Except SqlError c.Ans) (Except ApiError Response) :=
  failing (fun (_ : KeyCmd) e => internal (.fromSqlx e)) (uploadKeys crypto userId req)

/-- After how many statements that take effect an accepted upload is refused: its prekeys are
invalid, or too many to be counted. -/
def refusedAfter (crypto : Crypto) (db : KeysDb) (userId : Uuid) (req : UploadKeysRequest) :
    Option Nat :=
  if req.oneTimePrekeys = [] then none
  else match validateOneTimePrekeys crypto req.oneTimePrekeys with
  | .error _ => some 1
  | .ok () =>
    if 2 ^ 31 ≤ (db.prekeys.insertRows userId req.oneTimePrekeys).countAvailable userId then some 2
    else none

/-- After how many statements an accepted upload is answered with an error: of those that are
executed the last may be the one that fails. -/
def stopsAfter (crypto : Crypto) (db : KeysDb) (userId : Uuid) (req : UploadKeysRequest)
    (ωs : List KeyChoice) : Option Nat :=
  if ωs.any (fun ω => ω.failure.isSome) then some (ωs.countP CallChoice.executes)
  else refusedAfter crypto db userId req

/-- The condition: what an upload has executed before it is answered with an error changes nothing. -/
def Harmless (crypto : Crypto) (db : KeysDb) (userId : Uuid) (req : UploadKeysRequest)
    (ωs : List KeyChoice) : Prop :=
  Accepted crypto req → userId ∈ db.users →
    ∀ k ∈ stopsAfter crypto db userId req ωs, ∀ j < k, Idle db userId req j

/-- What the statement of the upload makes of the tables. The last one only reads. -/
def write (userId : Uuid) (req : UploadKeysRequest) : Nat → KeysDb → KeysDb
  | 0, db => (db.upsertKeys userId req.identityKey req.signedPrekey).2
  | 1, db => (db.insertPrekeys userId req.oneTimePrekeys).2
  | 2, db => (db.updatePrekeyCount userId).2
  | _, db => db

/-- The tables after the first statements of an accepted upload. -/
def written (db : KeysDb) (userId : Uuid) (req : UploadKeysRequest) : Nat → KeysDb
  | 0 => db
  | k + 1 => write userId req k (written db userId req k)

section Prekeys

variable {t : PrekeyTable} {userId : Uuid} {prekeys : List OneTimePrekey}

theorem insertRows_taken (h : ∀ p ∈ prekeys, (userId, p.id) ∈ t.rows.map PrekeyRow.slot) :
    (t.insertRows userId prekeys).rows = t.rows := by
  induction prekeys generalizing t with
  | nil => rfl
  | cons p prekeys ih =>
    have hp := PrekeyTable.insertRow_taken (h p List.mem_cons_self)
    have hrest := ih (t := t.insertRow userId p) fun q hq => by
      rw [hp]
      exact h q (List.mem_cons_of_mem p hq)
    exact hrest.trans hp

/-- The INSERT fills every slot that it is given. -/
theorem slot_mem_insertRows {p : OneTimePrekey} (hp : p ∈ prekeys) :
    (userId, p.id) ∈ (t.insertRows userId prekeys).rows.map PrekeyRow.slot := by
  induction prekeys generalizing t with
  | nil => cases hp
  | cons q prekeys ih =>
    obtain rfl | hp := List.mem_cons.mp hp
    · have hself : (userId, p.id) ∈ (t.insertRow userId p).rows.map PrekeyRow.slot :=
        PrekeyTable.slot_mem_insertRow.mpr (.inr rfl)
      obtain ⟨r, hr, hslot⟩ := List.mem_map.mp hself
      exact List.mem_map.mpr ⟨r, PrekeyTable.subset_insertRows (t := t.insertRow userId p) hr, hslot⟩
    · exact ih hp

end Prekeys

section Uploads

variable {crypto : Crypto} {db : KeysDb} {userId : Uuid} {req : UploadKeysRequest}

theorem sameKeys_refl (db : KeysDb) (userId : Uuid) : SameKeys db db userId :=
  ⟨rfl, fun _ _ => Iff.rfl⟩

/-- The upsert leaves the row of the user as it is exactly if it brings no new keys. -/
theorem upsert_same_iff (huser : userId ∈ db.users) :
    SameKeys db (db.upsertKeys userId req.identityKey req.signedPrekey).2 userId ↔
      Keeps db userId req := by
  have hlookup : (db.upsertKeys userId req.identityKey req.signedPrekey).2.userKeys.lookup userId =
      some ⟨req.identityKey, req.signedPrekey,
        (db.userKeys.lookup userId).elim 0 UserKeysRow.prekeyCount⟩ := by
    rw [lookup_upsertKeys huser, if_pos rfl]
  constructor
  · intro hsame
    exact ⟨_, hsame.keys.symm.trans hlookup⟩
  · rintro ⟨count, hrow⟩
    refine ⟨?_, fun r _ => ?_⟩
    · rw [hlookup, hrow]
      rfl
    · rw [KeysDb.upsertKeys_prekeys]

theorem insert_same_iff {prekeys : List OneTimePrekey} :
    (∀ r : PrekeyRow, r.userId = userId →
      (r ∈ (db.prekeys.insertRows userId prekeys).rows ↔ r ∈ db.prekeys.rows)) ↔
      ∀ p ∈ prekeys, Taken db userId p := by
  constructor
  · intro hsame p hp
    have hfilled : (userId, p.id) ∈ (db.prekeys.insertRows userId prekeys).rows.map PrekeyRow.slot :=
      slot_mem_insertRows hp
    obtain ⟨r, hr, hslot⟩ := List.mem_map.mp hfilled
    exact List.mem_map.mpr ⟨r, (hsame r (congrArg Prod.fst hslot)).mp hr, hslot⟩
  · intro htaken r _
    rw [insertRows_taken htaken]

theorem upsertKeys_eq (huser : userId ∈ db.users) :
    db.upsertKeys userId req.identityKey req.signedPrekey = (.ok (), written db userId req 1) := by
  rw [written, write, written, KeysDb.upsertKeys, if_pos huser]

theorem users_written (k : Nat) : (written db userId req k).users = db.users := by
  induction k with
  | zero => rfl
  | succ k ih =>
    rw [← ih, written]
    match k with
    | 0 =>
      rw [write, KeysDb.upsertKeys]
      split_ifs <;> rfl
    | 1 =>
      rw [write, KeysDb.insertPrekeys]
      split_ifs <;> rfl
    | 2 =>
      simp only [write, KeysDb.updatePrekeyCount]
      split_ifs <;> simp
    | k + 3 => rfl

/-- From the first statement on the user has the new keys. -/
theorem lookup_written (huser : userId ∈ db.users) (k : Nat) :
    ∃ count, (written db userId req (k + 1)).userKeys.lookup userId =
      some ⟨req.identityKey, req.signedPrekey, count⟩ := by
  induction k with
  | zero => exact ⟨_, (lookup_upsertKeys huser).trans (if_pos rfl)⟩
  | succ k ih =>
    obtain ⟨count, hrow⟩ := ih
    match k with
    | 0 =>
      refine ⟨count, ?_⟩
      rw [written, write, ← hrow, KeysDb.insertPrekeys]
      split_ifs <;> rfl
    | 1 =>
      simp only [written, write] at hrow
      simp only [written, write, KeysDb.updatePrekeyCount]
      split_ifs with hlarge
      · exact ⟨count, hrow⟩
      · rw [lookup_setPrekeyCount, hrow, Option.map_some, if_pos rfl]
        exact ⟨_, rfl⟩
    | k + 2 => exact ⟨count, hrow⟩

theorem mem_written (huser : userId ∈ db.users) (k : Nat) :
    userId ∈ (written db userId req (k + 1)).userKeys := by
  obtain ⟨count, hrow⟩ : ∃ count, (written db userId req (k + 1)).userKeys.lookup userId =
      some ⟨req.identityKey, req.signedPrekey, count⟩ := lookup_written huser k
  exact AList.lookup_isSome.mp (by rw [hrow]; rfl)

/-- From the second statement on the user has the new prekeys. -/
theorem prekeys_written (huser : userId ∈ db.users) (k : Nat) :
    (written db userId req (k + 2)).prekeys = db.prekeys.insertRows userId req.oneTimePrekeys := by
  induction k with
  | zero =>
    have husers : userId ∈ (written db userId req 1).users := by
      rw [users_written]
      exact huser
    have hprekeys : (written db userId req 1).prekeys = db.prekeys := KeysDb.upsertKeys_prekeys _ _ _ _
    rw [written, write, KeysDb.insertPrekeys, if_pos (.inl husers), hprekeys]
  | succ k ih =>
    rw [← ih]
    cases k with
    | zero => exact KeysDb.updatePrekeyCount_prekeys _ _
    | succ k => rfl

theorem insertPrekeys_eq (huser : userId ∈ db.users) :
    (written db userId req 1).insertPrekeys userId req.oneTimePrekeys =
      (.ok (), written db userId req 2) := by
  have husers : userId ∈ (written db userId req 1).users := by
    rw [users_written]
    exact huser
  rw [written.eq_def _ _ _ 2]
  simp only [write, KeysDb.insertPrekeys, if_pos (Or.inl husers)]

theorem sameKeys_two_iff (huser : userId ∈ db.users) :
    SameKeys db (written db userId req 2) userId ↔
      Keeps db userId req ∧ ∀ p ∈ req.oneTimePrekeys, Taken db userId p := by
  rw [← upsert_same_iff huser, ← insert_same_iff, ← prekeys_written huser 0]
  have hrow : (written db userId req 2).userKeys = (written db userId req 1).userKeys := by
    rw [written, write, KeysDb.insertPrekeys]
    split_ifs <;> rfl
  constructor
  · rintro ⟨hkeys, hrows⟩
    exact ⟨⟨hrow ▸ hkeys, fun r _ => by rw [KeysDb.upsertKeys_prekeys]⟩, hrows⟩
  · rintro ⟨hkeys, hrows⟩
    exact ⟨hrow.symm ▸ hkeys.keys, hrows⟩

/-- Where the keys and the prekeys were there before, the counter decides. -/
theorem sameKeys_count_iff (huser : userId ∈ db.users)
    (hsame : SameKeys db (written db userId req 2) userId) :
    SameKeys db (written db userId req 3) userId ↔ CountKept db userId := by
  obtain ⟨⟨count, hrow⟩, htaken⟩ := (sameKeys_two_iff huser).mp hsame
  have hrows : (written db userId req 2).prekeys.rows = db.prekeys.rows := by
    rw [prekeys_written huser 0, insertRows_taken htaken]
  have hcount : (written db userId req 2).prekeys.countAvailable userId =
      db.prekeys.countAvailable userId := by
    rw [PrekeyTable.countAvailable, hrows, PrekeyTable.countAvailable]
  have hlookup := hsame.keys.trans hrow
  have hmem : userId ∈ (written db userId req 2).userKeys :=
    AList.lookup_isSome.mp (by rw [hlookup]; rfl)
  rw [CountKept, written, write, KeysDb.updatePrekeyCount, hcount]
  by_cases hlarge : 2 ^ 31 ≤ db.prekeys.countAvailable userId
  · rw [if_pos ⟨hmem, hlarge⟩]
    exact iff_of_true hsame (.inl hlarge)
  rw [if_neg fun h => hlarge h.2]
  have hafter : ((written db userId req 2).setPrekeyCount userId
      (fun _ => db.prekeys.countAvailable userId)).userKeys.lookup userId =
        some ⟨req.identityKey, req.signedPrekey, db.prekeys.countAvailable userId⟩ := by
    rw [lookup_setPrekeyCount, hlookup, Option.map_some, if_pos rfl]
  constructor
  · rintro ⟨hkeys, -⟩
    exact .inr ⟨_, hkeys.symm.trans hafter, rfl⟩
  · rintro (h | ⟨row, hstored, heq⟩)
    · exact absurd h hlarge
    · obtain rfl := Option.some.inj (hrow.symm.trans hstored)
      refine ⟨?_, fun r _ => by rw [KeysDb.setPrekeyCount_prekeys, hrows]⟩
      rw [hafter, hrow, ← heq]

/-- Nothing has changed after a statement exactly if nothing had before it, and it is idle. -/
theorem sameKeys_succ_iff (huser : userId ∈ db.users) (k : Nat) :
    SameKeys db (written db userId req (k + 1)) userId ↔
      SameKeys db (written db userId req k) userId ∧ Idle db userId req k := by
  match k with
  | 0 => exact (upsert_same_iff huser).trans (and_iff_right (sameKeys_refl db userId)).symm
  | 1 => exact (sameKeys_two_iff huser).trans (and_congr_left fun _ => (upsert_same_iff huser).symm)
  | 2 =>
    refine ⟨fun hsame => ?_, fun ⟨hsame, hidle⟩ => (sameKeys_count_iff huser hsame).mpr hidle⟩
    obtain ⟨count, hrow⟩ : ∃ count, (written db userId req 3).userKeys.lookup userId =
        some ⟨req.identityKey, req.signedPrekey, count⟩ := lookup_written huser 2
    have htaken := insert_same_iff.mp fun r hr => prekeys_written huser 1 ▸ hsame.prekeys r hr
    have htwo := (sameKeys_two_iff huser).mpr ⟨⟨count, hsame.keys.symm.trans hrow⟩, htaken⟩
    exact ⟨htwo, (sameKeys_count_iff huser htwo).mp hsame⟩
  | k + 3 => exact (and_iff_left trivial).symm

theorem sameKeys_written_iff (huser : userId ∈ db.users) (k : Nat) :
    SameKeys db (written db userId req k) userId ↔ ∀ j < k, Idle db userId req j := by
  induction k with
  | zero => exact iff_of_true (sameKeys_refl db userId) (by rintro j ⟨⟩)
  | succ k ih =>
    rw [sameKeys_succ_iff huser, ih]
    exact Nat.forall_lt_succ_right.symm

/-- An upload that no statement of fails: it is refused with an error after the statements that are
counted above, or answered with 200. -/
theorem uploadKeys_ends (hacc : Accepted crypto req) (huser : userId ∈ db.users) :
    (uploadKeys crypto userId req).wp KeysDb.exec (fun r db' =>
      (400 ≤ statusOf r ↔ (refusedAfter crypto db userId req).isSome = true) ∧
      ∀ k ∈ refusedAfter crypto db userId req, db' = written db userId req k) db := by
  obtain ⟨hidentity, hsigned, hverify⟩ := hacc
  rw [uploadKeys, if_neg hidentity, if_neg hsigned, hverify]
  refine wp_known (c := .upsertKeys userId req.identityKey req.signedPrekey)
    (fun _ => congrArg some (upsertKeys_eq huser)) ?_
  have hcounted : ∀ db₁, refusedAfter crypto db userId req = none →
      (respondWithCount userId).wp KeysDb.exec (fun r db' =>
        (400 ≤ statusOf r ↔ (refusedAfter crypto db userId req).isSome = true) ∧
        ∀ k ∈ refusedAfter crypto db userId req, db' = written db userId req k) db₁ := by
    intro db₁ hnone
    refine wp_known (c := .getPrekeyCount userId) (fun _ => rfl) ?_
    rw [hnone]
    exact ⟨iff_of_false (show ¬ 400 ≤ 200 by decide) Bool.false_ne_true, by rintro k ⟨⟩⟩
  by_cases hempty : req.oneTimePrekeys = []
  · simp only [if_pos hempty]
    exact hcounted _ (if_pos hempty)
  simp only [if_neg hempty]
  cases hvalid : validateOneTimePrekeys crypto req.oneTimePrekeys with
  | error e =>
    have hrefused : refusedAfter crypto db userId req = some 1 := by
      rw [refusedAfter, if_neg hempty, hvalid]
    rw [hrefused]
    refine ⟨iff_of_true (Nat.le_refl 400) rfl, ?_⟩
    rintro k ⟨⟩
    rfl
  | ok u =>
    refine wp_known (c := .insertPrekeys userId req.oneTimePrekeys)
      (fun _ => congrArg some (insertPrekeys_eq huser)) ?_
    refine wp_known (c := .updatePrekeyCount userId) (fun _ => rfl) ?_
    have hmem : userId ∈ (written db userId req 2).userKeys := mem_written huser 1
    simp only [KeysDb.updatePrekeyCount, prekeys_written huser 0, hmem, true_and]
    split_ifs with hlarge
    · have hrefused : refusedAfter crypto db userId req = some 2 := by
        rw [refusedAfter, if_neg hempty, hvalid]
        exact if_pos hlarge
      rw [hrefused]
      refine ⟨iff_of_true (error_status _) rfl, ?_⟩
      rintro k ⟨⟩
      rfl
    · refine hcounted _ ?_
      rw [refusedAfter, if_neg hempty, hvalid]
      exact if_neg hlarge

theorem after_count {db₁ db' : KeysDb} {ωs : List Choice} {n : Nat}
    (h : after KeysDb.exec n (respondWithCount userId) ωs db₁ = some db') : n ≤ 1 ∧ db' = db₁ := by
  obtain ⟨rfl, rfl⟩ | ⟨m, ω, ωs, count, db₂, rfl, rfl, he, hrest⟩ := after_call h
  · exact ⟨Nat.zero_le 1, rfl⟩
  · obtain ⟨-, rfl⟩ := Prod.mk.inj (Option.some.inj he)
    obtain ⟨rfl, rfl⟩ := after_ret hrest
    exact ⟨Nat.le_refl 1, rfl⟩

/-- Where an accepted upload is after some of its statements. -/
theorem after_uploadKeys (hacc : Accepted crypto req) (huser : userId ∈ db.users) {n : Nat}
    {ωs : List Choice} {db' : KeysDb}
    (h : after KeysDb.exec n (uploadKeys crypto userId req) ωs db = some db') :
    db' = written db userId req n := by
  obtain ⟨hidentity, hsigned, hverify⟩ := hacc
  rw [uploadKeys, if_neg hidentity, if_neg hsigned, hverify] at h
  obtain ⟨rfl, rfl⟩ | ⟨m, ω, ωs, answer, db₁, rfl, rfl, he, hrest⟩ := after_call h
  · rfl
  rw [KeysDb.exec, upsertKeys_eq huser] at he
  obtain ⟨rfl, rfl⟩ := Prod.mk.inj (Option.some.inj he)
  by_cases hempty : req.oneTimePrekeys = []
  · simp only [if_pos hempty] at hrest
    obtain ⟨hle, rfl⟩ := after_count hrest
    obtain rfl | rfl := Nat.le_one_iff_eq_zero_or_eq_one.mp hle
    · rfl
    · rw [written.eq_def _ _ _ 2]
      simp only [write, KeysDb.insertPrekeys, hempty, or_true, if_true]
      rfl
  simp only [if_neg hempty] at hrest
  cases hvalid : validateOneTimePrekeys crypto req.oneTimePrekeys with
  | error e =>
    rw [hvalid] at hrest
    obtain ⟨rfl, rfl⟩ := after_ret hrest
    rfl
  | ok u =>
    rw [hvalid] at hrest
    obtain ⟨rfl, rfl⟩ | ⟨m, ω, ωs, answer, db₁, rfl, rfl, he, hrest⟩ := after_call hrest
    · rfl
    rw [KeysDb.exec, insertPrekeys_eq huser] at he
    obtain ⟨rfl, rfl⟩ := Prod.mk.inj (Option.some.inj he)
    obtain ⟨rfl, rfl⟩ | ⟨m, ω, ωs, answer, db₁, rfl, rfl, he, hrest⟩ := after_call hrest
    · rfl
    obtain rfl : db₁ = written db userId req 3 := (congrArg Prod.snd (Option.some.inj he)).symm
    cases answer with
    | error e =>
      obtain ⟨rfl, rfl⟩ := after_ret hrest
      rfl
    | ok u =>
      obtain ⟨hle, rfl⟩ := after_count hrest
      obtain rfl | rfl := Nat.le_one_iff_eq_zero_or_eq_one.mp hle <;> rfl

/-- The tables and the answer of an accepted upload that runs alone. -/
theorem failingUpload_ends (hacc : Accepted crypto req) (huser : userId ∈ db.users)
    {ωs : List KeyChoice} {r : Except ApiError Response} {db' : KeysDb}
    (h : (failingUpload crypto userId req).alone (faulty KeysDb.exec) ωs db = some (r, db')) :
    (400 ≤ statusOf r ↔ (stopsAfter crypto db userId req ωs).isSome = true) ∧
      ∀ k ∈ stopsAfter crypto db userId req ωs, db' = written db userId req k := by
  obtain ⟨hnone, hclean⟩ | ⟨hfails, e, rfl⟩ := failing_alone h
  · have hstops : stopsAfter crypto db userId req ωs = refusedAfter crypto db userId req := by
      refine if_neg fun hany => ?_
      obtain ⟨ω, hω, hsome⟩ := List.any_eq_true.mp hany
      rw [hnone ω hω] at hsome
      cases hsome
    rw [hstops]
    exact (uploadKeys_ends hacc huser).of_alone hclean
  · have hstops : stopsAfter crypto db userId req ωs = some (ωs.countP CallChoice.executes) := by
      obtain ⟨ω, hω, hne⟩ := hfails
      exact if_pos (List.any_eq_true.mpr ⟨ω, hω, Option.isSome_iff_ne_none.mpr hne⟩)
    rw [hstops]
    refine ⟨iff_of_true (error_status e) rfl, ?_⟩
    rintro k ⟨⟩
    exact after_uploadKeys hacc huser (failing_state h hfails)

/-- An upload that is not accepted, or of no user, changes nothing. -/
theorem failingUpload_refused (hno : ¬ (Accepted crypto req ∧ userId ∈ db.users))
    {ωs : List KeyChoice} {r : Except ApiError Response} {db' : KeysDb}
    (h : (failingUpload crypto userId req).alone (faulty KeysDb.exec) ωs db = some (r, db')) :
    db' = db := by
  by_cases hidentity : req.identityKey = ""
  · rw [failingUpload, uploadKeys, if_pos hidentity] at h
    exact (Prog.alone_ret h).2.2
  by_cases hsigned : req.signedPrekey.key = "" ∨ req.signedPrekey.signature = ""
  · rw [failingUpload, uploadKeys, if_neg hidentity, if_pos hsigned] at h
    exact (Prog.alone_ret h).2.2
  rw [failingUpload, uploadKeys, if_neg hidentity, if_neg hsigned] at h
  cases hverify : verifySignedPrekey crypto req with
  | error e =>
    rw [hverify] at h
    exact (Prog.alone_ret h).2.2
  | ok u =>
    rw [hverify] at h
    have huser : userId ∉ db.users := fun huser => hno ⟨⟨hidentity, hsigned, hverify⟩, huser⟩
    obtain ⟨ω, ωs', rfl, ⟨-, rfl⟩ | ⟨-, answer, mid, he, hend⟩⟩ := failing_call h
    · rfl
    rw [KeysDb.exec, KeysDb.upsertKeys, if_neg huser] at he
    obtain ⟨rfl, rfl⟩ := Prod.mk.inj (Option.some.inj he)
    obtain rfl | hrest := hend
    · rfl
    · exact (Prog.alone_ret hrest).2.2

/-- An upload that runs alone and is answered with an error leaves all of the user's keys as they are
exactly if it is harmless. -/
theorem failed_upload_changes_nothing_iff {ωs : List KeyChoice} {r : Except ApiError Response}
    {db' : KeysDb}
    (h : (failingUpload crypto userId req).alone (faulty KeysDb.exec) ωs db = some (r, db')) :
    (400 ≤ statusOf r → SameKeys db db' userId) ↔ Harmless crypto db userId req ωs := by
  by_cases hfirst : Accepted crypto req ∧ userId ∈ db.users
  · obtain ⟨hacc, huser⟩ := hfirst
    obtain ⟨herror, hstate⟩ := failingUpload_ends hacc huser h
    rw [herror, Harmless, Option.isSome_iff_exists]
    constructor
    · intro hsame _ _ k hk
      exact (sameKeys_written_iff huser k).mp (hstate k hk ▸ hsame ⟨k, hk⟩)
    · rintro hidle ⟨k, hk⟩
      rw [hstate k hk]
      exact (sameKeys_written_iff huser k).mpr (hidle hacc huser k hk)
  · obtain rfl := failingUpload_refused hfirst h
    exact iff_of_true (fun _ => sameKeys_refl _ userId) fun hacc huser => absurd ⟨hacc, huser⟩ hfirst

section Reinstall

open Coherence (bob bobCrypto firstIdentity firstPrekey newPrekey oldPrekey secondIdentity secondPrekey)

/-- Bob has installed the program. -/
def installed : KeysDb := ((keyServer bobCrypto).run
  (.spawn (bob, .uploadKeys ⟨firstIdentity, firstPrekey, [oldPrekey]⟩) ::
    List.replicate 4 (.step 0 ⟨[], []⟩)) (System.start (.empty [bob]))).db

/-- Bob installs it anew. The id of the prekey is invalid. -/
def invalidUpload : UploadKeysRequest := ⟨secondIdentity, secondPrekey, [⟨-1, newPrekey.key⟩]⟩

/-- A statement that does not fail. -/
def answered : KeyChoice := ⟨⟨[], []⟩, none⟩

/-- A statement that is executed, but whose answer is lost. -/
def lost : KeyChoice := ⟨⟨[], []⟩, some ⟨fun _ => some .unexpected, true⟩⟩

theorem rejected_upload_stored : ¬ ∀ ωs r db',
    (failingUpload bobCrypto bob invalidUpload).alone (faulty KeysDb.exec) ωs installed = some (r, db') →
      400 ≤ statusOf r → SameKeys installed db' bob := by
  intro h
  have hrun : ∃ out ∈ (failingUpload bobCrypto bob invalidUpload).alone (faulty KeysDb.exec) [answered]
      installed, statusOf out.1 = 400 ∧
        (out.2.userKeys.lookup bob).map UserKeysRow.identityKey = some secondIdentity := by
    decide +kernel
  have hbefore : (installed.userKeys.lookup bob).map UserKeysRow.identityKey = some firstIdentity := by
    decide +kernel
  obtain ⟨⟨r, db'⟩, hsome, hstatus, hafter⟩ := hrun
  have hsame := h _ r db' hsome (Nat.le_of_eq hstatus.symm)
  rw [hsame.keys, hbefore] at hafter
  exact absurd hafter (by decide)

/-- Bob repeats his upload with another prekey. -/
def otherUpload : UploadKeysRequest := ⟨firstIdentity, firstPrekey, [⟨2, newPrekey.key⟩]⟩

/-- The answer to the INSERT of the prekey is lost. -/
theorem lost_upload : ∃ r db',
    (failingUpload bobCrypto bob otherUpload).alone (faulty KeysDb.exec)
      [answered, lost] installed = some (r, db') ∧ statusOf r = 500 ∧
    db'.prekeys.rows.length = 2 ∧
    ((400 ≤ statusOf r → SameKeys installed db' bob) ↔
      Harmless bobCrypto installed bob otherUpload [answered, lost]) := by
  have hrun : ∃ out ∈ (failingUpload bobCrypto bob otherUpload).alone
      (faulty KeysDb.exec) [answered, lost] installed,
      statusOf out.1 = 500 ∧ out.2.prekeys.rows.length = 2 := by
    decide +kernel
  obtain ⟨⟨r, db'⟩, hsome, hstatus, hrows⟩ := hrun
  exact ⟨r, db', hsome, hstatus, hrows, failed_upload_changes_nothing_iff hsome⟩

end Reinstall

end Uploads

section Bundles

variable {db : KeysDb} {userId targetUserId : Uuid}

/-- Who may ask for the keys of a user who has none finds no prekey of this user either, unless it
is locked. -/
def Spared (db : KeysDb) (userId targetUserId : Uuid) (locked : List Nat) : Prop :=
  targetUserId ≠ userId → (userId, targetUserId) ∉ db.blocks → (targetUserId, userId) ∉ db.blocks →
    targetUserId ∉ db.userKeys → ∀ r ∈ db.prekeys.rows, r.userId = targetUserId →
      r.isConsumed = false → r.id ∈ locked

theorem firstAvailable_eq_none_iff {t : PrekeyTable} {locked : List Nat} :
    t.firstAvailable userId locked = none ↔
      ∀ r ∈ t.rows, r.userId = userId → r.isConsumed = false → r.id ∈ locked := by
  rw [PrekeyTable.firstAvailable, List.find?_eq_none]
  refine forall₂_congr fun r _ => ?_
  simp only [decide_eq_true_eq, not_and, not_not]

/-- The SQL function has changed nothing exactly if there was nothing to consume. -/
theorem bundle_same_iff {locked : List Nat} :
    (∀ owner, SameKeys db (db.getUserPublicKeys locked targetUserId).2 owner) ↔
      db.prekeys.firstAvailable targetUserId locked = none := by
  simp only [KeysDb.getUserPublicKeys]
  cases hfirst : db.prekeys.firstAvailable targetUserId locked with
  | none => exact iff_of_true (sameKeys_refl db) rfl
  | some r =>
    refine iff_of_false (fun hsame => ?_) (by rintro ⟨⟩)
    obtain ⟨hmem, -, hfree, -⟩ := PrekeyTable.firstAvailable_eq_some hfirst
    have hkept := ((hsame r.userId).prekeys r rfl).mpr hmem
    rw [KeysDb.setPrekeyCount_prekeys] at hkept
    obtain ⟨s, hs, heq⟩ := PrekeyTable.mem_consume.mp hkept
    split_ifs at heq with hid
    · rw [← heq] at hfree
      cases hfree
    · exact hid (congrArg PrekeyRow.id heq)

theorem bundle_eq_none_iff {locked : List Nat} :
    (db.getUserPublicKeys locked targetUserId).1 = none ↔ targetUserId ∉ db.userKeys := by
  rw [← AList.lookup_eq_none]
  simp only [KeysDb.getUserPublicKeys, Option.map_eq_none_iff]
  cases db.prekeys.firstAvailable targetUserId locked with
  | none => exact Iff.rfl
  | some r => simp only [lookup_setPrekeyCount, Option.map_eq_none_iff]

/-- A request for a bundle that runs alone and is answered with an error consumes no prekey and
changes no counter exactly if the user has keys, or nobody may ask for them, or no prekey is there:
the third choice is that of the statement that consumes. -/
theorem failed_fetch_costs_nothing_iff {ωs : List Choice} {r : Except ApiError Response}
    {db' : KeysDb}
    (h : (getKeyBundle userId targetUserId).alone KeysDb.exec ωs db = some (r, db')) :
    (400 ≤ statusOf r → ∀ owner, SameKeys db db' owner) ↔
      ∀ ω ∈ ωs[2]?, Spared db userId targetUserId ω.locked := by
  rw [getKeyBundle] at h
  split_ifs at h with hself
  · obtain ⟨rfl, rfl, rfl⟩ := Prog.alone_ret h
    exact iff_of_true (fun _ => sameKeys_refl _) (by rintro _ ⟨⟩)
  obtain ⟨ω₀, ωs₁, blocked, db₁, rfl, he, h₁⟩ := Prog.alone_call h
  obtain ⟨rfl, rfl⟩ := Prod.mk.inj (Option.some.inj he)
  by_cases hblocked : (userId, targetUserId) ∈ db.blocks
  · rw [decide_eq_true hblocked] at h₁
    obtain ⟨rfl, rfl, rfl⟩ := Prog.alone_ret h₁
    exact iff_of_true (fun _ => sameKeys_refl _) (by rintro _ ⟨⟩)
  rw [decide_eq_false hblocked] at h₁
  obtain ⟨ω₁, ωs₂, blocks, db₁, rfl, he₁, h₂⟩ := Prog.alone_call h₁
  obtain ⟨rfl, rfl⟩ := Prod.mk.inj (Option.some.inj he₁)
  by_cases hblocks : (targetUserId, userId) ∈ db.blocks
  · rw [decide_eq_true hblocks] at h₂
    obtain ⟨rfl, rfl, rfl⟩ := Prog.alone_ret h₂
    exact iff_of_true (fun _ => sameKeys_refl _) (by rintro _ ⟨⟩)
  rw [decide_eq_false hblocks] at h₂
  obtain ⟨ω₂, ωs₃, bundle, db₁, rfl, he₂, h₃⟩ := Prog.alone_call h₂
  have hfetch := Option.some.inj he₂
  have hchoice : (∀ ω ∈ (ω₀ :: ω₁ :: ω₂ :: ωs₃)[2]?, Spared db userId targetUserId ω.locked) ↔
      Spared db userId targetUserId ω₂.locked := by
    simp
  rw [hchoice]
  cases bundle with
  | none =>
    have hnokeys := bundle_eq_none_iff.mp (congrArg Prod.fst hfetch)
    have hsame : (∀ owner, SameKeys db db₁ owner) ↔ ∀ r ∈ db.prekeys.rows,
        r.userId = targetUserId → r.isConsumed = false → r.id ∈ ω₂.locked := by
      rw [← firstAvailable_eq_none_iff, ← bundle_same_iff, hfetch]
    obtain ⟨rfl, rfl, rfl⟩ := Prog.alone_ret h₃
    exact ⟨fun h _ _ _ _ => hsame.mp (h (error_status _)),
      fun h _ => hsame.mpr (h hself hblocked hblocks hnokeys)⟩
  | some bundle =>
    have hkeys : targetUserId ∈ db.userKeys := by
      by_contra hnokeys
      have hnone := congrArg Prod.fst hfetch
      rw [bundle_eq_none_iff.mpr hnokeys] at hnone
      cases hnone
    obtain ⟨ω₃, ωs₄, count, db₂, rfl, he₃, h₄⟩ := Prog.alone_call h₃
    obtain ⟨rfl, rfl, rfl⟩ := Prog.alone_ret h₄
    exact iff_of_true (fun h => absurd h (show ¬ 400 ≤ 200 by decide))
      fun _ _ _ hnokeys => absurd hkeys hnokeys

section WithoutKeys

open Coherence (alice bob bobCrypto oldPrekey)

/-- Bob has stored a one-time prekey before his keys. -/
def prekeyFirst : List (Act (Uuid × KeysReq) Choice) :=
  .spawn (bob, .uploadPrekeys [oldPrekey]) :: List.replicate 3 (.step 0 ⟨[], []⟩)

/-- Alice's request finds no keys of Bob and has used up his prekey. -/
theorem not_found_consumed : ¬ ∀ acts ωs r db',
    (getKeyBundle alice bob).alone KeysDb.exec ωs
      ((keyServer bobCrypto).run acts (System.start (.empty [bob, alice]))).db = some (r, db') →
        400 ≤ statusOf r → ∀ owner, SameKeys
          ((keyServer bobCrypto).run acts (System.start (.empty [bob, alice]))).db db' owner := by
  intro h
  have hrun : ∃ out ∈ (getKeyBundle alice bob).alone KeysDb.exec (List.replicate 3 ⟨[], []⟩)
      ((keyServer bobCrypto).run prekeyFirst (System.start (.empty [bob, alice]))).db,
      statusOf out.1 = 404 ∧ out.2.prekeys.rows.map PrekeyRow.isConsumed = [true] := by decide +kernel
  have hbefore : ((keyServer bobCrypto).run prekeyFirst
      (System.start (.empty [bob, alice]))).db.prekeys.rows = [⟨0, bob, 1, oldPrekey.key, false⟩] := by
    decide +kernel
  obtain ⟨⟨r, db'⟩, hsome, hstatus, hafter⟩ := hrun
  have hsame := h prekeyFirst _ r db' hsome (hstatus ▸ by decide) bob
  have hkept := (hsame.prekeys ⟨0, bob, 1, oldPrekey.key, false⟩ rfl).mpr (hbefore ▸ List.mem_cons_self)
  have hconsumed := List.mem_map_of_mem (f := PrekeyRow.isConsumed) hkept
  rw [hafter] at hconsumed
  cases List.mem_singleton.mp hconsumed

/-- Another transaction has Bob's prekey locked. -/
theorem locked_prekey_spared : ∃ r db',
    (getKeyBundle alice bob).alone KeysDb.exec [⟨[], []⟩, ⟨[], []⟩, ⟨[0], []⟩]
      ((keyServer bobCrypto).run prekeyFirst (System.start (.empty [bob, alice]))).db = some (r, db') ∧
    statusOf r = 404 ∧ db'.prekeys.rows = [⟨0, bob, 1, oldPrekey.key, false⟩] ∧
    ((400 ≤ statusOf r → ∀ owner, SameKeys
        ((keyServer bobCrypto).run prekeyFirst (System.start (.empty [bob, alice]))).db db' owner) ↔
      ∀ ω ∈ [(⟨[], []⟩ : Choice), ⟨[], []⟩, ⟨[0], []⟩][2]?, Spared
        ((keyServer bobCrypto).run prekeyFirst (System.start (.empty [bob, alice]))).db
        alice bob ω.locked) := by
  have hrun : ∃ out ∈ (getKeyBundle alice bob).alone KeysDb.exec [⟨[], []⟩, ⟨[], []⟩, ⟨[0], []⟩]
      ((keyServer bobCrypto).run prekeyFirst (System.start (.empty [bob, alice]))).db,
      statusOf out.1 = 404 ∧ out.2.prekeys.rows = [⟨0, bob, 1, oldPrekey.key, false⟩] := by
    decide +kernel
  obtain ⟨⟨r, db'⟩, hsome, hstatus, hrows⟩ := hrun
  exact ⟨r, db', hsome, hstatus, hrows, failed_fetch_costs_nothing_iff hsome⟩

end WithoutKeys

end Bundles

end Mesty.Keys.FailedRequests
