import Mesty.Keys.Coherence

namespace Mesty.Keys.Validity

open Mesty.Base.Ids Mesty.Base.Error Mesty.Concurrency.Program Mesty.Concurrency.Pool
open Mesty.Keys.Tables Mesty.Keys.Repository Mesty.Keys.Handlers Mesty.Keys.Prekeys

variable {crypto : Crypto}

/-- A key of 32 bytes under an id that is not negative. -/
def WellFormed (crypto : Crypto) (pk : OneTimePrekey) : Prop :=
  0 ≤ pk.id ∧ ∃ bytes, crypto.decode pk.key = .ok bytes ∧ bytes.length = 32

def AllWellFormed (crypto : Crypto) (db : KeysDb) : Prop :=
  ∀ r ∈ db.prekeys.rows, WellFormed crypto ⟨r.keyId, r.publicKey⟩

/-- The INSERT stores the first prekey under each id that is free. -/
def Stores (db : KeysDb) (userId : Uuid) (prekeys : List OneTimePrekey) (pk : OneTimePrekey) : Prop :=
  userId ∈ db.users ∧ (userId, pk.id) ∉ db.prekeys.rows.map PrekeyRow.slot ∧
    prekeys.find? (fun q => q.id = pk.id) = some pk

abbrev KeyAct := Act (Uuid × KeysReq) Choice

/-- What an `upload_prekeys` stores is well formed. -/
def Checked (crypto : Crypto) (c : KeyConfig) : KeyAct → Prop
  | .step i _ => ∀ userId prekeys,
      c.tasks[i]?.map Prod.fst = some (userId, .uploadPrekeys prekeys) →
        c.tasks[i]?.bind (fun t => t.2.next) = some (.insertPrekeys userId prekeys) →
          ∀ pk, Stores c.db userId prekeys pk → WellFormed crypto pk
  | _ => True

section Validation

theorem decodeSized_ok {text badBase64 badSize : String} {size : Nat} {bytes : List UInt8}
    (h : decodeSized crypto text size badBase64 badSize = .ok bytes) :
    crypto.decode text = .ok bytes ∧ bytes.length = size := by
  rw [decodeSized] at h
  cases hdecode : crypto.decode text with
  | error e =>
    rw [hdecode] at h
    cases h
  | ok bytes' =>
    simp only [hdecode] at h
    split_ifs at h with hsize
    cases h
    exact ⟨rfl, not_not.mp hsize⟩

theorem wellFormed_of_validate {seenIds : List Int32} {prekeys : List OneTimePrekey}
    (h : validatePrekeys crypto seenIds prekeys = .ok ()) : ∀ pk ∈ prekeys, WellFormed crypto pk := by
  induction prekeys generalizing seenIds with
  | nil => simp
  | cons pk prekeys ih =>
    rw [validatePrekeys] at h
    split_ifs at h with hneg hseen
    cases hdecode : decodeSized crypto pk.key 32 "invalid prekey key base64: "
        ("prekey " ++ toString pk.id ++ " must be 32 bytes") with
    | error e =>
      rw [hdecode] at h
      cases h
    | ok bytes =>
      rw [hdecode] at h
      exact List.forall_mem_cons.mpr ⟨⟨Int32.not_lt.mp hneg, bytes, decodeSized_ok hdecode⟩, ih h⟩

theorem wellFormed_of_validateOneTime {prekeys : List OneTimePrekey}
    (h : validateOneTimePrekeys crypto prekeys = .ok ()) : ∀ pk ∈ prekeys, WellFormed crypto pk := by
  rw [validateOneTimePrekeys] at h
  split_ifs at h
  exact wellFormed_of_validate h

end Validation

/-- What has been checked of the prekeys that a request inserts. -/
def Validates (crypto : Crypto) (req : Uuid × KeysReq) : KeyCmd → Prop
  | .insertPrekeys userId prekeys => userId = req.1 ∧ prekeys = req.2.prekeys ∧
      ∀ body, req.2 = .uploadKeys body → ∀ pk ∈ prekeys, WellFormed crypto pk
  | _ => True

section Insert

variable {P : OneTimePrekey → Prop} {t : PrekeyTable} {userId : Uuid} {p : OneTimePrekey}
  {prekeys : List OneTimePrekey}

theorem forall_insertRow_iff :
    (∀ r ∈ (t.insertRow userId p).rows, P ⟨r.keyId, r.publicKey⟩) ↔
      (∀ r ∈ t.rows, P ⟨r.keyId, r.publicKey⟩) ∧
        ((userId, p.id) ∉ t.rows.map PrekeyRow.slot → P p) := by
  constructor
  · intro h
    exact ⟨fun r hr => h r (PrekeyTable.mem_insertRow.mpr (.inl hr)),
      fun hfree => h _ (PrekeyTable.mem_insertRow.mpr (.inr ⟨hfree, rfl⟩))⟩
  · rintro ⟨hold, hnew⟩ r hr
    obtain hr | ⟨hfree, rfl⟩ := PrekeyTable.mem_insertRow.mp hr
    · exact hold r hr
    · exact hnew hfree

theorem find?_id_self {keyId : Int32} (h : p.id = keyId) :
    (p :: prekeys).find? (fun q => q.id = keyId) = some p :=
  List.find?_cons_of_pos (decide_eq_true h)

theorem find?_id_ne {keyId : Int32} (h : p.id ≠ keyId) :
    (p :: prekeys).find? (fun q => q.id = keyId) = prekeys.find? (fun q => q.id = keyId) :=
  List.find?_cons_of_neg (fun hid => h (of_decide_eq_true hid))

theorem forall_insertRows_iff :
    (∀ r ∈ (t.insertRows userId prekeys).rows, P ⟨r.keyId, r.publicKey⟩) ↔
      (∀ r ∈ t.rows, P ⟨r.keyId, r.publicKey⟩) ∧
        ∀ pk, (userId, pk.id) ∉ t.rows.map PrekeyRow.slot →
          prekeys.find? (fun q => q.id = pk.id) = some pk → P pk := by
  induction prekeys generalizing t with
  | nil => simp [PrekeyTable.insertRows]
  | cons p prekeys ih =>
    change (∀ r ∈ ((t.insertRow userId p).insertRows userId prekeys).rows, _) ↔ _
    rw [ih, forall_insertRow_iff, and_assoc]
    refine and_congr_right fun _ => ?_
    simp only [PrekeyTable.slot_mem_insertRow, not_or]
    constructor
    · rintro ⟨hfirst, hrest⟩ pk hfree hfind
      by_cases hid : p.id = pk.id
      · have hpk : p = pk := Option.some.inj ((find?_id_self hid).symm.trans hfind)
        exact hpk ▸ hfirst (hid ▸ hfree)
      · exact hrest pk ⟨hfree, Ne.symm hid⟩ ((find?_id_ne hid).symm.trans hfind)
    · intro h
      refine ⟨fun hfree => h p hfree (find?_id_self rfl), ?_⟩
      rintro pk ⟨hfree, hid⟩ hfind
      exact h pk hfree ((find?_id_ne (Ne.symm hid)).trans hfind)

end Insert

section Handlers

theorem respondWithCount_validates (req : Uuid × KeysReq) (userId : Uuid) :
    (respondWithCount userId).Issues (Validates crypto req) := by
  simp [respondWithCount, Validates]

theorem addOneTimePrekeys_validates {userId : Uuid} {req : KeysReq}
    (h : ∀ body, req = .uploadKeys body → ∀ pk ∈ req.prekeys, WellFormed crypto pk) :
    (KeyTask.addOneTimePrekeys userId req.prekeys).Issues (Validates crypto (userId, req)) := by
  simp only [KeyTask.addOneTimePrekeys, Prog.cmd_bind, Prog.issues_call]
  refine ⟨⟨rfl, rfl, h⟩, fun inserted => ?_⟩
  cases inserted <;> simp [Validates]

theorem uploadKeys_validates (userId : Uuid) (req : UploadKeysRequest) :
    (uploadKeys crypto userId req).Issues (Validates crypto (userId, .uploadKeys req)) := by
  simp only [uploadKeys, Prog.pure_eq, Prog.cmd_bind]
  split
  · trivial
  split
  · trivial
  split
  · trivial
  refine ⟨trivial, fun upserted => ?_⟩
  cases upserted with
  | error e => trivial
  | ok u =>
    dsimp only
    split
    · exact respondWithCount_validates _ _
    cases hvalid : validateOneTimePrekeys crypto req.oneTimePrekeys with
    | error e => trivial
    | ok u =>
      have hadd : (KeyTask.addOneTimePrekeys userId (KeysReq.uploadKeys req).prekeys).Issues
          (Validates crypto (userId, .uploadKeys req)) :=
        addOneTimePrekeys_validates fun _ _ => wellFormed_of_validateOneTime hvalid
      refine hadd.bind fun added => ?_
      cases added with
      | error e => trivial
      | ok u => exact respondWithCount_validates _ _

theorem handle_validates (userId : Uuid) (req : KeysReq) :
    (handle crypto userId req).Issues (Validates crypto (userId, req)) := by
  cases req with
  | uploadKeys req => exact uploadKeys_validates userId req
  | uploadPrekeys | getKeyBundle =>
    -- of these two nothing is asked but what they insert
    refine (Prog.Issues.mono ?_ (handle_insertsOwn crypto userId _))
    intro c hc
    cases c with
    | insertPrekeys owner prekeys => exact ⟨hc.1, hc.2, by rintro _ ⟨⟩⟩
    | _ => trivial

end Handlers

section Runs

variable {c d : KeyConfig} {a : KeyAct}

/-- The INSERT keeps the table well formed exactly if what it stores is well formed. -/
theorem insert_iff {db db' : KeysDb} {ω : Choice} {userId : Uuid} {prekeys : List OneTimePrekey}
    {ans : (KeyCmd.insertPrekeys userId prekeys).Ans} (hdb : AllWellFormed crypto db)
    (he : db.exec ω (.insertPrekeys userId prekeys) = some (ans, db')) :
    AllWellFormed crypto db' ↔ ∀ pk, Stores db userId prekeys pk → WellFormed crypto pk := by
  replace he := Option.some.inj he
  rw [KeysDb.insertPrekeys] at he
  split_ifs at he with huser
  · obtain ⟨-, rfl⟩ := Prod.mk.inj he
    refine forall_insertRows_iff.trans ((and_iff_right hdb).trans (forall_congr' fun pk => ?_))
    constructor
    · rintro h ⟨-, hfree, hfind⟩
      exact h hfree hfind
    · intro h hfree hfind
      refine h ⟨huser.resolve_right ?_, hfree, hfind⟩
      rintro rfl
      cases hfind
  · obtain ⟨-, rfl⟩ := Prod.mk.inj he
    exact iff_of_true hdb fun pk hstores => absurd (.inl hstores.1) huser

/-- The other statements store no prekeys. -/
theorem wellFormed_kept {db db' : KeysDb} {ω : Choice} {cmd : KeyCmd} {ans : cmd.Ans}
    (hdb : AllWellFormed crypto db) (he : db.exec ω cmd = some (ans, db'))
    (hcmd : ∀ userId prekeys, cmd ≠ .insertPrekeys userId prekeys) : AllWellFormed crypto db' := by
  intro r hr
  obtain ⟨s, hs, -, hid, hkey⟩ | ⟨i, prekeys, heq, -⟩ := mem_exec he hr 0
  · rw [← hid, ← hkey]
    exact hdb s hs
  · exact absurd (congrArg Event.cmd heq) (hcmd _ _)

theorem checked_iff (hr : (keyServer crypto).Replays c) (hc : AllWellFormed crypto c.db)
    (ha : (keyServer crypto).apply a c = some d) :
    Checked crypto c a ↔ AllWellFormed crypto d.db := by
  obtain ⟨r, rfl, rfl⟩ | ⟨i, ω, r, cmd, k, ans, s, rfl, ht, he, rfl⟩ | ⟨ω, s, rfl, hs, rfl⟩ :=
    System.apply_cases ha
  · exact iff_of_true trivial hc
  · have hval : Validates crypto r cmd :=
      ((hr.2 i r _ ht).issues (handle_validates r.1 r.2)).2.1
    have hchecked : Checked crypto c (.step i ω) ↔ ∀ userId prekeys,
        r = (userId, .uploadPrekeys prekeys) → cmd = .insertPrekeys userId prekeys →
          ∀ pk, Stores c.db userId prekeys pk → WellFormed crypto pk := by
      simp only [Checked, ht, Option.map_some, Option.bind_some, Prog.next_call, Option.some.injEq]
    rw [hchecked]
    by_cases hcmd : ∃ userId prekeys, cmd = .insertPrekeys userId prekeys
    · obtain ⟨userId, prekeys, rfl⟩ := hcmd
      obtain ⟨owner, req⟩ := r
      obtain ⟨rfl, rfl, hbody⟩ := hval
      refine Iff.trans ?_ (insert_iff (ω := ω) hc he).symm
      cases req with
      | uploadKeys body =>
        refine iff_of_true (by rintro _ _ ⟨⟩) fun pk hstores => ?_
        exact hbody body rfl pk (List.mem_of_find?_eq_some hstores.2.2)
      | uploadPrekeys prekeys =>
        constructor
        · exact fun h => h userId prekeys rfl rfl
        · rintro h _ _ ⟨⟩ -
          exact h
      | getKeyBundle targetUserId =>
        refine iff_of_true (by rintro _ _ ⟨⟩) ?_
        rintro pk ⟨-, -, ⟨⟩⟩
    · refine iff_of_true (fun userId prekeys _ h => absurd ⟨userId, prekeys, h⟩ hcmd) ?_
      exact wellFormed_kept hc he fun userId prekeys h => hcmd ⟨userId, prekeys, h⟩
  · obtain rfl := Option.some.inj hs
    exact iff_of_true trivial hc

end Runs

/-- In every run from an empty table all prekeys are well formed in all states exactly if those are
that an `upload_prekeys` stores. -/
theorem prekeys_well_formed_iff (crypto : Crypto) (users : List Uuid) (acts : List KeyAct) :
    (keyServer crypto).Every (Checked crypto) acts (System.start (.empty users)) ↔
      ∀ d ∈ (keyServer crypto).trace acts (System.start (.empty users)), AllWellFormed crypto d.db :=
  System.every_iff_forall (fun hc ha => System.replays_apply hc ha)
    (fun hc hgood ha => checked_iff hc hgood ha) acts (System.replays_start _) (by rintro _ ⟨⟩)

section Garbage

open Coherence (bob bobCrypto)

/-- Bob stores a prekey that is no key, under a negative id. -/
def garbage : List KeyAct :=
  .spawn (bob, .uploadPrekeys [⟨-1, "not a key"⟩]) :: List.replicate 3 (.step 0 ⟨[], []⟩)

theorem garbage_stored : ¬ ∀ acts,
    ∀ d ∈ (keyServer bobCrypto).trace acts (System.start (.empty [bob])),
      AllWellFormed bobCrypto d.db := by
  intro h
  have hrun : ∃ d ∈ ((keyServer bobCrypto).trace garbage (System.start (.empty [bob]))).getLast?,
      ∃ r ∈ d.db.prekeys.rows, r.keyId < 0 := by decide +kernel
  obtain ⟨d, hd, r, hr, hneg⟩ := hrun
  exact absurd (h garbage d (List.mem_of_getLast? hd) r hr).1 (Int32.not_le.mpr hneg)

end Garbage

end Mesty.Keys.Validity
