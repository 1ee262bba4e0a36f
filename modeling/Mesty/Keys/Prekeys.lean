import Mesty.Keys.Handlers

namespace Mesty.Keys.Prekeys

open Mesty.Base.Ids Mesty.Base.Error Mesty.Concurrency.Program Mesty.Concurrency.Pool
open Mesty.Keys.Tables Mesty.Keys.Repository Mesty.Keys.Handlers

abbrev KeyEvent := Event KeyCmd KeyCmd.Ans

abbrev KeyWorld := World KeyCmd KeyCmd.Ans KeysDb

abbrev KeyConfig := Config KeyCmd KeyCmd.Ans KeysDb (Uuid × KeysReq) (Except ApiError Response)

def Uploads (e : KeyEvent) (owner : Uuid) (pk : OneTimePrekey) : Prop :=
  ∃ i prekeys, e = ⟨i, .insertPrekeys owner prekeys, .ok ()⟩ ∧ pk ∈ prekeys

/-- The event answers with a bundle of `owner` that contains `pk`. -/
def HandsOut (e : KeyEvent) (owner : Uuid) (pk : OneTimePrekey) : Prop :=
  ∃ i b, e = ⟨i, .getUserPublicKeys owner, some b⟩ ∧
    b.oneTimePrekey.map (fun key => ⟨b.oneTimePrekeyId.getD 0, key⟩) = some pk

def Consumed (db : KeysDb) (owner : Uuid) (keyId : Int32) : Prop :=
  ∃ r ∈ db.prekeys.rows, r.userId = owner ∧ r.keyId = keyId ∧ r.isConsumed = true

def Available (db : KeysDb) (owner : Uuid) (keyId : Int32) : Prop :=
  ∃ r ∈ db.prekeys.rows, r.userId = owner ∧ r.keyId = keyId ∧ r.isConsumed = false

theorem Consumed.not_available {db : KeysDb} {owner : Uuid} {keyId : Int32}
    (h : Consumed db owner keyId) : ¬ Available db owner keyId := by
  obtain ⟨r, hr, hu, hk, hc⟩ := h
  rintro ⟨s, hs, hu', hk', hc'⟩
  obtain rfl := PrekeyTable.slot_unique hr hs (hu.trans hu'.symm) (hk.trans hk'.symm)
  rw [hc] at hc'
  cases hc'

variable {ω : Choice} {db db' : KeysDb} {c : KeyCmd} {ans : c.Ans}

/-- No statement touches a consumed row. -/
theorem exec_consumed (h : db.exec ω c = some (ans, db')) {r : PrekeyRow}
    (hr : r ∈ db.prekeys.rows) (hc : r.isConsumed = true) : r ∈ db'.prekeys.rows := by
  cases c with
  | insertPrekeys userId prekeys =>
    obtain ⟨-, rfl⟩ := Prod.ext_iff.mp (Option.some.inj h)
    rcases db.insertPrekeys_cases userId prekeys with heq | heq <;> rw [heq]
    · exact PrekeyTable.subset_insertRows hr
    · exact hr
  | getUserPublicKeys targetUserId =>
    rcases KeysDb.getUserPublicKeys_cases (Option.some.inj h) with ⟨rfl, -⟩ | ⟨s, -, heq, -⟩
    · exact hr
    · exact heq ▸ PrekeyTable.mem_consume_of_consumed hr hc
  | upsertKeys | updatePrekeyCount | getPrekeyCount | isBlocked =>
    obtain ⟨-, rfl⟩ := Prod.ext_iff.mp (Option.some.inj h)
    simpa using hr

/-- Where a row comes from: it was there, or the statement uploads it. -/
theorem mem_exec (h : db.exec ω c = some (ans, db')) {r : PrekeyRow}
    (hr : r ∈ db'.prekeys.rows) (i : Nat) :
    (∃ s ∈ db.prekeys.rows, s.userId = r.userId ∧ s.keyId = r.keyId ∧
      s.publicKey = r.publicKey) ∨ Uploads ⟨i, c, ans⟩ r.userId ⟨r.keyId, r.publicKey⟩ := by
  cases c with
  | insertPrekeys userId prekeys =>
    have h' : db.insertPrekeys userId prekeys = (ans, db') := Option.some.inj h
    rcases db.insertPrekeys_cases userId prekeys with heq | heq
    · obtain ⟨rfl, rfl⟩ := Prod.mk.inj (heq.symm.trans h')
      rcases PrekeyTable.mem_insertRows hr with hr | ⟨rfl, hp, -⟩
      · exact .inl ⟨r, hr, rfl, rfl, rfl⟩
      · exact .inr ⟨i, prekeys, rfl, hp⟩
    · obtain rfl : db = db' := heq.symm.trans (congrArg Prod.snd h')
      exact .inl ⟨r, hr, rfl, rfl, rfl⟩
  | getUserPublicKeys targetUserId =>
    refine .inl ?_
    rcases KeysDb.getUserPublicKeys_cases (Option.some.inj h) with ⟨rfl, -⟩ | ⟨s, -, heq, -⟩
    · exact ⟨r, hr, rfl, rfl, rfl⟩
    · rw [heq] at hr
      obtain ⟨s, hs, rfl⟩ := PrekeyTable.mem_consume.mp hr
      refine ⟨s, hs, ?_⟩
      split_ifs <;> exact ⟨rfl, rfl, rfl⟩
  | upsertKeys | updatePrekeyCount | getPrekeyCount | isBlocked =>
    obtain ⟨-, rfl⟩ := Prod.ext_iff.mp (Option.some.inj h)
    exact .inl ⟨r, by simpa using hr, rfl, rfl, rfl⟩

/-- A prekey is handed out from an available row, which the same statement consumes. -/
theorem exec_handsOut (h : db.exec ω c = some (ans, db')) {i : Nat} {owner : Uuid}
    {pk : OneTimePrekey} (hpk : HandsOut ⟨i, c, ans⟩ owner pk) :
    Consumed db' owner pk.id ∧ ∃ r ∈ db.prekeys.rows, r.userId = owner ∧ r.keyId = pk.id ∧
      r.publicKey = pk.key ∧ r.isConsumed = false := by
  obtain ⟨j, b, he, hb⟩ := hpk
  obtain ⟨rfl, rfl, ha⟩ := Event.mk.inj he
  obtain rfl := eq_of_heq ha
  rcases KeysDb.getUserPublicKeys_cases (Option.some.inj h) with ⟨-, hnone⟩ | ⟨r, hr, heq, hsome⟩
  · simp [(hnone b rfl).2] at hb
  · obtain ⟨hid, hkey⟩ := hsome b rfl
    obtain rfl : (⟨r.keyId, r.publicKey⟩ : OneTimePrekey) = pk := by simpa [hid, hkey] using hb
    obtain ⟨hmem, hu, hc, -⟩ := PrekeyTable.firstAvailable_eq_some hr
    exact ⟨⟨{ r with isConsumed := true }, heq ▸ PrekeyTable.mem_consume.mpr ⟨r, hmem, if_pos rfl⟩,
      hu, rfl, rfl⟩, r, hmem, hu, rfl, rfl, hc⟩

/-- Every prekey handed out was uploaded before, and was not handed out before. -/
def Accounted (before : List KeyEvent) (e : KeyEvent) : Prop :=
  ∀ owner pk, HandsOut e owner pk →
    (∃ u ∈ before, Uploads u owner pk) ∧
      ∀ e' ∈ before, ∀ pk', HandsOut e' owner pk' → pk'.id ≠ pk.id

/-- What the log says about the table. -/
structure Ledger (w : KeyWorld) : Prop where
  uploaded : ∀ r ∈ w.db.prekeys.rows, ∃ e ∈ w.log, Uploads e r.userId ⟨r.keyId, r.publicKey⟩
  consumed : ∀ e ∈ w.log, ∀ owner pk, HandsOut e owner pk → Consumed w.db owner pk.id
  accounted : Backed Accounted w.log

theorem ledger_empty (users : List Uuid) : Ledger ⟨.empty users, []⟩ :=
  ⟨by simp [KeysDb.empty, PrekeyTable.empty], by simp, backed_nil _⟩

theorem ledger_after {w : KeyWorld} (hw : Ledger w) (h : w.db.exec ω c = some (ans, db'))
    (i : Nat) : Ledger (w.after i c ans db') where
  uploaded := by
    intro r hr
    rcases mem_exec h hr i with ⟨s, hs, hu, hk, hp⟩ | hup
    · obtain ⟨e, he, hup⟩ := hw.uploaded s hs
      exact ⟨e, List.mem_append_left _ he, by rwa [hu, hk, hp] at hup⟩
    · exact ⟨_, List.mem_append_right _ List.mem_cons_self, hup⟩
  consumed := by
    intro e he owner pk hpk
    rcases List.mem_append.mp he with he | he
    · obtain ⟨r, hr, hu, hk, hc⟩ := hw.consumed e he owner pk hpk
      exact ⟨r, exec_consumed h hr hc, hu, hk, hc⟩
    · rw [List.mem_singleton.mp he] at hpk
      exact (exec_handsOut h hpk).1
  accounted := by
    refine hw.accounted.snoc fun owner pk hpk => ?_
    obtain ⟨-, r, hr, hu, hk, hp, hc⟩ := exec_handsOut h hpk
    refine ⟨?_, fun e' he' pk' hpk' hid => ?_⟩
    · have hup := hw.uploaded r hr
      rwa [hu, hk, hp] at hup
    · have hused := hw.consumed e' he' owner pk' hpk'
      exact hused.not_available ⟨r, hr, hu, hk.trans hid.symm, hc⟩

theorem ledger_outline (crypto : Crypto) :
    Outline (keyServer crypto) (fun _ _ => True) Ledger (fun _ _ _ _ => True) where
  spawn _ _ _ := trivial
  step hc _ _ he := ⟨ledger_after hc.1 he _, trivial, fun _ _ _ _ _ => trivial⟩
  tick hc _ ht := by
    obtain rfl := Option.some.inj ht
    exact ⟨⟨hc.1.uploaded, hc.1.consumed, hc.1.accounted⟩, fun _ _ _ _ => trivial⟩

/-- Task `i` has answered with a key bundle of `owner` that contains `pk`. -/
def Delivered (c : KeyConfig) (i : Nat) (owner : Uuid) (pk : OneTimePrekey) : Prop :=
  ∃ viewer resp bundle, c.tasks[i]? = some ((viewer, .getKeyBundle owner), .ret (.ok resp)) ∧
    resp.body = .keyBundle bundle ∧ bundle.oneTimePrekey = some pk

/-- Before the statement by which task `i` got `pk`, a request of `owner` uploaded it. -/
def UploadedBefore (c : KeyConfig) (i : Nat) (owner : Uuid) (pk : OneTimePrekey) : Prop :=
  ∃ before e later, c.log = before ++ e :: later ∧ e.task = i ∧ HandsOut e owner pk ∧
    ∃ u ∈ before, Uploads u owner pk ∧
      ∃ req p, c.tasks[u.task]? = some ((owner, req), p) ∧ pk ∈ req.prekeys

/-- A delivered bundle is the one that `get_user_public_keys` returned. -/
theorem ran_getKeyBundle {viewer owner : Uuid} {es : List ((c : KeyCmd) × c.Ans)}
    {resp : Response} {bundle : KeyBundleResponse}
    (h : Prog.Ran (getKeyBundle viewer owner) es (.ret (.ok resp)))
    (hbody : resp.body = .keyBundle bundle) :
    ∃ b, ⟨.getUserPublicKeys owner, some b⟩ ∈ es ∧ bundle.identityKey = b.identityKey ∧
      bundle.oneTimePrekey = b.oneTimePrekey.map (fun key => ⟨b.oneTimePrekeyId.getD 0, key⟩) := by
  simp only [getKeyBundle, Prog.pure_eq, Prog.cmd_bind] at h
  split at h
  · cases h
    cases hbody
  rw [Prog.ran_call_ret] at h
  obtain ⟨blocked, _, rfl, h⟩ := h
  split at h
  · cases h
    cases hbody
  rw [Prog.ran_call_ret] at h
  obtain ⟨blockedByTarget, _, rfl, h⟩ := h
  split at h
  · cases h
    cases hbody
  rw [Prog.ran_call_ret] at h
  obtain ⟨found, _, rfl, h⟩ := h
  cases found with
  | none => cases h
  | some b =>
    rw [Prog.ran_call_ret] at h
    obtain ⟨count, _, rfl, h⟩ := h
    cases h
    cases hbody
    exact ⟨b, by simp, rfl, rfl⟩

/-- A request inserts prekeys of its own user only, and those that it brought. -/
def InsertsOwn (req : Uuid × KeysReq) : KeyCmd → Prop
  | .insertPrekeys owner prekeys => owner = req.1 ∧ prekeys = req.2.prekeys
  | _ => True

theorem respondWithCount_insertsOwn (req : Uuid × KeysReq) (userId : Uuid) :
    (respondWithCount userId).Issues (InsertsOwn req) := by
  simp [respondWithCount, InsertsOwn]

theorem addOneTimePrekeys_insertsOwn (userId : Uuid) (req : KeysReq) :
    (KeyTask.addOneTimePrekeys userId req.prekeys).Issues (InsertsOwn (userId, req)) := by
  simp only [KeyTask.addOneTimePrekeys, Prog.cmd_bind, Prog.issues_call]
  refine ⟨⟨rfl, rfl⟩, fun inserted => ?_⟩
  cases inserted <;> simp [InsertsOwn]

theorem uploadKeys_insertsOwn (crypto : Crypto) (userId : Uuid) (req : UploadKeysRequest) :
    (uploadKeys crypto userId req).Issues (InsertsOwn (userId, .uploadKeys req)) := by
  simp only [uploadKeys, Prog.pure_eq, Prog.cmd_bind]
  split
  · trivial
  split
  · trivial
  split
  · trivial
  refine ⟨trivial, fun upserted => ?_⟩
  cases upserted with
  | error e => trivial
  | ok u =>
    dsimp only
    split
    · exact respondWithCount_insertsOwn _ _
    split
    · trivial
    refine (addOneTimePrekeys_insertsOwn userId (.uploadKeys req)).bind fun added => ?_
    cases added with
    | error e => trivial
    | ok u => exact respondWithCount_insertsOwn _ _

theorem handle_insertsOwn (crypto : Crypto) (userId : Uuid) (req : KeysReq) :
    (handle crypto userId req).Issues (InsertsOwn (userId, req)) := by
  cases req with
  | uploadKeys req => exact uploadKeys_insertsOwn crypto userId req
  | uploadPrekeys req =>
    simp only [handle, uploadPrekeys, Prog.pure_eq]
    split
    · trivial
    · refine (addOneTimePrekeys_insertsOwn userId (.uploadPrekeys req)).bind fun added => ?_
      cases added with
      | error e => trivial
      | ok u => exact respondWithCount_insertsOwn _ _
  | getKeyBundle targetUserId =>
    simp only [handle, getKeyBundle, Prog.pure_eq, Prog.cmd_bind]
    split
    · trivial
    refine ⟨trivial, fun blocked => ?_⟩
    dsimp only
    split
    · trivial
    refine ⟨trivial, fun blockedByTarget => ?_⟩
    dsimp only
    split
    · trivial
    refine ⟨trivial, fun found => ?_⟩
    cases found <;> simp [InsertsOwn]

variable {crypto : Crypto} {cfg : KeyConfig}

theorem Delivered.handsOut (hr : (keyServer crypto).Replays cfg) {i : Nat} {owner : Uuid}
    {pk : OneTimePrekey} (h : Delivered cfg i owner pk) :
    ∃ e ∈ cfg.log, e.task = i ∧ HandsOut e owner pk := by
  obtain ⟨viewer, resp, bundle, ht, hbody, hpk⟩ := h
  obtain ⟨b, hb, -, hopk⟩ := ran_getKeyBundle (hr.2 i _ _ ht) hbody
  exact ⟨_, World.mem_history.mp hb, rfl, i, b, rfl, hopk.symm.trans hpk⟩

theorem delivered_once (hr : (keyServer crypto).Replays cfg) (hl : Ledger cfg.toWorld)
    {i j : Nat} {owner : Uuid} {pk pk' : OneTimePrekey} (hi : Delivered cfg i owner pk)
    (hj : Delivered cfg j owner pk') (hid : pk.id = pk'.id) : i = j := by
  obtain ⟨e, he, rfl, hpk⟩ := hi.handsOut hr
  obtain ⟨e', he', rfl, hpk'⟩ := hj.handsOut hr
  obtain ⟨before, later, heq⟩ := List.append_of_mem he
  rw [heq, List.mem_append, List.mem_cons] at he'
  rcases he' with he' | rfl | he'
  · exact absurd hid.symm ((hl.accounted _ _ _ heq owner pk hpk).2 e' he' pk' hpk')
  · rfl
  · obtain ⟨between, rest, rfl⟩ := List.append_of_mem he'
    have hacc := hl.accounted (before ++ e :: between) e' rest (by simp [heq]) owner pk' hpk'
    exact absurd hid (hacc.2 e (by simp) pk hpk)

theorem delivered_uploaded (hr : (keyServer crypto).Replays cfg) (hl : Ledger cfg.toWorld)
    {i : Nat} {owner : Uuid} {pk : OneTimePrekey} (hi : Delivered cfg i owner pk) :
    UploadedBefore cfg i owner pk := by
  obtain ⟨e, he, rfl, hpk⟩ := hi.handsOut hr
  obtain ⟨before, later, heq⟩ := List.append_of_mem he
  obtain ⟨u, hu, hup⟩ := (hl.accounted _ _ _ heq owner pk hpk).1
  refine ⟨before, e, later, heq, rfl, hpk, u, hu, hup, ?_⟩
  obtain ⟨j, prekeys, rfl, hmem⟩ := hup
  obtain ⟨⟨userId, req⟩, p, ht, rfl, rfl⟩ := hr.origin (Q := InsertsOwn)
    (fun r => handle_insertsOwn crypto r.1 r.2) (heq ▸ List.mem_append_left _ hu)
  exact ⟨req, p, ht, hmem⟩

theorem consumed_run (more : List (Act (Uuid × KeysReq) Choice)) {owner : Uuid} {keyId : Int32}
    (h : Consumed cfg.db owner keyId) :
    Consumed ((keyServer crypto).run more cfg).db owner keyId := by
  have houtline : Outline (keyServer crypto) (fun _ _ => True)
      (fun w => Consumed w.db owner keyId) (fun _ _ _ _ => True) :=
    { spawn := fun _ _ _ => trivial
      step := fun hc _ _ he => by
        obtain ⟨r, hr, hu, hk, hc⟩ := hc.1
        exact ⟨⟨r, exec_consumed he hr hc, hu, hk, hc⟩, trivial, fun _ _ _ _ _ => trivial⟩
      tick := fun hc _ ht => by
        obtain rfl := Option.some.inj ht
        exact ⟨hc.1, fun _ _ _ _ => trivial⟩ }
  exact (houtline.reach ⟨h, fun _ _ _ _ => trivial⟩ (System.reach_run more cfg)).1

/-- In every run from an empty table a one-time prekey is delivered at most once, it was
uploaded before, and a consumed one is never available again. -/
theorem prekeys_used_once (crypto : Crypto) (users : List Uuid)
    (acts more : List (Act (Uuid × KeysReq) Choice)) :
    let c := (keyServer crypto).run acts (System.start (.empty users))
    (∀ i j owner pk pk', Delivered c i owner pk → Delivered c j owner pk' → pk.id = pk'.id →
      i = j) ∧
    (∀ i owner pk, Delivered c i owner pk → UploadedBefore c i owner pk ∧
      Consumed c.db owner pk.id) ∧
    (∀ owner keyId, Consumed c.db owner keyId →
      ¬ Available ((keyServer crypto).run more c).db owner keyId) := by
  intro c
  have hreach : (keyServer crypto).Reach (fun _ _ => True) _ c := System.reach_run acts _
  have hr := hreach.replays
  have hl := ((ledger_outline crypto).reach (Outline.start (ledger_empty users)) hreach).1
  refine ⟨fun i j owner pk pk' hi hj => delivered_once hr hl hi hj,
    fun i owner pk hi => ⟨delivered_uploaded hr hl hi, ?_⟩,
    fun owner keyId h => (consumed_run more h).not_available⟩
  obtain ⟨e, he, -, hpk⟩ := hi.handsOut hr
  exact hl.consumed e he owner pk hpk

end Mesty.Keys.Prekeys
