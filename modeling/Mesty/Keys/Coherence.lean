import Mesty.Keys.Prekeys

namespace Mesty.Keys.Coherence

open Mesty.Base.Ids Mesty.Base.Error Mesty.Concurrency.Program Mesty.Concurrency.Pool
open Mesty.Keys.Tables Mesty.Keys.Repository Mesty.Keys.Handlers Mesty.Keys.Prekeys

abbrev KeyAct := Act (Uuid × KeysReq) Choice

/-- The event makes `identityKey` the identity key of `owner`. -/
def Identifies (e : KeyEvent) (owner : Uuid) (identityKey : String) : Prop :=
  ∃ i signedPrekey, e = ⟨i, .upsertKeys owner identityKey signedPrekey, .ok ()⟩

/-- `since` is what happened since the upload that made `identityKey` the current
identity key of `owner`, or since a later upload of the same identity key. -/
def Tenure (log : List KeyEvent) (owner : Uuid) (identityKey : String)
    (since : List KeyEvent) : Prop :=
  ∃ earlier made, log = earlier ++ made :: since ∧ Identifies made owner identityKey ∧
    ∀ e ∈ since, ∀ other, Identifies e owner other → other = identityKey

def UploadedSince (log : List KeyEvent) (owner : Uuid) (identityKey : String)
    (pk : OneTimePrekey) : Prop :=
  ∃ since, Tenure log owner identityKey since ∧ ∃ u ∈ since, Uploads u owner pk

variable {log since : List KeyEvent} {e : KeyEvent} {owner : Uuid} {identityKey : String}
  {pk : OneTimePrekey}

theorem tenure_self (h : Identifies e owner identityKey) :
    Tenure (log ++ [e]) owner identityKey [] :=
  ⟨log, e, rfl, h, by simp⟩

theorem Tenure.snoc (h : Tenure log owner identityKey since)
    (he : ∀ other, Identifies e owner other → other = identityKey) :
    Tenure (log ++ [e]) owner identityKey (since ++ [e]) := by
  obtain ⟨earlier, made, rfl, hmade, hsince⟩ := h
  refine ⟨earlier, made, by simp, hmade, fun e' he' => ?_⟩
  obtain he' | he' := List.mem_append.mp he'
  · exact hsince e' he'
  · rw [List.mem_singleton.mp he']
    exact he

theorem tenure_snoc (h : Tenure (log ++ [e]) owner identityKey since) :
    (since = [] ∧ Identifies e owner identityKey) ∨
    ∃ since', since = since' ++ [e] ∧ Tenure log owner identityKey since' ∧
      ∀ other, Identifies e owner other → other = identityKey := by
  obtain ⟨earlier, made, heq, hmade, hsince⟩ := h
  obtain rfl | ⟨since', last, rfl⟩ := List.eq_nil_or_concat since
  · obtain ⟨-, he⟩ := List.append_inj' heq rfl
    obtain rfl := List.singleton_inj.mp he
    exact .inl ⟨rfl, hmade⟩
  · rw [List.concat_eq_append, ← List.cons_append, ← List.append_assoc] at heq
    obtain ⟨rfl, he⟩ := List.append_inj' heq rfl
    obtain rfl := List.singleton_inj.mp he
    rw [List.concat_eq_append] at hsince ⊢
    exact .inr ⟨since', rfl, ⟨earlier, made, rfl, hmade,
      fun e' he' => hsince e' (List.mem_append_left _ he')⟩, hsince _ (by simp)⟩

theorem UploadedSince.snoc (h : UploadedSince log owner identityKey pk)
    (he : ∀ other, Identifies e owner other → other = identityKey) :
    UploadedSince (log ++ [e]) owner identityKey pk := by
  obtain ⟨since, hten, u, hu, hup⟩ := h
  exact ⟨_, hten.snoc he, u, List.mem_append_left _ hu, hup⟩

/-- A prekey that was uploaded since was uploaded under the same identity key. -/
theorem tenure_of_uploadedSince_snoc (h : UploadedSince (log ++ [e]) owner identityKey pk) :
    ∃ since, Tenure log owner identityKey since := by
  obtain ⟨since, hten, u, hu, -⟩ := h
  obtain ⟨rfl, -⟩ | ⟨since', -, hten, -⟩ := tenure_snoc hten
  · cases hu
  · exact ⟨since', hten⟩

def identityOf (db : KeysDb) (owner : Uuid) : Option String :=
  (db.userKeys.lookup owner).map UserKeysRow.identityKey

theorem identityOf_setPrekeyCount (db : KeysDb) (userId : Uuid) (count : Nat → Nat)
    (owner : Uuid) : identityOf (db.setPrekeyCount userId count) owner = identityOf db owner := by
  rw [KeysDb.setPrekeyCount]
  split
  · rfl
  · next row hrow =>
    by_cases h : owner = userId
    · subst h
      simp [identityOf, hrow]
    · simp [identityOf, AList.lookup_insert_ne h]

variable {ω : Choice} {db db' : KeysDb} {c : KeyCmd} {ans : c.Ans}

theorem not_identifies (i : Nat) (h : ∀ identityKey signedPrekey,
    c ≠ .upsertKeys owner identityKey signedPrekey) (identityKey : String) :
    ¬ Identifies ⟨i, c, ans⟩ owner identityKey := by
  rintro ⟨_, signedPrekey, he⟩
  cases he
  exact h identityKey signedPrekey rfl

/-- What a statement does to the identity key of a user. -/
theorem exec_identity (h : db.exec ω c = some (ans, db')) (i : Nat) (owner : Uuid) :
    (∃ identityKey, Identifies ⟨i, c, ans⟩ owner identityKey ∧
      identityOf db' owner = some identityKey) ∨
    ((∀ identityKey, ¬ Identifies ⟨i, c, ans⟩ owner identityKey) ∧
      identityOf db' owner = identityOf db owner) := by
  cases c with
  | upsertKeys userId identityKey signedPrekey =>
    simp only [KeysDb.exec, KeysDb.upsertKeys, Option.some.injEq] at h
    split_ifs at h with hu
    · obtain ⟨rfl, rfl⟩ := Prod.mk.inj h
      by_cases ho : owner = userId
      · subst ho
        exact .inl ⟨identityKey, ⟨i, signedPrekey, rfl⟩, by simp [identityOf]⟩
      · exact .inr ⟨not_identifies i (by simp [Ne.symm ho]),
          by simp [identityOf, AList.lookup_insert_ne ho]⟩
    · obtain ⟨rfl, rfl⟩ := Prod.mk.inj h
      refine .inr ⟨?_, rfl⟩
      rintro _ ⟨_, _, he⟩
      cases he
  | insertPrekeys userId prekeys =>
    refine .inr ⟨not_identifies i (by simp), ?_⟩
    obtain ⟨-, rfl⟩ := Prod.ext_iff.mp (Option.some.inj h)
    obtain heq | heq := db.insertPrekeys_cases userId prekeys <;> rw [heq]
    rfl
  | updatePrekeyCount userId =>
    refine .inr ⟨not_identifies i (by simp), ?_⟩
    obtain ⟨-, rfl⟩ := Prod.ext_iff.mp (Option.some.inj h)
    simp only [KeysDb.updatePrekeyCount]
    split_ifs
    · rfl
    · exact identityOf_setPrekeyCount ..
  | getUserPublicKeys targetUserId =>
    refine .inr ⟨not_identifies i (by simp), ?_⟩
    obtain ⟨-, rfl⟩ := Prod.ext_iff.mp (Option.some.inj h)
    simp only [KeysDb.getUserPublicKeys]
    split
    · rfl
    · exact identityOf_setPrekeyCount ..
  | getPrekeyCount | isBlocked =>
    obtain ⟨-, rfl⟩ := Prod.ext_iff.mp (Option.some.inj h)
    exact .inr ⟨not_identifies i (by simp), rfl⟩

/-- An available row was available before, or the statement uploads it. -/
theorem available_exec (h : db.exec ω c = some (ans, db')) {r : PrekeyRow}
    (hr : r ∈ db'.prekeys.rows) (hc : r.isConsumed = false) (i : Nat) :
    (∃ s ∈ db.prekeys.rows, s.userId = r.userId ∧ s.keyId = r.keyId ∧
      s.publicKey = r.publicKey ∧ s.isConsumed = false) ∨
    Uploads ⟨i, c, ans⟩ r.userId ⟨r.keyId, r.publicKey⟩ := by
  obtain ⟨s, hs, hu, hk, hp⟩ | hup := mem_exec h hr i
  · refine .inl ⟨s, hs, hu, hk, hp, ?_⟩
    by_contra hcon
    rw [Bool.not_eq_false] at hcon
    obtain rfl := PrekeyTable.slot_unique (exec_consumed h hs hcon) hr hu hk
    rw [hc] at hcon
    cases hcon
  · exact .inr hup

/-- The table and the log agree on the current identity keys. -/
def Current (w : KeyWorld) : Prop :=
  ∀ owner identityKey, identityOf w.db owner = some identityKey ↔
    ∃ since, Tenure w.log owner identityKey since

theorem current_empty (users : List Uuid) : Current ⟨.empty users, []⟩ := by
  intro owner identityKey
  simp [identityOf, KeysDb.empty, Tenure]

theorem current_after {w : KeyWorld} (hw : Current w) (h : w.db.exec ω c = some (ans, db'))
    (i : Nat) : Current (w.after i c ans db') := by
  intro owner identityKey
  rw [World.after_db, World.after_log]
  obtain ⟨made, hmade, hid⟩ | ⟨hno, hid⟩ := exec_identity h i owner
  · rw [hid, Option.some.injEq]
    constructor
    · rintro rfl
      exact ⟨[], tenure_self hmade⟩
    · rintro ⟨since, hten⟩
      obtain ⟨-, hmade'⟩ | ⟨_, -, -, honly⟩ := tenure_snoc hten
      · obtain ⟨_, _, he⟩ := hmade
        obtain ⟨_, _, he'⟩ := hmade'
        cases he
        cases he'
        rfl
      · exact honly made hmade
  · rw [hid, hw owner identityKey]
    constructor
    · rintro ⟨since, hten⟩
      exact ⟨_, hten.snoc fun other ho => absurd ho (hno other)⟩
    · rintro ⟨since, hten⟩
      obtain ⟨-, hmade⟩ | ⟨since', -, hten, -⟩ := tenure_snoc hten
      · exact absurd hmade (hno identityKey)
      · exact ⟨since', hten⟩

/-- Every available prekey of a user with keys was uploaded under the current identity key. -/
def AllSince (w : KeyWorld) : Prop :=
  ∀ owner identityKey, identityOf w.db owner = some identityKey →
    ∀ r ∈ w.db.prekeys.rows, r.userId = owner → r.isConsumed = false →
      UploadedSince w.log owner identityKey ⟨r.keyId, r.publicKey⟩

/-- The statement replaces the identity key of `owner`, or sets the first one. -/
def ReplacesIdentity (db : KeysDb) (owner : Uuid) (c : KeyCmd) : Prop :=
  ∃ identityKey signedPrekey, c = .upsertKeys owner identityKey signedPrekey ∧
    owner ∈ db.users ∧ identityOf db owner ≠ some identityKey

theorem identifies_of_replaces (h : db.exec ω c = some (ans, db'))
    (hr : ReplacesIdentity db owner c) (i : Nat) :
    ∃ identityKey, Identifies ⟨i, c, ans⟩ owner identityKey ∧
      identityOf db' owner = some identityKey ∧ identityOf db owner ≠ some identityKey := by
  obtain ⟨identityKey, signedPrekey, rfl, hu, hne⟩ := hr
  simp only [KeysDb.exec, KeysDb.upsertKeys, if_pos hu, Option.some.injEq] at h
  obtain ⟨rfl, rfl⟩ := Prod.mk.inj h
  exact ⟨identityKey, ⟨i, signedPrekey, rfl⟩, by simp [identityOf], hne⟩

theorem identity_unchanged (h : db.exec ω c = some (ans, db'))
    (hr : ¬ ReplacesIdentity db owner c) (i : Nat)
    (hid : identityOf db' owner = some identityKey) :
    identityOf db owner = some identityKey ∧
      ∀ other, Identifies ⟨i, c, ans⟩ owner other → other = identityKey := by
  obtain ⟨made, hmade, hid'⟩ | ⟨hno, hid'⟩ := exec_identity h i owner
  · obtain rfl := Option.some.inj (hid.symm.trans hid')
    obtain ⟨j, signedPrekey, he⟩ := hmade
    cases he
    have hu : owner ∈ db.users := by
      by_contra hu
      simp [KeysDb.exec, KeysDb.upsertKeys, hu] at h
    refine ⟨?_, ?_⟩
    · by_contra hne
      exact hr ⟨identityKey, signedPrekey, rfl, hu, hne⟩
    · rintro other ⟨_, _, he⟩
      cases he
      rfl
  · exact ⟨hid'.symm.trans hid, fun other ho => absurd ho (hno other)⟩

/-- One statement keeps the available prekeys under the current identity keys exactly if it
replaces no identity key over available prekeys. -/
theorem allSince_after_iff {w : KeyWorld} (hw : Current w) (hall : AllSince w)
    (h : w.db.exec ω c = some (ans, db')) (i : Nat) :
    (∀ owner, ReplacesIdentity w.db owner c → ∀ keyId, ¬ Available w.db owner keyId) ↔
      AllSince (w.after i c ans db') := by
  constructor
  · intro hnone owner identityKey hid r hr hu hc
    obtain ⟨s, hs, hsu, hsk, hsp, hsc⟩ | hup := available_exec h hr hc i
    · have hkeep : ¬ ReplacesIdentity w.db owner c := fun hrep =>
        hnone owner hrep s.keyId ⟨s, hs, hsu.trans hu, rfl, hsc⟩
      obtain ⟨hid, honly⟩ := identity_unchanged h hkeep i hid
      have hold := hall owner identityKey hid s hs (hsu.trans hu) hsc
      rw [hsk, hsp] at hold
      exact hold.snoc honly
    · have hkeep : ¬ ReplacesIdentity w.db owner c := by
        rintro ⟨_, _, rfl, -, -⟩
        obtain ⟨_, _, he, -⟩ := hup
        cases he
      obtain ⟨hid, honly⟩ := identity_unchanged h hkeep i hid
      obtain ⟨since, hten⟩ := (hw owner identityKey).mp hid
      exact ⟨_, hten.snoc honly, _, by simp, hu ▸ hup⟩
  · rintro hafter owner hrep keyId ⟨r, hr, hu, -, hc⟩
    obtain ⟨identityKey, hmade, hid, hne⟩ := identifies_of_replaces h hrep i
    have hr' : r ∈ db'.prekeys.rows := by
      obtain ⟨_, _, rfl, -, -⟩ := hrep
      obtain rfl : (w.db.upsertKeys _ _ _).2 = db' := congrArg Prod.snd (Option.some.inj h)
      simpa using hr
    have hten := tenure_of_uploadedSince_snoc (hafter owner identityKey hid r hr' hu hc)
    exact hne ((hw owner identityKey).mpr hten)

/-- When the move replaces an identity key, or sets the first one, the user has no
available prekeys at that moment. -/
def ReplacesClean (c : KeyConfig) : KeyAct → Prop
  | .step i _ => ∀ cmd, c.tasks[i]?.bind (fun t => t.2.next) = some cmd →
      ∀ owner, ReplacesIdentity c.db owner cmd → ∀ keyId, ¬ Available c.db owner keyId
  | _ => True

/-- The statement `get_user_public_keys`, if it were executed now, would return
`identityKey` together with `pk`. -/
def WouldHandOut (db : KeysDb) (locked : List Nat) (owner : Uuid) (identityKey : String)
    (pk : OneTimePrekey) : Prop :=
  ∃ b, (db.getUserPublicKeys locked owner).1 = some b ∧ b.identityKey = identityKey ∧
    b.oneTimePrekey.map (fun key => ⟨b.oneTimePrekeyId.getD 0, key⟩) = some pk

theorem wouldHandOut_iff {locked : List Nat} :
    WouldHandOut db locked owner identityKey pk ↔ identityOf db owner = some identityKey ∧
      ∃ r, db.prekeys.firstAvailable owner locked = some r ∧ pk = ⟨r.keyId, r.publicKey⟩ := by
  have hid : ∀ (db' : KeysDb) (opk : Option PrekeyRow) (f : UserKeysRow → KeyBundleWithOpk),
      (∀ uk, f uk = ⟨uk.identityKey, uk.signedPrekey.key, uk.signedPrekey.id,
        uk.signedPrekey.signature, opk.map PrekeyRow.keyId, opk.map PrekeyRow.publicKey⟩) →
      ((∃ b, (db'.userKeys.lookup owner).map f = some b ∧ b.identityKey = identityKey ∧
          b.oneTimePrekey.map (fun key => (⟨b.oneTimePrekeyId.getD 0, key⟩ : OneTimePrekey)) =
            some pk) ↔
        identityOf db' owner = some identityKey ∧
          ∃ r, opk = some r ∧ pk = ⟨r.keyId, r.publicKey⟩) := by
    intro db' opk f hf
    cases opk <;> cases hl : db'.userKeys.lookup owner <;> simp [identityOf, hl, hf, eq_comm]
  simp only [WouldHandOut, KeysDb.getUserPublicKeys]
  cases hopk : db.prekeys.firstAvailable owner locked with
  | none => exact hid db none _ fun _ => rfl
  | some r =>
    rw [hid _ (some r) _ fun _ => rfl, identityOf_setPrekeyCount]
    rfl

/-- Whatever rows other transactions hold locked, a bundle handed out now is coherent. -/
def AnswersCoherently (c : KeyConfig) : Prop :=
  ∀ locked owner identityKey pk, WouldHandOut c.db locked owner identityKey pk →
    UploadedSince c.log owner identityKey pk

/-- With all others locked, any available row is the first one. -/
theorem firstAvailable_of_available {t : PrekeyTable} {r : PrekeyRow} (hr : r ∈ t.rows)
    (hu : r.userId = owner) (hc : r.isConsumed = false) :
    ∃ locked, t.firstAvailable owner locked = some r := by
  refine ⟨(t.rows.filter (· ≠ r)).map PrekeyRow.id, ?_⟩
  have hids : (t.rows.map PrekeyRow.id).Nodup := List.pairwise_map.mpr (t.sorted.imp Nat.ne_of_lt)
  have hself : r.id ∉ (t.rows.filter (· ≠ r)).map PrekeyRow.id := by
    rw [List.mem_map]
    rintro ⟨s, hs, heq⟩
    obtain ⟨hs, hne⟩ := List.mem_filter.mp hs
    exact of_decide_eq_true hne (List.inj_on_of_nodup_map hids hs hr heq)
  obtain ⟨s, hs⟩ : ∃ s, t.firstAvailable owner ((t.rows.filter (· ≠ r)).map PrekeyRow.id) =
      some s := by
    rw [← Option.isSome_iff_exists, PrekeyTable.firstAvailable, List.find?_isSome]
    exact ⟨r, hr, by simpa [hu, hc] using hself⟩
  rw [hs]
  by_contra hne
  have hmem := (PrekeyTable.firstAvailable_eq_some hs).1
  have hlock := List.find?_some hs
  simp only [decide_eq_true_eq] at hlock
  refine hlock.2.2 (List.mem_map.mpr ⟨s, List.mem_filter.mpr ⟨hmem, ?_⟩, rfl⟩)
  simpa using fun h => hne (congrArg some h)

theorem answersCoherently_iff {cfg : KeyConfig} :
    AnswersCoherently cfg ↔ AllSince cfg.toWorld := by
  constructor
  · intro h owner identityKey hid r hr hu hc
    obtain ⟨locked, hfirst⟩ := firstAvailable_of_available hr hu hc
    exact h locked owner identityKey _ (wouldHandOut_iff.mpr ⟨hid, r, hfirst, rfl⟩)
  · intro h locked owner identityKey pk hout
    obtain ⟨hid, r, hfirst, rfl⟩ := wouldHandOut_iff.mp hout
    obtain ⟨hr, hu, hc, -⟩ := PrekeyTable.firstAvailable_eq_some hfirst
    exact h owner identityKey hid r hr hu hc

theorem step_coherent_iff {crypto : Crypto} {cfg cfg' : KeyConfig} {a : KeyAct}
    (hcur : Current cfg.toWorld) (h : AllSince cfg.toWorld)
    (ha : (keyServer crypto).apply a cfg = some cfg') :
    ReplacesClean cfg a ↔ AllSince cfg'.toWorld := by
  obtain ⟨r, rfl, rfl⟩ | ⟨i, ω, r, cmd, k, ans, s, rfl, ht, he, rfl⟩ | ⟨ω, s, rfl, hs, rfl⟩ :=
    System.apply_cases ha
  · exact iff_of_true trivial h
  · simp only [ReplacesClean, ht, Option.bind_some, Prog.next_call, Option.some.injEq, forall_eq']
    exact allSince_after_iff hcur h he i
  · obtain rfl := Option.some.inj hs
    exact iff_of_true trivial h

theorem current_apply {crypto : Crypto} {cfg cfg' : KeyConfig} {a : KeyAct}
    (hcur : Current cfg.toWorld) (ha : (keyServer crypto).apply a cfg = some cfg') :
    Current cfg'.toWorld := by
  obtain ⟨r, rfl, rfl⟩ | ⟨i, ω, r, cmd, k, ans, s, rfl, ht, he, rfl⟩ | ⟨ω, s, rfl, hs, rfl⟩ :=
    System.apply_cases ha
  · exact hcur
  · exact current_after hcur he i
  · obtain rfl := Option.some.inj hs
    exact hcur

/-- Every bundle in the log is coherent with the events before it. -/
def Coherently (before : List KeyEvent) (e : KeyEvent) : Prop :=
  ∀ i owner b pk, e = ⟨i, .getUserPublicKeys owner, some b⟩ →
    b.oneTimePrekey.map (fun key => ⟨b.oneTimePrekeyId.getD 0, key⟩) = some pk →
    UploadedSince before owner b.identityKey pk

theorem coherent_outline (crypto : Crypto) :
    Outline (keyServer crypto) ReplacesClean
      (fun w => Current w ∧ AllSince w ∧ Backed Coherently w.log) (fun _ _ _ _ => True) where
  spawn _ _ _ := trivial
  step {cfg i ω r cmd k ans s} hc hp ht he := by
    obtain ⟨⟨hcur, hall, hback⟩, -⟩ := hc
    simp only [ReplacesClean, ht, Option.bind_some, Prog.next_call, Option.some.injEq,
      forall_eq'] at hp
    refine ⟨⟨current_after hcur he _, (allSince_after_iff hcur hall he _).mp hp,
      hback.snoc ?_⟩, trivial, fun _ _ _ _ _ => trivial⟩
    rintro j owner b pk heq hpk
    cases heq
    have hout := congrArg Prod.fst (Option.some.inj he)
    exact answersCoherently_iff.mpr hall ω.locked owner _ pk ⟨b, hout, rfl, hpk⟩
  tick hc _ ht := by
    obtain rfl := Option.some.inj ht
    exact ⟨hc.1, fun _ _ _ _ => trivial⟩

/-- The owner and the bundle that task `i` has answered with. -/
def delivered (c : KeyConfig) (i : Nat) : Option (Uuid × KeyBundleResponse) :=
  match c.tasks[i]? with
  | some ((_, .getKeyBundle owner), .ret (.ok ⟨_, _, .keyBundle bundle⟩)) => some (owner, bundle)
  | _ => none

theorem delivered_eq_some {c : KeyConfig} {i : Nat} {bundle : KeyBundleResponse}
    (h : delivered c i = some (owner, bundle)) :
    ∃ viewer status headers, c.tasks[i]? =
      some ((viewer, .getKeyBundle owner), .ret (.ok ⟨status, headers, .keyBundle bundle⟩)) := by
  rw [delivered] at h
  split at h
  · next viewer owner' status headers bundle' ht =>
    cases h
    exact ⟨viewer, status, headers, ht⟩
  · cases h

/-- Every delivered one-time prekey was uploaded by a request of its owner, with its id and
its key, since the upload that made the delivered identity key the current one. -/
def Coherent (c : KeyConfig) : Prop :=
  ∀ i owner bundle pk, delivered c i = some (owner, bundle) → bundle.oneTimePrekey = some pk →
    ∃ before e later since, c.log = before ++ e :: later ∧ e.task = i ∧
      Tenure before owner bundle.identityKey since ∧
      ∃ u ∈ since, Uploads u owner pk ∧
        ∃ req p, c.tasks[u.task]? = some ((owner, req), p) ∧ pk ∈ req.prekeys

theorem coherent_of_backed {crypto : Crypto} {cfg : KeyConfig}
    (hr : (keyServer crypto).Replays cfg) (hback : Backed Coherently cfg.log) : Coherent cfg := by
  intro i owner bundle pk hdel hpk
  obtain ⟨viewer, status, headers, ht⟩ := delivered_eq_some hdel
  obtain ⟨b, hb, hid, hopk⟩ := ran_getKeyBundle (hr.2 i _ _ ht) rfl
  obtain ⟨before, later, heq⟩ := List.append_of_mem (World.mem_history.mp hb)
  obtain ⟨since, hten, u, hu, hup⟩ := hback _ _ _ heq i owner b pk rfl (hopk.symm.trans hpk)
  rw [← hid] at hten
  refine ⟨before, _, later, since, heq, rfl, hten, u, hu, hup, ?_⟩
  obtain ⟨j, prekeys, rfl, hmem⟩ := hup
  have hlog : ⟨j, .insertPrekeys owner prekeys, .ok ()⟩ ∈ cfg.log := by
    obtain ⟨earlier, made, rfl, -, -⟩ := hten
    rw [heq]
    exact List.mem_append_left _ (List.mem_append_right _ (List.mem_cons_of_mem _ hu))
  obtain ⟨⟨userId, req⟩, p, ht', rfl, rfl⟩ := hr.origin (Q := InsertsOwn)
    (fun r => handle_insertsOwn crypto r.1 r.2) hlog
  exact ⟨req, p, ht', hmem⟩

/-- In a run that replaces no identity key over available prekeys every delivered bundle is
coherent, and these are the runs in all of whose states a bundle would be coherent. -/
theorem bundles_coherent (crypto : Crypto) (users : List Uuid) (acts : List KeyAct) :
    ((keyServer crypto).Every ReplacesClean acts (System.start (.empty users)) →
      ∀ c ∈ (keyServer crypto).trace acts (System.start (.empty users)), Coherent c) ∧
    ((keyServer crypto).Every ReplacesClean acts (System.start (.empty users)) ↔
      ∀ c ∈ (keyServer crypto).trace acts (System.start (.empty users)), AnswersCoherently c) := by
  have hstart : AllSince (⟨.empty users, []⟩ : KeyWorld) := by
    intro owner identityKey hid
    simp [identityOf, KeysDb.empty] at hid
  constructor
  · intro hevery c hc
    have hreach := System.reach_of_mem_trace hevery hc
    have hmeets := (coherent_outline crypto).reach
      (Outline.start ⟨current_empty users, hstart, backed_nil _⟩) hreach
    exact coherent_of_backed hreach.replays hmeets.1.2.2
  · simp only [answersCoherently_iff]
    exact System.every_iff_forall (J := fun c => Current c.toWorld)
      (fun hcur ha => current_apply hcur ha) (fun hcur h ha => step_coherent_iff hcur h ha)
      acts (current_empty users) hstart

section Reinstall

def bob : Uuid := .ofNat 1

def alice : Uuid := .ofNat 2

def bytes (n size : Nat) : List UInt8 :=
  (List.range size).map (fun i => UInt8.ofNat (n / 256 ^ (size - 1 - i)))

def firstIdentity : String := "zPTnAEHMWfwl8Quao9lt1mbbTWniCbiHyCfMsaDUphA="

def secondIdentity : String := "rsEKqLebq/MNkgW82pC6hSLOJfhIfk0ne7x+GSEd5RQ="

def firstPrekey : SignedPrekey :=
  ⟨1, "oEdmMRlmXzGjRX/F8EFKPlCRiI6xsr2m7gZvydCveMg=",
    "2+KaZqRj7jJCC3xlj+jnxR8NlMKGWkeBrEDr+vxzUZSPjgxLB4OMRJDXXvJLRUYegppCedE/2FF8T1e8hs4vDA=="⟩

def secondPrekey : SignedPrekey :=
  ⟨1, "oEdmMRlmXzGjRX/F8EFKPlCRiI6xsr2m7gZvydCveMg=",
    "Gt1PKGOcGMJ6GxPYek7alvm1A9iWs3/LRrgPia3O++JVZO/ml7GuGYmIcoqubGxd+ltv6S5Oqeo4CGs+LMqZCw=="⟩

def oldPrekey : OneTimePrekey := ⟨1, "Y09xqiaYY9pCgJ9Wj1G4fieDw5Rfo//AZsYAZ/QWpf0="⟩

def newPrekey : OneTimePrekey := ⟨1, "RUkD7IPPEOdhN/npXXoYE+R9A3hHFE9gOOwAbsIF/BE="⟩

def spkBytes : List UInt8 :=
  bytes 0xa047663119665f31a3457fc5f0414a3e5091888eb1b2bda6ee066fc9d0af78c8 32

/-- The texts of Bob's two uploads with the bytes they stand for. -/
def texts : List (String × List UInt8) :=
  [(firstIdentity, bytes 0xccf4e70041cc59fc25f10b9aa3d96dd666db4d69e209b887c827ccb1a0d4a610 32),
    (secondIdentity, bytes 0xaec10aa8b79babf30d9205bcda90ba8522ce25f8487e4d277bbc7e19211de514 32),
    (firstPrekey.key, spkBytes),
    (firstPrekey.signature,
      bytes 0xdbe29a66a463ee32420b7c658fe8e7c51f0d94c2865a4781ac40ebfafc735194 32 ++
      bytes 0x8f8e0c4b07838c4490d75ef24b45461e829a4279d13fd8517c4f57bc86ce2f0c 32),
    (secondPrekey.signature,
      bytes 0x1add4f28639c18c27a1b13d87a4eda96f9b503d896b37fcb46b80f89adcefbe2 32 ++
      bytes 0x5564efe697b1ae198988728aae6c6c5dfa5b6fe92e4ea9ea38086b3e2cca990b 32),
    (oldPrekey.key, bytes 0x634f71aa269863da42809f568f51b87e2783c3945fa3ffc066c60067f416a5fd 32),
    (newPrekey.key, bytes 0x454903ec83cf10e76137f9e95d7a1813e47d037847144f6038ec006ec205fc11 32)]

/-- What the libraries answer on Bob's uploads, whose signatures are genuine. -/
def bobCrypto : Crypto where
  decode text := (texts.lookup text).elim (.error "Invalid padding") .ok
  Key := List UInt8
  verifyingKey bytes := .ok bytes
  verify key message signature :=
    if (texts.lookup firstIdentity = some key ∧
          texts.lookup firstPrekey.signature = some signature ∨
        texts.lookup secondIdentity = some key ∧
          texts.lookup secondPrekey.signature = some signature) ∧ message = spkBytes then .ok ()
    else .error "signature error: Verification equation was not satisfied"

/-- Bob reinstalls: a new identity key, and a new prekey under an id that is taken. -/
def reinstall : List KeyAct :=
  .spawn (bob, .uploadKeys ⟨firstIdentity, firstPrekey, [oldPrekey]⟩) ::
    List.replicate 4 (.step 0 ⟨[], []⟩) ++
  .spawn (bob, .uploadKeys ⟨secondIdentity, secondPrekey, [newPrekey]⟩) ::
    List.replicate 4 (.step 1 ⟨[], []⟩) ++
  .spawn (alice, .getKeyBundle bob) :: List.replicate 4 (.step 2 ⟨[], []⟩)

def upsertsSecond : KeyCmd → Bool
  | .upsertKeys _ identityKey _ => identityKey = secondIdentity
  | _ => false

def insertsOld : KeyCmd → Bool
  | .insertPrekeys _ prekeys => oldPrekey ∈ prekeys
  | _ => false

/-- Alice gets Bob's new identity key together with the prekey of his old installation. -/
theorem old_prekey_under_new_identity :
    ¬ ∀ c ∈ (keyServer bobCrypto).trace reinstall (System.start (.empty [bob, alice])),
      Coherent c := by
  intro h
  obtain ⟨c, hc, hdel⟩ : ∃ c, ((keyServer bobCrypto).trace reinstall
      (System.start (.empty [bob, alice])))[15]? = some c ∧
        delivered c 2 = some (bob, ⟨secondIdentity, secondPrekey, some oldPrekey⟩) :=
    Option.bind_eq_some_iff.mp (by decide +kernel)
  have horder : ((keyServer bobCrypto).trace reinstall
      (System.start (.empty [bob, alice])))[15]?.all (fun c => (c.log.map Event.cmd).Pairwise
        (fun x y => upsertsSecond x = true → insertsOld y = false)) = true := by decide +kernel
  rw [hc, Option.all_some, decide_eq_true_eq] at horder
  obtain ⟨before, e, later, since, hlog, -, ⟨earlier, made, rfl, ⟨i, spk, rfl⟩, -⟩, u, hu,
    ⟨j, prekeys, rfl, hmem⟩, -⟩ := h c (List.mem_of_getElem? hc) 2 bob _ oldPrekey hdel rfl
  obtain ⟨between, rest, rfl⟩ := List.append_of_mem hu
  rw [hlog] at horder
  simp only [List.map_append, List.map_cons, List.pairwise_append, List.pairwise_cons] at horder
  obtain ⟨⟨-, ⟨hmade, -⟩, -⟩, -⟩ := horder
  have hold := hmade (.insertPrekeys bob prekeys) (by simp) (by simp [upsertsSecond])
  simp [insertsOld, hmem] at hold

end Reinstall

end Mesty.Keys.Coherence
