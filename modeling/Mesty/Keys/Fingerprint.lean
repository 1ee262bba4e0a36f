import Mathlib.Data.Set.Function
import Mathlib.Data.String.Basic
import Mathlib.Data.Sym.Sym2
import Mesty.Base.Encoding
import Mesty.Keys.Validity

namespace Mesty.Keys.Fingerprint

open Mesty.Base.Ids Mesty.Base.Error Mesty.Base.Encoding Mesty.Concurrency.Program
open Mesty.Concurrency.Pool
open Mesty.Keys.Tables Mesty.Keys.Repository Mesty.Keys.Handlers
open Mesty.Keys.Coherence (identityOf exec_identity)
open Mesty.Keys.Validity (decodeSized_ok KeyAct)

/-- The smaller key comes first. -/
def ordered (key1 key2 : String) : String × String :=
  if key1 < key2 then (key1, key2) else (key2, key1)

/-- The bytes that the hasher is given. -/
def hashed (key1 key2 : String) : ByteArray :=
  (ordered key1 key2).1.toUTF8 ++ (ordered key1 key2).2.toUTF8

def computeFingerprint (sha256 : ByteArray → Vector UInt8 32) (key1 key2 : String) :
    String × String × String :=
  let fingerprint := hex (sha256 (hashed key1 key2)).toList
  (String.ofList (fingerprint.take 30 ++ ' ' :: (fingerprint.drop 30).take 30), key1, key2)

structure FingerprintResponse where
  fingerprint : String
  yourKey : String
  theirKey : String
  keyChanged : Option Bool
  changedAt : Option String

/-- The handler with its three SELECTs in one state, and the headers of its response. -/
def getFingerprint (sha256 : ByteArray → Vector UInt8 32) (db : KeysDb) (userId targetUserId : Uuid) :
    Except ApiError (FingerprintResponse × List (String × String)) := do
  match db.userKeys.lookup userId with
  | none => .error (.notFound "your keys not found")
  | some yourKeys =>
    match db.userKeys.lookup targetUserId with
    | none => .error (.notFound "target user keys not found")
    | some theirKeys =>
      let (fingerprint, yourKey, theirKey) :=
        computeFingerprint sha256 yourKeys.identityKey theirKeys.identityKey
      let count := yourKeys.prekeyCount
      return (⟨fingerprint, yourKey, theirKey, none, none⟩,
        if count < 20 then [("x-prekey-count", toString count)] else [])

/-- Some upload with this identity key is accepted. -/
def Accepted (crypto : Crypto) (key : String) : Prop :=
  ∃ req : UploadKeysRequest, req.identityKey = key ∧ verifySignedPrekey crypto req = .ok ()

/-- The decoder takes nothing but the encoding of what it returns. -/
def Canonical (crypto : Crypto) : Prop :=
  ∀ text bytes, crypto.decode text = .ok bytes → text.toList = base64 bytes

/-- The 240 bits that a fingerprint shows. -/
def truncated (sha256 : ByteArray → Vector UInt8 32) (m : ByteArray) : List UInt8 :=
  (sha256 m).toList.take 30

section Pairs

variable {a b c d : String}

theorem ordered_comm : ordered a b = ordered b a := by
  rw [ordered, ordered]
  rcases lt_trichotomy a b with h | rfl | h
  · rw [if_pos h, if_neg h.asymm]
  · rfl
  · rw [if_neg h.asymm, if_pos h]

theorem mk_ordered : s((ordered a b).1, (ordered a b).2) = s(a, b) := by
  rw [ordered]
  split_ifs
  · rfl
  · exact Sym2.eq_swap

theorem hashed_comm : hashed a b = hashed b a := by
  rw [hashed, hashed, ordered_comm]

variable {crypto : Crypto}

theorem Accepted.length (hcanonical : Canonical crypto) (h : Accepted crypto a) :
    a.toList.length = 44 := by
  obtain ⟨req, rfl, hverify⟩ := h
  rw [verifySignedPrekey] at hverify
  cases hdecode : decodeSized crypto req.identityKey 32 "invalid identity_key base64: "
      "identity_key must be 32 bytes" with
  | error e =>
    rw [hdecode] at hverify
    cases hverify
  | ok bytes =>
    obtain ⟨hbytes, hsize⟩ := decodeSized_ok hdecode
    rw [hcanonical _ _ hbytes, length_base64, hsize]

theorem Accepted.ordered (ha : Accepted crypto a) (hb : Accepted crypto b) :
    Accepted crypto (ordered a b).1 ∧ Accepted crypto (Fingerprint.ordered a b).2 := by
  rw [Fingerprint.ordered]
  split_ifs
  · exact ⟨ha, hb⟩
  · exact ⟨hb, ha⟩

/-- Nothing separates the keys, but all have the same length. -/
theorem pair_of_hashed (hcanonical : Canonical crypto) (ha : Accepted crypto a)
    (hb : Accepted crypto b) (hc : Accepted crypto c) (hd : Accepted crypto d)
    (h : hashed a b = hashed c d) : s(a, b) = s(c, d) := by
  have hkeys : (ordered a b).1.toList ++ (ordered a b).2.toList =
      (ordered c d).1.toList ++ (ordered c d).2.toList := by
    rw [← String.toList_append, ← String.toList_append]
    exact congrArg String.toList (String.toByteArray_inj.mp h)
  have hlength : (ordered a b).1.toList.length = (ordered c d).1.toList.length := by
    rw [(ha.ordered hb).1.length hcanonical, (hc.ordered hd).1.length hcanonical]
  obtain ⟨hfirst, hsecond⟩ := List.append_inj hkeys hlength
  rw [← mk_ordered, ← mk_ordered (a := c), String.toList_inj.mp hfirst, String.toList_inj.mp hsecond]

end Pairs

section Uploads

variable {crypto : Crypto}

/-- An identity key is stored after the check of the upload. -/
def StoresAccepted (crypto : Crypto) : KeyCmd → Prop
  | .upsertKeys _ identityKey _ => Accepted crypto identityKey
  | _ => True

theorem respondWithCount_stores (userId : Uuid) :
    (respondWithCount userId).Issues (StoresAccepted crypto) := by
  simp [respondWithCount, StoresAccepted]

theorem addOneTimePrekeys_stores (userId : Uuid) (prekeys : List OneTimePrekey) :
    (KeyTask.addOneTimePrekeys userId prekeys).Issues (StoresAccepted crypto) := by
  simp only [KeyTask.addOneTimePrekeys, Prog.cmd_bind, Prog.issues_call]
  refine ⟨trivial, fun inserted => ?_⟩
  cases inserted <;> simp [StoresAccepted]

theorem uploadKeys_stores (userId : Uuid) (req : UploadKeysRequest) :
    (uploadKeys crypto userId req).Issues (StoresAccepted crypto) := by
  simp only [uploadKeys, Prog.pure_eq, Prog.cmd_bind]
  split
  · trivial
  split
  · trivial
  cases hverify : verifySignedPrekey crypto req with
  | error e => trivial
  | ok u =>
    refine ⟨⟨req, rfl, hverify⟩, fun upserted => ?_⟩
    cases upserted with
    | error e => trivial
    | ok u =>
      dsimp only
      split
      · exact respondWithCount_stores _
      split
      · trivial
      refine (addOneTimePrekeys_stores userId _).bind fun added => ?_
      cases added with
      | error e => trivial
      | ok u => exact respondWithCount_stores _

theorem handle_stores (req : Uuid × KeysReq) :
    ((keyServer crypto).handler req).Issues (StoresAccepted crypto) := by
  obtain ⟨userId, req⟩ := req
  cases req with
  | uploadKeys req => exact uploadKeys_stores userId req
  | uploadPrekeys prekeys =>
    simp only [keyServer, handle, uploadPrekeys, Prog.pure_eq]
    split
    · trivial
    · refine (addOneTimePrekeys_stores userId prekeys).bind fun added => ?_
      cases added with
      | error e => trivial
      | ok u => exact respondWithCount_stores _
  | getKeyBundle targetUserId =>
    simp only [keyServer, handle, getKeyBundle, Prog.pure_eq, Prog.cmd_bind]
    split
    · trivial
    refine ⟨trivial, fun blocked => ?_⟩
    dsimp only
    split
    · trivial
    refine ⟨trivial, fun blockedByTarget => ?_⟩
    dsimp only
    split
    · trivial
    refine ⟨trivial, fun found => ?_⟩
    cases found <;> simp [StoresAccepted]

/-- All identity keys have passed the check. -/
def AllAccepted (crypto : Crypto) (db : KeysDb) : Prop :=
  ∀ owner identityKey, identityOf db owner = some identityKey → Accepted crypto identityKey

theorem allAccepted_exec {db db' : KeysDb} {ω : Choice} {c : KeyCmd} {ans : c.Ans}
    (hdb : AllAccepted crypto db) (hc : StoresAccepted crypto c)
    (he : db.exec ω c = some (ans, db')) : AllAccepted crypto db' := by
  intro owner identityKey hid
  obtain ⟨stored, ⟨i, signedPrekey, hevent⟩, hid'⟩ | ⟨-, hsame⟩ := exec_identity he 0 owner
  · obtain rfl := Option.some.inj (hid'.symm.trans hid)
    cases hevent
    exact hc
  · exact hdb owner identityKey (hsame ▸ hid)

/-- In every run all identity keys are ones that uploads are accepted with. -/
theorem identity_keys_accepted (users : List Uuid) (acts : List KeyAct) :
    AllAccepted crypto ((keyServer crypto).run acts (System.start (.empty users))).db := by
  have houtline : Outline (keyServer crypto) (fun _ _ => True) (fun w => AllAccepted crypto w.db)
      (fun _ _ _ p => p.Issues (StoresAccepted crypto)) :=
    { spawn := fun _ r _ => handle_stores r
      step := fun hc _ ht he => by
        have hissues := hc.2 _ _ _ ht
        exact ⟨allAccepted_exec hc.1 hissues.1 he, hissues.2 _, fun _ _ _ _ hp => hp⟩
      tick := fun hc _ ht => by
        obtain rfl := Option.some.inj ht
        exact ⟨hc.1, fun _ _ _ hp => hp⟩ }
  have hstart : AllAccepted crypto (.empty users) := by
    intro owner identityKey hid
    cases hid
  exact (houtline.reach (Outline.start hstart) (System.reach_run acts _)).1

end Uploads

section Digest

variable {sha256 : ByteArray → Vector UInt8 32} {a b c d : String}

theorem fingerprint_comm :
    (computeFingerprint sha256 a b).1 = (computeFingerprint sha256 b a).1 := by
  rw [computeFingerprint, computeFingerprint, hashed_comm]

/-- A fingerprint is the hex of the truncated digest, with a space in the middle. -/
theorem truncated_of_fingerprint
    (h : (computeFingerprint sha256 a b).1 = (computeFingerprint sha256 c d).1) :
    truncated sha256 (hashed a b) = truncated sha256 (hashed c d) := by
  have hdigits : ∀ m, (hex (sha256 m).toList).length = 64 := by
    intro m
    rw [length_hex, Vector.length_toList]
  have hchars := String.ofList_injective h
  obtain ⟨hleft, hright⟩ := List.append_inj hchars (by simp [hdigits])
  refine hex_injective ?_
  have htake : ∀ m, hex (truncated sha256 m) = (hex (sha256 m).toList).take 30 ++
      ((hex (sha256 m).toList).drop 30).take 30 := by
    intro m
    rw [truncated, ← take_hex, ← List.take_add]
  rw [htake, htake, hleft, (List.cons.inj hright).2]

theorem getFingerprint_comm {db : KeysDb} {userId targetUserId : Uuid} {yours theirs : UserKeysRow}
    (hyours : db.userKeys.lookup userId = some yours)
    (htheirs : db.userKeys.lookup targetUserId = some theirs) :
    ∃ r r' headers headers', getFingerprint sha256 db userId targetUserId = .ok (r, headers) ∧
      getFingerprint sha256 db targetUserId userId = .ok (r', headers') ∧
      r.fingerprint = r'.fingerprint ∧ r.yourKey = r'.theirKey ∧ r.theirKey = r'.yourKey := by
  simp only [getFingerprint, hyours, htheirs]
  exact ⟨_, _, _, _, rfl, rfl, fingerprint_comm, rfl, rfl⟩

end Digest

/-- Both sides see the same fingerprint. The bytes that are hashed determine the pair of two keys that
uploads are accepted with, and so does the fingerprint, as far as the truncated digest
tells the bytes apart. -/
theorem fingerprint_identifies {crypto : Crypto} (hcanonical : Canonical crypto)
    (sha256 : ByteArray → Vector UInt8 32) :
    (∀ a b, (computeFingerprint sha256 a b).1 = (computeFingerprint sha256 b a).1) ∧
    (∀ a b c d, Accepted crypto a → Accepted crypto b → Accepted crypto c → Accepted crypto d →
      hashed a b = hashed c d → s(a, b) = s(c, d)) ∧
    ∀ keys : Set String, (∀ k ∈ keys, Accepted crypto k) →
      Set.InjOn (truncated sha256) {m | ∃ a ∈ keys, ∃ b ∈ keys, hashed a b = m} →
        ∀ a ∈ keys, ∀ b ∈ keys, ∀ c ∈ keys, ∀ d ∈ keys,
          (computeFingerprint sha256 a b).1 = (computeFingerprint sha256 c d).1 →
            s(a, b) = s(c, d) := by
  refine ⟨fun a b => fingerprint_comm, fun a b c d => pair_of_hashed hcanonical, ?_⟩
  intro keys haccepted hinj a ha b hb c hc d hd h
  refine pair_of_hashed hcanonical (haccepted a ha) (haccepted b hb) (haccepted c hc)
    (haccepted d hd) ?_
  exact hinj ⟨a, ha, b, hb, rfl⟩ ⟨c, hc, d, hd, rfl⟩ (truncated_of_fingerprint h)

section Installations

open Coherence (bobCrypto texts bytes firstIdentity secondIdentity firstPrekey secondPrekey)

def digest (n : Nat) : Vector UInt8 32 := Vector.ofFn (fun i => UInt8.ofNat (n / 256 ^ (31 - i.val)))

def number (m : ByteArray) : Nat := m.data.toList.foldl (fun n byte => 256 * n + byte.toNat) 0

/-- SHA-256 of what is hashed for the two identity keys of Bob. -/
def bobSha256 (m : ByteArray) : Vector UInt8 32 :=
  if number m = number (hashed firstIdentity firstIdentity) then
    digest 0xf652b9cc7b3f2d5a1ee7de2a229c2a5741822a6ba8002858d2ad4bcc535771be
  else if number m = number (hashed firstIdentity secondIdentity) then
    digest 0x809167e9822eed5aea4858ac39eaacd713b21bfef1acc207931dee331acabdd4
  else if number m = number (hashed secondIdentity secondIdentity) then
    digest 0x8d7095ca213b4bc4ba634e01d25db2d7e5d5e6c32b22677b168129543f26a059
  else digest 0

theorem bobCrypto_canonical : Canonical bobCrypto := by
  intro text bytes h
  have hencoded : ∀ e ∈ texts, e.1 = String.ofList (base64 e.2) := by decide +kernel
  simp only [bobCrypto] at h
  cases hlookup : texts.lookup text with
  | none =>
    rw [hlookup] at h
    cases h
  | some bytes' =>
    rw [hlookup] at h
    cases h
    obtain ⟨before, after, heq, -⟩ := List.lookup_eq_some_iff.mp hlookup
    have htext : text = String.ofList (base64 bytes) := hencoded (text, bytes) (by simp [heq])
    rw [htext, String.toList_ofList]

/-- The fingerprint of Bob's own two keys is the same on both sides, and that of no other pair of
them. -/
theorem bob_identified : (computeFingerprint bobSha256 secondIdentity firstIdentity).1 =
      (computeFingerprint bobSha256 firstIdentity secondIdentity).1 ∧
    ∀ a ∈ ({firstIdentity, secondIdentity} : Set String),
      ∀ b ∈ ({firstIdentity, secondIdentity} : Set String),
        (computeFingerprint bobSha256 a b).1 =
            (computeFingerprint bobSha256 firstIdentity secondIdentity).1 →
          s(a, b) = s(firstIdentity, secondIdentity) := by
  have haccepted : ∀ k ∈ ({firstIdentity, secondIdentity} : Set String), Accepted bobCrypto k := by
    rintro k (rfl | rfl)
    · exact ⟨⟨firstIdentity, firstPrekey, []⟩, rfl, rfl⟩
    · exact ⟨⟨secondIdentity, secondPrekey, []⟩, rfl, rfl⟩
  have hdistinct : ([hashed firstIdentity firstIdentity, hashed firstIdentity secondIdentity,
      hashed secondIdentity secondIdentity].map (truncated bobSha256)).Nodup := by decide +kernel
  have hmem : ∀ a ∈ ({firstIdentity, secondIdentity} : Set String),
      ∀ b ∈ ({firstIdentity, secondIdentity} : Set String),
        hashed a b ∈ [hashed firstIdentity firstIdentity, hashed firstIdentity secondIdentity,
          hashed secondIdentity secondIdentity] := by
    rintro a (rfl | rfl) b (rfl | rfl)
    · simp
    · simp
    · simp [hashed_comm (a := secondIdentity)]
    · simp
  obtain ⟨hcomm, -, hpair⟩ := fingerprint_identifies bobCrypto_canonical bobSha256
  refine ⟨hcomm secondIdentity firstIdentity, fun a ha b hb => ?_⟩
  refine hpair _ haccepted ?_ a ha b hb firstIdentity (.inl rfl) secondIdentity (.inr rfl)
  rintro _ ⟨a, ha, b, hb, rfl⟩ _ ⟨c, hc, d, hd, rfl⟩
  exact List.inj_on_of_nodup_map hdistinct (hmem a ha b hb) (hmem c hc d hd)

end Installations

end Mesty.Keys.Fingerprint
