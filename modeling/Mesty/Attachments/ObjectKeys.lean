import Mesty.Attachments.Binding
import Mesty.Refinement.DotSegments

namespace Mesty.Attachments.ObjectKeys

open Mesty.Base.Ids Mesty.Base.Error Mesty.Base.Text
open Mesty.Concurrency.Program Mesty.Concurrency.Pool
open Mesty.Attachments.Repository Mesty.Attachments.Handlers Mesty.Attachments.Binding
open Mesty.Refinement.DotSegments

/-- The folder of an attachment. -/
def folder (chatId attachmentId : Uuid) : String :=
  "attachments/chats/" ++ chatId.toString ++ "/" ++ attachmentId.toString ++ "/"

/-- Without its dot segments, the key is in the folder and has one segment more. -/
def StaysIn (chatId attachmentId : Uuid) (key : String) : Prop :=
  ∃ segment : List Char, segment ≠ [] ∧ '/' ∉ segment ∧
    (removeDotSegments key).toList = (folder chatId attachmentId).toList ++ segment

/-- What is left of the name is a dot segment. -/
def IsDots (fileName : Option String) : Prop :=
  fileName.map trim = some "." ∨ fileName.map trim = some ".."

section Names

variable {fileName : Option String}

def sanitize (c : Char) : Char :=
  if c.isAlphanum ∨ c = '.' ∨ c = '_' ∨ c = '-' then c else '_'

theorem sanitize_ne_slash (c : Char) : sanitize c ≠ '/' := by
  rw [sanitize]
  split_ifs with h
  · rintro rfl
    exact absurd h (by decide)
  · decide

theorem sanitize_eq_dot {c : Char} : sanitize c = '.' ↔ c = '.' := by
  rw [sanitize]
  split_ifs with h
  · exact Iff.rfl
  · constructor
    · intro hunderscore
      exact absurd hunderscore (by decide)
    · rintro rfl
      exact absurd (.inr (.inl rfl)) h

theorem map_sanitize_dots {cs : List Char} (n : Nat) :
    cs.map sanitize = List.replicate n '.' ↔ cs = List.replicate n '.' := by
  simp only [List.eq_replicate_iff, List.length_map, List.forall_mem_map, sanitize_eq_dot]

/-- The name is made of the trimmed one, or it is the default. -/
theorem sanitizeFileName_cases (fileName : Option String) :
    (∃ name, fileName.map trim = some name ∧ name ≠ "" ∧
      (sanitizeFileName fileName).toList = name.toList.map sanitize) ∨
    (∀ name, fileName.map trim = some name → name = "") ∧
      sanitizeFileName fileName = "file.bin" := by
  rw [sanitizeFileName]
  split
  · next name hname =>
    obtain ⟨htrim, hne⟩ := Option.filter_eq_some_iff.mp hname
    exact .inl ⟨name, htrim, of_decide_eq_true hne, String.toList_ofList⟩
  · next hnone =>
    refine .inr ⟨fun name hname => ?_, rfl⟩
    rw [hname] at hnone
    by_contra hne
    simp [hne] at hnone

theorem slash_notMem_sanitizeFileName (fileName : Option String) :
    '/' ∉ (sanitizeFileName fileName).toList := by
  obtain ⟨name, -, -, heq⟩ | ⟨-, heq⟩ := sanitizeFileName_cases fileName
  · rw [heq]
    rintro h
    obtain ⟨c, -, hc⟩ := List.mem_map.mp h
    exact sanitize_ne_slash c hc
  · rw [heq]
    decide

theorem sanitizeFileName_ne_nil (fileName : Option String) :
    (sanitizeFileName fileName).toList ≠ [] := by
  obtain ⟨name, -, hne, heq⟩ | ⟨-, heq⟩ := sanitizeFileName_cases fileName
  · rw [heq]
    exact mt List.map_eq_nil_iff.mp (mt String.toList_eq_nil_iff.mp hne)
  · rw [heq]
    decide

/-- Only dots become dots. -/
theorem sanitizeFileName_eq_dots (fileName : Option String) (n : Nat) :
    (sanitizeFileName fileName).toList = List.replicate (n + 1) '.' ↔
      fileName.map trim = some (String.ofList (List.replicate (n + 1) '.')) := by
  obtain ⟨name, htrim, -, heq⟩ | ⟨hempty, heq⟩ := sanitizeFileName_cases fileName
  · rw [heq, map_sanitize_dots, htrim, Option.some_inj]
    constructor
    · intro h
      rw [← h, String.ofList_toList]
    · rintro rfl
      exact String.toList_ofList
  · rw [heq]
    constructor
    · intro h
      have hmem : 'f' ∈ List.replicate (n + 1) '.' := h ▸ (by decide : 'f' ∈ "file.bin".toList)
      exact absurd (List.eq_of_mem_replicate hmem) (by decide)
    · intro h
      have hnil := congrArg String.toList (hempty _ h)
      rw [String.toList_ofList] at hnil
      cases hnil

end Names

section Keys

variable {chatId chatId' attachmentId attachmentId' : Uuid} {fileName fileName' : Option String}

def attachments : List Char := ['a', 't', 't', 'a', 'c', 'h', 'm', 'e', 'n', 't', 's']

def chats : List Char := ['c', 'h', 'a', 't', 's']

/-- What the folders of a chat begin with. -/
def chatFolder (chatId : Uuid) : List Char :=
  attachments ++ slashed [chats, chatId.toString.toList] ++ ['/']

theorem chats_toList : "attachments/chats/".toList = attachments ++ slashed [chats] ++ ['/'] := by
  decide

/-- Two parts after a prefix, each with a slash behind it. -/
theorem parts_toList (start part part' : String) :
    (start ++ part ++ "/" ++ part' ++ "/").toList =
      start.toList ++ part.toList ++ ['/'] ++ part'.toList ++ ['/'] := by
  simp

theorem folder_toList : (folder chatId attachmentId).toList =
    chatFolder chatId ++ attachmentId.toString.toList ++ ['/'] := by
  have hchat : "attachments/chats/".toList ++ chatId.toString.toList ++ ['/'] =
      chatFolder chatId := by
    rw [chats_toList]
    simp [chatFolder, slashed]
  have hparts := parts_toList "attachments/chats/" chatId.toString attachmentId.toString
  rwa [hchat] at hparts

theorem chatObjectKey_toList : (chatObjectKey chatId attachmentId fileName).toList =
    (folder chatId attachmentId).toList ++ (sanitizeFileName fileName).toList :=
  String.toList_append

theorem chatFolder_length : (chatFolder chatId).length = 55 := by
  simp [chatFolder, slashed, attachments, chats, Uuid.toString_length]

theorem folder_length : (folder chatId attachmentId).toList.length = 92 := by
  rw [folder_toList]
  simp [chatFolder_length, Uuid.toString_length]

theorem plain_toString (id : Uuid) : Plain id.toString.toList where
  slash := id.slash_notMem_toString
  dot h := absurd (id.toString_length.symm.trans (congrArg List.length h)) (by decide)
  dotdot h := absurd (id.toString_length.symm.trans (congrArg List.length h)) (by decide)

theorem plain_attachments : Plain attachments := ⟨by decide, by decide, by decide⟩

theorem plain_chat (chatId : Uuid) : ∀ seg ∈ [chats, chatId.toString.toList], Plain seg := by
  rw [List.forall_mem_cons, List.forall_mem_singleton]
  exact ⟨⟨by decide, by decide, by decide⟩, plain_toString chatId⟩

/-- Two dots leave the folder of the chat, one dot the folder of the attachment. -/
theorem removeDotSegments_chatObjectKey :
    (removeDotSegments (chatObjectKey chatId attachmentId fileName)).toList =
      if fileName.map trim = some ".." then chatFolder chatId
      else if fileName.map trim = some "." then (folder chatId attachmentId).toList
      else (chatObjectKey chatId attachmentId fileName).toList := by
  have hfolders : ∀ seg ∈ [chats, chatId.toString.toList, attachmentId.toString.toList],
      Plain seg := List.forall_mem_append.mpr
    ⟨plain_chat chatId, List.forall_mem_singleton.mpr (plain_toString attachmentId)⟩
  have hkey : (chatObjectKey chatId attachmentId fileName).toList = attachments ++
      slashed [chats, chatId.toString.toList, attachmentId.toString.toList] ++
        '/' :: (sanitizeFileName fileName).toList := by
    rw [chatObjectKey_toList, folder_toList, chatFolder]
    simp [slashed]
  rw [removeDotSegments, String.toList_ofList]
  split_ifs with hdotdot hdot
  · have hname := (sanitizeFileName_eq_dots fileName 1).mpr hdotdot
    rw [hkey, hname]
    exact remove_dotdot plain_attachments (plain_chat chatId) (plain_toString attachmentId)
  · have hname := (sanitizeFileName_eq_dots fileName 0).mpr hdot
    rw [hkey, hname, folder_toList]
    refine (remove_dot plain_attachments hfolders).trans ?_
    simp [chatFolder, slashed, attachments]
  · have hname : Plain (sanitizeFileName fileName).toList :=
      ⟨slash_notMem_sanitizeFileName fileName, mt (sanitizeFileName_eq_dots fileName 0).mp hdot,
        mt (sanitizeFileName_eq_dots fileName 1).mp hdotdot⟩
    have hall := List.forall_mem_append.mpr ⟨hfolders, List.forall_mem_singleton.mpr hname⟩
    have hplain := remove_plain plain_attachments hall
    rw [hkey]
    simpa [slashed, attachments] using hplain

theorem chatFolder_ne (rest : List Char) :
    chatFolder chatId ≠ (folder chatId' attachmentId').toList ++ rest := by
  intro h
  have hlength := congrArg List.length h
  rw [List.length_append, chatFolder_length, folder_length] at hlength
  omega

theorem staysIn_iff :
    StaysIn chatId attachmentId (chatObjectKey chatId attachmentId fileName) ↔ ¬ IsDots fileName := by
  rw [StaysIn, IsDots, removeDotSegments_chatObjectKey]
  split_ifs with hdotdot hdot
  · refine iff_of_false ?_ (not_not_intro (.inr hdotdot))
    rintro ⟨segment, -, -, heq⟩
    exact chatFolder_ne segment heq
  · refine iff_of_false ?_ (not_not_intro (.inl hdot))
    rintro ⟨segment, hne, -, heq⟩
    exact hne (List.self_eq_append_right.mp heq)
  · refine iff_of_true ⟨_, sanitizeFileName_ne_nil fileName, slash_notMem_sanitizeFileName fileName,
      chatObjectKey_toList⟩ (not_or_intro hdot hdotdot)

theorem chatFolder_injective : Function.Injective chatFolder := by
  intro chatId chatId' h
  have hchat : chatId.toString.toList = chatId'.toString.toList := by
    simpa [chatFolder, slashed] using h
  exact Uuid.toString_injective (String.toList_inj.mp hchat)

theorem folder_injective {rest rest' : List Char} (h : (folder chatId attachmentId).toList ++ rest =
      (folder chatId' attachmentId').toList ++ rest') :
    attachmentId = attachmentId' := by
  have hfolder := (List.append_inj h (folder_length.trans folder_length.symm)).1
  rw [folder_toList, folder_toList] at hfolder
  have hparts := List.append_cancel_right hfolder
  have hid := (List.append_inj hparts (chatFolder_length.trans chatFolder_length.symm)).2
  exact Uuid.toString_injective (String.toList_inj.mp hid)

/-- Unless it is of two dots, the name leaves the key in the folder. -/
theorem exists_rest (chatId attachmentId : Uuid) (h : fileName.map trim ≠ some "..") : ∃ rest,
    (removeDotSegments (chatObjectKey chatId attachmentId fileName)).toList =
      (folder chatId attachmentId).toList ++ rest := by
  rw [removeDotSegments_chatObjectKey, if_neg h]
  split_ifs
  · exact ⟨[], (List.append_nil _).symm⟩
  · exact ⟨_, chatObjectKey_toList⟩

theorem coincide_iff (hne : attachmentId ≠ attachmentId') :
    removeDotSegments (chatObjectKey chatId attachmentId fileName) =
        removeDotSegments (chatObjectKey chatId' attachmentId' fileName') ↔
      chatId = chatId' ∧ fileName.map trim = some ".." ∧ fileName'.map trim = some ".." := by
  rw [← String.toList_inj]
  by_cases hdots : fileName.map trim = some ".." <;> by_cases hdots' : fileName'.map trim = some ".."
  · rw [removeDotSegments_chatObjectKey, removeDotSegments_chatObjectKey, if_pos hdots, if_pos hdots',
      chatFolder_injective.eq_iff]
    exact ⟨fun h => ⟨h, hdots, hdots'⟩, fun h => h.1⟩
  · obtain ⟨rest, hrest⟩ := exists_rest chatId' attachmentId' hdots'
    rw [hrest, removeDotSegments_chatObjectKey, if_pos hdots]
    exact ⟨fun h => absurd h (chatFolder_ne rest), fun h => absurd h.2.2 hdots'⟩
  · obtain ⟨rest, hrest⟩ := exists_rest chatId attachmentId hdots
    rw [hrest, removeDotSegments_chatObjectKey, if_pos hdots']
    exact ⟨fun h => absurd h.symm (chatFolder_ne rest), fun h => absurd h.2.1 hdots⟩
  · obtain ⟨rest, hrest⟩ := exists_rest chatId attachmentId hdots
    obtain ⟨rest', hrest'⟩ := exists_rest chatId' attachmentId' hdots'
    rw [hrest, hrest']
    exact ⟨fun h => absurd (folder_injective h) hne, fun h => absurd h.2.1 hdots⟩

end Keys

section Protocol

/-- What is stored for a chat is the drawn id and the key made of it, which has been presigned. -/
def Keyed (h : List AttachmentStep) : AttachmentCmd → Prop
  | .insertPending input => ∀ chatId, input.chatId = some chatId →
      ⟨.newUuid, input.attachmentId⟩ ∈ h ∧
      (∃ url, ⟨.presignPutUrl input.objectKey input.fileType 300, .ok url⟩ ∈ h) ∧
      input.objectKey = chatObjectKey chatId input.attachmentId input.fileName
  | _ => True

variable {h : List AttachmentStep} {userId attachmentId : Uuid} {req : CreateUploadUrlRequest}

theorem buildObjectKey_follows : (buildObjectKey userId attachmentId req).run.Follows Keyed
    (fun h' r => h <+: h' ∧ ∀ key, r = .ok key → ∀ chatId, req.chatId = some chatId →
      key = chatObjectKey chatId attachmentId req.fileName) h := by
  rw [buildObjectKey]
  cases req.chatId with
  | none => exact ⟨List.prefix_refl h, fun _ _ _ hnone => by cases hnone⟩
  | some chatId =>
    refine (follows_ask _ _).mpr ⟨trivial, fun found => (follows_okOr _ _ _).mpr ⟨?_, ?_⟩⟩
    · intro chat _
      refine ⟨List.prefix_append _ _, fun key hkey chatId' hchat => ?_⟩
      cases hkey
      cases hchat
      rfl
    · exact fun _ => ⟨List.prefix_append _ _, fun _ herror => by cases herror⟩

theorem createPendingAttachment_follows {input : NewPendingAttachment}
    (hinput : ∀ h', h <+: h' → Keyed h' (.insertPending input)) :
    (createPendingAttachment input).run.Follows Keyed (fun _ _ => True) h := by
  have hinsert : ∀ h', h <+: h' →
      (AttachmentTask.attempt (Prog.cmd (AttachmentCmd.insertPending input)) :
        AttachmentTask PendingAttachment).run.Follows Keyed (fun _ _ => True) h' :=
    fun h' hle => ⟨hinput h' hle, fun _ => trivial⟩
  rw [createPendingAttachment, Prog.follows_run_bind]
  cases input.chatId with
  | none => exact hinsert h (List.prefix_refl h)
  | some chatId =>
    refine ⟨trivial, fun member => ?_⟩
    cases member with
    | false => trivial
    | true => exact hinsert _ (List.prefix_append _ _)

theorem createUploadUrl_follows (storage : S3StorageService) :
    (createUploadUrl storage userId req).run.Follows Keyed (fun _ _ => True) [] := by
  rw [createUploadUrl, Prog.follows_run_bind]
  cases hvalid : validateFileConstraints req.fileType req.fileSize with
  | error e => trivial
  | ok u =>
    refine (follows_ask _ _).mpr ⟨trivial, fun id => ?_⟩
    rw [Prog.follows_run_bind]
    refine buildObjectKey_follows.mono (fun _ _ hN => hN) fun h' r ⟨hid, hkey⟩ => ?_
    cases r with
    | error e => trivial
    | ok objectKey =>
      dsimp only
      rw [Prog.follows_run_bind]
      refine ⟨trivial, fun url => ?_⟩
      cases url with
      | error e => trivial
      | ok uploadUrl =>
        rw [Prog.follows_ret]
        dsimp only
        rw [Prog.follows_run_bind]
        refine (createPendingAttachment_follows fun h'' hle chatId hchat => ?_).mono
          (fun _ _ hN => hN) fun _ r _ => ?_
        · have hdrawn := hle.subset (List.mem_append_left _ (hid.subset (List.mem_singleton_self _)))
          have hpresigned := hle.subset (List.mem_append_right _ (List.mem_singleton_self _))
          exact ⟨hdrawn, ⟨uploadUrl, hpresigned⟩, hkey objectKey rfl chatId hchat⟩
        · cases r with
          | error e => trivial
          | ok row => exact ⟨trivial, fun _ => trivial⟩

/-- No other request stores a new attachment. -/
theorem handle_keyed (storage : S3StorageService) (req : Uuid × AttachmentReq) :
    (handle storage req.1 req.2).run.Follows Keyed (fun _ _ => True) [] := by
  have hother (hreq : ∀ r, req.2 ≠ .createUploadUrl r) :
      (handle storage req.1 req.2).run.Follows Keyed (fun _ _ => True) [] := by
    refine (handle_binds storage req).mono (fun h c hbinds => ?_) fun _ _ _ => trivial
    cases c with
    | insertPending input =>
      obtain ⟨-, r, hr, -⟩ := hbinds
      exact absurd hr (hreq r)
    | _ => trivial
  obtain ⟨userId, req⟩ := req
  cases req with
  | createUploadUrl req => exact createUploadUrl_follows storage
  | chat req => exact hother (fun _ h => by cases h)
  | confirmAttachment req => exact hother (fun _ h => by cases h)

end Protocol

section Runs

/-- The key of an attachment of a chat is made of its id and the name that came with it. -/
def KeysOf (db : AttachmentStore) : Prop := ∀ id row chatId, db.attachments.lookup id = some row →
  row.chatId = some chatId → row.objectKey = chatObjectKey chatId id row.fileName

theorem keysOf_exec {ω : AttachmentChoice} {cmd : AttachmentCmd} {ans : cmd.Ans}
    {db s : AttachmentStore} {h : List AttachmentStep} (hdb : KeysOf db) (hN : Keyed h cmd)
    (he : AttachmentStore.exec ω cmd db = some (ans, s)) : KeysOf s := by
  intro id row chatId hrow hchat
  obtain hsame | ⟨input, answer, hstep, -, rfl⟩ | ⟨input, chat, old, -, hold, -, -, -, rfl⟩ :=
    exec_cases he
  · exact hdb id row chatId (hsame ▸ hrow) hchat
  · cases hstep
    rw [lookup_withAttachment] at hrow
    split_ifs at hrow with hid
    · subst hid
      obtain rfl := Option.some.inj hrow
      exact (hN chatId hchat).2.2
    · exact hdb id row chatId hrow hchat
  · rw [lookup_withAttachment] at hrow
    split_ifs at hrow with hid
    · subst hid
      obtain rfl := Option.some.inj hrow
      exact hdb _ old chatId hold hchat
    · exact hdb id row chatId hrow hchat

theorem reach_keysOf {storage : S3StorageService} {users : List Uuid} {c : AttachmentConfig}
    (h : (attachmentServer storage).Reach (fun _ _ => True) (System.start (.empty users)) c) :
    KeysOf c.db := by
  refine System.Reach.preserves (J := fun c => KeysOf c.db) (N := fun _ => Keyed)
    (Q := fun _ _ _ => True) (handle_keyed storage) (fun id row chatId hrow => ?_)
    (fun _ _ hdb => hdb) (fun _ hdb _ _ hN he _ => keysOf_exec hdb hN he)
    (fun {c} _ _ hdb _ htick => ?_) h
  · simp [System.start, AttachmentStore.empty] at hrow
  · simp only [attachmentServer, AttachmentStore.tick, Option.map_eq_some_iff] at htick
    obtain ⟨chats, -, rfl⟩ := htick
    exact hdb

end Runs

/-- A key stays in its folder, and apart from the others, unless the name is of one dot or two. -/
theorem stays_in_folder (storage : S3StorageService) (users : List Uuid) (acts : List AttachmentAct) :
    (∀ chatId attachmentId fileName,
      StaysIn chatId attachmentId (chatObjectKey chatId attachmentId fileName) ↔ ¬ IsDots fileName) ∧
    (∀ chatId attachmentId fileName chatId' attachmentId' fileName', attachmentId ≠ attachmentId' →
      (removeDotSegments (chatObjectKey chatId attachmentId fileName) =
          removeDotSegments (chatObjectKey chatId' attachmentId' fileName') ↔
        chatId = chatId' ∧ fileName.map trim = some ".." ∧ fileName'.map trim = some "..")) ∧
    ∀ c ∈ (attachmentServer storage).trace acts (System.start (.empty users)),
      ∀ id row chatId, c.db.attachments.lookup id = some row → row.chatId = some chatId →
        row.objectKey = chatObjectKey chatId id row.fileName := by
  have hevery : (attachmentServer storage).Every (fun _ _ => True) acts
      (System.start (.empty users)) := System.every_of_forall (fun _ _ => trivial) acts _
  refine ⟨fun _ _ _ => staysIn_iff, fun _ _ _ _ _ _ hne => coincide_iff hne, ?_⟩
  exact fun c hc => reach_keysOf (System.reach_of_mem_trace hevery hc)

/-- Two uploads to one chat, each of a file that is called by two dots. -/
theorem two_dots_leave :
    ¬ StaysIn (.ofNat 1) (.ofNat 2) (chatObjectKey (.ofNat 1) (.ofNat 2) (some "..")) ∧
    removeDotSegments (chatObjectKey (.ofNat 1) (.ofNat 2) (some "..")) =
      removeDotSegments (chatObjectKey (.ofNat 1) (.ofNat 3) (some "..")) := by
  have htrim : (some "..").map trim = some ".." := by decide +kernel
  refine ⟨mt staysIn_iff.mp (not_not_intro (.inr htrim)), (coincide_iff ?_).mpr ⟨rfl, htrim, htrim⟩⟩
  decide +kernel

end Mesty.Attachments.ObjectKeys
