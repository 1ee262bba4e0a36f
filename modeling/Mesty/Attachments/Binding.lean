import Mesty.Attachments.Handlers
import Mesty.Chats.Erasure

namespace Mesty.Attachments.Binding

open Mesty.Base.Ids Mesty.Base.Error Mesty.Concurrency.Program Mesty.Concurrency.Pool
open Mesty.Chats.Entities Mesty.Chats.Messages Mesty.Chats.Store
open Mesty.Attachments.Repository Mesty.Attachments.Handlers

abbrev AttachmentStep := (c : AttachmentCmd) × c.Ans

abbrev AttachmentConfig := Config AttachmentCmd AttachmentCmd.Ans AttachmentStore
  (Uuid × AttachmentReq) (Except ApiError Response)

abbrev AttachmentAct := Act (Uuid × AttachmentReq) AttachmentChoice

/-- A pending row is inserted by the request of its uploader for it, and a row is updated by
the confirm request of the user it is compared with, in the chat that its message was read in. -/
def Binds (req : Uuid × AttachmentReq) (h : List AttachmentStep) : AttachmentCmd → Prop
  | .insertPending input => input.uploaderId = req.1 ∧
      ∃ r, req.2 = .createUploadUrl r ∧ input.chatId = r.chatId
  | .updatePending input chatId => req = (input.uploaderId, .confirmAttachment
      ⟨input.attachmentId, input.messageId, input.encryptionKeyEnc, input.encryptionIv⟩) ∧
      ⟨.selectMessageChat input.messageId, some chatId⟩ ∈ h
  | _ => True

section Protocol

variable {α β : Type} {N : List AttachmentStep → AttachmentCmd → Prop}
  {Q : List AttachmentStep → Except DomainError β → Prop} {h : List AttachmentStep}

theorem follows_ask (c : AttachmentCmd) (f : c.Ans → AttachmentTask β) :
    (AttachmentTask.ask c >>= f).run.Follows N Q h ↔
      N h c ∧ ∀ r, (f r).run.Follows N Q (h ++ [⟨c, r⟩]) := Iff.rfl

theorem follows_okOr (o : Option α) (e : DomainError) (f : α → AttachmentTask β) :
    (AttachmentTask.okOr o e >>= f).run.Follows N Q h ↔
      (∀ a, o = some a → (f a).run.Follows N Q h) ∧ (o = none → Q h (.error e)) := by
  cases o with
  | none => exact ⟨fun hQ => ⟨by rintro _ ⟨⟩, fun _ => hQ⟩, fun hQ => hQ.2 rfl⟩
  | some a => exact ⟨fun hf => ⟨by rintro _ ⟨⟩; exact hf, by rintro ⟨⟩⟩, fun hf => hf.1 a rfl⟩

theorem issues_ofStore {P : AttachmentCmd → Prop} (hP : ∀ c, P (.chat c))
    (p : Prog StoreCmd StoreCmd.Ans α) : (AttachmentTask.ofStore p).Issues P := by
  induction p with
  | ret a => trivial
  | call c k ih => exact ⟨hP c, ih⟩

theorem issues_chat {P : AttachmentCmd → Prop} {c : StoreCmd} (hP : ∀ c, P (.chat c)) :
    (AttachmentTask.ask (.chat c)).run.Issues P := ⟨hP c, fun _ => trivial⟩

theorem issues_okOr {P : AttachmentCmd → Prop} {o : Option α} {e : DomainError} :
    (AttachmentTask.okOr o e).run.Issues P := by
  cases o <;> trivial

theorem buildObjectKey_issues {P : AttachmentCmd → Prop} (hP : ∀ c, P (.chat c))
    (userId attachmentId : Uuid) (req : CreateUploadUrlRequest) :
    (buildObjectKey userId attachmentId req).run.Issues P := by
  rw [buildObjectKey]
  cases req.chatId with
  | none => trivial
  | some chatId => exact (issues_chat hP).tryBind fun found => issues_okOr.tryBind fun _ => trivial

theorem ensureUploaderIn_issues {P : AttachmentCmd → Prop} (hP : ∀ c, P (.chat c)) (userId : Uuid)
    (chatId : Option Uuid) : (ensureUploaderIn userId chatId).run.Issues P := by
  cases chatId with
  | none => trivial
  | some chatId =>
    refine (issues_chat hP).tryBind fun member => ?_
    cases member <;> trivial

theorem createUploadUrl_binds (storage : S3StorageService) (userId : Uuid)
    (req : CreateUploadUrlRequest) : (createUploadUrl storage userId req).run.Issues
      (fun c => ∀ h, Binds (userId, .createUploadUrl req) h c) := by
  have hchat : ∀ c h, Binds (userId, .createUploadUrl req) h (.chat c) := fun _ _ => trivial
  have hchecked : (AttachmentTask.attempt (pure (validateFileConstraints req.fileType req.fileSize)) :
      AttachmentTask Unit).run.Issues (fun c => ∀ h, Binds (userId, .createUploadUrl req) h c) := trivial
  refine hchecked.tryBind fun _ => ?_
  refine ⟨fun _ => trivial, fun attachmentId => ?_⟩
  refine (buildObjectKey_issues hchat userId attachmentId req).tryBind fun objectKey => ?_
  refine ⟨fun _ => trivial, fun url => ?_⟩
  cases url with
  | error e => trivial
  | ok uploadUrl =>
    refine Prog.Issues.tryBind ?_ fun _ => ⟨fun _ => trivial, fun _ => trivial⟩
    refine (ensureUploaderIn_issues hchat _ _).tryBind fun _ => ?_
    exact ⟨fun _ => ⟨rfl, req, rfl, rfl⟩, fun _ => trivial⟩

theorem confirmPending_binds {req : Uuid × AttachmentReq} {input : ConfirmAttachmentInput}
    (hreq : req = (input.uploaderId, .confirmAttachment
      ⟨input.attachmentId, input.messageId, input.encryptionKeyEnc, input.encryptionIv⟩)) :
    (confirmPending input).run.Follows (Binds req) (fun _ _ => True) h := by
  rw [confirmPending, follows_ask]
  refine ⟨trivial, fun message => (follows_okOr _ _ _).mpr ⟨fun chatId hchat => ?_, fun _ => trivial⟩⟩
  rw [follows_ask]
  refine ⟨trivial, fun member => (follows_okOr _ _ _).mpr ⟨fun _ _ => ?_, fun _ => trivial⟩⟩
  refine ⟨⟨hreq, ?_⟩, fun updated => ?_⟩
  · simp [hchat]
  · cases updated with
    | error e => trivial
    | ok n =>
      change (if n = 0 then throw _ else pure ()  : AttachmentTask Unit).run.Follows _ _ _
      split_ifs <;> trivial

theorem confirmAttachment_binds (userId : Uuid) (req : ConfirmAttachmentRequest) :
    (confirmAttachment userId req).run.Follows (Binds (userId, .confirmAttachment req))
      (fun _ _ => True) [] := by
  rw [confirmAttachment, follows_ask]
  refine ⟨trivial, fun found => (follows_okOr _ _ _).mpr ⟨fun attachment _ => ?_, fun _ => trivial⟩⟩
  rw [Prog.follows_run_bind]
  refine ⟨trivial, fun head => ?_⟩
  cases head with
  | error e => trivial
  | ok u =>
    rw [Prog.follows_ret]
    dsimp only
    rw [Prog.follows_run_bind]
    refine (confirmPending_binds rfl).mono (fun _ _ hN => hN) fun h' r _ => ?_
    cases r <;> trivial

theorem handle_binds (storage : S3StorageService) (req : Uuid × AttachmentReq) :
    (handle storage req.1 req.2).run.Follows (Binds req) (fun _ _ => True) [] := by
  obtain ⟨userId, req⟩ := req
  cases req with
  | chat req =>
    have hissues : (handleChat userId req).run.Issues
        (fun c => ∀ h, Binds (userId, .chat req) h c) := by
      refine Prog.Issues.tryBind ?_ fun _ => trivial
      exact issues_ofStore (fun _ _ => trivial) _
    exact hissues.follows (fun h c hc => hc h) fun _ _ => trivial
  | createUploadUrl req =>
    exact (createUploadUrl_binds storage userId req).follows (fun h c hc => hc h) fun _ _ => trivial
  | confirmAttachment req => exact confirmAttachment_binds userId req

end Protocol

section Rows

variable {db : AttachmentStore} {now : Timestamp}

/-- The row of an upload that has not been confirmed yet. -/
def pendingRow (now : Timestamp) (input : NewPendingAttachment) : AttachmentRow :=
  ⟨none, some input.uploaderId, input.chatId, input.objectKey, input.fileUrl, input.fileType,
    input.fileSize, input.fileName, none, none, false, none, now⟩

theorem insertPending_cases (db : AttachmentStore) (now : Timestamp) (input : NewPendingAttachment) :
    (∃ e, db.insertPending now input = (.error e, db)) ∨
    ∃ answer, input.attachmentId ∉ db.attachments ∧ db.insertPending now input =
      (.ok answer, db.withAttachment input.attachmentId (pendingRow now input)) := by
  rw [AttachmentStore.insertPending]
  split_ifs with htaken href
  · exact .inl ⟨_, rfl⟩
  · exact .inl ⟨_, rfl⟩
  · exact .inr ⟨_, htaken, rfl⟩

/-- The guarded UPDATE changes a pending row of this uploader in this chat, or nothing. -/
theorem updatePending_cases (db : AttachmentStore) (now : Timestamp) (input : ConfirmAttachmentInput)
    (chatId : Uuid) :
    (∃ r, db.updatePending now input chatId = (r, db)) ∨
    ∃ row, db.attachments.lookup input.attachmentId = some row ∧
      row.uploaderId = some input.uploaderId ∧ row.chatId = some chatId ∧ row.confirmed = false ∧
      db.updatePending now input chatId = (.ok 1, db.withAttachment input.attachmentId
        (AttachmentStore.confirmedRow now input row)) := by
  rw [AttachmentStore.updatePending]
  split
  · exact .inl ⟨_, rfl⟩
  · next row hrow =>
    obtain ⟨hlookup, hmatch⟩ := Option.filter_eq_some_iff.mp hrow
    obtain ⟨huploader, hchat, hpending⟩ := of_decide_eq_true hmatch
    split_ifs
    · exact .inr ⟨row, hlookup, huploader, hchat, hpending, rfl⟩
    · exact .inl ⟨_, rfl⟩

/-- What a step can do to the rows: nothing, or it inserts one, or it confirms one. -/
theorem exec_cases {ω : AttachmentChoice} {cmd : AttachmentCmd} {ans : cmd.Ans} {s : AttachmentStore}
    (he : AttachmentStore.exec ω cmd db = some (ans, s)) :
    s.attachments = db.attachments ∨
    (∃ input answer, (⟨cmd, ans⟩ : AttachmentStep) = ⟨.insertPending input, .ok answer⟩ ∧
      input.attachmentId ∉ db.attachments ∧
      s = db.withAttachment input.attachmentId (pendingRow ω.now input)) ∨
    ∃ input chatId row, (⟨cmd, ans⟩ : AttachmentStep) = ⟨.updatePending input chatId, .ok 1⟩ ∧
      db.attachments.lookup input.attachmentId = some row ∧ row.uploaderId = some input.uploaderId ∧
      row.chatId = some chatId ∧ row.confirmed = false ∧
      s = db.withAttachment input.attachmentId (AttachmentStore.confirmedRow ω.now input row) := by
  cases cmd with
  | insertPending input =>
    have he' : db.insertPending ω.now input = (ans, s) := Option.some.inj he
    obtain ⟨e, heq⟩ | ⟨answer, hfresh, heq⟩ := insertPending_cases db ω.now input
    · obtain ⟨rfl, rfl⟩ := Prod.mk.inj (heq.symm.trans he')
      exact .inl rfl
    · obtain ⟨rfl, rfl⟩ := Prod.mk.inj (heq.symm.trans he')
      exact .inr (.inl ⟨input, answer, rfl, hfresh, rfl⟩)
  | updatePending input chatId =>
    have he' : db.updatePending ω.now input chatId = (ans, s) := Option.some.inj he
    obtain ⟨r, heq⟩ | ⟨row, hrow, huploader, hchat, hpending, heq⟩ :=
      updatePending_cases db ω.now input chatId
    · obtain ⟨rfl, rfl⟩ := Prod.mk.inj (heq.symm.trans he')
      exact .inl rfl
    · obtain ⟨rfl, rfl⟩ := Prod.mk.inj (heq.symm.trans he')
      exact .inr (.inr ⟨input, chatId, row, rfl, hrow, huploader, hchat, hpending, rfl⟩)
  | chat cmd =>
    obtain ⟨⟨_, chats⟩, -, heq⟩ := Option.map_eq_some_iff.mp he
    obtain ⟨-, rfl⟩ := Prod.mk.inj heq
    exact .inl rfl
  | newUuid | presignPutUrl | selectPending | headObject | selectMessageChat | selectMembership =>
    obtain ⟨-, rfl⟩ := Prod.ext_iff.mp (Option.some.inj he)
    exact .inl rfl

theorem lookup_withAttachment (id id' : Uuid) (row : AttachmentRow) :
    (db.withAttachment id row).attachments.lookup id' =
      if id' = id then some row else db.attachments.lookup id' := by
  split_ifs with hid
  · rw [hid]
    exact AList.lookup_insert _
  · exact AList.lookup_insert_ne hid

end Rows

/-- The row was made by a request of its uploader, for this chat. -/
def UploadedBy (c : AttachmentConfig) (id : Uuid) (row : AttachmentRow) : Prop :=
  ∃ i uploader req, row.uploaderId = some uploader ∧
    c.request i = some (uploader, .createUploadUrl req) ∧ row.chatId = req.chatId ∧
    ∃ input answer, ⟨i, .insertPending input, .ok answer⟩ ∈ c.log ∧ input.attachmentId = id

/-- The row was confirmed by a request of its uploader, with what it brought. -/
def ConfirmedBy (c : AttachmentConfig) (id : Uuid) (row : AttachmentRow) : Prop :=
  ∃ i uploader messageId, row.uploaderId = some uploader ∧ row.messageId = some messageId ∧
    c.request i = some (uploader, .confirmAttachment
      ⟨id, messageId, row.encryptionKeyEnc, row.encryptionIv⟩) ∧
    ∃ input chatId, ⟨i, .updatePending input chatId, .ok 1⟩ ∈ c.log ∧ input.attachmentId = id

structure Bound (c : AttachmentConfig) (id : Uuid) (row : AttachmentRow) : Prop where
  confirmed : row.messageId.isSome ↔ row.confirmed = true
  sameChat : ∀ messageId, row.messageId = some messageId →
    ∃ m ∈ c.db.messages, m.id = messageId ∧ row.chatId = some m.chatId
  uploaded : UploadedBy c id row
  confirmer : row.confirmed = true → ConfirmedBy c id row
  unchatted : row.chatId = none → row.confirmed = false

/-- What stays true of a row when the configuration goes on. -/
structure Later (c d : AttachmentConfig) : Prop where
  requests : ∀ e ∈ c.log, ∀ r, c.request e.task = some r → d.request e.task = some r
  log : ∀ e ∈ c.log, e ∈ d.log
  messages : ∀ m ∈ c.db.messages, ∃ m' ∈ d.db.messages, m'.id = m.id ∧ m'.chatId = m.chatId

theorem Bound.later {c d : AttachmentConfig} {id : Uuid} {row : AttachmentRow} (h : Bound c id row)
    (hle : Later c d) : Bound d id row := by
  refine ⟨h.confirmed, fun messageId hm => ?_, ?_, fun hc => ?_, h.unchatted⟩
  · obtain ⟨m, hmem, hid, hchat⟩ := h.sameChat messageId hm
    obtain ⟨m', hmem', hid', hchat'⟩ := hle.messages m hmem
    exact ⟨m', hmem', hid'.trans hid, hchat'.symm ▸ hchat⟩
  · obtain ⟨i, uploader, req, hu, hr, hchat, input, answer, hlog, hid⟩ := h.uploaded
    exact ⟨i, uploader, req, hu, hle.requests _ hlog _ hr, hchat, input, answer, hle.log _ hlog, hid⟩
  · obtain ⟨i, uploader, messageId, hu, hm, hr, input, chatId, hlog, hid⟩ := h.confirmer hc
    exact ⟨i, uploader, messageId, hu, hm, hle.requests _ hlog _ hr, input, chatId, hle.log _ hlog, hid⟩

/-- What every configuration of a run knows. -/
structure Sound (c : AttachmentConfig) : Prop where
  bound : ∀ id row, c.db.attachments.lookup id = some row → Bound c id row
  -- messages stay in their chats, so what a task has read of one is still true
  read : ∀ i messageId chatId, ⟨i, .selectMessageChat messageId, some chatId⟩ ∈ c.log →
    ∃ m ∈ c.db.messages, m.id = messageId ∧ m.chatId = chatId

section Moves

variable {storage : S3StorageService} {c : AttachmentConfig} {i : Nat} {ω : AttachmentChoice}
  {req : Uuid × AttachmentReq} {cmd : AttachmentCmd}
  {k : cmd.Ans → Prog AttachmentCmd AttachmentCmd.Ans (Except ApiError Response)} {ans : cmd.Ans}
  {s : AttachmentStore}

theorem messages_kept (he : AttachmentStore.exec ω cmd c.db = some (ans, s)) {m : ChatMessage}
    (hm : m ∈ c.db.messages) : ∃ m' ∈ s.messages, m'.id = m.id ∧ m'.chatId = m.chatId := by
  cases cmd with
  | chat cmd =>
    obtain ⟨⟨_, chats⟩, hexec, heq⟩ := Option.map_eq_some_iff.mp he
    obtain ⟨-, rfl⟩ := Prod.mk.inj heq
    obtain ⟨m', hm', hid, hchat, -⟩ := (Chats.Erasure.rewrites_of_exec hexec).kept hm
    exact ⟨m', hm', hid, hchat⟩
  | insertPending input =>
    obtain ⟨-, rfl⟩ := Prod.ext_iff.mp (Option.some.inj he)
    obtain ⟨_, heq⟩ | ⟨_, -, heq⟩ := insertPending_cases c.db ω.now input <;>
      exact ⟨m, heq ▸ hm, rfl, rfl⟩
  | updatePending input chatId =>
    obtain ⟨-, rfl⟩ := Prod.ext_iff.mp (Option.some.inj he)
    obtain ⟨_, heq⟩ | ⟨_, -, -, -, -, heq⟩ := updatePending_cases c.db ω.now input chatId <;>
      exact ⟨m, heq ▸ hm, rfl, rfl⟩
  | newUuid | presignPutUrl | selectPending | headObject | selectMessageChat | selectMembership =>
    obtain ⟨-, rfl⟩ := Prod.ext_iff.mp (Option.some.inj he)
    exact ⟨m, hm, rfl, rfl⟩

theorem later_step (ht : c.tasks[i]? = some (req, .call cmd k))
    (he : AttachmentStore.exec ω cmd c.db = some (ans, s)) :
    Later c ⟨c.after i cmd ans s, c.tasks.set i (req, k ans)⟩ where
  requests _ _ _ hr := (Config.request_set ht _ _ _).trans hr
  log _ he := List.mem_append_left _ he
  messages _ hm := messages_kept he hm

theorem later_spawn (hr : (attachmentServer storage).Replays c) (r : Uuid × AttachmentReq) :
    Later c { c with tasks := c.tasks ++ [(r, (attachmentServer storage).handler r)] } where
  requests _ he _ hreq := (Config.request_spawn (hr.1 _ he) _).trans hreq
  log _ he := he
  messages m hm := ⟨m, hm, rfl, rfl⟩

theorem bound_step (hs : Sound c) (ht : c.tasks[i]? = some (req, .call cmd k))
    (hN : Binds req (c.history i) cmd) (he : AttachmentStore.exec ω cmd c.db = some (ans, s))
    {id : Uuid} {row : AttachmentRow} (hrow : s.attachments.lookup id = some row) :
    Bound ⟨c.after i cmd ans s, c.tasks.set i (req, k ans)⟩ id row := by
  have hlater := later_step ht he
  have hrequest : ∀ q : Prog AttachmentCmd AttachmentCmd.Ans (Except ApiError Response),
      Config.request ⟨c.after i cmd ans s, c.tasks.set i (req, q)⟩ i = some req :=
    fun q => (Config.request_set ht _ _ _).trans (Config.request_eq ht)
  obtain hsame | ⟨input, answer, hstep, -, rfl⟩ |
    ⟨input, chatId, old, hstep, hold, huploader, hchat, -, rfl⟩ := exec_cases he
  · exact (hs.bound id row (hsame ▸ hrow)).later hlater
  · cases hstep
    rw [lookup_withAttachment] at hrow
    split_ifs at hrow with hid
    · subst hid
      obtain rfl := Option.some.inj hrow
      obtain ⟨huser, r, hreq, hchat⟩ := hN
      refine ⟨by simp [pendingRow], (fun _ hm => by cases hm), ?_, (fun hc => by cases hc),
        fun _ => rfl⟩
      refine ⟨i, input.uploaderId, r, rfl, ?_, hchat, input, answer, ?_, rfl⟩
      · rw [hrequest, huser, ← hreq]
      · exact List.mem_append_right _ (List.mem_singleton_self _)
    · exact (hs.bound id row hrow).later hlater
  · cases hstep
    rw [lookup_withAttachment] at hrow
    split_ifs at hrow with hid
    · subst hid
      obtain rfl := Option.some.inj hrow
      obtain ⟨rfl, hread⟩ := hN
      obtain ⟨m, hm, hmid, hmchat⟩ := hs.read i _ _ (World.mem_history.mp hread)
      have hbound := (hs.bound _ old hold).later hlater
      refine ⟨by simp [AttachmentStore.confirmedRow], fun messageId hmessage => ?_, hbound.uploaded,
        fun _ => ?_, fun hnone => ?_⟩
      · obtain rfl := Option.some.inj hmessage
        obtain ⟨m', hm', hid', hchat'⟩ := hlater.messages m hm
        exact ⟨m', hm', hid'.trans hmid, by rw [hchat', hmchat]; exact hchat⟩
      · exact ⟨i, input.uploaderId, input.messageId, huploader, rfl, hrequest _, input, chatId,
          List.mem_append_right _ (List.mem_singleton_self _), rfl⟩
      · cases hchat.symm.trans hnone
    · exact (hs.bound id row hrow).later hlater

theorem sound_step (hs : Sound c) (ht : c.tasks[i]? = some (req, .call cmd k))
    (hN : Binds req (c.history i) cmd) (he : AttachmentStore.exec ω cmd c.db = some (ans, s)) :
    Sound ⟨c.after i cmd ans s, c.tasks.set i (req, k ans)⟩ := by
  refine ⟨fun id row hrow => bound_step hs ht hN he hrow, fun j messageId chatId hm => ?_⟩
  have hread : ∃ m ∈ c.db.messages, m.id = messageId ∧ m.chatId = chatId := by
    obtain hm | hm := List.mem_append.mp hm
    · exact hs.read j messageId chatId hm
    · cases List.mem_singleton.mp hm
      obtain ⟨hfound, -⟩ := Prod.mk.inj (Option.some.inj he)
      obtain ⟨m, hlive, hchat⟩ := Option.map_eq_some_iff.mp hfound
      obtain ⟨hmem, hid⟩ := Chats.Changes.findMessage_eq_some.mp (Option.filter_eq_some_iff.mp hlive).1
      exact ⟨m, hmem, hid, hchat⟩
  obtain ⟨m, hmem, hid, hchat⟩ := hread
  obtain ⟨m', hmem', hid', hchat'⟩ := messages_kept he hmem
  exact ⟨m', hmem', hid'.trans hid, hchat'.trans hchat⟩

end Moves

theorem reach_sound {storage : S3StorageService} {users : List Uuid} {c : AttachmentConfig}
    (h : (attachmentServer storage).Reach (fun _ _ => True) (System.start (.empty users)) c) :
    Sound c := by
  refine System.Reach.preserves (N := Binds) (Q := fun _ _ _ => True) (handle_binds storage) ?_
    (fun r hr hs => ⟨fun id row hrow => (hs.bound id row hrow).later (later_spawn hr r), hs.read⟩)
    (fun _ hs _ ht hN he _ => sound_step hs ht hN he) (fun {c} _ _ hs _ htick => ?_) h
  · refine ⟨fun id row hrow => ?_, fun i messageId chatId hm => ?_⟩
    · simp [System.start, AttachmentStore.empty] at hrow
    · cases hm
  · simp only [attachmentServer, AttachmentStore.tick, Option.map_eq_some_iff] at htick
    obtain ⟨chats, hchats, rfl⟩ := htick
    obtain rfl := Option.some.inj hchats
    refine ⟨fun id row hrow => (hs.bound id row hrow).later ?_, hs.read⟩
    exact ⟨fun _ _ _ hr => hr, fun _ he => he, fun m hm => ⟨m, hm, rfl, rfl⟩⟩

/-- A row stays, and once it is confirmed it stays as it is. -/
def AttachmentsKept (a b : AttachmentStore) : Prop :=
  ∀ id row, a.attachments.lookup id = some row → ∃ row', b.attachments.lookup id = some row' ∧
    (row.confirmed = true → row' = row)

theorem AttachmentsKept.trans {a b c : AttachmentStore} (hab : AttachmentsKept a b)
    (hbc : AttachmentsKept b c) : AttachmentsKept a c := by
  intro id row hrow
  obtain ⟨row', hrow', hkept⟩ := hab id row hrow
  obtain ⟨row'', hrow'', hkept'⟩ := hbc id row' hrow'
  refine ⟨row'', hrow'', fun hc => ?_⟩
  have heq := hkept hc
  exact (hkept' (heq ▸ hc)).trans heq

theorem attachmentsKept_exec {ω : AttachmentChoice} {cmd : AttachmentCmd} {ans : cmd.Ans}
    {db s : AttachmentStore} (he : AttachmentStore.exec ω cmd db = some (ans, s)) :
    AttachmentsKept db s := by
  intro id row hrow
  obtain hsame | ⟨input, answer, -, hfresh, rfl⟩ |
    ⟨input, chatId, old, -, hold, -, -, hpending, rfl⟩ := exec_cases he
  · exact ⟨row, hsame ▸ hrow, fun _ => rfl⟩
  · have hne : id ≠ input.attachmentId := by
      rintro rfl
      exact hfresh (AList.lookup_isSome.mp (by rw [hrow]; rfl))
    exact ⟨row, by rw [lookup_withAttachment, if_neg hne, hrow], fun _ => rfl⟩
  · by_cases hid : id = input.attachmentId
    · subst hid
      obtain rfl := Option.some.inj (hrow.symm.trans hold)
      refine ⟨_, by rw [lookup_withAttachment, if_pos rfl], fun hc => ?_⟩
      rw [hpending] at hc
      cases hc
    · exact ⟨row, by rw [lookup_withAttachment, if_neg hid, hrow], fun _ => rfl⟩

theorem attachmentsKept_apply {storage : S3StorageService} {c d : AttachmentConfig}
    {a : AttachmentAct} (ha : (attachmentServer storage).apply a c = some d) :
    AttachmentsKept c.db d.db := by
  obtain ⟨r, rfl, rfl⟩ | ⟨i, ω, r, cmd, k, ans, s, rfl, ht, he, rfl⟩ | ⟨ω, s, rfl, hs, rfl⟩ :=
    System.apply_cases ha
  · exact fun id row hrow => ⟨row, hrow, fun _ => rfl⟩
  · exact attachmentsKept_exec he
  · simp only [attachmentServer, AttachmentStore.tick, Option.map_eq_some_iff] at hs
    obtain ⟨chats, -, rfl⟩ := hs
    exact fun id row hrow => ⟨row, hrow, fun _ => rfl⟩

/-- In every run from an empty database an attachment is bound by its uploader alone, to a
message of its chat, and for good. -/
theorem attachments_bound (storage : S3StorageService) (users : List Uuid)
    (acts : List AttachmentAct) :
    (∀ c ∈ (attachmentServer storage).trace acts (System.start (.empty users)), ∀ id row,
      c.db.attachments.lookup id = some row → Bound c id row) ∧
    ((attachmentServer storage).trace acts (System.start (.empty users))).Pairwise
      (fun a b => AttachmentsKept a.db b.db) := by
  have hevery : (attachmentServer storage).Every (fun _ _ => True) acts
      (System.start (.empty users)) := System.every_of_forall (fun _ _ => trivial) acts _
  constructor
  · exact fun c hc => (reach_sound (System.reach_of_mem_trace hevery hc)).bound
  · exact hevery.pairwise (K := fun a b => AttachmentsKept a.db b.db)
      (fun c id row hrow => ⟨row, hrow, fun _ => rfl⟩)
      fun hcd _ ha => hcd.trans (attachmentsKept_apply ha)

end Mesty.Attachments.Binding
