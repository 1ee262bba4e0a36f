import Mesty.Chats.Effects
import Mesty.Chats.Erasure

namespace Mesty.Chats.Scope

open Mesty.Base.Ids Mesty.Base.Error Mesty.Concurrency.Program Mesty.Concurrency.Pool
open Mesty.Chats Mesty.Chats.Messages Mesty.Chats.Store Mesty.Chats.Changes
open Mesty.Chats.Handlers (ChatReq Response handle chatServer)
open Mesty.Chats.Effects (wp_ask wp_okOr wp_throw wp_verifyParticipant)
open Mesty.Chats.Erasure (ChatConfig ChatAct alice bob choose)

/-- The chat and the message in the path of a request that changes a message. -/
def target : ChatReq → Option (Uuid × Uuid)
  | .editMessage chatId messageId .. | .deleteMessage chatId messageId => some (chatId, messageId)
  | _ => none

/-- The user takes part in the chat and has sent the message. -/
def Allowed (db : ChatStore) (userId chatId messageId : Uuid) : Prop :=
  (db.activeRow chatId userId).isSome ∧
    ∃ m ∈ db.messages, m.id = messageId ∧ m.senderId = some userId

/-- And the message is one of the chat. -/
def InScope (db : ChatStore) (userId chatId messageId : Uuid) : Prop :=
  (db.activeRow chatId userId).isSome ∧
    ∃ m ∈ db.messages, m.id = messageId ∧ m.chatId = chatId ∧ m.senderId = some userId

/-- The assertion of a request about its result. -/
def Granted (db : ChatStore) (userId chatId messageId : Uuid) (r : Except DomainError Response)
    (_ : ChatStore) : Prop := r.isOk → Allowed db userId chatId messageId

section Granted

variable {db : ChatStore} {userId chatId messageId : Uuid}

theorem granted_error {e : DomainError} {db' : ChatStore} :
    Granted db userId chatId messageId (.error e) db' := fun h => absurd h Bool.false_ne_true

theorem allowed_of_own {chat : Entities.ChatRow} {m : ChatMessage}
    (hchat : db.memberOfLiveChat userId chatId = some chat)
    (hown : db.ownMessage messageId userId = some m) : Allowed db userId chatId messageId := by
  obtain ⟨-, hactive⟩ := Option.filter_eq_some_iff.mp hchat
  obtain ⟨hfind, hsel⟩ := Option.filter_eq_some_iff.mp hown
  obtain ⟨hm, hid⟩ := findMessage_eq_some.mp hfind
  exact ⟨hactive, m, hm, hid, (of_decide_eq_true hsel).1⟩

theorem editMessage_granted {contentEncrypted contentIv : Option String} :
    (Handlers.editMessage userId chatId messageId contentEncrypted contentIv).run.wp ChatStore.exec
      (Granted db userId chatId messageId) db := by
  rw [Handlers.editMessage, wp_verifyParticipant]
  refine ⟨fun _ => granted_error, fun chat hchat => ?_⟩
  rw [wp_ask]
  rintro ω _ _ ⟨⟩
  rw [wp_okOr]
  refine ⟨fun _ => granted_error, fun messageChat hmessageChat => ?_⟩
  obtain ⟨m, hm, rfl⟩ := Option.map_eq_some_iff.mp hmessageChat
  have hallowed := allowed_of_own hchat hm
  rw [wp_verifyParticipant]
  refine ⟨fun _ => granted_error, fun _ _ => ?_⟩
  split_ifs
  · exact granted_error
  · exact Prog.wp_of_forall (fun _ _ _ => hallowed) _

theorem deleteMessage_granted :
    (Handlers.deleteMessage userId chatId messageId).run.wp ChatStore.exec
      (Granted db userId chatId messageId) db := by
  rw [Handlers.deleteMessage, wp_verifyParticipant]
  refine ⟨fun _ => granted_error, fun chat hchat => ?_⟩
  rw [wp_ask]
  intro ω found db' he
  cases hown : db.ownMessage messageId userId with
  | none =>
    simp only [ChatStore.exec, ChatStore.deleteMessage, hown] at he
    cases he
    exact granted_error
  | some m =>
    have hallowed := allowed_of_own hchat hown
    split_ifs
    · exact fun _ => hallowed
    · exact granted_error

theorem handle_granted {req : ChatReq} (hreq : target req = some (chatId, messageId)) :
    (handle userId req).run.wp ChatStore.exec (Granted db userId chatId messageId) db := by
  cases req with
  | editMessage chatId messageId contentEncrypted contentIv =>
    cases hreq
    exact editMessage_granted
  | deleteMessage chatId messageId =>
    cases hreq
    exact deleteMessage_granted
  | _ => cases hreq

/-- Whatever the tables are: what a successful request has changed is a message of the chat in its
path, sent by a user who takes part in it, exactly if the message is one of that chat. -/
theorem changed_in_scope_iff {req : ChatReq} (hreq : target req = some (chatId, messageId))
    {ωs : List StoreChoice} {resp : Response} {db' : ChatStore}
    (h : (handle userId req).run.alone ChatStore.exec ωs db = some (.ok resp, db')) :
    InScope db userId chatId messageId ↔ ∀ m ∈ db.messages, m.id = messageId → m.chatId = chatId := by
  obtain ⟨hactive, m, hm, hid, hsender⟩ := (handle_granted hreq).of_alone h rfl
  constructor
  · rintro ⟨-, m', hm', hid', hchat, -⟩ m'' hm'' hid''
    obtain rfl := List.inj_on_of_nodup_map db.uniqueIds hm'' hm' (hid''.trans hid'.symm)
    exact hchat
  · exact fun hchat => ⟨hactive, m, hm, hid, hchat m hm hid, hsender⟩

end Granted

def carol : Uuid := .ofNat 3

/-- Alice writes to Bob; then she opens a chat with Carol. -/
def twoChats : List ChatAct :=
  [.spawn (alice, .createPrivateChat bob), .step 0 (choose 10), .step 0 (choose 11),
    .spawn (alice, .sendMessage (.ofNat 11) ⟨some "hello", some "iv", "text", none, false, none⟩),
    .step 1 (choose 12), .step 1 (choose 12),
    .spawn (alice, .createPrivateChat carol), .step 2 (choose 13), .step 2 (choose 14)]

def afterwards : ChatConfig := chatServer.run twoChats (System.start (.empty [alice, bob, carol]))

/-- Alice deletes what she wrote to Bob under the path of her chat with Carol. -/
theorem deleted_under_other_chat : ¬ ∀ (users : List Uuid) (d : ChatConfig),
    chatServer.Reach (fun _ _ => True) (System.start (.empty users)) d →
    ∀ userId req chatId messageId, target req = some (chatId, messageId) →
      ∀ ωs resp db', (handle userId req).run.alone ChatStore.exec ωs d.db = some (.ok resp, db') →
        InScope d.db userId chatId messageId := by
  intro h
  obtain ⟨-, m, hm, -, hchat, -⟩ := h _ afterwards (System.reach_run _ _) alice
    (.deleteMessage (.ofNat 14) (.ofNat 12)) _ _ rfl [choose 15, choose 15] _ _ rfl
  obtain rfl := List.mem_singleton.mp hm
  cases hchat

/-- Under its own path. -/
theorem deleted_in_scope :
    InScope afterwards.db alice (.ofNat 11) (.ofNat 12) ↔
      ∀ m ∈ afterwards.db.messages, m.id = .ofNat 12 → m.chatId = .ofNat 11 := by
  have hrun : ((handle alice (.deleteMessage (.ofNat 11) (.ofNat 12))).run.alone ChatStore.exec
      [choose 15, choose 15] afterwards.db).map Prod.fst =
        some (.ok ⟨200, .messageDeleted true⟩) := rfl
  obtain ⟨⟨r, db'⟩, hrun, rfl⟩ := Option.map_eq_some_iff.mp hrun
  exact changed_in_scope_iff rfl hrun

end Mesty.Chats.Scope
