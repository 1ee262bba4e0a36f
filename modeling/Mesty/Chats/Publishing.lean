import Mesty.Chats.Effects

namespace Mesty.Chats.Publishing

open Mesty.Base.Ids Mesty.Base.Error Mesty.Concurrency.Program
open Mesty.Chats.Entities Mesty.Chats.Repository Mesty.Chats.Store Mesty.Chats.Handlers
open Mesty.Chats.Participants ChatTask
open Mesty.Groups.Handlers (GroupReq publishGroupEvent)

def chatChannel (chatId : Uuid) : String := "chat:" ++ chatId.toString ++ ":events"

/-- The chat for which an event is published, unless it is about a message, whose content
every participant gets on its own. -/
def ChatEvent.chat : ChatEvent → Option Uuid
  | .messagesRead chatId .. | .reaction chatId .. => some chatId
  | .newMessage .. | .messageContent .. => none

/-- What the command publishes for a chat goes to the channel of the chat. -/
def Addressed : StoreCmd → Prop
  | .chat (.publish channel payload) =>
    ∀ chatId, payload.chatId = some chatId → channel = chatChannel chatId
  | .publish channel event => ∀ chatId, ChatEvent.chat event = some chatId →
    channel = chatChannel chatId
  | _ => True

/-- What a request can ask: it publishes on the channel of the chat, and the statements below
are those of its own path and body. -/
def Asked (userId : Uuid) (req : ChatReq) : StoreCmd → Prop
  | .addReaction messageId userId' reaction =>
    userId' = userId ∧ ∃ chatId, req = .addReaction chatId messageId reaction
  | .removeReaction messageId userId' reaction =>
    userId' = userId ∧ ∃ chatId, req = .removeReaction chatId messageId (some reaction)
  | .updateChat chatId .. => ∃ name description avatarUrl,
    req = .updateChat chatId name description avatarUrl
  | .chat (.setInviteLink chatId _) =>
    req = .group (.createInviteLink chatId) ∨ req = .group (.deleteInviteLink chatId)
  | .chat (.rejoin _ userId') => userId' = userId ∧ ∃ slug, req = .group (.joinBySlug slug)
  | c => Addressed c

/-- The same for a command of a group request. -/
abbrev GroupAsked (userId : Uuid) (req : GroupReq) (c : ChatCmd) : Prop :=
  Asked userId (.group req) (.chat c)

section Group

variable {α β : Type} {u : Uuid} {req : GroupReq}

theorem query_asked {c : ChatCmd} {f : c.Ans → ChatTask α} (hc : GroupAsked u req c)
    (hf : ∀ r, (f r).run.Issues (GroupAsked u req)) :
    (query c >>= f).run.Issues (GroupAsked u req) := ⟨hc, hf⟩

theorem okOr_asked {o : Option β} {e : DomainError} :
    (Participants.okOr o e).run.Issues (GroupAsked u req) := by
  cases o <;> trivial

theorem requireRole_asked {userId chatId : Uuid} {e : DomainError}
    {f : ParticipantRole → ChatTask α} (hf : ∀ r, (f r).run.Issues (GroupAsked u req)) :
    (requireRole userId chatId e >>= f).run.Issues (GroupAsked u req) := by
  rw [requireRole, bind_assoc]
  exact query_asked trivial fun _ => okOr_asked.tryBind hf

theorem addParticipant_asked (chatId actorId userId : Uuid) (key : Option String) :
    (addParticipant chatId actorId userId key).run.Issues (GroupAsked u req) := by
  apply requireRole_asked
  intro actorRole
  split_ifs
  · trivial
  refine query_asked trivial fun chatType => ?_
  apply okOr_asked.tryBind
  intro chatType
  split_ifs
  · trivial
  refine query_asked trivial fun isMember => ?_
  cases isMember
  · exact ⟨trivial, fun _ => trivial⟩
  · trivial

theorem removeParticipant_asked (chatId actorId targetId : Uuid) :
    (removeParticipant chatId actorId targetId).run.Issues (GroupAsked u req) := by
  apply requireRole_asked
  intro actorRole
  apply requireRole_asked
  intro targetRole
  split_ifs
  · trivial
  · trivial
  · exact query_asked trivial fun _ => trivial

theorem updateRole_asked (chatId actorId targetId : Uuid) (role : ParticipantRole) :
    (updateParticipantRole chatId actorId targetId role).run.Issues (GroupAsked u req) := by
  apply requireRole_asked
  intro actorRole
  apply requireRole_asked
  intro targetRole
  split_ifs
  · trivial
  · exact ⟨trivial, fun _ => trivial⟩

theorem setInviteLink_asked {chatId : Uuid} (actorId : Uuid) (slug : Option String)
    (hreq : req = .createInviteLink chatId ∨ req = .deleteInviteLink chatId) :
    (setInviteLink chatId actorId slug).run.Issues (GroupAsked u req) := by
  have hstore : ∀ newSlug, (attempt (Prog.cmd (ChatCmd.setInviteLink chatId newSlug)) >>=
      fun _ => (pure (some newSlug) : ChatTask (Option String))).run.Issues (GroupAsked u req) := by
    intro newSlug
    refine ⟨hreq.imp (congrArg _) (congrArg _), fun r => ?_⟩
    cases r <;> trivial
  apply requireRole_asked
  intro actorRole
  split_ifs
  · trivial
  split
  · exact query_asked trivial fun _ => hstore _
  · exact query_asked trivial fun _ => hstore _
  · exact hstore _

theorem joinByInvite_asked (chatId : Uuid) {slug : String} :
    (joinByInvite chatId u).run.Issues (GroupAsked u (.joinBySlug slug)) := by
  refine query_asked trivial fun isMember => ?_
  cases isMember
  · exact ⟨⟨rfl, slug, rfl⟩, fun _ => trivial⟩
  · trivial

theorem transferOwnership_asked (chatId currentOwnerId newOwnerId : Uuid) :
    (transferOwnership chatId currentOwnerId newOwnerId).run.Issues (GroupAsked u req) := by
  apply requireRole_asked
  intro ownerRole
  split_ifs
  · trivial
  · exact requireRole_asked fun _ => ⟨trivial, fun _ => trivial⟩

theorem deleteChat_asked (userId chatId : Uuid) :
    (deleteChat userId chatId).run.Issues (GroupAsked u req) := by
  refine query_asked trivial fun chatType => ?_
  apply okOr_asked.tryBind
  intro chatType
  split_ifs
  · exact ⟨trivial, fun _ => trivial⟩
  refine query_asked trivial fun isOwner => ?_
  cases isOwner <;> exact ⟨trivial, fun _ => trivial⟩

theorem groupEvent_asked {chatId : Uuid} {eventType : String} {extra : List (String × String)}
    {f : Unit → ChatTask α} (hf : (f ()).run.Issues (GroupAsked u req)) :
    (publishGroupEvent chatId eventType extra >>= f).run.Issues (GroupAsked u req) := by
  refine ⟨fun x hx => ?_, fun _ => hf⟩
  obtain rfl := Option.some.inj hx
  rfl

theorem group_asked (userId : Uuid) (req : GroupReq) :
    (Groups.Handlers.handle userId req).run.Issues (GroupAsked userId req) := by
  cases req with
  | createGroup name participantIds =>
    rw [Groups.Handlers.handle, Groups.Handlers.createGroup]
    split_ifs
    · trivial
    have hcreate : (createGroupChat userId (Mesty.Base.Text.trim name) participantIds).run.Issues
        (GroupAsked userId (.createGroup name participantIds)) := by
      refine ⟨trivial, fun r => ?_⟩
      cases r with
      | error e => trivial
      | ok chatId => exact query_asked trivial fun _ => okOr_asked
    exact hcreate.tryBind fun _ => trivial
  | addParticipant chatId newUserId key =>
    rw [Groups.Handlers.handle, Groups.Handlers.addParticipant]
    split_ifs
    · trivial
    apply (addParticipant_asked chatId userId newUserId key).tryBind
    intro participant
    apply groupEvent_asked
    -- the user who was added gets an event that is for no chat
    exact query_asked (by rintro _ ⟨⟩) fun _ => trivial
  | removeParticipant chatId targetId =>
    apply (removeParticipant_asked chatId userId targetId).tryBind
    intro keyRotationRequired
    apply groupEvent_asked
    split_ifs
    · exact groupEvent_asked trivial
    · trivial
  | updateParticipantRole chatId targetId role =>
    apply okOr_asked.tryBind
    intro newRole
    split_ifs
    · trivial
    apply (updateRole_asked chatId userId targetId newRole).tryBind
    exact fun _ => groupEvent_asked trivial
  | createInviteLink chatId =>
    apply (setInviteLink_asked userId none (.inl rfl)).tryBind
    exact fun _ => okOr_asked.tryBind fun _ => trivial
  | deleteInviteLink chatId =>
    exact (setInviteLink_asked userId (some "") (.inr rfl)).tryBind fun _ => trivial
  | joinBySlug slug =>
    refine query_asked trivial fun chat => ?_
    apply okOr_asked.tryBind
    intro chat
    apply (joinByInvite_asked chat.id).tryBind
    exact fun _ => groupEvent_asked trivial
  | transferOwnership chatId newOwnerId =>
    rw [Groups.Handlers.handle, Groups.Handlers.transferOwnership]
    split_ifs
    · trivial
    apply (transferOwnership_asked chatId userId newOwnerId).tryBind
    exact fun _ => groupEvent_asked trivial
  | deleteChat chatId => exact (deleteChat_asked userId chatId).tryBind fun _ => trivial

end Group

theorem addressed_of_asked {userId : Uuid} {req : ChatReq} (c : StoreCmd) (h : Asked userId req c) :
    Addressed c := by
  cases c with
  | addReaction | removeReaction | updateChat => trivial
  | chat c =>
    cases c with
    | setInviteLink | rejoin => trivial
    | _ => exact h
  | _ => exact h

theorem asked_of_announces {userId : Uuid} {req : ChatReq} {m : Messages.ChatMessage} (c : StoreCmd)
    (hc : Effects.Announces m c) : Asked userId req c := by
  cases c with
  | publish channel event =>
    cases event with
    | newMessage | messageContent => rintro chatId ⟨⟩
    | _ => exact absurd hc id
  | getChatParticipants | isOnline | getChatSettings | utcNow | enqueuePush => trivial
  | _ => exact absurd hc id

section Chat

variable {userId chatId : Uuid} {u : Uuid} {req : ChatReq}

theorem verifyParticipant_asked :
    (verifyParticipant userId chatId).run.Issues (Asked u req) := by
  refine ⟨trivial, fun found => ?_⟩
  cases found <;> trivial

theorem verifyMessage_asked {messageId : Uuid} :
    (verifyMessageInChat messageId chatId).run.Issues (Asked u req) := by
  refine ⟨trivial, fun found => ?_⟩
  cases found <;> trivial

theorem okOrStore_asked {β : Type} {o : Option β} {e : DomainError} :
    (StoreTask.okOr o e).run.Issues (Asked u req) := by
  cases o <;> trivial

theorem reactionEvent_asked {messageId : Uuid} {reaction action : String} :
    (publishReactionEvent chatId messageId userId reaction action).run.Issues (Asked u req) := by
  refine ⟨fun x hx => ?_, fun _ => trivial⟩
  obtain rfl := Option.some.inj hx
  rfl

theorem createPrivateChat_asked {participantId : Uuid} :
    (createPrivateChat userId participantId).run.Issues (Asked u req) := by
  rw [createPrivateChat]
  split_ifs
  · trivial
  refine ⟨trivial, fun found => ?_⟩
  cases found with
  | some chatId => exact ⟨trivial, fun chat => okOrStore_asked.tryBind fun _ => trivial⟩
  | none =>
    refine ⟨trivial, fun created => ?_⟩
    cases created with
    | error e => trivial
    | ok chatId => exact ⟨trivial, fun chat => okOrStore_asked.tryBind fun _ => trivial⟩

theorem sendMessage_asked {message : NewMessage} :
    (sendMessage userId chatId message).run.Issues (Asked u req) := by
  refine ⟨trivial, fun allowed => ?_⟩
  cases allowed
  · trivial
  refine ⟨trivial, fun sent => ?_⟩
  cases sent with
  | error e => trivial
  | ok m =>
    exact ((Effects.issues_messageEvent m userId).mono asked_of_announces).tryBind fun _ => trivial

theorem rotateGroupKey_asked {keys : List (Uuid × String)} :
    (rotateGroupKey userId chatId keys).run.Issues (Asked u req) := by
  rw [rotateGroupKey]
  split_ifs
  · trivial
  refine ⟨trivial, fun role => okOrStore_asked.tryBind fun role => ?_⟩
  split_ifs
  · trivial
  refine ⟨trivial, fun _ => ⟨fun x hx => ?_, fun _ => trivial⟩⟩
  obtain rfl := Option.some.inj hx
  rfl

theorem handle_asked (userId : Uuid) (req : ChatReq) :
    (handle userId req).run.Issues (Asked userId req) := by
  cases req with
  | group req =>
    have hgroup : (StoreTask.ofChat (Groups.Handlers.handle userId req).run).Issues
        (Asked userId (.group req)) := Effects.issues_ofChat (group_asked userId req)
    exact hgroup.tryBind fun _ => trivial
  | rotateGroupKey chatId keys => exact rotateGroupKey_asked
  | createPrivateChat participantId => exact createPrivateChat_asked
  | sendMessage chatId message => exact sendMessage_asked
  | markMessagesRead chatId upTo =>
    apply verifyParticipant_asked.tryBind
    refine fun _ => ⟨trivial, fun _ => ⟨fun x hx => ?_, fun _ => trivial⟩⟩
    obtain rfl := Option.some.inj hx
    rfl
  | addReaction chatId messageId reaction =>
    apply verifyParticipant_asked.tryBind
    intro _
    apply verifyMessage_asked.tryBind
    refine fun _ => ⟨⟨rfl, chatId, rfl⟩, fun added => ?_⟩
    cases added with
    | error e => trivial
    | ok added => exact reactionEvent_asked.tryBind fun _ => trivial
  | removeReaction chatId messageId emoji =>
    cases emoji with
    | none => trivial
    | some reaction =>
      apply verifyParticipant_asked.tryBind
      intro _
      apply verifyMessage_asked.tryBind
      refine fun _ => ⟨⟨rfl, chatId, rfl⟩, fun removed => ?_⟩
      cases removed with
      | error e => trivial
      | ok removed =>
        cases removed with
        | false => trivial
        | true => exact reactionEvent_asked.tryBind fun _ => trivial
  | updateChat chatId name description avatarUrl =>
    refine ⟨trivial, fun row => okOrStore_asked.tryBind fun row => ?_⟩
    refine ⟨⟨name, description, avatarUrl, rfl⟩, fun updated => ?_⟩
    cases updated <;> trivial
  | editMessage chatId messageId contentEncrypted contentIv =>
    apply verifyParticipant_asked.tryBind
    refine fun _ => ⟨trivial, fun found => okOrStore_asked.tryBind fun messageChat => ?_⟩
    apply verifyParticipant_asked.tryBind
    intro _
    split_ifs
    · trivial
    refine ⟨trivial, fun edited => ?_⟩
    cases edited <;> trivial
  | deleteMessage chatId messageId =>
    apply verifyParticipant_asked.tryBind
    refine fun _ => ⟨trivial, fun deleted => ?_⟩
    cases deleted <;> trivial
  | updateChatSettings chatId settings =>
    apply verifyParticipant_asked.tryBind
    refine fun _ => ⟨trivial, fun updated => ?_⟩
    cases updated with
    | error e => trivial
    | ok _ => exact ⟨trivial, fun settings => okOrStore_asked.tryBind fun _ => trivial⟩

/-- The events of a chat request that are for a chat go to the channel of the chat. -/
theorem handle_addressed (userId : Uuid) (req : ChatReq) :
    (handle userId req).run.Issues Addressed := (handle_asked userId req).mono addressed_of_asked

end Chat

end Mesty.Chats.Publishing
