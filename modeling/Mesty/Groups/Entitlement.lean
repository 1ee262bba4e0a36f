import Mesty.Chats.Authorship
import Mesty.Chats.ChatRows
import Mesty.Groups.KeyRotation

namespace Mesty.Groups.Entitlement

open Mesty.Base.Ids Mesty.Base.Error Mesty.Base.Text Mesty.Concurrency.Program Mesty.Concurrency.Pool
open Mesty.Concurrency.Visits
open Mesty.Chats Mesty.Chats.Entities Mesty.Chats.Repository Mesty.Chats.Store
open Mesty.Chats.Participants (requireRole okOr notAMember)
open Mesty.Chats.Handlers (ChatReq chatServer)
open Mesty.Chats.Erasure (ChatConfig ChatAct)
open Mesty.Groups.Handlers (GroupReq)
open Mesty.Groups.Effects (roleOf)
open ChatTask

abbrev GroupAsked := List ((c : ChatCmd) × c.Ans)

/-- The task has found the user to be an active member with this role. -/
def Saw (h : GroupAsked) (chatId userId : Uuid) (role : ParticipantRole) : Prop :=
  ⟨.getParticipantRole userId chatId, some role⟩ ∈ h

/-- A group request changes a chat and its members when it has found that it may. -/
def MayAsk (userId : Uuid) (req : GroupReq) (h : GroupAsked) : ChatCmd → Prop
  | .createGroupChat creatorId name participantIds => creatorId = userId ∧
      ∃ given, req = .createGroup given participantIds ∧ name = trim given
  | .upsertParticipant chatId newUserId key addedBy => addedBy = userId ∧
      req = .addParticipant chatId newUserId key ∧ ∃ role, Saw h chatId userId role ∧ .admin ≤ role
  | .rejoin chatId newUserId => newUserId = userId ∧ ∃ slug chat, req = .joinBySlug slug ∧
      chat.id = chatId ∧ ⟨.findChatBySlug slug, some chat⟩ ∈ h
  | .leaveActive chatId targetId => req = .removeParticipant chatId targetId ∧
      ∃ role targetRole, Saw h chatId userId role ∧ Saw h chatId targetId targetRole ∧
        if targetId = userId then role ≠ .owner else targetRole < role
  | .leave chatId leaverId => leaverId = userId ∧ req = .deleteChat chatId
  | .setRole chatId targetId newRole => newRole ≠ .owner ∧
      (∃ text, req = .updateParticipantRole chatId targetId text ∧
        ParticipantRole.fromDbStr text = some newRole) ∧
      ∃ role targetRole, Saw h chatId userId role ∧ Saw h chatId targetId targetRole ∧
        targetRole < role ∧ newRole < role
  | .transferRoles chatId currentOwnerId newOwnerId => currentOwnerId = userId ∧
      newOwnerId ≠ userId ∧ req = .transferOwnership chatId newOwnerId ∧
      Saw h chatId userId .owner ∧ ∃ role, Saw h chatId newOwnerId role
  | .markDeleted chatId => req = .deleteChat chatId ∧ ⟨.isOwner chatId userId, true⟩ ∈ h ∧
      ∃ chatType, ⟨.selectTypeForParticipant userId chatId, some chatType⟩ ∈ h ∧ chatType ≠ .private
  | .setInviteLink chatId _ => (req = .createInviteLink chatId ∨ req = .deleteInviteLink chatId) ∧
      ∃ role, Saw h chatId userId role ∧ .admin ≤ role
  | _ => True

section Protocol

variable {α β : Type} {userId chatId targetId : Uuid} {req : GroupReq} {h : GroupAsked}

abbrev Keeps (userId : Uuid) (req : GroupReq) (h : GroupAsked) (t : ChatTask α) : Prop :=
  t.run.Follows (MayAsk userId req) (fun _ _ => True) h

theorem keeps_bind {x : ChatTask β} {f : β → ChatTask α} (hx : Keeps userId req h x)
    (hf : ∀ h' b, Keeps userId req h' (f b)) : Keeps userId req h (x >>= f) := by
  refine Prog.follows_run_bind.mpr (hx.mono (fun _ _ hN => hN) fun h' r _ => ?_)
  cases r with
  | ok b => exact hf h' b
  | error e => trivial

theorem keeps_okOr {o : Option β} {e : DomainError} {f : β → ChatTask α}
    (hf : ∀ b, o = some b → Keeps userId req h (f b)) : Keeps userId req h (okOr o e >>= f) := by
  cases o with
  | none => trivial
  | some b => exact hf b rfl

theorem keeps_requireRole {e : DomainError} {f : ParticipantRole → ChatTask α}
    (hf : ∀ role, Keeps userId req (h ++ [⟨.getParticipantRole targetId chatId, some role⟩]) (f role)) :
    Keeps userId req h (requireRole targetId chatId e >>= f) := by
  rw [requireRole, bind_assoc]
  refine ⟨trivial, fun found => ?_⟩
  cases found with
  | none => trivial
  | some role => exact hf role

theorem createGroup_keeps {name : String} {participantIds : List Uuid} :
    Keeps userId (.createGroup name participantIds) []
      (Handlers.createGroup userId name participantIds) := by
  rw [Handlers.createGroup]
  split_ifs
  · trivial
  refine keeps_bind ⟨⟨rfl, name, rfl, rfl⟩, fun created => ?_⟩ fun _ _ => trivial
  cases created with
  | error e => trivial
  | ok chatId => exact ⟨trivial, fun found => by cases found <;> trivial⟩

theorem addParticipant_keeps {newUserId : Uuid} {key : Option String} :
    Keeps userId (.addParticipant chatId newUserId key) []
      (Handlers.addParticipant userId chatId newUserId key) := by
  rw [Handlers.addParticipant]
  split_ifs
  · trivial
  refine keeps_bind (keeps_requireRole fun role => ?_)
    fun _ _ => ⟨trivial, fun _ => ⟨trivial, fun _ => trivial⟩⟩
  split_ifs with hrank
  · trivial
  refine ⟨trivial, fun found => keeps_okOr fun chatType _ => ?_⟩
  split_ifs
  · trivial
  refine ⟨trivial, fun member => ?_⟩
  cases member with
  | true => trivial
  | false => exact ⟨⟨rfl, rfl, role, by simp [Saw], le_of_not_gt hrank⟩, fun _ => trivial⟩

theorem removeParticipant_keeps :
    Keeps userId (.removeParticipant chatId targetId) []
      (Handlers.removeParticipant userId chatId targetId) := by
  rw [Handlers.removeParticipant]
  refine keeps_bind (keeps_requireRole fun role => keeps_requireRole fun targetRole => ?_) fun _ rotate => ?_
  · split_ifs with howner hrank
    · trivial
    · trivial
    · refine ⟨⟨rfl, role, targetRole, by simp [Saw], by simp [Saw], ?_⟩, fun _ => trivial⟩
      split_ifs with hself
      · exact fun hrole => howner ⟨hself.symm, hrole⟩
      · exact lt_of_not_ge fun hle => hrank ⟨Ne.symm hself, hle⟩
  · refine ⟨trivial, fun _ => ?_⟩
    cases rotate with
    | true => exact ⟨trivial, fun _ => trivial⟩
    | false => trivial

theorem updateParticipantRole_keeps {text : String} :
    Keeps userId (.updateParticipantRole chatId targetId text) []
      (Handlers.updateParticipantRole userId chatId targetId text) := by
  rw [Handlers.updateParticipantRole]
  refine keeps_okOr fun newRole htext => ?_
  split_ifs with howner
  · trivial
  refine keeps_bind (keeps_requireRole fun role => keeps_requireRole fun targetRole => ?_)
    fun _ _ => ⟨trivial, fun _ => trivial⟩
  split_ifs with hrank
  · trivial
  obtain ⟨htarget, hnew⟩ := not_or.mp hrank
  exact ⟨⟨howner, ⟨text, rfl, htext⟩, role, targetRole, by simp [Saw], by simp [Saw],
    lt_of_not_ge htarget, lt_of_not_ge hnew⟩, fun _ => trivial⟩

theorem setInviteLink_keeps {slug : Option String}
    (hreq : req = .createInviteLink chatId ∨ req = .deleteInviteLink chatId) :
    Keeps userId req [] (Participants.setInviteLink chatId userId slug) := by
  refine keeps_requireRole fun role => ?_
  split_ifs with hrank
  · trivial
  have hstore : ∀ h' newSlug, ⟨.getParticipantRole userId chatId, some role⟩ ∈ h' →
      Keeps userId req h' (do
        attempt (Prog.cmd (ChatCmd.setInviteLink chatId newSlug))
        return some newSlug) := by
    refine fun h' newSlug hsaw => ⟨⟨hreq, role, hsaw, le_of_not_gt hrank⟩, fun stored => ?_⟩
    cases stored <;> trivial
  split
  · exact ⟨trivial, fun sample => hstore _ _ (by simp)⟩
  · exact ⟨trivial, fun sample => hstore _ _ (by simp)⟩
  · exact hstore _ _ (by simp)

theorem joinBySlug_keeps {slug : String} :
    Keeps userId (.joinBySlug slug) [] (Handlers.joinBySlug userId slug) := by
  refine ⟨trivial, fun found => keeps_okOr fun chat hchat => ?_⟩
  refine keeps_bind ⟨trivial, fun member => ?_⟩ fun _ _ => ⟨trivial, fun _ => trivial⟩
  cases member with
  | true => trivial
  | false => exact ⟨⟨rfl, slug, chat, rfl, rfl, by simp [hchat]⟩, fun _ => trivial⟩

theorem transferOwnership_keeps {newOwnerId : Uuid} :
    Keeps userId (.transferOwnership chatId newOwnerId) []
      (Handlers.transferOwnership userId chatId newOwnerId) := by
  rw [Handlers.transferOwnership]
  split_ifs with hself
  · trivial
  refine keeps_bind (keeps_requireRole fun role => ?_) fun _ _ => ⟨trivial, fun _ => trivial⟩
  split_ifs with hrole
  · trivial
  obtain rfl := not_not.mp hrole
  exact keeps_requireRole fun newRole =>
    ⟨⟨rfl, hself, rfl, by simp [Saw], newRole, by simp [Saw]⟩, fun _ => trivial⟩

theorem deleteChat_keeps : Keeps userId (.deleteChat chatId) []
    (Handlers.deleteChat userId chatId) := by
  refine keeps_bind ⟨trivial, fun found => keeps_okOr fun chatType htype => ?_⟩ fun _ _ => trivial
  split_ifs with hprivate
  · exact ⟨⟨rfl, rfl⟩, fun _ => trivial⟩
  · refine ⟨trivial, fun owner => ?_⟩
    cases owner with
    | true => exact ⟨⟨rfl, by simp, chatType, by simp [htype], hprivate⟩, fun _ => trivial⟩
    | false => exact ⟨⟨rfl, rfl⟩, fun _ => trivial⟩

theorem group_keeps (userId : Uuid) (req : GroupReq) : Keeps userId req []
    (Handlers.handle userId req) := by
  cases req with
  | createGroup name participantIds => exact createGroup_keeps
  | addParticipant chatId newUserId key => exact addParticipant_keeps
  | removeParticipant chatId targetId => exact removeParticipant_keeps
  | updateParticipantRole chatId targetId role => exact updateParticipantRole_keeps
  | createInviteLink chatId =>
    exact keeps_bind (setInviteLink_keeps (.inl rfl)) fun _ link => keeps_okOr fun _ _ => trivial
  | deleteInviteLink chatId => exact keeps_bind (setInviteLink_keeps (.inr rfl)) fun _ _ => trivial
  | joinBySlug slug => exact joinBySlug_keeps
  | transferOwnership chatId newOwnerId => exact transferOwnership_keeps
  | deleteChat chatId => exact deleteChat_keeps

end Protocol

abbrev Asked := List ((c : StoreCmd) × c.Ans)

/-- The answers to the statements of the group handlers. -/
def groupAsked (h : Asked) : GroupAsked :=
  h.filterMap (fun e => match e with
    | ⟨.chat c, ans⟩ => some ⟨c, ans⟩
    | _ => none)

/-- The statements of the group handlers that other requests use. -/
def ReadsOnly : ChatCmd → Prop
  | .getChatForUser .. | .getParticipantRole .. | .publish .. => True
  | _ => False

/-- A request writes to chats and participants when it has found that it may. -/
def Entitled (r : Uuid × ChatReq) (h : Asked) : StoreCmd → Prop
  | .chat c => ReadsOnly c ∨ ∃ req, r.2 = .group req ∧ MayAsk r.1 req (groupAsked h) c
  | .createPrivateChat creatorId participantId => r = (creatorId, .createPrivateChat participantId)
  | .rotateKeys chatId keys => r.2 = .rotateGroupKey chatId keys ∧
      ∃ role, ⟨.chat (.getParticipantRole r.1 chatId), some role⟩ ∈ h ∧ .admin ≤ role
  | .updateChat chatId name description avatarUrl => ∃ name' description' avatarUrl' row,
      r.2 = .updateChat chatId name' description' avatarUrl' ∧
      ⟨.selectChat r.1 chatId, some row⟩ ∈ h ∧ name = name'.or row.name ∧
      description = description'.or row.description ∧ avatarUrl = avatarUrl'.or row.avatarUrl
  | _ => True

section Requests

variable {α : Type} {userId chatId : Uuid} {r : Uuid × ChatReq}

theorem mem_of_groupAsked {h : Asked} {c : ChatCmd} {ans : c.Ans} (hmem : ⟨c, ans⟩ ∈ groupAsked h) :
    ⟨.chat c, ans⟩ ∈ h := by
  obtain ⟨⟨cmd, ans'⟩, he, heq⟩ := List.mem_filterMap.mp hmem
  cases cmd with
  | chat c' =>
    obtain rfl := Sigma.mk.inj (Option.some.inj heq) |>.1
    obtain rfl := eq_of_heq (Sigma.mk.inj (Option.some.inj heq)).2
    exact he
  | _ => cases heq

theorem ofChat_follows {p : Prog ChatCmd ChatCmd.Ans α} {req : GroupReq} {h : Asked}
    (hp : p.Follows (MayAsk userId req) (fun _ _ => True) (groupAsked h)) :
    (Handlers.StoreTask.ofChat p).Follows (Entitled (userId, .group req)) (fun _ _ => True) h := by
  induction p generalizing h with
  | ret a => trivial
  | call c k ih =>
    refine ⟨.inr ⟨req, rfl, hp.1⟩, fun ans => ih ans ?_⟩
    have hnext := hp.2 ans
    rwa [groupAsked, List.filterMap_append]

/-- The statements that write to other tables, or to none. -/
def Elsewhere : StoreCmd → Prop
  | .chat c => ReadsOnly c
  | .createPrivateChat .. | .rotateKeys .. | .updateChat .. => False
  | _ => True

theorem entitled_elsewhere (h : Asked) (c : StoreCmd) (hc : Elsewhere c) : Entitled r h c := by
  cases c with
  | chat c => exact .inl hc
  | createPrivateChat | rotateKeys | updateChat => exact absurd hc id
  | _ => trivial

theorem elsewhere_of_announces {m : Messages.ChatMessage} (c : StoreCmd) (hc : Effects.Announces m c) :
    Elsewhere c := by
  cases c with
  | publish | getChatParticipants | isOnline | getChatSettings | utcNow | enqueuePush => trivial
  | _ => exact absurd hc id

theorem okOr_elsewhere {β : Type} {o : Option β} {e : DomainError} :
    (Handlers.StoreTask.okOr o e).run.Issues Elsewhere := by
  cases o <;> trivial

theorem verifyParticipant_elsewhere : (Handlers.verifyParticipant userId chatId).run.Issues Elsewhere := by
  refine ⟨trivial, fun found => ?_⟩
  cases found <;> trivial

theorem verifyMessage_elsewhere {messageId : Uuid} :
    (Handlers.verifyMessageInChat messageId chatId).run.Issues Elsewhere := by
  refine ⟨trivial, fun found => ?_⟩
  cases found <;> trivial

theorem sendMessage_elsewhere {message : NewMessage} :
    (Handlers.sendMessage userId chatId message).run.Issues Elsewhere := by
  refine ⟨trivial, fun allowed => ?_⟩
  cases allowed with
  | false => trivial
  | true =>
    refine ⟨trivial, fun sent => ?_⟩
    cases sent with
    | error e => trivial
    | ok m =>
      exact ((Effects.issues_messageEvent m userId).mono elsewhere_of_announces).tryBind fun _ => trivial

theorem editMessage_elsewhere {messageId : Uuid} {contentEncrypted contentIv : Option String} :
    (Handlers.editMessage userId chatId messageId contentEncrypted contentIv).run.Issues Elsewhere := by
  refine verifyParticipant_elsewhere.tryBind fun _ => ⟨trivial, fun own => ?_⟩
  refine okOr_elsewhere.tryBind fun messageChat => verifyParticipant_elsewhere.tryBind fun _ => ?_
  split_ifs
  · trivial
  · refine ⟨trivial, fun edited => ?_⟩
    cases edited <;> trivial

theorem createPrivateChat_entitled {participantId : Uuid} :
    (Handlers.createPrivateChat userId participantId).run.Issues
      (fun c => ∀ h, Entitled (userId, .createPrivateChat participantId) h c) := by
  have hread : ∀ {newId : Uuid}, (do
      let chat ← Handlers.StoreTask.okOr
        (← Handlers.StoreTask.ask (.chat (.getChatForUser userId newId)))
        (.notFound "chat not found")
      return ⟨201, .chat (Handlers.chatToResponse chat)⟩ : Chats.Handlers.StoreTask
        Chats.Handlers.Response).run.Issues
      (fun c => ∀ h, Entitled (userId, .createPrivateChat participantId) h c) :=
    ⟨fun _ => .inl trivial, fun found => by cases found <;> trivial⟩
  rw [Handlers.createPrivateChat]
  split_ifs
  · trivial
  refine ⟨fun _ => trivial, fun found => ?_⟩
  cases found with
  | some newId => exact hread
  | none =>
    refine ⟨fun _ => rfl, fun created => ?_⟩
    cases created with
    | error e => trivial
    | ok newId => exact hread

theorem updateChat_entitled {name description avatarUrl : Option String} :
    (Handlers.updateChat userId chatId name description avatarUrl).run.Follows
      (Entitled (userId, .updateChat chatId name description avatarUrl)) (fun _ _ => True) [] := by
  refine ⟨trivial, fun found => ?_⟩
  cases found with
  | none => trivial
  | some row =>
    refine ⟨⟨name, description, avatarUrl, row, rfl, by simp, rfl, rfl, rfl⟩, fun updated => ?_⟩
    cases updated <;> trivial

theorem rotateGroupKey_entitled {keys : List (Uuid × String)} :
    (Handlers.rotateGroupKey userId chatId keys).run.Follows
      (Entitled (userId, .rotateGroupKey chatId keys)) (fun _ _ => True) [] := by
  rw [Handlers.rotateGroupKey]
  split_ifs
  · trivial
  refine ⟨.inl trivial, fun found => ?_⟩
  cases found with
  | none => trivial
  | some role =>
    refine Prog.follows_run_bind.mpr ?_
    change Prog.Follows _ _ (ExceptT.run (if _ then _ else _)) _
    split_ifs with hrank
    · trivial
    · exact ⟨⟨rfl, role, by simp, le_of_not_gt hrank⟩, fun _ => ⟨.inl trivial, fun _ => trivial⟩⟩

theorem handle_entitled (r : Uuid × ChatReq) :
    (chatServer.handler r).Follows (Entitled r) (fun _ _ => True) [] := by
  obtain ⟨userId, req⟩ := r
  have helsewhere : (Chats.Handlers.handle userId req).run.Issues Elsewhere →
      (chatServer.handler (userId, req)).Follows (Entitled (userId, req)) (fun _ _ => True) [] :=
    fun h => h.follows entitled_elsewhere fun _ _ => trivial
  cases req with
  | group req =>
    refine Prog.follows_run_bind.mpr
      ((ofChat_follows (group_keeps userId req)).mono (fun _ _ hN => hN) ?_)
    intro h out _
    cases out <;> trivial
  | rotateGroupKey chatId keys => exact rotateGroupKey_entitled
  | createPrivateChat participantId =>
    exact createPrivateChat_entitled.follows (fun h _ hc => hc h) fun _ _ => trivial
  | sendMessage chatId message => exact helsewhere sendMessage_elsewhere
  | markMessagesRead chatId upTo =>
    exact helsewhere (verifyParticipant_elsewhere.tryBind fun _ =>
      ⟨trivial, fun _ => ⟨trivial, fun _ => trivial⟩⟩)
  | addReaction chatId messageId reaction =>
    refine helsewhere (verifyParticipant_elsewhere.tryBind fun _ => verifyMessage_elsewhere.tryBind fun _ => ?_)
    refine ⟨trivial, fun added => ?_⟩
    cases added with
    | error e => trivial
    | ok added => exact ⟨trivial, fun _ => trivial⟩
  | removeReaction chatId messageId emoji =>
    refine helsewhere (okOr_elsewhere.tryBind fun reaction =>
      verifyParticipant_elsewhere.tryBind fun _ => verifyMessage_elsewhere.tryBind fun _ => ?_)
    refine ⟨trivial, fun removed => ?_⟩
    cases removed with
    | error e => trivial
    | ok removed =>
      cases removed with
      | false => trivial
      | true => exact ⟨trivial, fun _ => trivial⟩
  | updateChat chatId name description avatarUrl => exact updateChat_entitled
  | editMessage chatId messageId contentEncrypted contentIv => exact helsewhere editMessage_elsewhere
  | deleteMessage chatId messageId =>
    refine helsewhere (verifyParticipant_elsewhere.tryBind fun _ => ⟨trivial, fun deleted => ?_⟩)
    cases deleted <;> trivial
  | updateChatSettings chatId settings =>
    refine helsewhere (verifyParticipant_elsewhere.tryBind fun _ => ⟨trivial, fun updated => ?_⟩)
    cases updated with
    | error e => trivial
    | ok _ => exact ⟨trivial, fun settings => okOr_elsewhere.tryBind fun _ => trivial⟩

end Requests

/-- How a request may come to write a row of `chat_participants`; `At` is what was so at some moment
while it was served. -/
inductive MemberChange (At : (ChatStore → Prop) → Prop) (r : Uuid × ChatReq) (db : ChatStore)
    (chatId userId : Uuid) : ParticipantRow → Prop where
  | created {name participantIds now} (hreq : r = (userId, .group (.createGroup name participantIds)))
    (hfresh : chatId ∉ db.chats) :
    MemberChange At r db chatId userId ⟨.owner, none, some userId, now, none⟩
  | invited {name participantIds now} (hreq : r.2 = .group (.createGroup name participantIds))
    (hmem : userId ∈ participantIds) (hother : userId ≠ r.1) (hfresh : chatId ∉ db.chats) :
    MemberChange At r db chatId userId ⟨.member, none, some r.1, now, none⟩
  | paired {participantId now} (hreq : r.2 = .createPrivateChat participantId)
    (huser : userId = r.1 ∨ userId = participantId) (hfresh : chatId ∉ db.chats) :
    MemberChange At r db chatId userId ⟨.member, none, some r.1, now, none⟩
  | added {key role now} (hreq : r.2 = .group (.addParticipant chatId userId key))
    (hactor : At (fun db => roleOf db.toChatsDb chatId r.1 = some role)) (hrank : .admin ≤ role) :
    MemberChange At r db chatId userId ⟨.member, key, some r.1, now, none⟩
  | joined {slug now} (hreq : r = (userId, .group (.joinBySlug slug)))
    (hlink : At (fun db => ∃ row, db.liveChat chatId = some row ∧ row.inviteLink = some slug)) :
    MemberChange At r db chatId userId ((db.participant chatId userId).elim
      ⟨.member, none, none, now, none⟩
      (fun row => { row with leftAt := none, role := .member, joinedAt := now }))
  | removed {row role targetRole now} (hrow : db.participant chatId userId = some row)
    (hreq : r.2 = .group (.removeParticipant chatId userId))
    (hactor : At (fun db => roleOf db.toChatsDb chatId r.1 = some role))
    (htarget : At (fun db => roleOf db.toChatsDb chatId userId = some targetRole))
    (hrank : if userId = r.1 then role ≠ .owner else targetRole < role) :
    MemberChange At r db chatId userId { row with leftAt := row.leftAt.or (some now) }
  | left {row now} (hrow : db.participant chatId userId = some row)
    (hreq : r = (userId, .group (.deleteChat chatId))) :
    MemberChange At r db chatId userId { row with leftAt := some now }
  | ranked {row text newRole role targetRole} (hrow : db.participant chatId userId = some row)
    (hactive : row.leftAt = none) (hreq : r.2 = .group (.updateParticipantRole chatId userId text))
    (htext : ParticipantRole.fromDbStr text = some newRole)
    (hactor : At (fun db => roleOf db.toChatsDb chatId r.1 = some role))
    (htarget : At (fun db => roleOf db.toChatsDb chatId userId = some targetRole))
    (hrank : targetRole < role ∧ newRole < role) :
    MemberChange At r db chatId userId { row with role := newRole }
  | handedOver {row newOwnerId} (hrow : db.participant chatId userId = some row)
    (hreq : r = (userId, .group (.transferOwnership chatId newOwnerId)))
    (hactor : At (fun db => roleOf db.toChatsDb chatId userId = some .owner)) :
    MemberChange At r db chatId userId { row with role := .admin }
  | promoted {row role} (hrow : db.participant chatId userId = some row)
    (hreq : r.2 = .group (.transferOwnership chatId userId))
    (hactor : At (fun db => roleOf db.toChatsDb chatId r.1 = some .owner))
    (htarget : At (fun db => roleOf db.toChatsDb chatId userId = some role)) :
    MemberChange At r db chatId userId { row with role := .owner }
  | rekeyed {row keys key role} (hrow : db.participant chatId userId = some row)
    (hactive : row.leftAt = none) (hreq : r.2 = .rotateGroupKey chatId keys)
    (hkey : (userId, key) ∈ keys)
    (hactor : At (fun db => roleOf db.toChatsDb chatId r.1 = some role)) (hrank : .admin ≤ role) :
    MemberChange At r db chatId userId { row with encryptionKeyEnc := some key }

section Tables

variable {db : ChatsDb} {chatId chatId' userId userId' : Uuid}

theorem changed_setParticipant {row : ParticipantRow}
    (h : (db.setParticipant chatId' userId' row).participant chatId userId ≠ db.participant chatId userId) :
    chatId = chatId' ∧ userId = userId' ∧
      (db.setParticipant chatId' userId' row).participant chatId userId = some row := by
  by_cases hkey : chatId = chatId' ∧ userId = userId'
  · obtain ⟨rfl, rfl⟩ := hkey
    exact ⟨rfl, rfl, Ownership.participant_setParticipant_self⟩
  · exact absurd (Ownership.participant_setParticipant_ne hkey) h

theorem changed_updateParticipant {f : ParticipantRow → ParticipantRow}
    (h : (db.updateParticipant chatId' userId' f).participant chatId userId ≠
      db.participant chatId userId) :
    chatId = chatId' ∧ userId = userId' ∧ ∃ row, db.participant chatId userId = some row ∧
      (db.updateParticipant chatId' userId' f).participant chatId userId = some (f row) := by
  rw [ChatsDb.updateParticipant] at h ⊢
  cases hrow : db.participant chatId' userId' with
  | none =>
    simp only [hrow] at h
    exact absurd rfl h
  | some row =>
    simp only [hrow] at h ⊢
    obtain ⟨rfl, rfl, hnew⟩ := changed_setParticipant h
    exact ⟨rfl, rfl, row, hrow, hnew⟩

theorem changed_upsertRow {fresh : ParticipantRow} {onConflict : ParticipantRow → ParticipantRow}
    (h : (db.upsertRow chatId' userId' fresh onConflict).2.participant chatId userId ≠
      db.participant chatId userId) :
    chatId = chatId' ∧ userId = userId' ∧
      (db.upsertRow chatId' userId' fresh onConflict).2.participant chatId userId =
        some ((db.participant chatId userId).elim fresh onConflict) := by
  have hcases := Effects.upsertRow_cases (rfl : db.upsertRow chatId' userId' fresh onConflict = _)
  obtain hsame | hset := hcases
  · exact absurd (by rw [hsame]) h
  · rw [hset] at h ⊢
    obtain ⟨rfl, rfl, hnew⟩ := changed_setParticipant h
    exact ⟨rfl, rfl, hnew⟩

theorem changed_setRole {role : ParticipantRole}
    (h : (db.setRole chatId' userId' role).2.participant chatId userId ≠ db.participant chatId userId) :
    chatId = chatId' ∧ userId = userId' ∧ ∃ row, db.participant chatId userId = some row ∧
      row.leftAt = none ∧
      (db.setRole chatId' userId' role).2.participant chatId userId = some { row with role := role } := by
  rw [ChatsDb.setRole] at h ⊢
  cases hrow : db.activeRow chatId' userId' with
  | none =>
    simp only [hrow] at h
    exact absurd rfl h
  | some row =>
    simp only [hrow] at h ⊢
    obtain ⟨rfl, rfl, hnew⟩ := changed_setParticipant h
    obtain ⟨hold, hleft⟩ := Effects.activeRow_eq.mp hrow
    exact ⟨rfl, rfl, row, hold, hleft, hnew⟩

/-- The owner becomes an admin, or the new owner is made one. -/
theorem changed_transferRoles {currentOwnerId newOwnerId : Uuid} (hne : newOwnerId ≠ currentOwnerId)
    (h : (db.transferRoles chatId' currentOwnerId newOwnerId).participant chatId userId ≠
      db.participant chatId userId) : chatId = chatId' ∧ ∃ row, db.participant chatId userId = some row ∧
      (userId = currentOwnerId ∧ (db.transferRoles chatId' currentOwnerId newOwnerId).participant chatId
          userId = some { row with role := .admin } ∨
        userId = newOwnerId ∧ (db.transferRoles chatId' currentOwnerId newOwnerId).participant chatId
          userId = some { row with role := .owner }) := by
  rw [ChatsDb.transferRoles] at h ⊢
  by_cases hsecond : ((db.updateParticipant chatId' currentOwnerId (fun row =>
      { row with role := .admin })).updateParticipant chatId' newOwnerId (fun row =>
        { row with role := .owner })).participant chatId userId =
      (db.updateParticipant chatId' currentOwnerId
        (fun row => { row with role := .admin })).participant
        chatId userId
  · rw [hsecond] at h ⊢
    obtain ⟨rfl, rfl, row, hold, hnew⟩ := changed_updateParticipant h
    exact ⟨rfl, row, hold, .inl ⟨rfl, hnew⟩⟩
  · obtain ⟨rfl, rfl, row, hold, hnew⟩ := changed_updateParticipant hsecond
    have hfirst : (db.updateParticipant chatId currentOwnerId (fun row =>
        { row with role := .admin })).participant chatId userId = db.participant chatId userId := by
      by_contra hchanged
      exact hne (changed_updateParticipant hchanged).2.1
    exact ⟨rfl, row, hfirst ▸ hold, .inr ⟨rfl, hnew⟩⟩

/-- Only the creator and those whom they name are written. -/
theorem changed_createGroupChat {ω : Choice} {creatorId : Uuid} {name : String}
    {participantIds : List Uuid} {ans : Except DomainError Uuid} {db' : ChatsDb}
    (he : db.createGroupChat ω creatorId name participantIds = some (ans, db'))
    (h : db'.participant chatId userId ≠ db.participant chatId userId) : chatId ∉ db.chats ∧
      (userId = creatorId ∧ db'.participant chatId userId = some ⟨.owner, none, some creatorId, ω.now, none⟩ ∨
        userId ≠ creatorId ∧ userId ∈ participantIds ∧
          db'.participant chatId userId = some ⟨.member, none, some creatorId, ω.now, none⟩) := by
  obtain ⟨-, rfl⟩ | ⟨-, hfresh, -, -, rfl⟩ := Ownership.createGroupChat_cases he
  · exact absurd rfl h
  · rw [Ownership.participant_foldl_insertMember] at h ⊢
    by_cases hcreator : chatId = ω.uuid ∧ userId = creatorId
    · obtain ⟨rfl, rfl⟩ := hcreator
      exact ⟨hfresh, .inl ⟨rfl, by rw [Ownership.participant_setParticipant_self, Option.some_or]⟩⟩
    · rw [Ownership.participant_setParticipant_ne hcreator] at h ⊢
      change (db.participant chatId userId).or _ ≠ _ at h
      change _ ∧ (_ ∧ (db.participant chatId userId).or _ = _ ∨ _ ∧ _ ∧
        (db.participant chatId userId).or _ = _)
      cases hold : db.participant chatId userId with
      | some row => exact absurd (by rw [hold, Option.some_or]) h
      | none =>
        rw [hold, Option.none_or] at h
        split_ifs at h with hnamed
        · obtain ⟨rfl, hother, hmem⟩ := hnamed
          exact ⟨hfresh, .inr ⟨hother, hmem, by rw [Option.none_or, if_pos ⟨rfl, hother, hmem⟩]⟩⟩
        · exact absurd rfl h

end Tables

/-- How a request may come to write a row of `chats`. -/
inductive ChatChange (At : (ChatStore → Prop) → Prop) (r : Uuid × ChatReq) (db : ChatStore)
    (chatId : Uuid) : ChatRow → Prop where
  | createdGroup {name participantIds now} (hreq : r.2 = .group (.createGroup name participantIds))
    (hfresh : chatId ∉ db.chats) : ChatChange At r db chatId
      ⟨.group, some (trim name), none, none, some r.1, none, now, none⟩
  | createdPrivate {participantId now} (hreq : r.2 = .createPrivateChat participantId)
    (hfresh : chatId ∉ db.chats) : ChatChange At r db chatId
      ⟨.private, none, none, none, some r.1, none, now, none⟩
  | deleted {row now} (hrow : db.chats.lookup chatId = some row)
    (hreq : r.2 = .group (.deleteChat chatId))
    (howner : At (fun db => ∃ member, db.participant chatId r.1 = some member ∧ member.role = .owner))
    (hgroup : At (fun db => ∃ chat, db.liveChat chatId = some chat ∧ chat.chatType ≠ .private ∧
      (db.activeRow chatId r.1).isSome)) :
    ChatChange At r db chatId { row with deletedAt := some now }
  | linked {row slug role} (hrow : db.chats.lookup chatId = some row)
    (hreq : r.2 = .group (.createInviteLink chatId) ∨ r.2 = .group (.deleteInviteLink chatId))
    (hactor : At (fun db => roleOf db.toChatsDb chatId r.1 = some role)) (hrank : .admin ≤ role) :
    ChatChange At r db chatId { row with inviteLink := some slug }
  | updated {row read name description avatarUrl} (hrow : db.chats.lookup chatId = some row)
    (hreq : r.2 = .updateChat chatId name description avatarUrl)
    (hmember : At (fun db => db.memberOfLiveChat r.1 chatId = some read)) :
    ChatChange At r db chatId
      { row with
        name := name.or read.name
        description := description.or read.description
        avatarUrl := avatarUrl.or read.avatarUrl }

/-- Whatever has been answered was so at some moment. -/
def Vouches (h : Asked) (At : (ChatStore → Prop) → Prop) : Prop :=
  ∀ (cmd : StoreCmd) (ans : cmd.Ans) (P : ChatStore → Prop), ⟨cmd, ans⟩ ∈ h →
    (∀ ω s s', ChatStore.exec ω cmd s = some (ans, s') → P s) → At P

section Writes

variable {asked : Asked} {At : (ChatStore → Prop) → Prop} {chatId userId : Uuid}

theorem Vouches.role (hat : Vouches asked At) {role : ParticipantRole}
    (hmem : ⟨.chat (.getParticipantRole userId chatId), some role⟩ ∈ asked) :
    At (fun db => roleOf db.toChatsDb chatId userId = some role) :=
  hat _ _ _ hmem fun _ _ _ he => (Prod.mk.inj (Option.some.inj he)).1

theorem Vouches.saw (hat : Vouches asked At) {role : ParticipantRole}
    (hsaw : Saw (groupAsked asked) chatId userId role) :
    At (fun db => roleOf db.toChatsDb chatId userId = some role) :=
  hat.role (mem_of_groupAsked hsaw)

theorem Vouches.link (hat : Vouches asked At) {slug : String} {chat : Chat}
    (hmem : ⟨.chat (.findChatBySlug slug), some chat⟩ ∈ asked) :
    At (fun db => ∃ row, db.liveChat chat.id = some row ∧ row.inviteLink = some slug) := by
  refine hat _ _ _ hmem fun _ s _ he => ?_
  have hfound : s.findChatBySlug slug = some chat := (Prod.mk.inj (Option.some.inj he)).1
  obtain ⟨⟨chatId, row⟩, hfind, rfl⟩ := Option.map_eq_some_iff.mp hfound
  have hlinked := List.find?_some hfind
  obtain ⟨hlink, hlive⟩ := of_decide_eq_true hlinked
  have hrow : s.chats.lookup chatId = some row := AList.mem_lookup_iff.mpr
    (List.mem_of_find?_eq_some hfind)
  exact ⟨row, Option.filter_eq_some_iff.mpr ⟨hrow, Option.isNone_iff_eq_none.mpr hlive⟩, hlink⟩

theorem Vouches.owner (hat : Vouches asked At)
    (hmem : ⟨.chat (.isOwner chatId userId), true⟩ ∈ asked) :
    At (fun db => ∃ member, db.participant chatId userId = some member ∧ member.role = .owner) := by
  refine hat _ _ _ hmem fun _ s _ he => ?_
  have hany := (Prod.mk.inj (Option.some.inj he)).1
  obtain ⟨member, hmember, hrole⟩ := (Option.any_eq_true _ _).mp hany
  exact ⟨member, hmember, of_decide_eq_true hrole⟩

theorem Vouches.group (hat : Vouches asked At) {chatType : ChatType}
    (hmem : ⟨.chat (.selectTypeForParticipant userId chatId), some chatType⟩ ∈ asked)
    (hgroup : chatType ≠ .private) :
    At (fun db => ∃ chat, db.liveChat chatId = some chat ∧ chat.chatType ≠ .private ∧
      (db.activeRow chatId userId).isSome) := by
  refine hat _ _ _ hmem fun _ s _ he => ?_
  have hfound : (s.liveChat chatId).bind (fun row => (s.activeRow chatId userId).map
    (fun _ => row.chatType)) = some chatType := (Prod.mk.inj (Option.some.inj he)).1
  obtain ⟨chat, hchat, hactive⟩ := Option.bind_eq_some_iff.mp hfound
  obtain ⟨member, hmember, rfl⟩ := Option.map_eq_some_iff.mp hactive
  exact ⟨chat, hchat, hgroup, by rw [hmember, Option.isSome_some]⟩

theorem memberChange_of_chat (hat : Vouches asked At) {ω : Choice} {c : ChatCmd} {ans : c.Ans}
    {s : ChatStore} {chats : ChatsDb}
    {r : Uuid × ChatReq} {req : GroupReq} (hreq : r.2 = .group req)
    (hmay : MayAsk r.1 req (groupAsked asked) c)
    (he : ChatsDb.exec ω c s.toChatsDb = some (ans, chats))
    (h : chats.participant chatId userId ≠ s.participant chatId userId) :
    ∃ row, chats.participant chatId userId = some row ∧
      MemberChange At r s chatId userId row := by
  obtain ⟨actorId, req'⟩ := r
  obtain rfl : req' = .group req := hreq
  cases c with
  | createGroupChat creatorId name participantIds =>
    obtain ⟨rfl, given, rfl, rfl⟩ := hmay
    obtain ⟨hfresh, ⟨rfl, hnew⟩ | ⟨hother, hmem, hnew⟩⟩ := changed_createGroupChat he h
    · exact ⟨_, hnew, .created rfl hfresh⟩
    · exact ⟨_, hnew, .invited rfl hmem hother hfresh⟩
  | upsertParticipant chatId' newUserId key addedBy =>
    obtain ⟨rfl, rfl, role, hsaw, hrank⟩ := hmay
    obtain ⟨-, rfl⟩ := Prod.ext_iff.mp (Option.some.inj he)
    obtain ⟨rfl, rfl, hnew⟩ := changed_upsertRow h
    refine ⟨_, hnew, ?_⟩
    cases s.participant chatId userId <;> exact .added rfl (hat.saw hsaw) hrank
  | rejoin chatId' newUserId =>
    obtain ⟨rfl, slug, chat, rfl, rfl, hfound⟩ := hmay
    obtain ⟨-, rfl⟩ := Prod.ext_iff.mp (Option.some.inj he)
    obtain ⟨rfl, rfl, hnew⟩ := changed_upsertRow h
    exact ⟨_, hnew, .joined rfl (hat.link (mem_of_groupAsked hfound))⟩
  | leaveActive chatId' targetId =>
    obtain ⟨rfl, role, targetRole, hactor, htarget, hrank⟩ := hmay
    obtain ⟨-, rfl⟩ := Prod.mk.inj (Option.some.inj he)
    obtain ⟨rfl, rfl, row, hold, hnew⟩ := changed_updateParticipant h
    exact ⟨_, hnew, .removed hold rfl (hat.saw hactor) (hat.saw htarget) hrank⟩
  | leave chatId' leaverId =>
    obtain ⟨rfl, rfl⟩ := hmay
    obtain ⟨-, rfl⟩ := Prod.mk.inj (Option.some.inj he)
    obtain ⟨rfl, rfl, row, hold, hnew⟩ := changed_updateParticipant h
    exact ⟨_, hnew, .left hold rfl⟩
  | setRole chatId' targetId newRole =>
    obtain ⟨-, ⟨text, rfl, htext⟩, role, targetRole, hactor, htarget, hrank⟩ := hmay
    obtain ⟨-, rfl⟩ := Prod.ext_iff.mp (Option.some.inj he)
    obtain ⟨rfl, rfl, row, hold, hactive, hnew⟩ := changed_setRole h
    exact ⟨_, hnew, .ranked hold hactive rfl htext (hat.saw hactor) (hat.saw htarget) hrank⟩
  | transferRoles chatId' currentOwnerId newOwnerId =>
    obtain ⟨rfl, hne, rfl, hactor, role, htarget⟩ := hmay
    obtain ⟨-, rfl⟩ := Prod.mk.inj (Option.some.inj he)
    obtain ⟨rfl, row, hold, ⟨rfl, hnew⟩ | ⟨rfl, hnew⟩⟩ := changed_transferRoles hne h
    · exact ⟨_, hnew, .handedOver hold rfl (hat.saw hactor)⟩
    · exact ⟨_, hnew, .promoted hold rfl (hat.saw hactor) (hat.saw htarget)⟩
  | markDeleted chatId' =>
    obtain ⟨-, rfl⟩ := Prod.mk.inj (Option.some.inj he)
    exact absurd (by rw [ChatsDb.participant, Authority.participants_updateChat,
      ChatsDb.participant]) h
  | setInviteLink chatId' slug =>
    obtain ⟨-, rfl⟩ := Prod.ext_iff.mp (Option.some.inj he)
    refine absurd ?_ h
    rw [ChatsDb.setInviteLink]
    split
    · rfl
    · split_ifs
      · rfl
      · rfl
      · rw [ChatsDb.participant, Authority.participants_updateChat, ChatsDb.participant]
  | randomSlug =>
    obtain ⟨-, he⟩ := Option.ite_none_right_eq_some.mp he
    obtain ⟨-, rfl⟩ := Prod.mk.inj (Option.some.inj he)
    exact absurd rfl h
  | _ =>
    obtain ⟨-, rfl⟩ := Prod.mk.inj (Option.some.inj he)
    exact absurd rfl h

theorem tables_elsewhere {ω : StoreChoice} {cmd : StoreCmd} {ans : cmd.Ans} {s s' : ChatStore}
    (hcmd : Elsewhere cmd) (he : ChatStore.exec ω cmd s = some (ans, s')) :
    s'.participants = s.participants ∧ s'.chats = s.chats := by
  cases cmd with
  | chat c =>
    cases c with
    | getChatForUser | getParticipantRole | publish =>
      obtain ⟨-, rfl⟩ := Prod.mk.inj (Option.some.inj he)
      exact ⟨rfl, rfl⟩
    | _ => exact absurd hcmd id
  | createPrivateChat | rotateKeys | updateChat => exact absurd hcmd id
  | _ =>
    have hchats : s'.toChatsDb = s.toChatsDb := Effects.chats_of_exec id he
    exact ⟨congrArg ChatsDb.participants hchats, congrArg ChatsDb.chats hchats⟩

theorem participant_elsewhere {ω : StoreChoice} {cmd : StoreCmd} {ans : cmd.Ans} {s s' : ChatStore}
    (hcmd : Elsewhere cmd) (he : ChatStore.exec ω cmd s = some (ans, s')) :
    s'.participant chatId userId = s.participant chatId userId :=
  congrArg (AList.lookup (chatId, userId)) (tables_elsewhere hcmd he).1

theorem lookup_elsewhere {ω : StoreChoice} {cmd : StoreCmd} {ans : cmd.Ans} {s s' : ChatStore}
    (hcmd : Elsewhere cmd) (he : ChatStore.exec ω cmd s = some (ans, s')) :
    s'.chats.lookup chatId = s.chats.lookup chatId :=
  congrArg (AList.lookup chatId) (tables_elsewhere hcmd he).2

theorem memberChange_of_exec (hat : Vouches asked At) {ω : StoreChoice} {cmd : StoreCmd}
    {ans : cmd.Ans} {s s' : ChatStore}
    {r : Uuid × ChatReq} (hentitled : Entitled r asked cmd)
    (he : ChatStore.exec ω cmd s = some (ans, s'))
    (h : s'.participant chatId userId ≠ s.participant chatId userId) :
    ∃ row, s'.participant chatId userId = some row ∧
      MemberChange At r s chatId userId row := by
  cases cmd with
  | chat c =>
    obtain hreads | ⟨req, hreq, hmay⟩ := hentitled
    · have hcmd : Elsewhere (.chat c) := hreads
      exact absurd (participant_elsewhere hcmd he) h
    · obtain ⟨⟨_, chats⟩, hexec, heq⟩ := Option.map_eq_some_iff.mp he
      obtain ⟨rfl, rfl⟩ := Prod.mk.inj heq
      exact memberChange_of_chat hat hreq hmay hexec h
  | createPrivateChat creatorId participantId =>
    obtain ⟨-, rfl, -⟩ | ⟨-, hfresh, -, -, -, rfl⟩ := Changes.createPrivateChat_cases he
    · exact absurd rfl h
    · obtain rfl := hentitled
      by_cases hother : chatId = ω.uuid ∧ userId = participantId
      · obtain ⟨rfl, rfl⟩ := hother
        exact ⟨_, Ownership.participant_setParticipant_self, .paired rfl (.inr rfl) hfresh⟩
      · change ((ChatsDb.setParticipant _ _ _ _).setParticipant _ _ _).participant _ _ ≠ _ at h
        change ∃ row, ((ChatsDb.setParticipant _ _ _ _).setParticipant _ _ _).participant _ _ = _ ∧ _
        rw [Ownership.participant_setParticipant_ne hother] at h ⊢
        obtain ⟨rfl, rfl, hnew⟩ := changed_setParticipant h
        exact ⟨_, hnew, .paired rfl (.inl rfl) hfresh⟩
  | rotateKeys chatId' keys =>
    obtain ⟨hreq, role, hactor, hrank⟩ := hentitled
    obtain ⟨-, rfl⟩ := Prod.mk.inj (Option.some.inj he)
    obtain rfl : chatId = chatId' := by
      by_contra hne
      exact h (Deletion.participant_rotateKeys_ne s.toChatsDb 0 keys hne)
    have hrotated := Deletion.participant_rotateKeys s.toChatsDb chatId userId 0 keys
    change (keys.foldl (rotateKey chatId) (0, s.toChatsDb)).2.participant chatId userId ≠ _ at h
    change ∃ row, (keys.foldl (rotateKey chatId) (0, s.toChatsDb)).2.participant chatId userId = _ ∧ _
    rw [hrotated] at h ⊢
    split at h
    · exact absurd rfl h
    · next entry hlast =>
      obtain ⟨hkey, huser⟩ := List.mem_filter.mp (List.mem_of_getLast? hlast)
      cases hold : s.participant chatId userId with
      | none => exact absurd (by rw [hold, Option.map_none]) h
      | some row =>
        by_cases hleft : row.leftAt = none
        · refine ⟨{ row with encryptionKeyEnc := some entry.2 }, by rw [Option.map_some, if_pos hleft], ?_⟩
          refine .rekeyed hold hleft hreq ?_ (hat.role hactor) hrank
          rwa [← of_decide_eq_true huser]
        · exact absurd (by rw [hold, Option.map_some, if_neg hleft]) h
  | updateChat chatId' name description avatarUrl =>
    obtain ⟨-, rfl⟩ := Prod.ext_iff.mp (Option.some.inj he)
    refine absurd ?_ h
    rw [ChatStore.updateChatRow]
    split
    · rfl
    · split_ifs
      · exact congrArg (AList.lookup (chatId, userId)) (Authority.participants_updateChat _ _ _)
      · rfl
  | _ => exact absurd (participant_elsewhere (by trivial) he) h

theorem changed_setInviteLink {s : ChatsDb} {chatId' : Uuid} {slug : String}
    (h : (s.setInviteLink chatId' slug).2.chats.lookup chatId ≠ s.chats.lookup chatId) :
    (s.setInviteLink chatId' slug).2 = s.updateChat chatId'
      (fun row => { row with inviteLink := some slug }) := by
  rw [ChatsDb.setInviteLink] at h ⊢
  cases hrow : s.chats.lookup chatId' with
  | none =>
    simp only [hrow] at h
    exact absurd rfl h
  | some row =>
    simp only [hrow] at h ⊢
    split_ifs at h ⊢
    · exact absurd rfl h
    · exact absurd rfl h
    · rfl

theorem changed_updateChat {s : ChatsDb} {chatId' : Uuid} {f : ChatRow → ChatRow}
    (h : (s.updateChat chatId' f).chats.lookup chatId ≠ s.chats.lookup chatId) :
    chatId = chatId' ∧ ∃ row, s.chats.lookup chatId = some row ∧
      (s.updateChat chatId' f).chats.lookup chatId = some (f row) := by
  rw [ChatRows.lookup_updateChat_map] at h ⊢
  cases hrow : s.chats.lookup chatId with
  | none => exact absurd (by rw [hrow, Option.map_none]) h
  | some row =>
    by_cases hid : chatId' = chatId
    · exact ⟨hid.symm, row, rfl, by rw [Option.map_some, if_pos hid]⟩
    · exact absurd (by rw [hrow, Option.map_some, if_neg hid]) h

theorem changed_insert {s : ChatsDb} {newId : Uuid} {row : ChatRow}
    (h : (s.chats.insert newId row).lookup chatId ≠ s.chats.lookup chatId) :
    chatId = newId ∧ (s.chats.insert newId row).lookup chatId = some row := by
  by_cases hid : chatId = newId
  · subst hid
    exact ⟨rfl, AList.lookup_insert _⟩
  · exact absurd (AList.lookup_insert_ne hid) h

theorem chatChange_of_chat (hat : Vouches asked At) {ω : Choice} {c : ChatCmd} {ans : c.Ans}
    {s : ChatStore} {chats : ChatsDb}
    {r : Uuid × ChatReq} {req : GroupReq} (hreq : r.2 = .group req)
    (hmay : MayAsk r.1 req (groupAsked asked) c)
    (he : ChatsDb.exec ω c s.toChatsDb = some (ans, chats))
    (h : chats.chats.lookup chatId ≠ s.chats.lookup chatId) :
    ∃ row, chats.chats.lookup chatId = some row ∧ ChatChange At r s chatId row := by
  cases c with
  | createGroupChat creatorId name participantIds =>
    obtain ⟨rfl, given, rfl, rfl⟩ := hmay
    obtain ⟨-, rfl⟩ | ⟨-, hfresh, -, -, rfl⟩ := Ownership.createGroupChat_cases he
    · exact absurd rfl h
    · rw [Ownership.foldl_insertMember_eq] at h ⊢
      obtain ⟨rfl, hnew⟩ := changed_insert h
      exact ⟨_, hnew, .createdGroup hreq hfresh⟩
  | markDeleted chatId' =>
    obtain ⟨rfl, howner, chatType, htype, hgroup⟩ := hmay
    obtain ⟨-, rfl⟩ := Prod.mk.inj (Option.some.inj he)
    obtain ⟨rfl, row, hold, hnew⟩ := changed_updateChat h
    exact ⟨_, hnew, .deleted hold hreq (hat.owner (mem_of_groupAsked howner))
      (hat.group (mem_of_groupAsked htype) hgroup)⟩
  | setInviteLink chatId' slug =>
    obtain ⟨hlink, role, hactor, hrank⟩ := hmay
    obtain ⟨-, rfl⟩ := Prod.ext_iff.mp (Option.some.inj he)
    have hset := changed_setInviteLink h
    rw [hset] at h ⊢
    obtain ⟨rfl, row, hold, hnew⟩ := changed_updateChat h
    refine ⟨_, hnew, .linked hold ?_ (hat.saw hactor) hrank⟩
    rwa [hreq, ChatReq.group.injEq, ChatReq.group.injEq]
  | upsertParticipant | rejoin =>
    obtain ⟨-, rfl⟩ := Prod.ext_iff.mp (Option.some.inj he)
    refine absurd ?_ h
    rw [ChatsDb.upsertRow]
    split_ifs <;> rfl
  | leaveActive | leave =>
    obtain ⟨-, rfl⟩ := Prod.mk.inj (Option.some.inj he)
    exact absurd (by rw [ChatRows.chats_updateParticipant]) h
  | setRole =>
    obtain ⟨-, rfl⟩ := Prod.ext_iff.mp (Option.some.inj he)
    refine absurd ?_ h
    rw [ChatsDb.setRole]
    split <;> rfl
  | transferRoles =>
    obtain ⟨-, rfl⟩ := Prod.mk.inj (Option.some.inj he)
    refine absurd ?_ h
    rw [ChatsDb.transferRoles, ChatRows.chats_updateParticipant, ChatRows.chats_updateParticipant]
  | randomSlug =>
    obtain ⟨-, he⟩ := Option.ite_none_right_eq_some.mp he
    obtain ⟨-, rfl⟩ := Prod.mk.inj (Option.some.inj he)
    exact absurd rfl h
  | _ =>
    obtain ⟨-, rfl⟩ := Prod.mk.inj (Option.some.inj he)
    exact absurd rfl h

theorem chatChange_of_exec (hat : Vouches asked At) {ω : StoreChoice} {cmd : StoreCmd}
    {ans : cmd.Ans} {s s' : ChatStore}
    {r : Uuid × ChatReq} (hentitled : Entitled r asked cmd)
    (he : ChatStore.exec ω cmd s = some (ans, s'))
    (h : s'.chats.lookup chatId ≠ s.chats.lookup chatId) :
    ∃ row, s'.chats.lookup chatId = some row ∧ ChatChange At r s chatId row := by
  cases cmd with
  | chat c =>
    obtain hreads | ⟨req, hreq, hmay⟩ := hentitled
    · have hcmd : Elsewhere (.chat c) := hreads
      exact absurd (lookup_elsewhere hcmd he) h
    · obtain ⟨⟨_, chats⟩, hexec, heq⟩ := Option.map_eq_some_iff.mp he
      obtain ⟨rfl, rfl⟩ := Prod.mk.inj heq
      exact chatChange_of_chat hat hreq hmay hexec h
  | createPrivateChat creatorId participantId =>
    obtain ⟨-, rfl, -⟩ | ⟨-, hfresh, -, -, -, rfl⟩ := Changes.createPrivateChat_cases he
    · exact absurd rfl h
    · obtain rfl := hentitled
      obtain ⟨rfl, hnew⟩ := changed_insert h
      exact ⟨_, hnew, .createdPrivate rfl hfresh⟩
  | rotateKeys chatId' keys =>
    obtain ⟨-, rfl⟩ := Prod.mk.inj (Option.some.inj he)
    refine absurd ?_ h
    exact congrArg (fun chats => chats.chats.lookup chatId)
      (foldl_rotateKey_eq chatId' keys (0, s.toChatsDb))
  | updateChat chatId' name description avatarUrl =>
    obtain ⟨name', description', avatarUrl', read, hreq, hmember, rfl, rfl, rfl⟩ := hentitled
    obtain ⟨-, rfl⟩ := Prod.ext_iff.mp (Option.some.inj he)
    rw [ChatStore.updateChatRow] at h ⊢
    cases hfound : s.chats.lookup chatId' with
    | none =>
      simp only [hfound] at h
      exact absurd rfl h
    | some found =>
      simp only [hfound] at h ⊢
      split_ifs at h ⊢
      · obtain ⟨rfl, row, hold, hnew⟩ := changed_updateChat h
        refine ⟨_, hnew, .updated hold hreq (hat _ _ _ hmember fun _ _ _ he => ?_)⟩
        exact (Prod.mk.inj (Option.some.inj he)).1
      · exact absurd rfl h
  | _ => exact absurd (lookup_elsewhere (by trivial) he) h

end Writes

/-- At some moment of the run, the request being there, the tables were like this. -/
def AtSome (db : ChatStore) (acts : List ChatAct) (i : Nat) (P : ChatStore → Prop) : Prop :=
  ∃ before, before <+: acts ∧ i < (chatServer.run before (System.start db)).tasks.length ∧
    P (chatServer.run before (System.start db)).db

/-- Whatever move comes next, a row of a chat or of a member is only written by a request that was
found to be entitled to it while it was served. -/
def WrittenByEntitled (db : ChatStore) (acts : List ChatAct) : Prop :=
  let c := chatServer.run acts (System.start db)
  ∀ a d, chatServer.apply a c = some d →
    (∀ chatId userId, d.db.participant chatId userId ≠ c.db.participant chatId userId →
      ∃ i ω r row, a = .step i ω ∧ c.request i = some r ∧ d.db.participant chatId userId = some row ∧
        MemberChange (AtSome db acts i) r c.db chatId userId row) ∧
    ∀ chatId, d.db.chats.lookup chatId ≠ c.db.chats.lookup chatId →
      ∃ i ω r row, a = .step i ω ∧ c.request i = some r ∧ d.db.chats.lookup chatId = some row ∧
        ChatChange (AtSome db acts i) r c.db chatId row

theorem vouches_run (db : ChatStore) (acts : List ChatAct) (i : Nat) :
    Vouches ((chatServer.run acts (System.start db)).history i) (AtSome db acts i) := by
  intro cmd ans P hmem hP
  obtain ⟨before, ω, s', hle, hi, hexec⟩ := answered_at (System.replays_start db) (Nat.zero_le i) hmem
  exact ⟨before, hle, hi, hP ω _ s' hexec⟩

/-- Whatever requests run side by side, their statements in any order. -/
theorem writtenByEntitled (db : ChatStore) (acts : List ChatAct) : WrittenByEntitled db acts := by
  intro a d ha
  have hreplays := System.Reach.replays (System.reach_run (S := chatServer) acts (System.start db))
  obtain ⟨r, rfl, rfl⟩ | ⟨i, ω, r, cmd, k, ans, s, rfl, ht, he, rfl⟩ | ⟨ω, s, rfl, hs, rfl⟩ :=
    System.apply_cases ha
  · exact ⟨fun _ _ h => absurd rfl h, fun _ h => absurd rfl h⟩
  · have hentitled := (hreplays.follows handle_entitled ht).1
    refine ⟨fun chatId userId h => ?_, fun chatId h => ?_⟩
    · obtain ⟨row, hrow, hchange⟩ := memberChange_of_exec (vouches_run db acts i) hentitled he h
      exact ⟨i, ω, r, row, rfl, Config.request_eq ht, hrow, hchange⟩
    · obtain ⟨row, hrow, hchange⟩ := chatChange_of_exec (vouches_run db acts i) hentitled he h
      exact ⟨i, ω, r, row, rfl, Config.request_eq ht, hrow, hchange⟩
  · obtain rfl := Option.some.inj hs
    exact ⟨fun _ _ h => absurd rfl h, fun _ h => absurd rfl h⟩

end Mesty.Groups.Entitlement
