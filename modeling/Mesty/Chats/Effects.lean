import Mesty.Chats.Changes
import Mesty.Chats.Handlers
import Mesty.Groups.Effects

namespace Mesty.Chats.Effects

open Mesty.Base.Ids Mesty.Base.Error Mesty.Concurrency.Program
open Mesty.Chats Mesty.Chats.Entities Mesty.Chats.Repository Mesty.Chats.Messages
open Mesty.Chats.Store
open Mesty.Chats.Changes (sendMessage_cases createPrivateChat_cases)
open Mesty.Chats.Handlers (ChatReq StoreTask)
open Mesty.Groups.Effects (roleOf SameRows)

/-- The same rows of chats, participants and messages. -/
def SameTables (db db' : ChatStore) : Prop :=
  SameRows db.toChatsDb db'.toChatsDb ∧ db'.messages = db.messages

/-- What a request of `userId` makes of the tables when it runs alone, with what its checks
have found. -/
inductive Effect (db : ChatStore) (userId : Uuid) : ChatReq → ChatStore → Prop where
  | nothing (req) : Effect db userId req db
  | group {req chats} (h : Groups.Effects.Effect db.toChatsDb userId req chats) :
    Effect db userId (.group req) (db.withChats chats)
  | rotateGroupKey {chatId keys actor} (hactor : roleOf db.toChatsDb chatId userId = some actor)
    (hrank : .admin ≤ actor) :
    Effect db userId (.rotateGroupKey chatId keys)
      (db.withChats (keys.foldl (rotateKey chatId) (0, db.toChatsDb)).2)
  | createPrivateChat {participantId ω chatId db'}
    (h : db.createPrivateChat ω userId participantId = some (.ok chatId, db')) :
    Effect db userId (.createPrivateChat participantId) db'
  | sendMessage {chatId message chat m} (hchat : db.memberOfLiveChat userId chatId = some chat)
    (hm : m.chatId = chatId) (hfresh : m.id ∉ db.messages.map ChatMessage.id) :
    Effect db userId (.sendMessage chatId message) (db.insertMessage m hfresh)
  | updateChat {chatId name description avatarUrl chat name' description' avatarUrl'}
    (hchat : db.memberOfLiveChat userId chatId = some chat) :
    Effect db userId (.updateChat chatId name description avatarUrl)
      (db.withChats (db.toChatsDb.updateChat chatId (fun row =>
        { row with name := name', description := description', avatarUrl := avatarUrl' })))
  | editMessage {chatId messageId contentEncrypted contentIv m chat now}
    (hown : db.ownMessage messageId userId = some m)
    (hchat : db.memberOfLiveChat userId m.chatId = some chat) :
    Effect db userId (.editMessage chatId messageId contentEncrypted contentIv)
      (db.updateMessage messageId (ChatStore.editedMessage now contentEncrypted contentIv)
        (fun _ => rfl))
  | deleteMessage {chatId messageId m chat now}
    (hchat : db.memberOfLiveChat userId chatId = some chat)
    (hown : db.ownMessage messageId userId = some m) :
    Effect db userId (.deleteMessage chatId messageId)
      (db.updateMessage messageId (ChatStore.deletedMessage now) (fun _ => rfl))

/-- The effect of a request, up to what it makes of the other tables. -/
def Done (db : ChatStore) (userId : Uuid) (req : ChatReq) (db' : ChatStore) : Prop :=
  ∃ db₁, Effect db userId req db₁ ∧ SameTables db₁ db'

instance : Nonempty StoreChoice := ⟨⟨⟨.nil, 0, ""⟩, false, [], true⟩⟩

variable {db db' : ChatStore} {chatId userId : Uuid} {req : ChatReq}

section Rules

variable {α β : Type} {Q : Except DomainError α → ChatStore → Prop}

theorem wp_throw (e : DomainError) :
    (throw e : StoreTask α).run.wp ChatStore.exec Q db ↔ Q (.error e) db := Iff.rfl

theorem wp_ask {c : StoreCmd} {f : c.Ans → StoreTask α} :
    (StoreTask.ask c >>= f).run.wp ChatStore.exec Q db ↔
      ∀ ω r db', ChatStore.exec ω c db = some (r, db') → (f r).run.wp ChatStore.exec Q db' :=
  Iff.rfl

theorem wp_okOr {o : Option β} {e : DomainError} {f : β → StoreTask α} :
    (StoreTask.okOr o e >>= f).run.wp ChatStore.exec Q db ↔
      (o = none → Q (.error e) db) ∧ ∀ b, o = some b → (f b).run.wp ChatStore.exec Q db := by
  cases o with
  | none => exact ⟨fun h => ⟨fun _ => h, by rintro _ ⟨⟩⟩, fun h => h.1 rfl⟩
  | some b => exact ⟨fun h => ⟨by rintro ⟨⟩, fun _ hb => Option.some.inj hb ▸ h⟩, fun h => h.2 b rfl⟩

theorem wp_verifyParticipant {f : Unit → StoreTask α} :
    (Handlers.verifyParticipant userId chatId >>= f).run.wp ChatStore.exec Q db ↔
      (db.memberOfLiveChat userId chatId = none → Q (.error ChatStore.notAParticipant) db) ∧
        ∀ chat, db.memberOfLiveChat userId chatId = some chat →
          (f ()).run.wp ChatStore.exec Q db := by
  rw [Handlers.verifyParticipant, bind_assoc, wp_ask]
  simp only [ChatStore.exec, Option.some.injEq, Prod.mk.injEq, and_imp, forall_apply_eq_imp_iff,
    forall_eq', forall_const]
  cases db.memberOfLiveChat userId chatId with
  | none => exact ⟨fun h => ⟨fun _ => h, by rintro _ ⟨⟩⟩, fun h => h.1 rfl⟩
  | some chat => exact ⟨fun h => ⟨by rintro ⟨⟩, fun _ _ => h⟩, fun h => h.2 chat rfl⟩

theorem lookup_of_memberOfLiveChat {row : ChatRow}
    (h : db.memberOfLiveChat userId chatId = some row) : db.chats.lookup chatId = some row := by
  obtain ⟨hlive, -⟩ := Option.filter_eq_some_iff.mp h
  exact (Option.filter_eq_some_iff.mp hlive).1

/-- The statements of a group request act on the chats alone. -/
theorem wp_ofChat {p : Prog ChatCmd ChatCmd.Ans α} {Q : α → ChatStore → Prop}
    (h : p.wp ChatsDb.exec (fun a chats => Q a (db.withChats chats)) db.toChatsDb) :
    (StoreTask.ofChat p).wp ChatStore.exec Q db := by
  induction p generalizing db with
  | ret a => exact h
  | call c k ih =>
    intro ω r db' he
    obtain ⟨⟨r', chats⟩, hc, heq⟩ := Option.map_eq_some_iff.mp he
    obtain ⟨rfl, rfl⟩ := Prod.mk.inj heq
    exact ih _ (h ω.toChoice _ _ hc)

end Rules

theorem Done.nothing : Done db userId req db := ⟨db, .nothing req, ⟨rfl, rfl⟩, rfl⟩

theorem Effect.done (h : Effect db userId req db') : Done db userId req db' :=
  ⟨db', h, ⟨rfl, rfl⟩, rfl⟩

theorem group_done {req : Groups.Handlers.GroupReq} :
    (Handlers.handleGroup userId req).run.wp ChatStore.exec
      (fun _ db' => Done db userId (.group req) db') db := by
  refine Prog.wp.tryBind (wp_ofChat ?_) fun _ _ h => h
  refine (Groups.Effects.handle_done db.toChatsDb userId req).mono fun _ chats h => ?_
  obtain ⟨chats₁, heffect, hrows⟩ := h
  exact ⟨db.withChats chats₁, .group heffect, hrows, rfl⟩

/-- The commands that write to none of the three tables. -/
def Quiet : StoreCmd → Prop
  | .chat (.publish ..) | .chat (.getChatForUser ..) => True
  | .chat _ | .createPrivateChat .. | .sendMessage .. | .updateChat .. | .editMessage .. |
    .deleteMessage .. | .rotateKeys .. => False
  | _ => True

theorem SameTables.refl (db : ChatStore) : SameTables db db := ⟨⟨rfl, rfl⟩, rfl⟩

theorem SameTables.trans {db₁ db₂ db₃ : ChatStore} (h : SameTables db₁ db₂)
    (h' : SameTables db₂ db₃) : SameTables db₁ db₃ :=
  ⟨⟨h'.1.1.trans h.1.1, h'.1.2.trans h.1.2⟩, h'.2.trans h.2⟩

theorem exec_findPrivateChat {ω : StoreChoice} {creatorId participantId : Uuid} {r : Option Uuid}
    (he : db.findPrivateChat ω creatorId participantId = some (r, db')) : db' = db := by
  rw [ChatStore.findPrivateChat] at he
  split_ifs at he <;> exact (Prod.mk.inj (Option.some.inj he)).2.symm

theorem exec_quiet {ω : StoreChoice} {c : StoreCmd} {r : c.Ans} (hc : Quiet c)
    (he : ChatStore.exec ω c db = some (r, db')) : SameTables db db' := by
  cases c with
  | chat c =>
    cases c with
    | publish | getChatForUser =>
      obtain ⟨-, rfl⟩ := Prod.mk.inj (Option.some.inj he)
      exact ⟨⟨rfl, rfl⟩, rfl⟩
    | _ => exact absurd hc id
  | createPrivateChat | sendMessage | updateChat | editMessage | deleteMessage | rotateKeys =>
    exact absurd hc id
  | findPrivateChat =>
    obtain rfl := exec_findPrivateChat he
    exact .refl db'
  | addReaction =>
    obtain ⟨-, rfl⟩ := Prod.ext_iff.mp (Option.some.inj he)
    rw [ChatStore.addReaction]
    split_ifs <;> exact ⟨⟨rfl, rfl⟩, rfl⟩
  | removeReaction =>
    obtain ⟨-, rfl⟩ := Prod.ext_iff.mp (Option.some.inj he)
    rw [ChatStore.removeReaction]
    split_ifs <;> exact ⟨⟨rfl, rfl⟩, rfl⟩
  | upsertChatSettings =>
    obtain ⟨-, rfl⟩ := Prod.ext_iff.mp (Option.some.inj he)
    rw [ChatStore.upsertChatSettings]
    split_ifs <;> exact ⟨⟨rfl, rfl⟩, rfl⟩
  | _ =>
    obtain ⟨-, rfl⟩ := Prod.mk.inj (Option.some.inj he)
    exact ⟨⟨rfl, rfl⟩, rfl⟩

/-- The commands that write to chats and participants. -/
def WritesChats : StoreCmd → Prop
  | .chat _ | .createPrivateChat .. | .updateChat .. | .rotateKeys .. => True
  | _ => False

def WritesReactions : StoreCmd → Prop
  | .addReaction .. | .removeReaction .. => True
  | _ => False

/-- A command writes to chats and participants only, or not to them. -/
theorem exec_frame {ω : StoreChoice} {c : StoreCmd} {r : c.Ans}
    (he : ChatStore.exec ω c db = some (r, db')) :
    (WritesChats c ∧ ∃ chats, db' = db.withChats chats) ∨
      db'.toChatsDb = db.toChatsDb ∧ (¬ WritesReactions c → db'.reactions = db.reactions) := by
  have hsame : db' = db → (WritesChats c ∧ ∃ chats, db' = db.withChats chats) ∨
      db'.toChatsDb = db.toChatsDb ∧ (¬ WritesReactions c → db'.reactions = db.reactions) := by
    rintro rfl
    exact .inr ⟨rfl, fun _ => rfl⟩
  cases c with
  | chat c =>
    obtain ⟨⟨_, chats⟩, -, heq⟩ := Option.map_eq_some_iff.mp he
    exact .inl ⟨trivial, chats, (Prod.mk.inj heq).2.symm⟩
  | createPrivateChat =>
    obtain ⟨-, rfl, -⟩ | ⟨-, -, -, -, -, rfl⟩ := createPrivateChat_cases he
    · exact hsame rfl
    · exact .inl ⟨trivial, _, rfl⟩
  | updateChat =>
    obtain ⟨-, rfl⟩ := Prod.ext_iff.mp (Option.some.inj he)
    rw [ChatStore.updateChatRow] at hsame ⊢
    split
    · exact .inr ⟨rfl, fun _ => rfl⟩
    · split_ifs
      · exact .inl ⟨trivial, _, rfl⟩
      · exact .inr ⟨rfl, fun _ => rfl⟩
  | rotateKeys =>
    obtain ⟨-, rfl⟩ := Prod.mk.inj (Option.some.inj he)
    exact .inl ⟨trivial, _, rfl⟩
  | addReaction =>
    obtain ⟨-, rfl⟩ := Prod.ext_iff.mp (Option.some.inj he)
    refine .inr ⟨?_, fun h => absurd trivial h⟩
    rw [ChatStore.addReaction]
    split_ifs <;> rfl
  | removeReaction =>
    obtain ⟨-, rfl⟩ := Prod.ext_iff.mp (Option.some.inj he)
    refine .inr ⟨?_, fun h => absurd trivial h⟩
    rw [ChatStore.removeReaction]
    split_ifs <;> rfl
  | findPrivateChat => exact hsame (exec_findPrivateChat he)
  | sendMessage =>
    obtain ⟨-, -, -, rfl⟩ | ⟨-, -, rfl⟩ := sendMessage_cases he <;> exact .inr ⟨rfl, fun _ => rfl⟩
  | editMessage =>
    obtain ⟨-, rfl⟩ := Prod.ext_iff.mp (Option.some.inj he)
    rw [ChatStore.editMessage]
    split
    · exact .inr ⟨rfl, fun _ => rfl⟩
    · split_ifs <;> exact .inr ⟨rfl, fun _ => rfl⟩
  | deleteMessage =>
    obtain ⟨-, rfl⟩ := Prod.ext_iff.mp (Option.some.inj he)
    rw [ChatStore.deleteMessage]
    split <;> exact .inr ⟨rfl, fun _ => rfl⟩
  | upsertChatSettings =>
    obtain ⟨-, rfl⟩ := Prod.ext_iff.mp (Option.some.inj he)
    rw [ChatStore.upsertChatSettings]
    split_ifs <;> exact .inr ⟨rfl, fun _ => rfl⟩
  | _ =>
    obtain ⟨-, rfl⟩ := Prod.mk.inj (Option.some.inj he)
    exact .inr ⟨rfl, fun _ => rfl⟩

theorem chats_of_exec {ω : StoreChoice} {c : StoreCmd} {r : c.Ans} (hc : ¬ WritesChats c)
    (he : ChatStore.exec ω c db = some (r, db')) : db'.toChatsDb = db.toChatsDb := by
  obtain ⟨hwrites, -⟩ | ⟨hchats, -⟩ := exec_frame he
  · exact absurd hwrites hc
  · exact hchats

theorem reactions_of_exec {ω : StoreChoice} {c : StoreCmd} {r : c.Ans} (hc : ¬ WritesReactions c)
    (he : ChatStore.exec ω c db = some (r, db')) : db'.reactions = db.reactions := by
  obtain ⟨-, chats, rfl⟩ | ⟨-, hreactions⟩ := exec_frame he
  · rfl
  · exact hreactions hc

theorem Done.quiet {α : Type} {p : Prog StoreCmd StoreCmd.Ans α} (hp : p.Issues Quiet)
    (h : Done db userId req db') :
    p.wp ChatStore.exec (fun _ db'' => Done db userId req db'') db' := by
  refine hp.wp ?_ h
  rintro ω c r s s' hc ⟨db₁, heffect, htables⟩ he
  exact ⟨db₁, heffect, htables.trans (exec_quiet hc he)⟩

theorem createPrivateChat_done {participantId : Uuid} :
    (Handlers.createPrivateChat userId participantId).run.wp ChatStore.exec
      (fun _ db' => Done db userId (.createPrivateChat participantId) db') db := by
  have hread : ∀ {chatId db'}, Done db userId (.createPrivateChat participantId) db' →
      (do
        let chat ← StoreTask.okOr (← StoreTask.ask (.chat (.getChatForUser userId chatId)))
          (.notFound "chat not found")
        return ⟨201, .chat (Groups.Handlers.chatToResponse chat)⟩ :
          StoreTask Handlers.Response).run.wp ChatStore.exec
        (fun _ db'' => Done db userId (.createPrivateChat participantId) db'') db' := by
    refine fun h => h.quiet ⟨trivial, fun r => ?_⟩
    cases r <;> trivial
  rw [Handlers.createPrivateChat]
  split_ifs with hself
  · exact Done.nothing
  rw [wp_ask]
  intro ω r db' he
  obtain rfl := exec_findPrivateChat he
  cases r with
  | some chatId => exact hread .nothing
  | none =>
    refine Prog.wp.tryBind ?_ fun chatId _ h => hread h
    intro ω r db₁ he
    cases r with
    | ok chatId => exact (Effect.createPrivateChat he).done
    | error e =>
      obtain ⟨-, rfl, -⟩ | ⟨hok, -⟩ := Changes.createPrivateChat_cases he
      · exact Done.nothing
      · cases hok

theorem issues_ofChat {α : Type} {Q : StoreCmd → Prop} {p : Prog ChatCmd ChatCmd.Ans α}
    (h : p.Issues (fun c => Q (.chat c))) : (StoreTask.ofChat p).Issues Q := by
  induction p with
  | ret a => trivial
  | call c k ih => exact ⟨h.1, fun r => ih r (h.2 r)⟩

/-- What announcing a message asks. -/
def Announces (m : ChatMessage) : StoreCmd → Prop
  | .publish channel (.newMessage chatId ..) => channel = "chat:" ++ chatId.toString ++ ":events"
  | .publish _ (.messageContent chatId messageId ..) => chatId = m.chatId ∧ messageId = m.id
  | .getChatParticipants _ | .isOnline _ | .getChatSettings .. | .utcNow | .enqueuePush _ => True
  | _ => False

theorem announces_quiet {m : ChatMessage} (c : StoreCmd) (hc : Announces m c) : Quiet c := by
  cases c with
  | publish | getChatParticipants | isOnline | getChatSettings | utcNow | enqueuePush => trivial
  | _ => exact absurd hc id

section Announces

variable {m : ChatMessage}

theorem issues_isMuted (settings : Option ChatSettings) :
    (Handlers.isMuted settings).run.Issues (Announces m) := by
  unfold Handlers.isMuted
  split
  · trivial
  · split_ifs
    · trivial
    · split
      · trivial
      · exact ⟨trivial, fun _ => trivial⟩

theorem issues_notify {senderId participantId : Uuid} :
    (Handlers.notifyParticipant m senderId participantId).run.Issues (Announces m) := by
  rw [Handlers.notifyParticipant]
  split_ifs
  · refine ⟨⟨rfl, rfl⟩, fun _ => ⟨trivial, fun isOnline => ?_⟩⟩
    cases isOnline
    · refine ⟨trivial, fun settings => (issues_isMuted settings).tryBind fun muted => ?_⟩
      cases muted
      · exact ⟨trivial, fun _ => trivial⟩
      · trivial
    · trivial
  · trivial

theorem issues_forM {β : Type} {P : StoreCmd → Prop} {f : β → StoreTask Unit}
    (hf : ∀ b, (f b).run.Issues P) (bs : List β) : (bs.forM f).run.Issues P := by
  induction bs with
  | nil => trivial
  | cons b bs ih => exact (hf b).tryBind fun _ => ih

theorem issues_messageEvent (m : ChatMessage) (userId : Uuid) :
    (Handlers.publishMessageEvent m userId).run.Issues (Announces m) :=
  ⟨rfl, fun _ => ⟨trivial, issues_forM (fun _ => issues_notify)⟩⟩

end Announces

theorem sendMessage_done {message : NewMessage} :
    (Handlers.sendMessage userId chatId message).run.wp ChatStore.exec
      (fun _ db' => Done db userId (.sendMessage chatId message) db') db := by
  rw [Handlers.sendMessage, wp_ask]
  intro ω r db₁ he
  obtain ⟨rfl, rfl⟩ := Prod.mk.inj (Option.some.inj he)
  split_ifs
  · refine Prog.wp.tryBind ?_ fun m db' h => h.quiet
      (((issues_messageEvent m userId).mono announces_quiet).tryBind fun _ => trivial)
    intro ω r db' he
    obtain ⟨haccepts, hfresh, rfl, rfl⟩ | ⟨-, ⟨e, rfl⟩, rfl⟩ := Changes.sendMessage_cases he
    · obtain ⟨chat, hchat, -⟩ := haccepts.member
      exact ⟨_, .sendMessage hchat rfl hfresh, ⟨rfl, rfl⟩, rfl⟩
    · exact Done.nothing
  · exact Done.nothing

theorem updateChat_done {name description avatarUrl : Option String} :
    (Handlers.updateChat userId chatId name description avatarUrl).run.wp ChatStore.exec
      (fun _ db' => Done db userId (.updateChat chatId name description avatarUrl) db') db := by
  rw [Handlers.updateChat, wp_ask]
  intro ω r db₁ he
  obtain ⟨rfl, rfl⟩ := Prod.mk.inj (Option.some.inj he)
  rw [wp_okOr]
  refine ⟨fun _ => .nothing, fun chat hchat => ?_⟩
  refine Prog.wp.tryBind ?_ fun _ _ h => h
  intro ω r db' he
  obtain ⟨-, rfl⟩ := Prod.ext_iff.mp (Option.some.inj he)
  rw [ChatStore.updateChatRow]
  split
  · exact Done.nothing
  · split_ifs
    · exact (Effect.updateChat hchat).done
    · exact Done.nothing

theorem editMessage_done {messageId : Uuid} {contentEncrypted contentIv : Option String} :
    (Handlers.editMessage userId chatId messageId contentEncrypted contentIv).run.wp ChatStore.exec
      (fun _ db' => Done db userId (.editMessage chatId messageId contentEncrypted contentIv) db')
      db := by
  rw [Handlers.editMessage, wp_verifyParticipant]
  refine ⟨fun _ => .nothing, fun _ _ => ?_⟩
  rw [wp_ask]
  intro ω r db₁ he
  obtain ⟨rfl, rfl⟩ := Prod.mk.inj (Option.some.inj he)
  rw [wp_okOr]
  refine ⟨fun _ => .nothing, fun messageChat hmessageChat => ?_⟩
  obtain ⟨m, hm, rfl⟩ := Option.map_eq_some_iff.mp hmessageChat
  rw [wp_verifyParticipant]
  refine ⟨fun _ => .nothing, fun chat hchat => ?_⟩
  split_ifs
  · exact Done.nothing
  refine Prog.wp.tryBind ?_ fun _ _ h => h
  intro ω r db' he
  obtain ⟨-, rfl⟩ := Prod.ext_iff.mp (Option.some.inj he)
  rw [ChatStore.editMessage]
  split
  · exact Done.nothing
  · split_ifs
    · exact (Effect.editMessage hm hchat).done
    · exact Done.nothing

theorem deleteMessage_done {messageId : Uuid} :
    (Handlers.deleteMessage userId chatId messageId).run.wp ChatStore.exec
      (fun _ db' => Done db userId (.deleteMessage chatId messageId) db') db := by
  rw [Handlers.deleteMessage, wp_verifyParticipant]
  refine ⟨fun _ => .nothing, fun chat hchat => ?_⟩
  rw [wp_ask]
  intro ω r db' he
  have hdone : Done db userId (.deleteMessage chatId messageId) db' := by
    obtain ⟨-, rfl⟩ := Prod.ext_iff.mp (Option.some.inj he)
    rw [ChatStore.deleteMessage]
    split
    · exact Done.nothing
    · next m hm => exact (Effect.deleteMessage hchat hm).done
  split_ifs <;> exact hdone

theorem rotateGroupKey_done {keys : List (Uuid × String)} :
    (Handlers.rotateGroupKey userId chatId keys).run.wp ChatStore.exec
      (fun _ db' => Done db userId (.rotateGroupKey chatId keys) db') db := by
  rw [Handlers.rotateGroupKey]
  split_ifs
  · exact Done.nothing
  rw [wp_ask]
  intro ω r db₁ he
  obtain ⟨rfl, rfl⟩ := Prod.mk.inj (Option.some.inj he)
  rw [wp_okOr]
  refine ⟨fun _ => .nothing, fun actor hactor => ?_⟩
  split_ifs with hrank
  · exact Done.nothing
  rw [wp_ask]
  rintro ω _ _ ⟨⟩
  exact (Effect.rotateGroupKey hactor (le_of_not_gt hrank)).done.quiet ⟨trivial, fun _ => trivial⟩

theorem issues_verifyMessage {messageId : Uuid} :
    (Handlers.verifyMessageInChat messageId chatId).run.Issues Quiet := by
  refine ⟨trivial, fun found => ?_⟩
  cases found <;> trivial

/-- All that a request can do when it runs alone. -/
theorem handle_done (db : ChatStore) (userId : Uuid) (req : ChatReq) :
    (Handlers.handle userId req).run.wp ChatStore.exec (fun _ db' => Done db userId req db') db := by
  cases req with
  | group req => exact group_done
  | rotateGroupKey chatId keys => exact rotateGroupKey_done
  | createPrivateChat participantId => exact createPrivateChat_done
  | sendMessage chatId message => exact sendMessage_done
  | markMessagesRead chatId upTo =>
    rw [Handlers.handle, Handlers.markMessagesRead, wp_verifyParticipant]
    exact ⟨fun _ => .nothing, fun _ _ =>
      Done.nothing.quiet ⟨trivial, fun _ => ⟨trivial, fun _ => trivial⟩⟩⟩
  | addReaction chatId messageId reaction =>
    rw [Handlers.handle, Handlers.addReaction, wp_verifyParticipant]
    refine ⟨fun _ => .nothing, fun _ _ => Done.nothing.quiet ?_⟩
    refine issues_verifyMessage.tryBind fun _ => ⟨trivial, fun r => ?_⟩
    cases r
    · trivial
    · exact ⟨trivial, fun _ => trivial⟩
  | removeReaction chatId messageId emoji =>
    rw [Handlers.handle, Handlers.removeReaction, wp_okOr]
    refine ⟨fun _ => .nothing, fun reaction _ => ?_⟩
    rw [wp_verifyParticipant]
    refine ⟨fun _ => .nothing, fun _ _ => Done.nothing.quiet ?_⟩
    refine issues_verifyMessage.tryBind fun _ => ⟨trivial, fun removed => ?_⟩
    cases removed with
    | error e => trivial
    | ok removed =>
      cases removed with
      | false => trivial
      | true => exact ⟨trivial, fun _ => trivial⟩
  | updateChat chatId name description avatarUrl => exact updateChat_done
  | editMessage chatId messageId contentEncrypted contentIv => exact editMessage_done
  | deleteMessage chatId messageId => exact deleteMessage_done
  | updateChatSettings chatId settings =>
    rw [Handlers.handle, Handlers.updateChatSettings, wp_verifyParticipant]
    refine ⟨fun _ => .nothing, fun _ _ => Done.nothing.quiet ⟨trivial, fun r => ?_⟩⟩
    cases r
    · trivial
    · refine ⟨trivial, fun settings => ?_⟩
      cases settings <;> trivial

end Mesty.Chats.Effects
