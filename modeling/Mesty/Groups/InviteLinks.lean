import Mesty.Chats.ChatRows
import Mesty.Chats.Erasure
import Mesty.Chats.Publishing
import Mesty.Concurrency.Episodes
import Mesty.Groups.Deletion

namespace Mesty.Groups.InviteLinks

open Mesty.Base.Ids Mesty.Base.Error Mesty.Concurrency.Program Mesty.Concurrency.Pool
open Mesty.Chats.Entities Mesty.Chats.Repository Mesty.Chats.Store Mesty.Chats.Handlers
open Mesty.Chats.ChatRows Mesty.Concurrency.Episodes
open Mesty.Chats.Publishing (Asked handle_asked)
open Mesty.Chats.Erasure (ChatConfig ChatAct StoreEvent)
open Mesty.Groups.Deletion (alice bob theGroup)

/-- The UPDATE that stores a link for the chat. -/
def StoresLink (chatId : Uuid) (cmd : StoreCmd) (ans : cmd.Ans) : Prop :=
  ∃ slug, (⟨cmd, ans⟩ : (c : StoreCmd) × c.Ans) = ⟨.chat (.setInviteLink chatId slug), .ok ()⟩

def LinkCreated (chatId : Uuid) (req : Uuid × ChatReq) (cmd : StoreCmd) (ans : cmd.Ans) : Prop :=
  req.2 = .group (.createInviteLink chatId) ∧ StoresLink chatId cmd ans

def LinkDeleted (chatId : Uuid) (req : Uuid × ChatReq) (cmd : StoreCmd) (ans : cmd.Ans) : Prop :=
  req.2 = .group (.deleteInviteLink chatId) ∧ StoresLink chatId cmd ans

/-- A `delete_invite_link` of the chat has succeeded, and none was created since its UPDATE. -/
def LinkRemoved (chatId : Uuid) (c : ChatConfig) (before later : List StoreEvent) : Prop :=
  ∃ i userId slug ans response,
    c.tasks[i]? = some ((userId, .group (.deleteInviteLink chatId)), .ret (.ok response)) ∧
    c.log = before ++ ⟨i, .chat (.setInviteLink chatId slug), ans⟩ :: later ∧
    ∀ e ∈ later, ¬ Labelled (LinkCreated chatId) c e

/-- Once the link is removed, no slug leads to the chat, and who has joined it since then had
begun before. -/
def Closed (chatId : Uuid) (c : ChatConfig) : Prop :=
  ∀ before later, LinkRemoved chatId c before later →
    (∀ slug, (c.db.findChatBySlug slug).map Chat.id ≠ some chatId) ∧
    ∀ j userId ans, ⟨j, .chat (.rejoin chatId userId), ans⟩ ∈ later → eventsOf j before ≠ []

/-- A link can be stored for the group, which is not deleted. -/
def Linkable (db : ChatsDb) (chatId : Uuid) (slug : String) : Prop :=
  ∃ row, db.liveChat chatId = some row ∧ row.chatType ≠ .private ∧
    ∀ e ∈ db.chats.entries, e.1 ≠ chatId → e.2.inviteLink ≠ some slug

/-- The UPDATE of a `delete_invite_link` finds the chat deleted, or no link can be stored. -/
def FindsDeleted (chatId : Uuid) (c : ChatConfig) : ChatAct → Prop
  | .step i _ => ∀ userId sample, c.request i = some (userId, .group (.deleteInviteLink chatId)) →
      ⟨.chat .randomSlug, sample⟩ ∈ c.history i → ¬ Linkable c.db.toChatsDb chatId sample.toLower
  | _ => True

section Table

variable {db db' : ChatsDb} {chatId : Uuid} {slug : String}

/-- No link leads to the chat. -/
def Linkless (chatId : Uuid) (db : ChatsDb) : Prop :=
  ∀ row, db.liveChat chatId = some row → row.inviteLink = none

theorem liveChat_eq {row : ChatRow} : db.liveChat chatId = some row ↔
    db.chats.lookup chatId = some row ∧ row.deletedAt = none := by
  rw [ChatsDb.liveChat, Option.filter_eq_some_iff, Option.isNone_iff_eq_none]

theorem Linkless.not_found (h : Linkless chatId db) (slug : String) :
    (db.findChatBySlug slug).map Chat.id ≠ some chatId := by
  intro hfound
  obtain ⟨chat, hchat, rfl⟩ := Option.map_eq_some_iff.mp hfound
  obtain ⟨row, hlive, hlink⟩ := Effects.row_of_slug hchat
  exact absurd (h row hlive) (by simp [hlink])

/-- The UPDATE does what the constraints of the table allow. -/
theorem setInviteLink_cases {ans : Except DomainError Unit}
    (h : db.setInviteLink chatId slug = (ans, db')) :
    ((∃ e, ans = .error e) ∧ db' = db ∧ ¬ Linkable db chatId slug) ∨
      ans = .ok () ∧ db' = db.updateChat chatId (fun row => { row with inviteLink := some slug }) ∧
        ∀ row, db.liveChat chatId = some row → Linkable db chatId slug := by
  rw [ChatsDb.setInviteLink] at h
  cases hrow : db.chats.lookup chatId with
  | none =>
    simp only [hrow] at h
    obtain ⟨rfl, rfl⟩ := Prod.mk.inj h
    refine .inr ⟨rfl, by simp [ChatsDb.updateChat, hrow], fun row hlive => ?_⟩
    simp [(liveChat_eq.mp hlive).1] at hrow
  | some row =>
    simp only [hrow] at h
    split_ifs at h with hprivate htaken
    · obtain ⟨rfl, rfl⟩ := Prod.mk.inj h
      refine .inl ⟨⟨_, rfl⟩, rfl, ?_⟩
      rintro ⟨row', hlive, htype, -⟩
      obtain rfl := Option.some.inj (hrow.symm.trans (liveChat_eq.mp hlive).1)
      exact htype hprivate
    · obtain ⟨rfl, rfl⟩ := Prod.mk.inj h
      refine .inl ⟨⟨_, rfl⟩, rfl, ?_⟩
      rintro ⟨-, -, -, hfree⟩
      obtain ⟨e, he, htaken⟩ := List.any_eq_true.mp htaken
      obtain ⟨hne, hlink⟩ := of_decide_eq_true htaken
      exact hfree e he hne hlink
    · obtain ⟨rfl, rfl⟩ := Prod.mk.inj h
      refine .inr ⟨rfl, rfl, fun row' hlive => ⟨row', hlive, ?_, fun e he hne hlink => ?_⟩⟩
      · obtain rfl := Option.some.inj (hrow.symm.trans (liveChat_eq.mp hlive).1)
        exact hprivate
      · exact htaken (List.any_eq_true.mpr ⟨e, he, decide_eq_true ⟨hne, hlink⟩⟩)

/-- The slug that was stored leads to the chat. -/
theorem found_of_linkable (h : Linkable db chatId slug) :
    ((db.updateChat chatId (fun row => { row with inviteLink := some slug })).findChatBySlug slug).map
      Chat.id = some chatId := by
  obtain ⟨row, hlive, -, -⟩ := h
  obtain ⟨hrow, hdeleted⟩ := liveChat_eq.mp hlive
  simp only [ChatsDb.updateChat, hrow, ChatsDb.findChatBySlug, AList.entries_insert]
  rw [List.find?_cons_of_pos (by simp [hdeleted])]
  rfl

/-- The statements that store no link for the chat leave it without one. -/
theorem ChatsStep.linkless {now : Timestamp} {c : StoreCmd} (h : ChatsStep now db c db'.chats)
    (hdb : Linkless chatId db) (hcmd : ∀ slug, c ≠ .chat (.setInviteLink chatId slug)) :
    Linkless chatId db' := by
  intro row hlive
  obtain ⟨hrow, hdeleted⟩ := liveChat_eq.mp hlive
  generalize db'.chats = chats at h hrow
  cases h with
  | same => exact hdb row (liveChat_eq.mpr ⟨hrow, hdeleted⟩)
  | @created _ newId new hfresh hlink =>
    by_cases hid : chatId = newId
    · subst hid
      rw [AList.lookup_insert] at hrow
      exact Option.some.inj hrow ▸ hlink
    · rw [AList.lookup_insert_ne hid] at hrow
      exact hdb row (liveChat_eq.mpr ⟨hrow, hdeleted⟩)
  | deleted chatId' =>
    rw [lookup_updateChat_map] at hrow
    obtain ⟨old, hold, rfl⟩ := Option.map_eq_some_iff.mp hrow
    split_ifs at hdeleted ⊢
    exact hdb old (liveChat_eq.mpr ⟨hold, hdeleted⟩)
  | linked chatId' slug =>
    rw [lookup_updateChat_map] at hrow
    obtain ⟨old, hold, rfl⟩ := Option.map_eq_some_iff.mp hrow
    have hne : chatId' ≠ chatId := fun h => hcmd slug (h ▸ rfl)
    rw [if_neg hne] at hdeleted ⊢
    exact hdb old (liveChat_eq.mpr ⟨hold, hdeleted⟩)
  | updated chatId' =>
    rw [lookup_updateChat_map] at hrow
    obtain ⟨old, hold, rfl⟩ := Option.map_eq_some_iff.mp hrow
    split_ifs at hdeleted ⊢
    · exact hdb old (liveChat_eq.mpr ⟨hold, hdeleted⟩)
    · exact hdb old (liveChat_eq.mpr ⟨hold, hdeleted⟩)

end Table

section Requests

/-- Who joins a chat has found it by a slug. -/
def FoundBefore (h : List ((c : StoreCmd) × c.Ans)) : StoreCmd → Prop
  | .chat (.rejoin chatId _) =>
    ∃ slug chat, ⟨.chat (.findChatBySlug slug), some chat⟩ ∈ h ∧ chat.id = chatId
  | _ => True

theorem handler_found (req : Uuid × ChatReq) :
    (chatServer.handler req).Follows FoundBefore (fun _ _ => True) [] := by
  obtain ⟨userId, req⟩ := req
  by_cases hreq : ∃ slug, req = .group (.joinBySlug slug)
  · obtain ⟨slug, rfl⟩ := hreq
    refine ⟨trivial, fun chat => ?_⟩
    cases chat with
    | none => trivial
    | some chat =>
      refine ⟨trivial, fun active => ?_⟩
      cases active
      · refine ⟨⟨slug, chat, List.mem_cons_self, rfl⟩, fun joined => ?_⟩
        cases joined with
        | error e => trivial
        | ok participant => exact ⟨trivial, fun _ => trivial⟩
      · trivial
  · have hasked : (chatServer.handler (userId, req)).Issues (Asked userId req) :=
      handle_asked userId req
    refine hasked.follows (fun h c hc => ?_) (fun _ _ => trivial)
    cases c with
    | chat c =>
      cases c with
      | rejoin =>
        obtain ⟨-, hjoin⟩ := hc
        exact absurd hjoin hreq
      | _ => trivial
    | _ => trivial

/-- What a removal is answered before its UPDATE. -/
def readBefore (userId chatId : Uuid) (role : Option ParticipantRole) (sample : String) :
    List ((c : StoreCmd) × c.Ans) :=
  [⟨.chat (.getParticipantRole userId chatId), role⟩, ⟨.chat .randomSlug, sample⟩]

/-- A removal draws a slug and stores it. -/
def Removes (req : Uuid × ChatReq) (h : List ((c : StoreCmd) × c.Ans)) (c : StoreCmd) : Prop :=
  ∀ chatId, req.2 = .group (.deleteInviteLink chatId) →
    (∀ sample, ⟨.chat .randomSlug, sample⟩ ∉ h) ∧ (∀ slug, c ≠ .chat (.setInviteLink chatId slug)) ∨
      ∃ role sample, h = readBefore req.1 chatId role sample ∧
        c = .chat (.setInviteLink chatId sample.toLower)

/-- A removal succeeds exactly if its UPDATE does. -/
def RemovalEnds (req : Uuid × ChatReq) (h : List ((c : StoreCmd) × c.Ans))
    (out : Except ApiError Response) : Prop :=
  ∀ chatId, req.2 = .group (.deleteInviteLink chatId) → ((∃ response, out = .ok response) ↔
    ∃ role sample, h = readBefore req.1 chatId role sample ++
      [⟨.chat (.setInviteLink chatId sample.toLower), .ok ()⟩])

theorem handler_removes (req : Uuid × ChatReq) :
    (chatServer.handler req).Follows (Removes req) (RemovalEnds req) [] := by
  obtain ⟨userId, req⟩ := req
  by_cases hreq : ∃ chatId, req = .group (.deleteInviteLink chatId)
  · obtain ⟨chatId, rfl⟩ := hreq
    refine ⟨?_, fun role => ?_⟩
    · rintro _ ⟨⟩
      exact .inl ⟨by simp, by rintro _ ⟨⟩⟩
    cases role with
    | none =>
      rintro _ ⟨⟩
      exact iff_of_false (by rintro ⟨_, ⟨⟩⟩) (by rintro ⟨_, _, ⟨⟩⟩)
    | some role =>
      cases role with
      | member | moderator =>
        rintro _ ⟨⟩
        exact iff_of_false (by rintro ⟨_, ⟨⟩⟩) (by rintro ⟨_, _, ⟨⟩⟩)
      | admin | owner =>
        refine ⟨?_, fun sample => ⟨?_, fun stored => ?_⟩⟩
        · rintro _ ⟨⟩
          exact .inl ⟨by simp, by rintro _ ⟨⟩⟩
        · rintro _ ⟨⟩
          exact .inr ⟨_, _, rfl, rfl⟩
        cases stored with
        | error e =>
          rintro _ ⟨⟩
          exact iff_of_false (by rintro ⟨_, ⟨⟩⟩) (by rintro ⟨_, _, ⟨⟩⟩)
        | ok _ =>
          rintro _ ⟨⟩
          exact iff_of_true ⟨_, rfl⟩ ⟨_, _, rfl⟩
  · have hne : ∀ chatId, req ≠ .group (.deleteInviteLink chatId) := fun chatId h => hreq ⟨chatId, h⟩
    exact Prog.follows_of_prefix (fun _ _ _ chatId h => absurd h (hne chatId))
      (fun _ _ _ chatId h => absurd h (hne chatId)) _

end Requests

section Runs

variable {c d : ChatConfig} {chatId : Uuid} {i : Nat} {ω : StoreChoice} {r : Uuid × ChatReq}
  {cmd : StoreCmd} {k : cmd.Ans → Prog StoreCmd StoreCmd.Ans (Except ApiError Response)}
  {ans : cmd.Ans} {s : ChatStore} {a : ChatAct}

theorem exec_setInviteLink {db : ChatStore} {slug : String} {stored : Except DomainError Unit}
    (he : ChatStore.exec ω (.chat (.setInviteLink chatId slug)) db = some (stored, s)) :
    ∃ chats, db.toChatsDb.setInviteLink chatId slug = (stored, chats) ∧ s = db.withChats chats := by
  obtain ⟨rfl, rfl⟩ := Prod.mk.inj (Option.some.inj he)
  exact ⟨_, rfl, rfl⟩

theorem linkless_kept (hc : chatServer.Replays c) (hdb : Linkless chatId c.db.toChatsDb)
    (ht : c.tasks[i]? = some (r, .call cmd k)) (he : ChatStore.exec ω cmd c.db = some (ans, s))
    (hdeleted : ¬ LinkDeleted chatId r cmd ans) (hcreated : ¬ LinkCreated chatId r cmd ans) :
    Linkless chatId s.toChatsDb := by
  by_cases hcmd : ∃ slug, cmd = .chat (.setInviteLink chatId slug)
  · obtain ⟨slug, rfl⟩ := hcmd
    obtain ⟨chats, hset, rfl⟩ := exec_setInviteLink he
    obtain ⟨-, rfl, -⟩ | ⟨rfl, -, -⟩ := setInviteLink_cases hset
    · exact hdb
    · -- only the two requests store a link
      obtain h | h := ((hc.2 i r _ ht).issues (handle_asked r.1 r.2)).2.1
      · exact absurd ⟨h, slug, rfl⟩ hcreated
      · exact absurd ⟨h, slug, rfl⟩ hdeleted
  · exact ChatsStep.linkless (chatsStep_of_exec he) hdb fun slug h => hcmd ⟨slug, h⟩

theorem linkless_opened (hc : chatServer.Replays c) (hp : FindsDeleted chatId c (.step i ω))
    (ht : c.tasks[i]? = some (r, .call cmd k)) (he : ChatStore.exec ω cmd c.db = some (ans, s))
    (hdeleted : LinkDeleted chatId r cmd ans) : Linkless chatId s.toChatsDb := by
  obtain ⟨userId, req⟩ := r
  obtain ⟨rfl, slug, heq⟩ := hdeleted
  cases heq
  obtain ⟨-, hne⟩ | ⟨role, sample, hhist, heq⟩ := (hc.follows handler_removes ht).1 chatId rfl
  · exact absurd rfl (hne slug)
  cases heq
  have hunlinkable := hp userId sample (Config.request_eq ht) (by simp [hhist, readBefore])
  obtain ⟨chats, hset, rfl⟩ := exec_setInviteLink he
  obtain ⟨⟨e, herror⟩, -, -⟩ | ⟨-, rfl, hlinkable⟩ := setInviteLink_cases hset
  · cases herror
  · intro row hlive
    obtain ⟨hrow, hlive⟩ := liveChat_eq.mp hlive
    obtain ⟨old, hold, rfl⟩ := Option.map_eq_some_iff.mp (lookup_updateChat_map.symm.trans hrow)
    rw [if_pos rfl] at hlive
    exact absurd (hlinkable old (liveChat_eq.mpr ⟨hold, hlive⟩)) hunlinkable

/-- The event of a removal that has succeeded. -/
theorem LinkRemoved.since {before later : List StoreEvent} (hc : chatServer.Replays c)
    (h : LinkRemoved chatId c before later) :
    ∃ i slug, Since (LinkDeleted chatId) (LinkCreated chatId) c before
      ⟨i, .chat (.setInviteLink chatId slug), .ok ()⟩ later := by
  obtain ⟨i, userId, slug, ans, response, ht, hlog, hlater⟩ := h
  obtain ⟨role, sample, hhist⟩ := ((hc.follows handler_removes ht) chatId rfl).mp ⟨response, rfl⟩
  have hmem : ⟨.chat (.setInviteLink chatId slug), ans⟩ ∈ c.history i :=
    World.mem_history.mpr (by simp [hlog])
  have hans : ans = .ok () := by
    simp only [hhist, readBefore, List.cons_append, List.nil_append, List.mem_cons,
      List.not_mem_nil, or_false] at hmem
    obtain hmem | hmem | hmem := hmem
    · cases hmem
    · cases hmem
    · cases hmem
      rfl
  subst hans
  exact ⟨i, slug, hlog, ⟨_, Config.request_eq ht, rfl, slug, rfl⟩, hlater⟩

theorem closed_of_every {db : ChatStore} {acts : List ChatAct}
    (h : chatServer.Every (FindsDeleted chatId) acts (System.start db))
    (hd : d ∈ chatServer.trace acts (System.start db)) : Closed chatId d := by
  have hreach := System.reach_of_mem_trace h hd
  have hc := hreach.replays
  intro before later hremoved
  obtain ⟨i, slug, hsince⟩ := hremoved.since hc
  obtain ⟨hless, hthen⟩ := reach_since (J := fun db => Linkless chatId db.toChatsDb) linkless_opened
    linkless_kept (fun hdb ht => Option.some.inj ht ▸ hdb) hreach hsince
  refine ⟨hless.not_found, fun j userId ans hjoined hbegun => ?_⟩
  obtain ⟨middle, rest, rfl⟩ := List.append_of_mem hjoined
  have hlog := hsince.log_eq
  rw [← List.cons_append, ← List.append_assoc] at hlog
  obtain ⟨-, -, -, slug', chat, hfound, rfl⟩ :=
    hc.followed (N := fun _ => FoundBefore) handler_found hlog
  rw [mem_eventsOf] at hfound
  -- the SELECT of the join was executed before the removal, in it, or after it
  obtain hfound | hfound := List.mem_append.mp hfound
  · exact List.ne_nil_of_mem (mem_eventsOf.mpr hfound) hbegun
  obtain hfound | hfound := List.mem_cons.mp hfound
  · cases hfound
  · obtain ⟨ω, db₁, db₂, hless₁, he⟩ := hthen _ (List.mem_append_left _ hfound)
    obtain ⟨hchat, -⟩ := Prod.mk.inj (Option.some.inj he)
    exact hless₁.not_found slug' (congrArg (Option.map Chat.id) hchat)

/-- Nothing comes after the UPDATE of a removal. -/
theorem removal_answered {userId : Uuid} {p : Prog StoreCmd StoreCmd.Ans (Except ApiError Response)}
    {role : Option ParticipantRole} {sample : String}
    (hp : p.Follows (Removes (userId, .group (.deleteInviteLink chatId)))
      (RemovalEnds (userId, .group (.deleteInviteLink chatId)))
      (readBefore userId chatId role sample ++
        [⟨.chat (.setInviteLink chatId sample.toLower), .ok ()⟩])) :
    ∃ response, p = .ret (.ok response) := by
  cases p with
  | ret out =>
    obtain ⟨response, rfl⟩ := (hp chatId rfl).mpr ⟨role, sample, rfl⟩
    exact ⟨response, rfl⟩
  | call cmd k =>
    obtain ⟨hnone, -⟩ | ⟨_, _, hlong, -⟩ := hp.1 chatId rfl
    · exact absurd (by simp [readBefore]) (hnone sample)
    · cases hlong

/-- After the UPDATE of a removal that can store a link, the slug that it has drawn leads to the chat. -/
theorem findsDeleted_of_closed (hc : chatServer.Replays c)
    (ha : chatServer.apply a c = some d) (hd : Closed chatId d) : FindsDeleted chatId c a := by
  obtain ⟨r, rfl, rfl⟩ | ⟨i, ω, r, cmd, k, ans, s, rfl, ht, he, rfl⟩ | ⟨ω, s, rfl, hs, rfl⟩ :=
    System.apply_cases ha
  · trivial
  · intro userId sample hreq hsample hlinkable
    obtain rfl := Option.some.inj ((Config.request_eq ht).symm.trans hreq)
    have hfollows := hc.follows handler_removes ht
    obtain ⟨hnone, -⟩ | ⟨role, sample', hhist, rfl⟩ := hfollows.1 chatId rfl
    · exact hnone sample hsample
    obtain rfl : sample = sample' := by simpa [hhist, readBefore] using hsample
    obtain ⟨chats, hset, rfl⟩ := exec_setInviteLink (ω := ω) he
    obtain ⟨-, -, hnot⟩ | ⟨rfl, rfl, -⟩ := setInviteLink_cases hset
    · exact hnot hlinkable
    have hrest := hfollows.2 (.ok ())
    rw [hhist] at hrest
    obtain ⟨response, hresponse⟩ := removal_answered hrest
    have hlen := (List.getElem?_eq_some_iff.mp ht).1
    refine (hd c.log [] ⟨i, userId, _, .ok (), response, ?_, rfl, by simp⟩).1 sample.toLower
      (found_of_linkable hlinkable)
    rw [List.getElem?_set_self hlen, hresponse]
  · trivial

end Runs

/-- In every run from any state: whenever a `delete_invite_link` of the chat has succeeded and no
link was created since then, no slug leads to the chat and no one who begins to join gets in, exactly
if all these requests find the chat deleted. -/
theorem removed_link_closes_iff (db : ChatStore) (chatId : Uuid) (acts : List ChatAct) :
    chatServer.Every (FindsDeleted chatId) acts (System.start db) ↔
      ∀ d ∈ chatServer.trace acts (System.start db), Closed chatId d := by
  constructor
  · exact fun h d hd => closed_of_every h hd
  · exact System.every_of_trace (J := chatServer.Replays) System.replays_apply
      findsDeleted_of_closed acts (System.replays_start db)

def draw (now : Timestamp) : StoreChoice := ⟨⟨theGroup, now, "aB3dE6gH9jKl"⟩, false, [], true⟩

/-- Alice takes the link of her group away, which it does not even have. Bob joins by the new one. -/
def reopened : List ChatAct :=
  [.spawn (alice, .group (.createGroup "friends" [])), .step 0 (draw 10), .step 0 (draw 11),
    .spawn (alice, .group (.deleteInviteLink theGroup)), .step 1 (draw 12), .step 1 (draw 13),
    .step 1 (draw 14), .spawn (bob, .group (.joinBySlug "ab3de6gh9jkl")), .step 2 (draw 15),
    .step 2 (draw 16), .step 2 (draw 17)]

theorem removed_link_joined :
    (¬ ∀ d ∈ chatServer.trace reopened (System.start (.empty [alice, bob])), Closed theGroup d) ∧
      ((chatServer.run reopened (System.start (.empty [alice, bob]))).db.activeRow theGroup bob).isSome := by
  refine ⟨fun h => ?_, by decide +kernel⟩
  have hevery : chatServer.Every (FindsDeleted theGroup) reopened _ :=
    System.every_of_trace (J := chatServer.Replays) System.replays_apply findsDeleted_of_closed
      reopened (System.replays_start _) h
  obtain ⟨-, -, -, -, -, -, hupdate, -⟩ := hevery
  refine hupdate alice "aB3dE6gH9jKl" rfl (List.mem_of_getElem? (i := 1) rfl) ⟨_, rfl, by decide, ?_⟩
  intro e he hne
  obtain rfl := List.mem_singleton.mp he
  exact absurd rfl hne

end Mesty.Groups.InviteLinks
