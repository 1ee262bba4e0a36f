import Mesty.Chats.Reads
import Mesty.Groups.Entitlement

namespace Mesty.Chats.Confidentiality

open Mesty.Base.Ids Mesty.Base.Error Mesty.Concurrency.Program Mesty.Concurrency.Pool
open Mesty.Concurrency.Visits
open Mesty.Chats.Entities Mesty.Chats.Repository Mesty.Chats.Messages Mesty.Chats.Store Mesty.Chats.Reads
open Mesty.Chats.Handlers (ChatReq)
open Mesty.Chats.Listing (ListQuery ChatCursor ChatPreview chatCursorErrors chatPreviews
  previewToResponse)
open Mesty.Chats.Sync (toSync syncMessagesAfter)
open Mesty.Groups.Handlers (ParticipantDetailResponse chatToResponse participantToResponse)
open Mesty.Groups.Entitlement (MemberChange Entitled Elsewhere Vouches)
open Mesty.Paging.Keyset Mesty.Paging.LookAhead
open ReadTask

abbrev ReadConfig := Config ReadCmd ReadCmd.Ans ChatStore (Uuid × ReadReq)
  (Except ApiError ReadResponse)

abbrev ReadAct := Act (Uuid × ReadReq) ReadChoice

abbrev ReadAsked := List ((c : ReadCmd) × c.Ans)

def Member (db : ChatStore) (userId chatId : Uuid) : Prop := (db.memberOfLiveChat userId chatId).isSome

/-- The page that one look at the messages of a chat yields. -/
def messagesPage (codec : CursorCodec) (db : ChatStore) (chatId : Uuid) (query : ListMessagesQuery) :
    Except ApiError (Page MessageResponse String) := do
  let limit := clampLimit (query.limit.getD 50)
  let direction ← MessageDirection.parse query.direction
  let decodedCursor ← decodeMessageCursor codec query.cursor
  let rows := selectMessages db chatId decodedCursor direction (clampLimit (limit + 1)).toNat
  cutPage limit (buildMessageCursor codec) (inOrder direction rows)

section Pages

variable {db : ChatStore} {userId chatId : Uuid}

theorem ensure_of_member (h : Member db userId chatId) :
    db.toMessagesDb.ensureActiveMembership userId chatId = .ok () := by
  obtain ⟨row, hrow⟩ := Option.isSome_iff_exists.mp h
  obtain ⟨hlive, hactive⟩ := Option.filter_eq_some_iff.mp hrow
  rw [MessagesDb.ensureActiveMembership, if_pos ⟨hactive, by rw [hlive, Option.isSome_some]⟩]

/-- For a member this is the page of `list_messages`. -/
theorem listMessages_eq (codec : CursorCodec) (query : ListMessagesQuery)
    (h : Member db userId chatId) :
    Messages.listMessages codec db.toMessagesDb userId chatId query = messagesPage codec db chatId query := by
  simp only [Messages.listMessages, messagesPage, MessagesDb.listMessages, ensure_of_member h, ok_bind]
  congr 1
  funext direction
  congr 1
  funext cursor
  cases direction <;> rfl

end Pages

/-- A sync has asked for no messages, or the SELECT has failed. -/
def NotRead (userId : Uuid) (since : Option Timestamp) (h : ReadAsked) : Prop :=
  since = none ∨ ∃ since' e, since = some since' ∧
    ⟨.selectMessagesSince userId since' 100, .error e⟩ ∈ h

/-- How an answer comes from what was asked. -/
def Told (lib : ReadLib) (userId : Uuid) (h : ReadAsked) (resp : ReadResponse) : ReadReq → Prop
  | .store _ => ∃ response, resp = .store response
  | .listMessages chatId query => ∃ page cursor direction rows, resp = .messages page ∧
      List.Sublist [⟨.store (.verifyParticipant userId chatId), true⟩,
        ⟨.selectMessages chatId cursor direction
          (clampLimit (clampLimit (query.limit.getD 50) + 1)).toNat,
          .ok rows⟩] h ∧
      MessageDirection.parse query.direction = .ok direction ∧
      decodeMessageCursor lib.messages query.cursor = .ok cursor ∧
      cutPage (clampLimit (query.limit.getD 50)) (buildMessageCursor lib.messages)
        (inOrder direction rows) = .ok page
  | .syncRequest since => ∃ messages, resp = .sync messages ∧
      ((messages = [] ∧ NotRead userId since h) ∨ ∃ since' rows, since = some since' ∧
        ⟨.selectMessagesSince userId since' 100, .ok rows⟩ ∈ h ∧ messages = rows.map toSync)
  | .getChat chatId => ∃ chat, resp = .chat (chatToResponse chat) ∧
      ⟨.store (.chat (.getChatForUser userId chatId)), some chat⟩ ∈ h
  | .listChats query => ∃ cursor rows page,
      ⟨.selectChats userId cursor (clamp (clamp (query.limit.getD 20) 50 + 1) 50).toNat, .ok rows⟩ ∈ h ∧
      lib.chats.read chatCursorErrors query.cursor = .ok cursor ∧
      cutPage (clamp (query.limit.getD 20) 50)
        (fun item => lib.chats.write chatCursorErrors item.cursor) rows = .ok page ∧
      resp = .chats ⟨page.items.map previewToResponse, page.next, page.hasMore⟩
  | .listParticipants chatId => ∃ rows, List.Sublist
      [⟨.store (.verifyParticipant userId chatId), true⟩, ⟨.selectParticipants chatId, .ok rows⟩] h ∧
      resp = .participants (rows.map participantToResponse) rows.length

section Protocol

variable {α β : Type} {lib : ReadLib} {userId chatId : Uuid} {req : ReadReq} {h : ReadAsked}

abbrev Ends (lib : ReadLib) (r : Uuid × ReadReq) (h : ReadAsked) (out : Except ApiError ReadResponse) :
    Prop := ∀ resp, out = .ok resp → Told lib r.1 h resp r.2

abbrev Tells (lib : ReadLib) (r : Uuid × ReadReq) (h : ReadAsked) (t : ReadTask ReadResponse) : Prop :=
  t.run.Follows (fun _ _ => True) (Ends lib r) h

theorem ends_error {r : Uuid × ReadReq} {e : ApiError} : Ends lib r h (.error e) := by
  rintro resp ⟨⟩

theorem tells_return {r : Uuid × ReadReq} {resp : ReadResponse} (hresp : Told lib r.1 h resp r.2) :
    Tells lib r h (return resp) := fun _ heq => Except.ok.inj heq ▸ hresp

theorem tells_ofResult {r : Uuid × ReadReq} {e : Except DomainError β} {f : β → ReadTask ReadResponse}
    (hf : ∀ b, e = .ok b → Tells lib r h (f b)) : Tells lib r h (ofResult e >>= f) := by
  cases e with
  | error e => exact ends_error
  | ok b => exact hf b rfl

theorem tells_ensure {r : Uuid × ReadReq} {f : Unit → ReadTask ReadResponse}
    (hf : Tells lib r (h ++ [⟨.store (.verifyParticipant userId chatId), true⟩]) (f ())) :
    Tells lib r h (ensureActiveMembership userId chatId >>= f) := by
  rw [ensureActiveMembership, bind_assoc]
  refine ⟨trivial, fun found => ?_⟩
  cases found with
  | false => exact ends_error
  | true => exact hf

theorem listMessages_told {query : ListMessagesQuery} :
    Tells lib (userId, .listMessages chatId query) []
      (listMessages lib.messages userId chatId query) := by
  refine tells_ofResult fun direction hdirection => tells_ofResult fun cursor hcursor => ?_
  simp only [listMessageRows, bind_assoc, pure_bind]
  refine tells_ensure ⟨trivial, fun found => ?_⟩
  cases found with
  | error e => exact ends_error
  | ok rows =>
    refine tells_ofResult fun page hpage => tells_return ?_
    exact ⟨page, cursor, direction, rows, rfl, by simp, hdirection, hcursor, hpage⟩

theorem syncRequest_told {since : Option Timestamp} :
    Tells lib (userId, .syncRequest since) [] (syncRequest userId since) := by
  cases since with
  | none => exact tells_return ⟨[], rfl, .inl ⟨rfl, .inl rfl⟩⟩
  | some since =>
    refine ⟨trivial, fun found => ?_⟩
    cases found with
    | error e => exact tells_return ⟨[], rfl, .inl ⟨rfl, .inr ⟨since, e, rfl, by simp⟩⟩⟩
    | ok rows => exact tells_return ⟨_, rfl, .inr ⟨since, rows, rfl, by simp, rfl⟩⟩

theorem getChat_told : Tells lib (userId, .getChat chatId) [] (getChat userId chatId) := by
  refine ⟨trivial, fun found => ?_⟩
  cases found with
  | none => exact ends_error
  | some chat => exact tells_return ⟨chat, rfl, by simp⟩

theorem listChats_told {query : ListQuery} :
    Tells lib (userId, .listChats query) [] (listChats lib.chats userId query) := by
  refine tells_ofResult fun cursor hcursor => ⟨trivial, fun found => ?_⟩
  cases found with
  | error e => exact ends_error
  | ok rows =>
    refine tells_ofResult fun page hpage => tells_return ?_
    exact ⟨cursor, rows, page, by simp, hcursor, hpage, rfl⟩

theorem listParticipants_told :
    Tells lib (userId, .listParticipants chatId) [] (listParticipants userId chatId) := by
  refine tells_ensure ⟨trivial, fun found => ?_⟩
  cases found with
  | error e => exact ends_error
  | ok rows => exact tells_return ⟨rows, by simp, rfl⟩

theorem handle_told (lib : ReadLib) (r : Uuid × ReadReq) :
    ((readServer lib).handler r).Follows (fun _ _ => True) (Ends lib r) [] := by
  obtain ⟨userId, req⟩ := r
  cases req with
  | store req =>
    refine Prog.follows_run_bind.mpr (Prog.follows_of_prefix (fun _ _ _ => trivial) ?_ _)
    intro h' out _
    cases out with
    | error e => exact ends_error
    | ok response => exact tells_return ⟨response, rfl⟩
  | listMessages chatId query => exact listMessages_told
  | syncRequest since => exact syncRequest_told
  | getChat chatId => exact getChat_told
  | listChats query => exact listChats_told
  | listParticipants chatId => exact listParticipants_told

end Protocol

/-- At some moment of the run that starts at `c`, the tables were like this. -/
def Moment (lib : ReadLib) (acts : List ReadAct) (c : ReadConfig) (P : ChatStore → Prop) : Prop :=
  ∃ before, before <+: acts ∧ P ((readServer lib).run before c).db

/-- The tables were like `P` at some moment of the run, and like `Q` then or later. -/
def Then (lib : ReadLib) (acts : List ReadAct) (c : ReadConfig) (P Q : ChatStore → Prop) : Prop :=
  ∃ before upTo, before <+: upTo ∧ upTo <+: acts ∧ P ((readServer lib).run before c).db ∧
    Q ((readServer lib).run upTo c).db

/-- These are the active members of the chat, as `joined_at` orders them. -/
def Enumerates (db : ChatStore) (chatId : Uuid) (participants : List ParticipantDetailResponse) : Prop :=
  ∃ entries : List MemberEntry, entries.Perm (activeEntries db chatId) ∧
    entries.Pairwise (fun e e' => e.2.joinedAt ≤ e'.2.joinedAt) ∧
    participants = entries.map (fun e => participantToResponse (e.2.toDetail e.1.1 e.1.2))

/-- The answer of task `i` is what one look at the tables yields, at some moment of the run. Where
membership is checked by a statement of its own, the look comes after the check. A sync that has not
read is answered with no messages. -/
def Snapshot (lib : ReadLib) (acts : List ReadAct) (c : ReadConfig) (i : Nat) (userId : Uuid)
    (resp : ReadResponse) : ReadReq → Prop
  | .store _ => ∃ response, resp = .store response
  | .listMessages chatId query => ∃ page, resp = .messages page ∧
      Then lib acts c (fun db => Member db userId chatId)
        (fun db => messagesPage lib.messages db chatId query = .ok page)
  | .syncRequest since => ∃ messages, resp = .sync messages ∧
      ((messages = [] ∧ NotRead userId since (((readServer lib).run acts c).history i)) ∨
        ∃ since', since = some since' ∧ Moment lib acts c (fun db => ∃ scan, scan.Perm db.messages ∧
          messages = syncMessagesAfter db.toMessagesDb scan userId since'))
  | .getChat chatId => ∃ chat, resp = .chat (chatToResponse chat) ∧ Moment lib acts c (fun db =>
      ∃ row, db.memberOfLiveChat userId chatId = some row ∧ chat = row.toChat chatId)
  | .listChats query => ∃ page, resp = .chats page ∧
      Moment lib acts c (fun db => Listing.listChats lib.chats db userId query = .ok page)
  | .listParticipants chatId => ∃ participants, resp = .participants participants participants.length ∧
      Then lib acts c (fun db => Member db userId chatId) (fun db => Enumerates db chatId participants)

/-- Every answer to a request that arrives after `c`. -/
def AnswersSnapshots (lib : ReadLib) (acts : List ReadAct) (c : ReadConfig) : Prop :=
  let d := (readServer lib).run acts c
  ∀ i userId req resp, c.tasks.length ≤ i → d.request i = some (userId, req) →
    answerOf d i = some (.ok resp) → Snapshot lib acts c i userId resp req

section Moments

variable {lib : ReadLib} {acts : List ReadAct} {c : ReadConfig} {i : Nat} {P Q : ChatStore → Prop}

theorem moment_of_answer (hc : (readServer lib).Replays c) (hi : c.tasks.length ≤ i) {cmd : ReadCmd}
    {ans : cmd.Ans} (hmem : ⟨cmd, ans⟩ ∈ ((readServer lib).run acts c).history i)
    (hP : ∀ ω db db', exec ω cmd db = some (ans, db') → P db) : Moment lib acts c P := by
  obtain ⟨before, ω, s, hle, -, hexec⟩ := answered_at hc hi hmem
  exact ⟨before, hle, hP ω _ s hexec⟩

theorem then_of_answers (hc : (readServer lib).Replays c) (hi : c.tasks.length ≤ i)
    {cmd cmd' : ReadCmd}
    {ans : cmd.Ans} {ans' : cmd'.Ans}
    (hsub : List.Sublist [⟨cmd, ans⟩, ⟨cmd', ans'⟩] (((readServer lib).run acts c).history i))
    (hP : ∀ ω db db', exec ω cmd db = some (ans, db') → P db)
    (hQ : ∀ ω db db', exec ω cmd' db = some (ans', db') → Q db) : Then lib acts c P Q := by
  obtain ⟨before, upTo, ω, ω', s, s', hle, hle', hexec, hexec'⟩ := answered_in_order hc hi hsub
  exact ⟨before, upTo, hle, hle', hP ω _ s hexec, hQ ω' _ s' hexec'⟩

theorem member_of_verify {userId chatId : Uuid} (ω : ReadChoice) (db db' : ChatStore)
    (he : exec ω (.store (.verifyParticipant userId chatId)) db = some (true, db')) :
    Member db userId chatId := (Prod.mk.inj (Option.some.inj he)).1

theorem orFault_ok {α : Type} {ω : ReadChoice} {out rows : α} (h : orFault ω out = .ok rows) : rows = out := by
  rw [orFault] at h
  split at h
  · exact (Except.ok.inj h).symm
  · cases h

theorem listChats_eq {db : ChatStore} {userId : Uuid} {query : ListQuery} {cursor : Option ChatCursor}
    {page : Page ChatPreview String}
    (hcursor : lib.chats.read chatCursorErrors query.cursor = .ok cursor)
    (hpage : cutPage (clamp (query.limit.getD 20) 50)
      (fun item => lib.chats.write chatCursorErrors item.cursor)
      (selectChats db userId cursor (clamp (clamp (query.limit.getD 20) 50 + 1) 50).toNat) = .ok page) :
    Listing.listChats lib.chats db userId query =
      .ok ⟨page.items.map previewToResponse, page.next, page.hasMore⟩ := by
  rw [Listing.listChats, listing, listPage, hcursor, ok_bind, Listing.listChatsForUser, ok_bind]
  change (cutPage _ _ (selectChats db userId cursor _) >>= _) = _
  rw [hpage, ok_bind]
  rfl

theorem enumerates_select (db : ChatStore) (members : List MemberEntry) (chatId : Uuid) :
    Enumerates db chatId ((selectParticipants db members chatId).map participantToResponse) := by
  refine ⟨_, ?_, ?_, List.map_map ..⟩
  · refine (List.mergeSort_perm _ _).trans ?_
    split_ifs with hperm
    · exact hperm
    · exact List.Perm.refl _
  · refine (List.pairwise_mergeSort (fun x y z hxy hyz => ?_) (fun x y => ?_) _).imp
      fun h => of_decide_eq_true h
    · rw [decide_eq_true_eq] at *
      exact hxy.trans hyz
    · rw [Bool.or_eq_true, decide_eq_true_eq, decide_eq_true_eq]
      exact le_total _ _

theorem snapshot_of_answer (hc : (readServer lib).Replays c)
    (hd : (readServer lib).Replays ((readServer lib).run acts c)) (hi : c.tasks.length ≤ i)
    {userId : Uuid} {req : ReadReq} {resp : ReadResponse}
    (hreq : ((readServer lib).run acts c).request i = some (userId, req))
    (hanswer : answerOf ((readServer lib).run acts c) i = some (.ok resp)) :
    Snapshot lib acts c i userId resp req := by
  obtain ⟨r, hr, ht⟩ := answerOf_eq_some hanswer
  obtain rfl := Option.some.inj (hr.symm.trans hreq)
  have htold := hd.follows (handle_told lib) ht resp rfl
  cases req with
  | store req => exact htold
  | listMessages chatId query =>
    obtain ⟨page, cursor, direction, rows, rfl, hsub, hdirection, hcursor, hpage⟩ := htold
    refine ⟨page, rfl, then_of_answers hc hi hsub member_of_verify fun ω db db' he => ?_⟩
    obtain rfl := orFault_ok (Prod.mk.inj (Option.some.inj he)).1
    rw [messagesPage, hdirection, ok_bind, hcursor, ok_bind]
    exact hpage
  | syncRequest since =>
    obtain ⟨messages, rfl, ⟨rfl, hnone⟩ | ⟨since', rows, rfl, hmem, rfl⟩⟩ := htold
    · exact ⟨[], rfl, .inl ⟨rfl, hnone⟩⟩
    · refine ⟨_, rfl, .inr ⟨since', rfl, moment_of_answer hc hi hmem fun ω db db' he => ?_⟩⟩
      obtain rfl := orFault_ok (Prod.mk.inj (Option.some.inj he)).1
      refine ⟨_, ?_, rfl⟩
      split_ifs with hperm
      · exact hperm
      · exact List.Perm.refl _
  | getChat chatId =>
    obtain ⟨chat, rfl, hmem⟩ := htold
    refine ⟨chat, rfl, moment_of_answer hc hi hmem fun ω db db' he => ?_⟩
    have hfound : (db.liveChat chatId).bind (fun row => (db.activeRow chatId userId).map
        (fun _ => row.toChat chatId)) = some chat := (Prod.mk.inj (Option.some.inj he)).1
    obtain ⟨row, hrow, hactive⟩ := Option.bind_eq_some_iff.mp hfound
    obtain ⟨member, hmember, rfl⟩ := Option.map_eq_some_iff.mp hactive
    exact ⟨row, Option.filter_eq_some_iff.mpr ⟨hrow, by rw [hmember, Option.isSome_some]⟩, rfl⟩
  | listChats query =>
    obtain ⟨cursor, rows, page, hmem, hcursor, hpage, rfl⟩ := htold
    refine ⟨_, rfl, moment_of_answer hc hi hmem fun ω db db' he => ?_⟩
    obtain rfl := orFault_ok (Prod.mk.inj (Option.some.inj he)).1
    exact listChats_eq hcursor hpage
  | listParticipants chatId =>
    obtain ⟨rows, hsub, rfl⟩ := htold
    refine ⟨rows.map participantToResponse, by rw [List.length_map],
      then_of_answers hc hi hsub member_of_verify fun ω db db' he => ?_⟩
    obtain rfl := orFault_ok (Prod.mk.inj (Option.some.inj he)).1
    exact enumerates_select db ω.members chatId

end Moments

theorem replays_run (lib : ReadLib) (db : ChatStore) (acts : List ReadAct) :
    (readServer lib).Replays ((readServer lib).run acts (System.start db)) :=
  System.Reach.replays (System.reach_run acts (System.start db))

theorem replays_run_run (lib : ReadLib) (db : ChatStore) (acts acts' : List ReadAct) :
    (readServer lib).Replays
      ((readServer lib).run acts' ((readServer lib).run acts (System.start db))) :=
  System.Reach.replays ((System.reach_run acts (System.start db)).trans (System.reach_run acts' _))

/-- Whatever requests run side by side with it, an answer is a snapshot. -/
theorem answersSnapshots (lib : ReadLib) (db : ChatStore) (acts acts' : List ReadAct) :
    AnswersSnapshots lib acts' ((readServer lib).run acts (System.start db)) :=
  fun _ _ _ _ hi hreq hanswer =>
    snapshot_of_answer (replays_run lib db acts) (replays_run_run lib db acts acts') hi hreq hanswer

/-- The answers to the statements of the requests that write. -/
def storeAsked (h : ReadAsked) : Groups.Entitlement.Asked :=
  h.filterMap (fun e => match e with
    | ⟨.store c, ans⟩ => some ⟨c, ans⟩
    | _ => none)

/-- Requests that read write nothing, and the others write to chats and members as they may. -/
def Lifted (r : Uuid × ReadReq) (h : ReadAsked) : ReadCmd → Prop
  | .store c => Elsewhere c ∨ ∃ req, r.2 = .store req ∧ Entitled (r.1, req) (storeAsked h) c
  | _ => True

section Authority

variable {lib : ReadLib} {userId chatId : Uuid} {r : Uuid × ReadReq}

theorem mem_of_storeAsked {h : ReadAsked} {c : StoreCmd} {ans : c.Ans}
    (hmem : ⟨c, ans⟩ ∈ storeAsked h) :
    ⟨.store c, ans⟩ ∈ h := by
  obtain ⟨⟨cmd, ans'⟩, he, heq⟩ := List.mem_filterMap.mp hmem
  cases cmd with
  | store c' =>
    obtain rfl := Sigma.mk.inj (Option.some.inj heq) |>.1
    obtain rfl := eq_of_heq (Sigma.mk.inj (Option.some.inj heq)).2
    exact he
  | _ => cases heq

/-- The statements of the requests that read. -/
def Reading : ReadCmd → Prop
  | .store c => Elsewhere c
  | _ => True

theorem lifted_of_reading (h : ReadAsked) (c : ReadCmd) (hc : Reading c) : Lifted r h c := by
  cases c with
  | store c => exact .inl hc
  | _ => trivial

theorem ensure_reading : (ensureActiveMembership userId chatId).run.Issues Reading := by
  refine ⟨trivial, fun found => ?_⟩
  cases found <;> trivial

theorem ofResult_reading {α : Type} {e : Except DomainError α} : (ofResult e).run.Issues Reading := trivial

theorem listMessages_reading {codec : CursorCodec} {query : ListMessagesQuery} :
    (listMessages codec userId chatId query).run.Issues Reading := by
  refine ofResult_reading.tryBind fun direction => ofResult_reading.tryBind fun cursor => ?_
  refine Prog.Issues.tryBind ?_ fun rows => ofResult_reading.tryBind fun page => trivial
  refine ensure_reading.tryBind fun _ => ⟨trivial, fun rows => ?_⟩
  cases rows <;> trivial

theorem syncRequest_reading {since : Option Timestamp} : (syncRequest userId since).run.Issues Reading := by
  cases since with
  | none => trivial
  | some since =>
    refine ⟨trivial, fun rows => ?_⟩
    cases rows <;> trivial

theorem listChats_reading {codec : Codec ChatCursor} {query : ListQuery} :
    (listChats codec userId query).run.Issues Reading := by
  refine ofResult_reading.tryBind fun cursor => ⟨trivial, fun rows => ?_⟩
  cases rows with
  | error e => trivial
  | ok rows => exact ofResult_reading.tryBind fun page => trivial

theorem handle_lifted (lib : ReadLib) (r : Uuid × ReadReq) :
    ((readServer lib).handler r).Follows (Lifted r) (fun _ _ => True) [] := by
  obtain ⟨userId, req⟩ := r
  have hreading : (handle lib userId req).run.Issues Reading →
      ((readServer lib).handler (userId, req)).Follows (Lifted (userId, req)) (fun _ _ => True) [] :=
    fun h => h.follows lifted_of_reading fun _ _ => trivial
  cases req with
  | store req =>
    refine Prog.follows_run_bind.mpr (Prog.Follows.embedded storeAsked ?_ ?_ ?_
      (Groups.Entitlement.handle_entitled (userId, req)))
    · intro h' c ans
      rw [storeAsked, List.filterMap_append]
      rfl
    · exact fun h' c hentitled => .inr ⟨req, rfl, hentitled⟩
    · intro h' out _
      cases out <;> trivial
  | listMessages chatId query => exact hreading listMessages_reading
  | syncRequest since => exact hreading syncRequest_reading
  | getChat chatId => exact hreading ⟨trivial, fun found => by cases found <;> trivial⟩
  | listChats query => exact hreading listChats_reading
  | listParticipants chatId =>
    refine hreading (ensure_reading.tryBind fun _ => ⟨trivial, fun rows => ?_⟩)
    cases rows <;> trivial

end Authority

/-- At some moment of the run from `db` on, the request being there, the tables were like this. -/
def AtSome (lib : ReadLib) (db : ChatStore) (acts : List ReadAct) (i : Nat) (P : ChatStore → Prop) : Prop :=
  ∃ before, before <+: acts ∧ i < ((readServer lib).run before (System.start db)).tasks.length ∧
    P ((readServer lib).run before (System.start db)).db

/-- A move of the run after `acts` has made the user a member, by a request entitled to it. -/
def Admitted (lib : ReadLib) (db : ChatStore) (acts acts' : List ReadAct) (chatId userId : Uuid) : Prop :=
  ∃ before a later, acts' = before ++ a :: later ∧
    let c := (readServer lib).run (acts ++ before) (System.start db)
    c.db.activeRow chatId userId = none ∧ ∃ i ω actor req row, a = .step i ω ∧
      c.request i = some (actor, .store req) ∧ row.leftAt = none ∧
      MemberChange (AtSome lib db (acts ++ before) i) (actor, req) c.db chatId userId row

/-- The answer shows a message, a member or the properties of the chat. -/
def Shows (chatId : Uuid) : ReadResponse → Prop
  | .store _ => False
  | .messages page => ∃ m ∈ page.items, m.chatId = chatId
  | .sync messages => ∃ m ∈ messages, m.chatId = chatId
  | .chat chat => chat.id = chatId
  | .chats page => ∃ preview ∈ page.items, preview.chatId = chatId
  | .participants participants _ => ∃ p ∈ participants, p.chatId = chatId

/-- Who is not a member of a chat is shown nothing of it by any later request, unless they are
admitted. -/
def OutsidersLearnNothing (lib : ReadLib) (db : ChatStore) (acts acts' : List ReadAct) : Prop :=
  let c := (readServer lib).run acts (System.start db)
  let d := (readServer lib).run acts' c
  ∀ chatId userId, c.db.activeRow chatId userId = none → ∀ i req resp, c.tasks.length ≤ i →
    d.request i = some (userId, req) → answerOf d i = some (.ok resp) → Shows chatId resp →
      Admitted lib db acts acts' chatId userId

section Outsiders

variable {lib : ReadLib} {db : ChatStore} {userId chatId : Uuid}

theorem active_of_member (h : Member db userId chatId) : (db.activeRow chatId userId).isSome := by
  obtain ⟨row, hrow⟩ := Option.isSome_iff_exists.mp h
  exact (Option.filter_eq_some_iff.mp hrow).2

theorem items_of_messagesPage {codec : CursorCodec} {query : ListMessagesQuery}
    {page : Page MessageResponse String} (h : messagesPage codec db chatId query = .ok page) :
    ∀ m ∈ page.items, m.chatId = chatId := by
  intro m hm
  rw [messagesPage] at h
  cases hdirection : MessageDirection.parse query.direction with
  | error e =>
    rw [hdirection] at h
    cases h
  | ok direction =>
    cases hcursor : decodeMessageCursor codec query.cursor with
    | error e =>
      rw [hdirection, ok_bind, hcursor] at h
      cases h
    | ok cursor =>
      rw [hdirection, ok_bind, hcursor, ok_bind] at h
      have hrow := cutPage_subset h hm
      have hlive : m ∈ db.live chatId := by
        cases direction with
        | before => exact (mem_select (List.mem_reverse.mp hrow)).1
        | after => exact (mem_select hrow).1
      exact (of_decide_eq_true (List.mem_filter.mp hlive).2).1

theorem Then.first {acts : List ReadAct} {c : ReadConfig} {P Q : ChatStore → Prop}
    (h : Then lib acts c P Q) : Moment lib acts c P := by
  obtain ⟨before, upTo, hle, hle', hP, -⟩ := h
  exact ⟨before, hle.trans hle', hP⟩

theorem Moment.mono {acts : List ReadAct} {c : ReadConfig} {P Q : ChatStore → Prop}
    (h : Moment lib acts c P) (hPQ : ∀ db, P db → Q db) : Moment lib acts c Q := by
  obtain ⟨before, hle, hP⟩ := h
  exact ⟨before, hle, hPQ _ hP⟩

theorem active_of_sync {scan : List ChatMessage} {since : Timestamp}
    (hshows : ∃ m ∈ syncMessagesAfter db.toMessagesDb scan userId since, m.chatId = chatId) :
    (db.activeRow chatId userId).isSome := by
  obtain ⟨m, hm, rfl⟩ := hshows
  obtain ⟨row, hrow, rfl⟩ := List.mem_map.mp hm
  rw [Sync.listMessagesSince] at hrow
  have hvisible := (List.mem_filter.mp (Paging.Resume.mem_pageAfter _ hrow)).2
  exact (of_decide_eq_true hvisible).1

theorem active_of_preview {preview : ChatPreview} (h : preview ∈ chatPreviews db userId) :
    (db.activeRow preview.chatId userId).isSome := by
  obtain ⟨e, he, hpreview⟩ := List.mem_filterMap.mp h
  obtain ⟨⟨huser, hactive⟩, hlive⟩ := Option.ite_none_right_eq_some.mp hpreview
  obtain ⟨row, -, rfl⟩ := Option.map_eq_some_iff.mp hlive
  have hrow : db.participant e.1.1 userId = some e.2 := by
    rw [← huser]
    exact AList.mem_lookup_iff.mpr he
  change (db.activeRow e.1.1 userId).isSome
  rw [Groups.Effects.activeRow_eq.mpr ⟨hrow, hactive⟩, Option.isSome_some]

theorem active_of_listChats {codec : Codec ChatCursor} {query : ListQuery}
    {page : Page Listing.ChatPreviewResponse String}
    (h : Listing.listChats codec db userId query = .ok page) {preview : Listing.ChatPreviewResponse}
    (hmem : preview ∈ page.items) : (db.activeRow preview.chatId userId).isSome := by
  rw [Listing.listChats, listing, listPage] at h
  cases hcursor : codec.read chatCursorErrors query.cursor with
  | error e =>
    rw [hcursor] at h
    cases h
  | ok cursor =>
    rw [hcursor, ok_bind, Listing.listChatsForUser, ok_bind] at h
    cases hpage : cutPage (clamp (query.limit.getD 20) 50)
        (fun item : ChatPreview => codec.write chatCursorErrors item.cursor)
        (select ChatPreview.rank (cursor.map ChatCursor.rank)
          (clamp (clamp (query.limit.getD 20) 50 + 1) 50).toNat (chatPreviews db userId)) with
    | error e =>
      rw [hpage] at h
      cases h
    | ok rows =>
      rw [hpage] at h
      obtain rfl := Except.ok.inj h
      obtain ⟨row, hrow, rfl⟩ := List.mem_map.mp hmem
      exact active_of_preview (mem_select (cutPage_subset hpage hrow)).1

theorem chatId_of_enumerates {participants : List ParticipantDetailResponse}
    (h : Enumerates db chatId participants) : ∀ p ∈ participants, p.chatId = chatId := by
  obtain ⟨entries, hperm, -, rfl⟩ := h
  intro p hp
  obtain ⟨e, he, rfl⟩ := List.mem_map.mp hp
  exact (of_decide_eq_true (List.mem_filter.mp (hperm.mem_iff.mp he)).2).1

/-- Somebody whom a snapshot shows something of the chat was a member of it. -/
theorem active_of_shows {acts : List ReadAct} {c : ReadConfig} {i : Nat} {resp : ReadResponse}
    {req : ReadReq} (h : Snapshot lib acts c i userId resp req) (hshows : Shows chatId resp) :
    Moment lib acts c (fun db => (db.activeRow chatId userId).isSome) := by
  cases req with
  | store req =>
    obtain ⟨response, rfl⟩ := h
    exact absurd hshows id
  | listMessages chatId' query =>
    obtain ⟨page, rfl, hthen⟩ := h
    obtain ⟨m, hm, rfl⟩ := hshows
    have hmember := hthen.first.mono fun _ => active_of_member
    obtain ⟨-, upTo, -, -, -, hpage⟩ := hthen
    rwa [items_of_messagesPage hpage m hm]
  | syncRequest since =>
    obtain ⟨messages, rfl, ⟨rfl, -⟩ | ⟨since', -, hmoment⟩⟩ := h
    · obtain ⟨m, hm, -⟩ := hshows
      cases hm
    · refine hmoment.mono fun db hscan => ?_
      obtain ⟨scan, -, rfl⟩ := hscan
      exact active_of_sync hshows
  | getChat chatId' =>
    obtain ⟨chat, rfl, hmoment⟩ := h
    refine hmoment.mono fun db hchat => ?_
    obtain ⟨row, hrow, rfl⟩ := hchat
    obtain rfl : chatId' = chatId := hshows
    exact active_of_member (Option.isSome_of_mem hrow)
  | listChats query =>
    obtain ⟨page, rfl, hmoment⟩ := h
    obtain ⟨preview, hmem, rfl⟩ := hshows
    exact hmoment.mono fun db hpage => active_of_listChats hpage hmem
  | listParticipants chatId' =>
    obtain ⟨participants, rfl, hthen⟩ := h
    obtain ⟨p, hp, rfl⟩ := hshows
    have hmember := hthen.first.mono fun _ => active_of_member
    obtain ⟨-, upTo, -, -, -, henum⟩ := hthen
    rwa [chatId_of_enumerates henum p hp]

theorem vouches_run (lib : ReadLib) (db : ChatStore) (acts : List ReadAct) (i : Nat) :
    Vouches (storeAsked (((readServer lib).run acts (System.start db)).history i))
      (AtSome lib db acts i) := by
  intro cmd ans P hmem hP
  obtain ⟨before, ω, s, hle, hi, hexec⟩ :=
    answered_at (System.replays_start db) (Nat.zero_le i) (mem_of_storeAsked hmem)
  exact ⟨before, hle, hi, hP ω.toStoreChoice _ s hexec⟩

/-- A row of `chat_participants` is written by a request that is entitled to it. -/
theorem member_written {acts : List ReadAct} {a : ReadAct} {e : ReadConfig}
    (ha : (readServer lib).apply a ((readServer lib).run acts (System.start db)) = some e)
    (h : e.db.participant chatId userId ≠
      ((readServer lib).run acts (System.start db)).db.participant chatId userId) :
    ∃ i ω actor req row, a = .step i ω ∧
      ((readServer lib).run acts (System.start db)).request i = some (actor, .store req) ∧
      e.db.participant chatId userId = some row ∧ MemberChange (AtSome lib db acts i) (actor, req)
        ((readServer lib).run acts (System.start db)).db chatId userId row := by
  have hreplays := System.Reach.replays (System.reach_run (S := readServer lib) acts (System.start db))
  obtain ⟨r, rfl, rfl⟩ | ⟨i, ω, ⟨actor, req⟩, cmd, k, ans, s, rfl, ht, he, rfl⟩ | ⟨ω, s, rfl, hs, rfl⟩ :=
    System.apply_cases ha
  · exact absurd rfl h
  · have hlifted := (hreplays.follows (handle_lifted lib) ht).1
    cases cmd with
    | store c =>
      obtain helsewhere | ⟨req', rfl, hentitled⟩ := hlifted
      · exact absurd (Groups.Entitlement.participant_elsewhere helsewhere he) h
      · obtain ⟨row, hrow, hchange⟩ :=
          Groups.Entitlement.memberChange_of_exec (vouches_run lib db acts i) hentitled he h
        exact ⟨i, ω, actor, req', row, rfl, Config.request_eq ht, hrow, hchange⟩
    | _ =>
      obtain ⟨-, rfl⟩ := Prod.mk.inj (Option.some.inj he)
      exact absurd rfl h
  · obtain rfl := Option.some.inj hs
    exact absurd rfl h

end Outsiders

end Mesty.Chats.Confidentiality
