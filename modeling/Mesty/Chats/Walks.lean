import Mesty.Chats.Authorship
import Mesty.Chats.Confidentiality
import Mesty.Chats.Erasure
import Mesty.Chats.History
import Mesty.Paging.Drift

namespace Mesty.Chats.Walks

open Mesty.Base.Ids Mesty.Base.Error Mesty.Concurrency.Program Mesty.Concurrency.Pool
open Mesty.Concurrency.Visits
open Mesty.Chats.Messages Mesty.Chats.Store Mesty.Chats.Reads Mesty.Chats.Confidentiality
open Mesty.Chats.History (effectiveLimit effectiveLimit_pos clampLimit_succ live_keys_nodup buildMessageCursor_eq)
open Mesty.Chats.Authorship (header headers_of_exec)
open Mesty.Paging.Keyset Mesty.Paging.LookAhead Mesty.Paging.Drift

/-- The pages of a client that asks for the messages of a chat upwards and follows `next_cursor` while
`has_more` is true. Its requests have come after the first `n` of the run. -/
def Walked (d : ReadConfig) (n : Nat) (userId chatId : Uuid) (limit : Option Int) :
    Option String → List (Page MessageResponse String) → Prop
  | _, [] => False
  | cursor, page :: pages =>
    (∃ i, n ≤ i ∧ d.request i = some (userId, .listMessages chatId ⟨cursor, limit, some "after"⟩) ∧
      answerOf d i = some (.ok (.messages page))) ∧
    if page.hasMore then Walked d n userId chatId limit page.next pages else pages = []

/-- The items ascend, each has been there between `c` and `d`, and none that was there all the time
is missing. -/
def Whole (lib : ReadLib) (acts : List ReadAct) (c : ReadConfig) (chatId : Uuid)
    (items : List MessageResponse) : Prop :=
  items.Pairwise (fun m m' => m.key < m'.key) ∧ (items.map ChatMessage.id).Nodup ∧
    (∀ m ∈ items, Moment lib acts c (fun db => m ∈ db.live chatId)) ∧
    ∀ m ∈ c.db.live chatId, m.id ∈ (((readServer lib).run acts c).db.live chatId).map ChatMessage.id →
      m.id ∈ items.map ChatMessage.id

section Kept

/-- Messages stay in their place, and what is deleted stays deleted. -/
def Keeps (db db' : ChatStore) : Prop :=
  ∀ m ∈ db.messages, ∃ m' ∈ db'.messages, m'.id = m.id ∧ m'.chatId = m.chatId ∧
    m'.createdAt = m.createdAt ∧ (m.deletedAt.isSome → m'.deletedAt.isSome)

variable {lib : ReadLib} {db db' db'' : ChatStore} {chatId : Uuid} {m : ChatMessage}

theorem Keeps.refl (db : ChatStore) : Keeps db db := fun m hm => ⟨m, hm, rfl, rfl, rfl, id⟩

theorem Keeps.trans (h : Keeps db db') (h' : Keeps db' db'') : Keeps db db'' := by
  intro m hm
  obtain ⟨m', hm', hid, hchat, hat, hdeleted⟩ := h m hm
  obtain ⟨m'', hm'', hid', hchat', hat', hdeleted'⟩ := h' m' hm'
  exact ⟨m'', hm'', hid'.trans hid, hchat'.trans hchat, hat'.trans hat, fun h => hdeleted' (hdeleted h)⟩

theorem keeps_of_exec {ω : StoreChoice} {cmd : StoreCmd} {ans : cmd.Ans}
    (he : ChatStore.exec ω cmd db = some (ans, db')) : Keeps db db' := by
  intro m hm
  obtain ⟨m', hm', hid, hchat, hdeleted⟩ := (Erasure.rewrites_of_exec he).kept hm
  obtain ⟨m'', hm'', hheader⟩ := List.mem_map.mp ((headers_of_exec he).subset (List.mem_map_of_mem hm))
  obtain ⟨hid', -, -, -, -, -, hat⟩ := Authorship.Header.mk.inj hheader
  obtain rfl := List.inj_on_of_nodup_map db'.uniqueIds hm' hm'' (hid.trans hid'.symm)
  exact ⟨m', hm', hid, hchat, hat, hdeleted⟩

theorem keeps_apply {c d : ReadConfig} {a : ReadAct} (ha : (readServer lib).apply a c = some d) :
    Keeps c.db d.db := by
  obtain ⟨r, rfl, rfl⟩ | ⟨i, ω, r, cmd, k, ans, s, rfl, ht, he, rfl⟩ | ⟨ω, s, rfl, hs, rfl⟩ :=
    System.apply_cases ha
  · exact .refl _
  · cases cmd with
    | store c => exact keeps_of_exec he
    | _ =>
      obtain ⟨-, rfl⟩ := Prod.mk.inj (Option.some.inj he)
      exact .refl _
  · obtain rfl := Option.some.inj hs
    exact .refl _

theorem keeps_run (lib : ReadLib) (acts : List ReadAct) (c : ReadConfig) :
    Keeps c.db ((readServer lib).run acts c).db :=
  (System.reach_run acts c).invariant (J := fun d => Keeps c.db d.db)
    (fun hJ _ ha => hJ.trans (keeps_apply ha)) (.refl _)

/-- What is there before and after is there in between. -/
theorem key_mem_between (hbefore : Keeps db db') (hafter : Keeps db' db'') (hm : m ∈ db.live chatId)
    (hstays : m.id ∈ (db''.live chatId).map ChatMessage.id) :
    m.key ∈ (db'.live chatId).map ChatMessage.key := by
  obtain ⟨hmem, hlive⟩ := List.mem_filter.mp hm
  obtain ⟨m', hm', hid, hchat, hat, -⟩ := hbefore m hmem
  obtain ⟨m'', hm'', hid', -, -, hdeleted⟩ := hafter m' hm'
  obtain ⟨final, hfinal, hidfinal⟩ := List.mem_map.mp hstays
  obtain ⟨hfinal, hfinallive⟩ := List.mem_filter.mp hfinal
  obtain rfl := List.inj_on_of_nodup_map db''.uniqueIds hm'' hfinal
    ((hid'.trans hid).trans hidfinal.symm)
  have hnot : m'.deletedAt = none := by
    by_contra hsome
    have hgone := hdeleted (Option.isSome_iff_ne_none.mpr hsome)
    rw [(of_decide_eq_true hfinallive).2] at hgone
    cases hgone
  refine List.mem_map.mpr ⟨m', List.mem_filter.mpr ⟨hm', decide_eq_true ⟨?_, hnot⟩⟩, ?_⟩
  · exact hchat.trans (of_decide_eq_true hlive).1
  · rw [ChatMessage.key, ChatMessage.key, hat, hid]

/-- The identifier of a message determines its place. -/
theorem key_eq_of_id {db₁ db₂ : ChatStore} {m₁ m₂ : ChatMessage} (h₁ : Keeps db₁ db)
    (h₂ : Keeps db₂ db)
    (hm₁ : m₁ ∈ db₁.messages) (hm₂ : m₂ ∈ db₂.messages) (hid : m₁.id = m₂.id) : m₁.key = m₂.key := by
  obtain ⟨m, hm, hid₁, -, hat₁, -⟩ := h₁ m₁ hm₁
  obtain ⟨m', hm', hid₂, -, hat₂, -⟩ := h₂ m₂ hm₂
  obtain rfl := List.inj_on_of_nodup_map db.uniqueIds hm hm' (hid₁.trans (hid.trans hid₂.symm))
  rw [ChatMessage.key, ChatMessage.key, ← hat₁, ← hat₂, hid]

end Kept

section Pages

variable {codec : CursorCodec} {db : ChatStore} {chatId : Uuid} {limit : Option Int}
  {cursor : Option String} {page : Page MessageResponse String}

/-- Below the largest limit a page is the next rows, and says whether there are more. -/
theorem page_after (hcodec : codec.RoundTrips) (hlimit : effectiveLimit limit < 50)
    {decoded : Option MessageCursor} (hcursor : decodeMessageCursor codec cursor = .ok decoded)
    (h : messagesPage codec db chatId ⟨cursor, limit, some "after"⟩ = .ok page) :
    page.items = select ChatMessage.key (decoded.map MessageCursor.key) (effectiveLimit limit)
        (db.live chatId) ∧
      (page.hasMore = false → ((db.live chatId).filter (fun m =>
        ∀ k ∈ decoded.map MessageCursor.key, k < m.key)).length ≤ effectiveLimit limit) ∧
      (page.hasMore = true → ∃ last, page.items.getLast? = some last ∧
        decodeMessageCursor codec page.next = .ok (some ⟨last.createdAt, last.id⟩)) := by
  have hn : clampLimit (limit.getD 50) = (effectiveLimit limit : Int) := by
    simp only [effectiveLimit, clampLimit]
    omega
  have hahead : (clampLimit ((effectiveLimit limit : Int) + 1)).toNat = effectiveLimit limit + 1 := by
    rw [← hn, clampLimit_succ, Nat.min_eq_left hlimit]
  have hpos := effectiveLimit_pos limit
  have hparse : MessageDirection.parse (some "after") = .ok .after := rfl
  rw [messagesPage, hparse, ok_bind, hcursor, ok_bind] at h
  simp only [hn, hahead, inOrder, selectMessages] at h
  obtain ⟨hitems, hmore, hnext⟩ := cutPage_ok h
  generalize hbound : decoded.map MessageCursor.key = bound at *
  have hlength :
      (sortBy ChatMessage.key ((db.live chatId).filter (fun m => ∀ k ∈ bound, k < m.key))).length =
        ((db.live chatId).filter (fun m => ∀ k ∈ bound, k < m.key)).length :=
    (sortBy_perm _).length_eq
  refine ⟨?_, fun hfalse => ?_, fun htrue => ?_⟩
  · rw [hitems, select, select, List.take_take, Nat.min_eq_left (Nat.le_succ _)]
  · rw [hmore, decide_eq_false_iff_not, select, List.length_take, hlength] at hfalse
    omega
  · rw [hmore, decide_eq_true_eq] at htrue
    obtain ⟨last, hlast⟩ := History.exists_last_take hpos htrue
    rw [← hitems] at hlast
    refine ⟨last, hlast, ?_⟩
    obtain ⟨text, hbuild, hdecode⟩ := buildMessageCursor_eq hcodec last
    rw [hlast, Option.mapM_some, hbuild] at hnext
    obtain hnext := Except.ok.inj hnext
    rw [← hnext]
    exact hdecode

end Pages

section Walk

variable {lib : ReadLib} {acts : List ReadAct} {c : ReadConfig} {userId chatId : Uuid}
  {limit : Option Int}

/-- The messages of the chat in a state of the run. -/
def Tables (lib : ReadLib) (acts : List ReadAct) (c : ReadConfig) (chatId : Uuid)
    (rows : List ChatMessage) : Prop := Moment lib acts c (fun db => rows = db.live chatId)

theorem drifting_of_walked (hcodec : lib.messages.RoundTrips) (hlimit : effectiveLimit limit < 50)
    (hc : (readServer lib).Replays c) (hd : (readServer lib).Replays ((readServer lib).run acts c))
    {cursor : Option String} {decoded : Option MessageCursor}
    (hcursor : decodeMessageCursor lib.messages cursor = .ok decoded)
    {pages : List (Page MessageResponse String)}
    (h : Walked ((readServer lib).run acts c) c.tasks.length userId chatId limit cursor pages) :
    Drifting ChatMessage.key (Tables lib acts c chatId) (effectiveLimit limit)
      (decoded.map MessageCursor.key) (pages.map Page.items) := by
  induction pages generalizing cursor decoded with
  | nil => exact h
  | cons page pages ih =>
    obtain ⟨⟨i, hi, hreq, hanswer⟩, hlater⟩ := h
    obtain ⟨page', hpage', -, upTo, -, hle, -, hpage⟩ := snapshot_of_answer hc hd hi hreq hanswer
    obtain rfl := ReadResponse.messages.inj hpage'
    obtain ⟨hitems, hlast, hnext⟩ := page_after hcodec hlimit hcursor hpage
    refine ⟨_, ⟨upTo, hle, rfl⟩, hitems, ?_⟩
    cases hmore : page.hasMore with
    | false =>
      rw [hmore, if_neg Bool.false_ne_true] at hlater
      exact .inl ⟨by rw [hlater, List.map_nil], hlast hmore⟩
    | true =>
      rw [hmore, if_pos rfl] at hlater
      obtain ⟨last, hgetLast, hdecode⟩ := hnext hmore
      exact .inr ⟨last, hgetLast, ih hdecode hlater⟩

theorem tables_nodup : ∀ rows, Tables lib acts c chatId rows → (rows.map ChatMessage.key).Nodup := by
  rintro rows ⟨before, -, rfl⟩
  exact live_keys_nodup _ chatId

end Walk

/-- A client that reads a chat upwards while messages are sent, edited and deleted gets every message
once that is there from its first request on to its last answer. -/
theorem walk_whole {lib : ReadLib} (hcodec : lib.messages.RoundTrips) (db : ChatStore)
    (acts acts' : List ReadAct) (userId chatId : Uuid) (limit : Option Int)
    (hlimit : effectiveLimit limit < 50) {pages : List (Page MessageResponse String)}
    (hwalk : Walked ((readServer lib).run acts' ((readServer lib).run acts (System.start db)))
      ((readServer lib).run acts (System.start db)).tasks.length userId chatId limit none pages) :
    Whole lib acts' ((readServer lib).run acts (System.start db)) chatId
      (pages.flatMap Page.items) := by
  have hstart : decodeMessageCursor lib.messages none = .ok none := rfl
  have hdrift := drifting_of_walked hcodec hlimit (replays_run lib db acts)
    (replays_run_run lib db acts acts') hstart hwalk
  have hitems : pages.flatMap Page.items = (pages.map Page.items).flatten := List.flatMap_def
  generalize (readServer lib).run acts (System.start db) = c at *
  have hsorted := sorted_of_drifting tables_nodup hdrift
  have hseen := seen_of_drifting hdrift
  rw [Whole, hitems]
  have hmoment : ∀ m ∈ (pages.map Page.items).flatten, Moment lib acts' c
    (fun db => m ∈ db.live chatId) := by
    intro m hm
    obtain ⟨rows, ⟨before, hle, rfl⟩, hmem⟩ := hseen m hm
    exact ⟨before, hle, hmem⟩
  have hkeeps {before : List ReadAct} (hle : before <+: acts') :
      Keeps ((readServer lib).run before c).db ((readServer lib).run acts' c).db := by
    obtain ⟨rest, rfl⟩ := hle
    rw [run_append]
    exact keeps_run lib rest _
  refine ⟨hsorted, ?_, hmoment, fun m hm hstays => ?_⟩
  · refine List.pairwise_map.mpr (hsorted.imp_of_mem fun {x y} hx hy hlt hid => ?_)
    obtain ⟨before, hle, hx⟩ := hmoment x hx
    obtain ⟨before', hle', hy⟩ := hmoment y hy
    exact hlt.ne (key_eq_of_id (hkeeps hle) (hkeeps hle') (List.mem_filter.mp hx).1
      (List.mem_filter.mp hy).1 hid)
  · have hkey := complete_of_drifting tables_nodup hdrift (k := m.key) (by
      rintro rows ⟨before, hle, rfl⟩
      exact key_mem_between (keeps_run lib before c) (hkeeps hle) hm hstays) (by simp)
    obtain ⟨x, hx, hkey⟩ := List.mem_map.mp hkey
    exact List.mem_map.mpr ⟨x, hx, congrArg (fun k => (ofLex k).2) hkey⟩

def alice : Uuid := .ofNat 1

def theChat : Uuid := .ofNat 4

def twoInChat : ChatStore where
  toMessagesDb := History.twoMessages
  statuses := ∅
  reactions := ∅
  settings := ∅
  blocks := []
  notifications := []
  uniqueNotifications := by decide

def lib : ReadLib := ⟨History.twoCursors, Listing.chatTable.codec⟩

def choice : ReadChoice := ⟨⟨⟨.ofNat 9, 1700000002000000, ""⟩, true, [], true⟩, none, [], []⟩

/-- Alice reads the chat message by message and edits the newer one meanwhile. -/
def editedWhileRead : List ReadAct :=
  [.spawn (alice, .listMessages theChat ⟨none, some 1, some "after"⟩), .step 0 choice,
    .spawn (alice, .store (.editMessage theChat (.ofNat 6) (some "other") (some "iv"))), .step 1 choice,
    .step 1 choice, .step 0 choice, .step 1 choice, .step 1 choice,
    .spawn (alice, .listMessages theChat ⟨some History.olderText, some 1, some "after"⟩), .step 2 choice,
    .step 2 choice]

def editedMessage : ChatMessage :=
  { History.newer with contentEncrypted := some "other", editedAt := some 1700000002000000 }

def twoPages : List (Page MessageResponse String) :=
  [⟨[History.older], some History.olderText, true⟩, ⟨[editedMessage], some History.newerText, false⟩]

set_option maxRecDepth 20000 in
theorem two_pages_walked : Walked ((readServer lib).run editedWhileRead (System.start twoInChat)) 0 alice
    theChat (some 1) none twoPages :=
  ⟨⟨0, by decide, rfl, rfl⟩, ⟨2, by decide, rfl, rfl⟩, rfl⟩

theorem two_pages_whole : Whole lib editedWhileRead (System.start twoInChat) theChat
    [History.older, editedMessage] :=
  walk_whole History.twoCursors_roundTrips twoInChat [] editedWhileRead alice theChat (some 1) (by decide)
    two_pages_walked

end Mesty.Chats.Walks
