import Mathlib.Logic.Denumerable
import Mathlib.Logic.Equiv.List
import Mesty.Chats.Messages

namespace Mesty.Chats.History

open Mesty.Base.Ids Mesty.Base.Error Mesty.Chats.Entities Mesty.Chats.Repository
open Mesty.Chats.Messages Mesty.Paging.Keyset

/-- The messages of a chat from the oldest to the newest. -/
def history (db : MessagesDb) (chatId : Uuid) : List ChatMessage :=
  sortBy ChatMessage.key (db.live chatId)

/-- Some number of requests exhausts the history, and the pages contain every message once:
page by page towards the oldest for `before`, towards the newest for `after`. -/
def HistoryWalked (codec : CursorCodec) (db : MessagesDb) (userId chatId : Uuid)
    (limit : Option Int) (direction : Option String) (d : MessageDirection) : Prop :=
  ∃ fuel pages, walkHistory codec db userId chatId limit direction fuel = some pages ∧
    (match d with | .before => pages.reverse | .after => pages).flatten = history db chatId

/-- The number of items that a page may have. -/
def effectiveLimit (limit : Option Int) : Nat := (clampLimit (limit.getD 50)).toNat

theorem effectiveLimit_pos (limit : Option Int) : 1 ≤ effectiveLimit limit := by
  simp only [effectiveLimit, clampLimit]
  omega

theorem effectiveLimit_le (limit : Option Int) : effectiveLimit limit ≤ 50 := by
  simp only [effectiveLimit, clampLimit]
  omega

variable {codec : CursorCodec} {db : MessagesDb} {userId chatId : Uuid}
  {limit : Option Int} {direction : Option String} {d : MessageDirection}

theorem live_keys_nodup (db : MessagesDb) (chatId : Uuid) :
    ((db.live chatId).map ChatMessage.key).Nodup := by
  have hids : ((db.live chatId).map ChatMessage.id).Nodup :=
    db.uniqueIds.sublist (List.filter_sublist.map _)
  refine List.Nodup.of_map (fun k => (ofLex k).2) ?_
  rwa [List.map_map]

theorem history_sorted (db : MessagesDb) (chatId : Uuid) :
    (history db chatId).Pairwise (fun x y => x.key < y.key) :=
  sortBy_sorted (live_keys_nodup db chatId)

theorem history_length (db : MessagesDb) (chatId : Uuid) :
    (history db chatId).length = (db.live chatId).length :=
  (sortBy_perm _).length_eq

/-- The rows that the repository returns to a member. -/
def rows (db : MessagesDb) (chatId : Uuid) (d : MessageDirection) (bound : Option (Int ×ₗ Uuid))
    (n : Nat) : List ChatMessage :=
  match d with
  | .before => (select (OrderDual.toDual ∘ ChatMessage.key) (bound.map OrderDual.toDual) n
      (db.live chatId)).reverse
  | .after => select ChatMessage.key bound n (db.live chatId)

theorem rows_after (bound : Option (Int ×ₗ Uuid)) (n : Nat) :
    rows db chatId .after bound n =
      ((history db chatId).filter (fun m => ∀ k ∈ bound, k < m.key)).take n :=
  select_eq (live_keys_nodup db chatId) bound n

theorem rows_before_none (n : Nat) :
    rows db chatId .before none n = ((history db chatId).reverse.take n).reverse := by
  have hdual : ((db.live chatId).map (OrderDual.toDual ∘ ChatMessage.key)).Nodup := by
    rw [← List.map_map]
    exact (live_keys_nodup db chatId).map OrderDual.toDual.injective
  simp only [rows, Option.map_none]
  rw [select_eq hdual, sortBy_dual (live_keys_nodup db chatId)]
  simp [history]

theorem mem_rows_before {k : Int ×ₗ Uuid} {n : Nat} {m : ChatMessage}
    (h : m ∈ rows db chatId .before (some k) n) : m.key < k := by
  simp only [rows, List.mem_reverse] at h
  exact (mem_select h).2 _ rfl

theorem rows_length_le (db : MessagesDb) (chatId : Uuid) (d : MessageDirection) (bound : Option (Int ×ₗ Uuid)) (n : Nat) :
    (rows db chatId d bound n).length ≤ n := by
  cases d <;> simp [rows, select]

theorem buildMessageCursor_eq (hcodec : codec.RoundTrips) (m : ChatMessage) :
    ∃ text, buildMessageCursor codec m = .ok text ∧
      decodeMessageCursor codec (some text) = .ok (some ⟨m.createdAt, m.id⟩) := by
  obtain ⟨bytes, hto, hfrom⟩ := hcodec.fromSlice_toVec ⟨m.createdAt, m.id⟩
  refine ⟨codec.encode bytes, by simp [buildMessageCursor, hto], ?_⟩
  simp [decodeMessageCursor, hcodec.decode_encode, hfrom]

/-- The repository clamps the look-ahead row away when the page is full-sized. -/
theorem clampLimit_succ (limit : Option Int) :
    (clampLimit (clampLimit (limit.getD 50) + 1)).toNat = min (effectiveLimit limit + 1) 50 := by
  simp only [effectiveLimit, clampLimit]
  omega

theorem db_listMessages_eq (hmember : db.ensureActiveMembership userId chatId = .ok ())
    (cursor : Option MessageCursor) (limit : Int) :
    db.listMessages userId chatId cursor d limit =
      .ok (rows db chatId d (cursor.map MessageCursor.key) (clampLimit limit).toNat) := by
  rw [MessagesDb.listMessages, hmember]
  cases d <;> rfl

theorem hasMore_eq (limit : Option Int) (fetched : List ChatMessage) :
    decide ((fetched.length : Int) > clampLimit (limit.getD 50)) =
      decide (effectiveLimit limit < fetched.length) := by
  rw [decide_eq_decide]
  simp only [effectiveLimit, clampLimit]
  omega

theorem truncate_eq (n : Nat) (fetched : List ChatMessage) :
    (if decide (n < fetched.length) = true then fetched.take n else fetched) = fetched.take n := by
  split_ifs with h
  · rfl
  · exact (List.take_of_length_le (by simpa using h)).symm

theorem exists_last_take {n : Nat} {fetched : List ChatMessage} (hpos : 1 ≤ n)
    (h : n < fetched.length) : ∃ m, (fetched.take n).getLast? = some m := by
  rw [← Option.isSome_iff_exists, List.getLast?_isSome]
  exact List.ne_nil_of_length_pos (by rw [List.length_take]; omega)

/-- What the handler answers to a member. -/
theorem listMessages_eq (hcodec : codec.RoundTrips)
    (hmember : db.ensureActiveMembership userId chatId = .ok ())
    (hd : MessageDirection.parse direction = .ok d) (limit : Option Int) (cursor : Option String)
    (decoded : Option MessageCursor) (hcursor : decodeMessageCursor codec cursor = .ok decoded)
    {fetched : List ChatMessage} (hfetched : rows db chatId d (decoded.map MessageCursor.key)
      (min (effectiveLimit limit + 1) 50) = fetched) :
    ∃ next, listMessages codec db userId chatId ⟨cursor, limit, direction⟩ =
        .ok ⟨fetched.take (effectiveLimit limit), next,
          decide (effectiveLimit limit < fetched.length)⟩ ∧
      ∀ m, (fetched.take (effectiveLimit limit)).getLast? = some m →
        decodeMessageCursor codec next = .ok (some ⟨m.createdAt, m.id⟩) := by
  have hnext : ∃ next, (fetched.take (effectiveLimit limit)).getLast?.mapM
        (buildMessageCursor codec) = .ok next ∧
      ∀ m, (fetched.take (effectiveLimit limit)).getLast? = some m →
        decodeMessageCursor codec next = .ok (some ⟨m.createdAt, m.id⟩) := by
    cases (fetched.take (effectiveLimit limit)).getLast? with
    | none => exact ⟨none, rfl, by simp⟩
    | some m =>
      obtain ⟨text, hbuild, hdecode⟩ := buildMessageCursor_eq hcodec m
      refine ⟨some text, by simp [hbuild], ?_⟩
      rintro _ ⟨⟩
      exact hdecode
  obtain ⟨next, hbuild, hdecode⟩ := hnext
  refine ⟨next, ?_, hdecode⟩
  have hlimit : (clampLimit (limit.getD 50)).toNat = effectiveLimit limit := rfl
  simp only [listMessages, hd, hcursor, db_listMessages_eq hmember, clampLimit_succ, ok_bind,
    hfetched, hasMore_eq, hlimit, truncate_eq, hbuild]
  rfl

abbrev fetch (codec : CursorCodec) (db : MessagesDb) (userId chatId : Uuid) (limit : Option Int)
    (direction cursor : Option String) : Option (Page MessageResponse String) :=
  (listMessages codec db userId chatId ⟨cursor, limit, direction⟩).toOption

theorem rows_none_of_le {n : Nat} (h : (db.live chatId).length ≤ n) :
    rows db chatId d none n = history db chatId := by
  rw [← history_length] at h
  cases d with
  | before => rw [rows_before_none, List.take_of_length_le (by simpa using h), List.reverse_reverse]
  | after => simpa [rows_after] using List.take_of_length_le h

/-- A history that fits in one page is complete. -/
theorem walked_of_le (hcodec : codec.RoundTrips)
    (hmember : db.ensureActiveMembership userId chatId = .ok ())
    (hd : MessageDirection.parse direction = .ok d)
    (h : (db.live chatId).length ≤ effectiveLimit limit) :
    HistoryWalked codec db userId chatId limit direction d := by
  have hle := effectiveLimit_le limit
  obtain ⟨next, heq, -⟩ := listMessages_eq hcodec hmember hd limit none none rfl (rows_none_of_le (by omega))
  rw [← history_length] at h
  rw [List.take_of_length_le h, decide_eq_false (by omega)] at heq
  refine ⟨1, [history db chatId], by simp [walkHistory, walk, heq, Except.toOption], ?_⟩
  cases d <;> simp

/-- Upwards, below the maximal limit, every page ends where the next one begins. -/
theorem walked_after (hcodec : codec.RoundTrips)
    (hmember : db.ensureActiveMembership userId chatId = .ok ())
    (hd : MessageDirection.parse direction = .ok .after) (h : effectiveLimit limit < 50) :
    HistoryWalked codec db userId chatId limit direction .after := by
  let rest (cursor : Option String) : List ChatMessage :=
    match decodeMessageCursor codec cursor with
    | .error _ => []
    | .ok decoded => (history db chatId).filter
        (fun m => ∀ k ∈ decoded.map MessageCursor.key, k < m.key)
  have hpos := effectiveLimit_pos limit
  have hstep : ∀ cursor, (∃ decoded, decodeMessageCursor codec cursor = .ok decoded) →
      ∃ p, fetch codec db userId chatId limit direction cursor = some p ∧
        ((p.hasMore = false ∧ p.items = rest cursor) ∨ (p.hasMore = true ∧ p.items ≠ [] ∧
          (∃ decoded, decodeMessageCursor codec p.next = .ok decoded) ∧
          rest cursor = p.items ++ rest p.next)) := by
    rintro cursor ⟨decoded, hcursor⟩
    have hrest : rest cursor = (history db chatId).filter
        (fun m => ∀ k ∈ decoded.map MessageCursor.key, k < m.key) := by simp only [rest, hcursor]
    have hfetched : rows db chatId .after (decoded.map MessageCursor.key)
        (min (effectiveLimit limit + 1) 50) = (rest cursor).take (effectiveLimit limit + 1) := by
      rw [rows_after, hrest, Nat.min_eq_left h]
    obtain ⟨next, heq, hnext⟩ := listMessages_eq hcodec hmember hd limit cursor decoded hcursor hfetched
    rw [List.take_take, Nat.min_eq_left (Nat.le_succ _)] at heq hnext
    refine ⟨_, by rw [fetch, heq]; rfl, ?_⟩
    rw [List.length_take]
    rcases Nat.lt_or_ge (effectiveLimit limit) (rest cursor).length with hlt | hge
    · refine .inr ⟨by simp [hlt], ?_, ?_⟩
      · exact List.ne_nil_of_length_pos (by rw [List.length_take]; omega)
      · obtain ⟨m, hm⟩ := exists_last_take hpos hlt
        have hdecode := hnext m hm
        refine ⟨⟨_, hdecode⟩, ?_⟩
        rw [hrest] at hm
        have hdrop := filter_after_take (history_sorted db chatId) hm
        have : rest next = (rest cursor).drop (effectiveLimit limit) := by
          rw [hrest, ← hdrop]
          simp only [rest, hdecode]
          rfl
        rw [this, List.take_append_drop]
    · exact .inl ⟨by simp; omega, List.take_of_length_le hge⟩
  obtain ⟨pages, hwalk, hflat⟩ := walk_complete hstep none ⟨none, rfl⟩
    (Nat.lt_succ_self _)
  refine ⟨_, pages, hwalk, hflat.trans ?_⟩
  simp [rest, decodeMessageCursor]

/-- At the maximal limit there is no look-ahead row, so the first page is the last. -/
theorem not_walked_of_max (hcodec : codec.RoundTrips)
    (hmember : db.ensureActiveMembership userId chatId = .ok ())
    (hd : MessageDirection.parse direction = .ok d) (hmax : effectiveLimit limit = 50)
    (h : 50 < (db.live chatId).length) :
    ¬ HistoryWalked codec db userId chatId limit direction d := by
  rintro ⟨fuel, pages, hwalk, hflat⟩
  obtain ⟨next, heq, -⟩ := listMessages_eq hcodec hmember hd limit none none rfl rfl
  have hlen := rows_length_le db chatId d none (min (effectiveLimit limit + 1) 50)
  simp only [Option.map_none] at heq
  rw [decide_eq_false (by omega)] at heq
  cases fuel with
  | zero => cases hwalk
  | succ fuel =>
    simp only [walkHistory, walk, heq, Except.toOption, Option.bind_some, Bool.false_eq_true,
      if_false, Option.some.injEq] at hwalk
    subst hwalk
    have := congrArg List.length hflat
    rw [history_length] at this
    cases d <;> simp at this <;> omega

/-- Downwards the look-ahead row is the oldest, but the newest is cut off. -/
theorem first_page_lt {front : List ChatMessage} {m : ChatMessage} {n : Nat}
    (hsplit : history db chatId = front ++ [m]) (hn : n ≤ front.length) :
    ∀ x ∈ (rows db chatId .before none (n + 1)).take n, x.key < m.key := by
  have hrows : rows db chatId .before none (n + 1) = (front.reverse.take n).reverse ++ [m] := by
    rw [rows_before_none, hsplit]
    simp
  have hlen : (front.reverse.take n).reverse.length = n := by simp [hn]
  have hsorted := history_sorted db chatId
  rw [hsplit, List.pairwise_append] at hsorted
  intro x hx
  rw [hrows, List.take_left' hlen, List.mem_reverse] at hx
  exact hsorted.2.2 x (List.mem_reverse.mp (List.mem_of_mem_take hx)) m List.mem_cons_self

theorem not_walked_before (hcodec : codec.RoundTrips)
    (hmember : db.ensureActiveMembership userId chatId = .ok ())
    (hd : MessageDirection.parse direction = .ok .before) (hmax : effectiveLimit limit < 50)
    (h : effectiveLimit limit < (db.live chatId).length) :
    ¬ HistoryWalked codec db userId chatId limit direction .before := by
  rw [← history_length] at h
  obtain ⟨front, m, hsplit⟩ : ∃ front m, history db chatId = front ++ [m] :=
    (List.eq_nil_or_concat' _).resolve_left (List.ne_nil_of_length_pos (by omega))
  have hfront : effectiveLimit limit ≤ front.length := by
    rw [hsplit, List.length_append, List.length_singleton] at h
    omega
  have hbelow : ∀ cursor p, (∃ decoded, decodeMessageCursor codec cursor = .ok decoded ∧
        ∀ c ∈ decoded, c.key ≤ m.key) →
      fetch codec db userId chatId limit direction cursor = some p →
        (∀ x ∈ p.items, x ≠ m) ∧ (p.hasMore = true →
          ∃ decoded, decodeMessageCursor codec p.next = .ok decoded ∧ ∀ c ∈ decoded, c.key ≤ m.key) := by
    rintro cursor p ⟨decoded, hcursor, hbound⟩ hp
    obtain ⟨next, heq, hnext⟩ := listMessages_eq hcodec hmember hd limit cursor decoded hcursor rfl
    rw [Nat.min_eq_left hmax] at heq hnext
    rw [fetch, heq] at hp
    obtain rfl := Option.some.inj hp
    have hlt : ∀ x ∈ (rows db chatId .before (decoded.map MessageCursor.key)
        (effectiveLimit limit + 1)).take (effectiveLimit limit), x.key < m.key := by
      cases decoded with
      | none => exact first_page_lt hsplit hfront
      | some c =>
        exact fun x hx => (mem_rows_before (List.mem_of_mem_take hx)).trans_le (hbound c rfl)
    refine ⟨fun x hx he => (hlt x hx).ne (congrArg ChatMessage.key he), fun hmore => ?_⟩
    have hpos := effectiveLimit_pos limit
    obtain ⟨x, hx⟩ := exists_last_take hpos (of_decide_eq_true hmore)
    exact ⟨_, hnext x hx, by
      rintro c ⟨⟩
      exact (hlt x (List.mem_of_getLast? hx)).le⟩
  rintro ⟨fuel, pages, hwalk, hflat⟩
  have hnot := walk_forall hbelow ⟨none, rfl, by simp⟩ hwalk
  have hmem : m ∈ pages.reverse.flatten := by rw [hflat, hsplit]; simp
  rw [List.mem_flatten] at hmem
  obtain ⟨page, hpage, hm⟩ := hmem
  exact hnot m (List.mem_flatten.mpr ⟨page, List.mem_reverse.mp hpage, hm⟩) rfl

/-- A client sees the whole history exactly if it fits in one page, or if it is read upwards
with a limit below the maximum. -/
theorem history_walked_iff (hcodec : codec.RoundTrips)
    (hmember : db.ensureActiveMembership userId chatId = .ok ())
    (hd : MessageDirection.parse direction = .ok d) :
    HistoryWalked codec db userId chatId limit direction d ↔
      (db.live chatId).length ≤ effectiveLimit limit ∨
        (d = .after ∧ effectiveLimit limit < 50) := by
  have hle := effectiveLimit_le limit
  constructor
  · intro hwalked
    by_contra hnot
    obtain ⟨hlen, hafter⟩ := not_or.mp hnot
    rcases Nat.lt_or_ge (effectiveLimit limit) 50 with hlt | hge
    · cases d with
      | before => exact not_walked_before hcodec hmember hd hlt (by omega) hwalked
      | after => exact hafter ⟨rfl, hlt⟩
    · exact not_walked_of_max hcodec hmember hd (by omega) (by omega) hwalked
  · rintro (h | ⟨rfl, h⟩)
    · exact walked_of_le hcodec hmember hd h
    · exact walked_after hcodec hmember hd h

def alice : Uuid := .ofNat 1

def theChat : Uuid := .ofNat 4

def message (n : Nat) (createdAt : Timestamp) : ChatMessage :=
  ⟨.ofNat n, theChat, some alice, none, some "ciphertext", some "iv", "text", none, false, createdAt,
    none, none⟩

def older : ChatMessage := message 5 1700000000000000

def newer : ChatMessage := message 6 1700000001000000

def twoMessages : MessagesDb where
  users := [alice]
  chats := (∅ : AList _).insert theChat ⟨.group, some "friends", none, none, some alice, none, 0, none⟩
  participants := (∅ : AList _).insert (theChat, alice) ⟨.owner, none, some alice, 0, none⟩
  published := []
  messages := [older, newer]
  uniqueIds := by decide

def olderJson : String :=
  "\x7b\"created_at\":\"2023-11-14T22:13:20Z\",\"message_id\":\"00000000-0000-0000-0000-000000000005\"\x7d"

def newerJson : String :=
  "\x7b\"created_at\":\"2023-11-14T22:13:21Z\",\"message_id\":\"00000000-0000-0000-0000-000000000006\"\x7d"

def olderText : String :=
  "eyJjcmVhdGVkX2F0IjoiMjAyMy0xMS0xNFQyMjoxMzoyMFoiLCJtZXNzYWdlX2lkIjoiMDAwMDAwMDAtMDAwMC0wMDAwLTAwMDAtMDAwMDAwMDAwMDA1In0"

def newerText : String :=
  "eyJjcmVhdGVkX2F0IjoiMjAyMy0xMS0xNFQyMjoxMzoyMVoiLCJtZXNzYWdlX2lkIjoiMDAwMDAwMDAtMDAwMC0wMDAwLTAwMDAtMDAwMDAwMDAwMDA2In0"

/-- The JSON of the two cursors, and some text for every other one. -/
def cursorJson (c : MessageCursor) : String :=
  if c = ⟨older.createdAt, older.id⟩ then olderJson
  else if c = ⟨newer.createdAt, newer.id⟩ then newerJson
  else String.ofList (List.replicate (Encodable.encode (c.createdAt, c.messageId.val)) '0')

def parseCursorJson (s : String) : Option MessageCursor :=
  if s = olderJson then some ⟨older.createdAt, older.id⟩
  else if s = newerJson then some ⟨newer.createdAt, newer.id⟩
  else (Encodable.decode s.toList.length : Option (Int × Fin (16 ^ 32))).map (fun c => ⟨c.1, ⟨c.2⟩⟩)

/-- The base64 of the two texts, and some text for every other one. -/
def base64 (s : String) : String :=
  if s = olderJson then olderText else if s = newerJson then newerText else "=" ++ s

def unbase64 (t : String) : Option String :=
  if t = olderText then some olderJson else if t = newerText then some newerJson
  else some (String.ofList t.toList.tail)

theorem parseCursorJson_cursorJson (c : MessageCursor) : parseCursorJson (cursorJson c) = some c := by
  rw [cursorJson]
  split_ifs with h1 h2
  · exact h1 ▸ rfl
  · exact h2 ▸ rfl
  · have hne : ∀ n : Nat, ∀ s : String, '\x7b' ∈ s.toList →
        String.ofList (List.replicate n '0') ≠ s := by
      rintro n _ hs rfl
      simp at hs
    rw [parseCursorJson, if_neg (hne _ _ (by decide)), if_neg (hne _ _ (by decide))]
    simp only [String.toList_ofList, List.length_replicate, Encodable.encodek, Option.map_some]

theorem unbase64_base64 (s : String) : unbase64 (base64 s) = some s := by
  rw [base64]
  split_ifs with h1 h2
  · exact h1 ▸ rfl
  · exact h2 ▸ rfl
  · have hne : ∀ t : String, '=' ∉ t.toList → "=" ++ s ≠ t := by
      rintro _ ht rfl
      simp at ht
    rw [unbase64, if_neg (hne _ (by decide +kernel)), if_neg (hne _ (by decide +kernel))]
    simp

def twoCursors : CursorCodec where
  Bytes := String
  toVec c := .ok (cursorJson c)
  fromSlice := parseCursorJson
  encode := base64
  decode := unbase64

theorem twoCursors_roundTrips : twoCursors.RoundTrips :=
  ⟨fun c => ⟨cursorJson c, rfl, parseCursorJson_cursorJson c⟩, unbase64_base64⟩

/-- The older of two messages is returned, the newer one is not. -/
theorem newest_message_missing :
    ¬ HistoryWalked twoCursors twoMessages alice theChat (some 1) (some "before") .before :=
  not_walked_before twoCursors_roundTrips rfl rfl (by decide) (by decide)

theorem two_messages_upwards :
    HistoryWalked twoCursors twoMessages alice theChat (some 1) (some "after") .after :=
  (history_walked_iff twoCursors_roundTrips rfl rfl).mpr (.inr ⟨rfl, by decide⟩)

end Mesty.Chats.History
