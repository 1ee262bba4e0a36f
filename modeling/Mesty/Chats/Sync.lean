import Mesty.Chats.Messages
import Mesty.Paging.Resume

namespace Mesty.Chats.Sync

open Mesty.Base.Ids Mesty.Chats.Entities Mesty.Chats.Messages Mesty.Paging.Resume

/-- A message of the `sync_response`. -/
structure SyncMessage where
  chatId : Uuid
  messageId : Uuid
  senderId : Option Uuid
  contentEncrypted : Option String
  contentIv : Option String
  messageType : String
  createdAt : Timestamp
  deriving DecidableEq

def toSync (m : ChatMessage) : SyncMessage :=
  ⟨m.chatId, m.id, m.senderId, m.contentEncrypted, m.contentIv, m.messageType, m.createdAt⟩

/-- The order in which each query reads the table. ORDER BY `created_at` leaves the order of
messages with the same timestamp to it. -/
structure ReadOrder (db : MessagesDb) where
  scan : Nat → List ChatMessage
  perm : ∀ k, (scan k).Perm db.messages

/-- The message is not deleted, and the user takes part in its chat. -/
def Visible (db : MessagesDb) (userId : Uuid) (m : ChatMessage) : Prop :=
  (db.activeRow m.chatId userId).isSome ∧ m.deletedAt = none

instance (db : MessagesDb) (userId : Uuid) : DecidablePred (Visible db userId) :=
  fun _ => inferInstanceAs (Decidable (_ ∧ _))

/-- The repository method, on the messages in the order in which they are read. -/
def listMessagesSince (db : MessagesDb) (messages : List ChatMessage) (userId : Uuid)
    (since : Timestamp) (limit : Nat) : List ChatMessage :=
  pageAfter ChatMessage.createdAt limit (messages.filter (Visible db userId)) since

def syncMessagesAfter (db : MessagesDb) (messages : List ChatMessage) (userId : Uuid)
    (since : Timestamp) : List SyncMessage :=
  (listMessagesSince db messages userId since 100).map toSync

/-- The answer to a `sync_request`. -/
def syncRequest (db : MessagesDb) (messages : List ChatMessage) (userId : Uuid) :
    (since : Option Timestamp) → List SyncMessage
  | some since => syncMessagesAfter db messages userId since
  | none => []

/-- A client that repeats the request with the `created_at` of the last message it got,
until it gets an empty list. -/
def syncAll (db : MessagesDb) (reads : ReadOrder db) (userId : Uuid) :
    (fuel k : Nat) → Timestamp → Option (List (List SyncMessage))
  | 0, _, _ => none
  | fuel + 1, k, since =>
    let page := syncRequest db (reads.scan k) userId (some since)
    match page.getLast? with
    | none => some []
    | some last => (syncAll db reads userId fuel (k + 1) last.createdAt).map
        (fun pages => page :: pages)

/-- The messages that a sync from `start` on is about. -/
def pending (db : MessagesDb) (userId : Uuid) (start : Timestamp) : List ChatMessage :=
  db.messages.filter (fun m => Visible db userId m ∧ start < m.createdAt)

/-- The client comes to an end, and it has got every message exactly once. -/
def Synced (db : MessagesDb) (reads : ReadOrder db) (userId : Uuid) (start : Timestamp) : Prop :=
  ∃ fuel pages, syncAll db reads userId fuel 0 start = some pages ∧
    pages.flatten.Perm ((pending db userId start).map toSync)

/-- With the timestamps in ascending order, the last one of every hundred differs from
the one that follows. -/
def TiesKept (db : MessagesDb) (userId : Uuid) (start : Timestamp) : Prop :=
  Uncut 100 (((pending db userId start).map ChatMessage.createdAt).insertionSort (· ≤ ·))

variable {db : MessagesDb} {reads : ReadOrder db} {userId : Uuid} {start : Timestamp}

theorem syncAll_eq (fuel k : Nat) (since : Timestamp) :
    syncAll db reads userId fuel k since =
      (resume ChatMessage.createdAt 100 (fun k => (reads.scan k).filter (Visible db userId))
        fuel k since).map (fun pages => pages.map (List.map toSync)) := by
  induction fuel generalizing k since with
  | zero => rfl
  | succ fuel ih =>
    simp only [syncAll, resume, syncRequest, syncMessagesAfter, listMessagesSince,
      List.getLast?_map]
    cases (pageAfter ChatMessage.createdAt 100 ((reads.scan k).filter (Visible db userId))
        since).getLast? with
    | none => rfl
    | some last => simp [ih, toSync, Function.comp_def]

theorem selected_visible : selected ChatMessage.createdAt
    (db.messages.filter (Visible db userId)) start = pending db userId start := by
  rw [selected, pending, List.filter_filter]
  refine List.filter_congr fun m _ => ?_
  rw [← Bool.decide_and, decide_eq_decide]
  exact and_comm

theorem visible_perm (reads : ReadOrder db) (userId : Uuid) (k : Nat) :
    ((reads.scan k).filter (Visible db userId)).Perm (db.messages.filter (Visible db userId)) :=
  (reads.perm k).filter _

theorem synced_iff_resumed : Synced db reads userId start ↔ ∃ fuel pages,
    resume ChatMessage.createdAt 100 (fun k => (reads.scan k).filter (Visible db userId)) fuel 0
      start = some pages ∧ pages.flatten.Perm (pending db userId start) := by
  constructor
  · rintro ⟨fuel, pages, hsync, hperm⟩
    rw [syncAll_eq] at hsync
    obtain ⟨pages, hpages, rfl⟩ := Option.map_eq_some_iff.mp hsync
    refine ⟨fuel, pages, hpages, ?_⟩
    have hsub := resume_subperm (visible_perm reads userId) hpages
    rw [selected_visible] at hsub
    apply hsub.perm_of_length_le
    have hlen := hperm.length_eq
    rw [← List.map_flatten, List.length_map, List.length_map] at hlen
    exact hlen.ge
  · rintro ⟨fuel, pages, hpages, hperm⟩
    refine ⟨fuel, pages.map (List.map toSync), by rw [syncAll_eq, hpages]; rfl, ?_⟩
    rw [← List.map_flatten]
    exact hperm.map toSync

theorem resumed_iff : (∃ fuel pages,
    resume ChatMessage.createdAt 100 (fun k => (reads.scan k).filter (Visible db userId)) fuel 0
      start = some pages ∧ pages.flatten.Perm (pending db userId start)) ↔
    TiesKept db userId start := by
  have hiff := resume_complete_iff ChatMessage.createdAt (n := 100)
    (visible_perm reads userId) (by decide) 0 start
  rwa [stamps, selected_visible] at hiff

def alice : Uuid := .ofNat 1

def theChat : Uuid := .ofNat 2

/-- A message each microsecond, but the last two in the same one. -/
def burst (n : Nat) : ChatMessage :=
  ⟨.ofNat (1000 + n), theChat, some alice, none, some "ciphertext", some "iv", "text", none, false,
    1700000000000000 + min n 99, none, none⟩

def burstDb : MessagesDb where
  users := [alice]
  chats := (∅ : AList _).insert theChat ⟨.group, some "friends", none, none, some alice, none, 0, none⟩
  participants := (∅ : AList _).insert (theChat, alice) ⟨.owner, none, some alice, 0, none⟩
  published := []
  messages := (List.range 101).map burst
  uniqueIds := by decide +kernel

def burstReads : ReadOrder burstDb := ⟨fun _ => burstDb.messages, fun _ => .refl _⟩

end Mesty.Chats.Sync
