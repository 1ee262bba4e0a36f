import Mesty.Chats.Authorship

namespace Mesty.Chats.Receipts

open Mesty.Base.Ids Mesty.Base.Error Mesty.Concurrency.Program Mesty.Concurrency.Pool
open Mesty.Concurrency.Provenance
open Mesty.Chats.Entities Mesty.Chats.Repository Mesty.Chats.Messages Mesty.Chats.Store
open Mesty.Chats.Handlers
open Mesty.Chats.Changes Mesty.Chats.Reading Mesty.Chats.Authorship
open Mesty.Chats.Members (lookup_insertStatuses)
open Mesty.Chats.Erasure (ChatConfig ChatAct StoreEvent)

/-- The message is stored in a chat of which the user is then an active member. -/
def SendsTo (messageId userId : Uuid) (db : ChatStore) (r : Uuid × ChatReq) : StoreEvent → Prop
  | ⟨_, .sendMessage senderId chatId message, .ok m⟩ => m.id = messageId ∧
      r = (senderId, .sendMessage chatId message) ∧ (db.activeRow chatId userId).isSome
  | _ => False

/-- The user marks messages as read, and this is one of them. -/
def ReadsUpTo (messageId userId : Uuid) (db : ChatStore) (r : Uuid × ChatReq) : StoreEvent → Prop
  | ⟨_, .markMessagesRead userId' chatId upTo, _⟩ => userId' = userId ∧
      r = (userId, .markMessagesRead chatId upTo) ∧ messageId ∈ db.unreadUpTo userId chatId upTo
  | _ => False

section Statements

variable {ω : StoreChoice} {db db' : ChatStore} {cmd : StoreCmd} {ans : cmd.Ans} {i : Nat}
  {messageId userId : Uuid} {row : StatusRow} {r : Uuid × ChatReq} {h : Asked}

theorem lookup_sent {m : ChatMessage} (chatId : Uuid) (hfresh : m.id ∉ db.messages.map ChatMessage.id)
    (now : Timestamp) (k : Uuid × Uuid) :
    ((db.insertMessage m hfresh).insertStatuses now m.id chatId).statuses.lookup k =
      (db.statuses.lookup k).or
        (if k.1 = m.id ∧ (db.activeRow chatId k.2).isSome then some ⟨.sent, now⟩ else none) :=
  lookup_insertStatuses k

/-- A row is new, has been marked, or was there. -/
theorem status_cases (hacts : ActsAs r h cmd) (he : ChatStore.exec ω cmd db = some (ans, db'))
    (hrow : db'.statuses.lookup (messageId, userId) = some row) :
    db.statuses.lookup (messageId, userId) = some row ∨
    (db.statuses.lookup (messageId, userId) = none ∧ row.status = .sent ∧
      SendsTo messageId userId db r ⟨i, cmd, ans⟩) ∨
    (db.statuses.lookup (messageId, userId) ≠ none ∧ row.status = .read ∧
      ReadsUpTo messageId userId db r ⟨i, cmd, ans⟩) := by
  cases change_of_exec he with
  | same _ hs => exact .inl (hs ▸ hrow)
  | edited | deleted => exact .inl hrow
  | sent hm hactive hfresh =>
    rw [lookup_sent] at hrow
    cases hold : db.statuses.lookup (messageId, userId) with
    | some old =>
      rw [hold, Option.some_or] at hrow
      exact .inl hrow
    | none =>
      rw [hold, Option.none_or] at hrow
      split_ifs at hrow with hsent
      obtain rfl := Option.some.inj hrow
      exact .inr (.inl ⟨rfl, rfl, hsent.1.symm, hacts, hsent.2⟩)
  | @marked userId' chatId upTo =>
    rw [lookup_markMessagesRead] at hrow
    split_ifs at hrow with hmarks
    · obtain ⟨rfl, hunread, old, hold, -⟩ := hmarks
      obtain rfl := Option.some.inj hrow
      exact .inr (.inr ⟨by simp [hold], rfl, rfl, hacts, hunread⟩)
    · exact .inl hrow

/-- No row vanishes, and what is read stays read. -/
theorem status_kept (he : ChatStore.exec ω cmd db = some (ans, db'))
    (hrow : db.statuses.lookup (messageId, userId) = some row) :
    ∃ row', db'.statuses.lookup (messageId, userId) = some row' ∧ (row.status = .read → row'.status = .read) := by
  cases change_of_exec he with
  | same _ hs => exact ⟨row, hs ▸ hrow, id⟩
  | edited | deleted => exact ⟨row, hrow, id⟩
  | sent hm hactive hfresh => exact ⟨row, by rw [lookup_sent, hrow, Option.some_or], id⟩
  | marked =>
    rw [lookup_markMessagesRead]
    split_ifs
    · exact ⟨_, rfl, fun _ => rfl⟩
    · exact ⟨row, hrow, id⟩

/-- A message gets its rows when it is stored, and no more of them later. -/
theorem status_absent (he : ChatStore.exec ω cmd db = some (ans, db'))
    (hmessage : messageId ∈ db.messages.map ChatMessage.id)
    (hnone : db.statuses.lookup (messageId, userId) = none) :
    db'.statuses.lookup (messageId, userId) = none := by
  cases change_of_exec he with
  | same _ hs => rw [hs, hnone]
  | edited | deleted => exact hnone
  | sent hm hactive hfresh =>
    rw [lookup_sent, hnone, Option.none_or, if_neg]
    rintro ⟨rfl, -⟩
    exact hfresh hmessage
  | marked =>
    rw [lookup_markMessagesRead, if_neg]
    · exact hnone
    · rintro ⟨-, -, row, hrow, -⟩
      cases hnone.symm.trans hrow

end Statements

section Runs

variable {users : List Uuid} {c d : ChatConfig} {messageId userId : Uuid} {row : StatusRow}

/-- In the run a statement has been executed, as `K` says of the tables before it. -/
abbrev Happened (K : ChatStore → Uuid × ChatReq → StoreEvent → Prop) : ChatConfig → ChatConfig → Prop :=
  Performed chatServer (fun _ _ => True) K

/-- The task of a command acts for its request. -/
theorem acts_of_next (hc : chatServer.Replays c) (hcd : Runs c d) {i : Nat} {r : Uuid × ChatReq}
    {cmd : StoreCmd} {k : cmd.Ans → Prog StoreCmd StoreCmd.Ans (Except ApiError Response)}
    (ht : d.tasks[i]? = some (r, .call cmd k)) : ActsAs r (d.history i) cmd :=
  ((hcd.invariant (fun hd _ ha => System.replays_apply hd ha) hc).follows handler_follows ht).1

theorem happened_of_row (hc : chatServer.Replays c) (hcd : Runs c d)
    (hstart : c.db.statuses.lookup (messageId, userId) = none)
    (hrow : d.db.statuses.lookup (messageId, userId) ≠ none) :
    Happened (SendsTo messageId userId) c d := by
  refine performed_of_holds (I := fun db => db.statuses.lookup (messageId, userId) ≠ none)
    (fun hcd ht he hI => ?_) (fun hs hI => by rwa [(rows_tick hs).2.2.2] at hI) (not_not.mpr hstart) hcd
    hrow
  obtain ⟨row, hrow⟩ := Option.ne_none_iff_exists'.mp hI
  obtain hold | ⟨-, -, hsent⟩ | ⟨hold, -⟩ := status_cases (acts_of_next hc hcd ht) he hrow
  · exact .inl (by simp [hold])
  · exact .inr hsent
  · exact .inl hold

theorem happened_of_read (hc : chatServer.Replays c) (hcd : Runs c d)
    (hstart : c.db.statuses.lookup (messageId, userId) = none)
    (hrow : d.db.statuses.lookup (messageId, userId) = some row) (hread : row.status = .read) :
    Happened (ReadsUpTo messageId userId) c d := by
  refine performed_of_holds
    (I := fun db => ∃ row, db.statuses.lookup (messageId, userId) = some row ∧ row.status = .read)
    (fun hcd ht he hI => ?_) (fun hs hI => by rwa [(rows_tick hs).2.2.2] at hI)
    (fun ⟨row, hrow, _⟩ => nomatch hstart.symm.trans hrow) hcd ⟨row, hrow, hread⟩
  obtain ⟨row, hrow, hread⟩ := hI
  obtain hold | ⟨-, hsent, -⟩ | ⟨-, -, hmarked⟩ := status_cases (acts_of_next hc hcd ht) he hrow
  · exact .inl ⟨row, hold, hread⟩
  · cases hsent.symm.trans hread
  · exact .inr hmarked

theorem sent_or_read (hc : chatServer.Replays c) (hcd : Runs c d)
    (hstart : ∀ row, c.db.statuses.lookup (messageId, userId) = some row →
      row.status = .sent ∨ row.status = .read)
    (hrow : d.db.statuses.lookup (messageId, userId) = some row) :
    row.status = .sent ∨ row.status = .read := by
  by_contra hother
  -- no statement brings about another status
  have hnever : Happened (fun _ _ _ => False) c d := by
    refine performed_of_holds (I := fun db => ∃ row,
      db.statuses.lookup (messageId, userId) = some row ∧ ¬ (row.status = .sent ∨ row.status = .read))
      (fun hcd ht he ⟨row, hrow, hother⟩ => ?_) (fun hs hI => by rwa [(rows_tick hs).2.2.2] at hI)
      (fun ⟨row, hrow, hother⟩ => hother (hstart row hrow)) hcd ⟨row, hrow, hother⟩
    obtain hold | ⟨-, hsent, -⟩ | ⟨-, hread, -⟩ :=
      status_cases (i := 0) (acts_of_next hc hcd ht) he hrow
    · exact .inl ⟨row, hold, hother⟩
    · exact absurd (.inl hsent) hother
    · exact absurd (.inr hread) hother
  obtain ⟨_, _, _, _, _, _, _, _, -, -, -, -, -, himpossible⟩ := hnever
  exact himpossible

theorem row_kept (hcd : Runs c d) (hrow : c.db.statuses.lookup (messageId, userId) = some row) :
    ∃ row', d.db.statuses.lookup (messageId, userId) = some row' ∧
      (row.status = .read → row'.status = .read) := by
  refine kept_of_forall (I := fun db => ∃ row', db.statuses.lookup (messageId, userId) = some row' ∧
    (row.status = .read → row'.status = .read)) (fun he hI => ?_)
    (fun hs hI => by rwa [(rows_tick hs).2.2.2]) ⟨row, hrow, id⟩ hcd
  obtain ⟨row', hrow', hread⟩ := hI
  obtain ⟨row'', hrow'', hread'⟩ := status_kept he hrow'
  exact ⟨row'', hrow'', fun h => hread' (hread h)⟩

theorem absent_kept (hcd : Runs c d) (hmessage : messageId ∈ c.db.messages.map ChatMessage.id)
    (hnone : c.db.statuses.lookup (messageId, userId) = none) :
    d.db.statuses.lookup (messageId, userId) = none := by
  refine (kept_of_forall (I := fun db => messageId ∈ db.messages.map ChatMessage.id ∧
    db.statuses.lookup (messageId, userId) = none) (fun {ω cmd ans s s'} he hI => ?_)
    (fun hs hI => by rwa [(rows_tick hs).1, (rows_tick hs).2.2.2]) ⟨hmessage, hnone⟩ hcd).2
  refine ⟨?_, status_absent he hI.1 hI.2⟩
  have hids : s.messages.map ChatMessage.id ⊆ s'.messages.map ChatMessage.id := by
    have hheaders := ((headers_of_exec he).map Header.id).subset
    rwa [List.map_map, List.map_map] at hheaders
  exact hids hI.1

theorem row_of_happened (h : Happened (SendsTo messageId userId) c d) :
    d.db.statuses.lookup (messageId, userId) ≠ none := by
  obtain ⟨e, i, ω, r, cmd, k, ans, s, -, -, -, he, hsd, hsent⟩ := h
  cases cmd with
  | sendMessage senderId chatId message =>
    obtain ⟨-, hfresh, rfl, rfl⟩ | ⟨-, ⟨e, rfl⟩, -⟩ := sendMessage_cases he
    · obtain ⟨rfl, -, hactive⟩ := hsent
      have hstored := lookup_sent (m := insertedRow message ω.uuid chatId senderId ω.now) chatId hfresh
        ω.now (ω.uuid, userId)
      rw [if_pos ⟨rfl, hactive⟩] at hstored
      have hsome : ((e.db.statuses.lookup (ω.uuid, userId)).or (some ⟨.sent, ω.now⟩)).isSome := by simp
      obtain ⟨row, hrow⟩ := Option.isSome_iff_exists.mp hsome
      obtain ⟨row', hrow', -⟩ := row_kept hsd (hstored.trans hrow)
      exact Option.ne_none_iff_exists'.mpr ⟨row', hrow'⟩
    · exact absurd hsent id
  | _ => exact absurd hsent id

theorem read_of_happened (h : Happened (ReadsUpTo messageId userId) c d)
    (hrow : d.db.statuses.lookup (messageId, userId) = some row) : row.status = .read := by
  obtain ⟨e, i, ω, r, cmd, k, ans, s, -, -, -, he, hsd, hmarked⟩ := h
  cases cmd with
  | markMessagesRead userId' chatId upTo =>
    obtain ⟨rfl, rfl⟩ := Prod.mk.inj (Option.some.inj he)
    obtain ⟨rfl, -, hunread⟩ := hmarked
    obtain ⟨-, m, hm, hid, -⟩ := mem_unreadUpTo.mp hunread
    have hmessage : messageId ∈ e.db.messages.map ChatMessage.id := hid ▸ List.mem_map_of_mem hm
    cases hafter : (e.db.markMessagesRead ω.now userId' chatId upTo).2.statuses.lookup
        (messageId, userId') with
    | none => cases hrow.symm.trans (absent_kept hsd hmessage hafter)
    | some row' =>
      have hread : row'.status = .read := by
        rw [lookup_markMessagesRead] at hafter
        split_ifs at hafter with hmarks
        · exact congrArg StatusRow.status (Option.some.inj hafter).symm
        · by_contra hunmarked
          exact hmarks ⟨rfl, hunread, row', hafter, .inl hunmarked⟩
      obtain ⟨row'', hrow'', hkept⟩ := row_kept hsd hafter
      obtain rfl := Option.some.inj (hrow.symm.trans hrow'')
      exact hkept hread
  | _ => exact absurd hmarked id

end Runs

end Mesty.Chats.Receipts
