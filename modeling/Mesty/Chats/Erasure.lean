import Mesty.Chats.Changes
import Mesty.Chats.Handlers

namespace Mesty.Chats.Erasure

open Mesty.Base.Ids Mesty.Base.Error Mesty.Concurrency.Program Mesty.Concurrency.Pool
open Mesty.Chats.Entities Mesty.Chats.Repository Mesty.Chats.Messages Mesty.Chats.Store
open Mesty.Chats.Handlers Mesty.Chats.Changes

abbrev ChatConfig :=
  Config StoreCmd StoreCmd.Ans ChatStore (Uuid × ChatReq) (Except ApiError Response)

abbrev ChatAct := Act (Uuid × ChatReq) StoreChoice

abbrev StoreEvent := Event StoreCmd StoreCmd.Ans

section Messages

variable {ω : StoreChoice} {db db' : ChatStore} {c : StoreCmd} {ans : c.Ans} {m : ChatMessage}

/-- What a command makes of the messages: a new one is not deleted, and an edit leaves what
the constraints of the table allow. -/
inductive Rewrites (ω : StoreChoice) (c : StoreCmd) (db : ChatStore) : List ChatMessage → Prop where
  | same : Rewrites ω c db db.messages
  | sent {m : ChatMessage} (hfresh : m.id ∉ db.messages.map ChatMessage.id)
      (hlive : m.deletedAt = none) : Rewrites ω c db (db.messages ++ [m])
  | edited {m : ChatMessage} {contentEncrypted contentIv : Option String} (hm : m ∈ db.messages)
      (hc : c = .editMessage m.id contentEncrypted contentIv)
      (hcheck : checkMessage (ChatStore.editedMessage ω.now contentEncrypted contentIv m)) :
      Rewrites ω c db (db.updateMessage m.id
        (ChatStore.editedMessage ω.now contentEncrypted contentIv) (fun _ => rfl)).messages
  | deleted {m : ChatMessage} {userId : Uuid} (hm : m ∈ db.messages)
      (hc : c = .deleteMessage m.id userId) (hlive : m.deletedAt = none) :
      Rewrites ω c db (db.updateMessage m.id (ChatStore.deletedMessage ω.now) (fun _ => rfl)).messages

theorem rewrites_of_exec (h : ChatStore.exec ω c db = some (ans, db')) :
    Rewrites ω c db db'.messages := by
  cases change_of_exec h with
  | same hm =>
    rw [hm]
    exact .same
  | sent hm _ hfresh => exact .sent hfresh (by rw [hm, insertedRow])
  | edited hm hcheck => exact .edited hm rfl hcheck
  | deleted hm hlive => exact .deleted hm rfl hlive
  | marked => exact .same

/-- A message stays where it is, and what is deleted stays deleted. -/
theorem Rewrites.kept {ms : List ChatMessage} (h : Rewrites ω c db ms) (hm : m ∈ db.messages) :
    ∃ m' ∈ ms, m'.id = m.id ∧ m'.chatId = m.chatId ∧ (m.deletedAt.isSome → m'.deletedAt.isSome) := by
  cases h with
  | same => exact ⟨m, hm, rfl, rfl, id⟩
  | sent => exact ⟨m, List.mem_append_left _ hm, rfl, rfl, id⟩
  | @edited x =>
    by_cases hid : m.id = x.id
    · exact ⟨_, mem_updateMessage.mpr (.inr ⟨m, hm, hid, rfl⟩), rfl, rfl, id⟩
    · exact ⟨m, mem_updateMessage.mpr (.inl ⟨hm, hid⟩), rfl, rfl, id⟩
  | @deleted x =>
    by_cases hid : m.id = x.id
    · exact ⟨_, mem_updateMessage.mpr (.inr ⟨m, hm, hid, rfl⟩), rfl, rfl, fun _ => rfl⟩
    · exact ⟨m, mem_updateMessage.mpr (.inl ⟨hm, hid⟩), rfl, rfl, id⟩

/-- The deleted messages have no content. -/
def Erased (ms : List ChatMessage) : Prop :=
  ∀ m ∈ ms, m.deletedAt.isSome → m.contentEncrypted = none ∧ m.contentIv = none

/-- An edit with both parts of the content is made only on a message that is not deleted. -/
def EditsLive (db : ChatStore) : StoreCmd → Prop
  | .editMessage messageId contentEncrypted contentIv => contentEncrypted.isSome → contentIv.isSome →
      ∀ m ∈ db.messages, m.id = messageId → m.deletedAt = none
  | _ => True

theorem erased_of_editsLive (herased : Erased db.messages) (hc : EditsLive db c)
    {ms : List ChatMessage} (h : Rewrites ω c db ms) : Erased ms := by
  intro m hm hdel
  cases h with
  | same => exact herased m hm hdel
  | sent _ hlive =>
    obtain hm | hm := List.mem_append.mp hm
    · exact herased m hm hdel
    · obtain rfl := List.mem_singleton.mp hm
      simp [hlive] at hdel
  | @edited x contentEncrypted contentIv hx hcmd hcheck =>
    obtain ⟨hm, -⟩ | ⟨old, hold, hid, rfl⟩ := mem_updateMessage.mp hm
    · exact herased m hm hdel
    · obtain rfl : old = x := List.inj_on_of_nodup_map db.uniqueIds hold hx hid
      obtain ⟨hce, hiv⟩ := herased old hold hdel
      subst hcmd
      -- one part alone would break the constraint that both are there or none
      cases contentEncrypted <;> cases contentIv
      · exact ⟨hce, hiv⟩
      · simp [checkMessage, ChatStore.editedMessage, hce] at hcheck
      · simp [checkMessage, ChatStore.editedMessage, hiv] at hcheck
      · have hlive := hc rfl rfl old hold rfl
        change old.deletedAt.isSome at hdel
        simp [hlive] at hdel
  | @deleted x =>
    obtain ⟨hm, -⟩ | ⟨old, hold, hid, rfl⟩ := mem_updateMessage.mp hm
    · exact herased m hm hdel
    · exact ⟨rfl, rfl⟩

/-- An edit with both parts of the content brings a deleted message back. -/
theorem editsLive_of_erased (h : ChatStore.exec ω c db = some (ans, db'))
    (herased : Erased db'.messages) : EditsLive db c := by
  cases c with
  | editMessage messageId contentEncrypted contentIv =>
    rintro hce hiv m hm rfl
    obtain ⟨content, rfl⟩ := Option.isSome_iff_exists.mp hce
    obtain ⟨iv, rfl⟩ := Option.isSome_iff_exists.mp hiv
    by_contra hdel
    have hsome : m.deletedAt.isSome := Option.isSome_iff_ne_none.mpr hdel
    have hcheck : checkMessage (ChatStore.editedMessage ω.now (some content) (some iv) m) := by
      simp [checkMessage, ChatStore.editedMessage]
    simp only [ChatStore.exec, ChatStore.editMessage, findMessage_eq_some.mpr ⟨hm, rfl⟩, hcheck,
      if_true] at h
    obtain ⟨-, rfl⟩ := Prod.mk.inj (Option.some.inj h)
    obtain ⟨hnone, -⟩ := herased _ (mem_updateMessage.mpr (.inr ⟨m, hm, rfl, rfl⟩)) hsome
    cases hnone
  | _ => trivial

end Messages

/-- The condition on a move: when it is an UPDATE of an edit that carries both parts of the
content, its message is not deleted. -/
def InTime (c : ChatConfig) : ChatAct → Prop
  | .step i _ => ∀ cmd, c.tasks[i]?.bind (fun t => t.2.next) = some cmd → EditsLive c.db cmd
  | _ => True

theorem inTime_iff {c d : ChatConfig} {a : ChatAct} (herased : Erased c.db.messages)
    (ha : chatServer.apply a c = some d) : InTime c a ↔ Erased d.db.messages := by
  obtain ⟨r, rfl, rfl⟩ | ⟨i, ω, r, cmd, k, ans, s, rfl, ht, he, rfl⟩ | ⟨ω, s, rfl, hs, rfl⟩ :=
    System.apply_cases ha
  · exact iff_of_true trivial herased
  · simp only [InTime, ht, Option.bind_some, Prog.next_call, Option.some.injEq, forall_eq',
      World.after_db]
    exact ⟨fun hc => erased_of_editsLive herased hc (rewrites_of_exec he), editsLive_of_erased he⟩
  · obtain rfl := Option.some.inj hs
    exact iff_of_true trivial herased

/-- What is deleted in `a` has no content in `b`. -/
def StaysErased (a b : ChatConfig) : Prop :=
  ∀ m ∈ a.db.messages, m.deletedAt.isSome → ∀ m' ∈ b.db.messages, m'.id = m.id →
    m'.contentEncrypted = none ∧ m'.contentIv = none

/-- What is deleted in `a` is deleted in `b`. -/
def StaysDeleted (a b : ChatConfig) : Prop :=
  ∀ m ∈ a.db.messages, ∃ m' ∈ b.db.messages, m'.id = m.id ∧
    (m.deletedAt.isSome → m'.deletedAt.isSome)

theorem StaysDeleted.trans {a b c : ChatConfig} (hab : StaysDeleted a b) (hbc : StaysDeleted b c) :
    StaysDeleted a c := by
  intro m hm
  obtain ⟨m', hm', hid, hdel⟩ := hab m hm
  obtain ⟨m'', hm'', hid', hdel'⟩ := hbc m' hm'
  exact ⟨m'', hm'', hid'.trans hid, fun h => hdel' (hdel h)⟩

theorem staysDeleted_apply {c d : ChatConfig} {a : ChatAct} (ha : chatServer.apply a c = some d) :
    StaysDeleted c d := by
  obtain ⟨r, rfl, rfl⟩ | ⟨i, ω, r, cmd, k, ans, s, rfl, ht, he, rfl⟩ | ⟨ω, s, rfl, hs, rfl⟩ :=
    System.apply_cases ha
  · exact fun m hm => ⟨m, hm, rfl, id⟩
  · intro m hm
    obtain ⟨m', hm', hid, -, hdel⟩ := (rewrites_of_exec he).kept hm
    exact ⟨m', hm', hid, hdel⟩
  · obtain rfl := Option.some.inj hs
    exact fun m hm => ⟨m, hm, rfl, id⟩

theorem staysErased_of_erased {a b : ChatConfig} (hab : StaysDeleted a b)
    (hb : Erased b.db.messages) : StaysErased a b := by
  intro m hm hdel m' hm' hid
  obtain ⟨x, hx, hxid, hxdel⟩ := hab m hm
  obtain rfl : m' = x := List.inj_on_of_nodup_map b.db.uniqueIds hm' hx (hid.trans hxid.symm)
  exact hb m' hx (hxdel hdel)

/-- A move erases what it deletes, so only what was deleted before it can have a content. -/
theorem Rewrites.erased {ω : StoreChoice} {db : ChatStore} {cmd : StoreCmd} {ms : List ChatMessage}
    (h : Rewrites ω cmd db ms) (hold : ∀ m ∈ db.messages, m.deletedAt.isSome →
      ∀ m' ∈ ms, m'.id = m.id → m'.contentEncrypted = none ∧ m'.contentIv = none) : Erased ms := by
  intro m hm hdel
  cases h with
  | same => exact hold m hm hdel m hm rfl
  | sent _ hlive =>
    obtain hmem | hmem := List.mem_append.mp hm
    · exact hold m hmem hdel m hm rfl
    · obtain rfl := List.mem_singleton.mp hmem
      simp [hlive] at hdel
  | edited =>
    obtain ⟨hmem, -⟩ | ⟨old, hmem, -, rfl⟩ := mem_updateMessage.mp hm
    · exact hold m hmem hdel m hm rfl
    · exact hold old hmem hdel _ hm rfl
  | deleted =>
    obtain ⟨hmem, -⟩ | ⟨old, -, -, rfl⟩ := mem_updateMessage.mp hm
    · exact hold m hmem hdel m hm rfl
    · exact ⟨rfl, rfl⟩

theorem erased_of_staysErased {c d : ChatConfig} {a : ChatAct} (ha : chatServer.apply a c = some d)
    (h : StaysErased c d) : Erased d.db.messages := by
  obtain ⟨r, rfl, rfl⟩ | ⟨i, ω, r, cmd, k, ans, s, rfl, ht, he, rfl⟩ | ⟨ω, s, rfl, hs, rfl⟩ :=
    System.apply_cases ha
  · exact fun m hm hdel => h m hm hdel m hm rfl
  · exact (rewrites_of_exec he).erased h
  · obtain rfl := Option.some.inj hs
    exact fun m hm hdel => h m hm hdel m hm rfl

/-- In a run from an empty database deleted messages stay without content exactly if no edit
with both parts of a content is executed on a message that is deleted. -/
theorem stays_erased_iff (users : List Uuid) (acts : List ChatAct) :
    chatServer.Every InTime acts (System.start (.empty users)) ↔
      (chatServer.trace acts (System.start (.empty users))).Pairwise StaysErased := by
  have hempty : Erased (System.start (.empty users) : ChatConfig).db.messages :=
    fun m hm => by cases hm
  have hall := System.every_iff_forall (S := chatServer) (J := fun _ => True)
    (G := fun c => Erased c.db.messages) (fun _ _ => trivial) (fun _ h ha => inTime_iff h ha)
    acts trivial hempty
  have hevery : chatServer.Every (fun _ _ => True) acts (System.start (.empty users)) :=
    System.every_of_forall (fun _ _ => trivial) acts _
  rw [hall]
  constructor
  · intro herased
    have hdeleted := hevery.pairwise (K := StaysDeleted) (fun c m hm => ⟨m, hm, rfl, id⟩)
      fun hcd _ ha => hcd.trans (staysDeleted_apply ha)
    exact hdeleted.imp_of_mem fun _ hb hab => staysErased_of_erased hab (herased _ hb)
  · intro h d hd
    obtain ⟨n, hn⟩ := List.mem_iff_getElem?.mp hd
    cases n with
    | zero =>
      obtain rfl : System.start (.empty users) = d := by cases acts <;> simpa [System.trace] using hn
      exact hempty
    | succ n =>
      obtain ⟨hlt, rfl⟩ := List.getElem?_eq_some_iff.mp hn
      have hpred := List.getElem?_eq_getElem (Nat.lt_of_succ_lt hlt)
      obtain ⟨a, -, ha⟩ := System.apply_of_trace hevery hpred hn
      exact erased_of_staysErased ha (List.pairwise_iff_getElem.mp h n (n + 1) _ hlt (Nat.lt_succ_self n))

def alice : Uuid := .ofNat 1

def bob : Uuid := .ofNat 2

def theChat : Uuid := .ofNat 11

def theMessage : Uuid := .ofNat 12

def choose (n : Nat) : StoreChoice := ⟨⟨.ofNat n, n, ""⟩, true, [], true⟩

/-- Alice edits a message; between the checks of the edit and its UPDATE she deletes it. -/
def deletedWhileEdited : List ChatAct :=
  [.spawn (alice, .createPrivateChat bob), .step 0 (choose 10), .step 0 (choose 11),
    .spawn (alice, .sendMessage theChat ⟨some "hello", some "iv", "text", none, false, none⟩),
    .step 1 (choose 12), .step 1 (choose 12),
    .spawn (alice, .editMessage theChat theMessage (some "hello again") (some "iv'")),
    .step 2 (choose 13), .step 2 (choose 14), .step 2 (choose 15),
    .spawn (alice, .deleteMessage theChat theMessage), .step 3 (choose 16), .step 3 (choose 17),
    .step 2 (choose 18)]

theorem deleted_message_edited :
    ¬ (chatServer.trace deletedWhileEdited (System.start (.empty [alice, bob]))).Pairwise
      StaysErased := by
  intro h
  have hlen : (chatServer.trace deletedWhileEdited (System.start (.empty [alice, bob]))).length = 15 :=
    rfl
  have herased := List.pairwise_iff_getElem.mp h 13 14 (by omega) (by omega) (by omega)
  have hdeleted := herased ⟨theMessage, theChat, some alice, none, none, none, "deleted", none,
    false, 12, none, some 17⟩ (List.mem_singleton.mpr rfl) rfl
  have hedited := hdeleted ⟨theMessage, theChat, some alice, none, some "hello again", some "iv'",
    "deleted", none, false, 12, some 18, some 17⟩ (List.mem_singleton.mpr rfl) rfl
  cases hedited.1

end Mesty.Chats.Erasure
