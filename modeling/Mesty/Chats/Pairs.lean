import Mesty.Chats.Erasure

namespace Mesty.Chats.Pairs

open Mesty.Base.Ids Mesty.Base.Error Mesty.Concurrency.Program Mesty.Concurrency.Pool
open Mesty.Chats.Messages Mesty.Chats.Store Mesty.Chats.Handlers Mesty.Chats.Changes
open Mesty.Chats.Erasure (ChatConfig ChatAct alice bob theChat theMessage choose)

abbrev StoreEvent := Event StoreCmd StoreCmd.Ans

/-- The message for which an event has stored a content and an IV, and the two. -/
def suppliedPair : StoreEvent → Option (Uuid × String × String)
  | ⟨_, .sendMessage _ _ message, .ok m⟩ =>
    message.contentEncrypted.bind (fun content => message.contentIv.map (fun iv => (m.id, content, iv)))
  | ⟨_, .editMessage messageId contentEncrypted contentIv, .ok _⟩ =>
    contentEncrypted.bind (fun content => contentIv.map (fun iv => (messageId, content, iv)))
  | _ => none

/-- One event has stored both values for the message. -/
def Supplied (log : List StoreEvent) (messageId : Uuid) (content iv : String) : Prop :=
  (messageId, content, iv) ∈ log.filterMap suppliedPair

/-- What a message has as its content and as its IV has been stored by one command. -/
def Paired (c : ChatConfig) : Prop :=
  ∀ m ∈ c.db.messages, ∀ content iv, m.contentEncrypted = some content → m.contentIv = some iv →
    Supplied c.log m.id content iv

/-- An UPDATE of an edit that leaves a message with both values has both in its request, or they
have been stored together before. -/
def EditsWhole (c : ChatConfig) : StoreCmd → Prop
  | .editMessage messageId contentEncrypted contentIv => ∀ m ∈ c.db.messages, m.id = messageId →
      ∀ content iv, contentEncrypted.or m.contentEncrypted = some content →
        contentIv.or m.contentIv = some iv →
          (contentEncrypted = some content ∧ contentIv = some iv) ∨
            Supplied c.log messageId content iv
  | _ => True

/-- The condition on a move. -/
def Whole (c : ChatConfig) : ChatAct → Prop
  | .step i _ => ∀ cmd, c.tasks[i]?.bind (fun t => t.2.next) = some cmd → EditsWhole c cmd
  | _ => True

section Step

variable {log : List StoreEvent} {e : StoreEvent} {messageId : Uuid} {content iv : String}
  {c d : ChatConfig} {ω : StoreChoice} {cmd : StoreCmd} {ans : cmd.Ans} {s : ChatStore} {i : Nat}

theorem supplied_snoc : Supplied (log ++ [e]) messageId content iv ↔
    Supplied log messageId content iv ∨ suppliedPair e = some (messageId, content, iv) := by
  simp [Supplied, List.filterMap_append]

/-- A message of before is still there, with the values it had or without any. -/
theorem paired_of_kept (hc : Paired c) (hd : d.log = c.log ++ [e])
    (hm : ∀ m ∈ d.db.messages, (∃ old ∈ c.db.messages, old.id = m.id ∧
      (m.contentEncrypted = none ∨ m.contentEncrypted = old.contentEncrypted ∧
        m.contentIv = old.contentIv)) ∨
      ∀ content iv, m.contentEncrypted = some content → m.contentIv = some iv →
        Supplied c.log m.id content iv ∨ suppliedPair e = some (m.id, content, iv)) : Paired d := by
  intro m hmem content iv hcontent hiv
  rw [hd, supplied_snoc]
  obtain ⟨old, hold, hid, hnone | ⟨hcontent', hiv'⟩⟩ | hnew := hm m hmem
  · rw [hnone] at hcontent
    cases hcontent
  · rw [← hid]
    exact .inl (hc old hold content iv (hcontent'.symm.trans hcontent) (hiv'.symm.trans hiv))
  · exact hnew content iv hcontent hiv

/-- The commands but the edit. -/
theorem paired_of_change (hc : Paired c) (hchange : Change ω c.db cmd ans s)
    (hedit : ∀ messageId contentEncrypted contentIv,
      cmd ≠ .editMessage messageId contentEncrypted contentIv) (hd : d.db = s)
    (hlog : d.log = c.log ++ [⟨i, cmd, ans⟩]) : Paired d := by
  apply paired_of_kept hc hlog
  rw [hd]
  intro m hm
  cases hchange with
  | same hsame =>
    rw [hsame] at hm
    exact .inl ⟨m, hm, rfl, .inr ⟨rfl, rfl⟩⟩
  | sent hsent =>
    obtain hm | hm := List.mem_append.mp hm
    · exact .inl ⟨m, hm, rfl, .inr ⟨rfl, rfl⟩⟩
    · obtain rfl := List.mem_singleton.mp hm
      subst hsent
      refine .inr fun content iv hcontent hiv => .inr ?_
      simp only [insertedRow] at hcontent hiv
      simp [suppliedPair, hcontent, hiv]
  | edited => exact absurd rfl (hedit _ _ _)
  | deleted =>
    obtain ⟨hm, -⟩ | ⟨old, hold, -, rfl⟩ := mem_updateMessage.mp hm
    · exact .inl ⟨m, hm, rfl, .inr ⟨rfl, rfl⟩⟩
    · exact .inl ⟨old, hold, rfl, .inl rfl⟩
  | marked => exact .inl ⟨m, hm, rfl, .inr ⟨rfl, rfl⟩⟩

/-- An edit that is refused changes nothing, and would not leave both values. -/
theorem editsWhole_of_refused {contentEncrypted contentIv : Option String}
    (h : ∀ m ∈ c.db.messages, m.id = messageId → checkMessage
      (ChatStore.editedMessage ω.now contentEncrypted contentIv m) = false) :
    EditsWhole c (.editMessage messageId contentEncrypted contentIv) := by
  intro m hm hid content iv hcontent hiv
  have hcheck := h m hm hid
  simp [checkMessage, ChatStore.editedMessage, hcontent, hiv] at hcheck

theorem editsWhole_iff {contentEncrypted contentIv : Option String}
    {ans : Except DomainError ChatMessage} (hc : Paired c)
    (he : c.db.editMessage ω.now messageId contentEncrypted contentIv = (ans, s)) (hd : d.db = s)
    (hlog : d.log = c.log ++ [⟨i, .editMessage messageId contentEncrypted contentIv, ans⟩]) :
    EditsWhole c (.editMessage messageId contentEncrypted contentIv) ↔ Paired d := by
  rw [ChatStore.editMessage] at he
  split at he
  · next hfind =>
    cases he
    refine iff_of_true (editsWhole_of_refused (ω := ω) fun m hm hid => ?_) ?_
    · rw [findMessage_eq_some.mpr ⟨hm, hid⟩] at hfind
      cases hfind
    · exact paired_of_kept hc hlog fun m hm => .inl ⟨m, hd ▸ hm, rfl, .inr ⟨rfl, rfl⟩⟩
  · next m hfind =>
    obtain ⟨hm, rfl⟩ := findMessage_eq_some.mp hfind
    split_ifs at he with hcheck <;> cases he
    · constructor
      · intro hwhole
        apply paired_of_kept hc hlog
        rw [hd]
        intro m' hm'
        obtain ⟨hm', -⟩ | ⟨old, hold, hid, rfl⟩ := mem_updateMessage.mp hm'
        · exact .inl ⟨m', hm', rfl, .inr ⟨rfl, rfl⟩⟩
        · obtain rfl := List.inj_on_of_nodup_map c.db.uniqueIds hold hm hid
          refine .inr fun content iv hcontent hiv => ?_
          obtain ⟨rfl, rfl⟩ | hbefore := hwhole old hold rfl content iv hcontent hiv
          · exact .inr rfl
          · exact .inl hbefore
      · intro hpaired m' hm' hid content iv hcontent hiv
        obtain rfl := List.inj_on_of_nodup_map c.db.uniqueIds hm' hm hid
        have hsupplied := hpaired (ChatStore.editedMessage ω.now contentEncrypted contentIv m')
          (hd ▸ mem_updateMessage.mpr (.inr ⟨m', hm, rfl, rfl⟩)) content iv hcontent hiv
        rw [hlog, supplied_snoc] at hsupplied
        obtain hbefore | hnow := hsupplied
        · exact .inr hbefore
        · obtain ⟨content', hcontent', hmap⟩ := Option.bind_eq_some_iff.mp hnow
          obtain ⟨iv', hiv', heq⟩ := Option.map_eq_some_iff.mp hmap
          cases heq
          exact .inl ⟨hcontent', hiv'⟩
    · refine iff_of_true (editsWhole_of_refused (ω := ω) fun m' hm' hid => ?_) ?_
      · obtain rfl := List.inj_on_of_nodup_map c.db.uniqueIds hm' hm hid
        exact Bool.eq_false_iff.mpr hcheck
      · exact paired_of_kept hc hlog fun m hm => .inl ⟨m, hd ▸ hm, rfl, .inr ⟨rfl, rfl⟩⟩

theorem whole_iff {a : ChatAct} (hc : Paired c) (ha : chatServer.apply a c = some d) :
    Whole c a ↔ Paired d := by
  obtain ⟨r, rfl, rfl⟩ | ⟨i, ω, r, cmd, k, ans, s, rfl, ht, he, rfl⟩ | ⟨ω, s, rfl, hs, rfl⟩ :=
    System.apply_cases ha
  · exact iff_of_true trivial hc
  · have hchange := change_of_exec he
    simp only [Whole, ht, Option.bind_some, Prog.next_call, Option.some.injEq, forall_eq']
    cases cmd with
    | editMessage messageId contentEncrypted contentIv =>
      exact editsWhole_iff hc (Option.some.inj he) rfl rfl
    | _ =>
      refine iff_of_true trivial (paired_of_change hc hchange ?_ rfl rfl)
      simp
  · obtain rfl := Option.some.inj hs
    exact iff_of_true trivial hc

end Step

/-- In a run from an empty database the content and the IV of every message have been stored
together exactly if every UPDATE of an edit is whole. -/
theorem stays_paired_iff (users : List Uuid) (acts : List ChatAct) :
    chatServer.Every Whole acts (System.start (.empty users)) ↔
      ∀ d ∈ chatServer.trace acts (System.start (.empty users)), Paired d := by
  refine System.every_iff_forall (J := fun _ => True) (fun _ _ => trivial)
    (fun _ hc ha => whole_iff hc ha) acts trivial ?_
  intro m hm
  cases hm

/-- Alice replaces the content of a message and leaves out the IV. -/
def contentReplaced : List ChatAct :=
  [.spawn (alice, .createPrivateChat bob), .step 0 (choose 10), .step 0 (choose 11),
    .spawn (alice, .sendMessage theChat ⟨some "hello", some "iv", "text", none, false, none⟩),
    .step 1 (choose 12), .step 1 (choose 12),
    .spawn (alice, .editMessage theChat theMessage (some "hello again") none),
    .step 2 (choose 13), .step 2 (choose 14), .step 2 (choose 15), .step 2 (choose 16)]

/-- The new content is stored with the IV of the old one. -/
theorem mixed_pair_stored :
    ¬ ∀ d ∈ chatServer.trace contentReplaced (System.start (.empty [alice, bob])), Paired d := by
  intro h
  have hpaired := h _ (List.mem_of_getElem? (i := 11) rfl)
  have hsupplied : (theMessage, "hello again", "iv") ∈ [(theMessage, "hello", "iv")] :=
    hpaired ⟨theMessage, theChat, some alice, none, some "hello again", some "iv", "text", none,
      false, 12, some 16, none⟩ (List.mem_singleton.mpr rfl) _ _ rfl rfl
  simp at hsupplied

end Mesty.Chats.Pairs
