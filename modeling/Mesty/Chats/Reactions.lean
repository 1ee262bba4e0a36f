import Mesty.Chats.Erasure
import Mesty.Chats.Publishing
import Mesty.Chats.References
import Mesty.Refinement.LastWrite

namespace Mesty.Chats.Reactions

open Mesty.Base.Ids Mesty.Base.Error Mesty.Base.Text Mesty.Concurrency.Program Mesty.Concurrency.Pool
open Mesty.Chats.Messages Mesty.Chats.Store Mesty.Chats.Handlers Mesty.Chats.Changes
open Mesty.Chats.Effects (wp_ask wp_verifyParticipant)
open Mesty.Chats.Ownership (Rooted)
open Mesty.Chats.Publishing (Asked handle_asked)
open Mesty.Chats.References (users_store rooted_store)
open Mesty.Chats.Erasure (ChatConfig ChatAct StoreEvent alice bob theChat theMessage choose rewrites_of_exec)
open Mesty.Refinement.LastWrite

/-- Message, user and reaction, as in the UNIQUE constraint. -/
abbrev ReactionKey := Uuid × Uuid × String

/-- What an executed statement writes to the set of reactions about one of them. -/
def reactionWrite (key : ReactionKey) : StoreEvent → Option Bool
  | ⟨_, .addReaction messageId userId reaction, _⟩ =>
    if (messageId, userId, reaction) = key then some true else none
  | ⟨_, .removeReaction messageId userId reaction, _⟩ =>
    if (messageId, userId, reaction) = key then some false else none
  | _ => none

def LiveMessage (db : ChatStore) (chatId messageId : Uuid) : Prop :=
  ∃ m ∈ db.messages, m.id = messageId ∧ m.chatId = chatId ∧ m.deletedAt = none

/-- The answer is 201 with the row that is stored. -/
def AnswersStored (messageId userId : Uuid) (reaction : String) (r : Except ApiError Response)
    (db : ChatStore) : Prop :=
  ∃ row : MessageReaction, r = .ok ⟨201, .reaction row⟩ ∧ row.messageId = messageId ∧
    row.userId = userId ∧ row.reaction = reaction ∧
      db.reactions.lookup (messageId, userId, reaction) = some ⟨row.id, row.createdAt⟩

section Request

variable {db : ChatStore} {userId chatId messageId : Uuid} {reaction : String}

theorem messageInChat_iff :
    (db.findMessage messageId).any (fun m => m.chatId = chatId ∧ m.deletedAt = none) ↔
      LiveMessage db chatId messageId := by
  rw [Option.any_eq_true]
  constructor
  · rintro ⟨m, hfind, hm⟩
    obtain ⟨hmem, hid⟩ := findMessage_eq_some.mp hfind
    exact ⟨m, hmem, hid, of_decide_eq_true hm⟩
  · rintro ⟨m, hmem, hid, hm⟩
    exact ⟨m, findMessage_eq_some.mpr ⟨hmem, hid⟩, decide_eq_true hm⟩

theorem memberOfLiveChat_isSome : (db.memberOfLiveChat userId chatId).isSome ↔
    (db.liveChat chatId).isSome ∧ (db.activeRow chatId userId).isSome := by
  rw [ChatStore.memberOfLiveChat]
  cases db.liveChat chatId <;> simp [Option.filter_some]

/-- Where message and user are there, the statement stores a reaction that is new and can be stored. -/
theorem addReaction_stores_or_fails (ω : StoreChoice) (reaction : String)
    (hmessage : messageId ∈ db.messages.map ChatMessage.id) (huser : userId ∈ db.users) :
    ((messageId, userId, reaction) ∉ db.reactions ∧ Storable reaction ∧ ω.fits = true ∧
      db.addReaction ω messageId userId reaction = (.ok ⟨ω.uuid, messageId, userId, reaction, ω.now⟩,
        { db with reactions := db.reactions.insert (messageId, userId, reaction) ⟨ω.uuid, ω.now⟩ })) ∨
    ¬ ((messageId, userId, reaction) ∉ db.reactions ∧ Storable reaction ∧ ω.fits = true) ∧
      ∃ e, db.addReaction ω messageId userId reaction = (.error e, db) := by
  rw [ChatStore.addReaction]
  split_ifs with hstorable hstored hfits hrefers
  · exact .inr ⟨fun h => h.1 hstored, _, rfl⟩
  · exact .inr ⟨fun h => by rw [hfits] at h; exact Bool.false_ne_true h.2.2, _, rfl⟩
  · obtain h | h := hrefers
    · exact absurd hmessage h
    · exact absurd huser h
  · exact .inl ⟨hstored, hstorable, Bool.eq_true_of_not_eq_false hfits, rfl⟩
  · exact .inr ⟨fun h => hstorable h.2.1, _, rfl⟩

/-- A request that runs alone asks for the member, the message and the INSERT. -/
theorem answers_iff_new (hmessage : LiveMessage db chatId messageId) (huser : userId ∈ db.users)
    (hactive : (db.activeRow chatId userId).isSome) {ωs : List StoreChoice}
    {r : Except ApiError Response} {db' : ChatStore}
    (h : (addReaction userId chatId messageId reaction).run.alone ChatStore.exec ωs db = some (r, db')) :
    AnswersStored messageId userId reaction r db' ↔ (db.liveChat chatId).isSome ∧
      (messageId, userId, reaction) ∉ db.reactions ∧ Storable reaction ∧
        ∀ ω ∈ ωs[2]?, ω.fits = true := by
  have herror : ∀ e db₁, ¬ AnswersStored messageId userId reaction (.error e) db₁ := by
    rintro e db₁ ⟨row, hrow, -⟩
    cases hrow
  obtain ⟨ω₀, ωs₁, member, db₁, rfl, he, h₁⟩ := Prog.alone_call h
  obtain ⟨rfl, rfl⟩ := Prod.mk.inj (Option.some.inj he)
  by_cases hlive : (db.liveChat chatId).isSome
  · have hmember : (db.memberOfLiveChat userId chatId).isSome = true :=
      memberOfLiveChat_isSome.mpr ⟨hlive, hactive⟩
    rw [hmember] at h₁
    obtain ⟨ω₁, ωs₂, found, db₁, rfl, he₁, h₂⟩ := Prog.alone_call h₁
    obtain ⟨rfl, rfl⟩ := Prod.mk.inj (Option.some.inj he₁)
    rw [messageInChat_iff.mpr hmessage] at h₂
    obtain ⟨ω₂, ωs₃, added, db₁, rfl, he₂, h₃⟩ := Prog.alone_call h₂
    have hchoice : (∀ ω ∈ (ω₀ :: ω₁ :: ω₂ :: ωs₃)[2]?, ω.fits = true) ↔ ω₂.fits = true := by
      simp
    rw [hchoice, and_iff_right hlive]
    obtain ⟨m, hm, rfl, -⟩ := hmessage
    obtain ⟨hnew, hstorable, hfits, heq⟩ | ⟨hrefused, e, heq⟩ :=
      addReaction_stores_or_fails ω₂ reaction (List.mem_map_of_mem hm) huser
    · obtain ⟨rfl, rfl⟩ := Prod.mk.inj (heq.symm.trans (Option.some.inj he₂))
      obtain ⟨ω₃, ωs₄, u, db₂, rfl, he₃, h₄⟩ := Prog.alone_call h₃
      obtain ⟨-, rfl⟩ := Prod.mk.inj (Option.some.inj he₃)
      obtain ⟨rfl, rfl, rfl⟩ := Prog.alone_ret h₄
      refine iff_of_true ⟨_, rfl, rfl, rfl, rfl, ?_⟩ ⟨hnew, hstorable, hfits⟩
      exact AList.lookup_insert _
    · obtain ⟨rfl, rfl⟩ := Prod.mk.inj (heq.symm.trans (Option.some.inj he₂))
      obtain ⟨rfl, rfl, rfl⟩ := Prog.alone_ret h₃
      exact iff_of_false (herror _ _) hrefused
  · have hmember : (db.memberOfLiveChat userId chatId).isSome = false :=
      Bool.eq_false_iff.mpr fun hmember => hlive (memberOfLiveChat_isSome.mp hmember).1
    rw [hmember] at h₁
    obtain ⟨rfl, rfl, rfl⟩ := Prog.alone_ret h₁
    exact iff_of_false (herror _ _) fun h => hlive h.1

/-- A request that runs alone comes to its end. -/
theorem addReaction_ends (ω : StoreChoice) :
    ((addReaction userId chatId messageId reaction).run.complete (ChatStore.exec ω) db).isSome := by
  refine Prog.isSome_complete (?_ : (addReaction userId chatId messageId reaction).run.Issues _) db
  refine ⟨fun _ => rfl, fun member => ?_⟩
  cases member with
  | false => trivial
  | true =>
    refine ⟨fun _ => rfl, fun found => ?_⟩
    cases found with
    | false => trivial
    | true =>
      refine ⟨fun _ => rfl, fun added => ?_⟩
      cases added with
      | error e => trivial
      | ok row => exact ⟨fun _ => rfl, fun _ => trivial⟩

end Request

section Runs

/-- What a check that has passed found is still there. -/
def Seen (db : ChatStore) : StoreEvent → Prop
  | ⟨_, .verifyParticipant userId _, found⟩ => found = true → userId ∈ db.users
  | ⟨_, .verifyMessageInChat messageId _, found⟩ =>
    found = true → messageId ∈ db.messages.map ChatMessage.id
  | _ => True

/-- The INSERT of a reaction comes after the two checks of its request. -/
def Checked (h : List ((c : StoreCmd) × c.Ans)) : StoreCmd → Prop
  | .addReaction messageId userId _ => ∃ chatId, ⟨.verifyParticipant userId chatId, true⟩ ∈ h ∧
      ⟨.verifyMessageInChat messageId chatId, true⟩ ∈ h
  | _ => True

theorem handler_checked (req : Uuid × ChatReq) :
    (chatServer.handler req).Follows Checked (fun _ _ => True) [] := by
  obtain ⟨userId, req⟩ := req
  have hasked : (chatServer.handler (userId, req)).Issues (Asked userId req) :=
    handle_asked userId req
  cases req with
  | addReaction chatId messageId reaction =>
    refine ⟨trivial, fun found => ?_⟩
    cases found
    · trivial
    refine ⟨trivial, fun found => ?_⟩
    cases found
    · trivial
    refine ⟨⟨chatId, by simp, by simp⟩, fun added => ?_⟩
    cases added with
    | error e => trivial
    | ok row => exact ⟨trivial, fun _ => trivial⟩
  | _ =>
    refine hasked.follows (fun h c hc => ?_) (fun _ _ => trivial)
    cases c with
    | addReaction =>
      obtain ⟨-, chatId, hreq⟩ := hc
      cases hreq
    | _ => trivial

/-- What the foreign keys and the column of the reactions promise. -/
structure Held (db : ChatStore) : Prop where
  rooted : Rooted db.toChatsDb
  storable : ∀ key ∈ db.reactions, Storable key.2.2

/-- The invariant of the runs. -/
structure Sound (c : ChatConfig) : Prop where
  replays : chatServer.Replays c
  held : Held c.db
  seen : ∀ e ∈ c.log, Seen c.db e

variable {c d : ChatConfig} {a : ChatAct}

theorem Seen.mono {db db' : ChatStore} {e : StoreEvent} (h : Seen db e) (husers : db.users ⊆ db'.users)
    (hmessages : ∀ m ∈ db.messages, m.id ∈ db'.messages.map ChatMessage.id) : Seen db' e := by
  obtain ⟨i, cmd, ans⟩ := e
  cases cmd with
  | verifyParticipant => exact fun hfound => husers (h hfound)
  | verifyMessageInChat =>
    intro hfound
    obtain ⟨m, hm, rfl⟩ := List.mem_map.mp (h hfound)
    exact hmessages m hm
  | _ => trivial

theorem seen_of_exec {i : Nat} {ω : StoreChoice} {cmd : StoreCmd} {ans : cmd.Ans} {db db' : ChatStore}
    (hrooted : Rooted db.toChatsDb) (he : ChatStore.exec ω cmd db = some (ans, db')) :
    Seen db' ⟨i, cmd, ans⟩ := by
  cases cmd with
  | verifyParticipant userId chatId =>
    obtain ⟨rfl, rfl⟩ := Prod.mk.inj (Option.some.inj he)
    intro hmember
    obtain ⟨row, hrow⟩ := Option.isSome_iff_exists.mp (memberOfLiveChat_isSome.mp hmember).2
    exact (hrooted chatId userId row (Option.filter_eq_some_iff.mp hrow).1).2
  | verifyMessageInChat messageId chatId =>
    obtain ⟨rfl, rfl⟩ := Prod.mk.inj (Option.some.inj he)
    intro hfound
    obtain ⟨m, hm, rfl, -⟩ := messageInChat_iff.mp hfound
    exact List.mem_map_of_mem hm
  | _ => trivial

theorem held_of_exec {ω : StoreChoice} {cmd : StoreCmd} {ans : cmd.Ans} {db db' : ChatStore}
    (hdb : Held db) (he : ChatStore.exec ω cmd db = some (ans, db')) : Held db' := by
  refine ⟨rooted_store hdb.rooted he, ?_⟩
  by_cases hwrites : Effects.WritesReactions cmd
  · cases cmd with
    | addReaction messageId userId reaction =>
      obtain ⟨e, heq⟩ | ⟨hstorable, heq⟩ := db.addReaction_cases ω messageId userId reaction
      · obtain ⟨-, rfl⟩ := Prod.mk.inj (heq.symm.trans (Option.some.inj he))
        exact hdb.storable
      · obtain ⟨-, rfl⟩ := Prod.mk.inj (heq.symm.trans (Option.some.inj he))
        intro key hkey
        obtain rfl | hkey := (AList.mem_insert _).mp hkey
        · exact hstorable
        · exact hdb.storable key hkey
    | removeReaction messageId userId reaction =>
      obtain ⟨e, heq⟩ | heq := db.removeReaction_cases messageId userId reaction
      · obtain ⟨-, rfl⟩ := Prod.mk.inj (heq.symm.trans (Option.some.inj he))
        exact hdb.storable
      · obtain ⟨-, rfl⟩ := Prod.mk.inj (heq.symm.trans (Option.some.inj he))
        exact fun key hkey => hdb.storable key (AList.mem_erase.mp hkey).2
    | _ => exact absurd hwrites id
  · rw [Effects.reactions_of_exec hwrites he]
    exact hdb.storable

theorem sound_apply (hc : Sound c) (ha : chatServer.apply a c = some d) : Sound d := by
  have hreplays := System.replays_apply hc.replays ha
  obtain ⟨r, rfl, rfl⟩ | ⟨i, ω, r, cmd, k, ans, s, rfl, ht, he, rfl⟩ | ⟨ω, s, rfl, hs, rfl⟩ :=
    System.apply_cases ha
  · exact ⟨hreplays, hc.held, hc.seen⟩
  · refine ⟨hreplays, held_of_exec hc.held he, fun e hmem => ?_⟩
    obtain hmem | hmem := List.mem_append.mp hmem
    · refine (hc.seen e hmem).mono (users_store he ▸ List.Subset.refl _) fun m hm => ?_
      obtain ⟨m', hm', hid, -⟩ := (rewrites_of_exec he).kept hm
      exact hid ▸ List.mem_map_of_mem hm'
    · rw [List.mem_singleton.mp hmem]
      exact seen_of_exec hc.held.rooted he
  · obtain rfl := Option.some.inj hs
    refine ⟨hreplays, ⟨fun chatId userId row hrow => ?_, hc.held.storable⟩, fun e hmem => ?_⟩
    · exact (hc.held.rooted chatId userId row hrow).imp_right (List.mem_cons_of_mem _)
    · exact (hc.seen e hmem).mono (List.subset_cons_self _ _) fun m hm => List.mem_map_of_mem hm

theorem sound_start {db : ChatStore} (hdb : Held db) : Sound (System.start db) :=
  ⟨System.replays_start db, hdb, fun e he => by cases he⟩

theorem held_empty (users : List Uuid) : Held (.empty users) :=
  ⟨fun _ _ _ hrow => (by cases hrow), fun key hkey => absurd hkey (AList.notMem_empty key)⟩

theorem sound_of_reach {users : List Uuid}
    (h : chatServer.Reach (fun _ _ => True) (System.start (.empty users)) d) : Sound d :=
  h.invariant (fun hc _ ha => sound_apply hc ha) (sound_start (held_empty users))

/-- An INSERT that the move executes finds its reaction stored, or can store it. -/
def Stores (c : ChatConfig) : ChatAct → Prop
  | .step i ω => ∀ r messageId userId reaction k,
      c.tasks[i]? = some (r, .call (.addReaction messageId userId reaction) k) →
        (messageId, userId, reaction) ∈ c.db.reactions ∨ Storable reaction ∧ ω.fits = true
  | _ => True

/-- An INSERT finds the message and the user, because the checks of its request have found them. -/
theorem insert_stores_iff (hc : Sound c) {i : Nat} {ω : StoreChoice} {r : Uuid × ChatReq}
    {messageId userId : Uuid} {reaction : String}
    {k : Except DomainError MessageReaction → Prog StoreCmd StoreCmd.Ans (Except ApiError Response)}
    (ht : c.tasks[i]? = some (r, .call (.addReaction messageId userId reaction) k))
    {ans : Except DomainError MessageReaction} {s : ChatStore}
    (he : c.db.addReaction ω messageId userId reaction = (ans, s)) :
    ((messageId, userId, reaction) ∈ c.db.reactions ∨ Storable reaction ∧ ω.fits = true) ↔
      ∀ key, decide (key ∈ s.reactions) =
        (reactionWrite key ⟨i, .addReaction messageId userId reaction, ans⟩).getD
          (decide (key ∈ c.db.reactions)) := by
  obtain ⟨chatId, huser, hmessage⟩ := (hc.replays.follows (N := fun _ => Checked) handler_checked ht).1
  have huser := hc.seen _ (World.mem_history.mp huser) rfl
  have hmessage := hc.seen _ (World.mem_history.mp hmessage) rfl
  simp only [reactionWrite]
  obtain ⟨hnew, hstorable, hfits, heq⟩ | ⟨hrefused, e, heq⟩ :=
    addReaction_stores_or_fails ω reaction hmessage huser
  · obtain ⟨rfl, rfl⟩ := Prod.mk.inj (heq.symm.trans he)
    refine iff_of_true (.inr ⟨hstorable, hfits⟩) fun key => ?_
    by_cases hkey : (messageId, userId, reaction) = key
    · rw [if_pos hkey, Option.getD_some, decide_eq_true_iff, ← hkey]
      exact (AList.mem_insert _).mpr (.inl rfl)
    · rw [if_neg hkey, Option.getD_none, decide_eq_decide]
      exact (AList.mem_insert _).trans (or_iff_right (Ne.symm hkey))
  · obtain ⟨rfl, rfl⟩ := Prod.mk.inj (heq.symm.trans he)
    constructor
    · intro h key
      have hstored : (messageId, userId, reaction) ∈ c.db.reactions :=
        by_contra fun hnew => hrefused ⟨hnew, h.resolve_left hnew⟩
      by_cases hkey : (messageId, userId, reaction) = key
      · rw [if_pos hkey, Option.getD_some, decide_eq_true_iff, ← hkey]
        exact hstored
      · rw [if_neg hkey, Option.getD_none]
    · intro h
      have hself := h (messageId, userId, reaction)
      rw [if_pos rfl, Option.getD_some, decide_eq_true_iff] at hself
      exact .inl hself

theorem reactions_removed {db : ChatStore} (hdb : Held db) {i : Nat} {messageId userId : Uuid}
    {reaction : String} {ans : Except DomainError Bool} {s : ChatStore}
    (he : db.removeReaction messageId userId reaction = (ans, s)) (key : ReactionKey) :
    decide (key ∈ s.reactions) =
      (reactionWrite key ⟨i, .removeReaction messageId userId reaction, ans⟩).getD
        (decide (key ∈ db.reactions)) := by
  simp only [reactionWrite]
  rw [ChatStore.removeReaction] at he
  split_ifs at he with hstorable <;> obtain ⟨rfl, rfl⟩ := Prod.mk.inj he
  · by_cases hkey : (messageId, userId, reaction) = key
    · subst hkey
      simp
    · simp [hkey, Ne.symm hkey]
  · by_cases hkey : (messageId, userId, reaction) = key
    · rw [if_pos hkey, Option.getD_some, decide_eq_false_iff_not, ← hkey]
      exact fun hstored => hstorable (hdb.storable _ hstored)
    · rw [if_neg hkey, Option.getD_none]

/-- A statement makes of the set what it writes exactly if it stores what it is to store. -/
theorem step_stores (hc : Sound c) {i : Nat} {ω : StoreChoice} {r : Uuid × ChatReq} {cmd : StoreCmd}
    {k : cmd.Ans → Prog StoreCmd StoreCmd.Ans (Except ApiError Response)} {ans : cmd.Ans}
    {s : ChatStore} (ht : c.tasks[i]? = some (r, .call cmd k))
    (he : ChatStore.exec ω cmd c.db = some (ans, s)) :
    Stores c (.step i ω) ↔ ∀ key, decide (key ∈ s.reactions) =
      (reactionWrite key ⟨i, cmd, ans⟩).getD (decide (key ∈ c.db.reactions)) := by
  cases cmd with
  | addReaction messageId userId reaction =>
    refine Iff.trans ⟨fun h => h _ _ _ _ _ ht, fun h => ?_⟩ (insert_stores_iff hc ht (Option.some.inj he))
    intro r' messageId' userId' reaction' k' ht'
    obtain ⟨-, heq⟩ := Prod.mk.inj (Option.some.inj (ht.symm.trans ht'))
    obtain ⟨rfl, rfl, rfl⟩ := StoreCmd.addReaction.inj (Prog.call.inj heq).1
    exact h
  | removeReaction messageId userId reaction =>
    refine iff_of_true (fun r' _ _ _ k' ht' => ?_) fun key => ?_
    · cases ht.symm.trans ht'
    · exact reactions_removed hc.held (Option.some.inj he) key
  | _ =>
    refine iff_of_true (fun r' _ _ _ k' ht' => ?_) fun key => ?_
    · cases ht.symm.trans ht'
    · rw [Effects.reactions_of_exec id he]
      rfl

theorem apply_stores (hc : Sound c) (ha : chatServer.apply a c = some d) :
    ∃ w : ReactionKey → List (Option Bool),
      (∀ key, d.log.map (reactionWrite key) = c.log.map (reactionWrite key) ++ w key) ∧
      (Stores c a ↔ ∀ key, decide (key ∈ d.db.reactions) =
        latest (decide (key ∈ c.db.reactions)) (w key)) := by
  obtain ⟨r, rfl, rfl⟩ | ⟨i, ω, r, cmd, k, ans, s, rfl, ht, he, rfl⟩ | ⟨ω, s, rfl, hs, rfl⟩ :=
    System.apply_cases ha
  · exact ⟨fun _ => [], fun _ => (List.append_nil _).symm, iff_of_true trivial fun _ => rfl⟩
  · exact ⟨fun key => [reactionWrite key ⟨i, cmd, ans⟩], fun key => by simp, step_stores hc ht he⟩
  · obtain rfl := Option.some.inj hs
    exact ⟨fun _ => [], fun _ => (List.append_nil _).symm, iff_of_true trivial fun _ => rfl⟩

end Runs

/-- In tables that obey the foreign keys: a request to add a reaction of a participant to a message of
the chat that runs alone ends, and answers with the stored row exactly if the chat is not deleted,
the reaction was not stored before and it can be stored; and in every run each reaction is stored
once if the last statement about it was an INSERT, and not at all otherwise, exactly
if every INSERT finds its reaction stored or can store it. -/
theorem reactions_are_set_iff {db : ChatStore} (hdb : Held db) :
    (∀ userId chatId messageId reaction, (db.activeRow chatId userId).isSome →
      LiveMessage db chatId messageId →
        (∀ ω, ((addReaction userId chatId messageId reaction).run.complete
          (ChatStore.exec ω) db).isSome) ∧
        ∀ ωs r db', (addReaction userId chatId messageId reaction).run.alone ChatStore.exec ωs db =
            some (r, db') → (AnswersStored messageId userId reaction r db' ↔
          (db.liveChat chatId).isSome ∧ (messageId, userId, reaction) ∉ db.reactions ∧
            Storable reaction ∧ ∀ ω ∈ ωs[2]?, ω.fits = true)) ∧
    ∀ acts, chatServer.Every Stores acts (System.start db) ↔
      ∀ d ∈ chatServer.trace acts (System.start db), ∀ key, d.db.reactions.keys.count key =
        if latest (decide (key ∈ db.reactions)) (d.log.map (reactionWrite key)) then 1 else 0 := by
  constructor
  · intro userId chatId messageId reaction hactive hmessage
    obtain ⟨row, hrow⟩ := Option.isSome_iff_exists.mp hactive
    have huser := (hdb.rooted chatId userId row (Option.filter_eq_some_iff.mp hrow).1).2
    exact ⟨addReaction_ends, fun ωs r db' => answers_iff_new hmessage huser hactive⟩
  · intro acts
    have hlast : chatServer.Every Stores acts (System.start db) ↔
        ∀ d ∈ chatServer.trace acts (System.start db), ∀ key, decide (key ∈ d.db.reactions) =
          latest (decide (key ∈ db.reactions)) (d.log.map (reactionWrite key)) :=
      every_iff_latest (J := Sound) sound_apply apply_stores acts (sound_start hdb) fun _ => rfl
    refine hlast.trans ?_
    refine forall₂_congr fun d _ => forall_congr' fun key => ?_
    have hcount : d.db.reactions.keys.count key = if key ∈ d.db.reactions then 1 else 0 := by
      simp only [d.db.reactions.keys_nodup.count, AList.mem_keys]
    rw [hcount]
    cases latest (decide (key ∈ db.reactions)) (d.log.map (reactionWrite key)) <;>
      by_cases hkey : key ∈ d.db.reactions <;> simp [hkey]

/-- Alice writes to Bob and reacts to her message. -/
def reacted : List ChatAct :=
  [.spawn (alice, .createPrivateChat bob), .step 0 (choose 10), .step 0 (choose 11),
    .spawn (alice, .sendMessage theChat ⟨some "hello", some "iv", "text", none, false, none⟩),
    .step 1 (choose 12), .step 1 (choose 12),
    .spawn (alice, .addReaction theChat theMessage "heart"), .step 2 (choose 13),
    .step 2 (choose 14), .step 2 (choose 15), .step 2 (choose 16)]

def afterwards : ChatConfig := chatServer.run reacted (System.start (.empty [alice, bob]))

/-- The second time she gets an error, although her reaction is stored. -/
theorem second_reaction_refused : ¬ ∀ (users : List Uuid) (d : ChatConfig),
    chatServer.Reach (fun _ _ => True) (System.start (.empty users)) d →
    ∀ userId chatId messageId reaction, (d.db.memberOfLiveChat userId chatId).isSome →
      LiveMessage d.db chatId messageId →
        ∀ ωs r db', (addReaction userId chatId messageId reaction).run.alone ChatStore.exec ωs d.db =
          some (r, db') → AnswersStored messageId userId reaction r db' := by
  intro h
  obtain ⟨row, hrow, -⟩ := h _ afterwards (System.reach_run _ _) alice theChat theMessage "heart"
    rfl ⟨_, List.mem_singleton.mpr rfl, rfl, rfl, rfl⟩ [choose 17, choose 18, choose 19] _ _ rfl
  cases hrow

/-- Bob can still react. -/
theorem other_reaction_stored : AnswersStored theMessage bob "heart"
    (.ok ⟨201, .reaction ⟨.ofNat 19, theMessage, bob, "heart", 19⟩⟩)
    { afterwards.db with
      reactions := afterwards.db.reactions.insert (theMessage, bob, "heart") ⟨.ofNat 19, 19⟩ } := by
  have hheld : Held afterwards.db := (sound_of_reach (System.reach_run reacted _)).held
  refine (((reactions_are_set_iff hheld).1 bob theChat theMessage "heart" rfl
    ⟨_, List.mem_singleton.mpr rfl, rfl, rfl, rfl⟩).2
      [choose 17, choose 18, choose 19, choose 20] _ _ rfl).mpr ⟨rfl, by decide, by decide, ?_⟩
  rintro ω ⟨⟩
  rfl

end Mesty.Chats.Reactions
