import Mesty.Chats.ChatRows
import Mesty.Chats.Erasure
import Mesty.Chats.Publishing
import Mesty.Refinement.LastWrite

namespace Mesty.Chats.ChatUpdates

open Mesty.Base.Ids Mesty.Base.Error Mesty.Concurrency.Program Mesty.Concurrency.Pool
open Mesty.Chats.Entities Mesty.Chats.Repository Mesty.Chats.Store Mesty.Chats.Handlers
open Mesty.Chats.ChatRows
open Mesty.Chats.Publishing (Asked handle_asked)
open Mesty.Chats.Erasure (ChatConfig ChatAct StoreEvent alice bob theChat choose)
open Mesty.Refinement.LastWrite

/-- The columns that `update_chat` is about. -/
inductive ChatField where
  | name
  | description
  | avatarUrl

def ChatField.of (row : ChatRow) : ChatField → Option String
  | name => row.name
  | description => row.description
  | avatarUrl => row.avatarUrl

/-- What a request has for a column. -/
def ChatField.pick (name description avatarUrl : Option String) : ChatField → Option String
  | .name => name
  | .description => description
  | .avatarUrl => avatarUrl

def storedField (c : ChatConfig) (chatId : Uuid) (field : ChatField) : Option String :=
  (c.db.chats.lookup chatId).bind field.of

/-- The value that an UPDATE of the chat is to write: its request has supplied it. -/
def suppliedField (c : ChatConfig) (chatId : Uuid) (field : ChatField) :
    StoreEvent → Option (Option String)
  | ⟨i, .updateChat chatId' .., .ok _⟩ =>
    if chatId' = chatId then
      match c.request i with
      | some (_, .updateChat _ name description avatarUrl) =>
        (field.pick name description avatarUrl).map some
      | _ => none
    else none
  | _ => none

/-- The UPDATE of a request for the chat that does not violate the constraint of the table finds in
each column that its request leaves out the value that its SELECT has read. -/
def Current (chatId : Uuid) (c : ChatConfig) : ChatAct → Prop
  | .step i _ => ∀ userId name description avatarUrl seen row,
      c.request i = some (userId, .updateChat chatId name description avatarUrl) →
      ⟨.selectChat userId chatId, some seen⟩ ∈ c.history i → c.db.chats.lookup chatId = some row →
      checkChat { row with name := name.or seen.name } →
        ∀ field : ChatField, field.pick name description avatarUrl = none → field.of seen = field.of row
  | _ => True

/-- An UPDATE follows the SELECT of its request, whose row completes the values. -/
def Merges (req : Uuid × ChatReq) (h : List ((c : StoreCmd) × c.Ans)) (c : StoreCmd) : Prop :=
  match req.2 with
  | .updateChat chatId name description avatarUrl =>
    (h = [] ∧ c = .selectChat req.1 chatId) ∨
      ∃ row : ChatRow, h = [⟨.selectChat req.1 chatId, some row⟩] ∧ c = .updateChat chatId
        (name.or row.name) (description.or row.description) (avatarUrl.or row.avatarUrl)
  | _ => ∀ chatId name description avatarUrl, c ≠ .updateChat chatId name description avatarUrl

theorem handler_merges (req : Uuid × ChatReq) :
    (chatServer.handler req).Follows (Merges req) (fun _ _ => True) [] := by
  obtain ⟨userId, req⟩ := req
  have hasked : (chatServer.handler (userId, req)).Issues (Asked userId req) :=
    handle_asked userId req
  cases req with
  | updateChat chatId name description avatarUrl =>
    refine ⟨.inl ⟨rfl, rfl⟩, fun row => ?_⟩
    cases row with
    | none => trivial
    | some row =>
      refine ⟨.inr ⟨row, rfl, rfl⟩, fun updated => ?_⟩
      cases updated <;> trivial
  | _ =>
    refine hasked.follows (fun h c hc => ?_) (fun _ _ => trivial)
    rintro chatId name description avatarUrl rfl
    obtain ⟨_, _, _, hreq⟩ := hc
    cases hreq

section Step

variable {c d : ChatConfig} {chatId : Uuid} {i : Nat} {ω : StoreChoice} {req : Uuid × ChatReq}
  {cmd : StoreCmd} {k : cmd.Ans → Prog StoreCmd StoreCmd.Ans (Except ApiError Response)}
  {ans : cmd.Ans} {s : ChatStore} {row : ChatRow}

theorem supplied_eq {e : StoreEvent} (h : d.request e.task = c.request e.task) (field : ChatField) :
    suppliedField d chatId field e = suppliedField c chatId field e := by
  obtain ⟨i, cmd, ans⟩ := e
  cases cmd with
  | updateChat chatId' =>
    cases ans with
    | ok t => rw [suppliedField, suppliedField, h]
    | error e => rfl
  | _ => rfl

/-- What has been supplied before does not depend on what comes later. -/
theorem supplied_congr (hc : ∀ e ∈ c.log, e.task < c.tasks.length)
    (hd : ∀ i < c.tasks.length, d.request i = c.request i) (field : ChatField) :
    c.log.map (suppliedField d chatId field) = c.log.map (suppliedField c chatId field) :=
  List.map_congr_left fun e he => supplied_eq (hd e.task (hc e he)) field

theorem supplied_none (hcmd : ∀ name description avatarUrl,
    cmd ≠ .updateChat chatId name description avatarUrl) (field : ChatField) :
    suppliedField c chatId field ⟨i, cmd, ans⟩ = none := by
  cases cmd with
  | updateChat chatId' name description avatarUrl =>
    cases ans with
    | ok t =>
      rw [suppliedField, if_neg]
      rintro rfl
      exact hcmd name description avatarUrl rfl
    | error e => rfl
  | _ => rfl

theorem stored_eq (hrow : c.db.chats.lookup chatId = some row) (field : ChatField) :
    storedField c chatId field = field.of row := by
  rw [storedField, hrow, Option.bind_some]

/-- The other statements leave the columns alone. -/
theorem stored_kept (hrow : c.db.chats.lookup chatId = some row)
    (hcmd : ∀ name description avatarUrl, cmd ≠ .updateChat chatId name description avatarUrl)
    (he : ChatStore.exec ω cmd c.db = some (ans, d.db)) (field : ChatField) :
    storedField d chatId field = storedField c chatId field := by
  obtain ⟨row', hrow', hstep⟩ := rowStep_of_exec hrow he
  rw [stored_eq hrow, stored_eq hrow']
  cases hstep with
  | same | deleted | linked => cases field <;> rfl
  | updated name description avatarUrl => exact absurd rfl (hcmd name description avatarUrl)

/-- The row after the UPDATE of a request that has read `seen`. -/
def mergedRow (seen row : ChatRow) (name description avatarUrl : Option String) : ChatRow :=
  { row with
    name := name.or seen.name
    description := description.or seen.description
    avatarUrl := avatarUrl.or seen.avatarUrl }

variable {userId : Uuid} {name description avatarUrl : Option String} {seen : ChatRow}

theorem of_mergedRow (field : ChatField) :
    field.of (mergedRow seen row name description avatarUrl) =
      (field.pick name description avatarUrl).or (field.of seen) := by
  cases field <;> rfl

theorem current_iff (hreq : c.request i = some (userId, .updateChat chatId name description avatarUrl))
    (hhist : c.history i = [⟨.selectChat userId chatId, some seen⟩])
    (hrow : c.db.chats.lookup chatId = some row) :
    Current chatId c (.step i ω) ↔ (checkChat { row with name := name.or seen.name } →
      ∀ field : ChatField, field.pick name description avatarUrl = none →
        field.of seen = field.of row) := by
  constructor
  · exact fun h => h userId name description avatarUrl seen row hreq (hhist ▸ List.mem_singleton_self _)
      hrow
  · intro h userId' name' description' avatarUrl' seen' row' hreq' hseen' hrow'
    obtain ⟨rfl, heq⟩ := Prod.mk.inj (Option.some.inj (hreq.symm.trans hreq'))
    cases heq
    rw [hhist, List.mem_singleton] at hseen'
    obtain rfl : seen' = seen := by simpa using hseen'
    obtain rfl := Option.some.inj (hrow.symm.trans hrow')
    exact h

/-- The UPDATE leaves each column with what was supplied last exactly if its request is current. -/
theorem updated_iff (hreq : c.request i = some (userId, .updateChat chatId name description avatarUrl))
    (hhist : c.history i = [⟨.selectChat userId chatId, some seen⟩])
    (hrow : c.db.chats.lookup chatId = some row) {ans : Except DomainError Timestamp}
    (he : c.db.updateChatRow ω.now chatId (name.or seen.name) (description.or seen.description)
      (avatarUrl.or seen.avatarUrl) = (ans, d.db)) :
    Current chatId c (.step i ω) ↔ ∀ field, storedField d chatId field =
      (suppliedField c chatId field ⟨i, .updateChat chatId (name.or seen.name)
        (description.or seen.description) (avatarUrl.or seen.avatarUrl), ans⟩).getD
          (storedField c chatId field) := by
  rw [current_iff hreq hhist hrow]
  simp only [ChatStore.updateChatRow, hrow] at he
  split_ifs at he with hcheck
  · obtain ⟨rfl, hdb⟩ := Prod.mk.inj he
    have hafter : d.db.chats.lookup chatId = some (mergedRow seen row name description avatarUrl) := by
      rw [← hdb]
      exact (lookup_updateChat hrow).trans (congrArg some (if_pos rfl))
    refine (forall_prop_of_true hcheck).trans (forall_congr' fun field => ?_)
    rw [stored_eq hrow, stored_eq hafter, of_mergedRow, suppliedField, if_pos rfl, hreq]
    cases hpick : field.pick name description avatarUrl <;> simp [hpick]
  · obtain ⟨rfl, hdb⟩ := Prod.mk.inj he
    refine iff_of_true (fun h => absurd h hcheck) fun field => ?_
    rw [storedField, ← hdb]
    rfl

end Step

/-- The runs in which the chat is there. -/
structure Sound (chatId : Uuid) (c : ChatConfig) : Prop where
  replays : chatServer.Replays c
  found : ∃ row, c.db.chats.lookup chatId = some row

section Runs

variable {c d : ChatConfig} {chatId : Uuid} {a : ChatAct}

theorem sound_apply (hc : Sound chatId c) (ha : chatServer.apply a c = some d) : Sound chatId d := by
  have hreplays := System.replays_apply hc.replays ha
  obtain ⟨row, hrow⟩ := hc.found
  obtain ⟨r, rfl, rfl⟩ | ⟨i, ω, r, cmd, k, ans, s, rfl, ht, he, rfl⟩ | ⟨ω, s, rfl, hs, rfl⟩ :=
    System.apply_cases ha
  · exact ⟨hreplays, row, hrow⟩
  · obtain ⟨row', hrow', -⟩ := rowStep_of_exec hrow he
    exact ⟨hreplays, row', hrow'⟩
  · obtain rfl := Option.some.inj hs
    exact ⟨hreplays, row, hrow⟩

theorem step_current (hc : Sound chatId c) {i : Nat} {ω : StoreChoice} {r : Uuid × ChatReq}
    {cmd : StoreCmd} {k : cmd.Ans → Prog StoreCmd StoreCmd.Ans (Except ApiError Response)}
    {ans : cmd.Ans} (ht : c.tasks[i]? = some (r, .call cmd k))
    (he : ChatStore.exec ω cmd c.db = some (ans, d.db)) :
    Current chatId c (.step i ω) ↔ ∀ field, storedField d chatId field =
      (suppliedField c chatId field ⟨i, cmd, ans⟩).getD (storedField c chatId field) := by
  obtain ⟨row, hrow⟩ := hc.found
  have hreq := Config.request_eq ht
  have hmerges := (hc.replays.follows (N := Merges) handler_merges ht).1
  by_cases hcmd : ∃ name description avatarUrl, cmd = .updateChat chatId name description avatarUrl
  · obtain ⟨_, _, _, rfl⟩ := hcmd
    obtain ⟨userId, req⟩ := r
    cases req with
    | updateChat chatId' name description avatarUrl =>
      obtain ⟨-, hsel⟩ | ⟨seen, hhist, heq⟩ := hmerges
      · cases hsel
      · obtain ⟨rfl, rfl, rfl, rfl⟩ := StoreCmd.updateChat.inj heq
        exact updated_iff hreq hhist hrow (Option.some.inj he)
    | _ => exact absurd rfl (hmerges _ _ _ _)
  · have hother : ∀ name description avatarUrl, cmd ≠ .updateChat chatId name description avatarUrl :=
      fun _ _ _ h => hcmd ⟨_, _, _, h⟩
    refine iff_of_true ?_ fun field => ?_
    · -- the SELECT of a request for the chat is its first statement, and its UPDATE the second
      intro userId name description avatarUrl seen row' hreq' hseen
      rw [hreq] at hreq'
      obtain rfl := Option.some.inj hreq'
      obtain ⟨hnil, -⟩ | ⟨row, -, heq⟩ := hmerges
      · rw [hnil] at hseen
        cases hseen
      · exact absurd heq (hother _ _ _)
    · rw [supplied_none hother, Option.getD_none]
      exact stored_kept hrow hother he field

/-- A move keeps what was supplied last exactly if it is current. -/
theorem apply_current (hc : Sound chatId c) (ha : chatServer.apply a c = some d) :
    ∃ w : ChatField → List (Option (Option String)),
      (∀ field, d.log.map (suppliedField d chatId field) =
        c.log.map (suppliedField c chatId field) ++ w field) ∧
      (Current chatId c a ↔
        ∀ field, storedField d chatId field = latest (storedField c chatId field) (w field)) := by
  obtain ⟨row, hrow⟩ := hc.found
  obtain ⟨r, rfl, rfl⟩ | ⟨i, ω, r, cmd, k, ans, s, rfl, ht, he, rfl⟩ | ⟨ω, s, rfl, hs, rfl⟩ :=
    System.apply_cases ha
  · refine ⟨fun _ => [], fun field => ?_, iff_of_true trivial fun _ => rfl⟩
    rw [List.append_nil]
    exact supplied_congr hc.replays.1 (fun i hi => Config.request_spawn hi _) field
  · have hreq := Config.request_eq ht
    have hset : ∀ j, Config.request ⟨c.after i cmd ans s, c.tasks.set i (r, k ans)⟩ j = c.request j :=
      fun j => Config.request_set ht _ _ j
    refine ⟨fun field => [suppliedField c chatId field ⟨i, cmd, ans⟩], fun field => ?_, ?_⟩
    · rw [World.after_log, List.map_append, supplied_congr hc.replays.1 (fun j _ => hset j) field]
      exact congrArg (fun w => _ ++ [w]) (supplied_eq (hset i) field)
    · exact step_current hc ht he
  · obtain rfl := Option.some.inj hs
    exact ⟨fun _ => [], fun _ => (List.append_nil _).symm, iff_of_true trivial fun _ => rfl⟩

end Runs

/-- In every run from a state in which the chat is there: in every state each column holds what the
last UPDATE of a request that has supplied it was to write, and its first value if there was none,
exactly if all UPDATEs of the chat are current. -/
theorem last_update_stored_iff {db : ChatStore} {chatId : Uuid} {row : ChatRow}
    (hrow : db.chats.lookup chatId = some row) (acts : List ChatAct) :
    chatServer.Every (Current chatId) acts (System.start db) ↔
      ∀ d ∈ chatServer.trace acts (System.start db), ∀ field,
        storedField d chatId field = latest (field.of row) (d.log.map (suppliedField d chatId field)) :=
  every_iff_latest (J := Sound chatId) sound_apply apply_current acts
    ⟨System.replays_start db, row, hrow⟩ (fun field => stored_eq hrow field)

def opened : ChatStore := (chatServer.run [.spawn (alice, .createPrivateChat bob),
  .step 0 (choose 10), .step 0 (choose 11)] (System.start (.empty [alice, bob]))).db

/-- Alice changes the name and Bob the description; both have read the row before the first UPDATE. -/
def crossed : List ChatAct :=
  [.spawn (alice, .updateChat theChat (some "us") none none),
    .spawn (bob, .updateChat theChat none (some "our chat") none),
    .step 0 (choose 12), .step 1 (choose 13), .step 0 (choose 14), .step 1 (choose 15)]

/-- Bob's UPDATE takes the name away. -/
theorem name_lost : ¬ ∀ d ∈ chatServer.trace crossed (System.start opened),
    (∀ t ∈ d.tasks, t.2.finished) → ∀ field, storedField d theChat field =
      latest (storedField (System.start opened) theChat field)
        (d.log.map (suppliedField d theChat field)) := by
  intro h
  have hname := h _ (List.mem_of_getElem? (i := 6) rfl) (by decide) .name
  cases hname

/-- Alice alone. -/
def renamed : List ChatAct :=
  [.spawn (alice, .updateChat theChat (some "us") none none), .step 0 (choose 12),
    .step 0 (choose 13)]

theorem name_kept : chatServer.Every (Current theChat) renamed (System.start opened) ↔
    ∀ d ∈ chatServer.trace renamed (System.start opened), ∀ field, storedField d theChat field =
      latest (ChatField.of ⟨.private, none, none, none, some alice, none, 11, none⟩ field)
        (d.log.map (suppliedField d theChat field)) :=
  last_update_stored_iff rfl renamed

end Mesty.Chats.ChatUpdates
