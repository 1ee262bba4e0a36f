import Mesty.Stories.Handlers

namespace Mesty.Stories.Protocol

open Mesty.Base.Ids Mesty.Base.Error Mesty.Concurrency.Program Mesty.Concurrency.Pool
open Mesty.Stories.Repository Mesty.Stories.Handlers

abbrev StoryStep := (c : StoryCmd) × c.Ans

/-- The story that a statement has created, whether its answer has arrived or not. -/
def createdId : StoryStep → Option Uuid
  | ⟨.create .., r⟩ => r.given.map Story.id
  | _ => none

/-- The story and the user for whom a statement has stored an exception. -/
def storedFor : StoryStep → Option (Uuid × Uuid)
  | ⟨.addPrivacyException storyId userId _, r⟩ => r.given.map (fun _ => (storyId, userId))
  | _ => none

/-- The story that is there when a statement for it fails. -/
def failedFor : StoryStep → Option Uuid
  | ⟨.create .., .error e⟩ => e.lost.map Story.id
  | ⟨.addPrivacyException storyId .., .error _⟩ => some storyId
  | _ => none

theorem created_of_failed {storyId authId : Uuid} {url type : String} {caption : Option String}
    {privacy : String} {r : Answer Story}
    (h : failedFor ⟨.create authId url type caption privacy, r⟩ = some storyId) :
    createdId ⟨.create authId url type caption privacy, r⟩ = some storyId := by
  cases r with
  | ok story => cases h
  | error e => exact h

namespace CreateStoryRequest

def listed (req : CreateStoryRequest) : List Uuid := req.exceptions.getD []

def isExcluded (req : CreateStoryRequest) : Bool := decide (req.privacy = "contacts_except")

end CreateStoryRequest

open CreateStoryRequest

/-- A request to create a story creates one, first, and then stores its exceptions as long as
no statement fails. No other request does either. -/
def Writes (r : Uuid × StoryReq) (h : List StoryStep) (c : StoryCmd) : Prop :=
  match r.2 with
  | .createStory req =>
    (h = [] ∧ ∃ url type caption, c = .create r.1 url type caption req.privacy) ∨
    ∃ storyId, ∃ userId ∈ listed req, c = .addPrivacyException storyId userId (isExcluded req) ∧
      (∃ e ∈ h, createdId e = some storyId) ∧ ∀ e ∈ h, failedFor e = none
  | _ => match c with
    | .create .. | .addPrivacyException .. => False
    | _ => True

/-- A request that returns a story has stored all its exceptions, and one that fails although the
story was created has failed in a statement for it. -/
def Ends (r : Uuid × StoryReq) (h : List StoryStep) (out : Except ApiError StoryResponse) : Prop :=
  match r.2 with
  | .createStory req => match out with
    | .ok response => ∃ storyId expiresAt, response = .created storyId expiresAt ∧
        (∃ e ∈ h, createdId e = some storyId) ∧
        (∀ userId ∈ listed req, ∃ e ∈ h, storedFor e = some (storyId, userId)) ∧
        ∀ e ∈ h, failedFor e = none
    | .error _ => ∀ e ∈ h, ∀ storyId, createdId e = some storyId →
        ∃ e' ∈ h, failedFor e' = some storyId
  | _ => True

/-- The loop over the exceptions that are left. -/
theorem addExceptions_follows {authId storyId : Uuid} {req : CreateStoryRequest}
    {expiresAt : Timestamp} {rest : List Uuid} {h : List StoryStep} (hsub : rest ⊆ listed req)
    (hcreated : ∃ e ∈ h, createdId e = some storyId)
    (hone : ∀ e ∈ h, ∀ id, createdId e = some id → id = storyId)
    (hdone : ∀ userId ∈ listed req, userId ∈ rest ∨ ∃ e ∈ h, storedFor e = some (storyId, userId))
    (hfail : ∀ e ∈ h, failedFor e = none) :
    (addExceptions storyId (isExcluded req) rest >>=
      fun _ => (pure (.created storyId expiresAt) : StoryTask StoryResponse)).run.Follows
        (Writes (authId, .createStory req)) (Ends (authId, .createStory req)) h := by
  induction rest generalizing h with
  | nil =>
    refine ⟨storyId, expiresAt, rfl, hcreated, fun userId hu => ?_, hfail⟩
    exact (hdone userId hu).resolve_left List.not_mem_nil
  | cons userId rest ih =>
    have hlisted : userId ∈ listed req := hsub List.mem_cons_self
    refine ⟨.inr ⟨storyId, userId, hlisted, rfl, hcreated, hfail⟩, fun r => ?_⟩
    have hmem : ∀ e ∈ h, e ∈ h ++ [⟨.addPrivacyException storyId userId (isExcluded req), r⟩] :=
      fun e he => List.mem_append_left _ he
    have hlast := List.mem_append_right h
      (List.mem_singleton_self (⟨.addPrivacyException storyId userId (isExcluded req), r⟩ : StoryStep))
    cases r with
    | error err =>
      intro e he id hid
      obtain he | he := List.mem_append.mp he
      · obtain rfl := hone e he id hid
        exact ⟨_, hlast, rfl⟩
      · obtain rfl := List.mem_singleton.mp he
        cases hid
    | ok u =>
      refine ih (fun u hu => hsub (List.mem_cons_of_mem _ hu)) ?_ ?_ ?_ ?_
      · obtain ⟨e, he, hid⟩ := hcreated
        exact ⟨e, hmem e he, hid⟩
      · intro e he id hid
        obtain he | he := List.mem_append.mp he
        · exact hone e he id hid
        · obtain rfl := List.mem_singleton.mp he
          cases hid
      · intro v hv
        obtain hv | ⟨e, he, hstored⟩ := hdone v hv
        · obtain rfl | hv := List.mem_cons.mp hv
          · exact .inr ⟨_, hlast, rfl⟩
          · exact .inl hv
        · exact .inr ⟨e, hmem e he, hstored⟩
      · intro e he
        obtain he | he := List.mem_append.mp he
        · exact hfail e he
        · obtain rfl := List.mem_singleton.mp he
          rfl

theorem createStory_follows (authId : Uuid) (req : CreateStoryRequest) :
    (createStory authId req).run.Follows (Writes (authId, .createStory req))
      (Ends (authId, .createStory req)) [] := by
  rw [createStory]
  split_ifs
  · refine ⟨.inl ⟨rfl, _, _, _, rfl⟩, fun r => ?_⟩
    cases r with
    | error e =>
      intro e he id hid
      obtain rfl := List.mem_singleton.mp he
      exact ⟨_, he, hid⟩
    | ok story =>
      refine addExceptions_follows (List.Subset.refl _) ⟨_, List.mem_singleton_self _, rfl⟩ ?_
        (fun u hu => .inl hu) ?_
      · intro e he id hid
        obtain rfl := List.mem_singleton.mp he
        exact (Option.some.inj hid).symm
      · intro e he
        obtain rfl := List.mem_singleton.mp he
        rfl
  · exact fun e he => absurd he List.not_mem_nil

section Writes

variable {r : Uuid × StoryReq} {h : List StoryStep} {storyId userId : Uuid}

/-- A story is created by the first statement of a request for it. -/
theorem creates_request {e : StoryStep} (hN : Writes r h e.1) (hid : createdId e = some storyId) :
    ∃ req url type caption, r.2 = .createStory req ∧ h = [] ∧
      e.1 = .create r.1 url type caption req.privacy := by
  obtain ⟨authId, req⟩ := r
  obtain ⟨cmd, ans⟩ := e
  cases req with
  | createStory req =>
    obtain ⟨hnil, url, type, caption, rfl⟩ | ⟨s, u, -, rfl, -⟩ := hN
    · exact ⟨req, url, type, caption, rfl, hnil, rfl⟩
    · cases hid
  | _ =>
    cases cmd with
    | create => exact absurd hN id
    | _ => cases hid

/-- An exception is one of those in a request that has created the story. -/
theorem excepts_request {b : Bool} (hN : Writes r h (.addPrivacyException storyId userId b)) :
    ∃ req, r.2 = .createStory req ∧ userId ∈ listed req ∧ b = isExcluded req ∧
      ∃ e ∈ h, createdId e = some storyId := by
  obtain ⟨authId, req⟩ := r
  cases req with
  | createStory req =>
    obtain ⟨-, _, _, _, heq⟩ | ⟨s, u, hu, heq, hcreated, -⟩ := hN
    · cases heq
    · cases heq
      exact ⟨req, rfl, hu, rfl, hcreated⟩
  | _ => exact absurd hN id

/-- After a failure the request issues nothing. -/
theorem failed_writes {c : StoryCmd} {authId : Uuid} {req : CreateStoryRequest} {e : StoryStep}
    (hN : Writes (authId, .createStory req) h c) (he : e ∈ h) (hfailed : failedFor e = some storyId) :
    False := by
  obtain ⟨rfl, -⟩ | ⟨_, _, _, _, _, hnone⟩ := hN
  · exact absurd he List.not_mem_nil
  · exact absurd (hfailed.symm.trans (hnone e he)) (by simp)

end Writes

/-- What the requests that create no story ask. -/
def Plain : StoryCmd → Prop
  | .create .. | .addPrivacyException .. => False
  | _ => True

section Plain

variable {α : Type} {authId storyId : Uuid}

theorem findStory_plain {f : Story → StoryTask α} (hf : ∀ s, (f s).run.Issues Plain) :
    (findStory storyId >>= f).run.Issues Plain := by
  rw [findStory, bind_assoc]
  refine ⟨trivial, fun r => ?_⟩
  obtain e | found := r
  · trivial
  cases found with
  | none => trivial
  | some story => exact hf story

theorem notifyAuthor_plain {type : String} {data : List (String × String)} :
    (notifyAuthor authId type data).run.Issues Plain := by
  refine ⟨trivial, fun _ => ⟨trivial, fun isOnline => ?_⟩⟩
  cases isOnline
  · exact ⟨trivial, fun _ => trivial⟩
  · trivial

theorem deleteStory_plain : (deleteStory authId storyId).run.Issues Plain := by
  refine findStory_plain fun story => ?_
  split_ifs
  · trivial
  refine ⟨trivial, fun r => ?_⟩
  cases r <;> trivial

theorem viewStory_plain : (viewStory authId storyId).run.Issues Plain := by
  refine findStory_plain fun story => ?_
  split_ifs
  · trivial
  refine ⟨trivial, fun r => ?_⟩
  obtain e | _ | _ := r
  · trivial
  · trivial
  refine ⟨trivial, fun r => ?_⟩
  cases r with
  | error e => trivial
  | ok _ => exact notifyAuthor_plain.tryBind fun _ => trivial

theorem reactToStory_plain {reaction : String} :
    (reactToStory authId storyId reaction).run.Issues Plain := by
  refine findStory_plain fun story => ?_
  split_ifs
  · trivial
  refine ⟨trivial, fun r => ?_⟩
  obtain e | _ | _ := r
  · trivial
  · trivial
  refine ⟨trivial, fun r => ?_⟩
  obtain e | _ | _ := r
  · trivial
  · trivial
  refine ⟨trivial, fun r => ?_⟩
  cases r with
  | error e => trivial
  | ok _ => exact notifyAuthor_plain.tryBind fun _ => trivial

theorem getStoryViews_plain : (getStoryViews authId storyId).run.Issues Plain := by
  refine findStory_plain fun story => ?_
  split_ifs
  · trivial
  refine ⟨trivial, fun r => ?_⟩
  cases r <;> trivial

theorem list_plain {p : Prog StoryCmd StoryCmd.Ans (Answer α)}
    {f : α → StoryResponse} (hp : p.Issues Plain) :
    (StoryTask.attempt p >>= fun a => (pure (f a) : StoryTask StoryResponse)).run.Issues Plain := by
  refine Prog.Issues.tryBind (hp.bind fun r => ?_) fun a => ?_
  · exact Prog.issues_ret Plain _
  · exact Prog.issues_ret Plain _

end Plain

/-- Every request keeps to the protocol. -/
theorem handler_follows (r : Uuid × StoryReq) :
    (storyServer.handler r).Follows (Writes r) (Ends r) [] := by
  obtain ⟨authId, req⟩ := r
  have hplain : ∀ {req : StoryReq}, (∀ create, req ≠ .createStory create) →
      (handle authId req).run.Issues Plain →
      (handle authId req).run.Follows (Writes (authId, req)) (Ends (authId, req)) [] := by
    intro req hreq hp
    cases req with
    | createStory create => exact absurd rfl (hreq create)
    | _ => exact hp.follows (fun _ c hc => by cases c <;> exact hc) (fun _ _ => trivial)
  cases req with
  | createStory req => exact createStory_follows authId req
  | listStories => exact hplain nofun (list_plain ⟨trivial, fun _ => trivial⟩)
  | listMyStories => exact hplain nofun (list_plain ⟨trivial, fun _ => trivial⟩)
  | deleteStory storyId => exact hplain nofun deleteStory_plain
  | viewStory storyId => exact hplain nofun viewStory_plain
  | reactToStory storyId reaction => exact hplain nofun reactToStory_plain
  | getStoryViews storyId => exact hplain nofun getStoryViews_plain

end Mesty.Stories.Protocol
