import Mesty.Stories.Grouping
import Mesty.Stories.Records

namespace Mesty.Stories.Visibility

open Mesty.Base.Ids Mesty.Base.Error Mesty.Concurrency.Program Mesty.Concurrency.Pool
open Mesty.Paging.Keyset
open Mesty.Stories.Repository Mesty.Stories.Handlers Mesty.Stories.Protocol Mesty.Stories.Records
open Mesty.Stories.Protocol.CreateStoryRequest

/-- Who may see a story: whether its author has the viewer as a contact, and whether the
viewer is on the list of exceptions. -/
def Permits (isContact isListed : Prop) : StoryPrivacy → Prop
  | .everyone => True
  | .contacts => isContact
  | .contactsExcept => isContact ∧ ¬ isListed
  | .onlyMe => False
  | .selected => isListed

/-- The story is neither deleted nor expired. -/
def Lives (db : StoriesDb) (storyId : Uuid) : Prop :=
  ∃ row, db.stories.lookup storyId = some row ∧ row.deletedAt = none ∧ db.now < row.expiresAt

/-- Task `i` has created the story for its author and returned it. -/
def Returned (c : StoryConfig) (i : Nat) (authId : Uuid) (req : CreateStoryRequest)
    (storyId : Uuid) : Prop :=
  ∃ expiresAt, c.tasks[i]? =
    some ((authId, .createStory req), .ret (.ok (.created storyId expiresAt)))

section Database

variable {db : StoriesDb} {storyId viewerId : Uuid}

theorem isLive_iff {row : StoryRow} :
    db.isLive row ↔ row.deletedAt = none ∧ db.now < row.expiresAt := by
  simp [StoriesDb.isLive]

theorem canUserViewStory_iff : db.canUserViewStory storyId viewerId ↔
    ∃ row, db.stories.lookup storyId = some row ∧ db.isLive row ∧ row.userId ≠ viewerId ∧
      Permits (db.hasContact row.userId viewerId)
        (db.hasException storyId viewerId (decide (row.privacy = .contactsExcept)))
        row.privacy := by
  rw [StoriesDb.canUserViewStory, Option.any_eq_true]
  refine exists_congr fun row => and_congr_right fun _ => ?_
  cases hp : row.privacy <;> simp [Permits, and_assoc]

theorem mem_selectStories {p : Uuid → StoryRow → Bool} {hasViewed : Uuid → Bool} :
    storyId ∈ (db.selectStories p hasViewed).map StoryWithUser.id ↔
      ∃ row, db.stories.lookup storyId = some row ∧ p storyId row ∧ row.userId ∈ db.users := by
  simp only [StoriesDb.selectStories, List.mem_map, List.mem_filterMap, List.mem_filter]
  constructor
  · rintro ⟨s, ⟨⟨id, row⟩, ⟨hmem, hp⟩, hs⟩, rfl⟩
    obtain ⟨u, hu, rfl⟩ := Option.map_eq_some_iff.mp hs
    refine ⟨row, AList.mem_lookup_iff.mpr hmem, hp, AList.lookup_isSome.mp ?_⟩
    rw [hu, Option.isSome_some]
  · rintro ⟨row, hrow, hp, hu⟩
    obtain ⟨u, hu⟩ := Option.isSome_iff_exists.mp (AList.lookup_isSome.mpr hu)
    refine ⟨StoriesDb.toStoryWithUser storyId row u (hasViewed storyId), ⟨⟨storyId, row⟩,
      ⟨AList.mem_lookup_iff.mp hrow, hp⟩, ?_⟩, rfl⟩
    simp only [hu, Option.map_some]

/-- The two queries select the same stories. -/
theorem canView_iff_listed
    (hauthor : ∀ row, db.stories.lookup storyId = some row → row.userId ∈ db.users) :
    db.canUserViewStory storyId viewerId ↔
      storyId ∈ (db.listForUser viewerId).map StoryWithUser.id := by
  rw [StoriesDb.listForUser, ((sortBy_perm _).map _).mem_iff, mem_selectStories,
    StoriesDb.canUserViewStory, Option.any_eq_true]
  refine exists_congr fun row => and_congr_right fun hrow => ?_
  exact (and_iff_left (hauthor row hrow)).symm

end Database

/-- The identifiers of the stories in a response. -/
def shownIds (groups : List GroupedStoriesResponse) : List Uuid :=
  groups.flatMap (fun g => g.stories.map UserStoryItem.id)

/-- `list_stories` shows what the query selects. -/
theorem shownIds_groupStories (stories : List StoryWithUser) :
    (shownIds (groupStories stories)).Perm (stories.map StoryWithUser.id) := by
  have hids := (Grouping.flatMap_groupStories stories).map UserStoryItem.id
  rw [List.map_flatMap, List.map_map] at hids
  exact hids

section Requests

variable {users : AList (fun _ : Uuid => UserRow)} {P : StoryConfig → StoryAct → Prop}
  {c : StoryConfig} {i : Nat} {authId storyId viewerId : Uuid} {req : CreateStoryRequest}

/-- What a request that has returned a story has left in the database. -/
theorem stored_of_returned (h : storyServer.Reach P (System.start (.empty users)) c)
    (hret : Returned c i authId req storyId) :
    ∃ row, c.db.stories.lookup storyId = some row ∧ row.userId = authId ∧
      StoryPrivacy.fromDbStr req.privacy = some row.privacy ∧
      ∀ userId b, c.db.hasException storyId userId b ↔ userId ∈ listed req ∧ b = isExcluded req := by
  obtain ⟨expiresAt, ht⟩ := hret
  have hrec := recorded_of_reach h
  obtain ⟨storyId', _, heq, hown, hstored, -⟩ := h.replays.follows handler_follows ht
  obtain ⟨rfl, -⟩ := StoryResponse.created.inj heq
  have hrequest : c.request i = some (authId, .createStory req) := Config.request_eq ht
  obtain ⟨req', row, hr, hrow, hprivacy⟩ := hrec.created i storyId hown
  obtain ⟨hauthor, hreq⟩ := Prod.mk.inj (Option.some.inj (hr.symm.trans hrequest))
  obtain rfl := StoryReq.createStory.inj hreq
  refine ⟨row, hrow, hauthor, ?_, fun userId b => ?_⟩
  · rw [← hprivacy]
    exact StoryPrivacy.fromDbStr_asDbStr row.privacy
  -- all rows of the story are those of this request
  have hrows : ∀ {u b}, c.db.exceptions.lookup (storyId, u) = some b →
      u ∈ listed req' ∧ b = isExcluded req' := by
    intro u b hb
    obtain ⟨j, authId', req, hr', hj, hlisted, hexcluded⟩ := hrec.exception storyId u b hb
    obtain rfl := hrec.unique i j storyId hown hj
    obtain ⟨-, hreq⟩ := Prod.mk.inj (Option.some.inj (hr'.symm.trans hrequest))
    obtain rfl := StoryReq.createStory.inj hreq
    exact ⟨hlisted, hexcluded⟩
  simp only [StoriesDb.hasException, decide_eq_true_eq]
  refine ⟨hrows, fun ⟨hlisted, hb⟩ => ?_⟩
  obtain ⟨b', hb'⟩ := Option.isSome_iff_exists.mp (hrec.stored i storyId userId
    (hstored userId hlisted))
  rw [hb', hb, (hrows hb').2]

end Requests

def alice : Uuid := .ofNat 1

def bob : Uuid := .ofNat 2

def twoUsers : AList (fun _ : Uuid => UserRow) :=
  ((∅ : AList (fun _ : Uuid => UserRow)).insert alice ⟨some "alice", none, none⟩).insert bob
    ⟨some "bob", none, none⟩

def choose (n : Nat) : StoryChoice := ⟨.ofNat n, none, false, .time 0⟩

/-- Alice shares a story with Bob alone. -/
def shareWithBob : List StoryAct :=
  [.spawn (alice, .createStory ⟨"url", "image", none, "selected", some [bob, bob]⟩),
    .step 0 (choose 10), .step 0 (choose 11), .step 0 (choose 12)]

end Mesty.Stories.Visibility
