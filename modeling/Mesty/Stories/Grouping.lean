import Mesty.Refinement.Grouping
import Mesty.Stories.Handlers

namespace Mesty.Stories.Grouping

open Mesty.Base.Ids Mesty.Base.Error Mesty.Concurrency.Program Mesty.Paging.Keyset
open Mesty.Refinement.Grouping
open Mesty.Stories.Repository Mesty.Stories.Handlers

/-- `ORDER BY has_viewed ASC, created_at DESC` -/
def listRank (s : StoryWithUser) : Bool ×ₗ Timestampᵒᵈ :=
  toLex (s.hasViewed, OrderDual.toDual s.createdAt)

/-- A result of the query. Stories with equal ranks come in any order. -/
structure Listed (db : StoriesDb) (userId : Uuid) where
  stories : List StoryWithUser
  rows : stories.Perm (db.listForUser userId)
  sorted : stories.Pairwise (fun s t => listRank s ≤ listRank t)

def Listed.ofTable (db : StoriesDb) (userId : Uuid) : Listed db userId :=
  ⟨db.listForUser userId, .refl _, sortBy_pairwise _⟩

/-- The groups are those of the authors, in the order of their first stories, each with all stories of
the author as they are listed, and what is viewed completely comes last. -/
structure Grouped (stories : List StoryWithUser) (groups : List GroupedStoriesResponse) : Prop where
  authors : (groups.map GroupedStoriesResponse.userId).Nodup
  all : (groups.flatMap GroupedStoriesResponse.stories).Perm (stories.map toItem)
  own : ∀ g ∈ groups, g.stories =
    (stories.filter (fun s => s.userId = g.userId)).map toItem
  order : groups.Pairwise (fun g h => (stories.map StoryWithUser.userId).idxOf g.userId <
    (stories.map StoryWithUser.userId).idxOf h.userId)
  unviewed : groups.Pairwise (fun g h =>
    (∃ i ∈ h.stories, i.hasViewed = false) → ∃ i ∈ g.stories, i.hasViewed = false)

section Loop

def start (s : StoryWithUser) : GroupedStoriesResponse :=
  ⟨s.userId, s.username, s.displayName, s.avatarUrl, []⟩

def push (g : GroupedStoriesResponse) (s : StoryWithUser) : GroupedStoriesResponse :=
  { g with stories := g.stories ++ [toItem s] }

abbrev authorGroup (stories : List StoryWithUser) (s : StoryWithUser) : GroupedStoriesResponse :=
  groupOf StoryWithUser.userId start push stories s

theorem userId_start (s : StoryWithUser) : (start s).userId = s.userId := rfl

theorem userId_push (g : GroupedStoriesResponse) (s : StoryWithUser) : (push g s).userId = g.userId :=
  rfl

theorem insertStory_eq (s : StoryWithUser) (groups : List GroupedStoriesResponse) :
    insertStory s groups =
      place StoryWithUser.userId GroupedStoriesResponse.userId start push s groups := by
  induction groups with
  | nil => rfl
  | cons g groups ih => rw [insertStory, place, ih, push]

theorem groupStories_eq (stories : List StoryWithUser) :
    groupStories stories = (firsts StoryWithUser.userId stories).map (authorGroup stories) := by
  rw [groupStories, ← foldl_place userId_start userId_push]
  simp only [insertStory_eq]

theorem userId_authorGroup (stories : List StoryWithUser) (s : StoryWithUser) :
    (authorGroup stories s).userId = s.userId :=
  keyOf_groupOf userId_start userId_push stories s

theorem stories_authorGroup (stories : List StoryWithUser) (s : StoryWithUser) :
    (authorGroup stories s).stories = (like StoryWithUser.userId stories s).map toItem := by
  have hfold : ∀ (xs : List StoryWithUser) (g : GroupedStoriesResponse),
      (xs.foldl push g).stories = g.stories ++ xs.map toItem := by
    intro xs
    induction xs with
    | nil => exact fun g => (List.append_nil _).symm
    | cons x xs ih =>
      intro g
      rw [List.foldl_cons, ih, push, List.append_assoc]
      rfl
  exact hfold _ _

/-- No story is lost, and none is shown twice. -/
theorem flatMap_groupStories (stories : List StoryWithUser) :
    ((groupStories stories).flatMap GroupedStoriesResponse.stories).Perm (stories.map toItem) := by
  rw [groupStories_eq, List.flatMap_map]
  simp only [stories_authorGroup]
  rw [← List.map_flatMap]
  exact (flatMap_like_perm stories).map toItem

end Loop

section Order

variable {stories : List StoryWithUser} {s t : StoryWithUser}

theorem unviewed_of_le (h : listRank s ≤ listRank t) (ht : t.hasViewed = false) :
    s.hasViewed = false := by
  rw [listRank, listRank, Prod.Lex.toLex_le_toLex] at h
  rcases h with hlt | ⟨heq, -⟩
  · exact le_antisymm (hlt.le.trans ht.le) bot_le
  · exact heq.trans ht

/-- The group is viewed completely if its first story is. -/
theorem unviewed_iff (hsorted : stories.Pairwise (fun s t => listRank s ≤ listRank t))
    (hs : s ∈ firsts StoryWithUser.userId stories) :
    (∃ i ∈ (authorGroup stories s).stories, i.hasViewed = false) ↔ s.hasViewed = false := by
  rw [stories_authorGroup]
  constructor
  · rintro ⟨i, hi, hviewed⟩
    obtain ⟨t, ht, rfl⟩ := List.mem_map.mp hi
    have hle : listRank s ≤ listRank t :=
      firsts_le (R := fun s t => listRank s ≤ listRank t) (fun _ => le_rfl) hsorted hs t ht
    exact unviewed_of_le hle hviewed
  · intro hviewed
    have hself : s ∈ like StoryWithUser.userId stories s :=
      List.mem_filter.mpr ⟨(firsts_sublist stories).subset hs, decide_eq_true rfl⟩
    exact ⟨toItem s, List.mem_map_of_mem hself, hviewed⟩

theorem grouped_groupStories (hsorted : stories.Pairwise (fun s t => listRank s ≤ listRank t)) :
    Grouped stories (groupStories stories) := by
  have hall := flatMap_groupStories stories
  rw [groupStories_eq] at hall ⊢
  refine ⟨?_, hall, ?_, ?_, ?_⟩
  · rw [List.map_map]
    simpa only [Function.comp_def, userId_authorGroup] using nodup_firsts stories
  · intro g hg
    obtain ⟨s, -, rfl⟩ := List.mem_map.mp hg
    rw [stories_authorGroup, userId_authorGroup]
    rfl
  · rw [List.pairwise_map]
    simpa only [userId_authorGroup] using firsts_order stories
  · rw [List.pairwise_map]
    refine (hsorted.sublist (firsts_sublist stories)).imp_of_mem fun hs ht hle => ?_
    rw [unviewed_iff hsorted hs, unviewed_iff hsorted ht]
    exact unviewed_of_le hle

end Order

/-- Whatever the query returns, `list_stories` groups it by author, without losing a story or changing
the order, so that no group that is viewed completely comes before one with an unviewed
story. -/
theorem stories_grouped (db : StoriesDb) (userId : Uuid) (l : Listed db userId) :
    ∃ respond groups, (listStories userId).run = .call (.listForUser userId) respond ∧
      respond (.ok l.stories) = .ret (.ok (.grouped groups)) ∧ Grouped l.stories groups :=
  ⟨_, groupStories l.stories, rfl, rfl, grouped_groupStories l.sorted⟩

end Mesty.Stories.Grouping
