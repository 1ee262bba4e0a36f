import Mesty.Concurrency.Pool
import Mesty.Stories.Repository

namespace Mesty.Stories.Handlers

open Mesty.Base.Ids Mesty.Base.Error Mesty.Concurrency.Program Mesty.Concurrency.Pool
open Mesty.Stories.Repository

/-- The task of a request: it may end with an error at each `?`. -/
abbrev StoryTask := ExceptT DomainError (Prog StoryCmd StoryCmd.Ans)

namespace StoryTask

variable {α : Type}

def ask (c : StoryCmd) : StoryTask c.Ans := ExceptT.lift (Prog.cmd c)

/-- A statement whose answer is a `Result`. -/
def attempt (p : Prog StoryCmd StoryCmd.Ans (Answer α)) : StoryTask α :=
  ExceptT.mk (p >>= fun r => return r.mapError QueryError.error)

def okOr (o : Option α) (e : DomainError) : StoryTask α :=
  match o with
  | none => throw e
  | some a => pure a

end StoryTask

open StoryTask

structure CreateStoryRequest where
  contentUrl : String
  contentType : String
  caption : Option String
  privacy : String
  exceptions : Option (List Uuid)
  deriving DecidableEq

structure UserStoryItem where
  id : Uuid
  contentUrl : String
  contentType : String
  caption : Option String
  privacy : String
  createdAt : Timestamp
  expiresAt : Timestamp
  hasViewed : Bool
  deriving DecidableEq

structure GroupedStoriesResponse where
  userId : Uuid
  username : Option String
  displayName : Option String
  avatarUrl : Option String
  stories : List UserStoryItem
  deriving DecidableEq

inductive StoryResponse where
  | created (id : Uuid) (expiresAt : Timestamp)
  | grouped (groups : List GroupedStoriesResponse)
  | mine (stories : List StoryWithUser)
  | views (views : List StoryViewWithUser)
  | done
  deriving DecidableEq

def validPrivacyValues : List String :=
  ["everyone", "contacts", "contacts_except", "only_me", "selected"]

def isValidPrivacy (v : String) : Bool := v ∈ validPrivacyValues

/-- One statement for each exception, until one fails. -/
def addExceptions (storyId : Uuid) (isExcluded : Bool) : List Uuid → StoryTask Unit
  | [] => pure ()
  | userId :: exceptions => do
    attempt (Prog.cmd (StoryCmd.addPrivacyException storyId userId isExcluded))
    addExceptions storyId isExcluded exceptions

def createStory (authId : Uuid) (req : CreateStoryRequest) : StoryTask StoryResponse := do
  if isValidPrivacy req.privacy then
    let story ← attempt (Prog.cmd (StoryCmd.create authId req.contentUrl req.contentType req.caption
      req.privacy))
    addExceptions story.id (decide (req.privacy = "contacts_except")) (req.exceptions.getD [])
    return .created story.id story.expiresAt
  else
    throw (.validation ("Invalid privacy value. Must be one of: everyone, contacts, " ++
      "contacts_except, only_me, selected"))

def toItem (s : StoryWithUser) : UserStoryItem :=
  ⟨s.id, s.contentUrl, s.contentType, s.caption, s.privacy, s.createdAt, s.expiresAt, s.hasViewed⟩

/-- The story goes to the group of its author, which is made when it is the first one. -/
def insertStory (s : StoryWithUser) : List GroupedStoriesResponse → List GroupedStoriesResponse
  | [] => [⟨s.userId, s.username, s.displayName, s.avatarUrl, [toItem s]⟩]
  | g :: gs =>
    if g.userId = s.userId then { g with stories := g.stories ++ [toItem s] } :: gs
    else g :: insertStory s gs

def groupStories (stories : List StoryWithUser) : List GroupedStoriesResponse :=
  stories.foldl (fun grouped s => insertStory s grouped) []

def listStories (authId : Uuid) : StoryTask StoryResponse := do
  let stories ← attempt (Prog.cmd (StoryCmd.listForUser authId))
  return .grouped (groupStories stories)

def listMyStories (authId : Uuid) : StoryTask StoryResponse := do
  let stories ← attempt (Prog.cmd (StoryCmd.listMyStories authId))
  return .mine stories

def findStory (storyId : Uuid) : StoryTask Story := do
  let story ← attempt (Prog.cmd (StoryCmd.findById storyId))
  okOr story (.notFound "Story not found")

def deleteStory (authId storyId : Uuid) : StoryTask StoryResponse := do
  let story ← findStory storyId
  if story.userId ≠ authId then
    throw (.unauthorized "Cannot delete another user's story")
  else
    attempt (Prog.cmd (StoryCmd.delete storyId authId))
    return .done

/-- The author is told, and gets a push notification when not connected. -/
def notifyAuthor (authorId : Uuid) (type : String) (data : List (String × String)) :
    StoryTask Unit := do
  let _ ← ask (.createNotification ⟨authorId, type, data⟩)
  if !(← ask (.isOnline authorId)) then
    ask (.enqueuePush ⟨authorId, type, data⟩)

def viewStory (authId storyId : Uuid) : StoryTask StoryResponse := do
  let story ← findStory storyId
  if story.userId = authId then
    return .done
  else if ← attempt (Prog.cmd (StoryCmd.canUserViewStory storyId authId)) then
    attempt (Prog.cmd (StoryCmd.markViewed storyId authId))
    notifyAuthor story.userId "story_view"
      [("story_id", story.id.toString), ("viewer_id", authId.toString)]
    return .done
  else
    throw (.unauthorized "You do not have permission to view this story")

def reactToStory (authId storyId : Uuid) (reaction : String) : StoryTask StoryResponse := do
  let story ← findStory storyId
  if story.userId = authId then
    return .done
  else if ← attempt (Prog.cmd (StoryCmd.canUserViewStory storyId authId)) then
    if ← attempt (Prog.cmd (StoryCmd.hasViewed storyId authId)) then
      attempt (Prog.cmd (StoryCmd.addReaction storyId authId reaction))
      notifyAuthor story.userId "story_reaction"
        [("story_id", story.id.toString), ("reactor_id", authId.toString), ("reaction", reaction)]
      return .done
    else
      throw (.validation "Cannot react to a story you haven't viewed")
  else
    throw (.unauthorized "You do not have permission to interact with this story")

def getStoryViews (authId storyId : Uuid) : StoryTask StoryResponse := do
  let story ← findStory storyId
  if story.userId ≠ authId then
    throw (.unauthorized "Only the story author can view viewers")
  else
    let views ← attempt (Prog.cmd (StoryCmd.getViewsWithUser storyId))
    return .views views

inductive StoryReq where
  | createStory (req : CreateStoryRequest)
  | listStories
  | listMyStories
  | deleteStory (storyId : Uuid)
  | viewStory (storyId : Uuid)
  | reactToStory (storyId : Uuid) (reaction : String)
  | getStoryViews (storyId : Uuid)
  deriving DecidableEq

/-- A request of an authenticated user. -/
def handle (authId : Uuid) : StoryReq → StoryTask StoryResponse
  | .createStory req => createStory authId req
  | .listStories => listStories authId
  | .listMyStories => listMyStories authId
  | .deleteStory storyId => deleteStory authId storyId
  | .viewStory storyId => viewStory authId storyId
  | .reactToStory storyId reaction => reactToStory authId storyId reaction
  | .getStoryViews storyId => getStoryViews authId storyId

/-- The story handlers of all users over one database. -/
def storyServer : System StoryCmd StoryCmd.Ans StoriesDb StoryChoice (Uuid × StoryReq)
    (Except ApiError StoryResponse) where
  exec := StoriesDb.exec
  tick := StoriesDb.tick
  handler req := (handle req.1 req.2).run

end Mesty.Stories.Handlers
