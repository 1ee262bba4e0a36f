import Mathlib.Data.List.AList
import Mathlib.Data.Prod.Lex
import Mesty.Base.Error
import Mesty.Base.Ids
import Mesty.Base.Text
import Mesty.Concurrency.Program
import Mesty.Paging.Keyset

namespace Mesty.Stories.Repository

open Mesty.Base.Ids Mesty.Base.Error Mesty.Base.Text Mesty.Concurrency.Program Mesty.Paging.Keyset

/-- `TIMESTAMPTZ`, in microseconds. -/
abbrev Timestamp := Int

/-- The type `story_privacy` of the database. -/
inductive StoryPrivacy where
  | everyone
  | contacts
  | contactsExcept
  | onlyMe
  | selected
  deriving DecidableEq

namespace StoryPrivacy

def asDbStr : StoryPrivacy → String
  | everyone => "everyone"
  | contacts => "contacts"
  | contactsExcept => "contacts_except"
  | onlyMe => "only_me"
  | selected => "selected"

/-- The cast `::story_privacy`. -/
def fromDbStr (s : String) : Option StoryPrivacy :=
  [everyone, contacts, contactsExcept, onlyMe, selected].find? (fun p => p.asDbStr = s)

theorem asDbStr_of_fromDbStr {s : String} {p : StoryPrivacy} (h : fromDbStr s = some p) :
    p.asDbStr = s := by
  simpa using List.find?_some h

theorem fromDbStr_asDbStr (p : StoryPrivacy) : fromDbStr p.asDbStr = some p := by
  cases p <;> decide

end StoryPrivacy

structure StoryRow where
  userId : Uuid
  contentUrl : String
  contentType : String
  caption : Option String
  privacy : StoryPrivacy
  createdAt : Timestamp
  expiresAt : Timestamp
  deletedAt : Option Timestamp
  deriving DecidableEq

structure Story where
  id : Uuid
  userId : Uuid
  contentUrl : String
  contentType : String
  caption : Option String
  privacy : String
  createdAt : Timestamp
  expiresAt : Timestamp
  deletedAt : Option Timestamp
  deriving DecidableEq

def StoryRow.toStory (id : Uuid) (row : StoryRow) : Story :=
  ⟨id, row.userId, row.contentUrl, row.contentType, row.caption, row.privacy.asDbStr,
    row.createdAt, row.expiresAt, row.deletedAt⟩

structure StoryWithUser where
  id : Uuid
  userId : Uuid
  contentUrl : String
  contentType : String
  caption : Option String
  privacy : String
  createdAt : Timestamp
  expiresAt : Timestamp
  username : Option String
  displayName : Option String
  avatarUrl : Option String
  hasViewed : Bool
  deriving DecidableEq

/-- A row of `users`, with the display name of the profile if there is one. -/
structure UserRow where
  username : Option String
  displayName : Option String
  avatarUrl : Option String
  deriving DecidableEq

/-- A row of `story_views`. -/
structure ViewRow where
  reaction : Option String
  viewedAt : Timestamp
  deriving DecidableEq

structure StoryViewWithUser where
  viewerId : Uuid
  displayName : Option String
  avatarUrl : Option String
  reaction : Option String
  viewedAt : Timestamp
  deriving DecidableEq

structure StoriesDb where
  /-- The clock of the database. -/
  now : Timestamp
  users : AList (fun _ : Uuid => UserRow)
  /-- The columns `owner_id` and `contact_id` of `contacts`. -/
  contacts : List (Uuid × Option Uuid)
  stories : AList (fun _ : Uuid => StoryRow)
  /-- Keyed by story and user, with the column `is_excluded`. -/
  exceptions : AList (fun _ : Uuid × Uuid => Bool)
  /-- Keyed by story and viewer. -/
  views : AList (fun _ : Uuid × Uuid => ViewRow)

structure PushNotificationJob where
  userId : Uuid
  notificationType : String
  payload : List (String × String)
  deriving DecidableEq

structure NewNotification where
  userId : Uuid
  notificationType : String
  data : List (String × String)
  deriving DecidableEq

/-- The statements of the story repository, each committed on its own, and what the story
handlers ask besides. -/
inductive StoryCmd where
  | create (userId : Uuid) (contentUrl contentType : String) (caption : Option String)
    (privacy : String)
  | findById (id : Uuid)
  | delete (id userId : Uuid)
  | addPrivacyException (storyId userId : Uuid) (isExcluded : Bool)
  | markViewed (storyId viewerId : Uuid)
  | addReaction (storyId viewerId : Uuid) (reaction : String)
  | getViewsWithUser (storyId : Uuid)
  | hasViewed (storyId viewerId : Uuid)
  | canUserViewStory (storyId viewerId : Uuid)
  | listForUser (userId : Uuid)
  | listMyStories (userId : Uuid)
  | createNotification (notification : NewNotification)
  | isOnline (userId : Uuid)
  | enqueuePush (job : PushNotificationJob)

/-- The error of a statement. If the statement has been executed, what the database has answered is
lost with it; the handlers see the error alone. -/
structure QueryError (α : Type) where
  error : DomainError
  lost : Option α

def QueryError.refused {α : Type} (e : SqlError) : QueryError α := ⟨.fromSqlx e, none⟩

abbrev Answer (α : Type) := Except (QueryError α) α

/-- What the database has answered, whether it has arrived or not. -/
def Answer.given {α : Type} : Answer α → Option α
  | .ok a => some a
  | .error e => e.lost

abbrev StoryCmd.Ans : StoryCmd → Type
  | create .. => Answer Story
  | findById _ => Answer (Option Story)
  | delete .. | addPrivacyException .. | markViewed .. | addReaction .. => Answer Unit
  | getViewsWithUser _ => Answer (List StoryViewWithUser)
  | hasViewed .. | canUserViewStory .. => Answer Bool
  | listForUser _ | listMyStories _ => Answer (List StoryWithUser)
  | createNotification _ | isOnline _ => Bool
  | enqueuePush _ => Unit

/-- What happens outside the story requests. -/
inductive Change where
  | time (elapsed : Nat)
  | user (id : Uuid) (row : UserRow)
  | contacts (contacts : List (Uuid × Option Uuid))
  deriving DecidableEq

/-- How a statement fails: it has not been executed, or its answer is lost. -/
structure Fault where
  error : SqlError
  executed : Bool
  deriving DecidableEq

structure StoryChoice where
  uuid : Uuid
  fault : Option Fault
  flag : Bool
  change : Change

/-- `expires_at` is by default 24 hours later. -/
def lifetime : Timestamp := 24 * 60 * 60 * 1000000

namespace StoriesDb

def empty (users : AList (fun _ : Uuid => UserRow)) : StoriesDb := ⟨0, users, [], ∅, ∅, ∅⟩

variable (db : StoriesDb)

/-- `deleted_at IS NULL AND expires_at > NOW()` -/
def isLive (row : StoryRow) : Bool := row.deletedAt.isNone && decide (row.expiresAt > db.now)

def liveStory (id : Uuid) : Option StoryRow := (db.stories.lookup id).filter db.isLive

def hasContact (ownerId contactId : Uuid) : Bool := (ownerId, some contactId) ∈ db.contacts

def hasException (storyId userId : Uuid) (isExcluded : Bool) : Bool :=
  db.exceptions.lookup (storyId, userId) = some isExcluded

def canUserViewStory (storyId viewerId : Uuid) : Bool :=
  (db.stories.lookup storyId).any (fun s => db.isLive s && s.userId ≠ viewerId &&
    (s.privacy = .everyone ||
      (s.privacy = .contacts && db.hasContact s.userId viewerId) ||
      (s.privacy = .contactsExcept && db.hasContact s.userId viewerId &&
        !db.hasException storyId viewerId true) ||
      (s.privacy = .selected && db.hasException storyId viewerId false)))

def toStoryWithUser (id : Uuid) (s : StoryRow) (u : UserRow) (hasViewed : Bool) : StoryWithUser :=
  ⟨id, s.userId, s.contentUrl, s.contentType, s.caption, s.privacy.asDbStr, s.createdAt,
    s.expiresAt, u.username, some (u.displayName.getD ""), u.avatarUrl, hasViewed⟩

/-- The stories that a query selects, each with its author. -/
def selectStories (p : Uuid → StoryRow → Bool) (hasViewed : Uuid → Bool) : List StoryWithUser :=
  (db.stories.entries.filter (fun e => p e.1 e.2)).filterMap (fun e =>
    (db.users.lookup e.2.userId).map (fun u => toStoryWithUser e.1 e.2 u (hasViewed e.1)))

def hasViewed (storyId viewerId : Uuid) : Bool := (storyId, viewerId) ∈ db.views

/-- Stories with equal keys come in the order of the table. -/
def listForUser (userId : Uuid) : List StoryWithUser :=
  sortBy (fun s => toLex (s.hasViewed, OrderDual.toDual s.createdAt))
    (db.selectStories (fun id s => db.isLive s && s.userId ≠ userId &&
      (s.privacy = .everyone ||
        (s.privacy = .contacts && db.hasContact s.userId userId) ||
        (s.privacy = .contactsExcept && db.hasContact s.userId userId &&
          !db.hasException id userId true) ||
        (s.privacy = .selected && db.hasException id userId false)))
      (fun id => db.hasViewed id userId))

def listMyStories (userId : Uuid) : List StoryWithUser :=
  sortBy (fun s => OrderDual.toDual s.createdAt)
    (db.selectStories (fun _ s => s.userId = userId && db.isLive s) (fun _ => true))

def create (ω : StoryChoice) (userId : Uuid) (contentUrl contentType : String)
    (caption : Option String) (privacy : String) : Option (Answer Story × StoriesDb) :=
  match StoryPrivacy.fromDbStr privacy with
  | none => some (.error (.refused .other), db)
  | some privacy =>
    if ¬ (Storable contentUrl ∧ Storable contentType ∧ ∀ text ∈ caption, Storable text) then
      some (.error (.refused .other), db)
    else if userId ∉ db.users then some (.error (.refused .foreignKeyViolation), db)
    else if ω.uuid ∈ db.stories then none
    else
      let row : StoryRow := ⟨userId, contentUrl, contentType, caption, privacy, db.now,
        db.now + lifetime, none⟩
      some (.ok (row.toStory ω.uuid), { db with stories := db.stories.insert ω.uuid row })

def delete (id userId : Uuid) : StoriesDb :=
  match db.stories.lookup id with
  | none => db
  | some row =>
    if row.userId = userId then
      { db with stories := db.stories.insert id { row with deletedAt := some db.now } }
    else db

/-- The foreign keys of `story_privacy_exceptions` and `story_views`. -/
def refersTo (storyId userId : Uuid) : Bool := storyId ∈ db.stories && userId ∈ db.users

def addPrivacyException (storyId userId : Uuid) (isExcluded : Bool) :
    Answer Unit × StoriesDb :=
  if db.refersTo storyId userId then
    (.ok (), { db with exceptions := db.exceptions.insert (storyId, userId) isExcluded })
  else (.error (.refused .foreignKeyViolation), db)

def markViewed (storyId viewerId : Uuid) : Answer Unit × StoriesDb :=
  if db.refersTo storyId viewerId then
    let reaction := (db.views.lookup (storyId, viewerId)).bind ViewRow.reaction
    (.ok (), { db with views := db.views.insert (storyId, viewerId) ⟨reaction, db.now⟩ })
  else (.error (.refused .foreignKeyViolation), db)

def addReaction (storyId viewerId : Uuid) (reaction : String) : Answer Unit × StoriesDb :=
  if ¬ Storable reaction then (.error (.refused .other), db)
  else if db.refersTo storyId viewerId then
    (.ok (), { db with views := db.views.insert (storyId, viewerId) ⟨some reaction, db.now⟩ })
  else (.error (.refused .foreignKeyViolation), db)

def getViewsWithUser (storyId : Uuid) : List StoryViewWithUser :=
  sortBy (fun v => OrderDual.toDual v.viewedAt)
    ((db.views.entries.filter (fun e => e.1.1 = storyId)).filterMap (fun e =>
      (db.users.lookup e.1.2).map (fun u =>
        ⟨e.1.2, some (u.displayName.getD ""), u.avatarUrl, e.2.reaction, e.2.viewedAt⟩)))

/-- What a statement does when the database answers it. -/
def answer (ω : StoryChoice) : (c : StoryCmd) → StoriesDb → Option (c.Ans × StoriesDb)
  | .create userId contentUrl contentType caption privacy, db =>
    db.create ω userId contentUrl contentType caption privacy
  | .findById id, db => some (.ok ((db.liveStory id).map (StoryRow.toStory id)), db)
  | .delete id userId, db => some (.ok (), db.delete id userId)
  | .addPrivacyException storyId userId isExcluded, db =>
    some (db.addPrivacyException storyId userId isExcluded)
  | .markViewed storyId viewerId, db => some (db.markViewed storyId viewerId)
  | .addReaction storyId viewerId reaction, db => some (db.addReaction storyId viewerId reaction)
  | .getViewsWithUser storyId, db => some (.ok (db.getViewsWithUser storyId), db)
  | .hasViewed storyId viewerId, db => some (.ok (db.hasViewed storyId viewerId), db)
  | .canUserViewStory storyId viewerId, db => some (.ok (db.canUserViewStory storyId viewerId), db)
  | .listForUser userId, db => some (.ok (db.listForUser userId), db)
  | .listMyStories userId, db => some (.ok (db.listMyStories userId), db)
  | .createNotification _, db | .isOnline _, db => some (ω.flag, db)
  | .enqueuePush _, db => some ((), db)

/-- The error that a fault becomes, where the statement has not been executed. -/
def failed (e : SqlError) : (c : StoryCmd) → c.Ans
  | .create .. | .findById _ | .delete .. | .addPrivacyException .. | .markViewed .. |
    .addReaction .. | .getViewsWithUser _ | .hasViewed .. | .canUserViewStory .. |
    .listForUser _ | .listMyStories _ => .error (.refused e)
  | .createNotification _ | .isOnline _ => false
  | .enqueuePush _ => ()

/-- The error that a fault becomes, where the answer is lost. -/
def lose (e : SqlError) : (c : StoryCmd) → c.Ans → c.Ans
  | .create .., r | .findById _, r | .delete .., r | .addPrivacyException .., r |
    .markViewed .., r | .addReaction .., r | .getViewsWithUser _, r | .hasViewed .., r |
    .canUserViewStory .., r | .listForUser _, r | .listMyStories _, r =>
      .error ⟨.fromSqlx e, r.given⟩
  | .createNotification _, _ | .isOnline _, _ => false
  | .enqueuePush _, _ => ()

def exec (ω : StoryChoice) (c : StoryCmd) (db : StoriesDb) : Option (c.Ans × StoriesDb) :=
  match ω.fault with
  | none => db.answer ω c
  | some f =>
    if f.executed then (db.answer ω c).map (fun out => (lose f.error c out.1, out.2))
    else some (failed f.error c, db)

/-- Time passes, users register, and contacts change. -/
def tick (ω : StoryChoice) (db : StoriesDb) : Option StoriesDb :=
  match ω.change with
  | .time elapsed => some { db with now := db.now + elapsed }
  | .user id row => some { db with users := db.users.insert id row }
  | .contacts contacts => some { db with contacts := contacts }

end StoriesDb

end Mesty.Stories.Repository
