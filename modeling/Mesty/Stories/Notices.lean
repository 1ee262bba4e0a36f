import Mesty.Chats.Listing
import Mesty.Stories.Visibility

namespace Mesty.Stories.Notices

open Mesty.Base.Ids Mesty.Base.Error Mesty.Base.Text Mesty.Concurrency.Program Mesty.Concurrency.Pool
open Mesty.Paging.Keyset Mesty.Paging.LookAhead
open Mesty.Chats.Store (ChatStore NotificationRow)
open Mesty.Chats.Listing (NotificationType Notification notificationsOf parseNotification readBack
  Readable listNotificationRows listNotificationRows_eq notifications_nodup)
open Mesty.Stories.Repository Mesty.Stories.Handlers Mesty.Stories.Protocol Mesty.Stories.Records
open Mesty.Stories.Visibility (alice bob twoUsers choose)
open StoryTask

/-- The type `notification_type` of the database. -/
inductive NotificationKind where
  | message
  | reaction
  | groupInvite
  | storyView
  | call
  | system
  deriving DecidableEq

namespace NotificationKind

def asDbStr : NotificationKind → String
  | message => "message"
  | reaction => "reaction"
  | groupInvite => "group_invite"
  | storyView => "story_view"
  | call => "call"
  | system => "system"

/-- The cast `::notification_type`. -/
def fromDbStr (s : String) : Option NotificationKind :=
  [message, reaction, groupInvite, storyView, call, system].find? (fun k => k.asDbStr = s)

end NotificationKind

/-- The tables of the stories, and the one of the notifications. -/
structure NoticeDb where
  stories : StoriesDb
  chats : ChatStore

def insertNotification (db : ChatStore) (row : NotificationRow)
    (h : row.id ∉ db.notifications.map NotificationRow.id) : ChatStore :=
  { db with
    notifications := db.notifications ++ [row]
    uniqueNotifications := by
      rw [List.map_append, List.map_singleton, ← List.concat_eq_append]
      exact db.uniqueNotifications.concat h }

namespace NoticeDb

/-- The repository method. `data` is the text of the JSON value. -/
def createNotification (ω : StoryChoice) (userId : Uuid) (notificationType : NotificationType)
    (data : String) (db : NoticeDb) : Option (Except DomainError Notification × NoticeDb) :=
  match NotificationKind.fromDbStr notificationType.asDbStr with
  | none => some (.error (.fromSqlx .other), db)
  | some kind =>
    if userId ∉ db.stories.users then some (.error (.fromSqlx .foreignKeyViolation), db)
    else
      let row : NotificationRow := ⟨ω.uuid, userId, kind.asDbStr, data, false, none, db.stories.now⟩
      if h : row.id ∈ db.chats.notifications.map NotificationRow.id then none
      else
        let out := match parseNotification row with
          | none => .error (.internal "invalid notification type")
          | some n => .ok n
        some (out, ⟨db.stories, insertNotification db.chats row h⟩)

/-- The database answers every statement. `json` renders an object. -/
def exec (json : List (String × String) → String) (ω : StoryChoice) :
    (c : StoryCmd) → NoticeDb → Option (c.Ans × NoticeDb)
  | .createNotification n, db =>
    (NotificationType.fromDbStr n.notificationType).bind (fun notificationType =>
      (db.createNotification ω n.userId notificationType (json n.data)).map (fun out =>
        (out.1.toOption.isSome, out.2)))
  | c, db => (db.stories.answer ω c).map (fun out => (out.1, ⟨out.2, db.chats⟩))

def tick (ω : StoryChoice) (db : NoticeDb) : Option NoticeDb :=
  (db.stories.tick ω).map (fun stories => ⟨stories, db.chats⟩)

end NoticeDb

def noticeServer (json : List (String × String) → String) : System StoryCmd StoryCmd.Ans NoticeDb
    StoryChoice (Uuid × StoryReq) (Except ApiError StoryResponse) where
  exec := NoticeDb.exec json
  tick := NoticeDb.tick
  handler req := (handle req.1 req.2).run

/-- What a user does to a story of another. -/
inductive Interaction where
  | view
  | react (reaction : String)

def Interaction.request (storyId : Uuid) : Interaction → StoryReq
  | view => .viewStory storyId
  | react reaction => .reactToStory storyId reaction

/-- The authors of the stories exist, and the types of all notifications can be read back. -/
structure Consistent (db : NoticeDb) : Prop where
  author : ∀ storyId row, db.stories.stories.lookup storyId = some row → row.userId ∈ db.stories.users
  readable : ∀ row ∈ db.chats.notifications, (parseNotification row).isSome

section Notified

variable (json : List (String × String) → String) (db db' : NoticeDb) (authorId storyId userId : Uuid)

/-- The list of notifications starts with a page that has the row, or it is filled by rows that come
before it. -/
def Shown (row : NotificationRow) (limit : Int) (page : List Notification) : Prop :=
  readBack row ∈ page ∨
    (page.length = (clamp limit 50).toNat ∧ ∀ n ∈ page, n.rank < (readBack row).rank)

/-- There is one more notification: an unread one for the author with the story and the user, and
the author can list it. -/
def Notified : Prop :=
  ∃ row fields, db'.chats.notifications = db.chats.notifications ++ [row] ∧
    row.userId = authorId ∧ row.isRead = false ∧ row.data = json fields ∧
    ("story_id", storyId.toString) ∈ fields ∧ userId.toString ∈ fields.map Prod.snd ∧
    ∀ limit, ∃ page, listNotificationRows db'.chats authorId none limit = .ok page ∧
      Shown row limit page

/-- A success of somebody else than the author notifies the author. -/
def NotifiesAuthor (i : Interaction) : Prop :=
  (handle userId (i.request storyId)).run.wp (NoticeDb.exec json) (fun out db' =>
    ∀ row, out = .ok .done → db.stories.liveStory storyId = some row → row.userId ≠ userId →
      Notified json db db' row.userId storyId userId) db

/-- The user may react to the story, and the database takes the reaction. -/
def Interaction.Reacts : Interaction → Prop
  | view => False
  | react reaction => db.stories.canUserViewStory storyId userId ∧
    db.stories.hasViewed storyId userId ∧ userId ∈ db.stories.users ∧ Storable reaction

end Notified

section Rules

variable {json : List (String × String) → String} {db : NoticeDb} {storyId userId : Uuid} {α : Type}
  {Q : Except DomainError α → NoticeDb → Prop}

instance : Nonempty StoryChoice := ⟨⟨.nil, none, false, .time 0⟩⟩

theorem wp_findStory {f : Story → StoryTask α} :
    (findStory storyId >>= f).run.wp (NoticeDb.exec json) Q db ↔
      (db.stories.liveStory storyId = none → Q (.error (.notFound "Story not found")) db) ∧
        ∀ row, db.stories.liveStory storyId = some row →
          (f (row.toStory storyId)).run.wp (NoticeDb.exec json) Q db := by
  have he : ∀ ω, NoticeDb.exec json ω (.findById storyId) db =
      some (.ok ((db.stories.liveStory storyId).map (StoryRow.toStory storyId)), db) := fun _ => rfl
  refine (Prog.wp_call_iff he).trans ((forall_const StoryChoice).trans ?_)
  cases db.stories.liveStory storyId with
  | none => exact ⟨fun h => ⟨fun _ => h, by rintro _ ⟨⟩⟩, fun h => h.1 rfl⟩
  | some row =>
    exact ⟨fun h => ⟨by rintro ⟨⟩, fun _ hrow => Option.some.inj hrow ▸ h⟩, fun h => h.2 row rfl⟩

theorem wp_canUserViewStory {f : Bool → StoryTask α} :
    (attempt (Prog.cmd (StoryCmd.canUserViewStory storyId userId)) >>= f).run.wp
        (NoticeDb.exec json) Q db ↔
      (f (db.stories.canUserViewStory storyId userId)).run.wp (NoticeDb.exec json) Q db := by
  have he : ∀ ω, NoticeDb.exec json ω (.canUserViewStory storyId userId) db =
      some (.ok (db.stories.canUserViewStory storyId userId), db) := fun _ => rfl
  exact (Prog.wp_call_iff he).trans (forall_const StoryChoice)

theorem wp_hasViewed {f : Bool → StoryTask α} :
    (attempt (Prog.cmd (StoryCmd.hasViewed storyId userId)) >>= f).run.wp (NoticeDb.exec json) Q db ↔
      (f (db.stories.hasViewed storyId userId)).run.wp (NoticeDb.exec json) Q db := by
  have he : ∀ ω, NoticeDb.exec json ω (.hasViewed storyId userId) db =
      some (.ok (db.stories.hasViewed storyId userId), db) := fun _ => rfl
  exact (Prog.wp_call_iff he).trans (forall_const StoryChoice)

/-- A write that is refused changes nothing. -/
theorem wp_write {write : Prog StoryCmd StoryCmd.Ans (Answer Unit)} {out : Answer Unit × StoriesDb}
    {taken : Prop} {f : Unit → StoryTask α} (herror : ∀ e, Q (.error e) db)
    (hwrite : ∀ Q : Answer Unit → NoticeDb → Prop,
      write.wp (NoticeDb.exec json) Q db ↔ Q out.1 ⟨out.2, db.chats⟩)
    (hout : (taken ∧ out.1 = .ok ()) ∨ ¬ taken ∧ ∃ e, out = (.error e, db.stories)) :
    (attempt write >>= f).run.wp (NoticeDb.exec json) Q db ↔
      (taken → (f ()).run.wp (NoticeDb.exec json) Q ⟨out.2, db.chats⟩) := by
  rw [Prog.wp_run_bind]
  refine Prog.wp_bind.trans ((hwrite _).trans ?_)
  obtain ⟨htaken, hok⟩ | ⟨hno, e, rfl⟩ := hout
  · rw [hok]
    exact ⟨fun h _ => h, fun h => h htaken⟩
  · exact iff_of_true (herror e.error) fun htaken => absurd htaken hno

theorem markViewed_cases (db : StoriesDb) (storyId userId : Uuid) :
    (db.refersTo storyId userId = true ∧ (db.markViewed storyId userId).1 = .ok ()) ∨
      ¬ db.refersTo storyId userId = true ∧ ∃ e, db.markViewed storyId userId = (.error e, db) := by
  rw [StoriesDb.markViewed]
  split_ifs with hrefers
  · exact .inl ⟨hrefers, rfl⟩
  · exact .inr ⟨hrefers, _, rfl⟩

theorem addReaction_cases (db : StoriesDb) (storyId userId : Uuid) (reaction : String) :
    ((Storable reaction ∧ db.refersTo storyId userId = true) ∧
        (db.addReaction storyId userId reaction).1 = .ok ()) ∨
      ¬ (Storable reaction ∧ db.refersTo storyId userId = true) ∧
        ∃ e, db.addReaction storyId userId reaction = (.error e, db) := by
  rw [StoriesDb.addReaction]
  split_ifs with htext hrefers
  · exact .inl ⟨⟨htext, hrefers⟩, rfl⟩
  · exact .inr ⟨fun h => hrefers h.2, _, rfl⟩
  · exact .inr ⟨fun h => htext h.1, _, rfl⟩

theorem wp_markViewed {f : Unit → StoryTask α} (herror : ∀ e, Q (.error e) db) :
    (attempt (Prog.cmd (StoryCmd.markViewed storyId userId)) >>= f).run.wp (NoticeDb.exec json) Q db ↔
      (db.stories.refersTo storyId userId = true → (f ()).run.wp (NoticeDb.exec json) Q
        ⟨(db.stories.markViewed storyId userId).2, db.chats⟩) := by
  have he : ∀ ω, NoticeDb.exec json ω (.markViewed storyId userId) db =
      some ((db.stories.markViewed storyId userId).1,
        ⟨(db.stories.markViewed storyId userId).2, db.chats⟩) := fun _ => rfl
  exact wp_write herror (fun _ => (Prog.wp_call_iff he).trans (forall_const StoryChoice))
    (markViewed_cases ..)

theorem wp_addReaction {reaction : String} {f : Unit → StoryTask α}
    (herror : ∀ e, Q (.error e) db) :
    (attempt (Prog.cmd (StoryCmd.addReaction storyId userId reaction)) >>= f).run.wp
        (NoticeDb.exec json) Q db ↔
      (Storable reaction ∧ db.stories.refersTo storyId userId = true →
        (f ()).run.wp (NoticeDb.exec json) Q
          ⟨(db.stories.addReaction storyId userId reaction).2, db.chats⟩) := by
  have he : ∀ ω, NoticeDb.exec json ω (.addReaction storyId userId reaction) db =
      some ((db.stories.addReaction storyId userId reaction).1,
        ⟨(db.stories.addReaction storyId userId reaction).2, db.chats⟩) := fun _ => rfl
  exact wp_write herror (fun _ => (Prog.wp_call_iff he).trans (forall_const StoryChoice))
    (addReaction_cases ..)

/-- Whether the author is online makes no difference to the tables. -/
theorem wp_notifyAuthor {authorId : Uuid} {type : String} {data : List (String × String)}
    {Q : Except DomainError Unit → NoticeDb → Prop} :
    (notifyAuthor authorId type data).run.wp (NoticeDb.exec json) Q db ↔
      ∀ ω r db', NoticeDb.exec json ω (.createNotification ⟨authorId, type, data⟩) db = some (r, db') →
        Q (.ok ()) db' := by
  refine forall_congr' fun ω => forall_congr' fun r => forall_congr' fun db' =>
    imp_congr_right fun _ => ?_
  have hasked : ∀ ω, NoticeDb.exec json ω (.isOnline authorId) db' = some (ω.flag, db') := fun _ => rfl
  have hpushed : ∀ ω, NoticeDb.exec json ω (.enqueuePush ⟨authorId, type, data⟩) db' =
      some ((), db') := fun _ => rfl
  refine (Prog.wp_call_iff hasked).trans ?_
  constructor
  · intro h
    exact h ⟨.nil, none, true, .time 0⟩
  · rintro h ⟨uuid, fault, flag, change⟩
    cases flag with
    | true => exact h
    | false => exact (Prog.wp_call_iff hpushed).mpr fun _ => h

end Rules

section Insert

variable {json : List (String × String) → String} {db db' : NoticeDb} {ω : StoryChoice}
  {authorId storyId userId : Uuid} {data : List (String × String)}

/-- This name is one of the type of the database. -/
theorem exec_storyView {r : Bool} (hauthor : authorId ∈ db.stories.users)
    (he : NoticeDb.exec json ω (.createNotification ⟨authorId, "story_view", data⟩) db = some (r, db')) :
    ∃ row, (parseNotification row).isSome ∧ row.userId = authorId ∧ row.isRead = false ∧
      row.data = json data ∧ ∃ h, db' = ⟨db.stories, insertNotification db.chats row h⟩ := by
  have hexec : NoticeDb.exec json ω (.createNotification ⟨authorId, "story_view", data⟩) db =
      (db.createNotification ω authorId .storyView (json data)).map (fun out =>
        (out.1.toOption.isSome, out.2)) := rfl
  have hkind : NotificationKind.fromDbStr NotificationType.storyView.asDbStr = some .storyView := by
    decide
  rw [hexec, NoticeDb.createNotification, hkind] at he
  simp only [hauthor, not_true_eq_false, if_false] at he
  split_ifs at he with hfresh
  · cases he
  · obtain ⟨-, rfl⟩ := Prod.mk.inj (Option.some.inj he)
    exact ⟨_, rfl, rfl, rfl, rfl, hfresh, rfl⟩

/-- This one is not. -/
theorem exec_storyReaction (json : List (String × String) → String) (ω : StoryChoice)
    (authorId : Uuid) (data : List (String × String)) (db : NoticeDb) :
    NoticeDb.exec json ω (.createNotification ⟨authorId, "story_reaction", data⟩) db =
      some (false, db) := by
  have hexec : NoticeDb.exec json ω (.createNotification ⟨authorId, "story_reaction", data⟩) db =
      (db.createNotification ω authorId .storyReaction (json data)).map (fun out =>
        (out.1.toOption.isSome, out.2)) := rfl
  have hkind : NotificationKind.fromDbStr NotificationType.storyReaction.asDbStr = none := by decide
  rw [hexec, NoticeDb.createNotification, hkind]
  rfl

theorem readable_insert {chats : ChatStore} {row : NotificationRow} {h}
    (hreadable : ∀ row ∈ chats.notifications, (parseNotification row).isSome)
    (hrow : (parseNotification row).isSome) :
    ∀ row' ∈ (insertNotification chats row h).notifications, (parseNotification row').isSome := by
  intro row' hmem
  rcases List.mem_append.mp hmem with hmem | hmem
  · exact hreadable row' hmem
  · exact List.mem_singleton.mp hmem ▸ hrow

/-- What is stored for the author, the author can list. -/
theorem shown_insert {chats : ChatStore} {row : NotificationRow}
    (hreadable : ∀ row ∈ chats.notifications, (parseNotification row).isSome)
    (hrow : row ∈ chats.notifications) (limit : Int) :
    ∃ page, listNotificationRows chats row.userId none limit = .ok page ∧ Shown row limit page := by
  have hreads : Readable chats row.userId := fun r hr => hreadable r (List.mem_filter.mp hr).1
  have hown : row ∈ notificationsOf chats row.userId :=
    List.mem_filter.mpr ⟨hrow, decide_eq_true rfl⟩
  have hnodup : (((notificationsOf chats row.userId).map readBack).map Notification.rank).Nodup := by
    rw [List.map_map]
    exact notifications_nodup chats row.userId
  exact ⟨_, listNotificationRows_eq hreads none limit,
    mem_select_or hnodup (List.mem_map_of_mem hown) _⟩

end Insert

section Requests

variable {json : List (String × String) → String} {db : NoticeDb} {storyId userId : Uuid}

theorem users_markViewed (db : StoriesDb) : (db.markViewed storyId userId).2.users = db.users := by
  rw [StoriesDb.markViewed]
  split_ifs <;> rfl

theorem notifies_view (h : Consistent db) : NotifiesAuthor json db storyId userId .view := by
  change (viewStory userId storyId).run.wp _ _ _
  rw [viewStory, wp_findStory]
  refine ⟨fun _ _ => by rintro ⟨⟩, fun row hrow => ?_⟩
  split_ifs with hself
  · rintro row' - hrow' hne
    exact absurd hself (Option.some.inj (hrow.symm.trans hrow') ▸ hne)
  rw [wp_canUserViewStory]
  split_ifs
  · refine (wp_markViewed fun e => by rintro _ ⟨⟩).mpr fun _ => ?_
    rw [Prog.wp_run_bind, wp_notifyAuthor]
    rintro ω r db' he row' - hrow' -
    obtain rfl := Option.some.inj (hrow.symm.trans hrow')
    have hauthor := h.author storyId row (Option.filter_eq_some_iff.mp hrow).1
    obtain ⟨notice, hparse, huser, hunread, hdata, hfresh, rfl⟩ :=
      exec_storyView (users_markViewed db.stories ▸ hauthor) he
    refine ⟨notice, _, rfl, huser, hunread, hdata, List.mem_cons_self, by simp, fun limit => ?_⟩
    rw [← show notice.userId = row.userId from huser]
    exact shown_insert (readable_insert (h := hfresh) h.readable hparse)
      (List.mem_append_right _ (List.mem_singleton_self notice)) limit
  · rintro _ ⟨⟩

theorem live_of_canView (h : db.stories.canUserViewStory storyId userId = true) :
    ∃ row, db.stories.liveStory storyId = some row ∧ row.userId ≠ userId := by
  obtain ⟨row, hrow, hpermits⟩ := (Option.any_eq_true _ _).mp h
  simp only [Bool.and_eq_true] at hpermits
  obtain ⟨⟨hlive, hne⟩, -⟩ := hpermits
  exact ⟨row, Option.filter_eq_some_iff.mpr ⟨hrow, hlive⟩, of_decide_eq_true hne⟩

/-- Nothing is stored for the author. -/
theorem not_notified {db : NoticeDb} {stories : StoriesDb} {authorId : Uuid} :
    ¬ Notified json db ⟨stories, db.chats⟩ authorId storyId userId := by
  rintro ⟨row, _, heq, -⟩
  have hlength := congrArg List.length heq
  simp at hlength

theorem notifies_react_iff {reaction : String} :
    NotifiesAuthor json db storyId userId (.react reaction) ↔
      ¬ (Interaction.react reaction).Reacts db storyId userId := by
  change (reactToStory userId storyId reaction).run.wp _ _ _ ↔ _
  rw [reactToStory, wp_findStory]
  constructor
  · rintro ⟨-, hfound⟩ ⟨hcan, hviewed, huser, htext⟩
    obtain ⟨row, hrow, hne⟩ := live_of_canView hcan
    have hrefers : db.stories.refersTo storyId userId = true := by
      have hstory : storyId ∈ db.stories.stories :=
        AList.lookup_isSome.mp (Option.isSome_of_eq_some (Option.filter_eq_some_iff.mp hrow).1)
      simp [StoriesDb.refersTo, hstory, huser]
    have hwp := hfound row hrow
    have hother : (row.toStory storyId).userId ≠ userId := hne
    rw [if_neg hother, wp_canUserViewStory, if_pos hcan, wp_hasViewed, if_pos hviewed] at hwp
    have hdone := (wp_addReaction fun e => by rintro _ ⟨⟩).mp hwp ⟨htext, hrefers⟩
    rw [Prog.wp_run_bind, wp_notifyAuthor] at hdone
    have ω : StoryChoice := Classical.arbitrary StoryChoice
    exact not_notified (hdone ω _ _ (exec_storyReaction json ω _ _ _) row rfl hrow hne)
  · intro hno
    refine ⟨fun _ _ => by rintro ⟨⟩, fun row hrow => ?_⟩
    split_ifs with hself
    · rintro row' - hrow' hne
      exact absurd hself (Option.some.inj (hrow.symm.trans hrow') ▸ hne)
    rw [wp_canUserViewStory]
    split_ifs with hcan
    · rw [wp_hasViewed]
      split_ifs with hviewed
      · refine (wp_addReaction fun e => by rintro _ ⟨⟩).mpr ?_
        rintro ⟨htext, hrefers⟩
        have huser : userId ∈ db.stories.users := by simpa using (Bool.and_eq_true_iff.mp hrefers).2
        exact absurd ⟨hcan, hviewed, huser, htext⟩ hno
      · rintro _ ⟨⟩
    · rintro _ ⟨⟩

end Requests

section Run

variable {json : List (String × String) → String} {db db' : NoticeDb} {ω : StoryChoice}

theorem consistent_empty (users : AList (fun _ : Uuid => UserRow)) (members : List Uuid) :
    Consistent ⟨.empty users, .empty members⟩ := by
  refine ⟨fun storyId row hrow => ?_, fun row hmem => absurd hmem List.not_mem_nil⟩
  simp [StoriesDb.empty] at hrow

/-- The authors stay where they are. -/
theorem author_of_effect {stories stories' : StoriesDb} {e : StoryStep}
    (heff : Effect stories e stories')
    (h : ∀ storyId row, stories.stories.lookup storyId = some row → row.userId ∈ stories.users) :
    ∀ storyId row, stories'.stories.lookup storyId = some row → row.userId ∈ stories'.users := by
  cases heff with
  | created storyId row r hgiven hfresh huser =>
    intro s row' hrow'
    by_cases hs : s = storyId
    · rw [hs, AList.lookup_insert] at hrow'
      exact Option.some.inj hrow' ▸ huser
    · exact h s row' (by rwa [AList.lookup_insert_ne hs] at hrow')
  | @deleted storyId row r hrow =>
    intro s row' hrow'
    by_cases hs : s = storyId
    · rw [hs, AList.lookup_insert] at hrow'
      exact Option.some.inj hrow' ▸ h storyId row hrow
    · exact h s row' (by rwa [AList.lookup_insert_ne hs] at hrow')
  | stored | nothing => exact h

/-- A type that the database takes can be read back. -/
theorem Consistent.createNotification {userId : Uuid} {notificationType : NotificationType}
    {data : String} {out : Except DomainError Notification} (h : Consistent db)
    (he : db.createNotification ω userId notificationType data = some (out, db')) :
    Consistent db' := by
  rw [NoticeDb.createNotification] at he
  split at he
  · obtain ⟨-, rfl⟩ := Prod.mk.inj (Option.some.inj he)
    exact h
  · next kind hkind =>
    have hname : kind.asDbStr = notificationType.asDbStr := by simpa using List.find?_some hkind
    have hread : (NotificationType.fromDbStr kind.asDbStr).isSome := by
      rw [hname]
      cases notificationType <;> decide
    split_ifs at he with huser
    · dsimp only at he
      split_ifs at he with hfresh
      obtain ⟨-, rfl⟩ := Prod.mk.inj (Option.some.inj he)
      refine ⟨h.author, readable_insert (h := hfresh) h.readable ?_⟩
      rwa [parseNotification, Option.isSome_map]
    · obtain ⟨-, rfl⟩ := Prod.mk.inj (Option.some.inj he)
      exact h

/-- All other statements are those of the stories. -/
theorem exec_stories {c : StoryCmd} (hc : ¬ ∃ n, c = .createNotification n) :
    NoticeDb.exec json ω c db =
      (db.stories.answer ω c).map (fun out => (out.1, ⟨out.2, db.chats⟩)) := by
  cases c with
  | createNotification n => exact absurd ⟨n, rfl⟩ hc
  | _ => rfl

theorem Consistent.exec {c : StoryCmd} {r : c.Ans} (h : Consistent db)
    (he : NoticeDb.exec json ω c db = some (r, db')) : Consistent db' := by
  by_cases hc : ∃ n, c = .createNotification n
  · obtain ⟨n, rfl⟩ := hc
    obtain ⟨_, -, he⟩ := Option.bind_eq_some_iff.mp he
    obtain ⟨_, he, heq⟩ := Option.map_eq_some_iff.mp he
    exact (Prod.mk.inj heq).2 ▸ h.createNotification he
  · rw [exec_stories hc] at he
    obtain ⟨⟨r, stories⟩, hanswer, heq⟩ := Option.map_eq_some_iff.mp he
    obtain ⟨-, rfl⟩ := Prod.mk.inj heq
    exact ⟨author_of_effect (answer_effect (e := ⟨c, r⟩) hanswer) h.author, h.readable⟩

theorem Consistent.tick (h : Consistent db) (ht : NoticeDb.tick ω db = some db') :
    Consistent db' := by
  obtain ⟨stories, htick, rfl⟩ := Option.map_eq_some_iff.mp ht
  refine ⟨fun storyId row hrow => ?_, h.readable⟩
  rw [StoriesDb.tick] at htick
  split at htick <;> obtain rfl := Option.some.inj htick
  · exact h.author storyId row hrow
  · exact (AList.mem_insert _).mpr (.inr (h.author storyId row hrow))
  · exact h.author storyId row hrow

theorem consistent_of_reach {P} {c d : Config StoryCmd StoryCmd.Ans NoticeDb (Uuid × StoryReq)
      (Except ApiError StoryResponse)}
    (h : (noticeServer json).Reach P c d) (hc : Consistent c.db) : Consistent d.db := by
  refine h.invariant (J := fun c => Consistent c.db) (fun {c a d} hc _ ha => ?_) hc
  obtain ⟨r, -, rfl⟩ | ⟨i, ω, r, cmd, k, ans, s, -, -, he, rfl⟩ | ⟨ω, s, -, hs, rfl⟩ :=
    System.apply_cases ha
  · exact hc
  · exact Consistent.exec hc he
  · exact Consistent.tick hc hs

end Run

/-- A success notifies the author exactly if it is not a reaction. -/
theorem notifies_author_iff (json : List (String × String) → String) {db : NoticeDb}
    (h : Consistent db) (storyId userId : Uuid) (i : Interaction) :
    NotifiesAuthor json db storyId userId i ↔ ¬ i.Reacts db storyId userId := by
  cases i with
  | view => exact iff_of_true (notifies_view h) id
  | react reaction => exact notifies_react_iff

/-- An object with no escapes in its texts. -/
def object (fields : List (String × String)) : String :=
  "\x7b" ++ ",".intercalate (fields.map (fun f => "\"" ++ f.1 ++ "\":\"" ++ f.2 ++ "\"")) ++ "\x7d"

/-- Bob views a story of Alice. -/
def viewStoryOfAlice : List (Act (Uuid × StoryReq) StoryChoice) :=
  [.spawn (alice, .createStory ⟨"url", "image", none, "everyone", none⟩), .step 0 (choose 10),
    .spawn (bob, .viewStory (.ofNat 10)), .step 1 (choose 11), .step 1 (choose 11),
    .step 1 (choose 11), .step 1 (choose 11), .step 1 (choose 11), .step 1 (choose 11)]

def storyViewed : NoticeDb :=
  ((noticeServer object).run viewStoryOfAlice
    (System.start ⟨.empty twoUsers, .empty [alice, bob]⟩)).db

theorem consistent_storyViewed : Consistent storyViewed :=
  consistent_of_reach (System.reach_run _ _) (consistent_empty _ _)

theorem view_noticed : NotifiesAuthor object storyViewed (.ofNat 10) bob .view :=
  (notifies_author_iff object consistent_storyViewed (.ofNat 10) bob .view).mpr id

/-- Then she does not learn that he reacts to it. -/
theorem reaction_unnoticed : Consistent storyViewed ∧
    ¬ NotifiesAuthor object storyViewed (.ofNat 10) bob (.react "❤") := by
  refine ⟨consistent_storyViewed, fun h => notifies_react_iff.mp h ⟨?_, ?_, ?_, ?_⟩⟩ <;>
    decide +kernel

end Mesty.Stories.Notices
