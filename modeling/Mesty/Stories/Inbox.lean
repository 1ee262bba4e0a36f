import Mesty.Concurrency.Ledger
import Mesty.Concurrency.Provenance
import Mesty.Stories.Notices

namespace Mesty.Stories.Inbox

open Mesty.Base.Ids Mesty.Base.Error Mesty.Concurrency.Program Mesty.Concurrency.Pool
open Mesty.Concurrency.Ledger Mesty.Concurrency.Provenance
open Mesty.Chats.Store (ChatStore NotificationRow)
open Mesty.Chats.Listing (NotificationType parseNotification)
open Mesty.Stories.Repository Mesty.Stories.Handlers Mesty.Stories.Notices

/-- The statements about notifications, beside those of the requests that make them. -/
inductive InboxCmd where
  | story (c : StoryCmd)
  | markNotificationRead (userId notificationId : Uuid)
  | markAllNotificationsRead (userId : Uuid)
  | deleteReadNotifications (userId : Uuid)

abbrev InboxCmd.Ans : InboxCmd → Type
  | story c => c.Ans
  | markNotificationRead .. => Except DomainError Unit
  | markAllNotificationsRead _ | deleteReadNotifications _ => Except DomainError Nat

/-- The UPDATE of a row. -/
def readRow (now : Timestamp) (row : NotificationRow) : NotificationRow :=
  { row with isRead := true, readAt := some now }

def updateNotifications (db : ChatStore) (p : NotificationRow → Bool) (now : Timestamp) : ChatStore :=
  { db with
    notifications := db.notifications.map (fun row => if p row then readRow now row else row)
    uniqueNotifications := by
      have hids : ∀ row : NotificationRow, (if p row then readRow now row else row).id = row.id := by
        intro row
        split_ifs <;> rfl
      rw [List.map_map, Function.comp_def]
      simpa only [hids] using db.uniqueNotifications }

def deleteNotifications (db : ChatStore) (p : NotificationRow → Bool) : ChatStore :=
  { db with
    notifications := db.notifications.filter (fun row => !p row)
    uniqueNotifications := db.uniqueNotifications.sublist (List.filter_sublist.map _) }

def isUnreadOf (userId : Uuid) (row : NotificationRow) : Bool := row.userId = userId ∧ row.isRead = false

def isReadOf (userId : Uuid) (row : NotificationRow) : Bool := row.userId = userId ∧ row.isRead = true

section Statements

variable (db : NoticeDb)

def markNotificationRead (userId notificationId : Uuid) : Except DomainError Unit × NoticeDb :=
  let selected := fun row : NotificationRow => decide (row.id = notificationId) && isUnreadOf userId row
  if db.chats.notifications.any selected then
    (.ok (), ⟨db.stories, updateNotifications db.chats selected db.stories.now⟩)
  else (.error (.notFound "notification not found or already read"), db)

def markAllNotificationsRead (userId : Uuid) : Nat × NoticeDb :=
  (db.chats.notifications.countP (isUnreadOf userId),
    ⟨db.stories, updateNotifications db.chats (isUnreadOf userId) db.stories.now⟩)

def deleteReadNotifications (userId : Uuid) : Nat × NoticeDb :=
  (db.chats.notifications.countP (isReadOf userId),
    ⟨db.stories, deleteNotifications db.chats (isReadOf userId)⟩)

end Statements

/-- A statement that fails has not been executed. That its answer is lost is left out. -/
def orFault {α : Type} (ω : StoryChoice) (db : NoticeDb) (out : Except DomainError α × NoticeDb) :
    Option (Except DomainError α × NoticeDb) :=
  match ω.fault with
  | none => some out
  | some f => if f.executed then none else some (.error (.fromSqlx f.error), db)

def exec (json : List (String × String) → String) (ω : StoryChoice) :
    (c : InboxCmd) → NoticeDb → Option (c.Ans × NoticeDb)
  | .story c, db => NoticeDb.exec json ω c db
  | .markNotificationRead userId notificationId, db =>
    orFault ω db (markNotificationRead db userId notificationId)
  | .markAllNotificationsRead userId, db =>
    orFault ω db ((markAllNotificationsRead db userId).map Except.ok id)
  | .deleteReadNotifications userId, db =>
    orFault ω db ((deleteReadNotifications db userId).map Except.ok id)

inductive InboxResponse where
  | story (response : StoryResponse)
  | updated (updated : Bool)
  | updatedCount (count : Nat)
  | deletedCount (count : Nat)

inductive InboxReq where
  | story (req : StoryReq)
  | markNotificationRead (notificationId : Uuid)
  | markAllNotificationsRead
  | deleteReadNotifications

abbrev InboxTask := ExceptT DomainError (Prog InboxCmd InboxCmd.Ans)

def attempt {α : Type} (p : Prog InboxCmd InboxCmd.Ans (Except DomainError α)) : InboxTask α :=
  ExceptT.mk p

def handle (userId : Uuid) : InboxReq → InboxTask InboxResponse
  | .story req => do
    return .story (← attempt ((Handlers.handle userId req).run.embed InboxCmd.story (fun _ => id)))
  | .markNotificationRead notificationId => do
    attempt (Prog.cmd (InboxCmd.markNotificationRead userId notificationId))
    return .updated true
  | .markAllNotificationsRead => do
    return .updatedCount (← attempt (Prog.cmd (InboxCmd.markAllNotificationsRead userId)))
  | .deleteReadNotifications => do
    return .deletedCount (← attempt (Prog.cmd (InboxCmd.deleteReadNotifications userId)))

/-- The requests that make notifications, and those of the users who get them. -/
def inboxServer (json : List (String × String) → String) : System InboxCmd InboxCmd.Ans NoticeDb
    StoryChoice (Uuid × InboxReq) (Except ApiError InboxResponse) where
  exec := exec json
  tick := NoticeDb.tick
  handler req := (handle req.1 req.2).run

abbrev InboxConfig :=
  Config InboxCmd InboxCmd.Ans NoticeDb (Uuid × InboxReq) (Except ApiError InboxResponse)

abbrev InboxAct := Act (Uuid × InboxReq) StoryChoice

section Amounts

variable (userId : Uuid)

/-- The notifications of the user that an executed statement has added. -/
def adds : (c : InboxCmd) → c.Ans → Nat
  | .story (.createNotification n), created => if n.userId = userId ∧ created = true then 1 else 0
  | _, _ => 0

/-- Those that it has marked. -/
def marks : (c : InboxCmd) → c.Ans → Nat
  | .markNotificationRead userId' _, .ok () => if userId' = userId then 1 else 0
  | .markAllNotificationsRead userId', .ok count => if userId' = userId then count else 0
  | _, _ => 0

/-- Those that it has deleted. -/
def removes : (c : InboxCmd) → c.Ans → Nat
  | .deleteReadNotifications userId', .ok count => if userId' = userId then count else 0
  | _, _ => 0

/-- An executed statement has added, marked and deleted this many. -/
def Amounts (userId : Uuid) (c : InboxCmd) (ans : c.Ans) (added marked removed : Nat) : Prop :=
  adds userId c ans = added ∧ marks userId c ans = marked ∧ removes userId c ans = removed

def marksTold (req : Uuid × InboxReq) : Except ApiError InboxResponse → Nat
  | .ok (.updated true) => if req.1 = userId then 1 else 0
  | .ok (.updatedCount count) => if req.1 = userId then count else 0
  | _ => 0

def removesTold (req : Uuid × InboxReq) : Except ApiError InboxResponse → Nat
  | .ok (.deletedCount count) => if req.1 = userId then count else 0
  | _ => 0

end Amounts

section Rows

variable {json : List (String × String) → String} {ω : StoryChoice} {db db' : NoticeDb}
  {row row' : NotificationRow} {userId : Uuid} {now : Timestamp}

theorem mem_updateNotifications {chats : ChatStore} {p : NotificationRow → Bool} :
    row ∈ (updateNotifications chats p now).notifications ↔
      (row ∈ chats.notifications ∧ p row = false) ∨
        ∃ old ∈ chats.notifications, p old = true ∧ row = readRow now old := by
  simp only [updateNotifications, List.mem_map]
  constructor
  · rintro ⟨old, hold, rfl⟩
    cases hp : p old with
    | true => exact .inr ⟨old, hold, hp, rfl⟩
    | false => exact .inl ⟨hold, hp⟩
  · rintro (⟨hrow, hp⟩ | ⟨old, hold, hp, rfl⟩)
    · exact ⟨row, hrow, by simp [hp]⟩
    · exact ⟨old, hold, by simp [hp]⟩

theorem mem_deleteNotifications {chats : ChatStore} {p : NotificationRow → Bool} :
    row ∈ (deleteNotifications chats p).notifications ↔ row ∈ chats.notifications ∧ p row = false := by
  rw [deleteNotifications, List.mem_filter, Bool.not_eq_true']

theorem parseNotification_isSome {kind : NotificationKind} {notificationType : NotificationType}
    (hkind : NotificationKind.fromDbStr notificationType.asDbStr = some kind)
    (hrow : row.type = kind.asDbStr) : (parseNotification row).isSome := by
  rw [NotificationKind.fromDbStr] at hkind
  have hname : kind.asDbStr = notificationType.asDbStr := by
    simpa using List.find?_some hkind
  rw [parseNotification, Option.isSome_map, hrow, hname]
  cases notificationType <;> decide

/-- The story requests add notifications only, each unread. -/
theorem notifications_of_story {c : StoryCmd} {ans : c.Ans}
    (he : NoticeDb.exec json ω c db = some (ans, db')) :
    (db'.chats.notifications = db.chats.notifications ∧ ∀ userId, adds userId (.story c) ans = 0) ∨
      ∃ new, new.isRead = false ∧ new.readAt = none ∧
        db'.chats.notifications = db.chats.notifications ++ [new] ∧
        ∀ userId, adds userId (.story c) ans = if new.userId = userId then 1 else 0 := by
  by_cases hc : ∃ n, c = .createNotification n
  · obtain ⟨n, rfl⟩ := hc
    obtain ⟨notificationType, -, hinsert⟩ := Option.bind_eq_some_iff.mp he
    obtain ⟨⟨r, inserted⟩, hstored, heq⟩ := Option.map_eq_some_iff.mp hinsert
    obtain ⟨rfl, rfl⟩ := Prod.mk.inj heq
    rw [NoticeDb.createNotification] at hstored
    split at hstored
    · obtain ⟨rfl, rfl⟩ := Prod.mk.inj (Option.some.inj hstored)
      exact .inl ⟨rfl, fun userId => if_neg (by simp [Except.toOption])⟩
    · next kind hkind =>
      split at hstored
      · obtain ⟨rfl, rfl⟩ := Prod.mk.inj (Option.some.inj hstored)
        exact .inl ⟨rfl, fun userId => if_neg (by simp [Except.toOption])⟩
      · dsimp only at hstored
        split_ifs at hstored with hfresh
        obtain ⟨rfl, rfl⟩ := Prod.mk.inj (Option.some.inj hstored)
        refine .inr ⟨_, rfl, rfl, rfl, fun userId => ?_⟩
        have hparsed : (parseNotification
            ⟨ω.uuid, n.userId, kind.asDbStr, json n.data, false, none, db.stories.now⟩).isSome :=
          parseNotification_isSome hkind rfl
        obtain ⟨read, hread⟩ := Option.isSome_iff_exists.mp hparsed
        simp [adds, hread, Except.toOption]
  · refine .inl ⟨?_, fun userId => ?_⟩
    · rw [exec_stories hc] at he
      obtain ⟨⟨r, stories⟩, -, heq⟩ := Option.map_eq_some_iff.mp he
      obtain ⟨-, rfl⟩ := Prod.mk.inj heq
      rfl
    · cases c with
      | createNotification n => exact absurd ⟨n, rfl⟩ hc
      | _ => rfl

/-- The statement marks this row. -/
def MarksRow (row : NotificationRow) (cmd : InboxCmd) : Prop :=
  cmd = .markNotificationRead row.userId row.id ∨ cmd = .markAllNotificationsRead row.userId

section Counts

variable {chats : ChatStore} {owner notificationId : Uuid} {p : NotificationRow → Bool}

/-- At most one row has the identifier. -/
theorem countP_selected
    (hany : (chats.notifications.any fun row =>
      decide (row.id = notificationId) && isUnreadOf owner row) = true) :
    chats.notifications.countP (fun row =>
        (decide (row.id = notificationId) && isUnreadOf owner row) && isUnreadOf userId row) =
      if owner = userId then 1 else 0 := by
  split_ifs with howner
  · subst howner
    refine Nat.le_antisymm ?_ ?_
    · refine le_trans (List.countP_mono_left (q := fun row => row.id == notificationId) ?_) ?_
      · intro row _ hsel
        simp only [Bool.and_eq_true, decide_eq_true_eq] at hsel
        simpa using hsel.1.1
      · have hcount := List.nodup_iff_count_le_one.mp chats.uniqueNotifications notificationId
        rwa [List.count, List.countP_map] at hcount
    · obtain ⟨row, hrow, hsel⟩ := List.any_eq_true.mp hany
      exact List.countP_pos_iff.mpr ⟨row, hrow, by
        rw [hsel, Bool.true_and]
        exact (Bool.and_eq_true_iff.mp hsel).2⟩
  · refine List.countP_eq_zero.mpr fun row _ hsel => ?_
    simp only [isUnreadOf, Bool.and_eq_true, decide_eq_true_eq] at hsel
    exact howner (hsel.1.2.1.symm.trans hsel.2.1)

theorem countP_isUnreadOf (rows : List NotificationRow) :
    rows.countP (fun row => isUnreadOf owner row && isUnreadOf userId row) =
      if owner = userId then rows.countP (isUnreadOf owner) else 0 := by
  split_ifs with howner
  · simp only [howner, Bool.and_self]
  · refine List.countP_eq_zero.mpr fun row _ hsel => ?_
    simp only [isUnreadOf, Bool.and_eq_true, decide_eq_true_eq] at hsel
    exact howner (hsel.1.1.symm.trans hsel.2.1)

@[simp] theorem isUnreadOf_readRow : isUnreadOf userId (readRow now row) = false := by
  simp [isUnreadOf, readRow]

@[simp] theorem isReadOf_readRow : isReadOf userId (readRow now row) = decide (row.userId = userId) := by
  simp [isReadOf, readRow]

/-- A marked row is counted on the other side. -/
theorem countP_unread_update (rows : List NotificationRow) :
    (rows.map (fun row => if p row then readRow now row else row)).countP (isUnreadOf userId) +
        rows.countP (fun row => p row && isUnreadOf userId row) = rows.countP (isUnreadOf userId) := by
  induction rows with
  | nil => rfl
  | cons row rows ih =>
    simp only [List.map_cons, List.countP_cons]
    by_cases hsel : p row = true
    · simp only [hsel, if_true, isUnreadOf_readRow, Bool.true_and]
      simp only [Bool.false_eq_true, if_false]
      omega
    · simp only [Bool.not_eq_true] at hsel
      simp only [hsel, Bool.false_and, Bool.false_eq_true, if_false]
      omega

theorem countP_read_update (hp : ∀ row, p row = true → row.isRead = false)
    (rows : List NotificationRow) :
    (rows.map (fun row => if p row then readRow now row else row)).countP (isReadOf userId) =
      rows.countP (isReadOf userId) + rows.countP (fun row => p row && isUnreadOf userId row) := by
  induction rows with
  | nil => rfl
  | cons row rows ih =>
    simp only [List.map_cons, List.countP_cons]
    by_cases hsel : p row = true
    · have hunread : isUnreadOf userId row = decide (row.userId = userId) := by simp [isUnreadOf, hp row hsel]
      have hread : isReadOf userId row = false := by simp [isReadOf, hp row hsel]
      simp only [hsel, if_true, isReadOf_readRow, Bool.true_and, hunread, hread]
      simp only [Bool.false_eq_true, if_false]
      omega
    · simp only [Bool.not_eq_true] at hsel
      simp only [hsel, Bool.false_and, Bool.false_eq_true, if_false]
      omega

theorem countP_read_delete (rows : List NotificationRow) :
    (rows.filter (fun row => !isReadOf owner row)).countP (isReadOf userId) +
        (if owner = userId then rows.countP (isReadOf userId) else 0) =
      rows.countP (isReadOf userId) := by
  rw [List.countP_filter]
  split_ifs with howner
  · subst howner
    simp
  · refine List.countP_congr fun row _ => ?_
    simp only [isReadOf, Bool.and_eq_true, decide_eq_true_eq, Bool.not_eq_true',
      decide_eq_false_iff_not]
    exact ⟨And.left, fun hread => ⟨hread, fun howned => howner (howned.1.symm.trans hread.1)⟩⟩

end Counts

theorem orFault_cases {α : Type} {out : Except DomainError α × NoticeDb} {ans : Except DomainError α}
    (h : orFault ω db out = some (ans, db')) : out = (ans, db') ∨ ∃ e, ans = .error e ∧ db' = db := by
  rw [orFault] at h
  split at h
  · exact .inl (Option.some.inj h)
  · next f hfault =>
    split_ifs at h
    obtain ⟨rfl, rfl⟩ := Prod.mk.inj (Option.some.inj h)
    exact .inr ⟨_, rfl, rfl⟩

/-- What an executed statement does to the notifications, in four cases. -/
theorem writes_of_exec {cmd : InboxCmd} {ans : cmd.Ans} (he : exec json ω cmd db = some (ans, db')) :
    -- Nothing.
    (db'.chats.notifications = db.chats.notifications ∧ ∀ userId, Amounts userId cmd ans 0 0 0) ∨
    -- A new row.
    (∃ new, new.isRead = false ∧ new.readAt = none ∧
      db'.chats.notifications = db.chats.notifications ++ [new] ∧
      ∀ userId, Amounts userId cmd ans (if new.userId = userId then 1 else 0) 0 0) ∨
    -- Unread rows are marked.
    (∃ p : NotificationRow → Bool, (∀ row, p row = true → row.isRead = false ∧ MarksRow row cmd) ∧
      db'.chats = updateNotifications db.chats p db.stories.now ∧
      ∀ userId, Amounts userId cmd ans 0
        (db.chats.notifications.countP (fun row => p row && isUnreadOf userId row)) 0) ∨
    -- The read rows of a user are deleted.
    (∃ owner, cmd = .deleteReadNotifications owner ∧
      db'.chats = deleteNotifications db.chats (isReadOf owner) ∧
      ∀ userId, Amounts userId cmd ans 0 0
        (if owner = userId then db.chats.notifications.countP (isReadOf userId) else 0)) := by
  cases cmd with
  | story c =>
    obtain ⟨hsame, hadds⟩ | ⟨new, hunread, hnone, hnew, hadds⟩ := notifications_of_story he
    · exact .inl ⟨hsame, fun userId => ⟨hadds userId, rfl, rfl⟩⟩
    · exact .inr (.inl ⟨new, hunread, hnone, hnew, fun userId => ⟨hadds userId, rfl, rfl⟩⟩)
  | markNotificationRead owner notificationId =>
    obtain hout | ⟨e, rfl, rfl⟩ := orFault_cases he
    · rw [markNotificationRead] at hout
      split_ifs at hout with hany
      · obtain ⟨rfl, rfl⟩ := Prod.mk.inj hout
        refine .inr (.inr (.inl ⟨_, fun row hsel => ?_, rfl, fun userId => ⟨rfl, ?_, rfl⟩⟩))
        · simp only [isUnreadOf, Bool.and_eq_true, decide_eq_true_eq] at hsel
          obtain ⟨rfl, rfl, hunread⟩ := hsel
          exact ⟨hunread, .inl rfl⟩
        · exact (countP_selected hany).symm
      · obtain ⟨rfl, rfl⟩ := Prod.mk.inj hout
        exact .inl ⟨rfl, fun userId => ⟨rfl, rfl, rfl⟩⟩
    · exact .inl ⟨rfl, fun userId => ⟨rfl, rfl, rfl⟩⟩
  | markAllNotificationsRead owner =>
    obtain hout | ⟨e, rfl, rfl⟩ := orFault_cases he
    · obtain ⟨rfl, rfl⟩ := Prod.mk.inj hout
      refine .inr (.inr (.inl ⟨_, fun row hsel => ?_, rfl, fun userId => ⟨rfl, ?_, rfl⟩⟩))
      · obtain ⟨rfl, hunread⟩ := of_decide_eq_true hsel
        exact ⟨hunread, .inr rfl⟩
      · exact (countP_isUnreadOf db.chats.notifications).symm
    · exact .inl ⟨rfl, fun userId => ⟨rfl, rfl, rfl⟩⟩
  | deleteReadNotifications owner =>
    obtain hout | ⟨e, rfl, rfl⟩ := orFault_cases he
    · obtain ⟨rfl, rfl⟩ := Prod.mk.inj hout
      refine .inr (.inr (.inr ⟨owner, rfl, rfl, fun userId => ⟨rfl, rfl, ?_⟩⟩))
      by_cases howner : owner = userId
      · rw [if_pos howner, ← howner]
        exact if_pos rfl
      · exact (if_neg howner).trans (if_neg howner).symm
    · exact .inl ⟨rfl, fun userId => ⟨rfl, rfl, rfl⟩⟩

/-- What becomes of a row. -/
theorem row_of_exec {cmd : InboxCmd} {ans : cmd.Ans} (he : exec json ω cmd db = some (ans, db'))
    (hrow : row ∈ db.chats.notifications) : row ∈ db'.chats.notifications ∨
      (row.isRead = false ∧ readRow db.stories.now row ∈ db'.chats.notifications ∧ MarksRow row cmd) ∨
      (row.isRead = true ∧ cmd = .deleteReadNotifications row.userId) := by
  obtain ⟨hsame, -⟩ | ⟨new, -, -, hnew, -⟩ | ⟨p, hp, hdb, -⟩ | ⟨owner, rfl, hdb, -⟩ :=
    writes_of_exec he
  · exact .inl (hsame ▸ hrow)
  · exact .inl (hnew ▸ List.mem_append_left _ hrow)
  · rw [hdb]
    cases hsel : p row with
    | false => exact .inl (mem_updateNotifications.mpr (.inl ⟨hrow, hsel⟩))
    | true =>
      obtain ⟨hunread, hmarks⟩ := hp row hsel
      exact .inr (.inl ⟨hunread, mem_updateNotifications.mpr (.inr ⟨row, hrow, hsel, rfl⟩), hmarks⟩)
  · rw [hdb]
    cases hsel : isReadOf owner row with
    | false => exact .inl (mem_deleteNotifications.mpr ⟨hrow, hsel⟩)
    | true =>
      obtain ⟨rfl, hread⟩ := of_decide_eq_true hsel
      exact .inr (.inr ⟨hread, rfl⟩)

/-- A row is one that was there, is marked, or is new and unread. -/
theorem origin_of_exec {cmd : InboxCmd} {ans : cmd.Ans} (he : exec json ω cmd db = some (ans, db'))
    (hrow : row ∈ db'.chats.notifications) : row ∈ db.chats.notifications ∨
      (∃ old ∈ db.chats.notifications, old.isRead = false ∧ row = readRow db.stories.now old ∧
        MarksRow old cmd) ∨
      (row.isRead = false ∧ row.readAt = none) := by
  obtain ⟨hsame, -⟩ | ⟨new, hunread, hnone, hnew, -⟩ | ⟨p, hp, hdb, -⟩ | ⟨owner, -, hdb, -⟩ :=
    writes_of_exec he
  · exact .inl (hsame ▸ hrow)
  · obtain hmem | hmem := List.mem_append.mp (hnew ▸ hrow)
    · exact .inl hmem
    · obtain rfl := List.mem_singleton.mp hmem
      exact .inr (.inr ⟨hunread, hnone⟩)
  · rw [hdb] at hrow
    obtain ⟨hmem, -⟩ | ⟨old, hold, hsel, heq⟩ := mem_updateNotifications.mp hrow
    · exact .inl hmem
    · exact .inr (.inl ⟨old, hold, (hp old hsel).1, heq, (hp old hsel).2⟩)
  · exact .inl (mem_deleteNotifications.mp (hdb ▸ hrow)).1

/-- The unread notifications of the user. -/
def unread (userId : Uuid) (db : NoticeDb) : Nat := db.chats.notifications.countP (isUnreadOf userId)

/-- The read ones. -/
def read (userId : Uuid) (db : NoticeDb) : Nat := db.chats.notifications.countP (isReadOf userId)

theorem unread_of_exec {cmd : InboxCmd} {ans : cmd.Ans} (he : exec json ω cmd db = some (ans, db')) :
    unread userId db' + marks userId cmd ans = unread userId db + adds userId cmd ans := by
  obtain ⟨hsame, hamounts⟩ | ⟨new, hunread, -, hnew, hamounts⟩ | ⟨p, hp, hdb, hamounts⟩ |
    ⟨owner, -, hdb, hamounts⟩ := writes_of_exec he
  all_goals
    obtain ⟨hadds, hmarks, -⟩ := hamounts userId
    rw [hadds, hmarks, unread, unread]
  · rw [hsame]
  · rw [hnew, List.countP_append, List.countP_singleton]
    simp [isUnreadOf, hunread]
  · rw [hdb]
    exact countP_unread_update db.chats.notifications
  · rw [hdb, deleteNotifications, List.countP_filter]
    refine congrArg (· + 0) (List.countP_congr fun row _ => ?_)
    simp only [isUnreadOf, isReadOf]
    cases row.isRead <;> simp

theorem read_of_exec {cmd : InboxCmd} {ans : cmd.Ans} (he : exec json ω cmd db = some (ans, db')) :
    read userId db' + removes userId cmd ans = read userId db + marks userId cmd ans := by
  obtain ⟨hsame, hamounts⟩ | ⟨new, hunread, -, hnew, hamounts⟩ | ⟨p, hp, hdb, hamounts⟩ |
    ⟨owner, -, hdb, hamounts⟩ := writes_of_exec he
  all_goals
    obtain ⟨-, hmarks, hremoves⟩ := hamounts userId
    rw [hmarks, hremoves, read, read]
  · rw [hsame]
  · rw [hnew, List.countP_append, List.countP_singleton]
    simp [isReadOf, hunread]
  · rw [hdb]
    exact countP_read_update (fun row hsel => (hp row hsel).1) db.chats.notifications
  · rw [hdb]
    exact countP_read_delete db.chats.notifications

end Rows

section Protocol

variable {json : List (String × String) → String}

/-- The statement about the notifications of a user is that of a request of the user. -/
def Asks (r : Uuid × InboxReq) : InboxCmd → Prop
  | .story _ => True
  | .markNotificationRead userId notificationId => r = (userId, .markNotificationRead notificationId)
  | .markAllNotificationsRead userId => r = (userId, .markAllNotificationsRead)
  | .deleteReadNotifications userId => r = (userId, .deleteReadNotifications)

theorem handler_asks (r : Uuid × InboxReq) : ((inboxServer json).handler r).Issues (Asks r) := by
  obtain ⟨userId, req⟩ := r
  cases req with
  | story req => exact Prog.Issues.tryBind (.embed (Prog.issues_of_forall (fun _ => trivial) _)) fun _ => trivial
  | markNotificationRead notificationId => exact ⟨rfl, fun ans => by cases ans <;> trivial⟩
  | markAllNotificationsRead => exact ⟨rfl, fun ans => by cases ans <;> trivial⟩
  | deleteReadNotifications => exact ⟨rfl, fun ans => by cases ans <;> trivial⟩

end Protocol

/-- Some run leads from `c` to `d`. -/
abbrev Runs (json : List (String × String) → String) (c d : InboxConfig) : Prop :=
  (inboxServer json).Reach (fun _ _ => True) c d

/-- The step from `c` to `d` executes the pending statement of a task with this request. -/
def Executes (json : List (String × String) → String) (r : Uuid × InboxReq) (cmd : InboxCmd)
    (c d : InboxConfig) : Prop :=
  ∃ i ω k ans db', c.tasks[i]? = some (r, .call cmd k) ∧ exec json ω cmd c.db = some (ans, db') ∧
    d = ⟨c.after i cmd ans db', c.tasks.set i (r, k ans)⟩

theorem Executes.runs {json : List (String × String) → String} {r : Uuid × InboxReq}
    {cmd : InboxCmd} {c d : InboxConfig} (h : Executes json r cmd c d) : Runs json c d := by
  obtain ⟨i, ω, k, ans, db', ht, he, rfl⟩ := h
  refine .tail .refl trivial (a := .step i ω) ?_
  simp only [System.apply, ht]
  exact congrArg (Option.map _) he

section Lifecycle

variable (json : List (String × String) → String) (c d : InboxConfig) (row : NotificationRow)

/-- A statement of a request of the owner deletes the row. -/
def Deleted : Prop := ∃ e e', Runs json c e ∧ Runs json e' d ∧ row ∈ e.db.chats.notifications ∧
  row ∉ e'.db.chats.notifications ∧
    Executes json (row.userId, .deleteReadNotifications) (.deleteReadNotifications row.userId) e e'

/-- A statement of a request of the owner marks the row, which becomes `row'`. -/
def Marked (row' : NotificationRow) (e' : InboxConfig) : Prop :=
  ∃ e, Runs json c e ∧ row ∈ e.db.chats.notifications ∧ row.isRead = false ∧
    row' = readRow e.db.stories.now row ∧ row' ∈ e'.db.chats.notifications ∧
    (Executes json (row.userId, .markNotificationRead row.id)
        (.markNotificationRead row.userId row.id) e e' ∨
      Executes json (row.userId, .markAllNotificationsRead) (.markAllNotificationsRead row.userId) e e')

/-- A notification is added unread, stays as it is until its owner marks it, and then until its owner
deletes it. -/
structure Lifecycle : Prop where
  unread : ∀ row ∈ c.db.chats.notifications, row.isRead = false → row ∈ d.db.chats.notifications ∨
    ∃ row' e', Marked json c row row' e' ∧ Runs json e' d ∧
      (row' ∈ d.db.chats.notifications ∨ Deleted json e' d row')
  read : ∀ row ∈ c.db.chats.notifications, row.isRead = true →
    row ∈ d.db.chats.notifications ∨ Deleted json c d row
  origin : ∀ row ∈ d.db.chats.notifications, row ∈ c.db.chats.notifications ∨
    (row.isRead = false ∧ row.readAt = none) ∨
    ∃ old e', Marked json c old row e' ∧ Runs json e' d

end Lifecycle

section Proofs

variable {json : List (String × String) → String} {c d : InboxConfig} {row : NotificationRow}

theorem notifications_tick {ω : StoryChoice} {db db' : NoticeDb}
    (ht : NoticeDb.tick ω db = some db') : db'.chats = db.chats := by
  obtain ⟨stories, -, rfl⟩ := Option.map_eq_some_iff.mp ht
  rfl

/-- A task that executes a statement of a user is a request of this user. -/
theorem executes_of_step {i : Nat} {ω : StoryChoice} {r : Uuid × InboxReq} {cmd : InboxCmd}
    {k : cmd.Ans → Prog InboxCmd InboxCmd.Ans (Except ApiError InboxResponse)} {ans : cmd.Ans}
    {db' : NoticeDb} (hc : (inboxServer json).Replays c) (ht : c.tasks[i]? = some (r, .call cmd k))
    (he : exec json ω cmd c.db = some (ans, db')) :
    Asks r cmd ∧ Executes json r cmd c ⟨c.after i cmd ans db', c.tasks.set i (r, k ans)⟩ :=
  ⟨(((hc.2 i r _ ht).issues (handler_asks r)).2).1, i, ω, k, ans, db', ht, he, rfl⟩

theorem replays_of_runs (hc : (inboxServer json).Replays c) (hd : Runs json c d) :
    (inboxServer json).Replays d :=
  hd.invariant (fun h _ ha => System.replays_apply h ha) hc

theorem executes_of_marks {r : Uuid × InboxReq} {cmd : InboxCmd} {e' : InboxConfig}
    (hasks : Asks r cmd) (hmarks : MarksRow row cmd) (h : Executes json r cmd c e') :
    Executes json (row.userId, .markNotificationRead row.id)
        (.markNotificationRead row.userId row.id) c e' ∨
      Executes json (row.userId, .markAllNotificationsRead)
        (.markAllNotificationsRead row.userId) c e' := by
  obtain rfl | rfl := hmarks
  · obtain rfl : r = _ := hasks
    exact .inl h
  · obtain rfl : r = _ := hasks
    exact .inr h

/-- What is gone after a run went in one of its steps. -/
theorem kept_or_gone (hc : (inboxServer json).Replays c) (hd : Runs json c d)
    (hrow : row ∈ c.db.chats.notifications) : row ∈ d.db.chats.notifications ∨
      (∃ row' e', Marked json c row row' e' ∧ (inboxServer json).Replays e' ∧ Runs json e' d) ∨
      (row.isRead = true ∧ Deleted json c d row) := by
  refine (kept_or_ended (S := inboxServer json)
    (I := fun db : NoticeDb => row ∈ db.chats.notifications)
    (fun ht hmem => notifications_tick ht ▸ hmem) hrow hd).imp_right ?_
  rintro ⟨e, i, ω, r, cmd, k, ans, s, hce, -, ht, he, hed, hmem, hgone⟩
  have hreplays := replays_of_runs hc hce
  obtain ⟨hasks, hexecutes⟩ := executes_of_step hreplays ht he
  obtain hkept | ⟨hunread, hmarked, hmarks⟩ | ⟨hread, rfl⟩ := row_of_exec he hmem
  · exact absurd hkept hgone
  · have hmark := executes_of_marks hasks hmarks hexecutes
    exact .inl ⟨_, _, ⟨e, hce, hmem, hunread, rfl, hmarked, hmark⟩,
      replays_of_runs hreplays hexecutes.runs, hed⟩
  · obtain rfl : r = _ := hasks
    exact .inr ⟨hread, e, _, hce, hed, hmem, hgone, hexecutes⟩

theorem kept_or_deleted (hc : (inboxServer json).Replays c) (hd : Runs json c d)
    (hrow : row ∈ c.db.chats.notifications) (hread : row.isRead = true) :
    row ∈ d.db.chats.notifications ∨ Deleted json c d row := by
  obtain hkept | ⟨row', e', ⟨e, -, -, hunread, -⟩, -⟩ | ⟨-, hdeleted⟩ := kept_or_gone hc hd hrow
  · exact .inl hkept
  · cases hunread.symm.trans hread
  · exact .inr hdeleted

theorem kept_or_marked (hc : (inboxServer json).Replays c) (hd : Runs json c d)
    (hrow : row ∈ c.db.chats.notifications) (hunread : row.isRead = false) :
    row ∈ d.db.chats.notifications ∨ ∃ row' e', Marked json c row row' e' ∧ Runs json e' d ∧
      (row' ∈ d.db.chats.notifications ∨ Deleted json e' d row') := by
  obtain hkept | ⟨row', e', hmarked, he', hed⟩ | ⟨hread, -⟩ := kept_or_gone hc hd hrow
  · exact .inl hkept
  · obtain ⟨e, -, -, -, rfl, hrow', -⟩ := id hmarked
    exact .inr ⟨_, e', hmarked, hed, kept_or_deleted he' hed hrow' rfl⟩
  · cases hunread.symm.trans hread

theorem added_or_marked (hc : (inboxServer json).Replays c) (hd : Runs json c d)
    (hrow : row ∈ d.db.chats.notifications) : row ∈ c.db.chats.notifications ∨
      (row.isRead = false ∧ row.readAt = none) ∨
      ∃ old e', Marked json c old row e' ∧ Runs json e' d := by
  induction hd with
  | refl => exact .inl hrow
  | @tail e f a hce _ ha ih =>
    have hlast : Runs json e f := .tail .refl trivial ha
    have hlater (h : row ∈ e.db.chats.notifications) : row ∈ c.db.chats.notifications ∨
        (row.isRead = false ∧ row.readAt = none) ∨
        ∃ old e', Marked json c old row e' ∧ Runs json e' f :=
      (ih h).imp_right (Or.imp_right fun ⟨old, e', hmarked, hed⟩ =>
        ⟨old, e', hmarked, hed.trans hlast⟩)
    obtain ⟨r, rfl, rfl⟩ | ⟨i, ω, r, cmd, k, ans, s, rfl, ht, he, rfl⟩ | ⟨ω, s, rfl, hs, rfl⟩ :=
      System.apply_cases ha
    · exact hlater hrow
    · obtain ⟨hasks, hexecutes⟩ := executes_of_step (replays_of_runs hc hce) ht he
      obtain hold | ⟨old, hold, hunread, hread, hmarks⟩ | hadded := origin_of_exec he hrow
      · exact hlater hold
      · have hmark := executes_of_marks hasks hmarks hexecutes
        exact .inr (.inr ⟨old, _, ⟨e, hce, hold, hunread, hread, hrow, hmark⟩, .refl⟩)
      · exact .inr (.inl hadded)
    · exact hlater (notifications_tick hs ▸ hrow)

end Proofs

/-- Whatever requests run side by side, only its owner marks and deletes a notification, and in
this order. -/
theorem lifecycle_of_run (json : List (String × String) → String) (db : NoticeDb)
    (acts acts' : List InboxAct) :
    let c := (inboxServer json).run acts (System.start db)
    Lifecycle json c ((inboxServer json).run acts' c) := by
  intro c
  have hc : (inboxServer json).Replays c :=
    System.Reach.replays (System.reach_run (S := inboxServer json) acts (System.start db))
  have hd : Runs json c ((inboxServer json).run acts' c) := System.reach_run acts' c
  exact ⟨fun row hrow hunread => kept_or_marked hc hd hrow hunread,
    fun row hrow hread => kept_or_deleted hc hd hrow hread,
    fun row hrow => added_or_marked hc hd hrow⟩

section Balance

variable {json : List (String × String) → String} {userId : Uuid}

/-- The requests that make notifications are told of none. -/
theorem follows_story {amount : (c : InboxCmd) → c.Ans → Nat}
    {worth : Except ApiError InboxResponse → Nat}
    (hfree : ∀ c ans, amount (.story c) ans = 0) (hok : ∀ response, worth (.ok (.story response)) = 0)
    (herror : ∀ e, worth (.error e) = 0) (authId : Uuid) (req : StoryReq) :
    ((inboxServer json).handler (authId, .story req)).Follows (fun h _ => earned amount h = 0)
      (fun h a => earned amount h = worth a) [] := by
  have hissues : (attempt
    ((Handlers.handle authId req).run.embed InboxCmd.story (fun _ => id))).run.Issues
      (fun cmd => ∀ ans, amount cmd ans = 0) :=
    .embed (Prog.issues_of_forall hfree _)
  refine Prog.follows_run_bind.mpr (follows_of_free hissues (fun h a hh => ?_) rfl)
  cases a with
  | ok response => exact hh.trans (hok response).symm
  | error e => exact hh.trans (herror e).symm

theorem handler_marks (userId : Uuid) (r : Uuid × InboxReq) : ((inboxServer json).handler r).Follows
    (fun h _ => earned (marks userId) h = 0)
    (fun h a => earned (marks userId) h = marksTold userId r a) [] := by
  obtain ⟨authId, req⟩ := r
  cases req with
  | story req => exact follows_story (fun _ _ => rfl) (fun _ => rfl) (fun _ => rfl) authId req
  | markNotificationRead notificationId =>
    refine ⟨rfl, fun ans => ?_⟩
    obtain e | ⟨⟩ := ans <;> rfl
  | markAllNotificationsRead =>
    refine ⟨rfl, fun ans => ?_⟩
    obtain e | count := ans <;> rfl
  | deleteReadNotifications =>
    refine ⟨rfl, fun ans => ?_⟩
    obtain e | count := ans <;> rfl

theorem handler_removes (userId : Uuid) (r : Uuid × InboxReq) : ((inboxServer json).handler r).Follows
    (fun h _ => earned (removes userId) h = 0)
    (fun h a => earned (removes userId) h = removesTold userId r a) [] := by
  obtain ⟨authId, req⟩ := r
  cases req with
  | story req => exact follows_story (fun _ _ => rfl) (fun _ => rfl) (fun _ => rfl) authId req
  | markNotificationRead notificationId =>
    refine ⟨rfl, fun ans => ?_⟩
    obtain e | ⟨⟩ := ans <;> rfl
  | markAllNotificationsRead =>
    refine ⟨rfl, fun ans => ?_⟩
    obtain e | count := ans <;> rfl
  | deleteReadNotifications =>
    refine ⟨rfl, fun ans => ?_⟩
    obtain e | count := ans <;> rfl

end Balance

/-- The answers count every notification once: what has been added for a user is there unread or
has been counted by an answer as marked, and what has been marked is there or has been counted as
deleted. -/
def Balanced (db : NoticeDb) (c : InboxConfig) (userId : Uuid) : Prop :=
  unread userId c.db + (c.tasks.map (told (marksTold userId))).sum =
      unread userId db + total (adds userId) c.log ∧
    read userId c.db + (c.tasks.map (told (removesTold userId))).sum =
      read userId db + (c.tasks.map (told (marksTold userId))).sum

theorem balanced_of_run (json : List (String × String) → String) (db : NoticeDb) (acts : List InboxAct)
    (userId : Uuid) : Balanced db ((inboxServer json).run acts (System.start db)) userId := by
  have hrun := System.reach_run (S := inboxServer json) acts (System.start db)
  have hmarks := total_eq_told (handler_marks userId) hrun.replays
  have hremoves := total_eq_told (handler_removes userId) hrun.replays
  constructor
  · rw [← hmarks]
    exact balanced (fun he => unread_of_exec he) (fun ht => by
      rw [unread, unread, notifications_tick ht]) hrun
  · rw [← hmarks, ← hremoves]
    exact balanced (fun he => read_of_exec he) (fun ht => by
      rw [read, read, notifications_tick ht]) hrun

end Mesty.Stories.Inbox
