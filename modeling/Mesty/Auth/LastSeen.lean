import Mesty.Auth.UserRecords
import Mesty.Refinement.LastWrite

namespace Mesty.Auth.LastSeen

open Mesty.Base.Ids Mesty.Base.Error Mesty.Concurrency.Program Mesty.Concurrency.Pool
open Mesty.Auth.UserRecords Mesty.Auth.UserRecords.UserTable Mesty.Refinement.LastWrite
open Mesty.Auth.Handlers (Response)

abbrev UserConfig := Config UserCmd UserCmd.Ans UserTable UserReq (Except ApiError (Option Response))

abbrev UserAct := Act UserReq UserChoice

abbrev UserEvent := Event UserCmd UserCmd.Ans

/-- The event has enabled the second factor of the user. -/
def enables (id : Uuid) : UserEvent → Bool
  | ⟨_, .update user, .ok _⟩ => user.id = id
  | _ => false

/-- What an `update_last_seen` of the user is to write. -/
def lastSeenWrite (id : Uuid) : UserEvent → Option (Option Timestamp)
  | ⟨_, .updateLastSeen userId timestamp, _⟩ => if userId = id then some (some timestamp) else none
  | _ => none

/-- What the claims on the two columns make of a row. -/
def expectedRow (log : List UserEvent) (id : Uuid) (row : UserRecord) : UserRecord :=
  { row with
    twoFaEnabled := row.twoFaEnabled || log.any (enables id)
    lastSeenAt := latest row.lastSeenAt (log.map (lastSeenWrite id)) }

/-- Every row is as at the start, but for the two columns and `updated_at`. -/
def ColumnsKept (t : UserTable) (d : UserConfig) : Prop :=
  ∀ id row, t.rows.lookup id = some row → ∃ row', d.db.rows.lookup id = some row' ∧
    { row' with updatedAt := row.updatedAt } = expectedRow d.log id row

/-- Where a request whose code matched has come to its end, the second factor is enabled. -/
def MatchedEnabled (d : UserConfig) : Prop :=
  ∀ i id code p, d.tasks[i]? = some (.twoFaSetupVerify id code, p) → p.finished →
    ⟨.verifyTwoFaSetupOtp id.toString code, .ok .matched⟩ ∈ d.history i →
      ∀ row, d.db.rows.lookup id = some row → row.twoFaEnabled = true

/-- The condition on a statement of a request with the history `h`: whoever enables the second factor
and does not have it yet is not deleted and has a row that can be read; the row that the UPDATE
overwrites has a status text and the `last_seen_at` that was read; and
`update_last_seen` is for a user who is not deleted, or changes nothing. -/
def Harmless (isAlphanumeric : Char → Bool) (t : UserTable) (h : List ((c : UserCmd) × c.Ans)) :
    UserCmd → Prop
  | .findById id => ∀ row, t.rows.lookup id = some row → row.twoFaEnabled = true ∨
      row.deletedAt = none ∧ (mapRecordToUser isAlphanumeric id row).isOk
  | .update user => ∀ row read, t.rows.lookup user.id = some row →
      ⟨.findById user.id, .ok (some read)⟩ ∈ h →
        row.statusText.isSome ∧ row.lastSeenAt = read.lastSeenAt
  | .updateLastSeen id timestamp => ∀ row, t.rows.lookup id = some row →
      row.deletedAt = none ∨ row.lastSeenAt = some timestamp
  | _ => True

def Undisturbed (isAlphanumeric : Char → Bool) (c : UserConfig) : UserAct → Prop
  | .step i _ => ∀ cmd, c.tasks[i]?.bind (fun t => t.2.next) = some cmd →
      Harmless isAlphanumeric c.db (c.history i) cmd
  | _ => True

/-- The columns that no run changes; a missing status text counts as an empty one. -/
def core (row : UserRecord) : UserRecord :=
  { row with
    statusText := some (row.statusText.getD "")
    twoFaEnabled := false
    lastSeenAt := none
    updatedAt := 0 }

theorem reads_of_core {row row' : UserRecord} {user : User} (h : core row = core row')
    (hreads : Reads row user) : Reads row' user := by
  simp only [core, UserRecord.mk.injEq, Option.some.injEq] at h
  obtain ⟨husername, hphone, hhash, hemail, -, hstatus, -, hsecret, hactive, -⟩ := h
  exact ⟨hreads.username.trans husername, hreads.phone.trans hphone, hreads.phoneHash.trans hhash,
    hreads.email.trans hemail, hreads.statusText.trans hstatus, hreads.twoFaSecret.trans hsecret,
    hreads.isActive.trans hactive⟩

/-- What a request does one after the other. -/
def Protocol (req : UserReq) (h : List ((c : UserCmd) × c.Ans)) (c : UserCmd) : Prop :=
  match req with
  | .twoFaSetupVerify id code =>
    (h = [] ∧ c = .verifyTwoFaSetupOtp id.toString code) ∨
    (h = [⟨.verifyTwoFaSetupOtp id.toString code, .ok .matched⟩] ∧ c = .findById id) ∨
    (∃ user, h = [⟨.verifyTwoFaSetupOtp id.toString code, .ok .matched⟩,
        ⟨.findById id, .ok (some user)⟩] ∧ c = .update { user with twoFaEnabled := true }) ∨
    ∃ user : User, ⟨.update { user with twoFaEnabled := true }, .ok ()⟩ ∈ h ∧
      ⟨.findById id, .ok (some user)⟩ ∈ h ∧ c = .sadd "phone_hashes" user.phoneHash
  | .cleanUp id => c = .del ("presence:" ++ id.toString) ∨ c = .utcNow ∨
    ∃ timestamp, c = .updateLastSeen id timestamp

/-- A request whose code matched ends after it has found no user, or after its UPDATE. -/
def Ended (req : UserReq) (h : List ((c : UserCmd) × c.Ans)) : Prop :=
  match req with
  | .twoFaSetupVerify id code => ⟨.verifyTwoFaSetupOtp id.toString code, .ok .matched⟩ ∈ h →
    (∃ found : Except DomainError (Option User), (∀ user, found ≠ .ok (some user)) ∧
      h = [⟨.verifyTwoFaSetupOtp id.toString code, .ok .matched⟩, ⟨.findById id, found⟩]) ∨
    ∃ (user : User) (r : Except DomainError Unit), ⟨.findById id, .ok (some user)⟩ ∈ h ∧
      ⟨.update { user with twoFaEnabled := true }, r⟩ ∈ h
  | .cleanUp _ => True

theorem handler_protocol (isAlphanumeric : Char → Bool) (req : UserReq) :
    ((userServer isAlphanumeric).handler req).Follows (Protocol req) (fun h _ => Ended req h) [] := by
  cases req with
  | twoFaSetupVerify id code =>
    refine ⟨.inl ⟨rfl, rfl⟩, fun result => ?_⟩
    cases result with
    | error e => exact fun hmem => by simp at hmem
    | ok result =>
      cases result with
      | matched =>
        refine ⟨.inr (.inl ⟨rfl, rfl⟩), fun found => ?_⟩
        cases found with
        | error e => exact fun _ => .inl ⟨.error e, by rintro _ ⟨⟩, rfl⟩
        | ok found =>
          cases found with
          | none => exact fun _ => .inl ⟨.ok none, by rintro _ ⟨⟩, rfl⟩
          | some user =>
            refine ⟨.inr (.inr (.inl ⟨user, rfl, rfl⟩)), fun updated => ?_⟩
            cases updated with
            | error e => exact fun _ => .inr ⟨user, .error e, by simp, by simp⟩
            | ok _ =>
              refine ⟨.inr (.inr (.inr ⟨user, by simp, by simp, rfl⟩)), fun added => ?_⟩
              cases added <;> exact fun _ => .inr ⟨user, .ok (), by simp, by simp⟩
      | invalid | exceeded | notFound => exact fun hmem => by simp at hmem
  | cleanUp id => exact ⟨.inl rfl, fun _ => ⟨.inr (.inl rfl), fun now => ⟨.inr (.inr ⟨now, rfl⟩),
      fun _ => trivial⟩⟩⟩

/-- The invariant of the runs. -/
structure Sound (isAlphanumeric : Char → Bool) (t : UserTable) (c : UserConfig) : Prop where
  replays : (userServer isAlphanumeric).Replays c
  rows : ∀ id, (c.db.rows.lookup id).map core = (t.rows.lookup id).map core
  read : ∀ i id user, ⟨i, .findById id, .ok (some user)⟩ ∈ c.log → user.id = id ∧
    ∃ row, t.rows.lookup id = some row ∧ row.deletedAt = none ∧ Reads row user
  updated : ∀ i user r, ⟨i, .update user, r⟩ ∈ c.log → r = .ok ()

section Step

variable {isAlphanumeric : Char → Bool} {t : UserTable} {c d : UserConfig} {i : Nat} {r : UserReq}
  {cmd : UserCmd} {k : cmd.Ans → Prog UserCmd UserCmd.Ans (Except ApiError (Option Response))}
  {ans : cmd.Ans} {s : UserTable} {ω : UserChoice} {e : UserEvent}

theorem Sound.protocol (hc : Sound isAlphanumeric t c) (ht : c.tasks[i]? = some (r, .call cmd k)) :
    Protocol r (c.history i) cmd :=
  (hc.replays.follows (handler_protocol isAlphanumeric) ht).1

theorem Sound.row (hc : Sound isAlphanumeric t c) {id : Uuid} {row : UserRecord} (hrow : t.rows.lookup id = some row) :
    ∃ row', c.db.rows.lookup id = some row' ∧ core row' = core row := by
  have hmap := hc.rows id
  rw [hrow, Option.map_some] at hmap
  exact Option.map_eq_some_iff.mp hmap

theorem Sound.row_start (hc : Sound isAlphanumeric t c) {id : Uuid} {row : UserRecord}
    (hrow : c.db.rows.lookup id = some row) :
    ∃ row', t.rows.lookup id = some row' ∧ core row' = core row := by
  have hmap := hc.rows id
  rw [hrow, Option.map_some] at hmap
  exact Option.map_eq_some_iff.mp hmap.symm

/-- What the UPDATE writes has been read of the row that is there. -/
theorem Sound.update (hc : Sound isAlphanumeric t c) {user : User}
    {k : (UserCmd.update user).Ans → Prog UserCmd UserCmd.Ans (Except ApiError (Option Response))}
    (ht : c.tasks[i]? = some (r, .call (.update user) k)) :
    user.twoFaEnabled = true ∧ ∃ row read, c.db.live user.id = some row ∧ Reads row user ∧
      read.lastSeenAt = user.lastSeenAt ∧ ∀ other,
        ⟨.findById user.id, .ok (some other)⟩ ∈ c.history i ↔ other = read := by
  have hprotocol := hc.protocol ht
  cases r with
  | cleanUp id => obtain h | h | ⟨_, h⟩ := hprotocol <;> cases h
  | twoFaSetupVerify id code =>
    obtain ⟨-, h⟩ | ⟨-, h⟩ | ⟨read, hhist, h⟩ | ⟨_, -, -, h⟩ := hprotocol
    · cases h
    · cases h
    · cases h
      have hmem : (⟨.findById id, .ok (some read)⟩ : (c : UserCmd) × c.Ans) ∈ c.history i := by
        simp [hhist]
      obtain ⟨hid, row₀, hrow₀, hdel, hreads⟩ := hc.read i id read (World.mem_history.mp hmem)
      obtain ⟨row, hrow, hcore⟩ := hc.row hrow₀
      subst hid
      have hdel' : row.deletedAt = none := (congrArg UserRecord.deletedAt hcore).trans hdel
      have hreads' := reads_of_core hcore.symm hreads
      refine ⟨rfl, row, read, live_eq_some.mpr ⟨hrow, hdel'⟩, ?_, rfl, fun other => ?_⟩
      · exact ⟨hreads'.username, hreads'.phone, hreads'.phoneHash, hreads'.email, hreads'.statusText,
          hreads'.twoFaSecret, hreads'.isActive⟩
      · simp [hhist]
    · cases h

/-- What a statement makes of each row. -/
def rowAfter (now : Timestamp) (id : Uuid) (row : UserRecord) : UserCmd → UserRecord
  | .update user =>
    if id = user.id then { row with
      statusText := some (row.statusText.getD "")
      twoFaEnabled := true
      lastSeenAt := user.lastSeenAt
      updatedAt := now }
    else row
  | .updateLastSeen userId timestamp =>
    if id = userId ∧ row.deletedAt = none then
      { row with lastSeenAt := some timestamp, updatedAt := now }
    else row
  | _ => row

theorem core_rowAfter {now : Timestamp} {id : Uuid} {row : UserRecord} (cmd : UserCmd) :
    core (rowAfter now id row cmd) = core row := by
  cases cmd with
  | update | updateLastSeen =>
    rw [rowAfter]
    split_ifs <;> rfl
  | _ => rfl

theorem Sound.rows_after (hc : Sound isAlphanumeric t c) (ht : c.tasks[i]? = some (r, .call cmd k))
    (he : exec isAlphanumeric ω cmd c.db = some (ans, s)) (id : Uuid) :
    s.rows.lookup id = (c.db.rows.lookup id).map (fun row => rowAfter ω.now id row cmd) := by
  cases cmd with
  | update user =>
    obtain ⟨henabled, row, read, hlive, hreads, -⟩ := hc.update ht
    obtain ⟨t', hupdate, hrows⟩ := update_of_reads ω.now hlive hreads
    obtain ⟨-, rfl⟩ := Prod.mk.inj ((Option.some.inj he).symm.trans hupdate)
    rw [hrows]
    split_ifs with hid
    · subst hid
      rw [(live_eq_some.mp hlive).1, Option.map_some, rowAfter, if_pos rfl, henabled]
    · simp [rowAfter, hid]
  | updateLastSeen userId timestamp =>
    obtain ⟨-, rfl⟩ := Prod.mk.inj (Option.some.inj he)
    exact lookup_updateLastSeen
  | _ =>
    obtain ⟨-, rfl⟩ := Prod.mk.inj (Option.some.inj he)
    exact Option.map_id'.symm

theorem Sound.after (hc : Sound isAlphanumeric t c) (ht : c.tasks[i]? = some (r, .call cmd k))
    (he : exec isAlphanumeric ω cmd c.db = some (ans, s))
    (hreplays : (userServer isAlphanumeric).Replays ⟨c.after i cmd ans s, c.tasks.set i (r, k ans)⟩) :
    Sound isAlphanumeric t ⟨c.after i cmd ans s, c.tasks.set i (r, k ans)⟩ := by
  refine ⟨hreplays, fun id => ?_, fun j id user hmem => ?_, fun j user r hmem => ?_⟩
  · rw [← hc.rows id]
    refine (congrArg (Option.map core) (hc.rows_after ht he id)).trans ?_
    rw [Option.map_map]
    exact congrArg (Option.map · _) (funext fun row => core_rowAfter cmd)
  · obtain hmem | hmem := List.mem_append.mp hmem
    · exact hc.read j id user hmem
    · obtain heq := List.mem_singleton.mp hmem
      cases heq
      obtain ⟨hfind, -⟩ := Prod.mk.inj (Option.some.inj he)
      obtain ⟨row, hlive, hmap⟩ := readable_of_findById hfind
      obtain ⟨hid, hreads, -⟩ := reads_of_map hmap
      obtain ⟨hrow, hdel⟩ := live_eq_some.mp hlive
      obtain ⟨row₀, hrow₀, hcore⟩ := hc.row_start hrow
      exact ⟨hid, row₀, hrow₀, (congrArg UserRecord.deletedAt hcore).trans hdel,
        reads_of_core hcore.symm hreads⟩
  · obtain hmem | hmem := List.mem_append.mp hmem
    · exact hc.updated j user r hmem
    · obtain heq := List.mem_singleton.mp hmem
      cases heq
      obtain ⟨-, row, read, hlive, hreads, -⟩ := hc.update ht
      obtain ⟨t', hupdate, -⟩ := update_of_reads ω.now hlive hreads
      exact (Prod.mk.inj ((Option.some.inj he).symm.trans hupdate)).1

theorem sound_apply {a : UserAct} (hc : Sound isAlphanumeric t c)
    (ha : (userServer isAlphanumeric).apply a c = some d) : Sound isAlphanumeric t d := by
  have hreplays := System.replays_apply hc.replays ha
  obtain ⟨r, rfl, rfl⟩ | ⟨i, ω, r, cmd, k, ans, s, rfl, ht, he, rfl⟩ | ⟨ω, s, rfl, hs, rfl⟩ :=
    System.apply_cases ha
  · exact ⟨hreplays, hc.rows, hc.read, hc.updated⟩
  · exact hc.after ht he hreplays
  · cases hs

theorem expectedRow_snoc {log : List UserEvent} {id : Uuid} {row : UserRecord} :
    expectedRow (log ++ [e]) id row = { expectedRow log id row with
      twoFaEnabled := (expectedRow log id row).twoFaEnabled || enables id e
      lastSeenAt := (lastSeenWrite id e).getD (expectedRow log id row).lastSeenAt } := by
  simp [expectedRow, latest_append, Bool.or_assoc]

theorem updatedAt_congr {row : UserRecord} (row' : UserRecord) (now now' : Timestamp) :
    { row with updatedAt := now } = { row' with updatedAt := now } ↔
      { row with updatedAt := now' } = { row' with updatedAt := now' } := by
  simp only [UserRecord.mk.injEq, true_and]

/-- One statement keeps the columns exactly if it makes of each row what its event stands for. -/
theorem columnsKept_iff (hc : Sound isAlphanumeric t c) (hcols : ColumnsKept t c)
    (hlog : d.log = c.log ++ [e]) {now : Timestamp}
    (hrows : ∀ id, d.db.rows.lookup id =
      (c.db.rows.lookup id).map (fun row => rowAfter now id row cmd)) :
    ColumnsKept t d ↔ ∀ id row, c.db.rows.lookup id = some row →
      { rowAfter now id row cmd with updatedAt := row.updatedAt } = { row with
        twoFaEnabled := row.twoFaEnabled || enables id e
        lastSeenAt := (lastSeenWrite id e).getD row.lastSeenAt } := by
  have hiff : ∀ id row₀ row, t.rows.lookup id = some row₀ → c.db.rows.lookup id = some row →
      ({ rowAfter now id row cmd with updatedAt := row₀.updatedAt } = expectedRow d.log id row₀ ↔
        { rowAfter now id row cmd with updatedAt := row.updatedAt } = { row with
          twoFaEnabled := row.twoFaEnabled || enables id e
          lastSeenAt := (lastSeenWrite id e).getD row.lastSeenAt }) := by
    intro id row₀ row hrow₀ hrow
    obtain ⟨row', hrow', hexpected⟩ := hcols id row₀ hrow₀
    obtain rfl := Option.some.inj (hrow'.symm.trans hrow)
    rw [hlog, expectedRow_snoc, ← hexpected]
    exact updatedAt_congr { row' with
      twoFaEnabled := row'.twoFaEnabled || enables id e
      lastSeenAt := (lastSeenWrite id e).getD row'.lastSeenAt } _ _
  constructor
  · intro h id row hrow
    obtain ⟨row₀, hrow₀, -⟩ := hc.row_start hrow
    obtain ⟨row', hrow', hexpected⟩ := h id row₀ hrow₀
    rw [hrows, hrow, Option.map_some] at hrow'
    obtain rfl := Option.some.inj hrow'
    exact (hiff id row₀ row hrow₀ hrow).mp hexpected
  · intro h id row₀ hrow₀
    obtain ⟨row, hrow, -⟩ := hc.row hrow₀
    refine ⟨rowAfter now id row cmd, ?_, (hiff id row₀ row hrow₀ hrow).mpr (h id row hrow)⟩
    rw [hrows, hrow, Option.map_some]

/-- The two statements that write to the rows. -/
def Writes : UserCmd → Prop
  | .update _ | .updateLastSeen .. => True
  | _ => False

theorem columnsKept_of_quiet (hc : Sound isAlphanumeric t c) (hcols : ColumnsKept t c)
    (hcmd : ¬ Writes cmd) (hlog : d.log = c.log ++ [⟨i, cmd, ans⟩])
    (hrows : ∀ id, d.db.rows.lookup id =
      (c.db.rows.lookup id).map (fun row => rowAfter ω.now id row cmd)) : ColumnsKept t d := by
  refine (columnsKept_iff hc hcols hlog hrows).mpr fun id row hrow => ?_
  cases cmd with
  | update | updateLastSeen => exact absurd trivial hcmd
  | _ => simp [rowAfter, enables, lastSeenWrite]

theorem columnsKept_update {user : User} (hc : Sound isAlphanumeric t c) (hcols : ColumnsKept t c)
    {k : (UserCmd.update user).Ans → Prog UserCmd UserCmd.Ans (Except ApiError (Option Response))}
    {ans : (UserCmd.update user).Ans} (ht : c.tasks[i]? = some (r, .call (.update user) k))
    (hok : ans = .ok ()) (hlog : d.log = c.log ++ [⟨i, .update user, ans⟩])
    (hrows : ∀ id, d.db.rows.lookup id =
      (c.db.rows.lookup id).map (fun row => rowAfter ω.now id row (.update user))) :
    Harmless isAlphanumeric c.db (c.history i) (.update user) ↔ ColumnsKept t d := by
  obtain ⟨-, row, read, hlive, -, hseen, hread⟩ := hc.update ht
  obtain ⟨hrow, -⟩ := live_eq_some.mp hlive
  rw [columnsKept_iff hc hcols hlog hrows]
  subst hok
  constructor
  · intro h id row' hrow'
    by_cases hid : id = user.id
    · subst hid
      obtain rfl := Option.some.inj (hrow.symm.trans hrow')
      obtain ⟨hstatus, hlast⟩ := h row read hrow ((hread read).mpr rfl)
      obtain ⟨text, htext⟩ := Option.isSome_iff_exists.mp hstatus
      simp [rowAfter, enables, lastSeenWrite, htext, hlast, hseen]
    · simp [rowAfter, enables, lastSeenWrite, hid, Ne.symm hid]
  · intro h row' other hrow' hother
    obtain rfl := Option.some.inj (hrow.symm.trans hrow')
    obtain rfl := (hread other).mp hother
    have heq := h user.id row hrow
    simp only [rowAfter, if_true] at heq
    have hstatus := congrArg UserRecord.statusText heq
    have hlast := congrArg UserRecord.lastSeenAt heq
    exact ⟨by rw [← hstatus]; rfl, hlast.symm.trans hseen.symm⟩

theorem columnsKept_updateLastSeen {userId : Uuid} {timestamp : Timestamp}
    (hc : Sound isAlphanumeric t c) (hcols : ColumnsKept t c)
    {ans : (UserCmd.updateLastSeen userId timestamp).Ans}
    (hlog : d.log = c.log ++ [⟨i, .updateLastSeen userId timestamp, ans⟩])
    (hrows : ∀ id, d.db.rows.lookup id = (c.db.rows.lookup id).map
      (fun row => rowAfter ω.now id row (.updateLastSeen userId timestamp))) :
    Harmless isAlphanumeric c.db (c.history i) (.updateLastSeen userId timestamp) ↔
      ColumnsKept t d := by
  rw [columnsKept_iff hc hcols hlog hrows]
  constructor
  · intro h id row hrow
    by_cases hid : id = userId
    · subst hid
      by_cases hdel : row.deletedAt = none
      · simp [rowAfter, enables, lastSeenWrite, hdel]
      · have hlast := (h row hrow).resolve_left hdel
        simp [rowAfter, enables, lastSeenWrite, hdel, ← hlast]
    · simp [rowAfter, enables, lastSeenWrite, hid, Ne.symm hid]
  · intro h row hrow
    by_cases hdel : row.deletedAt = none
    · exact .inl hdel
    · have hlast := congrArg UserRecord.lastSeenAt (h userId row hrow)
      simp only [rowAfter, hdel, and_false, if_false, lastSeenWrite, if_true, Option.getD_some] at hlast
      exact .inr hlast

section Matched

variable {k : cmd.Ans → Prog UserCmd UserCmd.Ans (Except ApiError (Option Response))}

/-- What is enabled stays enabled. -/
theorem enabled_mono (hc : Sound isAlphanumeric t c) (hcols : ColumnsKept t c) (hcols' : ColumnsKept t d)
    (hlog : d.log = c.log ++ [e]) {id : Uuid} {row row' : UserRecord}
    (hrow : c.db.rows.lookup id = some row) (hrow' : d.db.rows.lookup id = some row')
    (h : row.twoFaEnabled = true) : row'.twoFaEnabled = true := by
  obtain ⟨row₀, hrow₀, -⟩ := hc.row_start hrow
  obtain ⟨row₁, hrow₁, hbefore⟩ := hcols id row₀ hrow₀
  obtain ⟨row₂, hrow₂, hafter⟩ := hcols' id row₀ hrow₀
  obtain rfl := Option.some.inj (hrow₁.symm.trans hrow)
  obtain rfl := Option.some.inj (hrow₂.symm.trans hrow')
  have hb : row₁.twoFaEnabled = (row₀.twoFaEnabled || c.log.any (enables id)) :=
    congrArg UserRecord.twoFaEnabled hbefore
  have ha : row₂.twoFaEnabled = (row₀.twoFaEnabled || d.log.any (enables id)) :=
    congrArg UserRecord.twoFaEnabled hafter
  rw [ha, hlog, List.any_append, ← Bool.or_assoc, ← hb, h, Bool.true_or]

theorem enabled_of_update (hd : Sound isAlphanumeric t d) (hcols : ColumnsKept t d) {j : Nat} {id : Uuid}
    {user : User} {r : Except DomainError Unit} (hfind : ⟨.findById id, .ok (some user)⟩ ∈ d.history j)
    (hupdate : ⟨.update { user with twoFaEnabled := true }, r⟩ ∈ d.history j) {row : UserRecord}
    (hrow : d.db.rows.lookup id = some row) : row.twoFaEnabled = true := by
  obtain ⟨rfl, row₀, hrow₀, -⟩ := hd.read j id user (World.mem_history.mp hfind)
  have hmem := World.mem_history.mp hupdate
  obtain rfl := hd.updated j _ r hmem
  obtain ⟨row', hrow', hexpected⟩ := hcols _ row₀ hrow₀
  obtain rfl := Option.some.inj (hrow'.symm.trans hrow)
  have hrowEnabled : row'.twoFaEnabled = (row₀.twoFaEnabled || d.log.any (enables user.id)) :=
    congrArg UserRecord.twoFaEnabled hexpected
  rw [hrowEnabled, List.any_eq_true.mpr ⟨_, hmem, by simp [enables]⟩, Bool.or_true]

/-- After a statement of task `i` only this task matters. -/
theorem matchedEnabled_iff (hc : Sound isAlphanumeric t c) (hcols : ColumnsKept t c)
    (hmatched : MatchedEnabled c) (ht : c.tasks[i]? = some (r, .call cmd k))
    (hcols' : ColumnsKept t ⟨c.after i cmd ans s, c.tasks.set i (r, k ans)⟩)
    (hrows : ∀ id, s.rows.lookup id =
      (c.db.rows.lookup id).map (fun row => rowAfter ω.now id row cmd)) :
    MatchedEnabled ⟨c.after i cmd ans s, c.tasks.set i (r, k ans)⟩ ↔
      ∀ id code, r = .twoFaSetupVerify id code → (k ans).finished →
        ⟨.verifyTwoFaSetupOtp id.toString code, .ok .matched⟩ ∈ c.history i ++ [⟨cmd, ans⟩] →
          ∀ row, s.rows.lookup id = some row → row.twoFaEnabled = true := by
  have hhist : ∀ j, World.history (c.after i cmd ans s) j =
      c.history j ++ if i = j then [⟨cmd, ans⟩] else [] := fun j =>
    World.history_after _ i j cmd ans s
  have hi := (List.getElem?_eq_some_iff.mp ht).1
  constructor
  · rintro h id code rfl hfin hmem row hrow
    refine h i id code (k ans) (List.getElem?_set_self hi) hfin ?_ row hrow
    exact (hhist i).symm ▸ (if_pos rfl : (if i = i then [_] else []) = _).symm ▸ hmem
  · intro h j id code p hp hfin hmem row' hrow'
    change _ ∈ World.history (c.after i cmd ans s) j at hmem
    rw [hhist] at hmem
    by_cases hj : i = j
    · subst hj
      rw [List.getElem?_set_self hi] at hp
      obtain ⟨rfl, rfl⟩ := Prod.mk.inj (Option.some.inj hp)
      rw [if_pos rfl] at hmem
      exact h id code rfl hfin hmem row' hrow'
    · rw [List.getElem?_set_ne hj] at hp
      rw [if_neg hj, List.append_nil] at hmem
      have hmap := hrows id
      rw [show s.rows.lookup id = some row' from hrow'] at hmap
      obtain ⟨row, hrow, -⟩ := Option.map_eq_some_iff.mp hmap.symm
      exact enabled_mono hc hcols hcols' rfl hrow hrow' (hmatched j id code p hp hfin hmem row hrow)

/-- What a task that has come to its end has got answered. -/
theorem Sound.ended (hd : Sound isAlphanumeric t ⟨c.after i cmd ans s, c.tasks.set i (r, k ans)⟩)
    (ht : c.tasks[i]? = some (r, .call cmd k)) (hfin : (k ans).finished) :
    Ended r (c.history i ++ [⟨cmd, ans⟩]) := by
  have hget : (c.tasks.set i (r, k ans))[i]? = some (r, k ans) :=
    List.getElem?_set_self (List.getElem?_eq_some_iff.mp ht).1
  have hfollows := hd.replays.follows (handler_protocol isAlphanumeric) hget
  have hhist := World.history_after c.toWorld i i cmd ans s
  rw [if_pos rfl] at hhist
  change (k ans).Follows _ _ (World.history (c.after i cmd ans s) i) at hfollows
  rw [hhist] at hfollows
  cases hk : k ans with
  | ret out =>
    rw [hk] at hfollows
    exact hfollows
  | call =>
    rw [hk] at hfin
    cases hfin

theorem enabled_of_ended (hd : Sound isAlphanumeric t ⟨c.after i cmd ans s, c.tasks.set i (r, k ans)⟩)
    (hcols : ColumnsKept t ⟨c.after i cmd ans s, c.tasks.set i (r, k ans)⟩)
    (ht : c.tasks[i]? = some (r, .call cmd k)) {id : Uuid} {code : String}
    (hr : r = .twoFaSetupVerify id code) (hfin : (k ans).finished)
    (hmem : ⟨.verifyTwoFaSetupOtp id.toString code, .ok .matched⟩ ∈ c.history i ++ [⟨cmd, ans⟩])
    {row : UserRecord} (hrow : s.rows.lookup id = some row) :
    row.twoFaEnabled = true ∨ ∃ found : Except DomainError (Option User),
      (∀ user, found ≠ .ok (some user)) ∧ (⟨cmd, ans⟩ : (c : UserCmd) × c.Ans) = ⟨.findById id, found⟩ := by
  have hhist := World.history_after c.toWorld i i cmd ans s
  rw [if_pos rfl] at hhist
  subst hr
  obtain ⟨found, hnone, heq⟩ | ⟨user, res, hfind, hupdate⟩ := hd.ended ht hfin hmem
  · refine .inr ⟨found, hnone, ?_⟩
    have hlast := congrArg List.getLast? heq
    simpa using hlast
  · rw [← hhist] at hfind hupdate
    exact .inl (enabled_of_update hd hcols hfind hupdate hrow)

/-- Whoever looks for a user has matched a code. -/
theorem Sound.asksFor (hc : Sound isAlphanumeric t c) {id : Uuid}
    {k : (UserCmd.findById id).Ans → Prog UserCmd UserCmd.Ans (Except ApiError (Option Response))}
    (ht : c.tasks[i]? = some (r, .call (.findById id) k)) : ∃ code, r = .twoFaSetupVerify id code ∧
      c.history i = [⟨.verifyTwoFaSetupOtp id.toString code, .ok .matched⟩] := by
  have hprotocol := hc.protocol ht
  cases r with
  | cleanUp id' => obtain h | h | ⟨_, h⟩ := hprotocol <;> cases h
  | twoFaSetupVerify id' code =>
    obtain ⟨-, h⟩ | ⟨hhist, h⟩ | ⟨_, -, h⟩ | ⟨_, -, -, h⟩ := hprotocol
    · cases h
    · cases h
      exact ⟨code, rfl, hhist⟩
    · cases h
    · cases h

/-- A request that has found no user issues nothing more. -/
theorem Sound.stops {id : Uuid} {code : String}
    {k : (UserCmd.findById id).Ans → Prog UserCmd UserCmd.Ans (Except ApiError (Option Response))}
    {ans : (UserCmd.findById id).Ans} (hd : Sound isAlphanumeric t
      ⟨c.after i (.findById id) ans s, c.tasks.set i (.twoFaSetupVerify id code, k ans)⟩)
    (ht : c.tasks[i]? = some (.twoFaSetupVerify id code, .call (.findById id) k))
    (hhist : c.history i = [⟨.verifyTwoFaSetupOtp id.toString code, .ok .matched⟩])
    (hnone : ∀ user, ans ≠ .ok (some user)) : (k ans).finished := by
  cases hk : k ans with
  | ret => rfl
  | call cmd k' =>
    have hget : (c.tasks.set i (.twoFaSetupVerify id code, k ans))[i]? =
        some (.twoFaSetupVerify id code, .call cmd k') := by
      rw [List.getElem?_set_self (List.getElem?_eq_some_iff.mp ht).1, hk]
    have hprotocol := hd.protocol hget
    change Protocol _ (World.history (c.after i (.findById id) ans s) i) cmd at hprotocol
    rw [World.history_after, if_pos rfl, hhist] at hprotocol
    obtain ⟨h, -⟩ | ⟨h, -⟩ | ⟨user, h, -⟩ | ⟨user, h, -⟩ := hprotocol
    · simp at h
    · simp at h
    · exact absurd (by simpa using h) (hnone user)
    · simp at h

/-- The read before the UPDATE is harmless if and only if it finds whomever it has to. -/
theorem harmless_findById_iff {id : Uuid} {ans : (UserCmd.findById id).Ans}
    {k : (UserCmd.findById id).Ans → Prog UserCmd UserCmd.Ans (Except ApiError (Option Response))}
    (hc : Sound isAlphanumeric t c) (hcols : ColumnsKept t c) (hmatched : MatchedEnabled c)
    (ht : c.tasks[i]? = some (r, .call (.findById id) k))
    (hans : c.db.findById isAlphanumeric id = ans)
    (hd : Sound isAlphanumeric t ⟨c.after i _ ans c.db, c.tasks.set i (r, k ans)⟩)
    (hcols' : ColumnsKept t ⟨c.after i _ ans c.db, c.tasks.set i (r, k ans)⟩)
    (hrows : ∀ id', c.db.rows.lookup id' =
      (c.db.rows.lookup id').map (fun row => rowAfter ω.now id' row (.findById id))) :
    Harmless isAlphanumeric c.db (c.history i) (.findById id) ↔
      MatchedEnabled ⟨c.after i _ ans c.db, c.tasks.set i (r, k ans)⟩ := by
  rw [matchedEnabled_iff hc hcols hmatched ht hcols' hrows]
  constructor
  · intro h id' code hr hfin hmem row hrow
    obtain h' | ⟨found, hnone, heq⟩ := enabled_of_ended hd hcols' ht hr hfin hmem hrow
    · exact h'
    · cases heq
      obtain henabled | ⟨hdel, hok⟩ := h row hrow
      · exact henabled
      · obtain ⟨user, huser⟩ := findById_of_readable hrow hdel hok
        exact absurd (hans.symm.trans huser) (hnone user)
  · intro h row hrow
    by_contra hbad
    have hnone : ∀ user, ans ≠ .ok (some user) := by
      rintro user rfl
      obtain ⟨row', hlive, hmap⟩ := readable_of_findById hans
      obtain ⟨hrow', hdel⟩ := live_eq_some.mp hlive
      obtain rfl := Option.some.inj (hrow'.symm.trans hrow)
      exact hbad (.inr ⟨hdel, by rw [hmap]; rfl⟩)
    obtain ⟨code, rfl, hhist⟩ := hc.asksFor ht
    refine hbad (.inl (h id code rfl (hd.stops ht hhist hnone) ?_ row hrow))
    rw [hhist]
    exact List.mem_cons_self

theorem step_iff (hc : Sound isAlphanumeric t c) (hcols : ColumnsKept t c) (hmatched : MatchedEnabled c)
    (ht : c.tasks[i]? = some (r, .call cmd k))
    (he : exec isAlphanumeric ω cmd c.db = some (ans, s))
    (hd : Sound isAlphanumeric t ⟨c.after i cmd ans s, c.tasks.set i (r, k ans)⟩) :
    Harmless isAlphanumeric c.db (c.history i) cmd ↔
      ColumnsKept t ⟨c.after i cmd ans s, c.tasks.set i (r, k ans)⟩ ∧
        MatchedEnabled ⟨c.after i cmd ans s, c.tasks.set i (r, k ans)⟩ := by
  have hrows := hc.rows_after ht he
  have hother : (∀ id, cmd ≠ .findById id) →
      ColumnsKept t ⟨c.after i cmd ans s, c.tasks.set i (r, k ans)⟩ →
        MatchedEnabled ⟨c.after i cmd ans s, c.tasks.set i (r, k ans)⟩ := by
    intro hcmd hcols'
    refine (matchedEnabled_iff hc hcols hmatched ht hcols' hrows).mpr ?_
    intro id code hr hfin hmem row hrow
    obtain h | ⟨found, -, heq⟩ := enabled_of_ended hd hcols' ht hr hfin hmem hrow
    · exact h
    · exact absurd (congrArg Sigma.fst heq) (hcmd id)
  have hquiet : ¬ Writes cmd →
      ColumnsKept t ⟨c.after i cmd ans s, c.tasks.set i (r, k ans)⟩ := fun hcmd =>
    columnsKept_of_quiet hc hcols hcmd rfl hrows
  cases cmd with
  | findById id =>
    have hcols' := hquiet not_false
    obtain ⟨hans, rfl⟩ := Prod.mk.inj (Option.some.inj he)
    refine Iff.trans ?_ (and_iff_right hcols').symm
    exact harmless_findById_iff hc hcols hmatched ht hans hd hcols' hrows
  | update user =>
    have hok := hd.updated i user ans (List.mem_append_right _ (List.mem_singleton_self _))
    have hiff := columnsKept_update (d := ⟨c.after i _ ans s, c.tasks.set i (r, k ans)⟩) hc hcols ht
      hok rfl hrows
    exact ⟨fun h => ⟨hiff.mp h, hother (by rintro _ ⟨⟩) (hiff.mp h)⟩, fun h => hiff.mpr h.1⟩
  | updateLastSeen userId timestamp =>
    have hiff := columnsKept_updateLastSeen (d := ⟨c.after i _ ans s, c.tasks.set i (r, k ans)⟩) hc hcols
      rfl hrows
    exact ⟨fun h => ⟨hiff.mp h, hother (by rintro _ ⟨⟩) (hiff.mp h)⟩, fun h => hiff.mpr h.1⟩
  | _ =>
    have hcols' := hquiet not_false
    exact iff_of_true trivial ⟨hcols', hother (by rintro _ ⟨⟩) hcols'⟩

end Matched

theorem matchedEnabled_spawn (hmatched : MatchedEnabled c) (req : UserReq) :
    MatchedEnabled { c with tasks := c.tasks ++ [(req, (userServer isAlphanumeric).handler req)] } := by
  intro j id code p hp hfin hmem
  obtain hlt | hge := Nat.lt_or_ge j c.tasks.length
  · exact hmatched j id code p ((List.getElem?_append_left hlt).symm.trans hp) hfin hmem
  · rw [List.getElem?_append_right hge] at hp
    obtain ⟨rfl, rfl⟩ := Prod.mk.inj (List.mem_singleton.mp (List.mem_of_getElem? hp))
    cases hfin

theorem undisturbed_iff {a : UserAct} (hc : Sound isAlphanumeric t c)
    (hgood : ColumnsKept t c ∧ MatchedEnabled c) (ha : (userServer isAlphanumeric).apply a c = some d) :
    Undisturbed isAlphanumeric c a ↔ ColumnsKept t d ∧ MatchedEnabled d := by
  have hd := sound_apply hc ha
  obtain ⟨r, rfl, rfl⟩ | ⟨i, ω, r, cmd, k, ans, s, rfl, ht, he, rfl⟩ | ⟨ω, s, rfl, hs, rfl⟩ :=
    System.apply_cases ha
  · exact iff_of_true trivial ⟨hgood.1, matchedEnabled_spawn hgood.2 r⟩
  · rw [← step_iff hc hgood.1 hgood.2 ht he hd]
    constructor
    · intro h
      apply h
      rw [ht]
      rfl
    · intro h cmd' hcmd'
      rw [ht] at hcmd'
      obtain rfl := Option.some.inj hcmd'
      exact h
  · cases hs

end Step

theorem sound_start (isAlphanumeric : Char → Bool) (t : UserTable) :
    Sound isAlphanumeric t (System.start t) where
  replays := System.replays_start t
  rows _ := rfl
  read _ _ _ h := by cases h
  updated _ _ _ h := by cases h

/-- In every run of the requests that enable the second factor and of the ends of connections, and in
every state of it: each row is as at the start, but for `updated_at`, for the second factor of those
whose UPDATE has run and for `last_seen_at`, which is that of the last `update_last_seen`; and no
request whose code matched ends without the second factor. This is so exactly if no statement of the
run does harm. -/
theorem only_two_columns_iff (isAlphanumeric : Char → Bool) (t : UserTable) (acts : List UserAct) :
    (userServer isAlphanumeric).Every (Undisturbed isAlphanumeric) acts (System.start t) ↔
      ∀ d ∈ (userServer isAlphanumeric).trace acts (System.start t),
        ColumnsKept t d ∧ MatchedEnabled d := by
  refine System.every_iff_forall (J := Sound isAlphanumeric t) sound_apply undisturbed_iff acts
    (sound_start isAlphanumeric t) ⟨fun id row hrow => ⟨row, hrow, ?_⟩, fun i id code p hp => by cases hp⟩
  simp [expectedRow, System.start]

def alice : Uuid := .ofNat 1

def aliceRow : UserRecord where
  username := some "alice"
  phone := "+34600000001"
  phoneHash := some "hash"
  email := none
  avatarUrl := none
  statusText := some "hey"
  twoFaEnabled := false
  twoFaSecret := none
  isActive := true
  lastSeenAt := some 5
  createdAt := 1
  updatedAt := 5
  deletedAt := none

def onlyAlice : UserTable := UserTable.empty.put alice aliceRow (by rintro _ _ _ ⟨⟩)

/-- A connection of Alice ends between the SELECT and the UPDATE. -/
def crossed : List UserAct :=
  let choose (now : Timestamp) : UserChoice := ⟨now, .ok .matched, .ok ()⟩
  [.spawn (.twoFaSetupVerify alice "123456"), .spawn (.cleanUp alice),
    .step 0 (choose 6), .step 0 (choose 7), .step 1 (choose 8), .step 1 (choose 9),
    .step 1 (choose 10), .step 0 (choose 11), .step 0 (choose 12)]

/-- The UPDATE takes Alice back to when she was seen before. -/
theorem last_seen_lost : ¬ ∀ d ∈ (userServer Char.isAlphanum).trace crossed (System.start onlyAlice),
    (∀ t ∈ d.tasks, t.2.finished) → ∀ row, d.db.rows.lookup alice = some row →
      row.lastSeenAt = latest aliceRow.lastSeenAt (d.log.map (lastSeenWrite alice)) := by
  intro h
  have hlast : ∃ d ∈ ((userServer Char.isAlphanum).trace crossed (System.start onlyAlice)).getLast?,
      (∀ t ∈ d.tasks, t.2.finished) ∧
        (d.db.rows.lookup alice).map UserRecord.lastSeenAt = some (some 5) ∧
        latest aliceRow.lastSeenAt (d.log.map (lastSeenWrite alice)) = some 9 := by decide +kernel
  obtain ⟨d, hd, hfin, hseen, hlatest⟩ := hlast
  obtain ⟨row, hrow, hfive⟩ := Option.map_eq_some_iff.mp hseen
  have hnine := h d (List.mem_of_getLast? hd) hfin row hrow
  rw [hlatest, hfive] at hnine
  cases hnine

end Mesty.Auth.LastSeen
