import Mesty.Refinement.LastWrite
import Mesty.Users.Profiles

namespace Mesty.Users.Blocks

open Mesty.Base.Ids Mesty.Base.Error Mesty.Concurrency.Program Mesty.Concurrency.Pool
open Mesty.Concurrency.Visits Mesty.Refinement.LastWrite Mesty.Refinement.Like
open Mesty.Users.Repository Mesty.Users.Handlers Mesty.Users.Profiles
open Mesty.Users.Search (SearchQuery toResult)

abbrev UsersEvent := Event UsersCmd UsersCmd.Ans

/-- What an executed statement writes to the set of blocks about one of them. -/
def blockWrite (pair : Uuid × Uuid) : UsersEvent → Option Bool
  | ⟨_, .blockUser blockerId blockedId, .ok _⟩ => if (blockerId, blockedId) = pair then some true else none
  | ⟨_, .unblockUser blockerId blockedId, .ok _⟩ =>
    if (blockerId, blockedId) = pair then some false else none
  | _ => none

section Statements

variable {f : CaseFold} {ω : UsersChoice} {cmd : UsersCmd} {ans : cmd.Ans} {db db' : UsersDb} {i : Nat}
  {blockerId blockedId : Uuid}

theorem blockUser_cases {ω : UsersChoice} {r : Except DomainError Uuid}
    (h : db.blockUser ω blockerId blockedId = (r, db')) :
    (∃ e, r = .error e ∧ db' = db) ∨
    (r = .ok ω.uuid ∧ db.isBlocked blockerId blockedId = true ∧ db' = db) ∨
    ∃ hne : blockerId ≠ blockedId, r = .ok ω.uuid ∧ db.isBlocked blockerId blockedId = false ∧
      db' = { db with blocks := db.blocks.insert hne ⟨ω.uuid, ω.now⟩ } := by
  rw [UsersDb.blockUser] at h
  split_ifs at h with hself hblocked husers
  · obtain ⟨rfl, rfl⟩ := Prod.mk.inj h
    exact .inl ⟨_, rfl, rfl⟩
  · obtain ⟨rfl, rfl⟩ := Prod.mk.inj h
    exact .inr (.inl ⟨rfl, hblocked, rfl⟩)
  · obtain ⟨rfl, rfl⟩ := Prod.mk.inj h
    exact .inl ⟨_, rfl, rfl⟩
  · obtain ⟨rfl, rfl⟩ := Prod.mk.inj h
    exact .inr (.inr ⟨hself, rfl, Bool.eq_false_iff.mpr hblocked, rfl⟩)

theorem isBlocked_insert {row : BlockRow} (hne : blockerId ≠ blockedId) (pair : Uuid × Uuid) :
    UsersDb.isBlocked { db with blocks := db.blocks.insert hne row } pair.1 pair.2 =
      if (blockerId, blockedId) = pair then true else db.isBlocked pair.1 pair.2 := by
  simp only [UsersDb.isBlocked, BlockTable.insert, AList.mem_insert]
  split_ifs with h
  · simp [h]
  · simp [Ne.symm h]

theorem isBlocked_erase (pair : Uuid × Uuid) :
    UsersDb.isBlocked { db with blocks := db.blocks.erase blockerId blockedId } pair.1 pair.2 =
      if (blockerId, blockedId) = pair then false else db.isBlocked pair.1 pair.2 := by
  simp only [UsersDb.isBlocked, BlockTable.erase, AList.mem_erase]
  split_ifs with h
  · simp [h]
  · simp [Ne.symm h]

theorem isBlocked_of_exec (he : UsersDb.exec f ω cmd db = some (ans, db')) (pair : Uuid × Uuid) :
    db'.isBlocked pair.1 pair.2 =
      latest (db.isBlocked pair.1 pair.2) [blockWrite pair ⟨i, cmd, ans⟩] := by
  cases cmd with
  | blockUser blockerId blockedId =>
    simp only [UsersDb.exec] at he
    split_ifs at he
    obtain ⟨e, rfl, rfl⟩ | ⟨rfl, hblocked, rfl⟩ | ⟨hne, rfl, -, rfl⟩ :=
      blockUser_cases (Option.some.inj he)
    · rfl
    · rw [blockWrite, latest_singleton]
      split_ifs with hpair
      · rw [← hpair]
        exact hblocked
      · rfl
    · rw [isBlocked_insert, blockWrite, latest_singleton]
      split_ifs <;> rfl
  | unblockUser blockerId blockedId =>
    obtain ⟨rfl, rfl⟩ := Prod.mk.inj (Option.some.inj he)
    rw [UsersDb.unblockUser, isBlocked_erase, blockWrite, latest_singleton]
    split_ifs <;> rfl
  | cacheSetEx key value seconds =>
    simp only [UsersDb.exec] at he
    split at he <;> obtain ⟨rfl, rfl⟩ := Prod.mk.inj (Option.some.inj he) <;> rfl
  | _ =>
    obtain ⟨rfl, rfl⟩ := Prod.mk.inj (Option.some.inj he)
    rfl

end Statements

/-- In every state of a run a user is blocked by another one exactly if the last statement about
the two that was executed has stored the block. -/
def LastWritten (lib : UsersLib) (f : CaseFold) (db : UsersDb) (acts : List UsersAct) : Prop :=
  ∀ d ∈ (usersServer lib f).trace acts (System.start db), ∀ pair : Uuid × Uuid,
    d.db.isBlocked pair.1 pair.2 = latest (db.isBlocked pair.1 pair.2) (d.log.map (blockWrite pair))

theorem blocks_last_written (lib : UsersLib) (f : CaseFold) (db : UsersDb) (acts : List UsersAct) :
    LastWritten lib f db acts := by
  refine forall_eq_latest (J := fun _ => True) (fun _ _ => trivial) (fun {c a d} _ ha => ?_) acts trivial
    (fun _ => rfl)
  obtain ⟨r, rfl, rfl⟩ | ⟨i, ω, r, cmd, k, ans, s, rfl, ht, he, rfl⟩ | ⟨ω, s, rfl, hs, rfl⟩ :=
    System.apply_cases ha
  · exact ⟨fun _ => [], fun _ => (List.append_nil _).symm, fun _ => rfl⟩
  · exact ⟨fun pair => [blockWrite pair ⟨i, cmd, ans⟩], fun pair => by simp,
      fun pair => isBlocked_of_exec he pair⟩
  · obtain rfl := Option.some.inj hs
    exact ⟨fun _ => [], fun _ => (List.append_nil _).symm, fun _ => rfl⟩

def yourself : Response := ⟨400, .error "Cannot block yourself"⟩

def alreadyBlocked : Response := ⟨409, .error "User already blocked"⟩

def blockNotFound : Response := ⟨404, .error "Block not found"⟩

/-- Identifiers of a block and of the blocked user, as they are answered. -/
def texts (b : Uuid × Uuid) : String × String := (b.1.toString, b.2.toString)

/-- How an answer comes from what the tables were asked. -/
def Told (authId : Uuid) (req : UsersReq) (h : Asked) (resp : Response) : Prop :=
  match req with
  | .getMyProfile => True
  | .getUserProfile userId => ⟨.isUserBlocked authId userId, .ok false⟩ ∈ h ∧
      ⟨.isUserBlocked userId authId, .ok false⟩ ∈ h
  | .searchUsers _ => ∀ results, resp.body = .results results → ∃ term limit rows,
      ⟨.searchUsers term limit authId, .ok rows⟩ ∈ h ∧ results = rows.map toResult
  | .blockUser userId => (resp = yourself ∧ userId = authId) ∨
      (resp = alreadyBlocked ∧ ⟨.isUserBlocked authId userId, .ok true⟩ ∈ h) ∨
      ∃ id now, resp = ⟨201, .block ⟨id.toString, userId.toString, now⟩⟩ ∧
        ⟨.blockUser authId userId, .ok id⟩ ∈ h
  | .unblockUser userId => ∃ deleted, ⟨.unblockUser authId userId, .ok deleted⟩ ∈ h ∧
      resp = if deleted then ⟨204, .empty⟩ else blockNotFound
  | .listBlocked => ∃ rows blocks, ⟨.listBlockedUsers authId, .ok rows⟩ ∈ h ∧
      resp = ⟨200, .blocks blocks⟩ ∧ blocks.map (fun b => (b.id, b.blockedId)) = rows.map texts

section Protocol

variable {lib : UsersLib} {authId userId : Uuid} {req : UsersReq} {h : Asked}

abbrev Ends (authId : Uuid) (req : UsersReq) (h : Asked) (r : Except ApiError Response) : Prop :=
  ∀ resp, r = .ok resp → Told authId req h resp

theorem ends_error {e : ApiError} : Ends authId req h (.error e) := nofun

theorem ends_ok {resp : Response} (hresp : Told authId req h resp) : Ends authId req h (.ok resp) :=
  fun _ heq => Except.ok.inj heq ▸ hresp

theorem getUserProfile_told : (getUserProfile lib authId userId).run.Follows (fun _ _ => True)
    (Ends authId (.getUserProfile userId)) [] := by
  rw [getUserProfile]
  refine follows_refuseBlocked trivial (fun _ _ => ends_error) ?_
  refine follows_refuseBlocked trivial (fun _ _ => ends_error) ?_
  refine Prog.follows_of_prefix (fun _ _ _ => trivial) (fun h' r hle resp _ => ?_) _
  exact ⟨hle.subset (by simp), hle.subset (by simp)⟩

theorem told_of_no_results {query : SearchQuery} {resp : Response}
    (hresp : ∀ results, resp.body ≠ .results results) : Told authId (.searchUsers query) h resp :=
  fun results hresults => absurd hresults (hresp results)

theorem searchUsers_told {query : SearchQuery} : (searchUsers lib authId query).run.Follows
    (fun _ _ => True) (Ends authId (.searchUsers query)) [] := by
  rw [searchUsers]
  split
  · exact ends_ok (told_of_no_results (by simp))
  · next searchTerm _ =>
    refine ⟨trivial, fun allowed => ?_⟩
    obtain e | _ | _ := allowed
    · exact ends_error
    · exact ends_ok (told_of_no_results (by simp))
    · refine ⟨trivial, fun found => ?_⟩
      cases found with
      | error e => exact ends_error
      | ok rows =>
        refine ends_ok fun results hresults =>
          ⟨searchTerm, min (query.limit.getD 20) 50, rows, ?_, (Body.results.inj hresults).symm⟩
        simp

theorem blockUser_told : (blockUser authId userId).run.Follows (fun _ _ => True)
    (Ends authId (.blockUser userId)) [] := by
  rw [blockUser]
  split
  · next hself => exact ends_ok (.inl ⟨rfl, hself⟩)
  · refine ⟨trivial, fun existing => ?_⟩
    obtain e | _ | _ := existing
    · exact ends_error
    · refine ⟨trivial, fun stored => ?_⟩
      cases stored with
      | error e => exact ends_error
      | ok id => exact ⟨trivial, fun now => ends_ok (.inr (.inr ⟨id, now, rfl, by simp⟩))⟩
    · exact ends_ok (.inr (.inl ⟨rfl, by simp⟩))

theorem stampBlocks_told {rows : List (Uuid × Uuid)} (done : List BlockResponse) {all : List (Uuid × Uuid)}
    (hmem : ⟨.listBlockedUsers authId, .ok all⟩ ∈ h)
    (hdone : done.map (fun b => (b.id, b.blockedId)) ++ rows.map texts = all.map texts) :
    (rows.mapM stampBlock >>= fun blocks => return ⟨200, .blocks (done ++ blocks)⟩ :
      UsersTask Response).run.Follows (fun _ _ => True) (Ends authId .listBlocked) h := by
  induction rows generalizing h done with
  | nil =>
    refine ends_ok ⟨all, done, hmem, by simp, ?_⟩
    simpa using hdone
  | cons b rows ih =>
    rw [List.mapM_cons, bind_assoc, stampBlock, bind_assoc, follows_ask]
    refine ⟨trivial, fun now => ?_⟩
    simp only [pure_bind, bind_assoc]
    have hnext := ih (h := h ++ [⟨.utcNow, now⟩]) (done ++ [⟨b.1.toString, b.2.toString, now⟩])
      (List.mem_append_left _ hmem) (by simpa [texts] using hdone)
    simpa only [List.append_assoc, List.singleton_append] using hnext

theorem handle_told (r : Uuid × UsersReq) : (handle lib r.1 r.2).run.Follows (fun _ _ => True)
    (Ends r.1 r.2) [] := by
  obtain ⟨authId, req⟩ := r
  cases req with
  | searchUsers query => exact searchUsers_told
  | getUserProfile userId => exact getUserProfile_told
  | getMyProfile => exact Prog.follows_of_prefix (fun _ _ _ => trivial) (fun _ _ _ _ _ => trivial) _
  | blockUser userId => exact blockUser_told
  | unblockUser userId =>
    refine ⟨trivial, fun deleted => ?_⟩
    obtain e | _ | _ := deleted
    · exact ends_error
    · exact ends_ok ⟨false, by simp, rfl⟩
    · exact ends_ok ⟨true, by simp, rfl⟩
  | listBlocked =>
    change (listBlocked authId).run.Follows _ _ _
    rw [listBlocked, follows_attempt]
    refine ⟨trivial, fun blocked => ?_⟩
    cases blocked with
    | error e => exact ends_error
    | ok rows => exact stampBlocks_told [] (by simp) rfl

end Protocol

/-- The tables were like this at some moment between the two states. -/
def Moment (lib : UsersLib) (f : CaseFold) (c d : UsersConfig) (P : UsersDb → Prop) : Prop :=
  ∃ e, Runs lib f c e ∧ Runs lib f e d ∧ P e.db

/-- Another user who is active, and not blocked either way. -/
def Listed (db : UsersDb) (authId : Uuid) (result : Search.UserSearchResult) : Prop :=
  ∃ id row, result.id = id.toString ∧ db.users.live id = some row ∧ row.isActive = true ∧
    id ≠ authId ∧ db.isBlocked authId id = false ∧ db.isBlocked id authId = false

/-- These are the blocks of the user, the newest first. -/
def Enumerates (db : UsersDb) (userId : Uuid) (blocks : List BlockResponse) : Prop :=
  ∃ rows : List BlockEntry, rows.Perm (db.blockedBy userId) ∧
    rows.Pairwise (fun e e' => e'.2.createdAt ≤ e.2.createdAt) ∧
    blocks.map (fun b => (b.id, b.blockedId)) = rows.map (fun e => texts (e.2.id, e.1.2))

/-- What an answer says of the blocks was so between the two states. -/
def Truthful (lib : UsersLib) (f : CaseFold) (c d : UsersConfig) (authId : Uuid) (resp : Response) :
    UsersReq → Prop
  | .getMyProfile => True
  | .getUserProfile userId => Moment lib f c d (fun db => db.isBlocked authId userId = false) ∧
      Moment lib f c d (fun db => db.isBlocked userId authId = false)
  | .searchUsers _ => ∀ results, resp.body = .results results →
      Moment lib f c d (fun db => ∀ result ∈ results, Listed db authId result)
  | .blockUser userId => (resp = yourself ∧ userId = authId) ∨
      (resp = alreadyBlocked ∨ resp.status = 201) ∧
        Moment lib f c d (fun db => db.isBlocked authId userId = true)
  | .unblockUser userId =>
      (resp = ⟨204, .empty⟩ ∧ ∃ e e', Runs lib f c e ∧ Runs lib f e e' ∧ Runs lib f e' d ∧
        e.db.isBlocked authId userId = true ∧ e'.db.isBlocked authId userId = false) ∨
      resp = blockNotFound ∧ Moment lib f c d (fun db => db.isBlocked authId userId = false)
  | .listBlocked => ∃ blocks, resp = ⟨200, .blocks blocks⟩ ∧
      Moment lib f c d (fun db => Enumerates db authId blocks)

section Moments

variable {lib : UsersLib} {f : CaseFold} {c d : UsersConfig} {i : Nat} {authId userId : Uuid}

theorem moment_isBlocked (hc : (usersServer lib f).Replays c) (hd : Runs lib f c d)
    (hi : c.tasks.length ≤ i) {blocked : Bool}
    (h : ⟨.isUserBlocked authId userId, .ok blocked⟩ ∈ d.history i) :
    Moment lib f c d (fun db => db.isBlocked authId userId = blocked) := by
  obtain ⟨e, e', ω, hce, hee, hed, hexec⟩ := executed_since hc hd hi h
  refine ⟨e, hce, hee.trans hed, ?_⟩
  have hans := (Prod.mk.inj (Option.some.inj hexec)).1
  split at hans
  · exact Except.ok.inj hans
  · cases hans

/-- After the INSERT the block is there, whoever has stored it. -/
theorem moment_blockUser (hc : (usersServer lib f).Replays c) (hd : Runs lib f c d)
    (hi : c.tasks.length ≤ i) {id : Uuid} (h : ⟨.blockUser authId userId, .ok id⟩ ∈ d.history i) :
    Moment lib f c d (fun db => db.isBlocked authId userId = true) := by
  obtain ⟨e, e', ω, hce, hee, hed, hexec⟩ := executed_since hc hd hi h
  refine ⟨e', hce.trans hee, hed, ?_⟩
  have hexecuted : UsersDb.exec f ω (.blockUser authId userId) e.db = some (_, e'.db) := hexec
  have hwritten := isBlocked_of_exec (i := i) hexecuted (authId, userId)
  simpa [blockWrite, latest_singleton] using hwritten

theorem unblockUser_moment (hc : (usersServer lib f).Replays c) (hd : Runs lib f c d)
    (hi : c.tasks.length ≤ i) {deleted : Bool}
    (h : ⟨.unblockUser authId userId, .ok deleted⟩ ∈ d.history i) :
    ∃ e e', Runs lib f c e ∧ Runs lib f e e' ∧ Runs lib f e' d ∧
      e.db.isBlocked authId userId = deleted ∧ e'.db.isBlocked authId userId = false := by
  obtain ⟨e, e', ω, hce, hee, hed, hexec⟩ := executed_since hc hd hi h
  have hexecuted : UsersDb.exec f ω (.unblockUser authId userId) e.db = some (_, e'.db) := hexec
  have hwritten := isBlocked_of_exec (i := i) hexecuted (authId, userId)
  refine ⟨e, e', hce, hee, hed, ?_, by simpa [blockWrite, latest_singleton] using hwritten⟩
  exact Except.ok.inj (Prod.mk.inj (Option.some.inj hexec)).1

theorem moment_listBlocked (hc : (usersServer lib f).Replays c) (hd : Runs lib f c d)
    (hi : c.tasks.length ≤ i) {rows : List (Uuid × Uuid)} {blocks : List BlockResponse}
    (h : ⟨.listBlockedUsers authId, .ok rows⟩ ∈ d.history i)
    (hblocks : blocks.map (fun b => (b.id, b.blockedId)) = rows.map texts) :
    Moment lib f c d (fun db => Enumerates db authId blocks) := by
  obtain ⟨e, e', ω, hce, hee, hed, hexec⟩ := executed_since hc hd hi h
  refine ⟨e, hce, hee.trans hed, ?_⟩
  obtain rfl := Except.ok.inj (Prod.mk.inj (Option.some.inj hexec)).1
  refine ⟨_, ?_, ?_, hblocks.trans (List.map_map ..)⟩
  · refine (List.mergeSort_perm _ _).trans ?_
    split_ifs with hperm
    · exact hperm
    · exact List.Perm.refl _
  · refine (List.pairwise_mergeSort (fun x y z hxy hyz => ?_) (fun x y => ?_) _).imp
      fun h => of_decide_eq_true h
    · rw [decide_eq_true_eq] at *
      exact hyz.trans hxy
    · rw [Bool.or_eq_true, decide_eq_true_eq, decide_eq_true_eq]
      exact le_total _ _

theorem listed_of_visibleTo {db : UsersDb} {e : Search.UserEntry}
    (hrow : db.users.rows.lookup e.1 = some e.2) (h : db.toSearchDb.visibleTo authId e = true)
    {result : Search.UserSearchResult} (hid : result.id = e.1.toString) : Listed db authId result := by
  simp only [Search.SearchDb.visibleTo, Bool.and_eq_true, Option.isNone_iff_eq_none,
    decide_eq_true_eq] at h
  obtain ⟨⟨⟨⟨hdeleted, hactive⟩, hother⟩, hhim⟩, hme⟩ := h
  have hme' : (authId, e.1) ∉ db.blocks.rows := fun hmem => hme (AList.mem_keys.mpr hmem)
  have hhim' : (e.1, authId) ∉ db.blocks.rows := fun hmem => hhim (AList.mem_keys.mpr hmem)
  refine ⟨e.1, e.2, hid, ?_, hactive, hother, decide_eq_false hme', decide_eq_false hhim'⟩
  exact Option.filter_eq_some_iff.mpr ⟨hrow, by simp [hdeleted]⟩

theorem moment_searchUsers (hc : (usersServer lib f).Replays c) (hd : Runs lib f c d)
    (hi : c.tasks.length ≤ i) {term : String} {limit : Int}
    {rows : List (Uuid × Option String × String × Option String)}
    (h : ⟨.searchUsers term limit authId, .ok rows⟩ ∈ d.history i) :
    Moment lib f c d (fun db => ∀ result ∈ rows.map toResult, Listed db authId result) := by
  obtain ⟨e, e', ω, hce, hee, hed, hexec⟩ := executed_since hc hd hi h
  refine ⟨e, hce, hee.trans hed, fun result hresult => ?_⟩
  have hans := (Prod.mk.inj (Option.some.inj hexec)).1
  obtain ⟨row, hrow, rfl⟩ := List.mem_map.mp hresult
  rw [Search.SearchDb.searchUsers] at hans
  split at hans
  · cases hans
  · obtain rfl := Except.ok.inj hans
    obtain ⟨entry, hentry, rfl⟩ := List.mem_map.mp hrow
    have hfound := List.mem_of_mem_take hentry
    have hlisted : entry ∈ e.db.toSearchDb.users.rows.entries.filter (fun e' =>
        e.db.toSearchDb.visibleTo authId e' &&
          e.db.toSearchDb.found f (Search.searchPattern term) e') := by
      split_ifs at hfound with hperm
      · exact hperm.mem_iff.mp hfound
      · exact hfound
    obtain ⟨hmem, hvisible⟩ := List.mem_filter.mp hlisted
    exact listed_of_visibleTo (AList.mem_lookup_iff.mpr hmem) (Bool.and_eq_true_iff.mp hvisible).1 rfl

end Moments

/-- Whatever requests run side by side, an answer says of the blocks what was so at some moment
after its request arrived. -/
def AnswersTrue (lib : UsersLib) (f : CaseFold) (c d : UsersConfig) : Prop :=
  ∀ i authId req resp, c.tasks.length ≤ i → d.request i = some (authId, req) →
    answerOf d i = some (.ok resp) → Truthful lib f c d authId resp req

end Mesty.Users.Blocks
