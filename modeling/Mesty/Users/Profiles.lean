import Mesty.Concurrency.Visits
import Mesty.Users.Handlers

namespace Mesty.Users.Profiles

open Mesty.Base.Ids Mesty.Base.Error Mesty.Concurrency.Program Mesty.Concurrency.Pool
open Mesty.Concurrency.Visits Mesty.Redis.Server Mesty.Refinement.Like
open Mesty.Auth.Otp (checkRateLimit_lookup)
open Mesty.Auth.RateLimit (checkRateLimit_now)
open Mesty.Auth.UserRecords (UserRecord UserTable)
open Mesty.Users.Repository Mesty.Users.Handlers
open Mesty.Users.Search (asciiFold)

abbrev UsersConfig :=
  Config UsersCmd UsersCmd.Ans UsersDb (Uuid × UsersReq) (Except ApiError Response)

abbrev UsersAct := Act (Uuid × UsersReq) UsersChoice

abbrev Asked := List ((c : UsersCmd) × c.Ans)

/-- Whose profile a request is for. -/
def target (authId : Uuid) : UsersReq → Option Uuid
  | .getUserProfile userId => some userId
  | .getMyProfile => some authId
  | _ => none

variable (lib : UsersLib)

/-- What is cached has been read from the tables by the same request. -/
def CachesRead (h : Asked) : UsersCmd → Prop
  | .cacheSetEx key value seconds => ∃ userId profile,
      ⟨.findProfileById userId, .ok (some profile)⟩ ∈ h ∧ lib.toJson profile = .ok value ∧
        key = profileKey profile.id ∧ seconds = profileTtlSeconds
  | .checkRateLimit rateKey _ _ => ∃ rest, rateKey = "search:" ++ rest
  | _ => True

/-- A profile that is answered was found in the cache or in the tables. -/
def ShowsFound (authId : Uuid) (req : UsersReq) (h : Asked) (r : Except ApiError Response) : Prop :=
  ∀ p, r = .ok ⟨200, .profile p⟩ → ∃ userId profile, target authId req = some userId ∧
    p = toResponse profile ∧ ((∃ json, ⟨.cacheGet (profileKey userId), .ok (some json)⟩ ∈ h ∧
      lib.fromJson json = some profile) ∨ ⟨.findProfileById userId, .ok (some profile)⟩ ∈ h)

section Protocol

variable {lib} {authId userId : Uuid} {req : UsersReq} {h : Asked}

theorem showsFound_error {e : ApiError} : ShowsFound lib authId req h (.error e) := nofun

theorem showsFound_profile {profile : CachedProfile} (htarget : target authId req = some userId)
    (hfound : (∃ json, ⟨.cacheGet (profileKey userId), .ok (some json)⟩ ∈ h ∧
      lib.fromJson json = some profile) ∨ ⟨.findProfileById userId, .ok (some profile)⟩ ∈ h) :
    ShowsFound lib authId req h (.ok ⟨200, .profile (toResponse profile)⟩) := by
  intro p hp
  have hbody := (Response.mk.inj (Except.ok.inj hp)).2
  exact ⟨userId, profile, htarget, (Body.profile.inj hbody).symm, hfound⟩

theorem cacheProfile_follows (userId : Uuid) {profile : CachedProfile} {f : Unit → UsersTask Response}
    (hread : ⟨.findProfileById userId, .ok (some profile)⟩ ∈ h)
    (hf : ∀ h', h <+: h' → (f ()).run.Follows (CachesRead lib) (ShowsFound lib authId req) h') :
    (cacheProfile lib profile >>= f).run.Follows (CachesRead lib) (ShowsFound lib authId req) h := by
  rw [cacheProfile]
  cases hjson : lib.toJson profile with
  | error e => exact hf h (List.prefix_refl h)
  | ok json =>
    simp only [bind_assoc, pure_bind]
    exact ⟨⟨userId, profile, hread, hjson, rfl, rfl⟩, fun _ => hf _ (List.prefix_append _ _)⟩

theorem loadProfile_follows (htarget : target authId req = some userId) :
    (loadProfile lib userId).run.Follows (CachesRead lib) (ShowsFound lib authId req) h := by
  rw [loadProfile, follows_attempt]
  refine ⟨trivial, fun found => ?_⟩
  obtain e | _ | profile := found
  · exact showsFound_error
  · exact showsFound_error
  · refine cacheProfile_follows userId (by simp) fun h' hle => ?_
    exact showsFound_profile htarget (.inr (hle.subset (by simp)))

theorem showProfile_follows (htarget : target authId req = some userId) :
    (showProfile lib userId).run.Follows (CachesRead lib) (ShowsFound lib authId req) h := by
  rw [showProfile, cachedProfile, bind_assoc, follows_ask]
  refine ⟨trivial, fun cached => ?_⟩
  obtain e | _ | json := cached
  · exact loadProfile_follows htarget
  · exact loadProfile_follows htarget
  · simp only [pure_bind]
    cases hprofile : lib.fromJson json with
    | none => exact loadProfile_follows htarget
    | some profile =>
      exact showsFound_profile htarget (.inl ⟨json, by simp, hprofile⟩)

theorem getUserProfile_follows :
    (getUserProfile lib authId userId).run.Follows (CachesRead lib)
      (ShowsFound lib authId (.getUserProfile userId)) h := by
  rw [getUserProfile]
  refine follows_refuseBlocked trivial (fun _ _ => showsFound_error) ?_
  exact follows_refuseBlocked trivial (fun _ _ => showsFound_error) (showProfile_follows rfl)

/-- Answers of other requests have no profile. -/
theorem showsFound_other {resp : Response} (hbody : ∀ p, resp.body ≠ .profile p) :
    ShowsFound lib authId req h (.ok resp) := by
  intro p hp
  exact absurd (congrArg Response.body (Except.ok.inj hp)) (hbody p)

theorem stampBlocks_follows {blocked : List (Uuid × Uuid)} {f : List BlockResponse → UsersTask Response}
    (hf : ∀ blocks h', (f blocks).run.Follows (CachesRead lib) (ShowsFound lib authId req) h') :
    (blocked.mapM stampBlock >>= f).run.Follows (CachesRead lib) (ShowsFound lib authId req) h := by
  induction blocked generalizing h f with
  | nil => exact hf [] h
  | cons b blocked ih =>
    rw [List.mapM_cons, bind_assoc, stampBlock, bind_assoc, follows_ask]
    refine ⟨trivial, fun now => ?_⟩
    simp only [pure_bind, bind_assoc]
    exact ih fun blocks h' => hf _ h'

theorem searchUsers_follows {query : Search.SearchQuery} :
    (searchUsers lib authId query).run.Follows (CachesRead lib)
      (ShowsFound lib authId (.searchUsers query)) h := by
  rw [searchUsers]
  split
  · exact showsFound_other nofun
  · refine ⟨⟨_, rfl⟩, fun allowed => ?_⟩
    obtain e | _ | _ := allowed
    · exact showsFound_error
    · exact showsFound_other nofun
    · refine ⟨trivial, fun results => ?_⟩
      cases results with
      | error e => exact showsFound_error
      | ok results => exact showsFound_other nofun

theorem blockUser_follows :
    (blockUser authId userId).run.Follows (CachesRead lib) (ShowsFound lib authId (.blockUser userId)) h := by
  rw [blockUser]
  split
  · exact showsFound_other nofun
  · refine ⟨trivial, fun existing => ?_⟩
    obtain e | _ | _ := existing
    · exact showsFound_error
    · refine ⟨trivial, fun blockId => ?_⟩
      cases blockId with
      | error e => exact showsFound_error
      | ok blockId => exact ⟨trivial, fun now => showsFound_other nofun⟩
    · exact showsFound_other nofun

theorem handle_follows (r : Uuid × UsersReq) :
    (handle lib r.1 r.2).run.Follows (CachesRead lib) (ShowsFound lib r.1 r.2) [] := by
  obtain ⟨authId, req⟩ := r
  cases req with
  | searchUsers query => exact searchUsers_follows
  | getUserProfile userId => exact getUserProfile_follows
  | getMyProfile => exact showProfile_follows rfl
  | blockUser userId => exact blockUser_follows
  | unblockUser userId =>
    refine ⟨trivial, fun deleted => ?_⟩
    obtain e | _ | _ := deleted
    · exact showsFound_error
    · exact showsFound_other nofun
    · exact showsFound_other nofun
  | listBlocked =>
    change (listBlocked authId).run.Follows _ _ _
    rw [listBlocked, follows_attempt]
    refine ⟨trivial, fun blocked => ?_⟩
    cases blocked with
    | error e => exact showsFound_error
    | ok blocked => exact stampBlocks_follows fun blocks h' => showsFound_other nofun

end Protocol

section Statements

variable {lib} {f : CaseFold} {ω : UsersChoice} {cmd : UsersCmd} {ans : cmd.Ans} {db db' : UsersDb}
  {userId : Uuid} {h : Asked} {entry : Entry}

theorem profileKey_injective : Function.Injective profileKey := fun _ _ h =>
  Uuid.toString_injective (String.append_right_inj "profile:" |>.mp h)

theorem profileKey_ne_rate (userId : Uuid) (rest : String) :
    profileKey userId ≠ "rate:" ++ ("search:" ++ rest) := by
  intro heq
  have hhead := congrArg (fun s : String => s.toList.head?) heq
  simp [profileKey] at hhead

theorem lookup_of_setEx {s : Store} {key key' value : String} {seconds : Nat}
    (h : (Store.exec (.setEx key value seconds) s).2.lookup key' = some entry) :
    s.lookup key' = some entry ∨ key' = key ∧ entry = ⟨value, some (s.now + seconds * 1000)⟩ := by
  obtain rfl | hne := eq_or_ne key' key
  · rw [Store.exec] at h
    split_ifs at h
    · exact .inl h
    · rw [Store.lookup_put_self, Option.filter_eq_some_iff] at h
      exact .inr ⟨rfl, (Option.some.inj h.1).symm⟩
  · exact .inl (Store.exec_lookup (c := .setEx key value seconds)
      (fun hkey => hne (Option.some.inj hkey).symm) s ▸ h)

theorem id_of_findProfileById {profile : CachedProfile}
    (hfound : db.findProfileById userId = some profile) : profile.id = userId := by
  obtain ⟨row, -, rfl⟩ := Option.map_eq_some_iff.mp hfound
  rfl

/-- Only a SETEX of its key brings in a cached profile, and no command takes time. -/
theorem exec_redis (he : UsersDb.exec f ω cmd db = some (ans, db')) (hN : CachesRead lib h cmd) :
    db'.redis.now = db.redis.now ∧ ∀ userId entry,
      db'.redis.lookup (profileKey userId) = some entry →
        db.redis.lookup (profileKey userId) = some entry ∨
        ∃ text, cmd = .cacheSetEx (profileKey userId) text profileTtlSeconds ∧
          entry = ⟨text, some (db.redis.now + profileTtlSeconds * 1000)⟩ := by
  cases cmd with
  | checkRateLimit rateKey limit window =>
    obtain ⟨rest, rfl⟩ := hN
    obtain ⟨-, rfl⟩ := Prod.mk.inj (Option.some.inj he)
    refine ⟨checkRateLimit_now _ limit window _, fun userId entry hentry => .inl ?_⟩
    rwa [checkRateLimit_lookup (profileKey_ne_rate userId rest)] at hentry
  | cacheSetEx key value seconds =>
    obtain ⟨_, profile, -, -, rfl, rfl⟩ := hN
    have hstored : ∀ userId entry,
        (Store.exec (.setEx (profileKey profile.id) value profileTtlSeconds) db.redis).2.lookup
          (profileKey userId) = some entry → db.redis.lookup (profileKey userId) = some entry ∨
        ∃ text, (UsersCmd.cacheSetEx (profileKey profile.id) value profileTtlSeconds) =
          .cacheSetEx (profileKey userId) text profileTtlSeconds ∧
            entry = ⟨text, some (db.redis.now + profileTtlSeconds * 1000)⟩ := by
      intro userId entry hentry
      obtain hold | ⟨hkey, rfl⟩ := lookup_of_setEx hentry
      · exact .inl hold
      · exact .inr ⟨value, by rw [hkey], rfl⟩
    simp only [UsersDb.exec] at he
    split at he
    · obtain ⟨-, rfl⟩ := Prod.mk.inj (Option.some.inj he)
      exact ⟨Store.exec_now _ _, hstored⟩
    · obtain ⟨-, rfl⟩ := Prod.mk.inj (Option.some.inj he)
      exact ⟨Store.exec_now _ _, hstored⟩
    · obtain ⟨-, rfl⟩ := Prod.mk.inj (Option.some.inj he)
      exact ⟨rfl, fun _ _ => .inl⟩
  | blockUser blockerId blockedId =>
    simp only [UsersDb.exec, UsersDb.blockUser] at he
    split_ifs at he <;> obtain ⟨-, rfl⟩ := Prod.mk.inj (Option.some.inj he) <;>
      exact ⟨rfl, fun _ _ => .inl⟩
  | _ =>
    obtain ⟨-, rfl⟩ := Prod.mk.inj (Option.some.inj he)
    exact ⟨rfl, fun _ _ => .inl⟩

end Statements

/-- A run of the server from one state to another. -/
abbrev Runs (f : CaseFold) : UsersConfig → UsersConfig → Prop :=
  (usersServer lib f).Reach (fun _ _ => True)

/-- At some moment between the two states the tables held this profile of the user. -/
def HeldSince (f : CaseFold) (c d : UsersConfig) (userId : Uuid) (profile : CachedProfile) : Prop :=
  ∃ e, Runs lib f c e ∧ Runs lib f e d ∧ e.db.findProfileById userId = some profile

/-- Each cached profile was held since `c`, or it vanishes by the deadline. -/
def Aged (f : CaseFold) (c : UsersConfig) (deadline : Nat) (d : UsersConfig) : Prop :=
  ∀ userId entry, d.db.redis.lookup (profileKey userId) = some entry →
    (∃ profile, HeldSince lib f c d userId profile ∧ lib.toJson profile = .ok entry.value) ∨
      ∃ t, entry.expiry = some t ∧ t ≤ deadline

section Freshness

variable {lib} {f : CaseFold} {c c₁ c₂ d e : UsersConfig} {userId : Uuid} {profile : CachedProfile}

theorem HeldSince.trans (h : HeldSince lib f c d userId profile) (hde : Runs lib f d e) :
    HeldSince lib f c e userId profile := by
  obtain ⟨m, hcm, hmd, hheld⟩ := h
  exact ⟨m, hcm, hmd.trans hde, hheld⟩

/-- A move lets no time run backwards, and an unfinished task caches only what it has read. -/
theorem apply_redis {a : UsersAct} (hreplays : (usersServer lib f).Replays d)
    (ha : (usersServer lib f).apply a d = some e) :
    d.db.redis.now ≤ e.db.redis.now ∧ ∀ userId entry,
      e.db.redis.lookup (profileKey userId) = some entry →
        d.db.redis.lookup (profileKey userId) = some entry ∨
        ∃ i r p readId profile, d.tasks[i]? = some (r, p) ∧ p.finished = false ∧
          ⟨.findProfileById readId, .ok (some profile)⟩ ∈ d.history i ∧ profile.id = userId ∧
          lib.toJson profile = .ok entry.value ∧
          entry.expiry = some (d.db.redis.now + profileTtlSeconds * 1000) := by
  obtain ⟨r, rfl, rfl⟩ | ⟨i, ω, r, cmd, k, ans, s, rfl, ht, he, rfl⟩ | ⟨ω, s, rfl, hs, rfl⟩ :=
    System.apply_cases ha
  · exact ⟨Nat.le_refl _, fun _ _ => .inl⟩
  · obtain ⟨hN, -⟩ := hreplays.follows handle_follows ht
    obtain ⟨hnow, hcached⟩ := exec_redis he hN
    refine ⟨Nat.le_of_eq hnow.symm, fun userId entry hentry => ?_⟩
    obtain hold | ⟨text, rfl, rfl⟩ := hcached userId entry hentry
    · exact .inl hold
    · obtain ⟨readId, profile, hread, hjson, hkey, -⟩ := hN
      exact .inr ⟨i, r, _, readId, profile, ht, rfl, hread, (profileKey_injective hkey).symm, hjson, rfl⟩
  · obtain rfl := Option.some.inj hs
    exact ⟨Nat.le_add_right _ _, fun userId entry hentry => .inl (Store.lookup_of_wait hentry)⟩

theorem now_le (hd : (usersServer lib f).Replays c) (h : Runs lib f c d) :
    (usersServer lib f).Replays d ∧ c.db.redis.now ≤ d.db.redis.now := by
  refine h.invariant (J := fun d => (usersServer lib f).Replays d ∧ c.db.redis.now ≤ d.db.redis.now)
    (fun hJ _ ha => ?_) ⟨hd, Nat.le_refl _⟩
  exact ⟨System.replays_apply hJ.1 ha, hJ.2.trans (apply_redis hJ.1 ha).1⟩

/-- A task that arrived after `c` has read what the tables held since then. -/
theorem heldSince_of_read (hc : (usersServer lib f).Replays c) (h : Runs lib f c d) {i : Nat}
    (hi : c.tasks.length ≤ i)
    (hread : ⟨.findProfileById userId, .ok (some profile)⟩ ∈ d.history i) :
    HeldSince lib f c d userId profile := by
  obtain ⟨e, e', ω, hce, hee, hed, hexec⟩ := executed_since hc h hi hread
  refine ⟨e, hce, hee.trans hed, ?_⟩
  have hans := (Prod.mk.inj (Option.some.inj hexec)).1
  split at hans
  · exact Except.ok.inj hans
  · cases hans

/-- Every cached profile vanishes within its time. -/
theorem aged_of_start {db : UsersDb} (hempty : ∀ userId, db.redis.lookup (profileKey userId) = none)
    (h : Runs lib f (System.start db) c) (e : UsersConfig) :
    Aged lib f e (c.db.redis.now + profileTtlSeconds * 1000) c := by
  suffices hall : (usersServer lib f).Replays c ∧ ∀ userId entry,
      c.db.redis.lookup (profileKey userId) = some entry →
        ∃ t, entry.expiry = some t ∧ t ≤ c.db.redis.now + profileTtlSeconds * 1000 from
    fun userId entry hentry => .inr (hall.2 userId entry hentry)
  refine h.invariant (J := fun c => (usersServer lib f).Replays c ∧ ∀ userId entry,
    c.db.redis.lookup (profileKey userId) = some entry →
      ∃ t, entry.expiry = some t ∧ t ≤ c.db.redis.now + profileTtlSeconds * 1000)
    (fun {c a d} hJ _ ha => ?_) ⟨System.replays_start db, fun userId entry hentry => ?_⟩
  · refine ⟨System.replays_apply hJ.1 ha, fun userId entry hentry => ?_⟩
    obtain ⟨hnow, hcached⟩ := apply_redis hJ.1 ha
    obtain hold | ⟨_, _, _, _, _, -, -, -, -, -, hexpiry⟩ := hcached userId entry hentry
    · obtain ⟨t, ht, hle⟩ := hJ.2 userId entry hold
      exact ⟨t, ht, hle.trans (Nat.add_le_add_right hnow _)⟩
    · exact ⟨_, hexpiry, Nat.add_le_add_right hnow _⟩
  · exact absurd (hempty userId) (by simp_all [System.start])

/-- Once the tasks of `c` have finished, nothing older than `c` is cached any more. -/
theorem aged_kept {deadline : Nat} (hc : (usersServer lib f).Replays c) (h₁ : Runs lib f c c₁)
    (hdone : ∀ i r p, c₁.tasks[i]? = some (r, p) → p.finished = false → c.tasks.length ≤ i)
    (haged : Aged lib f c deadline c₁) (h : Runs lib f c₁ d) : Aged lib f c deadline d := by
  induction h with
  | refl => exact haged
  | @tail d e a hd hp ha ih =>
    have hcd := h₁.trans hd
    have hreplays := (now_le hc hcd).1
    intro userId entry hentry
    obtain ⟨-, hcached⟩ := apply_redis hreplays ha
    obtain hold | ⟨i, r, p, readId, profile, ht, hp', hread, rfl, hjson, -⟩ :=
      hcached userId entry hentry
    · obtain ⟨profile, hheld, hjson⟩ | hexpires := ih userId entry hold
      · exact .inl ⟨profile, hheld.trans (.tail .refl hp ha), hjson⟩
      · exact .inr hexpires
    · have hi : c.tasks.length ≤ i := by
        by_contra hlt
        -- a task of `c` has finished by then, and stays so
        obtain ⟨⟨r', p'⟩, ht'⟩ : ∃ t, c₁.tasks[i]? = some t :=
          ⟨_, List.getElem?_eq_getElem (Nat.lt_of_lt_of_le (not_le.mp hlt) (length_le h₁))⟩
        cases hfin : p'.finished with
        | false => exact hlt (hdone i r' p' ht' hfin)
        | true =>
          obtain ⟨-, rfl⟩ := Prod.mk.inj (Option.some.inj (ht.symm.trans (finished_kept hd ht' hfin)))
          simp [hfin] at hp'
      have hheld := heldSince_of_read hc hcd hi hread
      obtain ⟨m, -, -, hm⟩ := hheld
      obtain rfl := id_of_findProfileById hm
      exact .inl ⟨profile, (heldSince_of_read hc hcd hi hread).trans (.tail .refl hp ha), hjson⟩

end Freshness

def alice : Uuid := .ofNat 1

def aliceRow : UserRecord where
  username := some "alice"
  phone := "+34600000001"
  phoneHash := some "hash"
  email := none
  avatarUrl := none
  statusText := some "hey"
  twoFaEnabled := false
  twoFaSecret := none
  isActive := true
  lastSeenAt := none
  createdAt := 1
  updatedAt := 1
  deletedAt := none

def onlyAlice : UserTable := UserTable.empty.put alice aliceRow (by rintro _ _ _ ⟨⟩)

def aliceProfile : CachedProfile := ⟨alice, some "alice", "", none, none, some "hey"⟩

def aliceJson : String :=
  "\x7b\"id\":\"00000000-0000-0000-0000-000000000001\",\"username\":\"alice\",\"display_name\":\"\"," ++
  "\"bio\":null,\"avatar_url\":null,\"status_text\":\"hey\"\x7d"

def aliceLib : UsersLib where
  toJson profile := if profile = aliceProfile then .ok aliceJson else .error ()
  fromJson json := if json = aliceJson then some aliceProfile else none
  redisErrorText _ := ""

theorem aliceLib_roundTrip : aliceLib.JsonRoundTrip := by
  intro profile json hjson
  simp only [aliceLib] at hjson ⊢
  split at hjson
  · next hprofile =>
    rw [hprofile, if_pos (Except.ok.inj hjson).symm]
  · cases hjson

def choose (ms : Nat) : UsersChoice :=
  ⟨.nil, 0, [], ⟨[], false⟩, none, none, ms, onlyAlice, ∅⟩

/-- Five minutes pass, and Alice asks for her profile twice. -/
def asksTwice : List UsersAct :=
  [.spawn (alice, .getMyProfile), .step 0 (choose 0), .step 0 (choose 0), .step 0 (choose 0),
    .spawn (alice, .getMyProfile), .step 1 (choose 0)]

def aliceStart : UsersConfig := System.start ⟨onlyAlice, ∅, .empty, .empty 0⟩

def aliceLater : UsersConfig := (usersServer aliceLib asciiFold).run [.tick (choose 300000)] aliceStart

def aliceShown : UsersConfig := (usersServer aliceLib asciiFold).run asksTwice aliceLater

end Mesty.Users.Profiles
