import Mathlib.Data.List.TakeWhile
import Mesty.Auth.RateLimit
import Mesty.Base.Text
import Mesty.Contacts.PhoneNumbers
import Mesty.Refinement.Like

namespace Mesty.Users.Search

open Mesty.Base.Ids Mesty.Base.Error Mesty.Base.Text Mesty.Redis.Server
open Mesty.Auth.Otp (checkRateLimit)
open Mesty.Auth.UserRecords Mesty.Contacts.Repository Mesty.Contacts.PhoneNumbers
open Mesty.Refinement.Like

abbrev UserEntry := Sigma (fun _ : Uuid => UserRecord)

/-- The users, the names in `user_profiles`, and the pairs of `user_blocks`. -/
structure SearchDb where
  users : UserTable
  displayNames : AList (fun _ : Uuid => String)
  blocks : List (Uuid × Uuid)

/-- The order of names depends on the collation of the database, and on the texts whether the end
of an unfinished pattern is reached. -/
structure SearchChoice where
  rows : List UserEntry
  reached : Bool

def searchPattern (query : String) : String :=
  match query.toList with
  | '@' :: _ => String.ofList (query.toList.dropWhile (· = '@') ++ ['%'])
  | '+' :: _ => query
  | text => String.ofList ('%' :: (text ++ ['%']))

namespace SearchDb

variable (db : SearchDb)

/-- What the pattern is compared with: no name is NULL. -/
def texts (id : Uuid) (row : UserRecord) : List String :=
  row.username.toList ++ (db.displayNames.lookup id).toList ++ [row.phone]

def visibleTo (userId : Uuid) (e : UserEntry) : Bool :=
  e.2.deletedAt.isNone && e.2.isActive && e.1 ≠ userId && (e.1, userId) ∉ db.blocks &&
    (userId, e.1) ∉ db.blocks

def found (f : CaseFold) (pattern : String) (e : UserEntry) : Bool :=
  (db.texts e.1 e.2).any (fun text => ilike f pattern.toList text.toList)

/-- No text of the database has a zero byte, and no pattern may have one. -/
def searchUsers (f : CaseFold) (ω : SearchChoice) (query : String) (limit : Int)
    (excludeUserId : Uuid) :
    Except DomainError (List (Uuid × Option String × String × Option String)) :=
  let pattern := searchPattern query
  if limit < 0 ∨ '\x00' ∈ pattern.toList ∨ parse pattern.toList = none ∧ ω.reached = true then
    .error (.fromSqlx .other)
  else
    let rows := db.users.rows.entries.filter (fun e =>
      db.visibleTo excludeUserId e && db.found f pattern e)
    let ordered := if ω.rows.Perm rows then ω.rows else rows
    .ok ((ordered.take limit.toNat).map (fun e =>
      (e.1, e.2.username, (db.displayNames.lookup e.1).getD "", e.2.avatarUrl)))

end SearchDb

structure SearchQuery where
  q : Option String
  limit : Option Int

structure UserSearchResult where
  id : String
  username : Option String
  displayName : String
  avatarUrl : Option String
  deriving DecidableEq

inductive Body where
  | error (text : String)
  | results (results : List UserSearchResult)
  deriving DecidableEq

structure Response where
  status : Nat
  body : Body
  deriving DecidableEq

def toResult : Uuid × Option String × String × Option String → UserSearchResult
  | (id, username, displayName, avatarUrl) => ⟨id.toString, username, displayName, avatarUrl⟩

/-- The database is as the one statement finds it. -/
def searchUsers (f : CaseFold) (ω : SearchChoice) (errorText : RedisError → String) (userId : Uuid)
    (query : SearchQuery) (redis : Store) (db : SearchDb) : Except ApiError Response × Store :=
  let limit := min (query.limit.getD 20) 50
  match query.q.filter (fun q => trim q ≠ "") with
  | none => (.ok ⟨400, .error "Query parameter 'q' is required"⟩, redis)
  | some searchTerm =>
    match checkRateLimit ("search:" ++ userId.toString) 30 60 redis with
    | (.error e, redis) => (.error (.internal (errorText e)), redis)
    | (.ok false, redis) => (.ok ⟨429, .error "Too many search requests"⟩, redis)
    | (.ok true, redis) => ((db.searchUsers f ω searchTerm limit userId).map
        (fun rows => ⟨200, .results (rows.map toResult)⟩), redis)

/-- The text is, but for case, what the query asks for, each character standing for itself. -/
def Meant (f : CaseFold) (query text : String) : Prop :=
  match query.toList with
  | '@' :: _ => (query.toList.dropWhile (· = '@')).map f.fold <+: text.toList.map f.fold
  | '+' :: _ => query.toList.map f.fold = text.toList.map f.fold
  | _ => query.toList.map f.fold <:+: text.toList.map f.fold

/-- Whatever is found for the query is meant by it, and a query with a plus sign finds the phone
it is. -/
def TakenLiterally (f : CaseFold) (errorText : RedisError → String) (query : String) : Prop :=
  ∀ ω userId limit redis db results,
    (searchUsers f ω errorText userId ⟨some query, limit⟩ redis db).1 = .ok ⟨200, .results results⟩ →
      ∀ r ∈ results, ∃ id row, r.id = id.toString ∧ db.users.rows.lookup id = some row ∧
        (∃ text ∈ db.texts id row, Meant f query text) ∧
        (query.toList.head? = some '+' → Accepted row →
          ilike f (searchPattern query).toList row.phone.toList = true → row.phone = query)

/-- There is no wildcard in the query, or else it is one that finds nobody. -/
def Harmless (query : String) : Prop :=
  (∀ c ∈ query.toList, c ∉ wildcards) ∨ '\x00' ∈ query.toList ∨
    query.toList.head? = some '+' ∧ parse query.toList = none

section Patterns

variable {f : CaseFold} {query text : String} {c : Char}

theorem mem_dropWhile {α : Type} {p : α → Bool} {l : List α} {a : α} (h : a ∈ l) (ha : p a = false) :
    a ∈ l.dropWhile p := by
  rw [← List.takeWhile_append_dropWhile (p := p) (l := l)] at h
  obtain h | h := List.mem_append.mp h
  · exact absurd (List.mem_takeWhile_imp h) (by simp [ha])
  · exact h

/-- What is compared of the query. -/
def body (query : String) : List Char := query.toList.dropWhile (· = '@')

theorem body_eq (h : query.toList.head? ≠ some '@') : body query = query.toList := by
  rw [body]
  cases hq : query.toList with
  | nil => rfl
  | cons d rest =>
    rw [hq, List.head?_cons] at h
    exact List.dropWhile_cons_of_neg (by simpa using h)

theorem mem_body (h : c ∈ query.toList) (hwild : c ∈ wildcards) : c ∈ body query := by
  refine mem_dropWhile h (decide_eq_false ?_)
  rintro rfl
  exact absurd hwild (by decide)

/-- The three ways of making a pattern, and what each is for. -/
theorem pattern_cases (f : CaseFold) (query : String) :
    ((searchPattern query).toList = body query ++ ['%'] ∧
      ∀ text, Meant f query text ↔ (body query).map f.fold <+: text.toList.map f.fold) ∨
    (query.toList.head? = some '+' ∧ (searchPattern query).toList = body query ∧
      body query = query.toList ∧
      ∀ text, Meant f query text ↔ (body query).map f.fold = text.toList.map f.fold) ∨
    ((searchPattern query).toList = '%' :: (body query ++ ['%']) ∧
      ∀ text, Meant f query text ↔ (body query).map f.fold <:+: text.toList.map f.fold) := by
  unfold searchPattern Meant
  split
  · exact .inl ⟨String.toList_ofList, fun _ => Iff.rfl⟩
  · next rest hplus =>
    have hself : body query = query.toList := body_eq (by simp [hplus])
    exact .inr (.inl ⟨by rw [hplus]; rfl, hself.symm, hself, fun _ => by rw [hself]⟩)
  · next hat hplus =>
    have hself : body query = query.toList := body_eq fun hhead =>
      hat _ (List.head?_eq_some_iff.mp hhead).choose_spec
    refine .inr (.inr ⟨String.toList_ofList.trans ?_, fun _ => ?_⟩) <;> rw [hself]

theorem meant_of_ilike (hplain : ∀ c ∈ query.toList, c ∉ wildcards)
    (h : ilike f (searchPattern query).toList text.toList = true) : Meant f query text := by
  have hbody : ∀ c ∈ body query, c ∉ wildcards := fun c hc =>
    hplain c (List.dropWhile_subset _ hc)
  obtain ⟨hpattern, hmeant⟩ | ⟨-, hpattern, -, hmeant⟩ | ⟨hpattern, hmeant⟩ := pattern_cases f query
  · exact (hmeant text).mpr ((ilike_starts hbody).mp (hpattern ▸ h))
  · exact (hmeant text).mpr ((ilike_eq hbody).mp (hpattern ▸ h))
  · exact (hmeant text).mpr ((ilike_contains hbody).mp (hpattern ▸ h))

theorem infix_of_meant (h : Meant f query text) :
    (body query).map f.fold <:+: text.toList.map f.fold := by
  obtain ⟨-, hmeant⟩ | ⟨-, -, -, hmeant⟩ | ⟨-, hmeant⟩ := pattern_cases f query
  · exact ((hmeant text).mp h).isInfix
  · rw [(hmeant text).mp h]
  · exact (hmeant text).mp h

/-- A pattern with a wildcard is for a text that the query does not mean, unless it is unfinished. -/
theorem exists_sample (f : CaseFold) (hc : c ∈ query.toList) (hwild : c ∈ wildcards)
    (hfinished : query.toList.head? = some '+' → parse query.toList ≠ none) :
    ∃ text, ilike f (searchPattern query).toList text = true ∧
      ¬ Meant f query (String.ofList text) := by
  have hbody : ∃ c ∈ body query, c ∈ wildcards := ⟨c, mem_body hc hwild, hwild⟩
  have hmissed {closing : List Char} {tokens : List Token} (hclosing : closing = [] ∨ closing = ['%'])
      (hparse : parse (body query ++ closing) = some tokens) :
      ¬ Meant f query (String.ofList (sample tokens)) := by
    intro hmeant
    have hinfix := infix_of_meant hmeant
    rw [String.toList_ofList] at hinfix
    exact not_infix_sample hbody hclosing hparse hinfix
  obtain ⟨hpattern, -⟩ | ⟨hplus, hpattern, hself, -⟩ | ⟨hpattern, -⟩ := pattern_cases f query
  · obtain ⟨tokens, htokens⟩ := Option.isSome_iff_exists.mp (parse_closed (body query))
    exact ⟨sample tokens, hpattern ▸ ilike_sample htokens, hmissed (.inr rfl) htokens⟩
  · obtain ⟨tokens, htokens⟩ := Option.ne_none_iff_exists'.mp (hself ▸ hfinished hplus)
    have hopen : parse (body query ++ []) = some tokens := by rwa [List.append_nil]
    exact ⟨sample tokens, hpattern ▸ ilike_sample htokens, hmissed (.inl rfl) hopen⟩
  · obtain ⟨tokens, htokens⟩ := Option.isSome_iff_exists.mp (parse_closed (body query))
    have hany : parse ('%' :: (body query ++ ['%'])) = some (.any :: tokens) := by
      rw [parse, htokens]
      rfl
    have hlike : ilike f ('%' :: (body query ++ ['%'])) (sample (.any :: tokens)) = true :=
      ilike_sample hany
    exact ⟨sample tokens, hpattern ▸ hlike, hmissed (.inr rfl) htokens⟩

end Patterns

section Statement

variable {f : CaseFold} {ω : SearchChoice} {errorText : RedisError → String} {query : String}
  {userId : Uuid} {db : SearchDb} {c : Char}

theorem searchPattern_plus (h : query.toList.head? = some '+') : searchPattern query = query := by
  obtain ⟨rest, hquery⟩ := List.head?_eq_some_iff.mp h
  rw [searchPattern, hquery]
  rfl

theorem mem_searchPattern (h : c ∈ query.toList) (hc : c ≠ '@') :
    c ∈ (searchPattern query).toList := by
  unfold searchPattern
  split
  · rw [String.toList_ofList]
    exact List.mem_append_left _ (mem_dropWhile h (decide_eq_false hc))
  · exact h
  · rw [String.toList_ofList]
    exact List.mem_cons_of_mem _ (List.mem_append_left _ h)

theorem searchUsers_rows {limit : Int} {rows : List (Uuid × Option String × String × Option String)}
    (h : db.searchUsers f ω query limit userId = .ok rows) : '\x00' ∉ (searchPattern query).toList ∧
      ∀ r ∈ rows, ∃ row, db.users.rows.lookup r.1 = some row ∧
        db.found f (searchPattern query) ⟨r.1, row⟩ = true := by
  rw [SearchDb.searchUsers] at h
  split at h
  · cases h
  · next hfine =>
    cases h
    refine ⟨fun hnul => hfine (.inr (.inl hnul)), fun r hr => ?_⟩
    obtain ⟨e, he, rfl⟩ := List.mem_map.mp hr
    have hlisted : e ∈ db.users.rows.entries.filter (fun e =>
        db.visibleTo userId e && db.found f (searchPattern query) e) := by
      have hordered := List.mem_of_mem_take he
      split_ifs at hordered with hperm
      · exact hperm.mem_iff.mp hordered
      · exact hordered
    obtain ⟨hentry, hfound⟩ := List.mem_filter.mp hlisted
    rw [Bool.and_eq_true] at hfound
    exact ⟨e.2, AList.mem_lookup_iff.mpr hentry, hfound.2⟩

theorem searchUsers_results {limit : Option Int} {redis : Store} {results : List UserSearchResult}
    (h : (searchUsers f ω errorText userId ⟨some query, limit⟩ redis db).1 =
      .ok ⟨200, .results results⟩) :
    ∃ rows, db.searchUsers f ω query (min (limit.getD 20) 50) userId = .ok rows ∧
      results = rows.map toResult := by
  rw [searchUsers] at h
  split at h
  · cases h
  · next searchTerm hterm =>
    obtain rfl := Option.some.inj (Option.filter_eq_some_iff.mp hterm).1
    split at h
    · cases h
    · cases h
    · cases hrows : db.searchUsers f ω query (min (limit.getD 20) 50) userId with
      | error e =>
        rw [hrows] at h
        cases h
      | ok rows =>
        rw [hrows] at h
        cases h
        exact ⟨rows, rfl, rfl⟩

/-- A phone that can be read has no case and no wildcard. -/
theorem uncased_of_accepted {row : UserRecord} (h : Accepted row) (hc : c ∈ row.phone.toList) :
    c ∈ uncased := by
  obtain ⟨ds, hds, -, -, hdigits⟩ := mem_e164.mp (exists_new_iff.mp h)
  rw [hds] at hc
  obtain rfl | hc := List.mem_cons.mp hc
  · decide
  · have hsubset : digits ⊆ uncased := by decide
    exact hsubset (mem_digits.mpr (hdigits c hc))

theorem takenLiterally_of_harmless (h : Harmless query) : TakenLiterally f errorText query := by
  intro ω userId limit redis db results hanswer r hr
  obtain ⟨rows, hrows, rfl⟩ := searchUsers_results hanswer
  obtain ⟨hnul, hfound⟩ := searchUsers_rows hrows
  obtain ⟨found, hmem, rfl⟩ := List.mem_map.mp hr
  obtain ⟨row, hrow, hfound⟩ := hfound found hmem
  obtain ⟨text, htext, hlike⟩ := List.any_eq_true.mp hfound
  obtain hplain | hzero | ⟨hplus, hparse⟩ := h
  · refine ⟨found.1, row, rfl, hrow, ⟨text, htext, meant_of_ilike hplain hlike⟩, ?_⟩
    intro hplus haccepted hphone
    rw [searchPattern_plus hplus, ilike_eq hplain] at hphone
    have hsame := eq_of_map_fold (fun c hc => uncased_of_accepted haccepted hc) hphone
    exact (String.toList_inj.mp hsame).symm
  · exact absurd (mem_searchPattern hzero (by decide)) hnul
  · rw [searchPattern_plus hplus, ilike_unfinished hparse] at hlike
    cases hlike

def bystander : UserRecord :=
  ⟨none, "+10000000", some "", none, none, none, false, none, true, none, 0, 0, none⟩

/-- One user, who is shown under this name. -/
def onlyUser (name : String) : SearchDb where
  users := UserTable.put .empty (.ofNat 1) bystander (fun _ _ _ h => by cases h)
  displayNames := AList.insert (.ofNat 1) name ∅
  blocks := []

theorem nul_notMem_searchPattern (h : '\x00' ∉ query.toList) :
    '\x00' ∉ (searchPattern query).toList := by
  have hpercent : '\x00' ∉ ['%'] := by decide
  unfold searchPattern
  split
  · rw [String.toList_ofList, List.mem_append, not_or]
    exact ⟨fun hmem => h (List.dropWhile_subset _ hmem), hpercent⟩
  · exact h
  · rw [String.toList_ofList, List.mem_cons, List.mem_append, not_or, not_or]
    exact ⟨by decide, h, hpercent⟩

theorem searchUsers_onlyRow {name : String}
    (hlike : ilike f (searchPattern query).toList name.toList = true) (hnul : '\x00' ∉ query.toList) :
    (onlyUser name).searchUsers f ⟨[], false⟩ query 20 (.ofNat 2) =
      .ok [(.ofNat 1, none, name, none)] := by
  have hname : (onlyUser name).displayNames.lookup (.ofNat 1) = some name :=
    AList.lookup_insert ∅
  have hfound : (onlyUser name).found f (searchPattern query) ⟨.ofNat 1, bystander⟩ = true :=
    List.any_eq_true.mpr ⟨name, by simp [SearchDb.texts, hname], hlike⟩
  have hvisible : (onlyUser name).visibleTo (.ofNat 2) ⟨.ofNat 1, bystander⟩ = true := by
    have hne : Uuid.ofNat 1 ≠ .ofNat 2 := by decide +kernel
    simp [SearchDb.visibleTo, bystander, onlyUser, hne]
  have hentries : (onlyUser name).users.rows.entries = [⟨.ofNat 1, bystander⟩] := rfl
  have hfine : ¬ ((20 : Int) < 0 ∨ '\x00' ∈ (searchPattern query).toList ∨
      parse (searchPattern query).toList = none ∧ false = true) := by
    simp [nul_notMem_searchPattern hnul]
  have hlisted : [(⟨.ofNat 1, bystander⟩ : UserEntry)].filter (fun e =>
      (onlyUser name).visibleTo (.ofNat 2) e && (onlyUser name).found f (searchPattern query) e) =
        [⟨.ofNat 1, bystander⟩] := by
    rw [List.filter_cons_of_pos (by rw [hvisible, hfound]; rfl), List.filter_nil]
  rw [SearchDb.searchUsers, hentries, hlisted]
  dsimp only
  rw [if_neg hfine, if_neg (by simp)]
  exact congrArg (fun shown => Except.ok [(Uuid.ofNat 1, none, Option.getD shown "", none)]) hname

/-- Somebody else may find this user if the pattern is for the name. -/
theorem searchUsers_onlyUser {name : String}
    (hlike : ilike f (searchPattern query).toList name.toList = true) (hnul : '\x00' ∉ query.toList)
    (htrim : trim query ≠ "") :
    (searchUsers f ⟨[], false⟩ errorText (.ofNat 2) ⟨some query, none⟩ (.empty 0) (onlyUser name)).1 =
      .ok ⟨200, .results [⟨(Uuid.ofNat 1).toString, none, name, none⟩]⟩ := by
  have hterm : (some query).filter (fun q => trim q ≠ "") = some query := by
    rw [Option.filter_some, if_pos (decide_eq_true htrim)]
  have hallowed : (checkRateLimit ("search:" ++ (Uuid.ofNat 2).toString) 30 60 (.empty 0)).1 =
      .ok true := by
    rw [checkRateLimit, (Auth.RateLimit.rateLimitScript_first 60 (Store.lookup_empty 0)).1]
    rfl
  obtain ⟨redis, hrate⟩ : ∃ redis, checkRateLimit ("search:" ++ (Uuid.ofNat 2).toString) 30 60
      (.empty 0) = (.ok true, redis) := ⟨_, Prod.ext hallowed rfl⟩
  rw [searchUsers]
  dsimp only
  rw [hterm, hrate]
  dsimp only
  have hlimit : min ((none : Option Int).getD 20) 50 = 20 := rfl
  rw [hlimit, searchUsers_onlyRow hlike hnul]
  rfl

theorem trim_ne_empty (hc : c ∈ query.toList) (hspace : isWhitespace c = false) : trim query ≠ "" := by
  have hstart : c ∈ query.toList.dropWhile isWhitespace := mem_dropWhile hc hspace
  have hmem : c ∈ (trim query).toList := by
    rw [trim, String.toList_ofList, List.mem_reverse]
    exact mem_dropWhile (List.mem_reverse.mpr hstart) hspace
  intro hempty
  rw [hempty] at hmem
  cases hmem

theorem harmless_of_takenLiterally (h : TakenLiterally f errorText query) : Harmless query := by
  by_contra hharm
  rw [Harmless, not_or, not_or, not_and] at hharm
  obtain ⟨hwildcard, hnul, hfinished⟩ := hharm
  push Not at hwildcard
  obtain ⟨c, hc, hwild⟩ := hwildcard
  have hspaces : wildcards.all (fun c => !isWhitespace c) = true := by decide
  have hspace : isWhitespace c = false := by
    simpa using List.all_eq_true.mp hspaces c hwild
  obtain ⟨text, hlike, hmissed⟩ := exists_sample f hc hwild hfinished
  have hlike' : ilike f (searchPattern query).toList (String.ofList text).toList = true := by
    rwa [String.toList_ofList]
  obtain ⟨id, row, hid, hrow, ⟨shown, hshown, hmeant⟩, -⟩ := h _ _ _ _ _ _
    (searchUsers_onlyUser hlike' hnul (trim_ne_empty hc hspace)) _ List.mem_cons_self
  obtain rfl := Uuid.toString_injective hid
  have hname : (onlyUser (String.ofList text)).displayNames.lookup (.ofNat 1) =
      some (String.ofList text) := AList.lookup_insert ∅
  obtain rfl : bystander = row := Option.some.inj ((AList.lookup_insert _).symm.trans hrow)
  rw [SearchDb.texts, hname] at hshown
  obtain rfl | rfl : shown = String.ofList text ∨ shown = bystander.phone := by
    simpa [bystander] using hshown
  · exact hmissed hmeant
  · have hphone : bystander.phone.toList.all (fun c => decide (c ∉ wildcards)) = true := by decide
    refine not_infix_plain ⟨c, mem_body hc hwild, hwild⟩ (fun d hd => ?_) (infix_of_meant hmeant)
    exact of_decide_eq_true (List.all_eq_true.mp hphone d hd)

end Statement

/-- The search takes exactly those queries literally. -/
theorem literally_iff_harmless (f : CaseFold) (errorText : RedisError → String) (query : String) :
    TakenLiterally f errorText query ↔ Harmless query :=
  ⟨harmless_of_takenLiterally, takenLiterally_of_harmless⟩

section Prefix

/-- Only the letters of ASCII have a case here. -/
def asciiFold : CaseFold where
  fold := Char.toLower
  fold_uncased c hc d := by
    have hcases : uncased.all (fun c =>
        decide (c.toNat < 65 ∨ 90 < c.toNat ∧ c.toNat < 97)) = true := by decide
    have hcase := of_decide_eq_true (List.all_eq_true.mp hcases c hc)
    by_cases hupper : d.val ≥ 'A'.val ∧ d.val ≤ 'Z'.val
    · have hd : 65 ≤ d.toNat ∧ d.toNat ≤ 90 := hupper
      have hlower : d.toLower.toNat = d.toNat + 32 := by
        have hval : d.toLower.val = d.val + ('a'.val - 'A'.val) := congrArg Char.val (dif_pos hupper)
        rw [Char.toNat, hval, UInt32.toNat_add]
        exact Nat.mod_eq_of_lt (show d.toNat + 32 < 2 ^ 32 by omega)
      refine iff_of_false ?_ ?_
      · rintro rfl
        omega
      · rintro rfl
        omega
    · have hsame : d.toLower = d := dif_neg hupper
      rw [hsame]

/-- One user, without a name. -/
def ana : SearchDb where
  users := UserTable.put .empty (.ofNat 1) { bystander with phone := "+573001234567" }
    (fun _ _ _ h => by cases h)
  displayNames := ∅
  blocks := []

/-- The start of a phone finds it: the rest is tried digit by digit. -/
theorem prefix_finds_phone : ¬ TakenLiterally asciiFold (fun _ => "") "+5730%" := by
  intro h
  have hanswer : (searchUsers asciiFold ⟨[], false⟩ (fun _ => "") (.ofNat 2) ⟨some "+5730%", none⟩
      (.empty 0) ana).1 = .ok ⟨200, .results [⟨(Uuid.ofNat 1).toString, none, "", none⟩]⟩ := by
    decide +kernel
  obtain ⟨id, row, hid, hrow, ⟨text, htext, hmeant⟩, -⟩ := h _ _ _ _ _ _ hanswer _ List.mem_cons_self
  obtain rfl := Uuid.toString_injective hid
  obtain rfl := Option.some.inj ((AList.lookup_insert _).symm.trans hrow)
  obtain rfl : text = "+573001234567" := List.mem_singleton.mp htext
  have hequal : "+5730%".toList.map Char.toLower = "+573001234567".toList.map Char.toLower := hmeant
  exact absurd hequal (by decide +kernel)

end Prefix

end Mesty.Users.Search
