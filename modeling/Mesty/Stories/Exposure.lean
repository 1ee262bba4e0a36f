import Mesty.Stories.Visibility

namespace Mesty.Stories.Exposure

open Mesty.Base.Ids Mesty.Base.Error Mesty.Base.Text Mesty.Concurrency.Program Mesty.Concurrency.Pool
open Mesty.Paging.Keyset
open Mesty.Stories.Repository Mesty.Stories.Handlers Mesty.Stories.Protocol Mesty.Stories.Records
open Mesty.Stories.Protocol.CreateStoryRequest Mesty.Stories.Visibility

/-- The stories of other users or the own ones show the story to the user. -/
def VisibleTo (db : StoriesDb) (userId storyId : Uuid) : Prop :=
  storyId ∈ (db.listForUser userId).map StoryWithUser.id ∨ db.canUserViewStory storyId userId ∨
    storyId ∈ (db.listMyStories userId).map StoryWithUser.id

/-- No story of a request that has returned an error is visible to anyone. -/
def NothingLeft (c : StoryConfig) : Prop :=
  ∀ i authId req e, c.tasks[i]? = some ((authId, .createStory req), .ret (.error e)) →
    ∀ storyId, Created c i storyId → ∀ userId, ¬ VisibleTo c.db userId storyId

/-- No user listed in the exceptions of a `contacts_except` request can be shown its story. -/
def NeverShown (c : StoryConfig) : Prop :=
  ∀ i authId req, c.request i = some (authId, .createStory req) →
    req.privacy = "contacts_except" → ∀ storyId, Created c i storyId → ∀ userId ∈ listed req,
      storyId ∉ (c.db.listForUser userId).map StoryWithUser.id ∧
        ¬ c.db.canUserViewStory storyId userId

/-- The story of a `contacts_except` request is live, and the exception of the listed user is
not stored. -/
structure Unprotected (c : StoryConfig) (i : Nat) (authId userId storyId : Uuid) : Prop where
  request : ∃ req, c.request i = some (authId, .createStory req) ∧
    req.privacy = "contacts_except" ∧ userId ∈ listed req
  created : Created c i storyId
  other : userId ≠ authId
  missing : ¬ c.db.hasException storyId userId true
  lives : Lives c.db storyId

/-- The database accepts the story. -/
structure AcceptsStory (db : StoriesDb) (authId : Uuid) (url type : String) (caption : Option String)
    (privacy : String) : Prop where
  privacy : (StoryPrivacy.fromDbStr privacy).isSome
  texts : Storable url ∧ Storable type ∧ ∀ text ∈ caption, Storable text
  author : authId ∈ db.users

/-- The story that a statement stores is answered, and a story of a `contacts_except` request is not
stored while a listed user is a contact of its author. No exception fails to be stored while the
story is live. -/
def CarefulCmd (c : StoryConfig) (i : Nat) (ω : StoryChoice) : StoryCmd → Prop
  | .create authId url type caption privacy => ω.fault.all Fault.executed →
    AcceptsStory c.db authId url type caption privacy →
      ω.fault = none ∧ (privacy = "contacts_except" →
        ∀ req, c.request i = some (authId, .createStory req) →
          ∀ userId ∈ listed req, userId ≠ authId → ¬ c.db.hasContact authId userId)
  | .addPrivacyException storyId userId _ =>
    (ω.fault = none ∧ userId ∈ c.db.users) ∨ ¬ Lives c.db storyId
  | _ => True

/-- The statements are careful, and no listed user becomes a contact of the author before the
exception is stored. -/
def Careful (c : StoryConfig) : StoryAct → Prop
  | .step i ω => ∀ cmd, c.tasks[i]?.bind (fun t => t.2.next) = some cmd → CarefulCmd c i ω cmd
  | .tick ω => ∀ contacts, ω.change = .contacts contacts → ∀ i authId userId storyId,
      Unprotected c i authId userId storyId → (authId, some userId) ∉ contacts
  | .spawn _ => True

/-- Task `i` has failed in a statement for the story, which is there. -/
def Failed (c : StoryConfig) (i : Nat) (storyId : Uuid) : Prop :=
  ∃ e ∈ c.history i, failedFor e = some storyId

/-- Stories for which a statement has failed are not live, and whoever is not yet protected from a
story is no contact of its author. -/
structure Guarded (c : StoryConfig) : Prop where
  dead : ∀ i storyId, Failed c i storyId → ¬ Lives c.db storyId
  shielded : ∀ i authId userId storyId, Unprotected c i authId userId storyId →
    ¬ c.db.hasContact authId userId

section Guarded

variable {c : StoryConfig} {i : Nat} {authId userId storyId : Uuid} {req : CreateStoryRequest}
  {users : AList (fun _ : Uuid => UserRow)} {P : StoryConfig → StoryAct → Prop}

theorem visibleTo_author (hrec : Recorded c) (hlives : Lives c.db storyId) :
    ∃ userId, VisibleTo c.db userId storyId := by
  obtain ⟨row, hrow, hlive⟩ := hlives
  refine ⟨row.userId, .inr (.inr ?_)⟩
  rw [StoriesDb.listMyStories, ((sortBy_perm _).map _).mem_iff, mem_selectStories]
  refine ⟨row, hrow, ?_, hrec.author storyId row hrow⟩
  simpa using isLive_iff.mpr hlive

theorem lives_of_canView {db : StoriesDb} (h : db.canUserViewStory storyId userId) :
    Lives db storyId := by
  obtain ⟨row, hrow, hlive, -⟩ := canUserViewStory_iff.mp h
  exact ⟨row, hrow, isLive_iff.mp hlive⟩

theorem VisibleTo.lives (hrec : Recorded c) (h : VisibleTo c.db userId storyId) :
    Lives c.db storyId := by
  obtain h | h | h := h
  · exact lives_of_canView ((canView_iff_listed (hrec.author storyId)).mpr h)
  · exact lives_of_canView h
  · rw [StoriesDb.listMyStories, ((sortBy_perm _).map _).mem_iff, mem_selectStories] at h
    obtain ⟨row, hrow, hmine, -⟩ := h
    exact ⟨row, hrow, isLive_iff.mp (Bool.and_eq_true_iff.mp hmine).2⟩

/-- Among the listed users a `contacts_except` story is shown to the contacts that are not
protected yet. -/
theorem shown_iff_unprotected (hrec : Recorded c) (hown : Created c i storyId)
    (hr : c.request i = some (authId, .createStory req)) (hp : req.privacy = "contacts_except")
    (hu : userId ∈ listed req) : c.db.canUserViewStory storyId userId ↔
      Unprotected c i authId userId storyId ∧ c.db.hasContact authId userId := by
  obtain ⟨req', row, hr', hrow, hprivacy⟩ := hrec.created i storyId hown
  obtain ⟨rfl, hreq⟩ := Prod.mk.inj (Option.some.inj (hr.symm.trans hr'))
  obtain rfl := StoryReq.createStory.inj hreq
  have hexcept : row.privacy = .contactsExcept := by
    have hcast := StoryPrivacy.fromDbStr_asDbStr row.privacy
    rw [hprivacy, hp] at hcast
    exact (Option.some.inj hcast).symm
  rw [canUserViewStory_iff]
  constructor
  · rintro ⟨row', hrow', hlive, hne, hpermits⟩
    obtain rfl := Option.some.inj (hrow.symm.trans hrow')
    rw [hexcept] at hpermits
    refine ⟨⟨⟨req, hr, hp, hu⟩, hown, fun heq => hne heq.symm, ?_, row, hrow, isLive_iff.mp hlive⟩,
      hpermits.1⟩
    exact hpermits.2
  · rintro ⟨hun, hcontact⟩
    obtain ⟨row', hrow', hlive⟩ := hun.lives
    obtain rfl := Option.some.inj (hrow.symm.trans hrow')
    refine ⟨row, hrow, isLive_iff.mpr hlive, fun heq => hun.other heq.symm, ?_⟩
    rw [hexcept]
    exact ⟨hcontact, hun.missing⟩

/-- A request that has failed in a statement for its story ends with an error. -/
theorem ends_of_failed (h : storyServer.Reach P (System.start (.empty users)) c)
    (hf : Failed c i storyId) : Created c i storyId ∧ ∃ authId req e,
      c.tasks[i]? = some ((authId, .createStory req), .ret (.error e)) := by
  obtain ⟨⟨cmd, ans⟩, he, hfailed⟩ := hf
  obtain ⟨before, later, hlog⟩ := List.append_of_mem (World.mem_history.mp he)
  obtain ⟨⟨authId, kind⟩, p, ht, hN⟩ := h.replays.followed handler_follows hlog
  have hown : Created c i storyId ∧ ∃ req, kind = .createStory req := by
    cases cmd with
    | create =>
      have hid := created_of_failed hfailed
      obtain ⟨req, _, _, _, hkind, -⟩ := creates_request hN hid
      exact ⟨⟨_, he, hid⟩, req, hkind⟩
    | addPrivacyException s u b =>
      cases ans with
      | ok _ => cases hfailed
      | error err =>
        obtain rfl := Option.some.inj hfailed
        obtain ⟨req, hkind, -, -, e, hmem, hid⟩ := excepts_request hN
        have hsub : e ∈ c.history i := by
          rw [World.history, hlog, eventsOf_append]
          exact List.mem_append_left _ hmem
        exact ⟨⟨e, hsub, hid⟩, req, hkind⟩
    | _ => cases hfailed
  obtain ⟨hown, req, rfl⟩ := hown
  refine ⟨hown, authId, req, ?_⟩
  have hfollows := h.replays.follows handler_follows ht
  cases p with
  | call cmd k => exact (failed_writes hfollows.1 he hfailed).elim
  | ret out =>
    cases out with
    | error e => exact ⟨e, ht⟩
    | ok response =>
      obtain ⟨_, _, -, -, -, hnone⟩ := hfollows
      exact absurd (hfailed.symm.trans (hnone _ he)) (by simp)

theorem guarded_iff (h : storyServer.Reach P (System.start (.empty users)) c) :
    Guarded c ↔ NothingLeft c ∧ NeverShown c := by
  have hrec := recorded_of_reach h
  constructor
  · intro hg
    refine ⟨fun i authId req e ht s hown u hvisible => ?_, fun i authId req hr hp s hown u hu => ?_⟩
    · obtain ⟨e', he', hid⟩ := hown
      have hends : Ends (authId, .createStory req) (c.history i) (.error e) :=
        h.replays.follows handler_follows ht
      exact hg.dead i s (hends e' he' s hid) (hvisible.lives hrec)
    · have hnot : ¬ c.db.canUserViewStory s u := fun hview => by
        obtain ⟨hun, hcontact⟩ := (shown_iff_unprotected hrec hown hr hp hu).mp hview
        exact hg.shielded i authId u s hun hcontact
      exact ⟨fun hlisted => hnot ((canView_iff_listed (hrec.author s)).mpr hlisted), hnot⟩
  · rintro ⟨hleft, hnever⟩
    refine ⟨fun i s hf hlives => ?_, fun i authId u s hun hcontact => ?_⟩
    · obtain ⟨hown, authId, req, e, ht⟩ := ends_of_failed h hf
      obtain ⟨u, hvisible⟩ := visibleTo_author hrec hlives
      exact hleft i authId req e ht s hown u hvisible
    · obtain ⟨req, hr, hp, hu⟩ := hun.request
      exact (hnever i authId req hr hp s hun.created u hu).2
        ((shown_iff_unprotected hrec hun.created hr hp hu).mpr ⟨hun, hcontact⟩)

end Guarded

section Step

variable {c d : StoryConfig} {i : Nat} {e : StoryStep} {users : AList (fun _ : Uuid => UserRow)}
  {P : StoryConfig → StoryAct → Prop}

/-- A move that shows nothing new keeps the stories guarded. -/
theorem Guarded.keeps (hg : Guarded c) (hfailed : ∀ j s, Failed d j s → ¬ Lives c.db s)
    (hcreated : ∀ j s, Created d j s → Created c j s)
    (hreq : ∀ j s, Created c j s → d.request j = c.request j)
    (hlives : ∀ s, Lives d.db s → Lives c.db s)
    (hexceptions : ∀ j authId req s u, c.request j = some (authId, .createStory req) →
      req.privacy = "contacts_except" → Created c j s → c.db.hasException s u true →
        d.db.hasException s u true)
    (hcontacts : d.db.contacts = c.db.contacts) : Guarded d := by
  refine ⟨fun j s hf hl => hfailed j s hf (hlives s hl), fun j authId u s hun => ?_⟩
  obtain ⟨⟨req, hr, hp, hu⟩, hown, hne, hmissing, hl⟩ := hun
  have hown' := hcreated j s hown
  rw [hreq j s hown'] at hr
  rw [StoriesDb.hasContact, hcontacts]
  refine hg.shielded j authId u s ⟨⟨req, hr, hp, hu⟩, hown', hne, fun hstored => ?_, hlives s hl⟩
  exact hmissing (hexceptions j authId req s u hr hp hown' hstored)

theorem lives_insert {db : StoriesDb} {storyId s : Uuid} {row : StoryRow} :
    Lives { db with stories := db.stories.insert storyId row } s ↔
      if s = storyId then row.deletedAt = none ∧ db.now < row.expiresAt else Lives db s := by
  by_cases hs : s = storyId
  · subst hs
    simp [Lives]
  · simp [Lives, hs, AList.lookup_insert_ne hs]

/-- A story that has just been stored is live. -/
theorem lives_created {storyId : Uuid} {row : StoryRow} (hdeleted : row.deletedAt = none)
    (hexpires : row.expiresAt = c.db.now + lifetime)
    (hd : d.db = { c.db with stories := c.db.stories.insert storyId row }) : Lives d.db storyId := by
  rw [hd, lives_insert, if_pos rfl, hexpires]
  exact ⟨hdeleted, Int.lt_add_of_pos_right _ (by decide)⟩

/-- Creating a story keeps the stories guarded exactly if no listed user is a contact. -/
theorem guarded_create_iff (h : storyServer.Reach P (System.start (.empty users)) c)
    (hg : Guarded c) {storyId : Uuid} {row : StoryRow} {req : CreateStoryRequest}
    (hhist : ∀ j, d.history j = c.history j ++ if i = j then [e] else [])
    (hreq : ∀ j, d.request j = c.request j) (hr : c.request i = some (row.userId, .createStory req))
    (hcreated : createdId e = some storyId) (hfailed : failedFor e = none)
    (hfresh : storyId ∉ c.db.stories) (hexpires : row.expiresAt = c.db.now + lifetime)
    (hdeleted : row.deletedAt = none)
    (hd : d.db = { c.db with stories := c.db.stories.insert storyId row }) :
    Guarded d ↔ (req.privacy = "contacts_except" → ∀ u ∈ listed req, u ≠ row.userId →
      ¬ c.db.hasContact row.userId u) := by
  have hrec := recorded_of_reach h
  have hiff : ∀ j s, Created d j s ↔ Created c j s ∨ (i = j ∧ storyId = s) := by
    intro j s
    simp [Created, history_step hhist, hcreated]
  have hne : ∀ {j s}, Created c j s → s ≠ storyId := by
    rintro j s hj rfl
    exact hfresh (createdIn_stories hrec hj)
  have hold : ∀ {s}, s ≠ storyId → Lives d.db s → Lives c.db s := by
    intro s hs hl
    rwa [hd, lives_insert, if_neg hs] at hl
  constructor
  · intro hg' hp u hu hother hcontact
    refine hg'.shielded i row.userId u storyId ⟨⟨req, by rw [hreq, hr], hp, hu⟩,
      (hiff i storyId).mpr (.inr ⟨rfl, rfl⟩), hother, fun hstored => ?_,
      lives_created hdeleted hexpires hd⟩ (by rwa [hd])
    -- no exception can refer to a story that was not there
    rw [hd] at hstored
    obtain ⟨j, _, _, -, hj, -⟩ := hrec.exception storyId u true (of_decide_eq_true hstored)
    exact hne hj rfl
  · intro hcond
    refine ⟨fun j s hf hl => ?_, fun j authId u s hun hcontact => ?_⟩
    · have hf' : Failed c j s := by simpa [Failed, history_step hhist, hfailed] using hf
      exact hg.dead j s hf' (hold (hne (ends_of_failed h hf').1) hl)
    · rw [hd] at hcontact
      obtain ⟨⟨req', hr', hp, hu⟩, hown, hother, hmissing, hl⟩ := hun
      rw [hreq] at hr'
      obtain hown | ⟨rfl, rfl⟩ := (hiff j s).mp hown
      · rw [hd] at hmissing
        exact hg.shielded j authId u s
          ⟨⟨req', hr', hp, hu⟩, hown, hother, hmissing, hold (hne hown) hl⟩ hcontact
      · obtain ⟨rfl, heq⟩ := Prod.mk.inj (Option.some.inj (hr.symm.trans hr'))
        obtain rfl := StoryReq.createStory.inj heq
        exact hcond hp u hu hother hcontact

theorem lives_of_effect {db db' : StoriesDb} {s : Uuid} (heff : Effect db e db')
    (hcreated : createdId e = none) (hl : Lives db' s) : Lives db s := by
  cases heff with
  | created storyId row r hgiven =>
    exact absurd ((congrArg (Option.map Story.id) hgiven).symm.trans hcreated) (by simp)
  | stored => exact hl
  | @deleted storyId row _ hrow =>
    rw [lives_insert] at hl
    split_ifs at hl with hs
    · cases hl.1
    · exact hl
  | nothing => exact hl

theorem contacts_of_effect {db db' : StoriesDb} (heff : Effect db e db') :
    db'.contacts = db.contacts := by
  cases heff <;> rfl

/-- No statement takes away the exception that protects a `contacts_except` story. -/
theorem exception_kept (hrec : Recorded c) {r : Uuid × StoryReq} (hr : c.request i = some r)
    (hN : Writes r (c.history i) e.1) (heff : Effect c.db e d.db) {j : Nat} {authId s u : Uuid}
    {req : CreateStoryRequest} (hreq : c.request j = some (authId, .createStory req))
    (hp : req.privacy = "contacts_except") (hown : Created c j s)
    (h : c.db.hasException s u true) : d.db.hasException s u true := by
  generalize hdb : d.db = db at heff
  cases heff with
  | created => exact h
  | @stored storyId userId b =>
    obtain ⟨req', hkind, -, hb, hown'⟩ := excepts_request hN
    by_cases hkey : (s, u) = (storyId, userId)
    · obtain ⟨rfl, rfl⟩ := Prod.mk.inj hkey
      obtain rfl := hrec.unique i j s hown' hown
      obtain rfl := Option.some.inj (hr.symm.trans hreq)
      obtain rfl := StoryReq.createStory.inj hkind
      simp [StoriesDb.hasException, hb, isExcluded, hp]
    · rwa [StoriesDb.hasException, AList.lookup_insert_ne hkey]
  | deleted => exact h
  | nothing => exact h

/-- A statement that creates no story and fails in none that is live. -/
theorem guarded_quiet (hrec : Recorded c) (hg : Guarded c) {r : Uuid × StoryReq}
    (hr : c.request i = some r) (hN : Writes r (c.history i) e.1) (heff : Effect c.db e d.db)
    (hhist : ∀ j, d.history j = c.history j ++ if i = j then [e] else [])
    (hreq : ∀ j, d.request j = c.request j) (hcreated : createdId e = none)
    (hfailed : ∀ s, failedFor e = some s → ¬ Lives c.db s) : Guarded d := by
  refine hg.keeps (fun j s hf => ?_) (fun j s hown => ?_) (fun j s _ => hreq j)
    (fun s => lives_of_effect heff hcreated) ?_ (contacts_of_effect heff)
  · obtain hf | ⟨-, hf⟩ := (history_step hhist).mp hf
    · exact hg.dead j s hf
    · exact hfailed s hf
  · simpa [Created, history_step hhist, hcreated] using hown
  · exact fun j authId req s u hr' hp hown hstored =>
      exception_kept hrec hr hN heff hr' hp hown hstored

end Step

theorem create_cases {ω : StoryChoice} {db db' : StoriesDb} {userId : Uuid} {url type : String}
    {caption : Option String} {privacy : String} {ans : Answer Story}
    (h : db.create ω userId url type caption privacy = some (ans, db')) :
    (¬ AcceptsStory db userId url type caption privacy ∧ ∃ e, ans = .error ⟨e, none⟩) ∨
      AcceptsStory db userId url type caption privacy ∧ ∃ story, ans = .ok story := by
  rw [StoriesDb.create] at h
  split at h
  · next hprivacy =>
    cases h
    exact .inl ⟨fun haccepts => by simpa [hprivacy] using haccepts.privacy, _, rfl⟩
  · next p hprivacy =>
    split_ifs at h with htexts huser hfresh <;> cases h
    · exact .inr ⟨⟨by rw [hprivacy, Option.isSome_some], htexts, huser⟩, _, rfl⟩
    · exact .inl ⟨fun haccepts => huser haccepts.author, _, rfl⟩
    · exact .inl ⟨fun haccepts => htexts haccepts.texts, _, rfl⟩

theorem exec_create {ω : StoryChoice} {db db' : StoriesDb} {userId : Uuid} {url type : String}
    {caption : Option String} {privacy : String} {ans : Answer Story}
    (h : StoriesDb.exec ω (.create userId url type caption privacy) db = some (ans, db')) :
    (¬ (ω.fault.all Fault.executed ∧ AcceptsStory db userId url type caption privacy) ∧
      ∃ e, ans = .error ⟨e, none⟩) ∨
    (ω.fault.all Fault.executed ∧ AcceptsStory db userId url type caption privacy) ∧
      ∃ story, if ω.fault = none then ans = .ok story else ∃ e, ans = .error ⟨e, some story⟩ := by
  rw [StoriesDb.exec] at h
  split at h
  · next hfault =>
    obtain ⟨hno, he⟩ | ⟨haccepts, story, hok⟩ := create_cases h
    · exact .inl ⟨fun hstores => hno hstores.2, he⟩
    · exact .inr ⟨⟨by rw [hfault]; rfl, haccepts⟩, story, by rwa [if_pos hfault]⟩
  · next f hfault =>
    have hfails : ω.fault ≠ none := by rw [hfault]; rintro ⟨⟩
    split_ifs at h with hexecuted
    · obtain ⟨⟨r, db₁⟩, hr, heq⟩ := Option.map_eq_some_iff.mp h
      obtain ⟨rfl, rfl⟩ := Prod.mk.inj heq
      obtain ⟨hno, e, rfl⟩ | ⟨haccepts, story, rfl⟩ := create_cases hr
      · exact .inl ⟨fun hstores => hno hstores.2, _, rfl⟩
      · exact .inr ⟨⟨by rwa [hfault], haccepts⟩, story, by rw [if_neg hfails]; exact ⟨_, rfl⟩⟩
    · cases h
      exact .inl ⟨fun hstores => hexecuted (by simpa [hfault] using hstores.1), _, rfl⟩

theorem exec_exception {ω : StoryChoice} {db db' : StoriesDb} {storyId userId : Uuid} {b : Bool}
    {ans : Answer Unit} (hmem : storyId ∈ db.stories)
    (h : StoriesDb.exec ω (.addPrivacyException storyId userId b) db = some (ans, db')) :
    ans = .ok () ↔ ω.fault = none ∧ userId ∈ db.users := by
  rw [StoriesDb.exec] at h
  split at h
  · next hfault =>
    simp only [StoriesDb.answer, StoriesDb.addPrivacyException, StoriesDb.refersTo, hmem,
      decide_true, Bool.true_and, decide_eq_true_eq, Option.some.injEq] at h
    split_ifs at h with huser <;> cases h <;> simp [hfault, huser]
  · next f hfault =>
    refine iff_of_false ?_ (fun hfine => by simp [hfault] at hfine)
    split_ifs at h with hexecuted
    · obtain ⟨⟨r, db₁⟩, -, heq⟩ := Option.map_eq_some_iff.mp h
      obtain ⟨rfl, -⟩ := Prod.mk.inj heq
      rintro ⟨⟩
    · obtain ⟨rfl, -⟩ := Prod.mk.inj (Option.some.inj h)
      rintro ⟨⟩

section Moves

variable {c d : StoryConfig} {users : AList (fun _ : Uuid => UserRow)}
  {P : StoryConfig → StoryAct → Prop}

/-- The INSERT of a story keeps the stories guarded exactly if it is careful. -/
theorem careful_create_iff {i : Nat} {ω : StoryChoice} {r : Uuid × StoryReq} {authId : Uuid}
    {url type : String} {caption : Option String} {privacy : String} {ans : Answer Story}
    (h : storyServer.Reach P (System.start (.empty users)) c) (hg : Guarded c)
    (hr : c.request i = some r) (hN : Writes r (c.history i) (.create authId url type caption privacy))
    (he : StoriesDb.exec ω (.create authId url type caption privacy) c.db = some (ans, d.db))
    (hhist : ∀ j, d.history j = c.history j ++
      if i = j then [⟨.create authId url type caption privacy, ans⟩] else [])
    (hreq : ∀ j, d.request j = c.request j) :
    CarefulCmd c i ω (.create authId url type caption privacy) ↔ Guarded d := by
  have heff : Effect c.db ⟨.create authId url type caption privacy, ans⟩ d.db := exec_effect he
  obtain ⟨hno, err, rfl⟩ | ⟨hstores, story, hans⟩ := exec_create he
  · refine iff_of_true (fun hexecuted haccepts => absurd ⟨hexecuted, haccepts⟩ hno) ?_
    exact guarded_quiet (recorded_of_reach h) hg hr hN heff hhist hreq rfl (by rintro _ ⟨⟩)
  have hown : createdId ⟨.create authId url type caption privacy, ans⟩ = some story.id := by
    split_ifs at hans
    · rw [hans]
      rfl
    · obtain ⟨err, rfl⟩ := hans
      rfl
  generalize hdb : d.db = db at heff
  cases heff with
  | nothing hcreated => exact absurd (hown.symm.trans hcreated) (by simp)
  | created storyId row _ hgiven hfresh huser hexpires hdeleted =>
    obtain rfl : story.id = storyId :=
      Option.some.inj (hown.symm.trans (congrArg (Option.map Story.id) hgiven))
    split_ifs at hans with hfault
    · obtain ⟨req, _, _, _, hkind, -, hcmd⟩ := creates_request hN hown
      obtain ⟨authId, _⟩ := r
      obtain rfl := hkind
      injection hcmd with hauthor _ _ _ hprivacy
      obtain rfl := hauthor
      obtain rfl := hans
      rw [guarded_create_iff h hg hhist hreq hr hown rfl hfresh hexpires hdeleted hdb]
      constructor
      · exact fun hcareful hp => (hcareful hstores.1 hstores.2).2 (hprivacy.trans hp) req hr
      · refine fun hcond _ _ => ⟨hfault, fun hp req' hr' => ?_⟩
        obtain ⟨-, heq⟩ := Prod.mk.inj (Option.some.inj (hr.symm.trans hr'))
        obtain rfl := StoryReq.createStory.inj heq
        exact hcond (hprivacy.symm.trans hp)
    · -- the story is there, and the request ends with an error
      obtain ⟨err, rfl⟩ := hans
      have hfailed : Failed d i story.id := (history_step hhist).mpr (.inr ⟨rfl, rfl⟩)
      refine iff_of_false (fun hcareful => hfault (hcareful hstores.1 hstores.2).1) fun hg' => ?_
      exact hg'.dead i story.id hfailed (lives_created hdeleted hexpires hdb)

theorem carefulCmd_iff {i : Nat} {ω : StoryChoice} {r : Uuid × StoryReq} {cmd : StoryCmd}
    {ans : cmd.Ans} (h : storyServer.Reach P (System.start (.empty users)) c) (hg : Guarded c)
    (hr : c.request i = some r) (hN : Writes r (c.history i) cmd)
    (he : StoriesDb.exec ω cmd c.db = some (ans, d.db))
    (hhist : ∀ j, d.history j = c.history j ++ if i = j then [⟨cmd, ans⟩] else [])
    (hreq : ∀ j, d.request j = c.request j) : CarefulCmd c i ω cmd ↔ Guarded d := by
  have hrec := recorded_of_reach h
  have heff : Effect c.db ⟨cmd, ans⟩ d.db := exec_effect he
  have hquiet := guarded_quiet (e := ⟨cmd, ans⟩) hrec hg hr hN heff hhist hreq
  cases cmd with
  | create => exact careful_create_iff h hg hr hN he hhist hreq
  | addPrivacyException storyId userId b =>
    obtain ⟨req, hkind, -, -, hown⟩ := excepts_request hN
    have hok := exec_exception (createdIn_stories hrec hown) he
    cases ans with
    | ok u => exact iff_of_true (.inl (hok.mp rfl)) (hquiet rfl (by rintro _ ⟨⟩))
    | error e =>
      have hno : ¬ (ω.fault = none ∧ userId ∈ c.db.users) := fun hfine => by cases hok.mpr hfine
      rw [CarefulCmd, or_iff_right hno]
      constructor
      · intro hdead
        refine hquiet rfl fun s hs => ?_
        obtain rfl := Option.some.inj hs
        exact hdead
      · intro hg' hl
        have hfailed : Failed d i storyId := (history_step hhist).mpr (.inr ⟨rfl, rfl⟩)
        refine hg'.dead i storyId hfailed ?_
        generalize hdb : d.db = db at heff
        cases heff with
        | stored => exact hl
        | nothing => exact hl
  | _ => exact iff_of_true trivial (hquiet rfl (by rintro _ ⟨⟩))

theorem carefulTick_iff {ω : StoryChoice} {s : StoriesDb}
    (h : storyServer.Reach P (System.start (.empty users)) c) (hg : Guarded c)
    (hs : StoriesDb.tick ω c.db = some s) :
    Careful c (.tick ω) ↔ Guarded { c with db := s } := by
  have hrec := recorded_of_reach h
  rw [StoriesDb.tick] at hs
  split at hs
  · next elapsed hchange =>
    obtain rfl := Option.some.inj hs
    refine iff_of_true (fun contacts heq => by cases hchange.symm.trans heq) (hg.keeps
      (fun j s => hg.dead j s) (fun _ _ => id) (fun _ _ _ => rfl) (fun s hl => ?_)
      (fun _ _ _ _ _ _ _ _ => id) rfl)
    obtain ⟨row, hrow, hdeleted, hexpires⟩ := hl
    have hlater : c.db.now ≤ c.db.now + elapsed := Int.le_add_of_nonneg_right (Int.natCast_nonneg _)
    exact ⟨row, hrow, hdeleted, lt_of_le_of_lt hlater hexpires⟩
  · next hchange =>
    obtain rfl := Option.some.inj hs
    exact iff_of_true (fun contacts heq => by cases hchange.symm.trans heq) (hg.keeps
      (fun j s => hg.dead j s) (fun _ _ => id) (fun _ _ _ => rfl) (fun _ => id)
      (fun _ _ _ _ _ _ _ _ => id) rfl)
  · next contacts hchange =>
    obtain rfl := Option.some.inj hs
    constructor
    · intro hcareful
      refine ⟨fun j s hf => hg.dead j s hf, fun j authId u s hun hcontact => ?_⟩
      have hold : Unprotected c j authId u s :=
        ⟨hun.request, hun.created, hun.other, hun.missing, hun.lives⟩
      exact hcareful contacts hchange j authId u s hold (of_decide_eq_true hcontact)
    · intro hg' contacts' heq j authId u s hun hmem
      obtain rfl := Change.contacts.inj (hchange.symm.trans heq)
      have hnew : Unprotected { c with db := { c.db with contacts := contacts } } j authId u s :=
        ⟨hun.request, hun.created, hun.other, hun.missing, hun.lives⟩
      exact hg'.shielded j authId u s hnew (decide_eq_true hmem)

/-- A move keeps the stories guarded exactly if it is careful. -/
theorem careful_iff {a : StoryAct} (h : storyServer.Reach P (System.start (.empty users)) c)
    (hg : Guarded c) (ha : storyServer.apply a c = some d) : Careful c a ↔ Guarded d := by
  obtain ⟨r, rfl, rfl⟩ | ⟨i, ω, r, cmd, k, ans, s, rfl, ht, he, rfl⟩ | ⟨ω, s, rfl, hs, rfl⟩ :=
    System.apply_cases ha
  · refine iff_of_true trivial (hg.keeps (fun j s => hg.dead j s) (fun _ _ => id)
      (fun j s hown => ?_) (fun _ => id) (fun _ _ _ _ _ _ _ _ => id) rfl)
    obtain ⟨_, _, hr, -⟩ := (recorded_of_reach h).created j s hown
    obtain ⟨t, ht, -⟩ := Option.map_eq_some_iff.mp hr
    exact Config.request_spawn (List.getElem?_eq_some_iff.mp ht).1 _
  · have hnext : Careful c (.step i ω) ↔ CarefulCmd c i ω cmd := by simp [Careful, ht]
    rw [hnext]
    exact carefulCmd_iff h hg (Config.request_eq ht) (h.replays.follows handler_follows ht).1 he
      (fun j => World.history_after _ _ _ _ _ _) (fun j => Config.request_set ht _ _ j)
  · exact carefulTick_iff h hg hs

end Moves

/-- In a run no request that returns an error leaves a visible story, and no `contacts_except`
story can be shown to a listed user, exactly if every move is careful. -/
theorem never_exposed_iff (users : AList (fun _ : Uuid => UserRow)) (acts : List StoryAct) :
    storyServer.Every Careful acts (System.start (.empty users)) ↔
      ∀ c ∈ storyServer.trace acts (System.start (.empty users)),
        NothingLeft c ∧ NeverShown c := by
  have hstart : Guarded (System.start (.empty users) : StoryConfig) := by
    refine ⟨fun i s hf => ?_, fun i authId u s hun => ?_⟩
    · obtain ⟨e, he, -⟩ := hf
      exact absurd he List.not_mem_nil
    · obtain ⟨e, he, -⟩ := hun.created
      exact absurd he List.not_mem_nil
  have hiff := System.every_iff_forall (S := storyServer) (P := Careful) (G := Guarded)
    (J := storyServer.Reach (fun _ _ => True) (System.start (.empty users)))
    (fun hc ha => hc.tail trivial ha) (fun hc hg ha => careful_iff hc hg ha) acts .refl hstart
  rw [hiff]
  refine forall₂_congr fun c hmem => ?_
  exact guarded_iff (System.reach_of_mem_trace (System.every_of_forall (fun _ _ => trivial) acts _)
    hmem)

def carol : Uuid := .ofNat 3

/-- Alice, who has Bob as a contact, shares a story that Bob must not see and lists a user who
does not exist as well. -/
def hideFromBob : List StoryAct :=
  [.tick ⟨.nil, none, false, .contacts [(alice, some bob)]⟩,
    .spawn (alice, .createStory ⟨"url", "image", none, "contacts_except", some [carol, bob]⟩),
    .step 0 (choose 10), .step 0 (choose 11)]

theorem bob_shown_hidden_story :
    ∃ c ∈ storyServer.trace hideFromBob (System.start (.empty twoUsers)),
      ¬ NothingLeft c ∧ ¬ NeverShown c := by
  let c := storyServer.run hideFromBob (System.start (.empty twoUsers))
  have hown : Created c 0 (.ofNat 10) := ⟨_, List.mem_cons_self, rfl⟩
  have hview : c.db.canUserViewStory (.ofNat 10) bob := by decide +kernel
  refine ⟨c, List.mem_of_getElem? (i := 4) rfl, fun hleft => ?_, fun hnever => ?_⟩
  · exact hleft 0 alice _ _ rfl (.ofNat 10) hown bob (.inr (.inl hview))
  · exact (hnever 0 alice _ rfl rfl (.ofNat 10) hown bob (by decide)).2 hview

end Mesty.Stories.Exposure
