import Mesty.Stories.Protocol

namespace Mesty.Stories.Records

open Mesty.Base.Ids Mesty.Base.Error Mesty.Concurrency.Program Mesty.Concurrency.Pool
open Mesty.Stories.Repository Mesty.Stories.Handlers Mesty.Stories.Protocol
open Mesty.Stories.Protocol.CreateStoryRequest

abbrev StoryConfig := Config StoryCmd StoryCmd.Ans StoriesDb (Uuid × StoryReq)
  (Except ApiError StoryResponse)

abbrev StoryAct := Act (Uuid × StoryReq) StoryChoice

/-- All that an executed statement has done to the stories and their exceptions. -/
inductive Effect (db : StoriesDb) : StoryStep → StoriesDb → Prop where
  | created (storyId : Uuid) (row : StoryRow) (r : Answer Story)
    (hgiven : r.given = some (row.toStory storyId)) (hfresh : storyId ∉ db.stories)
    (huser : row.userId ∈ db.users) (hexpires : row.expiresAt = db.now + lifetime)
    (hdeleted : row.deletedAt = none) :
    Effect db ⟨.create row.userId row.contentUrl row.contentType row.caption row.privacy.asDbStr, r⟩
      { db with stories := db.stories.insert storyId row }
  | stored {storyId userId : Uuid} {isExcluded : Bool} (r : Answer Unit) (hgiven : r.given = some ())
    (href : db.refersTo storyId userId) :
    Effect db ⟨.addPrivacyException storyId userId isExcluded, r⟩
      { db with exceptions := db.exceptions.insert (storyId, userId) isExcluded }
  | deleted {storyId : Uuid} {row : StoryRow} (r : Answer Unit)
    (hrow : db.stories.lookup storyId = some row) :
    Effect db ⟨.delete storyId row.userId, r⟩ { db with
      stories := db.stories.insert storyId { row with deletedAt := some db.now } }
  | nothing {e : StoryStep} {views : AList (fun _ : Uuid × Uuid => ViewRow)}
    (hcreated : createdId e = none) (hstored : storedFor e = none) :
    Effect db e { db with views := views }

variable {ω : StoryChoice} {db db' : StoriesDb} {e : StoryStep}

theorem answer_effect (h : StoriesDb.answer ω e.1 db = some (e.2, db')) : Effect db e db' := by
  obtain ⟨c, r⟩ := e
  cases c with
  | create userId url type caption privacy =>
    simp only [StoriesDb.answer, StoriesDb.create] at h
    split at h
    · cases h
      exact .nothing rfl rfl
    · next p hp =>
      split_ifs at h with htexts huser hfresh <;> cases h
      · rw [← StoryPrivacy.asDbStr_of_fromDbStr hp]
        exact .created ω.uuid ⟨userId, url, type, caption, p, db.now, db.now + lifetime, none⟩ _ rfl
          hfresh huser rfl rfl
      · exact .nothing rfl rfl
      · exact .nothing rfl rfl
  | addPrivacyException storyId userId isExcluded =>
    simp only [StoriesDb.answer, StoriesDb.addPrivacyException] at h
    split_ifs at h with href <;> cases h
    · exact .stored _ rfl href
    · exact .nothing rfl rfl
  | delete id userId =>
    obtain ⟨rfl, rfl⟩ := Prod.mk.inj (Option.some.inj h)
    rw [StoriesDb.delete]
    split
    · exact .nothing rfl rfl
    · next row hrow =>
      split_ifs with hauthor
      · obtain rfl := hauthor
        exact .deleted _ hrow
      · exact .nothing rfl rfl
  | markViewed storyId viewerId =>
    obtain ⟨rfl, rfl⟩ := Prod.ext_iff.mp (Option.some.inj h)
    simp only [StoriesDb.markViewed]
    split_ifs <;> exact .nothing rfl rfl
  | addReaction storyId viewerId reaction =>
    obtain ⟨rfl, rfl⟩ := Prod.ext_iff.mp (Option.some.inj h)
    simp only [StoriesDb.addReaction]
    split_ifs <;> exact .nothing rfl rfl
  | _ =>
    obtain ⟨rfl, rfl⟩ := Prod.mk.inj (Option.some.inj h)
    exact .nothing rfl rfl

/-- Losing the answer undoes nothing. -/
theorem Effect.lose (h : Effect db e db') (err : SqlError) :
    Effect db ⟨e.1, StoriesDb.lose err e.1 e.2⟩ db' := by
  cases h with
  | created storyId row r hgiven hfresh huser hexpires hdeleted =>
    exact .created storyId row _ hgiven hfresh huser hexpires hdeleted
  | stored r hgiven href => exact .stored _ hgiven href
  | deleted r hrow => exact .deleted _ hrow
  | nothing hcreated hstored =>
    obtain ⟨c, r⟩ := e
    cases c with
    | create => exact .nothing hcreated rfl
    | addPrivacyException => exact .nothing rfl hstored
    | _ => exact .nothing rfl rfl

theorem exec_effect (h : StoriesDb.exec ω e.1 db = some (e.2, db')) : Effect db e db' := by
  obtain ⟨c, r⟩ := e
  change StoriesDb.exec ω c db = some (r, db') at h
  rw [StoriesDb.exec] at h
  split at h
  · exact answer_effect h
  · next f hfault =>
    split_ifs at h with hexecuted
    · obtain ⟨⟨a, s⟩, hanswer, heq⟩ := Option.map_eq_some_iff.mp h
      obtain ⟨rfl, rfl⟩ := Prod.mk.inj heq
      exact (answer_effect (e := ⟨c, a⟩) hanswer).lose f.error
    · cases c <;> cases h <;> exact .nothing rfl rfl

/-- Task `i` has created the story. -/
def Created (c : StoryConfig) (i : Nat) (storyId : Uuid) : Prop :=
  ∃ e ∈ c.history i, createdId e = some storyId

/-- The stories and the exceptions in the database are those of the requests. -/
structure Recorded (c : StoryConfig) : Prop where
  author : ∀ storyId row, c.db.stories.lookup storyId = some row → row.userId ∈ c.db.users
  created : ∀ i storyId, Created c i storyId → ∃ req row,
    c.request i = some (row.userId, .createStory req) ∧
      c.db.stories.lookup storyId = some row ∧ row.privacy.asDbStr = req.privacy
  unique : ∀ i j storyId, Created c i storyId → Created c j storyId → i = j
  exception : ∀ storyId userId b, c.db.exceptions.lookup (storyId, userId) = some b →
    ∃ i authId req, c.request i = some (authId, .createStory req) ∧ Created c i storyId ∧
      userId ∈ listed req ∧ b = isExcluded req
  stored : ∀ i storyId userId, (∃ e ∈ c.history i, storedFor e = some (storyId, userId)) →
    (c.db.exceptions.lookup (storyId, userId)).isSome

section Step

variable {c d : StoryConfig} {i : Nat} {r : Uuid × StoryReq}

/-- What a step adds to the history of the tasks. -/
theorem history_step {β : Type} {f : StoryStep → Option β} {b : β}
    (hhist : ∀ j, d.history j = c.history j ++ if i = j then [e] else []) {j : Nat} :
    (∃ e' ∈ d.history j, f e' = some b) ↔
      (∃ e' ∈ c.history j, f e' = some b) ∨ (i = j ∧ f e = some b) := by
  rw [hhist]
  by_cases hij : i = j
  · simp [hij, or_and_right, exists_or]
  · simp [hij]

theorem createdIn_stories (h : Recorded c) {storyId : Uuid} {j : Nat} (hj : Created c j storyId) :
    storyId ∈ c.db.stories := by
  obtain ⟨_, row, -, hrow, -⟩ := h.created j storyId hj
  exact AList.lookup_isSome.mp (by rw [hrow, Option.isSome_some])

/-- A statement that creates and stores nothing, and changes no author and no privacy. -/
theorem Recorded.same (h : Recorded c)
    (hhist : ∀ j, d.history j = c.history j ++ if i = j then [e] else [])
    (hreq : ∀ j, d.request j = c.request j) (hcreated : createdId e = none)
    (hstored : storedFor e = none) (husers : d.db.users = c.db.users)
    (hexceptions : d.db.exceptions = c.db.exceptions)
    (hold : ∀ s row, d.db.stories.lookup s = some row → ∃ row', c.db.stories.lookup s = some row' ∧
      row'.userId = row.userId)
    (hnew : ∀ s row, c.db.stories.lookup s = some row → ∃ row', d.db.stories.lookup s = some row' ∧
      row'.userId = row.userId ∧ row'.privacy = row.privacy) : Recorded d := by
  have hiff : ∀ j s, Created d j s ↔ Created c j s := by
    intro j s
    simp [Created, history_step hhist, hcreated]
  refine ⟨fun s row hrow => ?_, fun j s hj => ?_, fun j k s hj hk => ?_, fun s u b hb => ?_,
    fun j s u hj => ?_⟩
  · obtain ⟨row', hrow', heq⟩ := hold s row hrow
    rw [husers, ← heq]
    exact h.author s row' hrow'
  · obtain ⟨req, row, hr, hrow, hp⟩ := h.created j s ((hiff j s).mp hj)
    obtain ⟨row', hrow', hu, hp'⟩ := hnew s row hrow
    exact ⟨req, row', by rw [hreq, hu, hr], hrow', by rw [hp', hp]⟩
  · exact h.unique j k s ((hiff j s).mp hj) ((hiff k s).mp hk)
  · rw [hexceptions] at hb
    obtain ⟨j, authId, req, hr, hj, hrest⟩ := h.exception s u b hb
    exact ⟨j, authId, req, by rw [hreq, hr], (hiff j s).mpr hj, hrest⟩
  · rw [hexceptions]
    refine h.stored j s u ?_
    simpa [history_step hhist, hstored] using hj

/-- A statement that creates a story. -/
theorem Recorded.create (h : Recorded c) {storyId : Uuid} {row : StoryRow} {req : CreateStoryRequest}
    (hhist : ∀ j, d.history j = c.history j ++ if i = j then [e] else [])
    (hreq : ∀ j, d.request j = c.request j) (hr : c.request i = some (row.userId, .createStory req))
    (hprivacy : row.privacy.asDbStr = req.privacy) (hcreated : createdId e = some storyId)
    (hstored : storedFor e = none) (hfresh : storyId ∉ c.db.stories)
    (huser : row.userId ∈ c.db.users) (hd : d.db = { c.db with
      stories := c.db.stories.insert storyId row }) : Recorded d := by
  have hiff : ∀ j s, Created d j s ↔ Created c j s ∨ (i = j ∧ storyId = s) := by
    intro j s
    simp [Created, history_step hhist, hcreated]
  have hne : ∀ {j s}, Created c j s → s ≠ storyId := by
    rintro j s hj rfl
    exact hfresh (createdIn_stories h hj)
  refine ⟨fun s row' hrow => ?_, fun j s hj => ?_, fun j k s hj hk => ?_, fun s u b hb => ?_,
    fun j s u hj => ?_⟩
  · rw [hd] at hrow ⊢
    by_cases hs : s = storyId
    · subst hs
      rw [AList.lookup_insert] at hrow
      obtain rfl := Option.some.inj hrow
      exact huser
    · rw [AList.lookup_insert_ne hs] at hrow
      exact h.author s row' hrow
  · rw [hreq, hd]
    obtain hj | ⟨rfl, rfl⟩ := (hiff j s).mp hj
    · obtain ⟨req', row', hr', hrow', hp'⟩ := h.created j s hj
      exact ⟨req', row', hr', by rw [AList.lookup_insert_ne (hne hj), hrow'], hp'⟩
    · exact ⟨req, row, hr, AList.lookup_insert _, hprivacy⟩
  · obtain hj | ⟨rfl, hs⟩ := (hiff j s).mp hj
    · obtain hk | ⟨rfl, hs⟩ := (hiff k s).mp hk
      · exact h.unique j k s hj hk
      · exact absurd hs.symm (hne hj)
    · obtain hk | ⟨rfl, -⟩ := (hiff k s).mp hk
      · exact absurd hs.symm (hne hk)
      · rfl
  · rw [hd] at hb
    obtain ⟨j, authId, req', hr', hj, hrest⟩ := h.exception s u b hb
    exact ⟨j, authId, req', by rw [hreq, hr'], (hiff j s).mpr (.inl hj), hrest⟩
  · rw [hd]
    refine h.stored j s u ?_
    simpa [history_step hhist, hstored] using hj

/-- A statement that stores an exception. -/
theorem Recorded.store (h : Recorded c) {storyId userId authId : Uuid} {b : Bool}
    {req : CreateStoryRequest}
    (hhist : ∀ j, d.history j = c.history j ++ if i = j then [e] else [])
    (hreq : ∀ j, d.request j = c.request j) (hr : c.request i = some (authId, .createStory req))
    (hlisted : userId ∈ listed req) (hb : b = isExcluded req) (hown : Created c i storyId)
    (hcreated : createdId e = none) (hstored : storedFor e = some (storyId, userId))
    (hd : d.db = { c.db with
      exceptions := c.db.exceptions.insert (storyId, userId) b }) : Recorded d := by
  have hiff : ∀ j s, Created d j s ↔ Created c j s := by
    intro j s
    simp [Created, history_step hhist, hcreated]
  refine ⟨fun s row hrow => ?_, fun j s hj => ?_, fun j k s hj hk => ?_, fun s u b' hb' => ?_,
    fun j s u hj => ?_⟩
  · rw [hd] at hrow ⊢
    exact h.author s row hrow
  · rw [hreq, hd]
    exact h.created j s ((hiff j s).mp hj)
  · exact h.unique j k s ((hiff j s).mp hj) ((hiff k s).mp hk)
  · rw [hd] at hb'
    by_cases hkey : (s, u) = (storyId, userId)
    · rw [hkey, AList.lookup_insert] at hb'
      obtain ⟨rfl, rfl⟩ := Prod.mk.inj hkey
      obtain rfl := Option.some.inj hb'
      exact ⟨i, authId, req, by rw [hreq, hr], (hiff i s).mpr hown, hlisted, hb⟩
    · rw [AList.lookup_insert_ne hkey] at hb'
      obtain ⟨j, authId', req', hr', hj, hrest⟩ := h.exception s u b' hb'
      exact ⟨j, authId', req', by rw [hreq, hr'], (hiff j s).mpr hj, hrest⟩
  · rw [hd]
    by_cases hkey : (s, u) = (storyId, userId)
    · rw [hkey, AList.lookup_insert, Option.isSome_some]
    · rw [AList.lookup_insert_ne hkey]
      obtain hold | ⟨-, hnew⟩ := (history_step hhist).mp hj
      · exact h.stored j s u hold
      · exact absurd (Option.some.inj (hnew.symm.trans hstored)) hkey

theorem Recorded.step (h : Recorded c) (hr : c.request i = some r)
    (hN : Writes r (c.history i) e.1) (heff : Effect c.db e d.db)
    (hhist : ∀ j, d.history j = c.history j ++ if i = j then [e] else [])
    (hreq : ∀ j, d.request j = c.request j) : Recorded d := by
  generalize hdb : d.db = db at heff
  cases heff with
  | created storyId row r' hgiven hfresh huser =>
    have hcreated := congrArg (Option.map Story.id) hgiven
    obtain ⟨req, _, _, _, hkind, -, hcmd⟩ := creates_request hN hcreated
    obtain ⟨authId, _⟩ := r
    obtain rfl := hkind
    injection hcmd with hauthor _ _ _ hprivacy
    obtain rfl := hauthor
    exact h.create hhist hreq hr hprivacy hcreated rfl hfresh huser hdb
  | @stored storyId userId isExcluded r' hgiven href =>
    obtain ⟨req, hkind, hlisted, hb, hown⟩ := excepts_request hN
    obtain ⟨authId, _⟩ := r
    obtain rfl := hkind
    exact h.store hhist hreq hr hlisted hb hown rfl (congrArg (Option.map _) hgiven) hdb
  | @deleted storyId row r' hrow =>
    refine h.same hhist hreq rfl rfl (by rw [hdb]) (by rw [hdb]) ?_ ?_
    · intro s row' hrow'
      rw [hdb] at hrow'
      by_cases hs : s = storyId
      · subst hs
        rw [AList.lookup_insert] at hrow'
        obtain rfl := Option.some.inj hrow'
        exact ⟨row, hrow, rfl⟩
      · rw [AList.lookup_insert_ne hs] at hrow'
        exact ⟨row', hrow', rfl⟩
    · intro s row' hrow'
      rw [hdb]
      by_cases hs : s = storyId
      · subst hs
        obtain rfl := Option.some.inj (hrow.symm.trans hrow')
        exact ⟨_, AList.lookup_insert _, rfl, rfl⟩
      · exact ⟨row', by rw [AList.lookup_insert_ne hs, hrow'], rfl, rfl⟩
  | nothing hcreated hstored =>
    refine h.same hhist hreq hcreated hstored (by rw [hdb]) (by rw [hdb]) ?_ ?_
    · intro s row hrow
      rw [hdb] at hrow
      exact ⟨row, hrow, rfl⟩
    · intro s row hrow
      rw [hdb]
      exact ⟨row, hrow, rfl, rfl⟩

end Step

theorem recorded_of_reach {P : StoryConfig → StoryAct → Prop} {c : StoryConfig}
    {users : AList (fun _ : Uuid => UserRow)}
    (h : storyServer.Reach P (System.start (.empty users)) c) : Recorded c := by
  refine h.preserves (J := Recorded) handler_follows ?_ ?_ ?_ ?_
  · refine ⟨fun s row hrow => ?_, fun j s hj => ?_, fun j k s hj => ?_, fun s u b hb => ?_,
      fun j s u hj => ?_⟩
    · simp [System.start, StoriesDb.empty] at hrow
    · obtain ⟨e, he, -⟩ := hj
      exact absurd he List.not_mem_nil
    · obtain ⟨e, he, -⟩ := hj
      exact absurd he List.not_mem_nil
    · simp [System.start, StoriesDb.empty] at hb
    · obtain ⟨e, he, -⟩ := hj
      exact absurd he List.not_mem_nil
  · intro c r hreplays hc
    have hreq : ∀ {j r'}, c.request j = some r' →
        Config.request { c with tasks := c.tasks ++ [(r, storyServer.handler r)] } j = some r' := by
      intro j r' hj
      obtain ⟨t, ht, -⟩ := Option.map_eq_some_iff.mp hj
      rw [Config.request_spawn (List.getElem?_eq_some_iff.mp ht).1, hj]
    refine ⟨hc.author, fun j s hj => ?_, hc.unique, fun s u b hb => ?_, hc.stored⟩
    · obtain ⟨req, row, hr, hrest⟩ := hc.created j s hj
      exact ⟨req, row, hreq hr, hrest⟩
    · obtain ⟨j, authId, req, hr, hrest⟩ := hc.exception s u b hb
      exact ⟨j, authId, req, hreq hr, hrest⟩
  · intro c i ω r cmd k ans s hreplays hc hp ht hN he hreplays'
    exact hc.step (i := i) (e := ⟨cmd, ans⟩) (Config.request_eq ht) hN (exec_effect he)
      (fun j => World.history_after _ _ _ _ _ _) (fun j => Config.request_set ht _ _ j)
  · intro c ω s hc hp hs
    change StoriesDb.tick ω c.db = some s at hs
    rw [StoriesDb.tick] at hs
    split at hs
    · obtain rfl := Option.some.inj hs
      exact ⟨hc.author, hc.created, hc.unique, hc.exception, hc.stored⟩
    · obtain rfl := Option.some.inj hs
      refine ⟨fun s row hrow => ?_, hc.created, hc.unique, hc.exception, hc.stored⟩
      exact (AList.mem_insert _).mpr (.inr (hc.author s row hrow))
    · obtain rfl := Option.some.inj hs
      exact ⟨hc.author, hc.created, hc.unique, hc.exception, hc.stored⟩

end Mesty.Stories.Records
