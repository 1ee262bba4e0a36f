import Mesty.Chats.Effects
import Mesty.Chats.Erasure
import Mesty.Refinement.LastWrite

namespace Mesty.Chats.Settings

open Mesty.Base.Ids Mesty.Base.Error Mesty.Concurrency.Program Mesty.Concurrency.Pool
open Mesty.Refinement.LastWrite
open Mesty.Chats.Entities Mesty.Chats.Repository Mesty.Chats.Store Mesty.Chats.Handlers
open Mesty.Chats.Effects (wp_ask wp_verifyParticipant lookup_of_memberOfLiveChat)
open Mesty.Chats.Erasure (ChatConfig alice bob theChat choose)
open StoreTask

/-- `ChatSettings::default()` -/
def defaults : ChatSettings := ⟨false, none, false, 0, false⟩

/-- The column can hold the instant that the update supplies. -/
def Fits (u : UpdateChatSettings) : Prop := ∀ t ∈ u.mutedUntil, t.InRange

instance : DecidablePred Fits := fun u => inferInstanceAs (Decidable (∀ t ∈ u.mutedUntil, _))

/-- The settings after an update that fits. -/
def overlay (s : ChatSettings) (u : UpdateChatSettings) : ChatSettings :=
  ⟨u.isMuted.getD s.isMuted, (u.mutedUntil.map Instant.bound).or s.mutedUntil,
    u.isPinned.getD s.isPinned, u.pinOrder.getD s.pinOrder, u.isArchived.getD s.isArchived⟩

/-- One update that supplies what `v` supplies, and else what `u` does. -/
def laidOver (v u : UpdateChatSettings) : UpdateChatSettings :=
  ⟨v.isMuted.or u.isMuted, v.mutedUntil.or u.mutedUntil, v.isPinned.or u.isPinned,
    v.pinOrder.or u.pinOrder, v.isArchived.or u.isArchived⟩

/-- Each field of `t` is what the latest update has supplied for it, as the column holds it, or that
of `s`. -/
structure Merged (s : ChatSettings) (us : List UpdateChatSettings) (t : ChatSettings) : Prop where
  isMuted : t.isMuted = latest s.isMuted (us.map UpdateChatSettings.isMuted)
  mutedUntil : t.mutedUntil =
    latest s.mutedUntil (us.map (fun u => u.mutedUntil.map (fun t => some t.bound)))
  isPinned : t.isPinned = latest s.isPinned (us.map UpdateChatSettings.isPinned)
  pinOrder : t.pinOrder = latest s.pinOrder (us.map UpdateChatSettings.pinOrder)
  isArchived : t.isArchived = latest s.isArchived (us.map UpdateChatSettings.isArchived)

section Overlay

variable {s : ChatSettings} {u v : UpdateChatSettings}

theorem overlay_laidOver : overlay s (laidOver v u) = overlay (overlay s u) v := by
  simp only [overlay, laidOver, Option.map_or, Option.or_assoc, Option.getD_or]

theorem fits_laidOver (hu : Fits u) (hv : Fits v) : Fits (laidOver v u) := by
  intro t ht
  obtain hv' | ⟨-, hu'⟩ := Option.or_eq_some_iff.mp ht
  · exact hv t hv'
  · exact hu t hu'

/-- A nullable field is kept by `or` just as the others are by `getD`. -/
theorem or_eq_getD {α : Type} (o o' : Option α) : o.or o' = (o.map some).getD o' := by
  cases o <;> rfl

theorem merged_foldl (us : List UpdateChatSettings) : Merged s us (us.foldl overlay s) := by
  induction us generalizing s with
  | nil => exact ⟨rfl, rfl, rfl, rfl, rfl⟩
  | cons u us ih =>
    obtain ⟨hmuted, huntil, hpinned, horder, harchived⟩ := ih (s := overlay s u)
    refine ⟨hmuted, huntil.trans ?_, hpinned, horder, harchived⟩
    rw [overlay, or_eq_getD, Option.map_map]
    rfl

end Overlay

/-- The repository function. -/
def updateChatSettings (userId chatId : Uuid) (settings : UpdateChatSettings) :
    StoreTask ChatSettings := do
  attempt (Prog.cmd (StoreCmd.upsertChatSettings userId chatId settings))
  okOr (← ask (.getChatSettings userId chatId)) (.notFound "chat settings not found")

/-- The handler calls the repository. -/
theorem handler_eq {userId chatId : Uuid} {u : UpdateChatSettings} :
    Handlers.updateChatSettings userId chatId u = (do
      verifyParticipant userId chatId
      let settings ← updateChatSettings userId chatId u
      return ⟨200, .settings settings⟩) := by
  rw [Handlers.updateChatSettings, updateChatSettings]
  simp only [bind_assoc]

section Tables

variable (userId chatId : Uuid) (db : ChatStore)

/-- The settings that count before a request: those of the row, or the defaults. -/
def before : ChatSettings := (db.settings.lookup (userId, chatId)).getD defaults

def stored (s : ChatSettings) : ChatStore :=
  { db with settings := db.settings.insert (userId, chatId) s }

/-- The rows that the table refers to are there. -/
def Known : Prop := chatId ∈ db.chats ∧ userId ∈ db.users

/-- The user takes part in the chat, too. -/
def Takes : Prop := (db.memberOfLiveChat userId chatId).isSome ∧ userId ∈ db.users

end Tables

section Sequences

variable {α : Type} (userId chatId : Uuid) (accepts : ChatStore → Prop) (reply : ChatSettings → α)
  (request : UpdateChatSettings → StoreTask α)

/-- The answer to the last of several requests that are made one after another. -/
def lastOf (us : List UpdateChatSettings) (u : UpdateChatSettings) :
    Prog StoreCmd StoreCmd.Ans (Except DomainError α) := do
  us.forM (fun v => do
    let _ ← (request v).run)
  (request u).run

/-- The effect of the requests, whether there has been a row or not. Those that do not fit
are refused. -/
structure Outcome (db : ChatStore) (us : List UpdateChatSettings) (u : UpdateChatSettings)
    (out : Except DomainError α) (db' : ChatStore) : Prop where
  merged : accepts db → Fits u → ∃ s, Merged (before userId chatId db) (us.filter Fits ++ [u]) s ∧
    out = .ok (reply s) ∧ db' = stored userId chatId db s
  unfit : accepts db → ¬ Fits u → (∃ e, out = .error e) ∧
    Merged (before userId chatId db) (us.filter Fits) (before userId chatId db') ∧
      ∀ s, stored userId chatId db' s = stored userId chatId db s
  refused : ¬ accepts db → (∃ e, out = .error e) ∧ db' = db

/-- Requests come to their end and merge, and one request does what two in a row do. -/
def MergeLaw : Prop := ∀ (db : ChatStore) (us : List UpdateChatSettings) (u v : UpdateChatSettings),
  (∀ ω, ((lastOf request us u).complete (ChatStore.exec ω) db).isSome) ∧
  (lastOf request us u).wp ChatStore.exec (Outcome userId chatId accepts reply db us u) db ∧
  (Fits u → Fits v → (lastOf request [u] v).wp ChatStore.exec (fun out db₂ =>
    (request (laidOver v u)).run.wp ChatStore.exec (fun out' db₁ => out = out' ∧ db₂ = db₁) db) db)

/-- What one request does. -/
structure Upserts : Prop where
  merges : ∀ {db u}, accepts db → Fits u → (request u).run.wp ChatStore.exec (fun out db' =>
    out = .ok (reply (overlay (before userId chatId db) u)) ∧
      db' = stored userId chatId db (overlay (before userId chatId db) u)) db
  refuses : ∀ {db}, ¬ accepts db → ∃ e, ∀ u, Fits u → (request u).run.wp ChatStore.exec
    (fun out db' => out = .error e ∧ db' = db) db
  unfit : ∀ {db u}, ¬ Fits u → (request u).run.wp ChatStore.exec
    (fun out db' => (∃ e, out = .error e) ∧ db' = db) db
  keeps : ∀ {db s}, accepts db → accepts (stored userId chatId db s)
  answered : ∀ ω u, (request u).run.Issues (fun c => ∀ db, (ChatStore.exec ω c db).isSome)

variable {userId chatId accepts reply request} {db : ChatStore}

theorem before_stored {s : ChatSettings} : before userId chatId (stored userId chatId db s) = s := by
  rw [before, stored, AList.lookup_insert, Option.getD_some]

theorem stored_stored {s t : ChatSettings} :
    stored userId chatId (stored userId chatId db s) t = stored userId chatId db t := by
  rw [stored, stored, stored, AList.insert_insert]

/-- Several requests merge, and what they have stored is overwritten by the next one. -/
theorem Upserts.forM (h : Upserts userId chatId accepts reply request) (hdb : accepts db)
    (us : List UpdateChatSettings) :
    (us.forM (fun v => do
      let _ ← (request v).run)).wp ChatStore.exec (fun _ db' => accepts db' ∧
        before userId chatId db' = (us.filter Fits).foldl overlay (before userId chatId db) ∧
        ∀ s, stored userId chatId db' s = stored userId chatId db s) db := by
  induction us generalizing db with
  | nil => exact ⟨hdb, rfl, fun _ => rfl⟩
  | cons u us ih =>
    by_cases hfits : Fits u
    · refine Prog.wp_bind.mpr (Prog.wp_bind.mpr ((h.merges hdb hfits).mono ?_))
      rintro _ _ ⟨-, rfl⟩
      refine (ih (h.keeps hdb)).mono fun _ db' ⟨haccepts, hbefore, hstored⟩ => ⟨haccepts, ?_, fun s => ?_⟩
      · rw [hbefore, before_stored, List.filter_cons, if_pos (decide_eq_true hfits), List.foldl_cons]
      · rw [hstored, stored_stored]
    · refine Prog.wp_bind.mpr (Prog.wp_bind.mpr ((h.unfit hfits).mono ?_))
      rintro _ _ ⟨-, rfl⟩
      refine (ih hdb).mono fun _ db' ⟨haccepts, hbefore, hstored⟩ => ⟨haccepts, ?_, hstored⟩
      rw [hbefore, List.filter_cons, if_neg (fun h => hfits (of_decide_eq_true h))]

theorem Upserts.forM_refused (h : Upserts userId chatId accepts reply request) (hdb : ¬ accepts db)
    (us : List UpdateChatSettings) :
    (us.forM (fun v => do
      let _ ← (request v).run)).wp ChatStore.exec (fun _ db' => db' = db) db := by
  induction us with
  | nil => rfl
  | cons u us ih =>
    by_cases hfits : Fits u
    · obtain ⟨e, he⟩ := h.refuses hdb
      refine Prog.wp_bind.mpr (Prog.wp_bind.mpr ((he u hfits).mono ?_))
      rintro _ _ ⟨-, rfl⟩
      exact ih
    · refine Prog.wp_bind.mpr (Prog.wp_bind.mpr ((h.unfit hfits).mono ?_))
      rintro _ _ ⟨-, rfl⟩
      exact ih

theorem Upserts.outcome (h : Upserts userId chatId accepts reply request)
    (us : List UpdateChatSettings) (u : UpdateChatSettings) :
    (lastOf request us u).wp ChatStore.exec (Outcome userId chatId accepts reply db us u) db := by
  rw [lastOf, Prog.wp_bind]
  by_cases hdb : accepts db
  · refine (h.forM hdb us).mono fun _ db₁ ⟨haccepts, hbefore, hstored⟩ => ?_
    by_cases hfits : Fits u
    · refine (h.merges haccepts hfits).mono ?_
      rintro _ _ ⟨rfl, rfl⟩
      have hmerged : overlay (before userId chatId db₁) u =
          (us.filter Fits ++ [u]).foldl overlay (before userId chatId db) := by
        rw [hbefore, List.foldl_append, List.foldl_cons, List.foldl_nil]
      refine ⟨fun _ _ => ⟨_, merged_foldl (us.filter Fits ++ [u]), ?_, ?_⟩,
        fun _ hno => absurd hfits hno, fun hno => absurd hdb hno⟩
      · rw [hmerged]
      · rw [hstored, hmerged]
    · refine (h.unfit hfits).mono ?_
      rintro _ _ ⟨herror, rfl⟩
      refine ⟨fun _ hyes => absurd hyes hfits, fun _ _ => ⟨herror, ?_, hstored⟩,
        fun hno => absurd hdb hno⟩
      rw [hbefore]
      exact merged_foldl _
  · have hrefused : (request u).run.wp ChatStore.exec
        (fun out db' => (∃ e, out = .error e) ∧ db' = db) db := by
      by_cases hfits : Fits u
      · obtain ⟨e, he⟩ := h.refuses hdb
        exact (he u hfits).mono fun out db' ⟨hout, hdb'⟩ => ⟨⟨e, hout⟩, hdb'⟩
      · exact h.unfit hfits
    refine (h.forM_refused hdb us).mono ?_
    rintro _ _ rfl
    exact hrefused.mono fun out db' hout =>
      ⟨fun hyes => absurd hyes hdb, fun hyes => absurd hyes hdb, fun _ => hout⟩

/-- Both leave the same row and the same answer. -/
theorem Upserts.laidOver (h : Upserts userId chatId accepts reply request)
    {u v : UpdateChatSettings} (hu : Fits u) (hv : Fits v) :
    (lastOf request [u] v).wp ChatStore.exec (fun out db₂ =>
      (request (laidOver v u)).run.wp ChatStore.exec (fun out' db₁ => out = out' ∧ db₂ = db₁) db)
      db := by
  rw [lastOf, Prog.wp_bind]
  by_cases hdb : accepts db
  · refine (h.forM hdb [u]).mono fun _ db₁ ⟨haccepts, hbefore, hstored⟩ => ?_
    refine (h.merges haccepts hv).mono ?_
    rintro _ _ ⟨rfl, rfl⟩
    refine (h.merges hdb (fits_laidOver hu hv)).mono ?_
    rintro _ _ ⟨rfl, rfl⟩
    rw [hstored, hbefore, List.filter_cons, if_pos (decide_eq_true hu), overlay_laidOver]
    exact ⟨rfl, rfl⟩
  · refine (h.forM_refused hdb [u]).mono ?_
    rintro _ _ rfl
    obtain ⟨e, he⟩ := h.refuses hdb
    refine (he v hv).mono ?_
    rintro _ _ ⟨rfl, rfl⟩
    exact (he _ (fits_laidOver hu hv)).mono fun out db' ⟨hout, hdb'⟩ => ⟨hout.symm, hdb'.symm⟩

theorem Upserts.mergeLaw (h : Upserts userId chatId accepts reply request) :
    MergeLaw userId chatId accepts reply request := by
  intro db us u v
  refine ⟨fun ω => Prog.isSome_complete (Prog.Issues.bind ?_ fun _ => h.answered ω u) db,
    h.outcome us u, h.laidOver⟩
  induction us with
  | nil => trivial
  | cons u us ih =>
    refine Prog.Issues.bind (Prog.Issues.bind (h.answered ω u) ?_) fun _ => ih
    exact fun _ => trivial

end Sequences

section Requests

variable {userId chatId : Uuid} {db : ChatStore} {u : UpdateChatSettings}

theorem fits_iff : Fits u ↔ ¬ ∃ t ∈ u.mutedUntil, ¬ t.InRange := by
  simp only [Fits, not_exists, not_and, not_not]

theorem upsertChatSettings_eq (h : Known userId chatId db) (hfits : Fits u) :
    db.upsertChatSettings userId chatId u =
      (.ok (), stored userId chatId db (overlay (before userId chatId db) u)) := by
  rw [ChatStore.upsertChatSettings, if_neg (fits_iff.mp hfits), if_neg (by simp [h.1, h.2]), before]
  cases db.settings.lookup (userId, chatId) with
  | none =>
    simp only [Option.getD_none, overlay, defaults, Option.or_none]
    rfl
  | some old => rfl

theorem upsertChatSettings_refused (h : ¬ Known userId chatId db) (hfits : Fits u) :
    db.upsertChatSettings userId chatId u = (.error (.fromSqlx .foreignKeyViolation), db) := by
  rw [ChatStore.upsertChatSettings, if_neg (fits_iff.mp hfits),
    if_pos (by rwa [Known, not_and_or] at h)]

theorem upsertChatSettings_unfit (hfits : ¬ Fits u) :
    db.upsertChatSettings userId chatId u = (.error (.fromSqlx .other), db) := by
  rw [ChatStore.upsertChatSettings, if_pos (by rwa [fits_iff, not_not] at hfits)]

theorem upserts_updateChatSettings :
    Upserts userId chatId (Known userId chatId) id (updateChatSettings userId chatId) where
  merges {db u} hknown hfits := by
    rintro ω _ db₁ he
    obtain ⟨rfl, rfl⟩ :=
      Prod.mk.inj ((upsertChatSettings_eq hknown hfits).symm.trans (Option.some.inj he))
    refine wp_ask.mpr ?_
    rintro ω _ _ ⟨⟩
    have hrow : (stored userId chatId db (overlay (before userId chatId db) u)).settings.lookup
        (userId, chatId) = some (overlay (before userId chatId db) u) := AList.lookup_insert _
    rw [hrow]
    exact ⟨rfl, rfl⟩
  refuses {db} hunknown := by
    refine ⟨.fromSqlx .foreignKeyViolation, fun u hfits => ?_⟩
    rintro ω _ db₁ he
    obtain ⟨rfl, rfl⟩ :=
      Prod.mk.inj ((upsertChatSettings_refused hunknown hfits).symm.trans (Option.some.inj he))
    exact ⟨rfl, rfl⟩
  unfit {db u} hfits := by
    rintro ω _ db₁ he
    obtain ⟨rfl, rfl⟩ := Prod.mk.inj ((upsertChatSettings_unfit hfits).symm.trans (Option.some.inj he))
    exact ⟨⟨_, rfl⟩, rfl⟩
  keeps h := h
  answered ω u := by
    refine ⟨fun db => rfl, fun out => ?_⟩
    cases out with
    | error e => trivial
    | ok _ =>
      refine ⟨fun db => rfl, fun row => ?_⟩
      cases row <;> trivial

/-- The check of the handler is one more reason to refuse. -/
theorem upserts_handler :
    Upserts userId chatId (Takes userId chatId) (fun s => ⟨200, .settings s⟩)
      (Handlers.updateChatSettings userId chatId) where
  merges {db u} htakes hfits := by
    obtain ⟨row, hrow⟩ := Option.isSome_iff_exists.mp htakes.1
    have hchat : chatId ∈ db.chats :=
      AList.lookup_isSome.mp (Option.isSome_of_eq_some (lookup_of_memberOfLiveChat hrow))
    have hknown : Known userId chatId db := ⟨hchat, htakes.2⟩
    rw [handler_eq, wp_verifyParticipant]
    refine ⟨fun hnone => ?_, fun _ _ => ?_⟩
    · cases hnone ▸ htakes.1
    rw [Prog.wp_run_bind]
    refine (upserts_updateChatSettings.merges hknown hfits).mono ?_
    rintro _ _ ⟨rfl, rfl⟩
    exact ⟨rfl, rfl⟩
  refuses {db} hrefused := by
    by_cases hmember : (db.memberOfLiveChat userId chatId).isSome
    · have hunknown : ¬ Known userId chatId db := fun hknown => hrefused ⟨hmember, hknown.2⟩
      obtain ⟨e, he⟩ := upserts_updateChatSettings.refuses hunknown
      refine ⟨e, fun u hfits => ?_⟩
      rw [handler_eq, wp_verifyParticipant]
      refine ⟨fun hnone => ?_, fun _ _ => ?_⟩
      · cases hnone ▸ hmember
      rw [Prog.wp_run_bind]
      refine (he u hfits).mono ?_
      rintro _ _ ⟨rfl, rfl⟩
      exact ⟨rfl, rfl⟩
    · refine ⟨ChatStore.notAParticipant, fun u _ => ?_⟩
      rw [handler_eq, wp_verifyParticipant]
      refine ⟨fun _ => ⟨rfl, rfl⟩, fun chat hchat => ?_⟩
      exact absurd (Option.isSome_of_eq_some hchat) hmember
  unfit {db u} hfits := by
    rw [handler_eq, wp_verifyParticipant]
    refine ⟨fun _ => ⟨⟨_, rfl⟩, rfl⟩, fun _ _ => ?_⟩
    rw [Prog.wp_run_bind]
    refine (upserts_updateChatSettings.unfit hfits).mono ?_
    rintro _ _ ⟨⟨e, rfl⟩, rfl⟩
    exact ⟨⟨e, rfl⟩, rfl⟩
  keeps h := h
  answered ω u := by
    rw [handler_eq]
    refine ⟨fun db => rfl, fun takesPart => ?_⟩
    cases takesPart with
    | false => trivial
    | true => exact (upserts_updateChatSettings.answered ω u).tryBind fun _ => trivial

end Requests

/-- For every user and chat, updates of the settings merge: after any sequence of them, from a
stored row or none, each field of the settings that the last one returns is what the latest update
that fits has supplied for it, or else what it was before (the default without a row), and two in
a row do what one does with the second laid over the first. So for the repository and for the
requests. An instant is stored in microseconds. -/
theorem settings_merge (userId chatId : Uuid) :
    MergeLaw userId chatId (Known userId chatId) id (updateChatSettings userId chatId) ∧
    MergeLaw userId chatId (Takes userId chatId) (fun s => ⟨200, .settings s⟩)
      (Handlers.updateChatSettings userId chatId) ∧
    (∀ t : Instant, (1000 * t.bound - t.nanos).natAbs < 1000) ∧
    ∀ t : Timestamp, (Instant.ofTimestamp t).bound = t :=
  ⟨upserts_updateChatSettings.mergeLaw, upserts_handler.mergeLaw, Instant.nanos_near_bound,
    Instant.bound_ofTimestamp⟩

/-- Alice has a chat with Bob. -/
def opened : ChatConfig := chatServer.run
  [.spawn (alice, .createPrivateChat bob), .step 0 (choose 10), .step 0 (choose 11)]
  (System.start (.empty [alice, bob]))

/-- She mutes it until 2026-01-01T00:00:00.123456789Z, and is told 2026-01-01T00:00:00.123456Z. -/
theorem nanoseconds_lost : ¬ ∀ (users : List Uuid) (d : ChatConfig),
    chatServer.Reach (fun _ _ => True) (System.start (.empty users)) d →
    ∀ userId chatId us u ωs s db', (lastOf (Handlers.updateChatSettings userId chatId) us u).alone
      ChatStore.exec ωs d.db = some (.ok ⟨200, .settings s⟩, db') →
        ∀ t ∈ u.mutedUntil, s.mutedUntil.map Instant.ofTimestamp = some t := by
  intro h
  have huntil := h _ opened (System.reach_run _ _) alice theChat []
    ⟨none, some ⟨1767225600123456789⟩, none, none, none⟩ [choose 12, choose 13, choose 14]
    ⟨false, some 1767225600123456, false, 0, false⟩ _ rfl _ rfl
  exact absurd huntil (by decide)

end Mesty.Chats.Settings
