import Mesty.Contacts.Book
import Mesty.Contacts.Links

namespace Mesty.Contacts.Identifiers

open Mesty.Base.Ids Mesty.Base.Error Mesty.Base.Text Mesty.Concurrency.Program
open Mesty.Concurrency.Pool
open Mesty.Auth.Services Mesty.Auth.Middleware Mesty.Auth.Repository
open Mesty.Contacts.Repository Mesty.Contacts.Book
open Mesty.Contacts.Handlers (ContactReq ContactResponse CreateContactRequest ContactTask
  createContact handleAuth)

abbrev BookStep := (c : BookCmd) × c.Ans

abbrev BookConfig :=
  Config BookCmd BookCmd.Ans ContactsDb BookReq (Except ApiError BookResponse)

/-- The identifier that a command has drawn. -/
def drawnBy : BookStep → Option Uuid
  | ⟨.contact (.auth c), ans⟩ => c.draws ans
  | _ => none

def draws (h : List BookStep) : List Uuid := h.filterMap drawnBy

/-- A contact is stored with the one identifier that its request has drawn. -/
def Writes (h : List BookStep) (c : BookCmd) : Prop :=
  ∀ id row, c = .contact (.insertContact id row) → draws h = [id]

/-- The contact of a response has the identifier that is drawn after that. -/
def Ends (h : List BookStep) (out : Except ApiError BookResponse) : Prop :=
  ∀ response, out = .ok (.response ⟨201, .contact response⟩) →
    ∃ id id', draws h = [id, id'] ∧ response.id = id'.toString

section Protocol

attribute [local irreducible] trim

variable {h : List BookStep}

theorem writes_of_ne {c : BookCmd} (hc : ∀ id row, c ≠ .contact (.insertContact id row)) :
    Writes h c := fun id row heq => absurd heq (hc id row)

/-- The commands of an auth request, among those of the contacts. -/
theorem auth_issues {α : Type} (p : AuthProg α) :
    (ContactTask.ofAuth p).Issues (fun c => ∃ c', c = .auth c') := by
  induction p with
  | ret a => trivial
  | call c k ih => exact ⟨⟨c, rfl⟩, ih⟩

theorem createContact_follows (ownerId : Uuid) (req : CreateContactRequest) :
    ((createContact ownerId req).run.embed BookCmd.contact (fun _ => id)).Follows Writes
      (fun h r => ∀ response, r = .ok ⟨201, .contact response⟩ →
        ∃ id id', draws h = [id, id'] ∧ response.id = id'.toString) [] := by
  rw [createContact]
  split_ifs with hformat
  · rintro response ⟨⟩
  · refine ⟨writes_of_ne (by rintro _ _ ⟨⟩), fun existing => ?_⟩
    obtain e | existing | existing := existing
    · rintro response ⟨⟩
    · refine ⟨writes_of_ne (by rintro _ _ ⟨⟩), fun contactId => ?_⟩
      refine ⟨writes_of_ne (by rintro _ _ ⟨⟩), fun id => ?_⟩
      refine ⟨writes_of_ne (by rintro _ _ ⟨⟩), fun now => ?_⟩
      refine ⟨?_, fun created => ?_⟩
      · rintro id' row ⟨⟩
        rfl
      · obtain e | u := created
        · rintro response ⟨⟩
        · refine ⟨writes_of_ne (by rintro _ _ ⟨⟩), fun id' => ?_⟩
          refine ⟨writes_of_ne (by rintro _ _ ⟨⟩), fun now' => ?_⟩
          intro response heq
          have hresponse :=
            Handlers.Body.contact.inj (Handlers.Response.mk.inj (Except.ok.inj heq)).2
          exact ⟨id, id', rfl, (congrArg ContactResponse.id hresponse).symm⟩
    · rintro response ⟨⟩

/-- An auth request stores no contact and shows none. -/
theorem handleAuth_follows (state : AuthState) (req : AuthReq) :
    ((handleAuth state req).run.embed BookCmd.contact (fun _ => id)).Follows Writes
      (fun h r => ∀ response, r = .ok ⟨201, .contact response⟩ →
        ∃ id id', draws h = [id, id'] ∧ response.id = id'.toString) h := by
  have hp : (handleAuth state req).run.Follows (fun _ c => ∃ c', c = .auth c')
      (fun _ r => ∀ response, r ≠ .ok ⟨201, .contact response⟩) [] := by
    refine Prog.follows_run_bind.mpr
      ((auth_issues (req.handle state).run).follows (fun _ _ hc => hc) fun _ r => ?_)
    cases r with
    | ok response =>
      intro shown heq
      cases (Handlers.Response.mk.inj (Except.ok.inj heq)).2
    | error e => rintro _ ⟨⟩
  refine hp.embed (fun c hc h => writes_of_ne ?_) fun r hr h response heq => absurd heq (hr response)
  obtain ⟨c', rfl⟩ := hc
  rintro id row ⟨⟩

theorem findOwned_issues (authId contactId : Uuid) : (findOwned authId contactId).run.Issues
    (fun c => ∀ id row, c ≠ .contact (.insertContact id row)) := by
  have hfind : (ExceptT.mk (Prog.cmd (BookCmd.findById contactId)) : BookTask _).run.Issues
      (fun c => ∀ id row, c ≠ .contact (.insertContact id row)) :=
    ⟨by rintro _ _ ⟨⟩, fun _ => trivial⟩
  refine hfind.tryBind fun found => ?_
  cases found with
  | none => trivial
  | some contact =>
    dsimp only
    split_ifs <;> trivial

/-- A request that goes on with a contact of its user does so with no commands behind it. -/
theorem findOwned_bind_follows {authId contactId : Uuid} {Q : List BookStep →
    Except DomainError BookResponse → Prop} {f : Contact → BookTask BookResponse}
    (hQ : ∀ h e, Q h (.error e)) (hf : ∀ h contact, (f contact).run.Follows Writes Q h) :
    (findOwned authId contactId >>= f).run.Follows Writes Q h := by
  refine Prog.follows_run_bind.mpr ((findOwned_issues authId contactId).follows
    (fun _ _ hc => writes_of_ne hc) fun h found => ?_)
  cases found with
  | error e => exact hQ h e
  | ok contact => exact hf h contact

theorem handler_follows (state : AuthState) (r : BookReq) :
    ((bookServer state).handler r).Follows Writes Ends [] := by
  cases r with
  | request req =>
    have hreq : ((Handlers.handle state req).run.embed BookCmd.contact (fun _ => id)).Follows Writes
        (fun h r => ∀ response, r = .ok ⟨201, .contact response⟩ →
          ∃ id id', draws h = [id, id'] ∧ response.id = id'.toString) [] := by
      cases req with
      | register clientIp req => exact handleAuth_follows state (.register clientIp req)
      | verifyPhone req => exact handleAuth_follows state (.verifyPhone req)
      | createContact ownerId req => exact createContact_follows ownerId req
    refine Prog.follows_run_bind.mpr (hreq.mono (fun _ _ hN => hN) fun h r hr => ?_)
    cases r with
    | ok response =>
      intro shown heq
      exact hr shown (congrArg _ (BookResponse.response.inj (Except.ok.inj heq)))
    | error e => rintro _ ⟨⟩
  | listContacts authId =>
    refine ⟨writes_of_ne (by rintro _ _ ⟨⟩), fun contacts => ?_⟩
    cases contacts <;> rintro _ ⟨⟩
  | updateContact authId contactId req =>
    refine findOwned_bind_follows (fun _ _ => by rintro _ ⟨⟩) fun h contact => ?_
    refine ⟨writes_of_ne (by rintro _ _ ⟨⟩), fun r => ?_⟩
    cases r <;> rintro _ ⟨⟩
  | deleteContact authId contactId =>
    refine findOwned_bind_follows (fun _ _ => by rintro _ ⟨⟩) fun h contact => ?_
    refine ⟨writes_of_ne (by rintro _ _ ⟨⟩), fun r => ?_⟩
    cases r <;> rintro _ ⟨⟩

end Protocol

/-- All that an executed command does to the identifiers. -/
structure Identifies (e : BookStep) (db db' : ContactsDb) : Prop where
  drawn : db'.drawn = (drawnBy e).toList ++ db.drawn
  fresh : ∀ id, drawnBy e = some id → id ∉ db.drawn
  contacts : ∀ id ∈ db'.contacts, id ∈ db.contacts ∨
    drawnBy e = none ∧ ∃ row, e.1 = .contact (.insertContact id row)

section Statements

variable {ω : BookEnv} {e : BookStep} {db db' : ContactsDb}

/-- A command that draws nothing and stores no contact. -/
theorem Identifies.of_subset (hnone : drawnBy e = none) (hdrawn : db'.drawn = db.drawn)
    (hsub : ∀ id ∈ db'.contacts, id ∈ db.contacts) : Identifies e db db' where
  drawn := by rw [hnone, hdrawn, Option.toList_none, List.nil_append]
  fresh id hid := by cases hnone.symm.trans hid
  contacts id hid := .inl (hsub id hid)

theorem identifies_insertContact {id : Uuid} {row : ContactRow} {ans}
    (he : (db.insertContact id row).2 = db') :
    Identifies ⟨.contact (.insertContact id row), ans⟩ db db' := by
  subst he
  rw [ContactsDb.insertContact]
  split
  · exact .of_subset rfl rfl fun _ hid => hid
  · split_ifs
    · exact .of_subset rfl rfl fun _ hid => hid
    · exact .of_subset rfl rfl fun _ hid => hid
    · refine ⟨rfl, by rintro _ ⟨⟩, fun id' hid => ?_⟩
      obtain rfl | hid := (AList.mem_insert _).mp hid
      · exact .inr ⟨rfl, row, rfl⟩
      · exact .inl hid

/-- The row that is updated stays under its identifier. -/
theorem identifies_updateContact {contact : Contact} {ans}
    (he : (BookDb.updateContact db contact).2 = db') :
    Identifies ⟨.updateContact contact, ans⟩ db db' := by
  subst he
  rw [BookDb.updateContact]
  split
  · exact .of_subset rfl rfl fun _ hid => hid
  · next row hrow =>
    split
    · exact .of_subset rfl rfl fun _ hid => hid
    · split_ifs
      · exact .of_subset rfl rfl fun _ hid => hid
      · exact .of_subset rfl rfl fun _ hid => hid
      · refine .of_subset rfl rfl fun id' hid => ?_
        obtain rfl | hid := (AList.mem_insert _).mp hid
        · exact AList.lookup_isSome.mp (Option.isSome_of_eq_some hrow)
        · exact hid

theorem identifies_of_exec (he : BookDb.exec ω e.1 db = some (e.2, db')) : Identifies e db db' := by
  obtain ⟨c, ans⟩ := e
  cases c with
  | contact c =>
    cases c with
    | auth c =>
      obtain ⟨⟨_, auth⟩, hauth, heq⟩ := Option.map_eq_some_iff.mp he
      obtain ⟨rfl, rfl⟩ := Prod.mk.inj heq
      exact ⟨(AuthDb.exec_drawn hauth).1, (AuthDb.exec_drawn hauth).2, fun _ hid => .inl hid⟩
    | insertContact id row =>
      exact identifies_insertContact (Prod.ext_iff.mp (Option.some.inj he)).2
    | findByOwnerAndPhone | findIdByPhone =>
      obtain ⟨-, rfl⟩ := Prod.ext_iff.mp (Option.some.inj he)
      exact .of_subset rfl rfl fun _ hid => hid
  | updateContact contact =>
    exact identifies_updateContact (Prod.ext_iff.mp (Option.some.inj he)).2
  | deleteContact id =>
    obtain ⟨-, rfl⟩ := Prod.ext_iff.mp (Option.some.inj he)
    exact .of_subset rfl rfl fun _ hid => (AList.mem_erase.mp hid).2
  | findAllByOwner | findById =>
    obtain ⟨-, rfl⟩ := Prod.ext_iff.mp (Option.some.inj he)
    exact .of_subset rfl rfl fun _ hid => hid

end Statements

theorem getElem?_append_toList {α : Type} {xs : List α} {o : Option α} {n : Nat} {a : α} :
    (xs ++ o.toList)[n]? = some a ↔ xs[n]? = some a ∨ n = xs.length ∧ o = some a := by
  cases o with
  | none => simp
  | some b =>
    rw [Option.toList_some, List.getElem?_append, Option.some.injEq]
    split_ifs with hlt
    · exact (or_iff_left fun h => absurd h.1 hlt.ne).symm
    · have hlast : n - xs.length = 0 ↔ n = xs.length := by omega
      rw [List.getElem?_singleton, List.getElem?_eq_none (not_lt.mp hlt)]
      simp only [hlast, reduceCtorEq, false_or]
      split_ifs with hn <;> simp [hn]

/-- No identifier is drawn twice, and no contact has the second one of a request. -/
structure Drawn (c : BookConfig) : Prop where
  drawn : ∀ i, ∀ id ∈ draws (c.history i), id ∈ c.db.drawn
  contacts : ∀ id ∈ c.db.contacts, id ∈ c.db.drawn
  unique : ∀ (i j m n : Nat) id, (draws (c.history i))[m]? = some id →
    (draws (c.history j))[n]? = some id → m = n
  unknown : ∀ i id, (draws (c.history i))[1]? = some id → id ∉ c.db.contacts

theorem Drawn.step {c d : BookConfig} {i : Nat} {ω : BookEnv} {e : BookStep} (hc : Drawn c)
    (hN : Writes (c.history i) e.1) (he : BookDb.exec ω e.1 c.db = some (e.2, d.db))
    (hhist : ∀ j, d.history j = c.history j ++ if i = j then [e] else []) : Drawn d := by
  obtain ⟨hdrawn, hfresh, hcontacts⟩ := identifies_of_exec he
  have hdraws : ∀ j, draws (d.history j) =
      draws (c.history j) ++ if i = j then (drawnBy e).toList else [] := by
    intro j
    rw [hhist, draws, List.filterMap_append, draws]
    split_ifs
    · cases h : drawnBy e <;> simp [h]
    · rfl
  have hplace : ∀ {j n : Nat} {id}, (draws (d.history j))[n]? = some id →
      (draws (c.history j))[n]? = some id ∨
        i = j ∧ n = (draws (c.history i)).length ∧ drawnBy e = some id := by
    intro j n id hget
    rw [hdraws] at hget
    split_ifs at hget with hij
    · subst hij
      exact (getElem?_append_toList.mp hget).imp_right fun h => ⟨rfl, h⟩
    · exact .inl (by rwa [List.append_nil] at hget)
  have hold : ∀ {j n : Nat} {id}, (draws (c.history j))[n]? = some id → drawnBy e ≠ some id :=
    fun hget hnew => hfresh _ hnew (hc.drawn _ _ (List.mem_of_getElem? hget))
  have hinserted : ∀ {id}, (∃ row, e.1 = .contact (.insertContact id row)) →
      (draws (c.history i))[0]? = some id := by
    rintro id ⟨row, heq⟩
    rw [hN id row heq]
    rfl
  refine ⟨fun j id hid => ?_, fun id hid => ?_, fun j k m n id hm hn => ?_, fun j id hget hid => ?_⟩
  · obtain ⟨n, hget⟩ := List.mem_iff_getElem?.mp hid
    rw [hdrawn]
    obtain hget | ⟨-, -, hnew⟩ := hplace hget
    · exact List.mem_append_right _ (hc.drawn j id (List.mem_of_getElem? hget))
    · exact List.mem_append_left _ (Option.mem_toList.mpr hnew)
  · rw [hdrawn]
    obtain hid | ⟨-, hinsert⟩ := hcontacts id hid
    · exact List.mem_append_right _ (hc.contacts id hid)
    · exact List.mem_append_right _ (hc.drawn i id (List.mem_of_getElem? (hinserted hinsert)))
  · obtain hm | ⟨rfl, rfl, hnew⟩ := hplace hm
    · obtain hn | ⟨-, -, hnew⟩ := hplace hn
      · exact hc.unique j k m n id hm hn
      · exact absurd hnew (hold hm)
    · obtain hn | ⟨-, rfl, -⟩ := hplace hn
      · exact absurd hnew (hold hn)
      · rfl
  · obtain hget | ⟨-, -, hnew⟩ := hplace hget
    · obtain hid | ⟨-, hinsert⟩ := hcontacts id hid
      · exact hc.unknown j id hget hid
      · exact absurd (hc.unique i j 0 1 id (hinserted hinsert) hget) (by decide)
    · obtain hid | ⟨hnone, -⟩ := hcontacts id hid
      · exact hfresh id hnew (hc.contacts id hid)
      · cases hnone.symm.trans hnew

theorem drawn_of_reach {state : AuthState} {P} {db : ContactsDb} {c : BookConfig}
    (hdrawn : ∀ id ∈ db.contacts, id ∈ db.drawn)
    (h : (bookServer state).Reach P (System.start db) c) : Drawn c := by
  refine h.preserves (J := Drawn) (handler_follows state) ?_
    (fun _ _ hc => ⟨hc.drawn, hc.contacts, hc.unique, hc.unknown⟩) ?_ ?_
  · exact ⟨fun i id hid => absurd hid List.not_mem_nil, hdrawn, by rintro i j m n id ⟨⟩,
      by rintro i id ⟨⟩⟩
  · intro c i ω r cmd k ans s _ hc _ _ hN he _
    exact hc.step (e := ⟨cmd, ans⟩) hN he fun j => World.history_after _ _ _ _ _ _
  · intro c ω s hc _ hs
    obtain rfl := Option.some.inj hs
    exact ⟨hc.drawn, hc.contacts, hc.unique, hc.unknown⟩

section Requests

variable (db : ContactsDb) (authId contactId : Uuid)

/-- The list of contacts has the one of the response. -/
def Lists (response : ContactResponse) : Prop :=
  (listContacts authId).run.wp BookDb.exec (fun out _ => ∃ contacts, out = .ok (.contacts contacts) ∧
    ∃ contact ∈ contacts, contact.id = response.id ∧ contact.phone = response.phone ∧
      contact.nickname = response.nickname ∧ contact.contactId = response.contactId) db

def Updates (req : UpdateContactRequest) : Prop :=
  (updateContact authId contactId req).run.wp BookDb.exec
    (fun out _ => ∃ contact, out = .ok (.updated contact)) db

def Deletes : Prop :=
  (deleteContact authId contactId).run.wp BookDb.exec (fun out _ => out = .ok .noContent) db

/-- The contact of a response can be used under its identifier. -/
structure Usable (response : ContactResponse) : Prop where
  stored : ∃ id ∈ db.contacts, response.id = id.toString
  listed : Lists db authId response
  updated : ∀ contactId req, response.id = contactId.toString → Updates db authId contactId req
  deleted : ∀ contactId, response.id = contactId.toString → Deletes db authId contactId

/-- No request finds a contact under the identifier. -/
structure Unknown : Prop where
  stored : contactId ∉ db.contacts
  listed : (listContacts authId).run.wp BookDb.exec (fun out _ => ∀ contacts,
    out = .ok (.contacts contacts) → ∀ contact ∈ contacts, contact.id ≠ contactId.toString) db
  updated : ∀ req, (updateContact authId contactId req).run.wp BookDb.exec
    (fun out _ => out = .error (.notFound "Contact not found")) db
  deleted : (deleteContact authId contactId).run.wp BookDb.exec
    (fun out _ => out = .error (.notFound "Contact not found")) db

end Requests

section Unknown

variable {db : ContactsDb} {authId contactId : Uuid}

theorem mem_of_mapM {α β ε : Type} {f : α → Except ε β} {xs : List α} {ys : List β}
    (h : xs.mapM f = .ok ys) : ∀ y ∈ ys, ∃ x ∈ xs, f x = .ok y := by
  induction xs generalizing ys with
  | nil =>
    obtain rfl := Except.ok.inj h
    exact fun y hy => absurd hy List.not_mem_nil
  | cons x xs ih =>
    rw [List.mapM_cons] at h
    cases hx : f x with
    | error e =>
      rw [hx] at h
      cases h
    | ok y =>
      rw [hx] at h
      cases hxs : xs.mapM f with
      | error e =>
        rw [hxs] at h
        cases h
      | ok zs =>
        rw [hxs] at h
        obtain rfl := Except.ok.inj h
        intro z hz
        obtain rfl | hz := List.mem_cons.mp hz
        · exact ⟨x, List.mem_cons_self, hx⟩
        · obtain ⟨x', hx', heq⟩ := ih hxs z hz
          exact ⟨x', List.mem_cons_of_mem x hx', heq⟩

theorem mapRecordToContact_id {id : Uuid} {rec : ContactRow} {contact : Contact}
    (h : mapRecordToContact id rec = .ok contact) : contact.id = id := by
  rw [mapRecordToContact] at h
  cases hphone : Auth.Entities.PhoneNumber.new rec.phone with
  | error e =>
    rw [hphone] at h
    cases h
  | ok phone =>
    rw [hphone] at h
    exact (congrArg Contact.id (Except.ok.inj h)).symm

/-- The contacts that are listed are stored. -/
theorem findAllByOwner_stored {ω : BookEnv} {contacts : List Contact}
    (h : BookDb.findAllByOwner db ω authId = .ok contacts) :
    ∀ contact ∈ contacts, contact.id ∈ db.contacts := by
  intro contact hmem
  obtain ⟨⟨id, row⟩, hrow, heq⟩ := mem_of_mapM h contact hmem
  have howned : ⟨id, row⟩ ∈ BookDb.ownedBy db authId := by
    split_ifs at hrow with hperm
    · exact hperm.mem_iff.mp hrow
    · exact hrow
  rw [mapRecordToContact_id heq]
  exact AList.mem_keys.mpr (List.mem_map_of_mem (List.mem_filter.mp howned).1)

theorem wp_findOwned {Q : Except DomainError BookResponse → ContactsDb → Prop}
    {f : Contact → BookTask BookResponse} (hid : contactId ∉ db.contacts)
    (h : Q (.error (.notFound "Contact not found")) db) :
    (findOwned authId contactId >>= f).run.wp BookDb.exec Q db := by
  have he : ∀ ω, BookDb.exec ω (.findById contactId) db = some (.ok none, db) := by
    intro ω
    rw [BookDb.exec, BookDb.findById, AList.lookup_eq_none.mpr hid]
  exact (Prog.wp_call_iff he).mpr fun _ => h

theorem unknown_of_notMem (hid : contactId ∉ db.contacts) : Unknown db authId contactId := by
  refine ⟨hid, ?_, fun req => wp_findOwned hid rfl, wp_findOwned hid rfl⟩
  intro ω found db' he
  obtain ⟨hfound, rfl⟩ := Prod.ext_iff.mp (Option.some.inj he)
  cases found with
  | error e => rintro _ ⟨⟩
  | ok contacts =>
    rintro shown heq contact hmem hcontact
    obtain rfl := BookResponse.contacts.inj (Except.ok.inj heq)
    obtain ⟨stored, hstored, rfl⟩ := List.mem_map.mp hmem
    exact hid (Uuid.toString_injective hcontact ▸ findAllByOwner_stored hfound stored hstored)

/-- The identifier of a created contact was not in the table when it was drawn, and will not
be there. -/
theorem exists_unknown {state : AuthState} {P} {db₀ : ContactsDb} {c : BookConfig}
    (hdrawn : ∀ id ∈ db₀.contacts, id ∈ db₀.drawn)
    (h : (bookServer state).Reach P (System.start db₀) c) {i : Nat} {req : BookReq}
    {response : ContactResponse}
    (ht : c.tasks[i]? = some (req, .ret (.ok (.response ⟨201, .contact response⟩)))) :
    ∃ id, response.id = id.toString ∧ id ∉ c.db.contacts := by
  have hends : Ends (c.history i) (.ok (.response ⟨201, .contact response⟩)) :=
    h.replays.follows (handler_follows state) ht
  obtain ⟨_, id, hdraws, hid⟩ := hends response rfl
  exact ⟨id, hid, (drawn_of_reach hdrawn h).unknown i id (by rw [hdraws]; rfl)⟩

theorem not_usable {response : ContactResponse} (hresponse : response.id = contactId.toString)
    (hid : contactId ∉ db.contacts) : ¬ Usable db authId response := by
  intro h
  obtain ⟨id, hstored, heq⟩ := h.stored
  exact hid (Uuid.toString_injective (heq.symm.trans hresponse) ▸ hstored)

end Unknown

/-- Whatever runs of requests come before or after, the contact that is shown to whoever has
created one is never found. -/
theorem created_never_found (state : AuthState) (db₀ : ContactsDb)
    (hdrawn : ∀ id ∈ db₀.contacts, id ∈ db₀.drawn) {P} {c : BookConfig}
    (h : (bookServer state).Reach P (System.start db₀) c) (i : Nat) (ownerId : Uuid)
    (req : CreateContactRequest) (response : ContactResponse)
    (ht : c.tasks[i]? = some (.request (.createContact ownerId req),
      .ret (.ok (.response ⟨201, .contact response⟩)))) :
    ¬ Usable c.db ownerId response ∧
      ∃ id, response.id = id.toString ∧ Unknown c.db ownerId id := by
  obtain ⟨id, hresponse, hid⟩ := exists_unknown hdrawn h ht
  exact ⟨not_usable hresponse hid, id, hresponse, unknown_of_notMem hid⟩

section Alice

open Mesty.Auth.Records (aliceId aliceUsers)
open Mesty.Contacts.Links (bobServer bobPhone)

def draw (n : Nat) : BookEnv := ⟨⟨⟨.ofNat n, 482913⟩, 0⟩, []⟩

/-- Alice adds the phone of Bob to her contacts. -/
def aliceAdds : List (Act BookReq BookEnv) :=
  [.spawn (.request (.createContact aliceId ⟨bobPhone, some "Bob"⟩)), .step 0 (draw 20),
    .step 0 (draw 20), .step 0 (draw 21), .step 0 (draw 22), .step 0 (draw 22), .step 0 (draw 22),
    .step 0 (draw 23)]

def aliceStart : ContactsDb := .init 1700000000000 aliceUsers ∅

def aliceAdded : BookConfig := (bookServer bobServer).run aliceAdds (System.start aliceStart)

def aliceShown : ContactResponse :=
  ⟨(Uuid.ofNat 22).toString, none, bobPhone, some "Bob", false, 1700000000000⟩

theorem alice_answered : aliceAdded.tasks[0]? =
    some (.request (.createContact aliceId ⟨bobPhone, some "Bob"⟩),
      .ret (.ok (.response ⟨201, .contact aliceShown⟩))) := rfl

theorem alice_never_found : ¬ Usable aliceAdded.db aliceId aliceShown ∧
    ∃ id, aliceShown.id = id.toString ∧ Unknown aliceAdded.db aliceId id :=
  created_never_found bobServer aliceStart (by rintro id ⟨⟩) (System.reach_run _ _) 0 aliceId
    ⟨bobPhone, some "Bob"⟩ aliceShown alice_answered

/-- Her contact is stored under another identifier than the one she is shown. -/
theorem alice_contact_unusable :
    (∃ response, aliceAdded.tasks[0]? =
      some (.request (.createContact aliceId ⟨bobPhone, some "Bob"⟩),
        .ret (.ok (.response ⟨201, .contact response⟩))) ∧
      ¬ Usable aliceAdded.db aliceId response) ∧
    ∃ row, aliceAdded.db.contacts.lookup (.ofNat 21) = some row ∧ row.ownerId = aliceId ∧
      row.phone = bobPhone := by
  refine ⟨⟨aliceShown, alice_answered, not_usable rfl ?_⟩, _, rfl, rfl, rfl⟩
  decide +kernel

end Alice

end Mesty.Contacts.Identifiers
