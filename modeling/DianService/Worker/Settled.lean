import DianService.Application.Failures
import DianService.Application.Settling
import DianService.Memory.Atomic
import DianService.Worker.Steps

/-
  Worker: both stores serve a processing lawfully, `PgStore` with calls that may fail before or
  after they take effect. Nobody else writes meanwhile. So a processing that returns `Ok` leaves
  its job settled, in either store (`process_settles`).
-/

namespace DianService

open Lib Lib.Prog

/-- An id that is drawn satisfies `P`. -/
def Draws (P : Uuid → Prop) : (c : Call) → Reply c → Prop
  | .newUuid, id => P id
  | _, _ => True

/-! ## `PgStore` -/

def JobRow.state (j : JobRow) : JobState :=
  ⟨j.kind, j.document_id, j.status, j.attempts, j.max_attempts⟩

def pgStore : Repositories Db where
  document? := Db.document?
  job? db id := (db.job? id).map JobRow.state
  events := Db.dian_events
  answers db c r db' :=
    (∃ (w : World) (now : Time), w.apply db now c = (db', r)) ∧
      Draws (fun id => db.job? id = none) c r

section PgStore

variable {db db' : Db} {now : Time}

theorem Db.job?_updateJob (db : Db) (id : Uuid) {f : JobRow → JobRow} (hf : ∀ j, (f j).id = j.id) :
    (db.updateJob id f).job? id = (db.job? id).map f := by
  simpa [Db.job?] using find?_update_key db.jobs hf id

theorem Db.document?_updateDocument (db : Db) (id : Uuid) {f : Document → Document}
    (hf : ∀ d, (f d).id = d.id) :
    (db.updateDocument id f).document? id = (db.document? id).map f := by
  simpa [Db.document?] using find?_update_key db.documents hf id

/-- The call went through. -/
theorem World.apply_cases {w : World} {c : Call} {r : Reply c} (h : w.apply db now c = (db', r)) :
    db.respond now w.fresh c = none ∨ db.respond now w.fresh c = some (db', r) ∨
      ∃ e, c.failure e = some r := by
  unfold World.apply at h
  cases hresp : db.respond now w.fresh c with
  | none => exact .inl rfl
  | some result =>
      obtain ⟨db₁, r₁⟩ := result
      rw [hresp] at h
      have hsome : ∀ e, (c.failure e).isSome := failure_isSome (by rw [hresp]; rfl)
      have hfailed : ∀ message, (c.failure (.database message)).getD r₁ = r →
          ∃ e, c.failure e = some r := by
        intro message hr
        obtain ⟨r', hr'⟩ := Option.isSome_iff_exists.mp (hsome (.database message))
        rw [hr', Option.getD_some] at hr
        exact ⟨_, hr ▸ hr'⟩
      cases hfault : w.fault with
      | none =>
          rw [hfault] at h
          exact .inr (.inl (congrArg some h))
      | failed message =>
          rw [hfault] at h
          exact .inr (.inr (hfailed message (congrArg Prod.snd h)))
      | lost message =>
          rw [hfault] at h
          exact .inr (.inr (hfailed message (congrArg Prod.snd h)))

theorem pgStore_settles {id : Uuid} {f : JobRow → JobRow} {g : JobState → JobState}
    (hf : ∀ j, (f j).id = j.id) (hg : ∀ j, (f j).state = g j.state) :
    pgStore.Settles db (db.updateJob id f) id g where
  job j hj := by
    obtain ⟨row, hrow, rfl⟩ := Option.map_eq_some_iff.mp hj
    show ((db.updateJob id f).job? id).map JobRow.state = _
    rw [db.job?_updateJob id hf, hrow, Option.map_some, Option.map_some, hg]
  status _ := rfl
  events _ h := h

/-- What a call that changes no job, no status and no event keeps. -/
theorem pgStore_keeps_signed (db : Db) (id : Uuid) (cufe original_xml signed_xml : String) :
    pgStore.Keeps db (db.updateDocument id (Document.signed cufe original_xml signed_xml)) where
  job _ := rfl
  status k := by
    show (List.find? _ (db.documents.map _)).map Document.status = _
    rw [@find?_map_key Document Uuid Document.id _ _ _ fun d => by split <;> rfl, Option.map_map]
    refine congrArg (fun f => Option.map f (db.document? k)) (funext fun d => ?_)
    rw [Function.comp_apply]
    split <;> rfl
  events _ h := h

theorem pgStore_quiet {c : Call} {r : Reply c} (hc : c.isQuiet = true)
    (h : pgStore.answers db c r db') : pgStore.Keeps db db' := by
  obtain ⟨⟨w, now, happly⟩, -⟩ := h
  have heffect : Effect db c db' := by
    have hans := w.apply_answered db now c
    rw [happly] at hans
    exact hans.effect
  cases heffect with
  | same => exact .refl db
  | stored => exact pgStore_keeps_signed db _ _ _ _
  | _ => cases hc

/-- A reply of success comes from the store. -/
theorem pgStore_respond {c : Call} {r : Reply c} (h : pgStore.answers db c r db')
    (hport : ∀ now fresh, db.respond now fresh c ≠ none) (hok : ∀ e, c.failure e ≠ some r) :
    ∃ now fresh, db.respond now fresh c = some (db', r) := by
  obtain ⟨⟨w, now, happly⟩, -⟩ := h
  obtain hnone | hresp | ⟨e, he⟩ := World.apply_cases happly
  · exact absurd hnone (hport _ _)
  · exact ⟨now, w.fresh, hresp⟩
  · exact absurd he (hok e)

theorem closeJob_job? {outcome : JobOutcome} {row : JobRow}
    (h : db.job? outcome.settled.1 = some row) :
    ∃ row', (db.closeJob (some outcome)).job? outcome.settled.1 = some row' ∧
      row'.state = row.state.closed outcome.settled.2 := by
  cases outcome with
  | complete id =>
      refine ⟨row.completed, ?_, rfl⟩
      exact (db.job?_updateJob id (f := JobRow.completed) fun _ => rfl).trans
        (congrArg (Option.map _) h)
  | bury id error =>
      refine ⟨row.buried error, ?_, rfl⟩
      exact (db.job?_updateJob id (f := JobRow.buried error) fun _ => rfl).trans
        (congrArg (Option.map _) h)

theorem pgStore_applies {t : Transition} {d : Document} (h : db.Applied t d db') :
    pgStore.Applies db db' t where
  status := by
    have hid := (Db.document?_mem h.found).2
    show (List.find? _ db'.documents).map Document.status = _
    rw [h.documents, hid]
    have hmoved := db.document?_updateDocument t.document_id (f := Document.moved t.target)
      fun _ => rfl
    exact congrArg (Option.map Document.status) (hmoved.trans (congrArg (Option.map _) h.found))
  event e he := by
    show e ∈ db'.dian_events
    rw [h.dian_events, he]
    exact List.mem_append_right _ (List.mem_singleton_self e)
  job outcome houtcome j hj := by
    obtain ⟨row, hrow, rfl⟩ := Option.map_eq_some_iff.mp hj
    show (List.find? _ db'.jobs).map JobRow.state = _
    rw [h.jobs, houtcome, List.find?_append]
    show (((db.closeJob (some outcome)).job? outcome.settled.1).or _).map _ = _
    obtain ⟨row', hclosed, hstate⟩ := closeJob_job? hrow
    rw [hclosed, Option.some_or, Option.map_some, hstate]
  follow_up n hn := by
    have hnew : (db.closeJob t.job).jobs.find? (fun j => j.id = n.id) = none := by
      simpa using (h.follow_up n hn).1
    show (List.find? _ db'.jobs).map JobRow.state = _
    rw [h.jobs, hn, List.find?_append, hnew, Option.none_or]
    simp [NewJob.row, JobRow.state]

theorem committed_ok {result : Except DomainError Db} (h : db.committed result = (db', .ok ())) :
    result = .ok db' := by
  obtain ⟨db₁, hok, hc⟩ | ⟨e, hc⟩ := @committed_cases db result
  · rw [hc] at h
    cases h
    exact hok
  · rw [hc] at h
    cases h

theorem respond_transition {t : Transition} (now : Time) (fresh : Nat → Uuid) :
    db.respond now fresh (.applyTransition t) ≠ none := by
  simp only [Db.respond]
  split <;> exact Option.some_ne_none _

theorem pgStore_lawful : pgStore.Lawful where
  keyed s id d hd := (Db.document?_mem hd).2
  find s id found s' h := by
    obtain ⟨now, fresh, hresp⟩ := pgStore_respond h (fun _ _ hnone => by cases hnone)
      (fun e he => by cases he)
    cases hresp
    rfl
  quiet s c r s' hc h := pgStore_quiet hc h
  fresh s id s' h := by
    show (s.job? id).map _ = none
    rw [show s.job? id = none from h.2]
    rfl
  record s e s' h := by
    obtain ⟨now, fresh, hresp⟩ := pgStore_respond h (fun _ _ hnone => by cases hnone)
      (fun e he => by cases he)
    rw [Db.insertEvent_ok (committed_ok (Option.some.inj hresp))]
    exact ⟨⟨fun _ => rfl, fun _ => rfl, fun _ => List.mem_append_left _⟩,
      List.mem_append_right _ (List.mem_singleton_self e)⟩
  applied s t s' h _ := by
    obtain ⟨now, fresh, hresp⟩ := pgStore_respond h respond_transition (fun e he => by cases he)
    simp only [Db.respond] at hresp
    split at hresp
    · rename_i db' applied hok
      cases hresp
      obtain ⟨hb, -⟩ | ⟨-, d, hd⟩ := Db.applyTransition_ok hok
      · cases hb
      · exact pgStore_applies hd
    · cases hresp
  refused s t s' status h hstatus := by
    obtain ⟨now, fresh, hresp⟩ := pgStore_respond h respond_transition (fun e he => by cases he)
    simp only [Db.respond] at hresp
    split at hresp
    · rename_i db' applied hok
      cases hresp
      obtain ⟨d, hd, rfl⟩ := Option.map_eq_some_iff.mp hstatus
      obtain ⟨-, -, hnot⟩ | ⟨hb, -⟩ := Db.applyTransition_ok hok
      · exact hnot d hd
      · cases hb
    · cases hresp
  complete s id s' h := by
    obtain ⟨now, fresh, hresp⟩ := pgStore_respond h (fun _ _ hnone => by cases hnone)
      (fun e he => by cases he)
    cases hresp
    exact pgStore_settles (fun _ => rfl) fun _ => rfl
  retry s id run_at error s' h := by
    obtain ⟨now, fresh, hresp⟩ := pgStore_respond h (fun _ _ hnone => by cases hnone)
      (fun e he => by cases he)
    obtain ⟨rfl, -⟩ := Db.requeueJob_ok (committed_ok (Option.some.inj hresp))
    exact pgStore_settles (fun _ => rfl) fun _ => rfl
  release s id run_at s' h := by
    obtain ⟨now, fresh, hresp⟩ := pgStore_respond h (fun _ _ hnone => by cases hnone)
      (fun e he => by cases he)
    obtain ⟨rfl, -⟩ := Db.requeueJob_ok (committed_ok (Option.some.inj hresp))
    exact pgStore_settles (fun _ => rfl) fun _ => rfl
  bury s id error s' h := by
    obtain ⟨now, fresh, hresp⟩ := pgStore_respond h (fun _ _ hnone => by cases hnone)
      (fun e he => by cases he)
    cases hresp
    exact pgStore_settles (fun _ => rfl) fun _ => rfl

end PgStore

/-! ## `InMemoryStore` -/

namespace Memory

def StoredJob.state (j : StoredJob) : JobState :=
  ⟨j.kind, j.document_id, j.status, j.attempts, j.max_attempts⟩

/-- The end of an operation, as its caller sees it. -/
def ended {α : Type} : EStateM.Result DomainError State α → State × Except DomainError α
  | .ok a s => (s, .ok a)
  | .error e s => (s, .error e)

/-- The store's answer to a repository call, `none` for the other calls. -/
def State.respond (s : State) (now : Time) (fresh : Nat → Uuid) :
    (c : Call) → Option (State × Reply c)
  | .findDocument id => some (s, .ok (s.documents.get? id))
  | .findNumberingRange id => some (s, .ok (s.ranges.get? id))
  | .storeArtifacts id cufe original_xml signed_xml =>
      some (ended (storeArtifacts id cufe original_xml signed_xml s))
  | .recordEvent event => some (ended (recordEvent event s))
  | .applyTransition t => some (ended (applyTransition t now fresh s))
  | .complete job_id => some (ended (complete job_id s))
  | .retry job_id run_at error => some (ended (retry job_id run_at error s))
  | .release job_id run_at => some (ended (release job_id run_at s))
  | .bury job_id error => some (ended (bury job_id error s))
  | _ => none

def inMemoryStore : Repositories State where
  document? s id := s.documents.get? id
  job? s id := (s.jobs.get? id).map StoredJob.state
  events := State.events
  answers s c r s' :=
    (∃ now fresh, s.respond now fresh c = some (s', r) ∨ s.respond now fresh c = none ∧ s' = s) ∧
      Draws (fun id => s.jobs.get? id = none) c r

variable {s s' : State}

theorem ended_ok {α : Type} {result : EStateM.Result DomainError State α} {a : α}
    (h : ended result = (s', .ok a)) : result = .ok a s' := by
  cases result with
  | ok b t =>
      cases h
      rfl
  | error e t => cases h

/-- A job that was found has been changed. -/
theorem jobMut_ok {id : Uuid} {f : StoredJob → StoredJob} {hf : ∀ j, (f j).id = j.id}
    (h : jobMut id f hf s = .ok () s') : s' = { s with jobs := s.jobs.modify id f hf } := by
  rw [jobMut_run] at h
  split at h
  · cases h
  · cases h
    rfl

theorem settles_of_jobMut {id : Uuid} {f : StoredJob → StoredJob} {hf : ∀ j, (f j).id = j.id}
    {g : JobState → JobState} (hg : ∀ j, (f j).state = g j.state)
    (h : jobMut id f hf s = .ok () s') : inMemoryStore.Settles s s' id g := by
  rw [jobMut_ok h]
  refine ⟨fun j hj => ?_, fun _ => rfl, fun _ h => h⟩
  obtain ⟨row, hrow, rfl⟩ := Option.map_eq_some_iff.mp hj
  show ((s.jobs.modify id f hf).get? id).map StoredJob.state = _
  rw [Table.get?_modify, hrow, Option.map_some, Option.map_some, hg]

/-- What closing a job does to it. -/
theorem closeJob_ok {o : Option JobOutcome} (h : closeJob o s = .ok () s') :
    s'.documents = s.documents ∧ s'.events = s.events ∧
      (∀ id, s.jobs.get? id = none → s'.jobs.get? id = none) ∧
      ∀ outcome, o = some outcome → inMemoryStore.Settles s s' outcome.settled.1
        (JobState.closed outcome.settled.2) := by
  have hmut : ∀ id f hf, jobMut id f hf s = .ok () s' → s'.documents = s.documents ∧
      s'.events = s.events ∧ ∀ k, s.jobs.get? k = none → s'.jobs.get? k = none := by
    intro id f hf hrun
    rw [jobMut_ok hrun]
    refine ⟨rfl, rfl, fun k hk => ?_⟩
    by_cases hid : k = id
    · subst hid
      show (s.jobs.modify k f hf).get? k = none
      rw [Table.get?_modify, hk]
      rfl
    · exact (s.jobs.get?_modify_other f hf hid).trans hk
  cases o with
  | none =>
      cases h
      exact ⟨rfl, rfl, fun _ hk => hk, fun _ h => by cases h⟩
  | some outcome =>
      cases outcome with
      | complete id =>
          obtain ⟨hdocuments, hevents, hnone⟩ := hmut _ _ _ h
          refine ⟨hdocuments, hevents, hnone, fun _ houtcome => ?_⟩
          cases houtcome
          exact settles_of_jobMut (fun _ => rfl) h
      | bury id error =>
          obtain ⟨hdocuments, hevents, hnone⟩ := hmut _ _ _ h
          refine ⟨hdocuments, hevents, hnone, fun _ houtcome => ?_⟩
          cases houtcome
          exact settles_of_jobMut (fun _ => rfl) h

theorem insertJob_ok {job : NewJob} (h : insertJob job s = .ok () s') :
    s' = { s with jobs := s.jobs.insert (storedJob job) } := by
  rw [insertJob_run] at h
  split at h
  · cases h
  · cases h
    rfl

/-- A transition that went through. -/
theorem applyTransition_ok {t : Transition} {now : Time} {fresh : Nat → Uuid} {b : Bool}
    (h : applyTransition t now fresh s = .ok b s') :
    ∃ d, s.documents.get? t.document_id = some d ∧
      (b = false ∧ d.status.canTransitionTo t.target = false ∨
        b = true ∧ ∃ s₁, closeJob t.job (s.moved d t now fresh) = .ok () s₁ ∧
          insertJob? t.follow_up s₁ = .ok () s') := by
  cases hd : s.documents.get? t.document_id with
  | none =>
      unfold applyTransition at h
      rw [get_bind_run, hd] at h
      cases h
  | some d =>
      refine ⟨d, rfl, ?_⟩
      by_cases hallowed : d.status.canTransitionTo t.target = true
      · rw [applyTransition_run now fresh hd hallowed] at h
        cases hclose : closeJob t.job (s.moved d t now fresh) with
        | error e s₁ =>
            rw [bind_error hclose] at h
            cases h
        | ok u s₁ =>
            rw [bind_ok hclose] at h
            cases hinsert : insertJob? t.follow_up s₁ with
            | error e s₂ =>
                rw [bind_error hinsert] at h
                cases h
            | ok u s₂ =>
                rw [bind_ok hinsert] at h
                cases h
                exact .inr ⟨rfl, s₁, rfl, hinsert⟩
      · rw [Bool.not_eq_true] at hallowed
        unfold applyTransition at h
        rw [get_bind_run, hd] at h
        simp only [hallowed, Bool.not_false, if_true] at h
        cases h
        exact .inl ⟨rfl, hallowed⟩

theorem moved_document (d : Document) (t : Transition) (now : Time) (fresh : Nat → Uuid) :
    (s.moved d t now fresh).documents.get? d.id =
      (s.documents.get? d.id).map (Document.moved t.target) :=
  (congrArg (fun table => Table.get? table d.id) (moved_documents d t now fresh)).trans
    (Table.get?_modify _ _ _ _)

theorem inMemoryStore_applies {t : Transition} {d : Document} {now : Time} {fresh : Nat → Uuid}
    {s₁ : State} (hd : s.documents.get? t.document_id = some d)
    (hnew : ∀ n, t.follow_up = some n → inMemoryStore.job? s n.id = none)
    (hclose : closeJob t.job (s.moved d t now fresh) = .ok () s₁)
    (hinsert : insertJob? t.follow_up s₁ = .ok () s') : inMemoryStore.Applies s s' t := by
  obtain ⟨hdocuments, hevents, hnone, hsettles⟩ := closeJob_ok hclose
  have hid := (Table.mem_of_get? hd).2
  -- the job that follows takes the place of none
  have hfree : ∀ n, t.follow_up = some n → s₁.jobs.get? n.id = none := by
    intro n hn
    refine hnone n.id ?_
    rw [moved_jobs]
    exact Option.map_eq_none_iff.mp (hnew n hn)
  have hinserted : s'.documents = s₁.documents ∧ s'.events = s₁.events ∧
      (∀ id j, s₁.jobs.get? id = some j → s'.jobs.get? id = some j) ∧
      ∀ n, t.follow_up = some n → s'.jobs.get? n.id = some (storedJob n) := by
    cases hfollow : t.follow_up with
    | none =>
        rw [hfollow] at hinsert
        cases hinsert
        exact ⟨rfl, rfl, fun _ _ h => h, fun n hn => by cases hn⟩
    | some n =>
        rw [hfollow] at hinsert
        rw [insertJob_ok hinsert]
        refine ⟨rfl, rfl, fun id j h => Table.get?_insert_old (hfree n hfollow) h, ?_⟩
        intro m hm
        cases hm
        exact Table.get?_insert _ _
  obtain ⟨hdocuments', hevents', hkept, hadded⟩ := hinserted
  refine ⟨?_, fun e he => ?_, fun outcome houtcome j hj => ?_, fun n hn => ?_⟩
  · show (s'.documents.get? t.document_id).map Document.status = _
    rw [hdocuments', hdocuments, ← hid, moved_document, hid, hd]
    rfl
  · show e ∈ s'.events
    rw [hevents', hevents]
    exact List.mem_append_right _ (by simp [he])
  · have hclosed := (hsettles outcome houtcome).job j (by
      show (Table.get? (s.moved d t now fresh).jobs _).map StoredJob.state = _
      rw [moved_jobs]
      exact hj)
    obtain ⟨row, hrow, hstate⟩ := Option.map_eq_some_iff.mp hclosed
    exact (congrArg (Option.map _) (hkept _ _ hrow)).trans (congrArg some hstate)
  · exact congrArg (Option.map _) (hadded n hn)

theorem documentMut_keeps {id : Uuid} {f : Document → Document} {hf : ∀ d, (f d).id = d.id}
    (hstatus : ∀ d, (f d).status = d.status) :
    inMemoryStore.Keeps s (ended (documentMut id f hf s)).1 := by
  rw [documentMut_run]
  split
  · exact .refl s
  · refine ⟨fun _ => rfl, fun k => ?_, fun _ h => h⟩
    show ((s.documents.modify id f hf).get? k).map Document.status = _
    by_cases hk : k = id
    · subst hk
      rw [Table.get?_modify, Option.map_map]
      exact congrArg (fun g => Option.map g (s.documents.get? k)) (funext hstatus)
    · rw [Table.get?_modify_other _ _ _ hk]
      rfl

/-- The state that answered a repository call. -/
theorem inMemoryStore_respond {c : Call} {r : Reply c} (h : inMemoryStore.answers s c r s')
    (hport : ∀ now fresh, s.respond now fresh c ≠ none) :
    ∃ now fresh, s.respond now fresh c = some (s', r) := by
  obtain ⟨⟨now, fresh, hresp | ⟨hnone, -⟩⟩, -⟩ := h
  · exact ⟨now, fresh, hresp⟩
  · exact absurd hnone (hport now fresh)

theorem inMemoryStore_quiet {c : Call} {r : Reply c} (hc : c.isQuiet = true)
    (h : inMemoryStore.answers s c r s') : inMemoryStore.Keeps s s' := by
  obtain ⟨⟨now, fresh, hresp | ⟨-, rfl⟩⟩, -⟩ := h
  · cases c with
    | findDocument id | findNumberingRange id =>
        cases hresp
        exact .refl s
    | storeArtifacts id cufe original_xml signed_xml =>
        have hs' := congrArg Prod.fst (Option.some.inj hresp)
        rw [← show _ = s' from hs']
        exact documentMut_keeps fun _ => rfl
    | recordEvent _ | applyTransition _ | complete _ | retry _ _ _ | release _ _ | bury _ _ =>
        cases hc
    | _ => cases hresp
  · exact .refl _

theorem inMemoryStore_lawful : inMemoryStore.Lawful where
  keyed s id d hd := (Table.mem_of_get? hd).2
  find s id found s' h := by
    obtain ⟨now, fresh, hresp⟩ := inMemoryStore_respond h fun _ _ hnone => by cases hnone
    cases hresp
    rfl
  quiet s c r s' hc h := inMemoryStore_quiet hc h
  fresh s id s' h := by
    show (s.jobs.get? id).map _ = none
    rw [show s.jobs.get? id = none from h.2]
    rfl
  record s e s' h := by
    obtain ⟨now, fresh, hresp⟩ := inMemoryStore_respond h fun _ _ hnone => by cases hnone
    cases hresp
    exact ⟨⟨fun _ => rfl, fun _ => rfl, fun _ => List.mem_append_left _⟩,
      List.mem_append_right _ (List.mem_singleton_self e)⟩
  applied s t s' h hnew := by
    obtain ⟨now, fresh, hresp⟩ := inMemoryStore_respond h fun _ _ hnone => by cases hnone
    obtain ⟨d, hd, ⟨hb, -⟩ | ⟨-, s₁, hclose, hinsert⟩⟩ :=
      applyTransition_ok (ended_ok (Option.some.inj hresp))
    · cases hb
    · exact inMemoryStore_applies hd hnew hclose hinsert
  refused s t s' status h hstatus := by
    obtain ⟨now, fresh, hresp⟩ := inMemoryStore_respond h fun _ _ hnone => by cases hnone
    obtain ⟨d, hd, ⟨-, hnot⟩ | ⟨hb, -⟩⟩ := applyTransition_ok (ended_ok (Option.some.inj hresp))
    · have hsame : d.status = status := by
        have hfound : inMemoryStore.status? s t.document_id = some d.status :=
          congrArg (Option.map _) hd
        rw [hfound] at hstatus
        exact Option.some.inj hstatus
      rw [← hsame]
      simpa [DocumentStatus.canTransitionTo] using hnot
    · cases hb
  complete s id s' h := by
    obtain ⟨now, fresh, hresp⟩ := inMemoryStore_respond h fun _ _ hnone => by cases hnone
    exact settles_of_jobMut (fun _ => rfl) (ended_ok (Option.some.inj hresp))
  retry s id run_at error s' h := by
    obtain ⟨now, fresh, hresp⟩ := inMemoryStore_respond h fun _ _ hnone => by cases hnone
    exact settles_of_jobMut (fun _ => rfl) (ended_ok (Option.some.inj hresp))
  release s id run_at s' h := by
    obtain ⟨now, fresh, hresp⟩ := inMemoryStore_respond h fun _ _ hnone => by cases hnone
    exact settles_of_jobMut (fun _ => rfl) (ended_ok (Option.some.inj hresp))
  bury s id error s' h := by
    obtain ⟨now, fresh, hresp⟩ := inMemoryStore_respond h fun _ _ hnone => by cases hnone
    exact settles_of_jobMut (fun _ => rfl) (ended_ok (Option.some.inj hresp))

end Memory

/-! ## A processing that returns `Ok` -/

/-- Whatever the signer, the DIAN, the breaker and the clock answer, and whichever calls fail. -/
theorem process_settles (ubl : UblEngine) (config : ProcessorConfig) (job : Job) :
    (∀ db db', ClaimedRow pgStore job db →
      Ends pgStore.answers (process ubl config job).run db (.ok ()) db' →
      Settled pgStore job db db') ∧
    ∀ s s', ClaimedRow Memory.inMemoryStore job s →
      Ends Memory.inMemoryStore.answers (process ubl config job).run s (.ok ()) s' →
      Settled Memory.inMemoryStore job s s' := by
  refine ⟨fun db db' hrow hend => ?_, fun s s' hrow hend => ?_⟩
  · exact end_of_wpIn (wpIn_process ubl config pgStore_lawful hrow) hend rfl
  · exact end_of_wpIn (wpIn_process ubl config Memory.inMemoryStore_lawful hrow) hend rfl

/-- The row of a claimed job, in memory. -/
def claimedJob : Memory.StoredJob :=
  (Memory.storedJob (.transmit 20 0 10 5)).claimed 60 0

/-- An invoice whose transmission has been claimed. -/
def claimedDb : Db :=
  { Db.fresh [] with
    documents := [sampleInvoice]
    jobs := [(NewJob.transmit 20 0 10 5).row.claimed "w" 60 0] }

def claimedState : Memory.State where
  tenants := []
  certificates := []
  ranges := Table.empty _
  documents := (Table.empty _).insert sampleInvoice
  events := []
  jobs := (Table.empty _).insert claimedJob
  idempotency := Table.empty _
  webhooks := []
  deliveries := Table.empty _
  api_keys := []
  audit := []

/-- The circuit is open. -/
def openBreaker : (c : Call) → Reply c
  | .canExecute _ => false
  | c => calmAnswer c

/-- The job is released until the breaker has cooled down. -/
def releasedDb : Db := claimedDb.updateJob 20 (JobRow.released 30000000)

def releasedState : Memory.State :=
  { claimedState with
    jobs := claimedState.jobs.modify 20 (Memory.StoredJob.released 30000000) fun _ => rfl }

theorem claimedDb_ends :
    Ends pgStore.answers (process sampleUbl sampleConfig sampleJob).run claimedDb (.ok ())
      releasedDb := by
  have happly : ∀ (c : Call) (db : Db), Draws (fun id => db.job? id = none) c
      (World.apply ⟨openBreaker, id, .none⟩ db 0 c).2 →
      pgStore.answers db c (World.apply ⟨openBreaker, id, .none⟩ db 0 c).2
        (World.apply ⟨openBreaker, id, .none⟩ db 0 c).1 :=
    fun c db hdraws => ⟨⟨_, 0, rfl⟩, hdraws⟩
  exact .call (happly (.findDocument 10) claimedDb trivial)
    (.call (happly (.canExecute false) claimedDb trivial)
      (.call (happly .utcNow claimedDb trivial)
        (.call (happly (.release 20 30000000) claimedDb trivial) .done)))

theorem claimedState_ends :
    Ends Memory.inMemoryStore.answers (process sampleUbl sampleConfig sampleJob).run claimedState
      (.ok ()) releasedState := by
  have hfound : Memory.inMemoryStore.answers claimedState (.findDocument 10)
      (.ok (some sampleInvoice)) claimedState := ⟨⟨0, id, .inl rfl⟩, trivial⟩
  have hopen : Memory.inMemoryStore.answers claimedState (.canExecute false) false claimedState :=
    ⟨⟨0, id, .inr ⟨rfl, rfl⟩⟩, trivial⟩
  have hnow : Memory.inMemoryStore.answers claimedState .utcNow (0 : Time) claimedState :=
    ⟨⟨0, id, .inr ⟨rfl, rfl⟩⟩, trivial⟩
  have hreleased : Memory.inMemoryStore.answers claimedState (.release 20 30000000) (.ok ())
      releasedState := ⟨⟨0, id, .inl rfl⟩, trivial⟩
  exact .call hfound (.call hopen (.call hnow (.call hreleased .done)))

theorem process_settles_released :
    Settled pgStore sampleJob claimedDb releasedDb ∧
      Settled Memory.inMemoryStore sampleJob claimedState releasedState :=
  ⟨(process_settles sampleUbl sampleConfig sampleJob).1 claimedDb releasedDb
    ⟨by decide, by decide, by decide⟩ claimedDb_ends,
  (process_settles sampleUbl sampleConfig sampleJob).2 claimedState releasedState
    ⟨by decide, by decide, by decide⟩ claimedState_ends⟩

end DianService
