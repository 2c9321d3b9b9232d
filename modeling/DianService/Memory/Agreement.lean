import DianService.Memory.Queue

/-
  Memory: the two queues in lockstep. Both stores make the same change of the `JobView` of a job,
  and what they test they test on it; a call that meets `alike` answers the same from agreeing
  stores and leaves them agreeing, and so does a run of such calls.
-/

namespace DianService.Memory

open Lib

/-! ## Views -/

namespace JobView

def active (v : JobView) : Bool := v.status = .queued ∨ v.status = .running

def ready (v : JobView) (now : Time) : Bool :=
  ((v.status = .queued ∧ v.run_at ≤ now) ∨ v.lease.any (· < now)) ∧ v.attempts < v.max_attempts

def claimed (lease : Int) (now : Time) (v : JobView) : JobView :=
  { v with
    status := .running
    attempts := v.attempts + 1
    lease := some (now + lease) }

/-- Neither in the queue nor running any more. -/
def closed (status : JobStatus) (v : JobView) : JobView := { v with status := status, lease := none }

def queued (run_at : Time) (attempts : Int) (v : JobView) : JobView :=
  { v with
    status := .queued
    run_at := run_at
    attempts := attempts
    lease := none }

def job (v : JobView) : Job where
  id := v.id
  kind := v.kind
  document_id := v.document_id
  payload := v.payload
  attempts := v.attempts
  max_attempts := v.max_attempts

end JobView

theorem runningLease_any {status : JobStatus} {locked_until : Option Time} {p : Time → Bool} :
    (runningLease status locked_until).any p = true ↔
      status = .running ∧ locked_until.any p = true := by
  unfold runningLease
  by_cases h : status = .running <;> simp [h]

theorem viewStored_run_at (j : StoredJob) : (viewStored j).run_at = j.run_at := rfl

theorem viewRow_run_at (j : JobRow) : (viewRow j).run_at = j.run_at := rfl

theorem ready_viewStored (j : StoredJob) (now : Time) : (viewStored j).ready now = j.ready now := by
  simp only [JobView.ready, viewStored, runningLease_any, StoredJob.ready]

theorem ready_viewRow (j : JobRow) (now : Time) : (viewRow j).ready now = j.ready now := by
  simp only [JobView.ready, viewRow, runningLease_any, JobRow.ready, JobRow.leaseExpired,
    decide_eq_true_eq]

/-! ## What agreeing stores have in common -/

section Agree

variable {s : State} {db : Db}

/-- A test of the jobs that both can make. -/
theorem Agree.any_jobs (h : Agree s db) {p : StoredJob → Bool} {q : JobRow → Bool}
    {v : JobView → Bool} (hp : ∀ j, v (viewStored j) = p j) (hq : ∀ j, v (viewRow j) = q j) :
    s.jobs.rows.any p = db.jobs.any q := by
  have hany := any_eq_of_perm h.jobs v
  rw [List.any_map, List.any_map] at hany
  simpa only [Function.comp_def, hp, hq] using hany

/-- A number of jobs that both can count. -/
theorem Agree.countP_jobs (h : Agree s db) {p : StoredJob → Bool} {q : JobRow → Bool}
    {v : JobView → Bool} (hp : ∀ j, v (viewStored j) = p j) (hq : ∀ j, v (viewRow j) = q j) :
    s.jobs.rows.countP p = db.jobs.countP q := by
  have hcount := h.jobs.countP_eq v
  rw [List.countP_map, List.countP_map] at hcount
  simpa only [Function.comp_def, hp, hq] using hcount

theorem Agree.hasActiveJob (h : Agree s db) (document_id : Uuid) (kind : JobKind) :
    s.hasActiveJob document_id kind = db.hasActiveJob document_id kind :=
  h.any_jobs (v := fun v => v.document_id = document_id ∧ v.kind = kind ∧ v.active)
    (fun _ => rfl) fun _ => rfl

/-- The unique index refuses the memory's `mayQueue` and nothing else. -/
theorem Agree.otherActive (h : Agree s db) (j : StoredJob) (r : JobRow)
    (hjr : viewStored j = viewRow r) :
    (s.jobs.rows.any fun k => k.id ≠ j.id ∧ k.document_id = j.document_id ∧ k.kind = j.kind ∧
      k.active) = db.hasOtherActiveJob r := by
  have hid : j.id = r.id := congrArg JobView.id hjr
  have hdoc : j.document_id = r.document_id := congrArg JobView.document_id hjr
  have hkind : j.kind = r.kind := congrArg JobView.kind hjr
  rw [hid, hdoc, hkind]
  exact h.any_jobs (v := fun v => v.id ≠ r.id ∧ v.document_id = r.document_id ∧ v.kind = r.kind ∧
    v.active) (fun _ => rfl) fun _ => rfl

theorem viewStored_nodup (s : State) : ((s.jobs.rows.map viewStored).map JobView.id).Nodup := by
  rw [List.map_map]
  exact s.jobs.nodup

theorem Agree.jobs_nodup (h : Agree s db) : (db.jobs.map JobRow.id).Nodup := by
  have hnodup := (h.jobs.map JobView.id).nodup_iff.mp (viewStored_nodup s)
  rwa [List.map_map] at hnodup

theorem viewDocument_nodup (s : State) :
    ((s.documents.rows.map viewDocument).map DocumentView.id).Nodup := by
  rw [List.map_map]
  exact s.documents.nodup

theorem Agree.documents_nodup (h : Agree s db) : (db.documents.map Document.id).Nodup := by
  have hnodup := (h.documents.map DocumentView.id).nodup_iff.mp (viewDocument_nodup s)
  rwa [List.map_map] at hnodup

theorem Agree.job? (h : Agree s db) (id : Uuid) :
    (s.jobs.get? id).map viewStored = (db.job? id).map viewRow := by
  have hfind := find?_key_of_perm h.jobs (viewStored_nodup s) id
  rw [List.find?_map, List.find?_map] at hfind
  exact hfind

theorem Agree.document? (h : Agree s db) (id : Uuid) :
    (s.documents.get? id).map viewDocument = (db.document? id).map viewDocument := by
  have hfind := find?_key_of_perm h.documents (viewDocument_nodup s) id
  rw [List.find?_map, List.find?_map] at hfind
  exact hfind

/-- A job of one is a job of the other. -/
theorem Agree.exists_row (h : Agree s db) {id : Uuid} {j : StoredJob}
    (hj : s.jobs.get? id = some j) : ∃ r, db.job? id = some r ∧ viewStored j = viewRow r := by
  have hviews := h.job? id
  rw [hj, Option.map_some] at hviews
  obtain ⟨r, hr, hview⟩ := Option.map_eq_some_iff.mp hviews.symm
  exact ⟨r, hr, hview.symm⟩

theorem Agree.job?_none (h : Agree s db) {id : Uuid} (hj : s.jobs.get? id = none) :
    db.job? id = none := by
  have hviews := h.job? id
  rw [hj, Option.map_none] at hviews
  exact Option.map_eq_none_iff.mp hviews.symm

theorem Agree.exists_document (h : Agree s db) {id : Uuid} {d : Document}
    (hd : s.documents.get? id = some d) :
    ∃ e, db.document? id = some e ∧ viewDocument d = viewDocument e := by
  have hviews := h.document? id
  rw [hd, Option.map_some] at hviews
  obtain ⟨e, he, hview⟩ := Option.map_eq_some_iff.mp hviews.symm
  exact ⟨e, he, hview.symm⟩

/-- The document of a job is there. -/
theorem Agree.get?_owner (h : Agree s db) {j : StoredJob} (hj : j ∈ s.jobs.rows) :
    ∃ d, s.documents.get? j.document_id = some d := by
  obtain ⟨d, hd, hid⟩ := h.owned j hj
  exact ⟨d, hid ▸ Table.get?_of_mem hd⟩

/-! ## Changes -/

/-- The same change of the view of every job that meets the same test. -/
theorem perm_update {rows : List StoredJob} {rows' : List JobRow}
    (h : (rows.map viewStored).Perm (rows'.map viewRow)) (p : Uuid → Bool)
    {f : StoredJob → StoredJob} {g : JobRow → JobRow} {v : JobView → JobView}
    (hf : ∀ j, viewStored (f j) = v (viewStored j)) (hg : ∀ j, viewRow (g j) = v (viewRow j)) :
    ((rows.map fun j => if p j.id then f j else j).map viewStored).Perm
      ((rows'.map fun j => if p j.id then g j else j).map viewRow) := by
  have hviews := h.map fun w => if p w.id then v w else w
  rw [List.map_map, List.map_map] at hviews ⊢
  convert hviews using 2
  · funext j
    show viewStored (if p j.id then f j else j) = if p j.id then v (viewStored j) else viewStored j
    split
    · exact hf j
    · rfl
  · funext j
    show viewRow (if p j.id then g j else j) = if p j.id then v (viewRow j) else viewRow j
    split
    · exact hg j
    · rfl

/-- A change of some jobs, none of which goes to another document. -/
theorem owned_update (hs : ∀ j ∈ s.jobs.rows, ∃ d ∈ s.documents.rows, d.id = j.document_id)
    {p : StoredJob → Bool} {f : StoredJob → StoredJob}
    (hf : ∀ j, (f j).document_id = j.document_id) :
    ∀ j ∈ s.jobs.rows.map (fun j => if p j then f j else j),
      ∃ d ∈ s.documents.rows, d.id = j.document_id := by
  intro j hj
  obtain ⟨k, hk, rfl⟩ := List.mem_map.mp hj
  obtain ⟨d, hd, hid⟩ := hs k hk
  refine ⟨d, hd, hid.trans ?_⟩
  split
  · exact (hf k).symm
  · rfl

/-- A statement on one job, on both sides. -/
theorem Agree.updateJob (h : Agree s db) (id : Uuid) {f : StoredJob → StoredJob}
    (hid : ∀ j, (f j).id = j.id) (hdoc : ∀ j, (f j).document_id = j.document_id)
    {g : JobRow → JobRow} {v : JobView → JobView}
    (hf : ∀ j, viewStored (f j) = v (viewStored j)) (hg : ∀ j, viewRow (g j) = v (viewRow j)) :
    Agree { s with jobs := s.jobs.modify id f hid } (db.updateJob id g) where
  jobs := by
    have hperm := perm_update h.jobs (fun k => k = id) hf hg
    simpa only [decide_eq_true_eq, Table.modify, Table.update, Db.updateJob_jobs] using hperm
  documents := h.documents
  owned := owned_update h.owned hdoc

theorem perm_documents {rows rows' : List Document}
    (h : (rows.map viewDocument).Perm (rows'.map viewDocument)) (p : Uuid → Bool)
    (status : DocumentStatus) :
    ((rows.map fun d => if p d.id then d.moved status else d).map viewDocument).Perm
      ((rows'.map fun d => if p d.id then d.moved status else d).map viewDocument) := by
  have hviews := h.map fun w => if p w.id then { w with status := status } else w
  rw [List.map_map, List.map_map] at hviews ⊢
  have hmoved : (viewDocument ∘ fun d : Document => if p d.id then d.moved status else d) =
      (fun w : DocumentView => if p w.id then { w with status := status } else w) ∘
        viewDocument := by
    funext d
    show viewDocument (if p d.id then d.moved status else d) =
      if p d.id then { viewDocument d with status := status } else viewDocument d
    split <;> rfl
  rw [hmoved]
  exact hviews

end Agree

/-! ## One call -/

/-- The same answer, and stores that still agree. -/
def Lockstep (op : QueueOp) (s : State) (db : Db) : Prop :=
  (inMemory op s).1 = (inPostgres op db).1 ∧ Agree (inMemory op s).2 (inPostgres op db).2

section Calls

variable {s : State} {db : Db}

/-! ### A settled job -/

/-- An update of one job that neither store refuses. -/
theorem Agree.settled (h : Agree s db) {op : QueueOp} {id : Uuid} {f : StoredJob → StoredJob}
    {hid : ∀ j, (f j).id = j.id} {g : JobRow → JobRow} {v : JobView → JobView}
    (hsome : (s.jobs.get? id).isSome = true)
    (hmemory : inMemory op s = answered (fun _ => .done) (jobMut id f hid s))
    (hpg : inPostgres op db = (.ok .done, db.updateJob id g))
    (hdoc : ∀ j, (f j).document_id = j.document_id)
    (hf : ∀ j, viewStored (f j) = v (viewStored j)) (hg : ∀ j, viewRow (g j) = v (viewRow j)) :
    Lockstep op s db := by
  have hnone : ¬ (s.jobs.get? id).isNone = true := by
    rw [← Option.not_isSome, hsome]
    decide
  have hrun : inMemory op s = (.ok .done, { s with jobs := s.jobs.modify id f hid }) := by
    rw [hmemory, jobMut_run, if_neg hnone]
    rfl
  unfold Lockstep
  rw [hrun, hpg]
  exact ⟨rfl, h.updateJob id hid hdoc hf hg⟩

theorem complete_lockstep (h : Agree s db) {job_id : Uuid}
    (hsome : (s.jobs.get? job_id).isSome = true) : Lockstep (.complete job_id) s db :=
  h.settled (v := JobView.closed .done) hsome rfl rfl (fun _ => rfl) (fun _ => rfl) fun _ => rfl

theorem bury_lockstep (h : Agree s db) {job_id : Uuid} {error : String}
    (hsome : (s.jobs.get? job_id).isSome = true) : Lockstep (.bury job_id error) s db :=
  h.settled (v := JobView.closed .dead) hsome rfl rfl (fun _ => rfl) (fun _ => rfl) fun _ => rfl

/-- The unique index asks about the one job with the id. -/
theorem Agree.wouldDuplicate (h : Agree s db) {job_id : Uuid} {r : JobRow}
    (hr : db.job? job_id = some r) : db.wouldDuplicate job_id = db.hasOtherActiveJob r := by
  obtain ⟨hrmem, hrid⟩ := Db.job?_mem hr
  rw [Db.wouldDuplicate, Bool.eq_iff_iff, List.any_eq_true]
  constructor
  · intro hdup
    obtain ⟨k, hk, hdup⟩ := hdup
    rw [decide_eq_true_eq] at hdup
    have hsame : k = r := eq_of_key_eq h.jobs_nodup hk hrmem (hdup.1.trans hrid.symm)
    rw [← hsame]
    exact hdup.2
  · intro hother
    exact ⟨r, hrmem, decide_eq_true ⟨hrid, hother⟩⟩

/-- The unique index refuses no job that may be queued. -/
theorem Agree.requeueJob (h : Agree s db) {job_id : Uuid} (hmay : s.mayQueue job_id = true)
    (g : JobRow → JobRow) :
    (s.jobs.get? job_id).isSome = true ∧ db.requeueJob job_id g = .ok (db.updateJob job_id g) := by
  rw [State.mayQueue, Option.any_eq_true] at hmay
  obtain ⟨j, hj, hfree⟩ := hmay
  obtain ⟨r, hr, hview⟩ := h.exists_row hj
  have hid : j.id = job_id := (Table.mem_of_get? hj).2
  refine ⟨by rw [hj]; rfl, if_neg ?_⟩
  rw [← hid, Bool.not_eq_true', h.otherActive j r hview] at hfree
  rw [h.wouldDuplicate hr, hfree]
  exact Bool.false_ne_true

theorem retry_lockstep (h : Agree s db) {job_id : Uuid} {run_at : Time} {error : String}
    (hmay : s.mayQueue job_id = true) : Lockstep (.retry job_id run_at error) s db := by
  obtain ⟨hsome, hqueued⟩ := h.requeueJob hmay (JobRow.retried run_at error)
  have hpg : inPostgres (.retry job_id run_at error) db =
      (.ok .done, db.updateJob job_id (JobRow.retried run_at error)) := by
    simp only [inPostgres, Db.retry, hqueued]
    rfl
  exact h.settled (v := fun v => v.queued run_at v.attempts) hsome rfl hpg (fun _ => rfl)
    (fun _ => rfl) fun _ => rfl

theorem release_lockstep (h : Agree s db) {job_id : Uuid} {run_at : Time}
    (hmay : s.mayQueue job_id = true) : Lockstep (.release job_id run_at) s db := by
  obtain ⟨hsome, hqueued⟩ := h.requeueJob hmay (JobRow.released run_at)
  have hpg : inPostgres (.release job_id run_at) db =
      (.ok .done, db.updateJob job_id (JobRow.released run_at)) := by
    simp only [inPostgres, Db.release, hqueued]
    rfl
  exact h.settled (v := fun v => v.queued run_at (max (v.attempts - 1) 0)) hsome rfl hpg
    (fun _ => rfl) (fun _ => rfl) fun _ => rfl

/-! ### The depth of the queue -/

theorem queueDepth_lockstep (h : Agree s db) (now : Time) : Lockstep (.queueDepth now) s db := by
  have hready := h.countP_jobs (v := fun v => v.status = .queued ∧ v.run_at ≤ now)
    (fun _ => rfl) fun _ => rfl
  have hscheduled := h.countP_jobs (v := fun v => v.status = .queued ∧ ¬ v.run_at ≤ now)
    (q := fun j => j.status = .queued ∧ now < j.run_at) (fun _ => rfl) fun j => by
      simp only [viewRow, not_le]
  have hrunning := h.countP_jobs (v := fun v => v.status = .running) (fun _ => rfl) fun _ => rfl
  have hdead := h.countP_jobs (v := fun v => v.status = .dead) (fun _ => rfl) fun _ => rfl
  have hdepth :=
    congr (congr (congr (congrArg QueueDepth.mk hready) hscheduled) hrunning) hdead
  exact ⟨congrArg (fun d => Except.ok (QueueAnswer.depth d)) hdepth, h⟩

/-! ### `retry_dead_job` -/

/-- A dead job back in the queue, with the status its document takes. -/
theorem Agree.revived (h : Agree s db) (job_id document_id : Uuid) (status : DocumentStatus)
    (audit : AuditEntry) (now : Time) :
    Agree
      { s with
        documents := s.documents.modify document_id (Document.moved status) fun _ => rfl
        jobs := s.jobs.modify job_id (StoredJob.revived now) fun _ => rfl
        audit := s.audit ++ [audit] }
      { (db.updateDocument document_id (Document.moved status)).updateJob job_id
          (JobRow.revived now) with
        admin_audit_log := db.admin_audit_log ++ [audit] } where
  jobs := (h.updateJob job_id (v := fun v => v.queued now 0) (f := StoredJob.revived now)
    (g := JobRow.revived now) (fun _ => rfl) (fun _ => rfl) (fun _ => rfl) fun _ => rfl).jobs
  documents := by
    have hperm := perm_documents h.documents (fun k => k = document_id) status
    simpa only [decide_eq_true_eq, Table.modify, Table.update, Db.updateDocument_documents,
      Db.updateJob_documents] using hperm
  owned := by
    intro j hj
    have howned := owned_update h.owned (p := fun j => j.id = job_id)
      (f := StoredJob.revived now) (fun _ => rfl) j hj
    obtain ⟨d, hd, hid⟩ := howned
    refine ⟨if d.id = document_id then d.moved status else d, ?_, ?_⟩
    · exact List.mem_map.mpr ⟨d, hd, by simp only [decide_eq_true_eq]⟩
    · split <;> exact hid

/-- A job that is not active is not in its own way. -/
theorem hasActiveJob_of_dead {j : StoredJob} (hj : j ∈ s.jobs.rows) (hdead : j.status = .dead) :
    s.hasActiveJob j.document_id j.kind = s.jobs.rows.any fun k =>
      k.id ≠ j.id ∧ k.document_id = j.document_id ∧ k.kind = j.kind ∧ k.active := by
  unfold State.hasActiveJob
  rw [Bool.eq_iff_iff, List.any_eq_true, List.any_eq_true]
  simp only [decide_eq_true_eq]
  constructor
  · intro hactive
    obtain ⟨k, hk, hkey⟩ := hactive
    refine ⟨k, hk, fun hid => ?_, hkey⟩
    have hsame : k = j := eq_of_key_eq s.jobs.nodup hk hj hid
    have hactive := hkey.2.2
    rw [hsame, StoredJob.active, hdead] at hactive
    exact absurd hactive (by decide)
  · intro hother
    obtain ⟨k, hk, hkey⟩ := hother
    exact ⟨k, hk, hkey.2⟩

theorem updateDocument_self {e : Document} (hnodup : (db.documents.map Document.id).Nodup)
    (he : e ∈ db.documents) : db.updateDocument e.id (Document.moved e.status) = db := by
  have hdocs : (db.documents.map fun d => if d.id = e.id then d.moved e.status else d) =
      db.documents := by
    refine (List.map_congr_left fun d hd => ?_).trans (List.map_id' db.documents)
    split
    · rename_i hid
      rw [eq_of_key_eq hnodup hd he hid]
      rfl
    · rfl
  unfold Db.updateDocument
  rw [hdocs]

/-- The status a document has once its dead job is back in the queue. -/
def revivedStatus (kind : JobKind) (status : DocumentStatus) : DocumentStatus :=
  if kind = .transmit then .pending else status

theorem revivedStatus_eq {kind : JobKind} {status : DocumentStatus}
    (hallowed : Db.retryAllowed kind status = true)
    (h : ¬ (kind = .transmit ∧ status = .contingencyPending)) :
    revivedStatus kind status = status := by
  cases kind with
  | pollStatus => rfl
  | transmit =>
      simp only [Db.retryAllowed, decide_eq_true_eq] at hallowed
      cases hallowed with
      | inl hpending => exact hpending.symm
      | inr hcontingency => exact absurd ⟨rfl, hcontingency⟩ h

/-- PostgreSQL writes the status only where it changes. -/
theorem revived_document {e : Document} {kind : JobKind}
    (hnodup : (db.documents.map Document.id).Nodup) (he : e ∈ db.documents)
    (hallowed : Db.retryAllowed kind e.status = true) :
    (if kind = .transmit ∧ e.status = .contingencyPending then
      db.updateDocument e.id (Document.moved .pending) else db) =
      db.updateDocument e.id (Document.moved (revivedStatus kind e.status)) := by
  by_cases h : kind = .transmit ∧ e.status = .contingencyPending
  · rw [if_pos h, revivedStatus, if_pos h.1]
  · rw [if_neg h, revivedStatus_eq hallowed h, updateDocument_self hnodup he]

theorem retryDeadJob_lockstep (h : Agree s db) (job_id : Uuid) (audit : AuditEntry) (now : Time) :
    Lockstep (.retryDeadJob job_id audit now) s db := by
  have hmemory : inMemory (.retryDeadJob job_id audit now) s =
    answered .flag (retryDeadJob job_id audit now s) := rfl
  have hpg : inPostgres (.retryDeadJob job_id audit now) db =
    committed .flag db (db.retryDeadJob job_id audit now) := rfl
  unfold Lockstep
  rw [hmemory, hpg]
  unfold retryDeadJob Db.retryDeadJob
  rw [get_bind_run]
  cases hj : s.jobs.get? job_id with
  | none =>
      rw [h.job?_none hj]
      exact ⟨rfl, h⟩
  | some j =>
      obtain ⟨r, hr, hview⟩ := h.exists_row hj
      obtain ⟨hjmem, hjid⟩ := Table.mem_of_get? hj
      have hstatus : j.status = r.status := congrArg JobView.status hview
      have hdoc : j.document_id = r.document_id := congrArg JobView.document_id hview
      have hkind : j.kind = r.kind := congrArg JobView.kind hview
      rw [hr]
      by_cases hdead : j.status = .dead
      · rw [Option.filter_some_pos (by simpa using hdead),
          Option.filter_some_pos (by simpa using hstatus ▸ hdead)]
        obtain ⟨d, hd⟩ := h.get?_owner hjmem
        obtain ⟨e, he, hdview⟩ := h.exists_document hd
        obtain ⟨hemem, heid⟩ := Db.document?_mem he
        have hdstatus : d.status = e.status := congrArg DocumentView.status hdview
        dsimp only
        rw [hd, ← hdoc, he]
        dsimp only
        rw [hdstatus, hkind]
        by_cases hallowed : Db.retryAllowed r.kind e.status = true
        · simp only [hallowed, Bool.not_true, Bool.false_eq_true, if_false, not_true]
          have hactive : s.hasActiveJob j.document_id j.kind = db.wouldDuplicate job_id := by
            rw [hasActiveJob_of_dead hjmem hdead, h.otherActive j r hview, h.wouldDuplicate hr]
          rw [← hkind, hactive]
          by_cases hdup : db.wouldDuplicate job_id = true
          · rw [if_pos hdup, if_pos hdup]
            exact ⟨rfl, h⟩
          · rw [if_neg hdup, if_neg hdup, hkind, revived_document h.documents_nodup hemem hallowed,
              heid]
            exact ⟨rfl, h.revived job_id j.document_id (revivedStatus r.kind e.status) audit now⟩
        · simp only [hallowed, Bool.not_false, if_true]
          exact ⟨rfl, h⟩
      · rw [Option.filter_some_neg (by simpa using hdead),
          Option.filter_some_neg (by simpa using hstatus ▸ hdead)]
        exact ⟨rfl, h⟩

/-! ### The order of a call -/

theorem scan_jobs (h : Agree s db) (order : ScanOrder) :
    (scanState order s).jobs.rows.map viewStored = (scanDb order db).jobs.map viewRow := by
  have hnodup : ((s.jobs.rows.map viewStored).map fun v => order.rank v.id).Nodup := by
    have hids := (viewStored_nodup s).map order.injective
    rwa [List.map_map] at hids
  calc (scanState order s).jobs.rows.map viewStored
      = orderBy (fun v => order.rank v.id) (s.jobs.rows.map viewStored) :=
        map_orderBy fun _ => rfl
    _ = orderBy (fun v => order.rank v.id) (db.jobs.map viewRow) :=
        orderBy_eq_of_perm h.jobs hnodup
    _ = (scanDb order db).jobs.map viewRow := (map_orderBy fun _ => rfl).symm

theorem scan_documents (h : Agree s db) (order : ScanOrder) :
    (scanState order s).documents.rows.map viewDocument =
      (scanDb order db).documents.map viewDocument := by
  have hnodup : ((s.documents.rows.map viewDocument).map fun v => order.rank v.id).Nodup := by
    have hids := (viewDocument_nodup s).map order.injective
    rwa [List.map_map] at hids
  calc (scanState order s).documents.rows.map viewDocument
      = orderBy (fun v => order.rank v.id) (s.documents.rows.map viewDocument) :=
        map_orderBy fun _ => rfl
    _ = orderBy (fun v => order.rank v.id) (db.documents.map viewDocument) :=
        orderBy_eq_of_perm h.documents hnodup
    _ = (scanDb order db).documents.map viewDocument := (map_orderBy fun _ => rfl).symm

theorem Agree.scan (h : Agree s db) (order : ScanOrder) :
    Agree (scanState order s) (scanDb order db) where
  jobs := .of_eq (scan_jobs h order)
  documents := .of_eq (scan_documents h order)
  owned := by
    intro j hj
    obtain ⟨d, hd, hid⟩ := h.owned j (mem_orderBy.mp hj)
    exact ⟨d, mem_orderBy.mpr hd, hid⟩

/-! ### `claim` -/

/-- Where no lease has run out on a last attempt there is nothing to bury. -/
theorem buryExpired_eq (h : Agree s db) {now : Time} (hexpired : s.hasExpired now = false) :
    db.buryExpired now = db := by
  have hany := h.any_jobs (p := fun j => j.status = .running ∧ j.locked_until.any (· < now) ∧
      j.max_attempts ≤ j.attempts) (q := fun j => j.leaseExpired now ∧ j.max_attempts ≤ j.attempts)
    (v := fun v => v.lease.any (· < now) ∧ v.max_attempts ≤ v.attempts)
    (fun j => by simp only [viewStored, runningLease_any, and_assoc])
    fun j => by simp only [viewRow, runningLease_any, JobRow.leaseExpired, decide_eq_true_eq]
  have hnone : ¬ (db.jobs.any fun j => j.leaseExpired now ∧ j.max_attempts ≤ j.attempts) = true := by
    rw [← hany, Bool.not_eq_true]
    exact hexpired
  have hrows := map_ite_eq_self (f := JobRow.expired) hnone
  simp only [decide_eq_true_eq] at hrows
  unfold Db.buryExpired Db.mapJobs
  rw [hrows]

/-- Both pick the same jobs. -/
theorem readyJobs_view (h : s.jobs.rows.map viewStored = db.jobs.map viewRow) (limit : Int)
    (now : Time) :
    (s.readyJobs limit now).map viewStored = (db.readyJobs limit.toNat now []).map viewRow := by
  have hready : (s.jobs.rows.filter fun j => j.ready now).map viewStored =
      (db.jobs.filter fun j => j.ready now ∧ j.id ∉ ([] : List Uuid)).map viewRow := by
    have hfilter := congrArg (List.filter fun v => v.ready now) h
    rw [List.filter_map, List.filter_map] at hfilter
    simpa only [Function.comp_def, ready_viewStored, ready_viewRow, List.not_mem_nil,
      not_false_eq_true, and_true, Bool.decide_eq_true] using hfilter
  unfold State.readyJobs Db.readyJobs
  rw [List.map_take, List.map_take, map_orderBy (f := StoredJob.run_at) viewStored_run_at, hready,
    map_orderBy (f := JobRow.run_at) viewRow_run_at]

theorem claim_lockstep (h : Agree s db) {worker_id : String} {limit : Int} {lease : Nat}
    {now : Time} {order : ScanOrder} (hlimit : 0 ≤ limit) (hlease : lease ≤ MAX_DURATION)
    (hexpired : s.hasExpired now = false) :
    Lockstep (.claim worker_id limit lease now order) s db := by
  have hscan := h.scan order
  have hsame : (scanState order s).hasExpired now = false := by
    rw [← hexpired]
    exact any_eq_of_perm (orderBy_perm _ _) _
  have hpicked := readyJobs_view (scan_jobs h order) limit now
  have hids : ((scanState order s).readyJobs limit now).map StoredJob.id =
      ((scanDb order db).readyJobs limit.toNat now []).map JobRow.id := by
    have hviews := congrArg (List.map JobView.id) hpicked
    rwa [List.map_map, List.map_map] at hviews
  have hjobs : ((scanState order s).readyJobs limit now).map
        (fun j => (j.claimed lease now).job) =
      ((scanDb order db).readyJobs limit.toNat now []).map
        fun j => (j.claimed worker_id lease now).job := by
    have hviews := congrArg (List.map fun v => (JobView.claimed lease now v).job) hpicked
    rwa [List.map_map, List.map_map] at hviews
  have hfits : (fromStd? lease).getD 600000000 = lease := by
    rw [fromStd?, if_pos hlease]
    rfl
  have hpg : inPostgres (.claim worker_id limit lease now order) db =
      committed .jobs (scanDb order db)
        (.ok ((scanDb order db).claim worker_id limit.toNat lease now [])) := by
    show pgClaim (scanDb order db) worker_id limit lease now = _
    unfold pgClaim
    rw [buryExpired_eq hscan hsame]
    exact if_neg (by omega)
  unfold Lockstep
  rw [hpg]
  refine ⟨congrArg (fun jobs => Except.ok (QueueAnswer.jobs jobs)) ?_, ?_⟩
  · rw [hfits]
    exact hjobs
  · refine ⟨?_, hscan.documents, owned_update hscan.owned fun _ => rfl⟩
    have hperm := perm_update hscan.jobs
      (fun id => id ∈ ((scanState order s).readyJobs limit now).map StoredJob.id)
      (f := StoredJob.claimed lease now) (g := JobRow.claimed worker_id lease now)
      (v := JobView.claimed lease now) (fun _ => rfl) fun _ => rfl
    simp only [decide_eq_true_eq] at hperm
    rw [hids] at hperm
    show List.Perm (List.map viewStored (List.map _ _)) (List.map viewRow (List.map _ _))
    rw [hfits]
    simp only [decide_eq_true_eq]
    rw [hids]
    exact hperm

/-! ### `requeue_contingency` -/

theorem requeuedAll_documents {max_attempts : Int} {now : Time} {fresh : Uuid → Uuid}
    (ids : List Uuid) :
    (s.requeuedAll max_attempts now fresh ids).documents.rows =
      s.documents.rows.map fun d => if d.id ∈ ids then d.moved .pending else d := by
  induction ids generalizing s with
  | nil => exact (List.map_id' _).symm
  | cons id ids ih =>
      have hfirst : (s.requeued id (.transmit (fresh id) now id max_attempts)).documents.rows =
          s.documents.rows.map fun d => if d.id = id then d.moved .pending else d := by
        show List.map _ _ = List.map _ _
        simp only [decide_eq_true_eq]
      show (State.requeuedAll max_attempts now fresh _ ids).documents.rows = _
      rw [ih, hfirst, List.map_map]
      refine List.map_congr_left fun d _ => ?_
      rw [Function.comp_apply]
      by_cases hid : d.id = id
      · rw [if_pos hid, if_pos (List.mem_cons.mpr (.inl hid))]
        split <;> rfl
      · rw [if_neg hid]
        simp only [List.mem_cons, hid, false_or]

/-- The jobs that `requeue_contingency` inserts, of new ids. -/
theorem requeuedAll_jobs {max_attempts : Int} {now : Time} {fresh : Uuid → Uuid} {ids : List Uuid}
    (hdrawn : (ids.map fresh).Nodup) (hnew : ∀ id ∈ ids, ∀ j ∈ s.jobs.rows, j.id ≠ fresh id) :
    (s.requeuedAll max_attempts now fresh ids).jobs.rows =
      s.jobs.rows ++ ids.map fun id => storedJob (.transmit (fresh id) now id max_attempts) := by
  induction ids generalizing s with
  | nil => exact (List.append_nil _).symm
  | cons id ids ih =>
      have hfirst : (s.requeued id (.transmit (fresh id) now id max_attempts)).jobs.rows =
          s.jobs.rows ++ [storedJob (.transmit (fresh id) now id max_attempts)] :=
        Table.insert_rows_of_new (hnew id List.mem_cons_self)
      rw [List.map_cons, List.nodup_cons] at hdrawn
      show (State.requeuedAll max_attempts now fresh _ ids).jobs.rows = _
      rw [ih hdrawn.2, hfirst, List.map_cons, List.append_assoc, List.singleton_append]
      intro other hother j hj
      rw [hfirst, List.mem_append, List.mem_singleton] at hj
      cases hj with
      | inl hold => exact hnew other (List.mem_cons_of_mem _ hother) j hold
      | inr hlast =>
          intro hid
          apply hdrawn.1
          rw [show fresh id = fresh other by rw [← hid, hlast]; rfl]
          exact List.mem_map_of_mem hother

theorem contingencyJobs_freshAt (picked : List Document) (max_attempts : Int) (now : Time)
    (fresh : Uuid → Uuid) :
    Db.contingencyJobs picked max_attempts now (freshAt picked fresh) =
      picked.map fun d => (NewJob.transmit (fresh d.id) now d.id max_attempts).row := by
  apply List.ext_getElem
  · rw [Db.contingencyJobs, List.length_mapIdx, List.length_map]
  · intro i hi hi'
    rw [List.length_map] at hi'
    simp [Db.contingencyJobs, freshAt, hi']

/-- PostgreSQL picks the candidates of the map, where these are the oldest. -/
theorem candidates_perm (h : Agree s db)
    (hscan : s.documents.rows.map viewDocument = db.documents.map viewDocument) {limit : Int}
    (holdest : s.oldestFirst limit = true) :
    ((db.contingencyCandidates limit.toNat []).map Document.id).Perm (s.candidates limit) := by
  let waits : DocumentView → Bool := fun v =>
    v.status = .contingencyPending ∧ ¬ db.hasActiveJob v.id .transmit
  have hmemory : s.contingencyDocuments = s.documents.rows.filter (waits ∘ viewDocument) :=
    List.filter_congr fun d _ => by
      rw [Bool.eq_iff_iff]
      simp only [waits, viewDocument, Function.comp_apply, decide_eq_true_eq, h.hasActiveJob]
      exact decide_eq_true_iff.symm
  have hpg : (db.documents.filter fun d => d.status = .contingencyPending ∧
      ¬ db.hasActiveJob d.id .transmit ∧ d.id ∉ ([] : List Uuid)) =
      db.documents.filter (waits ∘ viewDocument) :=
    List.filter_congr fun d _ => by
      rw [Bool.eq_iff_iff]
      simp only [waits, viewDocument, Function.comp_apply, decide_eq_true_eq, List.not_mem_nil,
        not_false_eq_true, and_true]
      exact decide_eq_true_iff.symm
  have hwaiting : s.contingencyDocuments.map viewDocument =
      (db.documents.filter (waits ∘ viewDocument)).map viewDocument := by
    rw [hmemory, ← List.filter_map, ← List.filter_map, hscan]
  have hview : ∀ d : Document, (viewDocument d).created_at = d.created_at := fun _ => rfl
  have hpicked : (db.contingencyCandidates limit.toNat []).map viewDocument =
      ((orderBy Document.created_at s.contingencyDocuments).take limit.toNat).map viewDocument := by
    unfold Db.contingencyCandidates
    rw [hpg, List.map_take, List.map_take, map_orderBy hview, map_orderBy hview, hwaiting]
  have hids := congrArg (List.map DocumentView.id) hpicked
  rw [List.map_map, List.map_map] at hids
  rw [State.oldestFirst, decide_eq_true_eq] at holdest
  have hcandidates : s.candidates limit =
      (s.contingencyDocuments.take limit.toNat).map Document.id := List.map_take.symm
  rw [hcandidates]
  exact (List.Perm.of_eq hids).trans ((take_orderBy_perm holdest).map Document.id)

section Requeue

variable {limit max_attempts : Int} {now : Time} {fresh : Uuid → Uuid}

/-- The candidates of the map are those of PostgreSQL, and each gets the same new job. -/
theorem requeued_jobs (h : Agree s db) (hdraws : s.drawsNew limit fresh = true)
    (hperm : ((db.contingencyCandidates limit.toNat []).map Document.id).Perm
      (s.candidates limit)) :
    ((s.requeuedAll max_attempts now fresh (s.candidates limit)).jobs.rows.map viewStored).Perm
      ((db.jobs ++ Db.contingencyJobs (db.contingencyCandidates limit.toNat []) max_attempts now
        (freshAt (db.contingencyCandidates limit.toNat []) fresh)).map viewRow) := by
  rw [State.drawsNew, decide_eq_true_eq] at hdraws
  have hnew : ∀ id ∈ s.candidates limit, ∀ j ∈ s.jobs.rows, j.id ≠ fresh id := fun id hid =>
    Table.get?_eq_none.mp (Option.isNone_iff_eq_none.mp (hdraws.2 id hid))
  rw [requeuedAll_jobs hdraws.1 hnew, contingencyJobs_freshAt, List.map_append, List.map_append]
  apply h.jobs.append
  have hrows := hperm.symm.map fun id =>
    viewRow (NewJob.transmit (fresh id) now id max_attempts).row
  rw [List.map_map] at hrows ⊢
  rw [List.map_map]
  exact hrows

theorem requeued_agree (h : Agree s db) (hdraws : s.drawsNew limit fresh = true)
    (hperm : ((db.contingencyCandidates limit.toNat []).map Document.id).Perm
      (s.candidates limit)) :
    Agree (s.requeuedAll max_attempts now fresh (s.candidates limit))
      { db with
        documents := db.documents.map fun d =>
          if d.id ∈ (db.contingencyCandidates limit.toNat []).map Document.id then d.moved .pending
          else d
        jobs := db.jobs ++ Db.contingencyJobs (db.contingencyCandidates limit.toNat [])
          max_attempts now (freshAt (db.contingencyCandidates limit.toNat []) fresh) } where
  jobs := requeued_jobs h hdraws hperm
  documents := by
    have hmoved := perm_documents h.documents (fun id => id ∈ s.candidates limit) .pending
    simp only [decide_eq_true_eq] at hmoved
    rw [requeuedAll_documents]
    simp only [hperm.mem_iff]
    exact hmoved
  owned := by
    rw [State.drawsNew, decide_eq_true_eq] at hdraws
    have hnew : ∀ id ∈ s.candidates limit, ∀ j ∈ s.jobs.rows, j.id ≠ fresh id := fun id hid =>
      Table.get?_eq_none.mp (Option.isNone_iff_eq_none.mp (hdraws.2 id hid))
    intro j hj
    rw [requeuedAll_jobs hdraws.1 hnew, List.mem_append] at hj
    have howner : ∃ d ∈ s.documents.rows, d.id = j.document_id := by
      cases hj with
      | inl hold => exact h.owned j hold
      | inr hinserted =>
          obtain ⟨id, hid, rfl⟩ := List.mem_map.mp hinserted
          obtain ⟨d, hd, rfl⟩ := List.mem_map.mp (List.mem_of_mem_take hid)
          exact ⟨d, (List.mem_filter.mp hd).1, rfl⟩
    obtain ⟨d, hd, hid⟩ := howner
    refine ⟨if d.id ∈ s.candidates limit then d.moved .pending else d, ?_, ?_⟩
    · rw [requeuedAll_documents]
      exact List.mem_map_of_mem hd
    · split <;> exact hid

/-- With attempts to give, PostgreSQL refuses none of the new jobs. -/
theorem pgRequeueContingency_run (h : Agree s db) (hlimit : 0 ≤ limit)
    (hmax : 0 < max_attempts ∨ s.candidates limit = []) (hdraws : s.drawsNew limit fresh = true)
    (hperm : ((db.contingencyCandidates limit.toNat []).map Document.id).Perm
      (s.candidates limit)) :
    pgRequeueContingency db limit max_attempts now fresh =
      (.ok (.count (s.candidates limit).length),
        { db with
          documents := db.documents.map fun d =>
            if d.id ∈ (db.contingencyCandidates limit.toNat []).map Document.id then
              d.moved .pending
            else d
          jobs := db.jobs ++ Db.contingencyJobs (db.contingencyCandidates limit.toNat [])
            max_attempts now (freshAt (db.contingencyCandidates limit.toNat []) fresh) }) := by
  have hids : ((db.jobs ++ Db.contingencyJobs (db.contingencyCandidates limit.toNat [])
      max_attempts now (freshAt (db.contingencyCandidates limit.toNat []) fresh)).map
        JobRow.id).Nodup :=
    (requeued_agree h hdraws hperm).jobs_nodup
  have hpositive : ¬ (max_attempts ≤ 0 ∧ db.contingencyCandidates limit.toNat [] ≠ []) := by
    intro hrefused
    cases hmax with
    | inl hpos => omega
    | inr hnone =>
        rw [hnone] at hperm
        exact hrefused.2 (List.map_eq_nil_iff.mp (List.perm_nil.mp hperm))
  unfold pgRequeueContingency Db.requeueContingency
  rw [if_neg (not_lt.mpr hlimit), ← hperm.length_eq, List.length_map]
  dsimp only
  rw [if_neg (not_not.mpr hids), if_neg hpositive]
  rfl

theorem requeueContingency_lockstep (h : Agree s db) {order : ScanOrder}
    (hsame : (scanState order s).requeuesAlike limit max_attempts fresh = true) :
    Lockstep (.requeueContingency limit max_attempts now fresh order) s db := by
  rw [State.requeuesAlike, decide_eq_true_eq] at hsame
  obtain ⟨hlimit, hmax, hdraws, holdest⟩ := hsame
  have hscan := h.scan order
  have hperm := candidates_perm hscan (scan_documents h order) holdest
  have hmemory : inMemory (.requeueContingency limit max_attempts now fresh order) s =
      answered .count
        (requeueContingency limit max_attempts now fresh (scanState order s)) := rfl
  have hpg : inPostgres (.requeueContingency limit max_attempts now fresh order) db =
      pgRequeueContingency (scanDb order db) limit max_attempts now fresh := rfl
  unfold Lockstep
  rw [hmemory, hpg, requeueContingency_run,
    pgRequeueContingency_run hscan hlimit hmax hdraws hperm]
  exact ⟨rfl, requeued_agree hscan hdraws hperm⟩

end Requeue

/-! ## Runs -/

theorem lockstep_step (h : Agree s db) {op : QueueOp} (hop : alike op s = true) :
    Lockstep op s db := by
  cases op with
  | claim worker_id limit lease now order =>
      rw [alike, decide_eq_true_eq, Bool.not_eq_true] at hop
      exact claim_lockstep h hop.1 hop.2.1 hop.2.2
  | complete job_id => exact complete_lockstep h hop
  | retry job_id run_at error => exact retry_lockstep h hop
  | release job_id run_at => exact release_lockstep h hop
  | bury job_id error => exact bury_lockstep h hop
  | requeueContingency limit max_attempts now fresh order =>
      exact requeueContingency_lockstep h hop
  | retryDeadJob job_id audit now => exact retryDeadJob_lockstep h job_id audit now
  | queueDepth now => exact queueDepth_lockstep h now

theorem lockstep_run (h : Agree s db) (ops : List QueueOp) (hops : alikeAll ops s = true) :
    (runAll inMemory ops s).1 = (runAll inPostgres ops db).1 ∧
      Agree (runAll inMemory ops s).2 (runAll inPostgres ops db).2 := by
  induction ops generalizing s db with
  | nil => exact ⟨rfl, h⟩
  | cons op ops ih =>
      rw [alikeAll, Bool.and_eq_true] at hops
      obtain ⟨hanswer, hagree⟩ := lockstep_step h hops.1
      obtain ⟨hanswers, hend⟩ := ih hagree hops.2
      refine ⟨?_, hend⟩
      show (inMemory op s).1 :: _ = (inPostgres op db).1 :: _
      rw [hanswer, hanswers]

/-- The status, attempts and due time of every job and the status of every document. -/
def SameQueue (s : State) (db : Db) : Prop :=
  (∀ id, (s.jobs.get? id).map (fun j => (j.status, j.attempts, j.run_at)) =
    (db.job? id).map fun j => (j.status, j.attempts, j.run_at)) ∧
  ∀ id, (s.documents.get? id).map Document.status = (db.document? id).map Document.status

theorem Agree.sameQueue (h : Agree s db) : SameQueue s db := by
  constructor
  · intro id
    have hviews := congrArg
      (Option.map fun v : JobView => (v.status, v.attempts, v.run_at)) (h.job? id)
    rwa [Option.map_map, Option.map_map] at hviews
  · intro id
    have hviews := congrArg (Option.map DocumentView.status) (h.document? id)
    rwa [Option.map_map, Option.map_map] at hviews

/-- In a run of calls that each meet their condition the two stores give the same answers and end
    with the same queue. -/
theorem memory_agrees (h : Agree s db) (ops : List QueueOp) (hops : alikeAll ops s = true) :
    (runAll inMemory ops s).1 = (runAll inPostgres ops db).1 ∧
      SameQueue (runAll inMemory ops s).2 (runAll inPostgres ops db).2 := by
  obtain ⟨hanswers, hagree⟩ := lockstep_run h ops hops
  exact ⟨hanswers, hagree.sameQueue⟩

end Calls

/-! ### Two runs -/

def byId : ScanOrder := ⟨fun id => (id : Int), Int.ofNat_injective⟩

/-- PostgreSQL with the document and the job of `sentState`. -/
def sentDb : Db :=
  { Db.fresh [] with
    documents := sentState.documents.rows
    jobs := [(NewJob.pollStatus 20 10 "zip-1" 10 0).row] }

theorem sentDb_agrees : Agree sentState sentDb where
  jobs := .refl _
  documents := .refl _
  owned := by decide

/-- The status query is claimed, fails, waits and is claimed again. -/
theorem memory_agrees_on_retry :
    SameQueue
      (runAll inMemory [.claim "w" 5 60 0 byId, .retry 20 30 "timeout", .queueDepth 10,
        .claim "w" 5 60 40 byId] sentState).2
      (runAll inPostgres [.claim "w" 5 60 0 byId, .retry 20 30 "timeout", .queueDepth 10,
        .claim "w" 5 60 40 byId] sentDb).2 :=
  (memory_agrees sentDb_agrees _ (by decide)).2

/-- A worker took the job for the last time and never came back. -/
def abandoned (job : StoredJob) : StoredJob :=
  { job with status := .running, attempts := 10, locked_until := some 60 }

def abandonedState : State :=
  { sentState with
    jobs := sentState.jobs.update (fun _ => true) abandoned fun _ => rfl }

def abandonedDb : Db :=
  { sentDb with
    jobs := sentDb.jobs.map fun j =>
      { j with status := .running, attempts := 10, locked_until := some 60 } }

/-- Once its lease is past, a `claim` buries the job in PostgreSQL and leaves it running in
    memory. -/
theorem abandoned_job_differs :
    Agree abandonedState abandonedDb ∧
      ¬ SameQueue (runAll inMemory [.claim "w" 5 60 100 byId] abandonedState).2
        (runAll inPostgres [.claim "w" 5 60 100 byId] abandonedDb).2 := by
  refine ⟨⟨.refl _, .refl _, by decide⟩, fun hsame => ?_⟩
  exact absurd (hsame.1 20) (by decide)

end DianService.Memory
