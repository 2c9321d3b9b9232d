import DianService.Store.Tables
import DianService.Lib.Rows

/-
  Store: the queue of `PgStore` (`JobRepository` and `retry_dead_job`), statement by statement.

  A statement is one update of the committed rows at the instant `now()`. `skipped` are the rows
  that `SKIP LOCKED` passes over because another transaction holds them. A statement that would
  leave two active jobs of one kind for a document breaks `uq_jobs_active_per_document` and is
  refused before it changes anything.
-/

namespace DianService

open Lib

/-! ## Rows -/

namespace JobRow

/-- `status = 'running' AND locked_until < now()` -/
def leaseExpired (j : JobRow) (now : Time) : Bool :=
  j.status = .running ∧ j.locked_until.any (· < now)

/-- Ready to be claimed, for the first time or from a worker that died. -/
def ready (j : JobRow) (now : Time) : Bool :=
  ((j.status = .queued ∧ j.run_at ≤ now) ∨ j.leaseExpired now) ∧ j.attempts < j.max_attempts

def claimed (worker_id : String) (lease : Nat) (now : Time) (j : JobRow) : JobRow :=
  { j with
    status := .running
    attempts := j.attempts + 1
    locked_until := some (now + lease)
    locked_by := some worker_id }

def completed (j : JobRow) : JobRow := { j with status := .done, locked_until := none }

def buried (error : String) (j : JobRow) : JobRow :=
  { j with status := .dead, locked_until := none, last_error := some error }

/-- `COALESCE(last_error || ' | ', '') || 'lease expired on final attempt'` -/
def expired (j : JobRow) : JobRow :=
  { j with
    status := .dead
    locked_until := none
    last_error := some
      ((j.last_error.map (· ++ " | ")).getD "" ++ "lease expired on final attempt") }

def retried (run_at : Time) (error : String) (j : JobRow) : JobRow :=
  { j with
    status := .queued
    run_at := run_at
    locked_until := none
    locked_by := none
    last_error := some error }

def released (run_at : Time) (j : JobRow) : JobRow :=
  { j with
    status := .queued
    run_at := run_at
    locked_until := none
    locked_by := none
    attempts := max (j.attempts - 1) 0 }

/-- What `retry_dead_job` makes of a dead job. -/
def revived (now : Time) (j : JobRow) : JobRow :=
  { j with
    status := .queued
    attempts := 0
    run_at := now
    locked_until := none
    locked_by := none }

/-- The job a worker gets from the row it claimed. -/
def job (j : JobRow) : Job where
  id := j.id
  kind := j.kind
  document_id := j.document_id
  payload := j.payload
  attempts := j.attempts
  max_attempts := j.max_attempts

/-- The columns that no statement updates. -/
structure Same (j k : JobRow) : Prop where
  id : j.id = k.id
  kind : j.kind = k.kind
  document_id : j.document_id = k.document_id
  payload : j.payload = k.payload
  max_attempts : j.max_attempts = k.max_attempts

theorem Same.refl (j : JobRow) : Same j j := ⟨rfl, rfl, rfl, rfl, rfl⟩

theorem active_iff {j : JobRow} : j.active = true ↔ j.status = .queued ∨ j.status = .running := by
  simp [active]

theorem active_of_ready {j : JobRow} {now : Time} (h : j.ready now = true) : j.active = true := by
  simp only [ready, leaseExpired, decide_eq_true_eq] at h
  rw [active_iff]
  rcases h.1 with h | h
  · exact .inl h.1
  · exact .inr h.1

end JobRow

/-- `UPDATE documents SET status = status` -/
def Document.moved (status : DocumentStatus) (d : Document) : Document := { d with status := status }

/-! ## Updating rows -/

namespace Db

/-- `UPDATE jobs SET ...`, row by row. -/
def mapJobs (db : Db) (f : JobRow → JobRow) : Db := { db with jobs := db.jobs.map f }

/-- `UPDATE jobs SET ... WHERE id = id` -/
def updateJob (db : Db) (id : Uuid) (f : JobRow → JobRow) : Db :=
  db.mapJobs fun j => if j.id = id then f j else j

/-- `UPDATE documents SET ... WHERE id = id` -/
def updateDocument (db : Db) (id : Uuid) (f : Document → Document) : Db :=
  { db with documents := db.documents.map fun d => if d.id = id then f d else d }

@[simp] theorem mapJobs_documents (db : Db) (f : JobRow → JobRow) :
    (db.mapJobs f).documents = db.documents := rfl

@[simp] theorem mapJobs_dian_events (db : Db) (f : JobRow → JobRow) :
    (db.mapJobs f).dian_events = db.dian_events := rfl

@[simp] theorem mapJobs_jobs (db : Db) (f : JobRow → JobRow) :
    (db.mapJobs f).jobs = db.jobs.map f := rfl

@[simp] theorem updateJob_documents (db : Db) (id : Uuid) (f : JobRow → JobRow) :
    (db.updateJob id f).documents = db.documents := rfl

@[simp] theorem updateJob_dian_events (db : Db) (id : Uuid) (f : JobRow → JobRow) :
    (db.updateJob id f).dian_events = db.dian_events := rfl

@[simp] theorem updateJob_jobs (db : Db) (id : Uuid) (f : JobRow → JobRow) :
    (db.updateJob id f).jobs = db.jobs.map fun j => if j.id = id then f j else j := rfl

@[simp] theorem updateDocument_jobs (db : Db) (id : Uuid) (f : Document → Document) :
    (db.updateDocument id f).jobs = db.jobs := rfl

@[simp] theorem updateDocument_dian_events (db : Db) (id : Uuid) (f : Document → Document) :
    (db.updateDocument id f).dian_events = db.dian_events := rfl

@[simp] theorem updateDocument_documents (db : Db) (id : Uuid) (f : Document → Document) :
    (db.updateDocument id f).documents =
      db.documents.map fun d => if d.id = id then f d else d := rfl

/-! ## Settling a claimed job -/

/-- Another active job of the same kind for the document of `j`. -/
def hasOtherActiveJob (db : Db) (j : JobRow) : Bool :=
  db.jobs.any fun k => k.id ≠ j.id ∧ k.document_id = j.document_id ∧ k.kind = j.kind ∧ k.active

/-- Putting the job `id` back in the queue would break `uq_jobs_active_per_document`. -/
def wouldDuplicate (db : Db) (id : Uuid) : Bool :=
  db.jobs.any fun j => j.id = id ∧ db.hasOtherActiveJob j

def duplicateKey : DomainError :=
  refused "duplicate key value violates unique constraint \"uq_jobs_active_per_document\""

/-- An update that leaves the job in the queue. -/
def requeueJob (db : Db) (id : Uuid) (f : JobRow → JobRow) : Except DomainError Db :=
  if db.wouldDuplicate id then .error duplicateKey else .ok (db.updateJob id f)

def complete (db : Db) (job_id : Uuid) : Db := db.updateJob job_id JobRow.completed

def bury (db : Db) (job_id : Uuid) (error : String) : Db :=
  db.updateJob job_id (JobRow.buried error)

def retry (db : Db) (job_id : Uuid) (run_at : Time) (error : String) : Except DomainError Db :=
  db.requeueJob job_id (JobRow.retried run_at error)

def release (db : Db) (job_id : Uuid) (run_at : Time) : Except DomainError Db :=
  db.requeueJob job_id (JobRow.released run_at)

theorem requeueJob_ok {db db' : Db} {id : Uuid} {f : JobRow → JobRow}
    (h : db.requeueJob id f = .ok db') :
    db' = db.updateJob id f ∧ db.wouldDuplicate id = false := by
  unfold requeueJob at h
  split at h
  · cases h
  · rename_i hfree
    cases h
    exact ⟨rfl, by simpa using hfree⟩

theorem wouldDuplicate_eq_false {db : Db} {id : Uuid} :
    db.wouldDuplicate id = false ↔ ∀ j ∈ db.jobs, j.id = id → ∀ k ∈ db.jobs, k.id ≠ id →
      k.document_id = j.document_id → k.kind = j.kind → k.active = false := by
  simp only [wouldDuplicate, hasOtherActiveJob, List.any_eq_false, List.any_eq_true,
    decide_eq_true_eq, not_and, not_exists, Bool.not_eq_true]
  constructor
  · intro h j hj hid k hk hne
    exact h j hj hid k hk (hid ▸ hne)
  · intro h j hj hid k hk hne
    exact h j hj hid k hk (hid ▸ hne)

/-! ## Claiming -/

/-- The first statement of `claim`: a job whose lease expired on its last attempt is dead. -/
def buryExpired (db : Db) (now : Time) : Db :=
  db.mapJobs fun j => if j.leaseExpired now ∧ j.max_attempts ≤ j.attempts then j.expired else j

/-- The rows the second statement of `claim` picks. -/
def readyJobs (db : Db) (limit : Nat) (now : Time) (skipped : List Uuid) : List JobRow :=
  (orderBy JobRow.run_at (db.jobs.filter fun j => j.ready now ∧ j.id ∉ skipped)).take limit

/-- The second statement of `claim`. -/
def claim (db : Db) (worker_id : String) (limit lease : Nat) (now : Time) (skipped : List Uuid) :
    Db × List Job :=
  let picked := db.readyJobs limit now skipped
  (db.mapJobs fun j =>
      if j.id ∈ picked.map JobRow.id then j.claimed worker_id lease now else j,
    picked.map fun j => (j.claimed worker_id lease now).job)

theorem mem_of_mem_readyJobs {db : Db} {limit : Nat} {now : Time} {skipped : List Uuid}
    {j : JobRow} (h : j ∈ db.readyJobs limit now skipped) : j ∈ db.jobs ∧ j.ready now = true := by
  have h := mem_orderBy.mp (List.mem_of_mem_take h)
  rw [List.mem_filter, decide_eq_true_eq] at h
  exact ⟨h.1, h.2.1⟩

theorem readyJobs_nodup {db : Db} {limit : Nat} {now : Time} {skipped : List Uuid}
    (h : (db.jobs.map JobRow.id).Nodup) : ((db.readyJobs limit now skipped).map JobRow.id).Nodup := by
  have hfilter := List.Nodup.sublist
    ((List.filter_sublist (p := fun j : JobRow => j.ready now ∧ j.id ∉ skipped)).map JobRow.id) h
  have horder := ((orderBy_perm JobRow.run_at _).map JobRow.id).nodup_iff.mpr hfilter
  exact horder.sublist ((List.take_sublist _ _).map JobRow.id)

/-! ## Contingency -/

/-- The documents `requeue_contingency` picks. -/
def contingencyCandidates (db : Db) (limit : Nat) (skipped : List Uuid) : List Document :=
  (orderBy Document.created_at (db.documents.filter fun d =>
    d.status = .contingencyPending ∧ ¬ db.hasActiveJob d.id .transmit ∧ d.id ∉ skipped)).take limit

/-- The jobs it inserts; `fresh` are the ids that `gen_random_uuid()` draws. -/
def contingencyJobs (picked : List Document) (max_attempts : Int) (now : Time)
    (fresh : Nat → Uuid) : List JobRow :=
  picked.mapIdx fun i d => (NewJob.transmit (fresh i) now d.id max_attempts).row

def requeueContingency (db : Db) (limit : Nat) (max_attempts : Int) (now : Time)
    (fresh : Nat → Uuid) (skipped : List Uuid) : Except DomainError (Db × Nat) :=
  let picked := db.contingencyCandidates limit skipped
  let rows := contingencyJobs picked max_attempts now fresh
  if ¬ ((db.jobs ++ rows).map JobRow.id).Nodup then
    .error (refused "duplicate key value violates unique constraint \"jobs_pkey\"")
  else if max_attempts ≤ 0 ∧ picked ≠ [] then
    .error (refused "new row for relation \"jobs\" violates check constraint \"chk_jobs_attempts\"")
  else
    .ok ({ db with
      documents := db.documents.map fun d =>
        if d.id ∈ picked.map Document.id then d.moved .pending else d
      jobs := db.jobs ++ rows }, picked.length)

theorem requeueContingency_ok {db db' : Db} {limit n : Nat} {max_attempts : Int} {now : Time}
    {fresh : Nat → Uuid} {skipped : List Uuid}
    (h : db.requeueContingency limit max_attempts now fresh skipped = .ok (db', n)) :
    db'.documents = db.documents.map (fun d =>
        if d.id ∈ (db.contingencyCandidates limit skipped).map Document.id then d.moved .pending
        else d) ∧
      db'.jobs = db.jobs ++
        contingencyJobs (db.contingencyCandidates limit skipped) max_attempts now fresh ∧
      db'.dian_events = db.dian_events ∧ (db'.jobs.map JobRow.id).Nodup ∧
      (db.contingencyCandidates limit skipped ≠ [] → 0 < max_attempts) := by
  unfold requeueContingency at h
  dsimp only at h
  split at h
  · cases h
  · rename_i hids
    split at h
    · cases h
    · rename_i hmax
      cases h
      exact ⟨rfl, rfl, rfl, not_not.mp hids, fun hne => by by_contra hle; exact hmax ⟨by omega, hne⟩⟩

/-- It only writes documents and jobs. -/
theorem requeueContingency_frame {db db' : Db} {limit n : Nat} {max_attempts : Int}
    {now : Time} {fresh : Nat → Uuid} {skipped : List Uuid}
    (h : db.requeueContingency limit max_attempts now fresh skipped = .ok (db', n)) :
    db' = { db with documents := db'.documents, jobs := db'.jobs } := by
  unfold requeueContingency at h
  dsimp only at h
  split_ifs at h
  cases h
  rfl

theorem mem_of_mem_contingencyCandidates {db : Db} {limit : Nat} {skipped : List Uuid}
    {d : Document} (h : d ∈ db.contingencyCandidates limit skipped) :
    d ∈ db.documents ∧ d.status = .contingencyPending ∧ db.hasActiveJob d.id .transmit = false := by
  have h := mem_orderBy.mp (List.mem_of_mem_take h)
  rw [List.mem_filter, decide_eq_true_eq, Bool.not_eq_true] at h
  exact ⟨h.1, h.2.1, h.2.2.1⟩

theorem mem_contingencyJobs {picked : List Document} {max_attempts : Int} {now : Time}
    {fresh : Nat → Uuid} {j : JobRow} (h : j ∈ contingencyJobs picked max_attempts now fresh) :
    ∃ d ∈ picked, ∃ id, j = (NewJob.transmit id now d.id max_attempts).row := by
  obtain ⟨i, hi, rfl⟩ := List.mem_mapIdx.mp h
  exact ⟨_, List.getElem_mem _, fresh i, rfl⟩

theorem contingencyCandidates_nodup {db : Db} {limit : Nat} {skipped : List Uuid}
    (h : (db.documents.map Document.id).Nodup) :
    ((db.contingencyCandidates limit skipped).map Document.id).Nodup := by
  have hfilter := List.Nodup.sublist
    ((List.filter_sublist (p := fun d : Document => d.status = .contingencyPending ∧
      ¬ db.hasActiveJob d.id .transmit ∧ d.id ∉ skipped)).map Document.id) h
  have horder := ((orderBy_perm Document.created_at _).map Document.id).nodup_iff.mpr hfilter
  exact horder.sublist ((List.take_sublist _ _).map Document.id)

/-- One job for each document. -/
theorem contingencyJobs_eq {picked : List Document} {max_attempts : Int} {now : Time}
    {fresh : Nat → Uuid} (h : (picked.map Document.id).Nodup) :
    ∀ j ∈ contingencyJobs picked max_attempts now fresh,
      ∀ k ∈ contingencyJobs picked max_attempts now fresh,
        j.document_id = k.document_id → j.kind = k.kind → j = k := by
  intro j hj k hk hdoc _
  obtain ⟨i, hi, rfl⟩ := List.mem_mapIdx.mp hj
  obtain ⟨l, hl, rfl⟩ := List.mem_mapIdx.mp hk
  have hi' : i < (picked.map Document.id).length := by simpa using hi
  have hl' : l < (picked.map Document.id).length := by simpa using hl
  have hdoc' : (picked.map Document.id)[i] = (picked.map Document.id)[l] := by
    simpa [NewJob.row, NewJob.transmit] using hdoc
  have : i = l := (List.Nodup.getElem_inj_iff h).mp hdoc'
  subst this
  rfl

/-! ## Retry by the administrator -/

/-- The statuses in which a dead job still applies. -/
def retryAllowed : JobKind → DocumentStatus → Bool
  | .transmit, status => status = .pending ∨ status = .contingencyPending
  | .pollStatus, status => status = .sentDian

def noLongerApplies (kind : JobKind) (status : DocumentStatus) : DomainError :=
  .conflict ("El documento esta en estado " ++ status.asStr ++ ": el trabajo " ++ kind.asStr ++
    " ya no aplica")

def retryDeadJob (db : Db) (job_id : Uuid) (audit : AuditEntry) (now : Time) :
    Except DomainError (Db × Bool) :=
  match (db.job? job_id).filter fun j => j.status = .dead with
  | none => .ok (db, false)
  | some j =>
      match db.document? j.document_id with
      | none => .ok (db, false)
      | some d =>
          if ¬ retryAllowed j.kind d.status then .error (noLongerApplies j.kind d.status)
          else if db.wouldDuplicate job_id then
            .error (.conflict "El documento ya tiene un trabajo activo")
          else
            let moved :=
              if j.kind = .transmit ∧ d.status = .contingencyPending then
                db.updateDocument d.id (Document.moved .pending)
              else db
            .ok ({ moved.updateJob job_id (JobRow.revived now) with
              admin_audit_log := db.admin_audit_log ++ [audit] }, true)

/-- Everything an accepted `retry_dead_job` tests and does. -/
theorem retryDeadJob_ok {db db' : Db} {job_id : Uuid} {audit : AuditEntry} {now : Time} {b : Bool}
    (h : db.retryDeadJob job_id audit now = .ok (db', b)) :
    db' = db ∨ ∃ j d, j ∈ db.jobs ∧ j.id = job_id ∧ j.status = .dead ∧
      d ∈ db.documents ∧ d.id = j.document_id ∧ retryAllowed j.kind d.status = true ∧
      db.wouldDuplicate job_id = false ∧
      db'.dian_events = db.dian_events ∧
      db'.jobs = db.jobs.map (fun k => if k.id = job_id then k.revived now else k) ∧
      db'.documents = if j.kind = .transmit ∧ d.status = .contingencyPending then
        db.documents.map fun e => if e.id = d.id then e.moved .pending else e
        else db.documents := by
  unfold retryDeadJob at h
  split at h
  · cases h
    exact .inl rfl
  · rename_i j hj
    rw [Option.filter_eq_some_iff] at hj
    split at h
    · cases h
      exact .inl rfl
    · rename_i d hd
      split at h
      · cases h
      · rename_i hallowed
        split at h
        · cases h
        · rename_i hfree
          cases h
          obtain ⟨hmem, hid⟩ := job?_mem hj.1
          obtain ⟨hdmem, hdid⟩ := document?_mem hd
          refine .inr ⟨j, d, hmem, hid, by simpa using hj.2, hdmem, hdid, by simpa using hallowed,
            by simpa using hfree, ?_, ?_, ?_⟩
          · split <;> rfl
          · split <;> rfl
          · split <;> rfl

/-- It answers `true` where it changes anything. -/
theorem retryDeadJob_true {db db' : Db} {job_id : Uuid} {audit : AuditEntry} {now : Time} {b : Bool}
    (h : db.retryDeadJob job_id audit now = .ok (db', b)) (hne : db' ≠ db) : b = true := by
  unfold retryDeadJob at h
  split at h
  · cases h
    exact absurd rfl hne
  · split at h
    · cases h
      exact absurd rfl hne
    · dsimp only at h
      split_ifs at h
      all_goals
        cases h
        rfl

/-- It only writes documents, jobs and the audit log. -/
theorem retryDeadJob_frame {db db' : Db} {job_id : Uuid} {audit : AuditEntry} {now : Time}
    {b : Bool} (h : db.retryDeadJob job_id audit now = .ok (db', b)) :
    db' = { db with documents := db'.documents, jobs := db'.jobs, admin_audit_log := db'.admin_audit_log } := by
  unfold retryDeadJob at h
  split at h
  · cases h
    rfl
  · split at h
    · cases h
      rfl
    · dsimp only at h
      split_ifs at h
      all_goals
        cases h
        rfl

end Db

end DianService
