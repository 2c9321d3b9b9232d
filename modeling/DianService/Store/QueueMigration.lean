import DianService.Store.Jobs

/-
  Store: the migration that creates the queue (`20261023000000_jobs_and_idempotency.sql`). The
  documents that were in course in the queue it replaces get a job each, by three statements
  that run in this order: the transmissions, the statuses, the queries.

  A query needs the key under which the DIAN tracks the document, and the statement takes it
  from the events of the document; where they do not tell it, the statement inserts nothing.
-/

namespace DianService

open Lib

def Document.inCourse (d : Document) : Bool :=
  d.direction = .outbound ∧ (d.status = .pending ∨ d.status = .contingencyPending)

def Document.inContingency (d : Document) : Bool :=
  d.direction = .outbound ∧ d.status = .contingencyPending

def Document.awaitsVerdict (d : Document) : Bool :=
  d.direction = .outbound ∧ d.status = .sentDian

/-- `event_status = 'sent'` of the document. -/
def DianEvent.sentFor (document_id : Uuid) (e : DianEvent) : Bool :=
  e.document_id = document_id ∧ e.event_status = .sent

/-- A row with the defaults of the table. -/
def JobRow.migrated (id : Uuid) (kind : JobKind) (document_id : Uuid) (payload : Value)
    (max_attempts : Int) (now : Time) : JobRow where
  id := id
  kind := kind
  document_id := document_id
  payload := payload
  status := .queued
  attempts := 0
  max_attempts := max_attempts
  run_at := now
  locked_until := none
  locked_by := none
  last_error := none

namespace Db

variable (uuid : JobKind → Uuid → Uuid) (now : Time)

/-- `CREATE TABLE jobs` -/
def createJobs (db : Db) : Db := { db with jobs := [] }

/-- The first `INSERT INTO jobs`; `uuid` gives the random ids. -/
def insertTransmitJobs (db : Db) : Db :=
  { db with
    jobs := db.jobs ++ (db.documents.filter (·.inCourse)).flatMap fun d =>
      [.migrated (uuid .transmit d.id) .transmit d.id (.object []) 5 now] }

/-- `UPDATE documents SET status = 'pending'` -/
def endContingency (db : Db) : Db :=
  { db with
    documents := db.documents.map fun d => if d.inContingency then d.moved .pending else d }

/-- The rows of the `LATERAL` subquery. -/
def latestSent (db : Db) (document_id : Uuid) : List String :=
  ((latestBy (·.created_at) (db.dian_events.filter fun e =>
    e.sentFor document_id ∧ e.soap_trace_id.isSome)).bind (·.soap_trace_id)).toList

/-- The second `INSERT INTO jobs`. -/
def insertPollJobs (db : Db) : Db :=
  { db with
    jobs := db.jobs ++ (db.documents.filter (·.awaitsVerdict)).flatMap fun d =>
      (db.latestSent d.id).map fun soap_trace_id =>
        .migrated (uuid .pollStatus d.id) .pollStatus d.id
          (.object [("zip_key", .string soap_trace_id)]) 30 now }

/-- The migration, as far as it changes rows. -/
def migrateQueue (db : Db) : Db :=
  ((db.createJobs.insertTransmitJobs uuid now).endContingency).insertPollJobs uuid now

/-- The active jobs of a document. -/
def activeJobsOf (db : Db) (document_id : Uuid) : List JobRow :=
  db.jobs.filter fun j => j.document_id = document_id ∧ j.active

/-- An event `sent` of the document that no other is later than, with its tracking key. -/
def LatestSend (db : Db) (document_id : Uuid) (zip_key : String) : Prop :=
  ∃ e ∈ db.dian_events, e.sentFor document_id ∧ e.soap_trace_id = some zip_key ∧
    ∀ e' ∈ db.dian_events, e'.sentFor document_id → e'.created_at ≤ e.created_at

end Db

/-- The only active job of a document is of this kind, and a worker takes it from `now` on. -/
def JobRow.Waits (kind : JobKind) (now : Time) (jobs : List JobRow) (j : JobRow) : Prop :=
  jobs = [j] ∧ j.kind = kind ∧ ∀ t, now ≤ t → j.ready t

/-- What the migration is to do. -/
structure QueueMigrated (db db' : Db) (now : Time) : Prop where
  transmit : ∀ d ∈ db.documents, d.inCourse →
    ∃ j, JobRow.Waits .transmit now (db'.activeJobsOf d.id) j
  poll : ∀ d ∈ db.documents, d.awaitsVerdict → ∃ j zip_key,
    JobRow.Waits .pollStatus now (db'.activeJobsOf d.id) j ∧
      j.job.zipKey = some zip_key ∧ db.LatestSend d.id zip_key
  others : ∀ id, (∀ d ∈ db.documents, d.id = id → ¬ d.inCourse ∧ ¬ d.awaitsVerdict) →
    db'.activeJobsOf id = []
  statuses : ∀ d ∈ db.documents,
    db'.document? d.id = some (if d.inContingency then d.moved .pending else d)

/-- The latest send of every document that awaits its verdict has a tracking key. -/
def Db.Traced (db : Db) : Prop :=
  ∀ d ∈ db.documents, d.awaitsVerdict → ∃ zip_key, db.LatestSend d.id zip_key

/-! ## The rows of one document -/

section Rows

variable {db : Db} {uuid : JobKind → Uuid → Uuid} {now : Time} {d : Document}

theorem migrated_ready {id document_id : Uuid} {kind : JobKind} {payload : Value}
    {max_attempts : Int} {t : Time} (hmax : 0 < max_attempts) (ht : now ≤ t) :
    (JobRow.migrated id kind document_id payload max_attempts now).ready t = true := by
  simp [JobRow.ready, JobRow.migrated, hmax, ht]

theorem id_moved (d : Document) : (if d.inContingency then d.moved .pending else d).id = d.id := by
  split <;> rfl

/-- The documents after the second statement. -/
theorem endContingency_ids :
    (db.endContingency.documents.map (·.id)) = db.documents.map (·.id) := by
  unfold Db.endContingency
  rw [List.map_map]
  exact List.map_congr_left fun d _ => id_moved d

theorem awaitsVerdict_moved (d : Document) :
    (if d.inContingency then d.moved .pending else d).awaitsVerdict = d.awaitsVerdict := by
  split
  · rename_i h
    simp only [Document.inContingency, decide_eq_true_eq] at h
    simp [Document.awaitsVerdict, Document.moved, h.2]
  · rfl

/-- Every row is active. -/
theorem activeJobsOf_migrateQueue (id : Uuid) :
    (db.migrateQueue uuid now).activeJobsOf id =
      (db.migrateQueue uuid now).jobs.filter fun j => j.document_id = id := by
  have hactive : ∀ j ∈ (db.migrateQueue uuid now).jobs, j.active = true := by
    intro j hj
    simp only [Db.migrateQueue, Db.insertPollJobs, Db.endContingency, Db.insertTransmitJobs,
      Db.createJobs, List.nil_append, List.mem_append, List.mem_flatMap, List.mem_map,
      List.mem_singleton] at hj
    obtain ⟨_, _, rfl⟩ | ⟨_, _, _, _, rfl⟩ := hj <;> rfl
  exact List.filter_congr fun j hj => by simp [hactive j hj]

/-- What the migration inserts for one document. -/
theorem activeJobsOf_document (uuid : JobKind → Uuid → Uuid) (now : Time)
    (hkey : (db.documents.map (·.id)).Nodup) (hd : d ∈ db.documents) :
    (db.migrateQueue uuid now).activeJobsOf d.id =
      (if d.inCourse then
        [.migrated (uuid .transmit d.id) .transmit d.id (.object []) 5 now] else []) ++
      if d.awaitsVerdict then (db.latestSent d.id).map fun soap_trace_id =>
        .migrated (uuid .pollStatus d.id) .pollStatus d.id
          (.object [("zip_key", .string soap_trace_id)]) 30 now
      else [] := by
  let moved : Document := if d.inContingency then d.moved .pending else d
  have hmoved : moved ∈ db.endContingency.documents := List.mem_map_of_mem hd
  have hid : moved.id = d.id := id_moved d
  rw [activeJobsOf_migrateQueue]
  show (List.filter _ ([] ++ (db.documents.filter (·.inCourse)).flatMap _ ++
    (db.endContingency.documents.filter (·.awaitsVerdict)).flatMap _)) = _
  rw [List.nil_append, List.filter_append]
  congr 1
  · refine filter_flatMap_key hkey (fun r s hs => ?_) hd
    rw [List.mem_singleton.mp hs]
    rfl
  · let poll : Document → List JobRow := fun d => (db.latestSent d.id).map fun soap_trace_id =>
      JobRow.migrated (uuid .pollStatus d.id) .pollStatus d.id
        (.object [("zip_key", .string soap_trace_id)]) 30 now
    have hkeys : (db.endContingency.documents.map (·.id)).Nodup := by
      rw [endContingency_ids]
      exact hkey
    have hpolled : ∀ d, ∀ j ∈ poll d, j.document_id = d.id := by
      intro d j hj
      obtain ⟨_, _, rfl⟩ := List.mem_map.mp hj
      rfl
    have hpoll := filter_flatMap_key (p := fun d => d.awaitsVerdict) hkeys hpolled hmoved
    dsimp only [poll] at hpoll
    rw [hid] at hpoll
    have hawaits : moved.awaitsVerdict = d.awaitsVerdict := awaitsVerdict_moved d
    rw [hawaits] at hpoll
    exact hpoll

/-- A job of the queue is of a document that was in course. -/
theorem activeJobsOf_other {id : Uuid}
    (h : ∀ d ∈ db.documents, d.id = id → ¬ d.inCourse ∧ ¬ d.awaitsVerdict) :
    (db.migrateQueue uuid now).activeJobsOf id = [] := by
  rw [activeJobsOf_migrateQueue]
  refine List.filter_eq_nil_iff.mpr fun j hj hid => ?_
  have hid := of_decide_eq_true hid
  simp only [Db.migrateQueue, Db.insertPollJobs, Db.endContingency, Db.insertTransmitJobs,
    Db.createJobs, List.nil_append, List.mem_append, List.mem_flatMap, List.mem_map,
    List.mem_singleton, List.mem_filter] at hj
  obtain ⟨d, ⟨hd, hcourse⟩, rfl⟩ | ⟨_, ⟨⟨d, hd, rfl⟩, hawaits⟩, _, _, rfl⟩ := hj
  · exact (h d hd hid).1 hcourse
  · rw [awaitsVerdict_moved] at hawaits
    exact (h d hd ((id_moved d).symm.trans hid)).2 hawaits

/-- The subquery finds a latest send with a key, if there is one. -/
theorem latestSend_of_latestSent {zip_key : String} (htraced : ∃ key, db.LatestSend d.id key)
    (h : zip_key ∈ db.latestSent d.id) : db.LatestSend d.id zip_key := by
  unfold Db.latestSent at h
  rw [Option.mem_toList, Option.bind_eq_some_iff] at h
  obtain ⟨e, hlatest, hkey⟩ := h
  obtain ⟨he, hsent⟩ := List.mem_filter.mp (mem_of_latestBy hlatest)
  have hsent : e.sentFor d.id ∧ e.soap_trace_id.isSome := of_decide_eq_true hsent
  refine ⟨e, he, hsent.1, hkey, fun e' he' hsent' => ?_⟩
  -- the latest of all has a key, so it is among those that the subquery orders
  obtain ⟨key, m, hm, hsentm, hkeym, hlast⟩ := htraced
  have hcandidate : m ∈ db.dian_events.filter fun e => e.sentFor d.id ∧ e.soap_trace_id.isSome :=
    List.mem_filter.mpr ⟨hm, decide_eq_true ⟨hsentm, by rw [hkeym]; rfl⟩⟩
  have hle := le_of_latestBy hlatest m hcandidate
  exact (hlast e' he' hsent').trans hle

theorem latestSent_eq (htraced : ∃ key, db.LatestSend d.id key) :
    ∃ zip_key, db.latestSent d.id = [zip_key] ∧ db.LatestSend d.id zip_key := by
  obtain ⟨key, m, hm, hsent, hkey, _⟩ := id htraced
  have hcandidate : m ∈ db.dian_events.filter fun e => e.sentFor d.id ∧ e.soap_trace_id.isSome :=
    List.mem_filter.mpr ⟨hm, decide_eq_true ⟨hsent, by rw [hkey]; rfl⟩⟩
  cases hlatest : latestBy (·.created_at) (db.dian_events.filter fun e =>
      e.sentFor d.id ∧ e.soap_trace_id.isSome) with
  | none =>
      rw [latestBy_eq_none.mp hlatest] at hcandidate
      cases hcandidate
  | some e =>
      have he := of_decide_eq_true (List.mem_filter.mp (mem_of_latestBy hlatest)).2
      obtain ⟨zip_key, hzip⟩ := Option.isSome_iff_exists.mp he.2
      have hlist : db.latestSent d.id = [zip_key] := by
        rw [Db.latestSent, hlatest, Option.bind_some, hzip]
        rfl
      exact ⟨zip_key, hlist, latestSend_of_latestSent htraced (hlist ▸ List.mem_singleton_self _)⟩

end Rows

/-- Each document in course gets its job if and only if the events tell the key of every document
    that awaits its verdict. -/
theorem queue_migrated_iff {db : Db} (uuid : JobKind → Uuid → Uuid) (now : Time)
    (hkey : (db.documents.map (·.id)).Nodup) :
    QueueMigrated db (db.migrateQueue uuid now) now ↔ db.Traced := by
  constructor
  · intro h d hd hawaits
    obtain ⟨_, zip_key, _, _, hlatest⟩ := h.poll d hd hawaits
    exact ⟨zip_key, hlatest⟩
  · intro htraced
    refine ⟨fun d hd hcourse => ?_, fun d hd hawaits => ?_, fun id hid => ?_, fun d hd => ?_⟩
    · have hrows := activeJobsOf_document uuid now hkey hd
      have hnot : d.awaitsVerdict = false := by
        simp only [Document.inCourse, decide_eq_true_eq] at hcourse
        cases hcourse.2 with
        | inl hstatus => simp [Document.awaitsVerdict, hstatus]
        | inr hstatus => simp [Document.awaitsVerdict, hstatus]
      rw [if_pos hcourse, hnot, if_neg Bool.false_ne_true, List.append_nil] at hrows
      exact ⟨_, hrows, rfl, fun t ht => migrated_ready (by decide) ht⟩
    · have hrows := activeJobsOf_document uuid now hkey hd
      have hnot : d.inCourse = false := by
        simp only [Document.awaitsVerdict, decide_eq_true_eq] at hawaits
        simp [Document.inCourse, hawaits.2]
      obtain ⟨zip_key, hsent, hlatest⟩ := latestSent_eq (htraced d hd hawaits)
      rw [hnot, if_neg Bool.false_ne_true, if_pos hawaits, hsent, List.nil_append] at hrows
      exact ⟨_, zip_key, ⟨hrows, rfl, fun t ht => migrated_ready (by decide) ht⟩, rfl, hlatest⟩
    · exact activeJobsOf_other hid
    · have hids : ((db.migrateQueue uuid now).documents.map (·.id)).Nodup := by
        show (db.endContingency.documents.map (·.id)).Nodup
        rw [endContingency_ids]
        exact hkey
      have hfound := find?_key_eq hids
        (show (if d.inContingency then d.moved .pending else d) ∈ _ from List.mem_map_of_mem hd)
      rw [id_moved] at hfound
      exact hfound

/-- A document that awaits its verdict, with the events of its sends. -/
def awaiting (events : List (Option String × Time)) : Db :=
  { Db.fresh [⟨1, "900123456"⟩] with
    documents := [⟨7, 1, .outbound, "", .invoice, "SETP", 1, none, "", .object [], none, none,
      .sentDian, 0⟩]
    dian_events := events.map fun e => ⟨3, 7, .sent, none, none, e.1, none, e.2⟩ }

theorem queue_migrated_iff_awaiting :
    QueueMigrated (awaiting [(some "zip-1", 1), (some "zip-2", 2)])
        ((awaiting [(some "zip-1", 1), (some "zip-2", 2)]).migrateQueue (fun _ id => id) 5) 5 ↔
      (awaiting [(some "zip-1", 1), (some "zip-2", 2)]).Traced :=
  queue_migrated_iff _ 5 (by decide)

/-- The send was recorded without a key: the document is left without a job. -/
theorem queue_migration_strands : ¬ ∀ (db : Db) (uuid : JobKind → Uuid → Uuid) (now : Time),
    (db.documents.map (·.id)).Nodup → QueueMigrated db (db.migrateQueue uuid now) now := by
  intro h
  have hpoll := (h (awaiting [(none, 1)]) (fun _ id => id) 5 (by decide)).poll _
    List.mem_cons_self (by decide)
  obtain ⟨j, _, ⟨hjob, _⟩, _⟩ := hpoll
  have hnone : ((awaiting [(none, 1)]).migrateQueue (fun _ id => id) 5).activeJobsOf 7 = [] := rfl
  exact absurd (hnone.symm.trans hjob) (by simp)

end DianService
