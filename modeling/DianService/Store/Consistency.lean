import DianService.Store.Documents

/-
  Store: the constraints of `documents` and `jobs` that the migrations declare (primary keys,
  `jobs.document_id`, `uq_jobs_active_per_document`, `chk_jobs_attempts`), kept by every kind of
  update the statements make. `Kept` is what all of them leave alone: no row goes away and none
  changes its identity.
-/

namespace DianService

open Lib

/-- The columns of a document that no statement updates. -/
structure Document.Same (d e : Document) : Prop where
  id : d.id = e.id
  tenant_id : d.tenant_id = e.tenant_id
  direction : d.direction = e.direction
  document_type : d.document_type = e.document_type
  pfx : d.pfx = e.pfx
  document_number : d.document_number = e.document_number
  payload : d.payload = e.payload

theorem Document.Same.refl (d : Document) : Same d d := ⟨rfl, rfl, rfl, rfl, rfl, rfl, rfl⟩

/-! ## What no statement takes away -/

structure Kept (db db' : Db) : Prop where
  jobs : ∀ j ∈ db.jobs, ∃ k ∈ db'.jobs, j.Same k
  documents : ∀ d ∈ db.documents, ∃ e ∈ db'.documents, d.Same e
  dian_events : ∀ e ∈ db.dian_events, e ∈ db'.dian_events

section Rows

variable {jobs rows : List JobRow} {documents : List Document}

theorem kept_jobs_refl (rows : List JobRow) : ∀ j ∈ jobs, ∃ k ∈ jobs ++ rows, j.Same k :=
  fun j hj => ⟨j, List.mem_append_left _ hj, .refl j⟩

theorem kept_jobs_map {f : JobRow → JobRow} (h : ∀ j : JobRow, j.Same (f j)) (rows : List JobRow) :
    ∀ j ∈ jobs, ∃ k ∈ jobs.map f ++ rows, j.Same k :=
  fun j hj => ⟨f j, List.mem_append_left _ (List.mem_map_of_mem hj), h j⟩

theorem kept_documents_map {f : Document → Document} (h : ∀ d : Document, d.Same (f d)) :
    ∀ d ∈ documents, ∃ e ∈ documents.map f, d.Same e :=
  fun d hd => ⟨f d, List.mem_map_of_mem hd, h d⟩

theorem same_ite {f : JobRow → JobRow} (h : ∀ j : JobRow, j.Same (f j)) (p : JobRow → Prop)
    [DecidablePred p] (j : JobRow) : j.Same (if p j then f j else j) := by
  split
  · exact h j
  · exact .refl j

theorem Document.same_ite {f : Document → Document} (h : ∀ d : Document, d.Same (f d)) (p : Document → Prop)
    [DecidablePred p] (d : Document) : d.Same (if p d then f d else d) := by
  split
  · exact h d
  · exact .refl d

theorem Document.same_moved (status : DocumentStatus) (d : Document) : d.Same (d.moved status) :=
  ⟨rfl, rfl, rfl, rfl, rfl, rfl, rfl⟩

theorem Document.same_signed (cufe original_xml signed_xml : String) (d : Document) :
    d.Same (d.signed cufe original_xml signed_xml) := ⟨rfl, rfl, rfl, rfl, rfl, rfl, rfl⟩

end Rows

/-! ## The constraints -/

structure Consistent (documents : List Document) (jobs : List JobRow) : Prop where
  document_ids : (documents.map Document.id).Nodup
  job_ids : (jobs.map JobRow.id).Nodup
  foreign : ∀ j ∈ jobs, ∃ d ∈ documents, d.id = j.document_id
  active : ∀ j ∈ jobs, ∀ k ∈ jobs, j.active = true → k.active = true →
    j.document_id = k.document_id → j.kind = k.kind → j = k
  attempts : ∀ j ∈ jobs, 0 ≤ j.attempts

namespace Consistent

variable {documents : List Document} {jobs rows : List JobRow}

theorem nil : Consistent [] [] := ⟨.nil, .nil, by simp, by simp, by simp⟩

theorem eq_of_id (h : Consistent documents jobs) {j k : JobRow} (hj : j ∈ jobs) (hk : k ∈ jobs)
    (hid : j.id = k.id) : j = k :=
  eq_of_key_eq h.job_ids hj hk hid

theorem document_eq_of_id (h : Consistent documents jobs) {d e : Document} (hd : d ∈ documents)
    (he : e ∈ documents) (hid : d.id = e.id) : d = e :=
  eq_of_key_eq h.document_ids hd he hid

/-- A statement that only updates documents. -/
theorem mapDocuments (h : Consistent documents jobs) {f : Document → Document}
    (hf : ∀ d : Document, d.Same (f d)) : Consistent (documents.map f) jobs where
  document_ids := by
    rw [List.map_map, show Document.id ∘ f = Document.id from funext fun d => (hf d).id.symm]
    exact h.document_ids
  job_ids := h.job_ids
  foreign := fun j hj => by
    obtain ⟨d, hd, hid⟩ := h.foreign j hj
    exact ⟨f d, List.mem_map_of_mem hd, (hf d).id ▸ hid⟩
  active := h.active
  attempts := h.attempts

/-- A new document. -/
theorem addDocument (h : Consistent documents jobs) {d : Document}
    (hd : ∀ e ∈ documents, e.id ≠ d.id) : Consistent (documents ++ [d]) jobs where
  document_ids := by
    rw [List.map_append, List.nodup_append]
    refine ⟨h.document_ids, by simp, ?_⟩
    intro a ha b hb hab
    obtain ⟨e, he, rfl⟩ := List.mem_map.mp ha
    simp only [List.map_cons, List.map_nil, List.mem_singleton] at hb
    exact hd e he (hab.trans hb)
  job_ids := h.job_ids
  foreign := fun j hj => by
    obtain ⟨e, he, hid⟩ := h.foreign j hj
    exact ⟨e, List.mem_append_left _ he, hid⟩
  active := h.active
  attempts := h.attempts

/-- A statement that only updates jobs, and leaves two of them active only where two were. -/
theorem mapJobs (h : Consistent documents jobs) {f : JobRow → JobRow} (hf : ∀ j : JobRow, j.Same (f j))
    (hactive : ∀ j ∈ jobs, ∀ k ∈ jobs, (f j).active = true → (f k).active = true →
      j.document_id = k.document_id → j.kind = k.kind → j = k)
    (hattempts : ∀ j ∈ jobs, 0 ≤ (f j).attempts) : Consistent documents (jobs.map f) where
  document_ids := h.document_ids
  job_ids := by
    rw [List.map_map, show JobRow.id ∘ f = JobRow.id from funext fun j => (hf j).id.symm]
    exact h.job_ids
  foreign := by
    intro j hj
    obtain ⟨k, hk, rfl⟩ := List.mem_map.mp hj
    rw [← (hf k).document_id]
    exact h.foreign k hk
  active := by
    intro j hj k hk hja hka hdoc hkind
    obtain ⟨j₀, hj₀, rfl⟩ := List.mem_map.mp hj
    obtain ⟨k₀, hk₀, rfl⟩ := List.mem_map.mp hk
    rw [← (hf j₀).document_id, ← (hf k₀).document_id] at hdoc
    rw [← (hf j₀).kind, ← (hf k₀).kind] at hkind
    rw [hactive j₀ hj₀ k₀ hk₀ hja hka hdoc hkind]
  attempts := by
    intro j hj
    obtain ⟨k, hk, rfl⟩ := List.mem_map.mp hj
    exact hattempts k hk

/-- A statement that makes no job active. -/
theorem mapJobs_calm (h : Consistent documents jobs) {f : JobRow → JobRow}
    (hf : ∀ j : JobRow, j.Same (f j)) (hactive : ∀ j ∈ jobs, (f j).active = true → j.active = true)
    (hattempts : ∀ j ∈ jobs, 0 ≤ (f j).attempts) : Consistent documents (jobs.map f) :=
  h.mapJobs hf (fun j hj k hk hja hka => h.active j hj k hk (hactive j hj hja) (hactive k hk hka))
    hattempts

/-- A job put back in the queue where that breaks no key. -/
theorem requeue {db : Db} (h : Consistent documents db.jobs) {id : Uuid} {f : JobRow → JobRow}
    (hf : ∀ j : JobRow, j.Same (f j)) (hfree : db.wouldDuplicate id = false)
    (hattempts : ∀ j, 0 ≤ j.attempts → 0 ≤ (f j).attempts) :
    Consistent documents (db.jobs.map fun j => if j.id = id then f j else j) := by
  rw [Db.wouldDuplicate_eq_false] at hfree
  refine h.mapJobs (same_ite hf _) ?_ ?_
  · intro j hj k hk hja hka hdoc hkind
    by_cases hjid : j.id = id <;> by_cases hkid : k.id = id <;>
      simp only [hjid, hkid, if_true, if_false] at hja hka
    · exact h.eq_of_id hj hk (hjid.trans hkid.symm)
    · have := hfree j hj hjid k hk hkid hdoc.symm hkind.symm
      simp [this] at hka
    · have := hfree k hk hkid j hj hjid hdoc hkind
      simp [this] at hja
    · exact h.active j hj k hk hja hka hdoc hkind
  · intro j hj
    split
    · exact hattempts j (h.attempts j hj)
    · exact h.attempts j hj

/-- New jobs, none for a document with an active job of the kind. -/
theorem addJobs (h : Consistent documents jobs) (hids : ((jobs ++ rows).map JobRow.id).Nodup)
    (hforeign : ∀ j ∈ rows, ∃ d ∈ documents, d.id = j.document_id)
    (hfree : ∀ j ∈ rows, ∀ k ∈ jobs, k.active = true → k.document_id = j.document_id →
      k.kind ≠ j.kind)
    (hrows : ∀ j ∈ rows, ∀ k ∈ rows, j.document_id = k.document_id → j.kind = k.kind → j = k)
    (hattempts : ∀ j ∈ rows, 0 ≤ j.attempts) : Consistent documents (jobs ++ rows) where
  document_ids := h.document_ids
  job_ids := hids
  foreign := fun j hj => (List.mem_append.mp hj).elim (h.foreign j) (hforeign j)
  active := by
    intro j hj k hk hja hka hdoc hkind
    rcases List.mem_append.mp hj with hj | hj <;> rcases List.mem_append.mp hk with hk | hk
    · exact h.active j hj k hk hja hka hdoc hkind
    · exact absurd hkind (hfree k hk j hj hja hdoc)
    · exact absurd hkind.symm (hfree j hj k hk hka hdoc.symm)
    · exact hrows j hj k hk hdoc hkind
  attempts := fun j hj => (List.mem_append.mp hj).elim (h.attempts j) (hattempts j)

/-- One new job. -/
theorem addJob (h : Consistent documents jobs) {new : NewJob}
    (hid : ∀ j ∈ jobs, j.id ≠ new.id) (hforeign : ∃ d ∈ documents, d.id = new.document_id)
    (hfree : ∀ k ∈ jobs, k.active = true → k.document_id = new.document_id → k.kind ≠ new.kind) :
    Consistent documents (jobs ++ [new.row]) := by
  refine h.addJobs ?_ (by simpa [NewJob.row] using hforeign) (by simpa [NewJob.row] using hfree)
    (by simp) (by simp [NewJob.row])
  rw [List.map_append, List.nodup_append]
  refine ⟨h.job_ids, by simp, ?_⟩
  intro a ha b hb hab
  obtain ⟨j, hj, rfl⟩ := List.mem_map.mp ha
  simp only [List.map_cons, List.map_nil, List.mem_singleton] at hb
  exact hid j hj (hab.trans hb)

end Consistent

theorem hasActiveJob_eq_false {db : Db} {document_id : Uuid} {kind : JobKind} :
    db.hasActiveJob document_id kind = false ↔
      ∀ k ∈ db.jobs, k.active = true → k.document_id = document_id → k.kind ≠ kind := by
  simp only [Db.hasActiveJob, List.any_eq_false, decide_eq_true_eq, not_and, Bool.not_eq_true]
  constructor
  · intro h k hk ha hdoc hkind
    simp [h k hk hdoc hkind] at ha
  · intro h k hk hdoc hkind
    by_contra ha
    exact h k hk (by simpa using ha) hdoc hkind

/-! ## Each kind of update -/

namespace JobRow

theorem same_claimed (worker_id : String) (lease : Nat) (now : Time) (j : JobRow) :
    j.Same (j.claimed worker_id lease now) := ⟨rfl, rfl, rfl, rfl, rfl⟩

theorem same_completed (j : JobRow) : j.Same j.completed := ⟨rfl, rfl, rfl, rfl, rfl⟩

theorem same_buried (error : String) (j : JobRow) : j.Same (j.buried error) := ⟨rfl, rfl, rfl, rfl, rfl⟩

theorem same_expired (j : JobRow) : j.Same j.expired := ⟨rfl, rfl, rfl, rfl, rfl⟩

theorem same_retried (run_at : Time) (error : String) (j : JobRow) :
    j.Same (j.retried run_at error) := ⟨rfl, rfl, rfl, rfl, rfl⟩

theorem same_released (run_at : Time) (j : JobRow) : j.Same (j.released run_at) :=
  ⟨rfl, rfl, rfl, rfl, rfl⟩

theorem same_revived (now : Time) (j : JobRow) : j.Same (j.revived now) := ⟨rfl, rfl, rfl, rfl, rfl⟩

@[simp] theorem active_completed (j : JobRow) : j.completed.active = false := by
  simp [active, completed]

@[simp] theorem active_buried (error : String) (j : JobRow) : (j.buried error).active = false := by
  simp [active, buried]

@[simp] theorem active_expired (j : JobRow) : j.expired.active = false := by
  simp [active, expired]

@[simp] theorem active_retried (run_at : Time) (error : String) (j : JobRow) :
    (j.retried run_at error).active = true := by
  simp [active, retried]

@[simp] theorem active_released (run_at : Time) (j : JobRow) :
    (j.released run_at).active = true := by
  simp [active, released]

@[simp] theorem active_revived (now : Time) (j : JobRow) : (j.revived now).active = true := by
  simp [active, revived]

@[simp] theorem active_claimed (worker_id : String) (lease : Nat) (now : Time) (j : JobRow) :
    (j.claimed worker_id lease now).active = true := by
  simp [active, claimed]

end JobRow

namespace Consistent

variable {documents : List Document} {db : Db}

/-- `complete` and `bury`. -/
theorem finish {jobs : List JobRow} (h : Consistent documents jobs) {f : JobRow → JobRow}
    (hf : ∀ j : JobRow, j.Same (f j)) (hdead : ∀ j, (f j).active = false)
    (hattempts : ∀ j, (f j).attempts = j.attempts) (p : JobRow → Prop) [DecidablePred p] :
    Consistent documents (jobs.map fun j => if p j then f j else j) := by
  refine h.mapJobs_calm (same_ite hf p) ?_ ?_
  · intro j hj ha
    split at ha
    · simp [hdead] at ha
    · exact ha
  · intro j hj
    split
    · rw [hattempts]
      exact h.attempts j hj
    · exact h.attempts j hj

theorem closeJob (h : Consistent documents db.jobs) (o : Option JobOutcome) :
    Consistent documents (db.closeJob o).jobs := by
  rcases o with _ | id | ⟨id, error⟩
  · exact h
  · exact h.finish JobRow.same_completed JobRow.active_completed (fun _ => rfl) fun j => j.id = id
  · exact h.finish (JobRow.same_buried error) (JobRow.active_buried error) (fun _ => rfl)
      fun j => j.id = id

theorem claim (h : Consistent documents db.jobs) (worker_id : String) (limit lease : Nat)
    (now : Time) (skipped : List Uuid) :
    Consistent documents (db.claim worker_id limit lease now skipped).1.jobs := by
  refine h.mapJobs_calm (same_ite (JobRow.same_claimed worker_id lease now) _) ?_ ?_
  · intro j hj ha
    split at ha
    · rename_i hpicked
      obtain ⟨k, hk, hid⟩ := List.mem_map.mp hpicked
      obtain ⟨hkmem, hready⟩ := Db.mem_of_mem_readyJobs hk
      rw [← h.eq_of_id hkmem hj hid]
      exact JobRow.active_of_ready hready
    · exact ha
  · intro j hj
    have := h.attempts j hj
    split
    · show 0 ≤ j.attempts + 1
      omega
    · exact this

end Consistent

end DianService
