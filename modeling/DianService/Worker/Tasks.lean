import DianService.Store.Lifecycle
import DianService.Worker.Steps

/-
  Worker: what is true of the tables and of every task in every state of every run. The
  constraints of the tables hold; a task works on a job that exists, has made exactly the calls
  of `process` so far, all of them in the log, and what it read of its document is still true of
  the columns that never change.
-/

namespace DianService

open Lib Lib.Prog

/-! ## Rows stay -/

theorem Effect.kept {db db' : Db} {c : Call} (h : Effect db c db') : Kept db db' := by
  have hjobs : ∀ rows : List JobRow, ∀ j ∈ db.jobs, ∃ k ∈ db.jobs ++ rows, j.Same k :=
    kept_jobs_refl
  have hupdate : ∀ {id : Uuid} {f : JobRow → JobRow}, (∀ j : JobRow, j.Same (f j)) →
      Kept db (db.updateJob id f) := fun hf =>
    ⟨by simpa using kept_jobs_map (same_ite hf fun j => j.id = _) [],
      fun d hd => ⟨d, hd, .refl d⟩, fun e he => he⟩
  cases h with
  | same => exact ⟨by simpa using hjobs [], fun d hd => ⟨d, hd, .refl d⟩, fun e he => he⟩
  | stored =>
      exact ⟨by simpa using hjobs [],
        kept_documents_map (Document.same_ite (Document.same_signed _ _ _) fun d => d.id = _),
        fun e he => he⟩
  | recorded =>
      exact ⟨by simpa using hjobs [], fun d hd => ⟨d, hd, .refl d⟩,
        fun e he => List.mem_append_left _ he⟩
  | @applied t d _ h =>
      refine ⟨?_, ?_, ?_⟩
      · rw [h.jobs]
        rcases t.job with _ | id | ⟨id, error⟩
        · exact hjobs _
        · exact kept_jobs_map (same_ite JobRow.same_completed fun j => j.id = id) _
        · exact kept_jobs_map (same_ite (JobRow.same_buried error) fun j => j.id = id) _
      · rw [h.documents]
        exact kept_documents_map
          (Document.same_ite (Document.same_moved t.target) fun e => e.id = d.id)
      · rw [h.dian_events]
        exact fun e he => List.mem_append_left _ he
  | completed => exact hupdate JobRow.same_completed
  | retried => exact hupdate (JobRow.same_retried _ _)
  | released => exact hupdate (JobRow.same_released _)
  | buried => exact hupdate (JobRow.same_buried _)

theorem SystemStep.kept {ubl : UblEngine} {config : ProcessorConfig} {s s' : System}
    {a : SystemAction} (h : SystemStep ubl config s a s') : Kept s.db s'.db := by
  have hjobs : ∀ rows : List JobRow, ∀ j ∈ s.db.jobs, ∃ k ∈ s.db.jobs ++ rows, j.Same k :=
    kept_jobs_refl
  have hdocuments : ∀ d ∈ s.db.documents, ∃ e ∈ s.db.documents, d.Same e :=
    fun d hd => ⟨d, hd, .refl d⟩
  cases h with
  | idle hd hj he =>
      exact ⟨by simpa [hj] using hjobs [], by simpa [hd] using hdocuments, by simp [he]⟩
  | issued =>
      exact ⟨hjobs _, fun d hd => ⟨d, List.mem_append_left _ hd, .refl d⟩, fun e he => he⟩
  | expired =>
      have hmap := @kept_jobs_map s.db.jobs _ (same_ite JobRow.same_expired fun j =>
        j.leaseExpired s.now ∧ j.max_attempts ≤ j.attempts) []
      rw [List.append_nil] at hmap
      exact ⟨hmap, hdocuments, fun e he => he⟩
  | @claimed worker_id limit lease skipped =>
      have hmap := @kept_jobs_map s.db.jobs _
        (same_ite (JobRow.same_claimed worker_id lease s.now) fun j =>
          j.id ∈ (s.db.readyJobs limit s.now skipped).map JobRow.id) []
      rw [List.append_nil] at hmap
      exact ⟨hmap, hdocuments, fun e he => he⟩
  | worked _ _ _ h => exact h.effect.kept
  | crashed => exact ⟨by simpa using hjobs [], hdocuments, fun e he => he⟩
  | requeued h =>
      obtain ⟨hd, hj, he, -⟩ := Db.requeueContingency_ok h
      refine ⟨by rw [hj]; exact hjobs _, ?_, by simp [he]⟩
      rw [hd]
      exact kept_documents_map (Document.same_ite (Document.same_moved .pending) fun d =>
        d.id ∈ (s.db.contingencyCandidates _ _).map Document.id)
  | revived h hne =>
      obtain h | ⟨j, d, -, -, -, -, -, -, -, he, hj, hd⟩ := Db.retryDeadJob_ok h
      · exact absurd h hne
      · refine ⟨?_, ?_, by simp [he]⟩
        · rw [hj]
          simpa using kept_jobs_map (same_ite (JobRow.same_revived s.now) fun k => k.id = _) []
        · rw [hd]
          split
          · exact kept_documents_map (Document.same_ite (Document.same_moved .pending) fun e => e.id = d.id)
          · exact hdocuments

/-! ## The constraints hold -/

theorem Effect.consistent {db db' : Db} {c : Call} (h : Effect db c db')
    (hc : Consistent db.documents db.jobs) : Consistent db'.documents db'.jobs := by
  cases h with
  | same | recorded => exact hc
  | stored =>
      exact hc.mapDocuments (Document.same_ite (Document.same_signed _ _ _) fun d => d.id = _)
  | @applied t d _ h =>
      have hdocuments := hc.mapDocuments (f := fun e =>
          if e.id = d.id then e.moved t.target else e)
        (Document.same_ite (Document.same_moved t.target) fun e => e.id = d.id)
      have hclosed := hdocuments.closeJob t.job
      rw [h.jobs, h.documents]
      cases hfollow : t.follow_up with
      | none => simpa using hclosed
      | some new =>
          obtain ⟨hid, hfree, ⟨e, he, hedoc⟩, -⟩ := h.follow_up new hfollow
          rw [h.documents] at he
          exact hclosed.addJob hid ⟨e, he, hedoc⟩ (hasActiveJob_eq_false.mp hfree)
  | completed => exact hc.closeJob (some (.complete _))
  | buried => exact hc.closeJob (some (.bury _ _))
  | retried hfree => exact hc.requeue (JobRow.same_retried _ _) hfree fun _ h => h
  | released hfree =>
      exact hc.requeue (JobRow.same_released _) hfree fun _ _ => le_max_right _ _

theorem SystemStep.consistent {ubl : UblEngine} {config : ProcessorConfig} {s s' : System}
    {a : SystemAction} (h : SystemStep ubl config s a s')
    (hc : Consistent s.db.documents s.db.jobs) : Consistent s'.db.documents s'.db.jobs := by
  cases h with
  | idle hd hj =>
      rw [hd, hj]
      exact hc
  | @issued r times tx db' hfree hjob =>
      obtain ⟨-, hid, hactive, -⟩ := Db.insertJob_ok hjob
      have hdoc : ∀ e ∈ s.db.documents, e.id ≠ (r.documentRow tx).id := by
        intro e he hee
        simp only [Db.documentTaken, List.any_eq_false, decide_eq_true_eq, not_or] at hfree
        exact (hfree e he).1 hee
      refine (hc.addDocument hdoc).addJob hid ?_ (hasActiveJob_eq_false.mp hactive)
      exact ⟨_, List.mem_append_right _ (List.mem_singleton_self _), rfl⟩
  | expired => exact hc.finish JobRow.same_expired JobRow.active_expired (fun _ => rfl) _
  | claimed => exact hc.claim _ _ _ _ _
  | worked _ _ _ h => exact h.effect.consistent hc
  | crashed => exact hc
  | @requeued limit fresh skipped db n h =>
      obtain ⟨hd, hj, -, hids, -⟩ := Db.requeueContingency_ok h
      rw [hj] at hids
      rw [hd, hj]
      have hdocuments := hc.mapDocuments (f := fun d =>
          if d.id ∈ (s.db.contingencyCandidates limit skipped).map Document.id then
            d.moved .pending else d)
        (Document.same_ite (Document.same_moved .pending) fun d =>
          d.id ∈ (s.db.contingencyCandidates limit skipped).map Document.id)
      refine hdocuments.addJobs hids ?_ ?_ ?_ ?_
      · intro j hjmem
        obtain ⟨d, hdmem, id, rfl⟩ := Db.mem_contingencyJobs hjmem
        obtain ⟨hdmem', -, -⟩ := Db.mem_of_mem_contingencyCandidates hdmem
        exact ⟨_, List.mem_map_of_mem hdmem',
          ((Document.same_ite (Document.same_moved .pending) (fun d =>
            d.id ∈ (s.db.contingencyCandidates limit skipped).map Document.id) d).id).symm⟩
      · intro j hjmem
        obtain ⟨d, hdmem, id, rfl⟩ := Db.mem_contingencyJobs hjmem
        obtain ⟨-, -, hnone⟩ := Db.mem_of_mem_contingencyCandidates hdmem
        exact hasActiveJob_eq_false.mp hnone
      · exact Db.contingencyJobs_eq (Db.contingencyCandidates_nodup hc.document_ids)
      · intro j hjmem
        obtain ⟨d, -, id, rfl⟩ := Db.mem_contingencyJobs hjmem
        exact le_refl _
  | revived h hne =>
      obtain h | ⟨j, d, -, -, -, -, -, -, hfree, -, hj, hd⟩ := Db.retryDeadJob_ok h
      · exact absurd h hne
      · have hjobs := hc.requeue (JobRow.same_revived s.now) hfree fun _ _ => le_refl _
        rw [hj, hd]
        split
        · exact hjobs.mapDocuments (Document.same_ite (Document.same_moved .pending) fun e => e.id = d.id)
        · exact hjobs

/-! ## The status of a document -/

theorem Effect.status_cases {db db' : Db} {c : Call} (h : Effect db c db') :
    ∀ d' ∈ db'.documents, (∃ d ∈ db.documents, d.id = d'.id ∧ d.status = d'.status) ∨
      ∃ tr, c = .applyTransition tr ∧ d'.id = tr.document_id ∧ d'.status = tr.target := by
  intro d' hd'
  cases h with
  | same | recorded | completed | retried | released | buried => exact .inl ⟨d', hd', rfl, rfl⟩
  | stored =>
      obtain ⟨d, hd, rfl⟩ := List.mem_map.mp hd'
      refine .inl ⟨d, hd, ?_⟩
      split <;> exact ⟨rfl, rfl⟩
  | @applied tr d _ h =>
      rw [h.documents] at hd'
      obtain ⟨e, he, rfl⟩ := List.mem_map.mp hd'
      split
      · rename_i hid
        refine .inr ⟨tr, rfl, ?_, rfl⟩
        show e.id = tr.document_id
        rw [hid]
        exact (Db.document?_mem h.found).2
      · exact .inl ⟨e, he, rfl, rfl⟩

/-- A step leaves the status of a document, makes it `Pending`, or is a transition of a task. -/
theorem SystemStep.status_cases {ubl : UblEngine} {config : ProcessorConfig} {s s' : System}
    {a : SystemAction} (h : SystemStep ubl config s a s') :
    ∀ d' ∈ s'.db.documents, (∃ d ∈ s.db.documents, d.id = d'.id ∧ d.status = d'.status) ∨
      d'.status = .pending ∨
      ∃ t ∈ s.tasks, ∃ tr k, t.rest = .call (.applyTransition tr) k ∧ d'.id = tr.document_id ∧
        d'.status = tr.target := by
  intro d' hd'
  cases h with
  | idle hd =>
      rw [hd] at hd'
      exact .inl ⟨d', hd', rfl, rfl⟩
  | issued =>
      rcases List.mem_append.mp hd' with hd' | hd'
      · exact .inl ⟨d', hd', rfl, rfl⟩
      · rw [List.mem_singleton.mp hd']
        exact .inr (.inl rfl)
  | expired | claimed | crashed => exact .inl ⟨d', hd', rfl, rfl⟩
  | worked ht hrest _ h =>
      rcases h.effect.status_cases d' hd' with hkeep | ⟨tr, rfl, hid, hstatus⟩
      · exact .inl hkeep
      · exact .inr (.inr ⟨_, List.mem_of_getElem? ht, tr, _, hrest, hid, hstatus⟩)
  | requeued h =>
      rw [(Db.requeueContingency_ok h).1] at hd'
      obtain ⟨d, hd, rfl⟩ := List.mem_map.mp hd'
      split
      · exact .inr (.inl rfl)
      · exact .inl ⟨d, hd, rfl, rfl⟩
  | revived h hne =>
      obtain h | ⟨j, d, -, -, -, -, -, -, -, -, -, hdocs⟩ := Db.retryDeadJob_ok h
      · exact absurd h hne
      · rw [hdocs] at hd'
        split at hd'
        · obtain ⟨e, he, rfl⟩ := List.mem_map.mp hd'
          split
          · exact .inr (.inl rfl)
          · exact .inl ⟨e, he, rfl, rfl⟩
        · exact .inl ⟨d', hd', rfl, rfl⟩

/-- Every step moves documents along the state machine. -/
theorem SystemStep.moves {ubl : UblEngine} {config : ProcessorConfig} {s s' : System}
    {a : SystemAction} (h : SystemStep ubl config s a s')
    (hc : Consistent s.db.documents s.db.jobs) : s.db.Moves s'.db := by
  cases h with
  | idle hd => exact .of_eq hd
  | issued hfree => exact Db.commitIssue_moves (fresh_of_not_taken hfree)
  | expired | claimed | crashed => exact .of_eq rfl
  | worked _ _ _ h =>
      cases h.effect with
      | applied h => exact h.moves hc.document_ids
      | stored => exact .signed
      | _ => exact .of_eq rfl
  | requeued h => exact Db.requeueContingency_moves h hc.document_ids
  | revived h => exact Db.retryDeadJob_moves h hc.document_ids

theorem SystemStep.log_mono {ubl : UblEngine} {config : ProcessorConfig} {s s' : System}
    {a : SystemAction} (h : SystemStep ubl config s a s') : ∀ x ∈ s.log, x ∈ s'.log := by
  intro x hx
  cases h with
  | worked => exact List.mem_append_left _ hx
  | _ => exact hx

/-! ## Tasks -/

/-- The row of a claimed job. -/
structure JobRow.Of (j : JobRow) (job : Job) : Prop where
  id : j.id = job.id
  kind : j.kind = job.kind
  document_id : j.document_id = job.document_id
  payload : j.payload = job.payload
  max_attempts : j.max_attempts = job.max_attempts

theorem JobRow.Of.same {j k : JobRow} {job : Job} (h : j.Of job) (hs : j.Same k) : k.Of job :=
  ⟨hs.id ▸ h.id, hs.kind ▸ h.kind, hs.document_id ▸ h.document_id, hs.payload ▸ h.payload,
    hs.max_attempts ▸ h.max_attempts⟩

section Tasks

variable (ubl : UblEngine) (config : ProcessorConfig)

structure Task.Sound (s : System) (t : Task) : Prop where
  path : Path (process ubl config t.job).run t.history t.rest
  row : ∃ j ∈ s.db.jobs, j.Of t.job
  attempts : 1 ≤ t.job.attempts
  logged : ∀ e ∈ t.history, (t.job.document_id, e) ∈ s.log
  found : ∀ found, (⟨.findDocument t.job.document_id, .ok found⟩ : Exchange Call Reply) ∈ t.history →
    ∃ d, found = some d ∧ d.id = t.job.document_id ∧ ∃ e ∈ s.db.documents, d.Same e

structure System.Sound (s : System) : Prop where
  consistent : Consistent s.db.documents s.db.jobs
  task : ∀ t ∈ s.tasks, t.Sound ubl config s
  log : ∀ x ∈ s.log, ∃ d ∈ s.db.documents, d.id = x.1

variable {ubl config} {s s' : System} {t : Task} {c : Call} {r : Reply c}
  {k : Reply c → Prog Call Reply (Except DomainError Unit)}

theorem Document.Same.trans {d e f : Document} (h : d.Same e) (h' : e.Same f) : d.Same f :=
  ⟨h.id.trans h'.id, h.tenant_id.trans h'.tenant_id, h.direction.trans h'.direction,
    h.document_type.trans h'.document_type, h.pfx.trans h'.pfx,
    h.document_number.trans h'.document_number, h.payload.trans h'.payload⟩

/-- A task stays sound while others work. -/
theorem Task.Sound.mono (h : t.Sound ubl config s) (hkept : Kept s.db s'.db)
    (hlog : ∀ x ∈ s.log, x ∈ s'.log) : t.Sound ubl config s' where
  path := h.path
  row := by
    obtain ⟨j, hj, hof⟩ := h.row
    obtain ⟨j', hj', hsame⟩ := hkept.jobs j hj
    exact ⟨j', hj', hof.same hsame⟩
  attempts := h.attempts
  logged := fun e he => hlog _ (h.logged e he)
  found := by
    intro found hfound
    obtain ⟨d, rfl, hid, e, he, hsame⟩ := h.found found hfound
    obtain ⟨e', he', hsame'⟩ := hkept.documents e he
    exact ⟨d, rfl, hid, e', he', hsame.trans hsame'⟩

theorem System.Sound.document (hs : s.Sound ubl config) (ht : t ∈ s.tasks) :
    ∃ d ∈ s.db.documents, d.id = t.job.document_id := by
  obtain ⟨j, hj, hof⟩ := (hs.task t ht).row
  rw [← hof.document_id]
  exact hs.consistent.foreign j hj

theorem Consistent.document?_eq {db : Db} (h : Consistent db.documents db.jobs) {d : Document}
    (hd : d ∈ db.documents) : db.document? d.id = some d :=
  find?_key_eq h.document_ids hd

/-- The task that makes a call stays sound. -/
theorem Task.Sound.reply (hs : s.Sound ubl config) (ht : t ∈ s.tasks) (hrest : t.rest = .call c k)
    (htrue : Truthful s.db ⟨c, r⟩) (hkept : Kept s.db s'.db)
    (hlog : s'.log = s.log ++ [(t.job.document_id, ⟨c, r⟩)]) :
    (t.reply c r (k r)).Sound ubl config s' := by
  have h : t.Sound ubl config s' := (hs.task t ht).mono hkept
    (fun x hx => by rw [hlog]; exact List.mem_append_left _ hx)
  refine ⟨?_, h.row, h.attempts, ?_, ?_⟩
  · have hpath := h.path
    rw [hrest] at hpath
    exact hpath.reply r
  · intro e he
    rcases List.mem_append.mp he with he | he
    · exact h.logged e he
    · rw [List.mem_singleton.mp he, hlog]
      exact List.mem_append_right _ (List.mem_singleton_self _)
  · intro found hfound
    rcases List.mem_append.mp hfound with hfound | hfound
    · exact h.found found hfound
    · have hlast : (⟨.findDocument t.job.document_id, .ok found⟩ : Exchange Call Reply) = ⟨c, r⟩ :=
        List.mem_singleton.mp hfound
      cases hlast
      obtain ⟨d, hd, hid⟩ := hs.document ht
      have hfound : found = some d := by
        rw [← hs.consistent.document?_eq hd, hid]
        exact htrue
      obtain ⟨e, he, hsame⟩ := hkept.documents d hd
      exact ⟨d, hfound, hid, e, he, hsame⟩

/-- A job that is claimed. -/
theorem mem_claim {db : Db} {worker_id : String} {limit lease : Nat} {now : Time}
    {skipped : List Uuid} {job : Job} (h : job ∈ (db.claim worker_id limit lease now skipped).2) :
    ∃ j ∈ db.jobs, j.ready now = true ∧ job = (j.claimed worker_id lease now).job ∧
      j.claimed worker_id lease now ∈ (db.claim worker_id limit lease now skipped).1.jobs := by
  obtain ⟨j, hj, rfl⟩ := List.mem_map.mp h
  obtain ⟨hjmem, hready⟩ := Db.mem_of_mem_readyJobs hj
  refine ⟨j, hjmem, hready, rfl, List.mem_map.mpr ⟨j, hjmem, ?_⟩⟩
  rw [if_pos (List.mem_map_of_mem hj)]

theorem SystemStep.sound {a : SystemAction} (h : SystemStep ubl config s a s')
    (hs : s.Sound ubl config) : s'.Sound ubl config := by
  have hkept := h.kept
  have hconsistent := h.consistent hs.consistent
  have hdocuments : ∀ x ∈ s.log, ∃ d ∈ s'.db.documents, d.id = x.1 := by
    intro x hx
    obtain ⟨d, hd, hid⟩ := hs.log x hx
    obtain ⟨e, he, hsame⟩ := hkept.documents d hd
    exact ⟨e, he, hsame.id ▸ hid⟩
  cases h with
  | claimed =>
      refine ⟨hconsistent, ?_, hdocuments⟩
      intro t ht
      rcases List.mem_append.mp ht with ht | ht
      · exact (hs.task t ht).mono hkept fun x hx => hx
      · obtain ⟨job, hjob, rfl⟩ := List.mem_map.mp ht
        obtain ⟨j, hj, -, rfl, hmem⟩ := mem_claim hjob
        refine ⟨.start, ⟨_, hmem, rfl, rfl, rfl, rfl, rfl⟩, ?_, by simp [Task.start],
          by simp [Task.start]⟩
        have := hs.consistent.attempts j hj
        show 1 ≤ j.attempts + 1
        omega
  | @worked i w t c r db k ht hrest _ h =>
      have htmem := List.mem_of_getElem? ht
      refine ⟨hconsistent, ?_, ?_⟩
      · intro u hu
        rcases List.mem_or_eq_of_mem_set hu with hu | rfl
        · exact (hs.task u hu).mono hkept fun x hx => List.mem_append_left _ hx
        · exact Task.Sound.reply hs htmem hrest h.truthful hkept rfl
      · intro x hx
        rcases List.mem_append.mp hx with hx | hx
        · exact hdocuments x hx
        · obtain ⟨d, hd, hid⟩ := hs.document htmem
          obtain ⟨e, he, hsame⟩ := hkept.documents d hd
          rw [List.mem_singleton.mp hx]
          exact ⟨e, he, hsame.id ▸ hid⟩
  | crashed =>
      exact ⟨hconsistent, fun t ht =>
        (hs.task t (List.mem_of_mem_eraseIdx ht)).mono hkept fun x hx => hx, hdocuments⟩
  | _ => exact ⟨hconsistent, fun t ht => (hs.task t ht).mono hkept fun x hx => hx, hdocuments⟩

theorem sound_of_reachableBy {C : System → SystemAction → Prop}
    (hs : (system ubl config).ReachableBy C s) : s.Sound ubl config := by
  refine hs.invariant ?_ ?_
  · rintro s ⟨tenants, now, rfl⟩
    exact ⟨.nil, by simp, by simp⟩
  · intro s a s' _ hI _ h
    exact (systemStep_inv h).sound hI

/-- What a task is about to do meets what `process` promises of its calls. -/
theorem System.Sound.call (hs : s.Sound ubl config) (ht : t ∈ s.tasks) (hrest : t.rest = .call c k) :
    ProcessCall ubl t.job t.history c := by
  have hpath := (hs.task t ht).path
  rw [hrest] at hpath
  exact call_of_path (process_calls config ubl t.job) hpath

/-- The document a task found is its own, and it was there. -/
theorem System.Sound.found (hs : s.Sound ubl config) (ht : t ∈ s.tasks) {d : Document}
    (hfound : Found t.job t.history d) :
    d.id = t.job.document_id ∧ ∃ e ∈ s.db.documents, d.Same e := by
  obtain ⟨d', hd', hid, hsame⟩ := (hs.task t ht).found _ hfound
  cases hd'
  exact ⟨hid, hsame⟩

end Tasks

end DianService
