import DianService.Worker.Frames

/-
  Worker: no step of the system touches a received document. Jobs are about issued documents only,
  and what is written is the document of a job or one that waits for its contingency.
-/

namespace DianService

open Lib Lib.Prog

/-- A job is about the document. -/
def System.Employs (s : System) (id : Uuid) : Prop := ∃ j ∈ s.db.jobs, j.document_id = id

/-- What a step makes of a row of `documents`. -/
inductive RowStep (s : System) (d : Document) : Document → Prop where
  | kept : RowStep s d d
  | moved {status : DocumentStatus} (h : s.Employs d.id ∨ d.status = .contingencyPending) :
      RowStep s d (d.moved status)
  | signed {t : Task} {cufe original_xml signed_xml : String}
      {k : Except DomainError Unit → Prog Call Reply (Except DomainError Unit)} (ht : t ∈ s.tasks)
      (hrest : t.rest = .call (.storeArtifacts d.id cufe original_xml signed_xml) k)
      (h : s.Employs d.id) : RowStep s d (d.signed cufe original_xml signed_xml)

theorem RowStep.same {s : System} {d d' : Document} (h : RowStep s d d') : d.Same d' := by
  cases h with
  | kept => exact .refl d
  | moved => exact Document.same_moved _ d
  | signed => exact Document.same_signed _ _ _ d

theorem RowStep.range {s : System} {d d' : Document} (h : RowStep s d d') :
    d'.numbering_range_id = d.numbering_range_id := by
  cases h <;> rfl

section Step

variable {ubl : UblEngine} {config : ProcessorConfig} {s s' : System} {a : SystemAction}

/-- The rows that the commit of a request adds. -/
def Issues (s : System) (a : SystemAction) (s' : System) (d : Document) : Prop :=
  ∃ r times tx, a = .issueOutbound r times ∧ s'.db = s.db.commitIssue r tx ∧ d = r.documentRow tx

/-- A document that a task has found is that of a job. -/
theorem System.Sound.employs (hs : s.Sound ubl config) {t : Task} (ht : t ∈ s.tasks) {d : Document}
    (hfound : Found t.job t.history d) : s.Employs d.id := by
  obtain ⟨j, hj, hof⟩ := (hs.task t ht).row
  exact ⟨j, hj, hof.document_id.trans (hs.found ht hfound).1.symm⟩

theorem Effect.rows (hs : s.Sound ubl config) {t : Task} (ht : t ∈ s.tasks) {c : Call}
    {k : Reply c → Prog Call Reply (Except DomainError Unit)} (hrest : t.rest = .call c k) {db : Db}
    (h : Effect s.db c db) {d' : Document} (hd' : d' ∈ db.documents) :
    ∃ d ∈ s.db.documents, RowStep s d d' := by
  have hcall := hs.call ht hrest
  cases h with
  | same | recorded | completed | retried | released | buried => exact ⟨d', hd', .kept⟩
  | stored =>
    obtain ⟨d, hd, rfl⟩ := List.mem_map.mp hd'
    obtain ⟨found, hworking, hid, -⟩ := hcall
    have hemploys := hs.employs ht hworking.found
    split
    · rename_i heq
      subst heq
      exact ⟨d, hd, .signed ht hrest (hid ▸ hemploys)⟩
    · exact ⟨d, hd, .kept⟩
  | @applied tr e _ happlied =>
    rw [happlied.documents] at hd'
    obtain ⟨d, hd, rfl⟩ := List.mem_map.mp hd'
    obtain ⟨found, hworking, htransition⟩ := hcall
    have hemploys := hs.employs ht hworking.found
    split
    · rename_i heq
      rw [← htransition.1, ← (Db.document?_mem happlied.found).2, ← heq] at hemploys
      exact ⟨d, hd, .moved (.inl hemploys)⟩
    · exact ⟨d, hd, .kept⟩

theorem SystemStep.rows (h : SystemStep ubl config s a s') (hs : s.Sound ubl config)
    {d' : Document} (hd' : d' ∈ s'.db.documents) :
    (∃ d ∈ s.db.documents, RowStep s d d') ∨ Issues s a s' d' := by
  cases h with
  | idle hdocuments =>
    rw [hdocuments] at hd'
    exact .inl ⟨d', hd', .kept⟩
  | expired | claimed | crashed => exact .inl ⟨d', hd', .kept⟩
  | issued =>
    rcases List.mem_append.mp hd' with hd' | hd'
    · exact .inl ⟨d', hd', .kept⟩
    · exact .inr ⟨_, _, _, rfl, rfl, List.mem_singleton.mp hd'⟩
  | worked ht hrest _ hanswered =>
    exact .inl (hanswered.effect.rows hs (List.mem_of_getElem? ht) hrest hd')
  | requeued hrequeue =>
    rw [(Db.requeueContingency_ok hrequeue).1] at hd'
    obtain ⟨d, hd, rfl⟩ := List.mem_map.mp hd'
    split
    · rename_i hpicked
      obtain ⟨e, he, hid⟩ := List.mem_map.mp hpicked
      obtain ⟨hemem, hstatus, -⟩ := Db.mem_of_mem_contingencyCandidates he
      obtain rfl := hs.consistent.document_eq_of_id hemem hd hid
      exact .inl ⟨e, hd, .moved (.inr hstatus)⟩
    · exact .inl ⟨d, hd, .kept⟩
  | revived hrevive hne =>
    obtain hsame | ⟨j, e, hj, -, -, -, hid, -, -, -, -, hdocuments⟩ := Db.retryDeadJob_ok hrevive
    · exact absurd hsame hne
    · rw [hdocuments] at hd'
      split at hd'
      · obtain ⟨d, hd, rfl⟩ := List.mem_map.mp hd'
        split
        · rename_i heq
          exact .inl ⟨d, hd, .moved (.inl ⟨j, hj, hid.symm.trans heq.symm⟩)⟩
        · exact .inl ⟨d, hd, .kept⟩
      · exact .inl ⟨d', hd', .kept⟩

/-! ## Jobs -/

/-- Jobs that an update leaves about the documents they are about. -/
theorem employs_of_map {f : JobRow → JobRow} (hf : ∀ j : JobRow, j.Same (f j)) {j : JobRow}
    (hj : j ∈ s.db.jobs.map f) : s.Employs j.document_id := by
  obtain ⟨k, hk, rfl⟩ := List.mem_map.mp hj
  exact ⟨k, hk, (hf k).document_id⟩

theorem Effect.employs (hs : s.Sound ubl config) {t : Task} (ht : t ∈ s.tasks) {c : Call}
    {k : Reply c → Prog Call Reply (Except DomainError Unit)} (hrest : t.rest = .call c k) {db : Db}
    (h : Effect s.db c db) {j : JobRow} (hj : j ∈ db.jobs) : s.Employs j.document_id := by
  have hcall := hs.call ht hrest
  cases h with
  | same | stored | recorded => exact ⟨j, hj, rfl⟩
  | completed => exact employs_of_map (same_ite JobRow.same_completed fun j => j.id = _) hj
  | retried => exact employs_of_map (same_ite (JobRow.same_retried _ _) fun j => j.id = _) hj
  | released => exact employs_of_map (same_ite (JobRow.same_released _) fun j => j.id = _) hj
  | buried => exact employs_of_map (same_ite (JobRow.same_buried _) fun j => j.id = _) hj
  | @applied tr e _ happlied =>
    rw [happlied.jobs] at hj
    rcases List.mem_append.mp hj with hj | hj
    · rcases hjob : tr.job with _ | id | ⟨id, error⟩ <;> rw [hjob] at hj
      · exact ⟨j, hj, rfl⟩
      · exact employs_of_map (same_ite JobRow.same_completed fun j => j.id = id) hj
      · exact employs_of_map (same_ite (JobRow.same_buried error) fun j => j.id = id) hj
    · obtain ⟨found, hworking, hid, htarget⟩ := hcall
      obtain ⟨new, hnew, rfl⟩ := List.mem_map.mp hj
      rw [Option.mem_toList] at hnew
      have hdocument : new.document_id = found.id := by
        cases htr : tr.target <;> rw [htr] at htarget <;> dsimp only at htarget
        case sentDian =>
          obtain ⟨-, -, _, _, _, _, _, -, -, -, -, hfollow⟩ := htarget
          rw [hfollow] at hnew
          cases hnew
          rfl
        case dianAccepted | dianRejected =>
          rw [htarget.2.1] at hnew
          cases hnew
        case processingFailed | contingencyPending =>
          rw [htarget.2.2] at hnew
          cases hnew
      show s.Employs new.document_id
      rw [hdocument]
      exact hs.employs ht hworking.found

/-- Every job is about a document that had one, waited for its contingency or was just issued. -/
theorem SystemStep.employs (h : SystemStep ubl config s a s') (hs : s.Sound ubl config)
    {j : JobRow} (hj : j ∈ s'.db.jobs) : s.Employs j.document_id ∨
      (∃ d ∈ s.db.documents, d.id = j.document_id ∧ d.status = .contingencyPending) ∨
      ∃ d, Issues s a s' d ∧ d.id = j.document_id := by
  cases h with
  | idle _ hjobs =>
    rw [hjobs] at hj
    exact .inl ⟨j, hj, rfl⟩
  | issued =>
    rcases List.mem_append.mp hj with hj | hj
    · exact .inl ⟨j, hj, rfl⟩
    · rw [List.mem_singleton.mp hj]
      exact .inr (.inr ⟨_, ⟨_, _, _, rfl, rfl, rfl⟩, rfl⟩)
  | expired => exact .inl (employs_of_map (same_ite JobRow.same_expired _) hj)
  | claimed => exact .inl (employs_of_map (same_ite (JobRow.same_claimed _ _ _) _) hj)
  | worked ht hrest _ hanswered =>
    exact .inl (hanswered.effect.employs hs (List.mem_of_getElem? ht) hrest hj)
  | crashed => exact .inl ⟨j, hj, rfl⟩
  | requeued hrequeue =>
    rw [(Db.requeueContingency_ok hrequeue).2.1] at hj
    rcases List.mem_append.mp hj with hj | hj
    · exact .inl ⟨j, hj, rfl⟩
    · obtain ⟨d, hd, id, rfl⟩ := Db.mem_contingencyJobs hj
      obtain ⟨hdmem, hstatus, -⟩ := Db.mem_of_mem_contingencyCandidates hd
      exact .inr (.inl ⟨d, hdmem, rfl, hstatus⟩)
  | revived hrevive hne =>
    obtain hsame | ⟨-, -, -, -, -, -, -, -, -, -, hjobs, -⟩ := Db.retryDeadJob_ok hrevive
    · exact absurd hsame hne
    · rw [hjobs] at hj
      exact .inl (employs_of_map (same_ite (JobRow.same_revived s.now) _) hj)

/-! ## Received documents -/

/-- Received documents are accepted from the start, and no job is about one. -/
structure System.Apart (s : System) : Prop where
  accepted : ∀ d ∈ s.db.documents, d.direction = .inbound → d.status = .dianAccepted
  employed : ∀ d ∈ s.db.documents, d.direction = .inbound → ¬ s.Employs d.id

theorem System.Apart.row (hA : s.Apart) {d d' : Document} (hd : d ∈ s.db.documents)
    (h : RowStep s d d') (hinbound : d'.direction = .inbound) : d' = d := by
  have hdirection : d.direction = .inbound := h.same.direction.trans hinbound
  cases h with
  | kept => rfl
  | signed _ _ hemploys => exact absurd hemploys (hA.employed d hd hdirection)
  | moved hworked =>
    obtain hemploys | hstatus := hworked
    · exact absurd hemploys (hA.employed d hd hdirection)
    · rw [hA.accepted d hd hdirection] at hstatus
      cases hstatus

/-- A step neither writes a received document nor adds one. -/
theorem SystemStep.received (h : SystemStep ubl config s a s') (hs : s.Sound ubl config)
    (hA : s.Apart) {d : Document} (hd : d ∈ s'.db.documents) (hinbound : d.direction = .inbound) :
    d ∈ s.db.documents := by
  obtain ⟨e, he, hrow⟩ | ⟨r, times, tx, -, -, rfl⟩ := h.rows hs hd
  · rw [hA.row he hrow hinbound]
    exact he
  · cases hinbound

theorem SystemStep.apart (h : SystemStep ubl config s a s') (hs : s.Sound ubl config)
    (hA : s.Apart) : s'.Apart := by
  refine ⟨fun d hd hinbound => hA.accepted d (h.received hs hA hd hinbound) hinbound, ?_⟩
  intro d hd hinbound hemploys
  obtain ⟨j, hj, hid⟩ := hemploys
  have hold := h.received hs hA hd hinbound
  obtain hemploys | ⟨e, he, heid, hstatus⟩ | ⟨e, ⟨r, times, tx, -, hdb, rfl⟩, heid⟩ := h.employs hs hj
  · exact hA.employed d hold hinbound (hid ▸ hemploys)
  · obtain rfl := hs.consistent.document_eq_of_id he hold (heid.trans hid)
    rw [hA.accepted e he hinbound] at hstatus
    cases hstatus
  · have hconsistent := h.consistent hs.consistent
    have hnew : r.documentRow tx ∈ s'.db.documents := by
      rw [hdb]
      exact List.mem_append_right _ (List.mem_singleton_self _)
    obtain rfl := hconsistent.document_eq_of_id hnew hd (heid.trans hid)
    cases hinbound

end Step

end DianService
