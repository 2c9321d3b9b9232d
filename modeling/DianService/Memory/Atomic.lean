import DianService.Memory.Store

/-
  Memory: which operations of `InMemoryStore` are all or nothing. Most test everything before they
  write. Three do not: `issue_outbound` and `apply_transition` write before they insert a job,
  which may be refused (and the latter before it looks for the job it closes), and
  `claim_deliveries` marks a delivery before it looks for its webhook. Each of them, when it
  returns that error, leaves the state half changed.
-/

namespace DianService.Memory

open Lib

/-- If the operation returns an error, the state is what it was. -/
def Atomic {α : Type} (p : StoreM α) (s : State) : Prop := ∀ e s', p s = .error e s' → s' = s

/-! ## The operations of the ports -/

inductive PortOp where
  | issueOutbound (document : NewOutboundDocument) (initial_job : NewJob) (now : Time)
  | insertInbound (document : NewInboundDocument) (now : Time)
  | storeArtifacts (id : Uuid) (cufe original_xml signed_xml : String)
  | recordEvent (event : DianEvent)
  | applyTransition (t : Transition) (now : Time) (fresh : Nat → Uuid)
  | claim (limit : Int) (lease : Nat) (now : Time)
  | complete (job_id : Uuid)
  | retry (job_id : Uuid) (run_at : Time) (error : String)
  | release (job_id : Uuid) (run_at : Time)
  | bury (job_id : Uuid) (error : String)
  | requeueContingency (limit max_attempts : Int) (now : Time) (fresh : Uuid → Uuid)
  | createWebhook (webhook : Webhook)
  | deleteWebhook (tenant_id webhook_id : Uuid)
  | claimDeliveries (limit : Int) (lease : Nat) (now : Time)
  | completeDelivery (delivery_id : Uuid) (status_code : Int)
  | retryDelivery (delivery_id : Uuid) (run_at : Time) (error : String)
      (status_code : Option Int)
  | buryDelivery (delivery_id : Uuid) (error : String) (status_code : Option Int)
  | createTenant (tenant : NewTenant) (audit : AuditEntry) (now : Time)
  | createApiKey (key : ApiKeyRecord) (audit : AuditEntry)
  | revokeApiKey (tenant_id key_id : Uuid) (audit : AuditEntry) (now : Time)
  | activateCertificate (certificate : Certificate) (audit : AuditEntry)
  | addNumberingRange (range : NumberingRange) (audit : AuditEntry)
  | retryDeadJob (job_id : Uuid) (audit : AuditEntry) (now : Time)
  | retryDeadDelivery (delivery_id : Uuid) (audit : AuditEntry) (now : Time)

/-- The operation, but for the value it returns. -/
def perform : PortOp → StoreM Unit
  | .issueOutbound document initial_job now => discard (issueOutbound document initial_job now)
  | .insertInbound document now => discard (insertInbound document now)
  | .storeArtifacts id cufe original_xml signed_xml =>
      storeArtifacts id cufe original_xml signed_xml
  | .recordEvent event => recordEvent event
  | .applyTransition t now fresh => discard (applyTransition t now fresh)
  | .claim limit lease now => discard (claim limit lease now)
  | .complete job_id => complete job_id
  | .retry job_id run_at error => retry job_id run_at error
  | .release job_id run_at => release job_id run_at
  | .bury job_id error => bury job_id error
  | .requeueContingency limit max_attempts now fresh =>
      discard (requeueContingency limit max_attempts now fresh)
  | .createWebhook webhook => createWebhook webhook
  | .deleteWebhook tenant_id webhook_id => discard (deleteWebhook tenant_id webhook_id)
  | .claimDeliveries limit lease now => discard (claimDeliveries limit lease now)
  | .completeDelivery delivery_id status_code => completeDelivery delivery_id status_code
  | .retryDelivery delivery_id run_at error status_code =>
      retryDelivery delivery_id run_at error status_code
  | .buryDelivery delivery_id error status_code => buryDelivery delivery_id error status_code
  | .createTenant tenant audit now => discard (createTenant tenant audit now)
  | .createApiKey key audit => createApiKey key audit
  | .revokeApiKey tenant_id key_id audit now => discard (revokeApiKey tenant_id key_id audit now)
  | .activateCertificate certificate audit => activateCertificate certificate audit
  | .addNumberingRange range audit => addNumberingRange range audit
  | .retryDeadJob job_id audit now => discard (retryDeadJob job_id audit now)
  | .retryDeadDelivery delivery_id audit now => discard (retryDeadDelivery delivery_id audit now)

/-! ## When an operation breaks off half-way -/

def outcomeJob : JobOutcome → Uuid
  | .complete id | .bury id _ => id

namespace State

/-- The number is given out, and the document of the initial job has an active one. -/
def issueBreaks (s : State) (document : NewOutboundDocument) (initial_job : NewJob) (now : Time) :
    Bool :=
  match s.number document now with
  | .ok (.given _ _) => s.hasActiveJob initial_job.document_id initial_job.kind
  | _ => false

/-- The job to close does not exist. -/
def closesMissing (s : State) (t : Transition) : Bool :=
  t.job.any fun outcome => (s.jobs.get? (outcomeJob outcome)).isNone

/-- The document of the job that follows has an active one, other than the job to close. -/
def followUpTaken (s : State) (t : Transition) : Bool :=
  t.follow_up.any fun job => s.jobs.rows.any fun j =>
    t.job.map outcomeJob ≠ some j.id ∧ j.document_id = job.document_id ∧ j.kind = job.kind ∧
      j.active

def transitionBreaks (s : State) (t : Transition) : Bool :=
  match s.documents.get? t.document_id with
  | none => false
  | some d =>
      d.status.canTransitionTo t.target ∧ (s.closesMissing t = true ∨ s.followUpTaken t = true)

/-- One of the deliveries to claim has no webhook. -/
def claimBreaks (s : State) (limit : Int) (lease : Nat) (now : Time) : Bool :=
  (fromStd? lease).isSome ∧
    (s.readyDeliveries limit now).any fun d => (s.webhook? d.webhook_id).isNone

end State

/-- The operation returns an error after it has written. -/
def breaks (op : PortOp) (s : State) : Bool :=
  match op with
  | .issueOutbound document initial_job now => s.issueBreaks document initial_job now
  | .applyTransition t _ _ => s.transitionBreaks t
  | .claimDeliveries limit lease now => s.claimBreaks limit lease now
  | _ => false

/-! ## Operations that test before they write -/

section Runs

variable {α : Type} {s : State}

theorem atomic_of_ok {p : StoreM α} (h : ∃ a s', p s = .ok a s') : Atomic p s := by
  intro e s' herr
  obtain ⟨a, t, hok⟩ := h
  rw [hok] at herr
  cases herr

theorem atomic_of_error {p : StoreM α} {e : DomainError} (h : p s = .error e s) : Atomic p s := by
  intro e' s' herr
  rw [h] at herr
  cases herr
  rfl

/-- An operation whose error leaves another state is not atomic. -/
theorem not_atomic_of_error {p : StoreM α} {e : DomainError} {s' : State} (h : p s = .error e s')
    (hne : s' ≠ s) : ¬ Atomic p s :=
  fun hatomic => hne (hatomic e s' h)

/-- What an operation returns has no part in it. -/
theorem atomic_discard {p : StoreM α} : Atomic (discard p) s ↔ Atomic p s := by
  have hrun : ∀ e s', (discard p : StoreM Unit) s = .error e s' ↔ p s = .error e s' := by
    intro e s'
    show EStateM.map (Function.const α PUnit.unit) p s = .error e s' ↔ _
    unfold EStateM.map
    cases p s <;> simp
  simp only [Atomic, hrun]

theorem insertJob_run (job : NewJob) (s : State) :
    insertJob job s =
      if s.hasActiveJob job.document_id job.kind then .error (activeJobExists job) s
      else .ok () { s with jobs := s.jobs.insert (storedJob job) } := by
  unfold insertJob
  rw [get_bind_run]
  split <;> rfl

theorem jobMut_run (id : Uuid) (f : StoredJob → StoredJob) (hf : ∀ j, (f j).id = j.id)
    (s : State) :
    jobMut id f hf s =
      if (s.jobs.get? id).isNone then .error (noJob id) s
      else .ok () { s with jobs := s.jobs.modify id f hf } := by
  unfold jobMut
  rw [get_bind_run]
  split <;> rfl

theorem documentMut_run (id : Uuid) (f : Document → Document) (hf : ∀ d, (f d).id = d.id)
    (s : State) :
    documentMut id f hf s =
      if (s.documents.get? id).isNone then .error (noDocument id) s
      else .ok () { s with documents := s.documents.modify id f hf } := by
  unfold documentMut
  rw [get_bind_run]
  split <;> rfl

theorem deliveryMut_run (id : Uuid) (f : StoredDelivery → StoredDelivery)
    (hf : ∀ d, (f d).id = d.id) (s : State) :
    deliveryMut id f hf s =
      if (s.deliveries.get? id).isNone then .error (noDelivery id) s
      else .ok () { s with deliveries := s.deliveries.modify id f hf } := by
  unfold deliveryMut
  rw [get_bind_run]
  split <;> rfl

theorem jobMut_atomic (id : Uuid) (f : StoredJob → StoredJob) (hf : ∀ j, (f j).id = j.id) :
    Atomic (jobMut id f hf) s := by
  by_cases h : (s.jobs.get? id).isNone = true
  · exact atomic_of_error (by rw [jobMut_run, if_pos h])
  · exact atomic_of_ok ⟨_, _, by rw [jobMut_run, if_neg h]⟩

theorem documentMut_atomic (id : Uuid) (f : Document → Document) (hf : ∀ d, (f d).id = d.id) :
    Atomic (documentMut id f hf) s := by
  by_cases h : (s.documents.get? id).isNone = true
  · exact atomic_of_error (by rw [documentMut_run, if_pos h])
  · exact atomic_of_ok ⟨_, _, by rw [documentMut_run, if_neg h]⟩

theorem deliveryMut_atomic (id : Uuid) (f : StoredDelivery → StoredDelivery)
    (hf : ∀ d, (f d).id = d.id) : Atomic (deliveryMut id f hf) s := by
  by_cases h : (s.deliveries.get? id).isNone = true
  · exact atomic_of_error (by rw [deliveryMut_run, if_pos h])
  · exact atomic_of_ok ⟨_, _, by rw [deliveryMut_run, if_neg h]⟩

theorem insertInbound_atomic (document : NewInboundDocument) (now : Time) :
    Atomic (insertInbound document now) s := by
  refine atomic_of_ok ?_
  unfold insertInbound
  rw [get_bind_run]
  split <;> exact ⟨_, _, rfl⟩

theorem createTenant_atomic (tenant : NewTenant) (audit : AuditEntry) (now : Time) :
    Atomic (createTenant tenant audit now) s := by
  unfold Atomic createTenant
  rw [get_bind_run]
  split
  · exact atomic_of_error rfl
  · exact atomic_of_ok ⟨_, _, rfl⟩

theorem revokeApiKey_atomic (tenant_id key_id : Uuid) (audit : AuditEntry) (now : Time) :
    Atomic (revokeApiKey tenant_id key_id audit now) s := by
  refine atomic_of_ok ?_
  unfold revokeApiKey
  rw [get_bind_run]
  split <;> exact ⟨_, _, rfl⟩

theorem addNumberingRange_atomic (range : NumberingRange) (audit : AuditEntry) :
    Atomic (addNumberingRange range audit) s := by
  unfold Atomic addNumberingRange
  rw [get_bind_run]
  split
  · exact atomic_of_error rfl
  · exact atomic_of_ok ⟨_, _, rfl⟩

theorem retryDeadJob_atomic (job_id : Uuid) (audit : AuditEntry) (now : Time) :
    Atomic (retryDeadJob job_id audit now) s := by
  unfold Atomic retryDeadJob
  rw [get_bind_run]
  cases (s.jobs.get? job_id).filter fun j => j.status = .dead with
  | none => exact atomic_of_ok ⟨_, _, rfl⟩
  | some job =>
      dsimp only
      cases s.documents.get? job.document_id with
      | none => exact atomic_of_error rfl
      | some d =>
          dsimp only
          by_cases hallowed : Db.retryAllowed job.kind d.status = true
          · simp only [hallowed, Bool.not_true, Bool.false_eq_true, if_false]
            by_cases hactive : s.hasActiveJob job.document_id job.kind = true
            · rw [if_pos hactive]
              exact atomic_of_error rfl
            · rw [if_neg hactive]
              exact atomic_of_ok ⟨_, _, rfl⟩
          · simp only [hallowed, Bool.not_false, if_true]
            exact atomic_of_error rfl

theorem retryDeadDelivery_atomic (delivery_id : Uuid) (audit : AuditEntry) (now : Time) :
    Atomic (retryDeadDelivery delivery_id audit now) s := by
  refine atomic_of_ok ?_
  unfold retryDeadDelivery
  rw [get_bind_run]
  cases (s.deliveries.get? delivery_id).filter fun d => d.status = .dead with
  | none => exact ⟨_, _, rfl⟩
  | some d => exact ⟨_, _, rfl⟩

/-! ### The candidates of `requeue_contingency` -/

theorem mem_of_mem_insert {κ ρ : Type} [DecidableEq κ] {key : ρ → κ} {t : Table key} {new r : ρ}
    (h : r ∈ (t.insert new).rows) : r = new ∨ r ∈ t.rows := by
  unfold Table.insert at h
  split at h
  · obtain ⟨q, hq, rfl⟩ := List.mem_map.mp h
    split
    · exact .inl rfl
    · exact .inr hq
  · rcases List.mem_append.mp h with h | h
    · exact .inr h
    · exact .inl (List.mem_singleton.mp h)

theorem moved_id (status : DocumentStatus) (d : Document) : (d.moved status).id = d.id := rfl

/-- The state once a candidate is back in the queue. -/
def State.requeued (s : State) (id : Uuid) (job : NewJob) : State :=
  { s with
    documents := s.documents.modify id (Document.moved .pending) (moved_id .pending)
    jobs := s.jobs.insert (storedJob job) }

theorem requeueDocument_run {max_attempts : Int} {now : Time} {fresh : Uuid → Uuid} {id : Uuid}
    (h : s.hasActiveJob id .transmit = false) :
    requeueDocument max_attempts now fresh id s =
      .ok () (s.requeued id (.transmit (fresh id) now id max_attempts)) := by
  unfold requeueDocument
  rw [modify_bind_run, insertJob_run]
  exact if_neg (by rw [Bool.not_eq_true]; exact h)

/-- The job of one candidate is no job of another. -/
theorem requeued_hasActiveJob {id other : Uuid} {job : NewJob} (hdoc : job.document_id = id)
    (hne : other ≠ id) (h : s.hasActiveJob other .transmit = false) :
    (s.requeued id job).hasActiveJob other .transmit = false := by
  rw [State.hasActiveJob, List.any_eq_false] at h ⊢
  intro j hj hactive
  rcases mem_of_mem_insert hj with rfl | hj
  · rw [decide_eq_true_eq] at hactive
    exact hne (hactive.1.symm.trans hdoc)
  · exact h j hj hactive

/-- The state once all of them are. -/
def State.requeuedAll (max_attempts : Int) (now : Time) (fresh : Uuid → Uuid) :
    State → List Uuid → State
  | s, [] => s
  | s, id :: ids =>
      requeuedAll max_attempts now fresh
        (s.requeued id (.transmit (fresh id) now id max_attempts)) ids

theorem requeueEach_run {max_attempts : Int} {now : Time} {fresh : Uuid → Uuid} (ids : List Uuid)
    (hnodup : ids.Nodup) (h : ∀ id ∈ ids, s.hasActiveJob id .transmit = false) :
    ids.forM (requeueDocument max_attempts now fresh) s =
      .ok ⟨⟩ (s.requeuedAll max_attempts now fresh ids) := by
  induction ids generalizing s with
  | nil => rfl
  | cons id ids ih =>
      obtain ⟨hnew, hrest⟩ := List.nodup_cons.mp hnodup
      show (requeueDocument max_attempts now fresh id >>= fun _ =>
        ids.forM (requeueDocument max_attempts now fresh)) s = _
      rw [bind_ok (requeueDocument_run (h id List.mem_cons_self)), ih hrest]
      · rfl
      · intro other hmem
        exact requeued_hasActiveJob rfl (fun heq => hnew (heq ▸ hmem))
          (h other (List.mem_cons_of_mem _ hmem))

/-- The documents `requeue_contingency` puts back in the queue. -/
def State.candidates (s : State) (limit : Int) : List Uuid :=
  (s.contingencyDocuments.map Document.id).take limit.toNat

theorem candidates_nodup (limit : Int) : (s.candidates limit).Nodup :=
  (s.documents.nodup.sublist ((List.filter_sublist).map Document.id)).sublist
    (List.take_sublist _ _)

theorem candidates_free {limit : Int} {id : Uuid} (h : id ∈ s.candidates limit) :
    s.hasActiveJob id .transmit = false := by
  obtain ⟨d, hd, rfl⟩ := List.mem_map.mp (List.mem_of_mem_take h)
  rw [State.contingencyDocuments, List.mem_filter, decide_eq_true_eq] at hd
  simpa using hd.2.2

/-- No candidate is refused. -/
theorem requeueContingency_run (limit max_attempts : Int) (now : Time) (fresh : Uuid → Uuid) :
    requeueContingency limit max_attempts now fresh s =
      .ok (s.candidates limit).length
        (s.requeuedAll max_attempts now fresh (s.candidates limit)) := by
  unfold requeueContingency
  rw [get_bind_run]
  exact bind_ok (requeueEach_run _ (candidates_nodup limit) fun _ h => candidates_free h)

theorem requeueContingency_atomic (limit max_attempts : Int) (now : Time) (fresh : Uuid → Uuid) :
    Atomic (requeueContingency limit max_attempts now fresh) s :=
  atomic_of_ok ⟨_, _, requeueContingency_run limit max_attempts now fresh⟩

/-! ## Operations that write before they test -/

/-! ### `issue_outbound` -/

theorem issueOutbound_run (document : NewOutboundDocument) (initial_job : NewJob) (now : Time)
    (range : NumberingRange) (number : Int)
    (h : s.number document now = .ok (.given range number)) :
    issueOutbound document initial_job now s =
      if s.hasActiveJob initial_job.document_id initial_job.kind then
        .error (activeJobExists initial_job) (s.numbered document range number now)
      else
        .ok (.created ⟨document.id, number⟩)
          (({ s.numbered document range number now with
            jobs := s.jobs.insert (storedJob initial_job) } : State).withKey document number) := by
  unfold issueOutbound
  rw [get_bind_run, h]
  dsimp only
  rw [modify_bind_run]
  by_cases hactive : s.hasActiveJob initial_job.document_id initial_job.kind = true
  · rw [if_pos hactive]
    refine bind_error ?_
    rw [insertJob_run]
    exact if_pos hactive
  · rw [if_neg hactive]
    have hinsert : insertJob initial_job (s.numbered document range number now) =
        .ok () { s.numbered document range number now with
          jobs := s.jobs.insert (storedJob initial_job) } := by
      rw [insertJob_run]
      exact if_neg hactive
    exact (bind_ok hinsert).trans rfl

/-- The new document is not one of those there were: its number was free. -/
theorem numbered_ne {document : NewOutboundDocument} {now : Time} {range : NumberingRange}
    {number : Int} (h : s.number document now = .ok (.given range number)) :
    s.numbered document range number now ≠ s := by
  intro heq
  have hfree : s.hasNumber document number = false := by
    unfold State.number at h
    split at h
    · split at h <;> cases h
    · split at h
      · cases h
      · split at h
        · cases h
        · split at h
          · cases h
          · rename_i hnot
            cases h
            simpa using hnot
  have hmem : outboundRow document range number now ∈ s.documents.rows := by
    have hinserted := Table.mem_insert s.documents (outboundRow document range number now)
    rwa [show s.documents.insert (outboundRow document range number now) = s.documents from
      congrArg State.documents heq] at hinserted
  rw [State.hasNumber, List.any_eq_false] at hfree
  exact hfree _ hmem (by simp [outboundRow])

theorem issueOutbound_atomic_iff (document : NewOutboundDocument) (initial_job : NewJob)
    (now : Time) :
    Atomic (issueOutbound document initial_job now) s ↔
      s.issueBreaks document initial_job now = false := by
  unfold State.issueBreaks
  cases hnumber : s.number document now with
  | error e =>
      refine iff_of_true (atomic_of_error (e := e) ?_) rfl
      unfold issueOutbound
      rw [get_bind_run, hnumber]
      rfl
  | ok numbering =>
      cases numbering with
      | replayed issued =>
          refine iff_of_true (atomic_of_ok ⟨.replayed issued, s, ?_⟩) rfl
          unfold issueOutbound
          rw [get_bind_run, hnumber]
          rfl
      | given range number =>
          have hrun := issueOutbound_run document initial_job now range number hnumber
          by_cases hactive : s.hasActiveJob initial_job.document_id initial_job.kind = true
          · rw [if_pos hactive] at hrun
            exact iff_of_false (not_atomic_of_error hrun (numbered_ne hnumber)) (by simp [hactive])
          · rw [if_neg hactive] at hrun
            exact iff_of_true (atomic_of_ok ⟨_, _, hrun⟩) (by simpa using hactive)

/-! ### `apply_transition` -/

theorem ne_of_canTransitionTo {a b : DocumentStatus} (h : a.canTransitionTo b = true) : b ≠ a := by
  rintro rfl
  cases b <;> cases h

theorem notify_documents (d : Document) (target : DocumentStatus) (now : Time)
    (fresh : Nat → Uuid) : (s.notify d target now fresh).documents = s.documents := by
  unfold State.notify
  split <;> rfl

theorem notify_jobs (d : Document) (target : DocumentStatus) (now : Time) (fresh : Nat → Uuid) :
    (s.notify d target now fresh).jobs = s.jobs := by
  unfold State.notify
  split <;> rfl

theorem moved_jobs (d : Document) (t : Transition) (now : Time) (fresh : Nat → Uuid) :
    (s.moved d t now fresh).jobs = s.jobs :=
  notify_jobs d t.target now fresh

theorem moved_documents (d : Document) (t : Transition) (now : Time) (fresh : Nat → Uuid) :
    (s.moved d t now fresh).documents =
      s.documents.modify d.id (Document.moved t.target) fun _ => rfl :=
  notify_documents d t.target now fresh

/-- Whatever else a state holds, the document of the transition has its new status. -/
theorem moved_ne {d : Document} {t : Transition} {now : Time} {fresh : Nat → Uuid} {s' : State}
    (hd : d ∈ s.documents.rows) (hallowed : d.status.canTransitionTo t.target = true)
    (hs' : s'.documents = (s.moved d t now fresh).documents) : s' ≠ s := by
  rintro rfl
  rw [moved_documents] at hs'
  have hrows : s'.documents.rows.map (fun e => if e.id = d.id then e.moved t.target else e) =
      s'.documents.rows := by
    have := congrArg Table.rows hs'.symm
    simpa [Table.modify, Table.update] using this
  refine map_ite_ne (p := fun e => e.id = d.id) hd rfl ?_ hrows
  intro heq
  exact ne_of_canTransitionTo hallowed (congrArg Document.status heq)

/-- A job that is closed is not active any more. -/
theorem hasActiveJob_closed {id : Uuid} {f : StoredJob → StoredJob} (hf : ∀ j, (f j).id = j.id)
    (hclosed : ∀ j, (f j).active = false) (document_id : Uuid) (kind : JobKind) :
    ({ s with jobs := s.jobs.modify id f hf } : State).hasActiveJob document_id kind =
      s.jobs.rows.any fun j =>
        some id ≠ some j.id ∧ j.document_id = document_id ∧ j.kind = kind ∧ j.active := by
  show ((s.jobs.rows.map fun j => if decide (j.id = id) then f j else j).any fun j =>
    j.document_id = document_id ∧ j.kind = kind ∧ j.active) = _
  rw [List.any_map]
  refine congrArg (List.any s.jobs.rows) (funext fun j => ?_)
  by_cases hid : j.id = id
  · simp [hid, hclosed]
  · simp [hid, Ne.symm hid]

/-- Closing a job fails where it does not exist, and else leaves the other active ones. -/
theorem closeJob_run (t : Transition) :
    (∃ e, s.closesMissing t = true ∧ closeJob t.job s = .error e s) ∨
    (s.closesMissing t = false ∧ ∃ s', closeJob t.job s = .ok () s' ∧
      s'.documents = s.documents ∧
      ∀ document_id kind, s'.hasActiveJob document_id kind =
        s.jobs.rows.any fun j => t.job.map outcomeJob ≠ some j.id ∧ j.document_id = document_id ∧
          j.kind = kind ∧ j.active) := by
  have hmut : ∀ id f hf, (∀ j, (f j).active = false) → t.job.map outcomeJob = some id →
      closeJob t.job s = jobMut id f hf s →
      (∃ e, s.closesMissing t = true ∧ closeJob t.job s = .error e s) ∨
      (s.closesMissing t = false ∧ ∃ s', closeJob t.job s = .ok () s' ∧
        s'.documents = s.documents ∧
        ∀ document_id kind, s'.hasActiveJob document_id kind =
          s.jobs.rows.any fun j => t.job.map outcomeJob ≠ some j.id ∧
            j.document_id = document_id ∧ j.kind = kind ∧ j.active) := by
    intro id f hf hclosed hid hrun
    have hmissing : s.closesMissing t = (s.jobs.get? id).isNone := by
      obtain ⟨outcome, houtcome, hout⟩ := Option.map_eq_some_iff.mp hid
      rw [State.closesMissing, houtcome, Option.any_some, hout]
    rw [hrun, hmissing, jobMut_run, hid]
    by_cases hnone : (s.jobs.get? id).isNone = true
    · exact .inl ⟨_, hnone, if_pos hnone⟩
    · refine .inr ⟨by simpa only [Bool.not_eq_true] using hnone, _, if_neg hnone, rfl, ?_⟩
      exact hasActiveJob_closed hf hclosed
  cases hjob : t.job with
  | none =>
      refine .inr ⟨by rw [State.closesMissing, hjob]; rfl, s, rfl, rfl, fun document_id kind => ?_⟩
      simp [State.hasActiveJob]
  | some outcome =>
      rw [hjob] at hmut
      cases outcome with
      | complete id =>
          exact hmut id StoredJob.completed (fun _ => rfl) (fun _ => rfl) rfl rfl
      | bury id error =>
          exact hmut id (StoredJob.buried error) (fun _ => rfl) (fun _ => rfl) rfl rfl

/-- The job that follows is refused where its document has an active one. -/
theorem insertJob?_run (follow_up : Option NewJob) (s : State) :
    (∃ e, (follow_up.any fun job => s.hasActiveJob job.document_id job.kind) = true ∧
      insertJob? follow_up s = .error e s) ∨
    ((follow_up.any fun job => s.hasActiveJob job.document_id job.kind) = false ∧
      ∃ s', insertJob? follow_up s = .ok () s') := by
  cases follow_up with
  | none => exact .inr ⟨rfl, s, rfl⟩
  | some job =>
      by_cases hactive : s.hasActiveJob job.document_id job.kind = true
      · exact .inl ⟨_, hactive, (insertJob_run job s).trans (if_pos hactive)⟩
      · exact .inr ⟨Bool.not_eq_true _ ▸ hactive, _, (insertJob_run job s).trans (if_neg hactive)⟩

/-- A transition that is allowed goes on from the state with the new status, its outbox and its
    event. -/
theorem applyTransition_run {t : Transition} (now : Time) (fresh : Nat → Uuid) {d : Document}
    (hd : s.documents.get? t.document_id = some d)
    (hallowed : d.status.canTransitionTo t.target = true) :
    applyTransition t now fresh s =
      (do
        closeJob t.job
        insertJob? t.follow_up
        return true : StoreM Bool) (s.moved d t now fresh) := by
  unfold applyTransition
  rw [get_bind_run, hd]
  simp only [hallowed, Bool.not_true, Bool.false_eq_true, if_false]
  rfl

/-- A transition that is not allowed has done nothing. -/
theorem applyTransition_refused {t : Transition} (now : Time) (fresh : Nat → Uuid)
    (h : ∀ d, s.documents.get? t.document_id = some d → d.status.canTransitionTo t.target = false) :
    Atomic (applyTransition t now fresh) s := by
  unfold Atomic applyTransition
  rw [get_bind_run]
  cases hd : s.documents.get? t.document_id with
  | none => exact atomic_of_error rfl
  | some d =>
      simp only [h d hd, Bool.not_false, if_true]
      exact atomic_of_ok ⟨_, _, rfl⟩

theorem applyTransition_atomic_iff (t : Transition) (now : Time) (fresh : Nat → Uuid) :
    Atomic (applyTransition t now fresh) s ↔ s.transitionBreaks t = false := by
  cases hd : s.documents.get? t.document_id with
  | none =>
      refine iff_of_true (applyTransition_refused now fresh (by simp [hd])) ?_
      rw [State.transitionBreaks, hd]
  | some d =>
      have hmem := (Table.mem_of_get? hd).1
      by_cases hallowed : d.status.canTransitionTo t.target = true
      · have hstep := applyTransition_run now fresh hd hallowed
        have hmissing : (s.moved d t now fresh).closesMissing t = s.closesMissing t := by
          rw [State.closesMissing, State.closesMissing, moved_jobs]
        have hbreaks : s.transitionBreaks t = (s.closesMissing t || s.followUpTaken t) := by
          rw [State.transitionBreaks, hd]
          simp [hallowed]
        rw [hbreaks]
        obtain ⟨e, hclose, hrun⟩ | ⟨hclose, s₁, hrun, hdocuments, hactive⟩ :=
          closeJob_run (s := s.moved d t now fresh) t
        · refine iff_of_false (not_atomic_of_error (hstep.trans (bind_error hrun))
            (moved_ne hmem hallowed rfl)) ?_
          rw [← hmissing, hclose]
          simp
        · have htaken : (t.follow_up.any fun job => s₁.hasActiveJob job.document_id job.kind) =
              s.followUpTaken t := by
            simp only [hactive, moved_jobs]
            rfl
          rw [← hmissing, hclose, ← htaken, Bool.false_or]
          rw [bind_ok hrun] at hstep
          obtain ⟨e, hfollow, hrun₁⟩ | ⟨hfollow, s₂, hrun₁⟩ := insertJob?_run t.follow_up s₁
          · rw [hfollow]
            exact iff_of_false (not_atomic_of_error (hstep.trans (bind_error hrun₁))
              (moved_ne hmem hallowed hdocuments)) (by simp)
          · exact iff_of_true (atomic_of_ok ⟨true, s₂, hstep.trans (bind_ok hrun₁)⟩) hfollow
      · rw [Bool.not_eq_true] at hallowed
        refine iff_of_true (applyTransition_refused now fresh ?_) ?_
        · intro e he
          rw [hd] at he
          cases he
          exact hallowed
        · rw [State.transitionBreaks, hd]
          simp [hallowed]

/-! ### `claim_deliveries` -/

theorem claimed_id (lease : Nat) (now : Time) (d : StoredDelivery) :
    (d.claimed lease now).id = d.id := rfl

/-- The state once a delivery is marked. -/
def State.marked (s : State) (lease : Nat) (now : Time) (id : Uuid) : State :=
  { s with
    deliveries := s.deliveries.modify id (DeliveryRow.claimed lease now) (claimed_id lease now) }

theorem claimDelivery_missing {lease : Nat} {now : Time} {d : StoredDelivery}
    (h : s.webhook? d.webhook_id = none) :
    claimDelivery lease now d s =
      .error (.internal "delivery without webhook") (s.marked lease now d.id) := by
  unfold claimDelivery
  rw [modify_bind_run, get_bind_run]
  have hmarked : (s.marked lease now d.id).webhook? d.webhook_id = none := h
  unfold State.marked at hmarked
  rw [hmarked]
  rfl

theorem claimDelivery_found (lease : Nat) (now : Time) {d : StoredDelivery} {w : Webhook}
    (h : s.webhook? d.webhook_id = some w) :
    claimDelivery lease now d s =
      .ok ((d.claimed lease now).delivery w) (s.marked lease now d.id) := by
  unfold claimDelivery
  rw [modify_bind_run, get_bind_run]
  have hmarked : (s.marked lease now d.id).webhook? d.webhook_id = some w := h
  unfold State.marked at hmarked
  rw [hmarked]
  rfl

/-- The delivery `id` has been attempted more than `n` times. -/
def Attempted (id : Uuid) (n : Int) (s : State) : Prop :=
  ∃ r ∈ s.deliveries.rows, r.id = id ∧ n < r.attempts

theorem attempted_marked {id : Uuid} {n : Int} (h : Attempted id n s) (lease : Nat) (now : Time)
    (other : Uuid) : Attempted id n (s.marked lease now other) := by
  obtain ⟨r, hr, hid, hn⟩ := h
  refine ⟨_, List.mem_map.mpr ⟨r, hr, rfl⟩, ?_⟩
  split
  · exact ⟨hid, Int.lt_add_one_of_le (Int.le_of_lt hn)⟩
  · exact ⟨hid, hn⟩

/-- Marking a delivery counts an attempt of it. -/
theorem attempted_self {d : StoredDelivery} (hd : d ∈ s.deliveries.rows) (lease : Nat)
    (now : Time) : Attempted d.id d.attempts (s.marked lease now d.id) := by
  refine ⟨_, List.mem_map.mpr ⟨d, hd, rfl⟩, ?_⟩
  rw [if_pos (by simp)]
  exact ⟨rfl, Int.lt_succ d.attempts⟩

/-- The deliveries claimed before one without a webhook stay marked. -/
theorem claimEach_run (lease : Nat) (now : Time) (ready : List StoredDelivery) (s : State) :
    ((∀ d ∈ ready, (s.webhook? d.webhook_id).isSome = true) ∧
      ∃ ds s', claimEach lease now ready s = .ok ds s') ∨
    ((∃ d ∈ ready, s.webhook? d.webhook_id = none) ∧
      ∃ e s', claimEach lease now ready s = .error e s' ∧
        ∀ id n, Attempted id n s → Attempted id n s') := by
  induction ready generalizing s with
  | nil => exact .inl ⟨by simp, [], s, rfl⟩
  | cons d ready ih =>
      cases hw : s.webhook? d.webhook_id with
      | none =>
          refine .inr ⟨⟨d, List.mem_cons_self, hw⟩, _, _, bind_error (claimDelivery_missing hw), ?_⟩
          exact fun id n h => attempted_marked h lease now d.id
      | some w =>
          have hfirst := claimDelivery_found lease now hw
          obtain ⟨hall, ds, s', hrun⟩ | ⟨⟨q, hq, hmissing⟩, e, s', hrun, hkept⟩ :=
            ih (s.marked lease now d.id)
          · refine .inl ⟨?_, _, s', (bind_ok hfirst).trans (bind_ok hrun)⟩
            intro q hq
            rcases List.mem_cons.mp hq with rfl | hq
            · rw [hw]
              rfl
            · exact hall q hq
          · refine .inr ⟨⟨q, List.mem_cons_of_mem _ hq, hmissing⟩, e, s', ?_, ?_⟩
            · exact (bind_ok hfirst).trans (bind_error hrun)
            · exact fun id n h => hkept id n (attempted_marked h lease now d.id)

/-- The first delivery to claim is marked, whatever becomes of it. -/
theorem claimEach_ne {lease : Nat} {now : Time} {d : StoredDelivery} {ready : List StoredDelivery}
    {e : DomainError} {s' : State} (hd : d ∈ s.deliveries.rows)
    (h : claimEach lease now (d :: ready) s = .error e s') : s' ≠ s := by
  have hattempted : Attempted d.id d.attempts s' := by
    cases hw : s.webhook? d.webhook_id with
    | none =>
        have hrun : claimEach lease now (d :: ready) s = _ := bind_error (claimDelivery_missing hw)
        rw [hrun] at h
        cases h
        exact attempted_self hd lease now
    | some w =>
        have hfirst := claimDelivery_found lease now hw
        obtain ⟨-, ds, t, hrun⟩ | ⟨-, e', t, hrun, hkept⟩ :=
          claimEach_run lease now ready (s.marked lease now d.id)
        · have hok : claimEach lease now (d :: ready) s = _ :=
            (bind_ok hfirst).trans (bind_ok hrun)
          rw [hok] at h
          cases h
        · have herror : claimEach lease now (d :: ready) s = _ :=
            (bind_ok hfirst).trans (bind_error hrun)
          rw [herror] at h
          cases h
          exact hkept _ _ (attempted_self hd lease now)
  rintro rfl
  obtain ⟨r, hr, hid, hlt⟩ := hattempted
  have hsame : r = d := eq_of_key_eq s'.deliveries.nodup hr hd hid
  rw [hsame] at hlt
  exact lt_irrefl _ hlt

theorem mem_readyDeliveries {limit : Int} {now : Time} {d : StoredDelivery}
    (h : d ∈ s.readyDeliveries limit now) : d ∈ s.deliveries.rows :=
  (List.mem_filter.mp (mem_orderBy.mp (List.mem_of_mem_take h))).1

theorem claimDeliveries_atomic_iff (limit : Int) (lease : Nat) (now : Time) :
    Atomic (claimDeliveries limit lease now) s ↔ s.claimBreaks limit lease now = false := by
  cases hlease : fromStd? lease with
  | none =>
      have hrun : claimDeliveries limit lease now s = .error (.internal
          "Source duration value is out of range for the target type") s := by
        unfold claimDeliveries
        rw [get_bind_run, hlease]
        rfl
      exact iff_of_true (atomic_of_error hrun) (by simp [State.claimBreaks, hlease])
  | some l =>
      have hstep : claimDeliveries limit lease now s =
          claimEach lease now (s.readyDeliveries limit now) s := by
        unfold claimDeliveries
        rw [get_bind_run, hlease]
      have hbreaks : s.claimBreaks limit lease now =
          (s.readyDeliveries limit now).any fun d => (s.webhook? d.webhook_id).isNone := by
        rw [State.claimBreaks, hlease]
        simp only [Option.isSome_some, true_and, Bool.decide_eq_true]
      rw [hbreaks]
      obtain ⟨hall, ds, s', hrun⟩ | ⟨⟨q, hq, hmissing⟩, e, s', hrun, -⟩ :=
        claimEach_run lease now (s.readyDeliveries limit now) s
      · refine iff_of_true (atomic_of_ok ⟨ds, s', hstep.trans hrun⟩) ?_
        rw [List.any_eq_false]
        intro d hd
        rw [← Option.not_isSome, hall d hd]
        simp
      · refine iff_of_false (not_atomic_of_error (hstep.trans hrun) ?_) ?_
        · cases hready : s.readyDeliveries limit now with
          | nil =>
              rw [hready] at hq
              cases hq
          | cons d ready =>
              have hd : d ∈ s.deliveries.rows :=
                mem_readyDeliveries (hready ▸ List.mem_cons_self)
              rw [hready] at hrun
              exact claimEach_ne hd hrun
        · rw [Bool.not_eq_false, List.any_eq_true]
          exact ⟨q, hq, by rw [hmissing]; rfl⟩

end Runs

/-! ## Every operation -/

/-- An operation of a port, from any state, leaves the state as it was whenever it returns an
    error, unless it is one of the three that broke off after writing. -/
theorem atomic_iff (op : PortOp) (s : State) : Atomic (perform op) s ↔ breaks op s = false := by
  cases op with
  | issueOutbound document initial_job now =>
      exact atomic_discard.trans (issueOutbound_atomic_iff document initial_job now)
  | applyTransition t now fresh =>
      exact atomic_discard.trans (applyTransition_atomic_iff t now fresh)
  | claimDeliveries limit lease now =>
      exact atomic_discard.trans (claimDeliveries_atomic_iff limit lease now)
  | insertInbound document now =>
      exact iff_of_true (atomic_discard.mpr (insertInbound_atomic document now)) rfl
  | storeArtifacts => exact iff_of_true (documentMut_atomic _ _ _) rfl
  | recordEvent event => exact iff_of_true (atomic_of_ok ⟨_, _, rfl⟩) rfl
  | claim limit lease now =>
      exact iff_of_true (atomic_discard.mpr (atomic_of_ok ⟨_, _, rfl⟩)) rfl
  | complete => exact iff_of_true (jobMut_atomic _ _ _) rfl
  | retry => exact iff_of_true (jobMut_atomic _ _ _) rfl
  | release => exact iff_of_true (jobMut_atomic _ _ _) rfl
  | bury => exact iff_of_true (jobMut_atomic _ _ _) rfl
  | requeueContingency limit max_attempts now fresh =>
      exact iff_of_true
        (atomic_discard.mpr (requeueContingency_atomic limit max_attempts now fresh)) rfl
  | createWebhook webhook => exact iff_of_true (atomic_of_ok ⟨_, _, rfl⟩) rfl
  | deleteWebhook tenant_id webhook_id =>
      exact iff_of_true (atomic_discard.mpr (atomic_of_ok ⟨_, _, rfl⟩)) rfl
  | completeDelivery => exact iff_of_true (deliveryMut_atomic _ _ _) rfl
  | retryDelivery => exact iff_of_true (deliveryMut_atomic _ _ _) rfl
  | buryDelivery => exact iff_of_true (deliveryMut_atomic _ _ _) rfl
  | createTenant tenant audit now =>
      exact iff_of_true (atomic_discard.mpr (createTenant_atomic tenant audit now)) rfl
  | createApiKey key audit => exact iff_of_true (atomic_of_ok ⟨_, _, rfl⟩) rfl
  | revokeApiKey tenant_id key_id audit now =>
      exact iff_of_true (atomic_discard.mpr (revokeApiKey_atomic tenant_id key_id audit now)) rfl
  | activateCertificate certificate audit => exact iff_of_true (atomic_of_ok ⟨_, _, rfl⟩) rfl
  | addNumberingRange range audit =>
      exact iff_of_true (addNumberingRange_atomic range audit) rfl
  | retryDeadJob job_id audit now =>
      exact iff_of_true (atomic_discard.mpr (retryDeadJob_atomic job_id audit now)) rfl
  | retryDeadDelivery delivery_id audit now =>
      exact iff_of_true (atomic_discard.mpr (retryDeadDelivery_atomic delivery_id audit now)) rfl

/-! ### A follow-up that is refused -/

def emptyState : State :=
  ⟨[], [], .empty _, .empty _, [], .empty _, .empty _, [], .empty _, [], []⟩

/-- A document sent to the DIAN, with its status query in the queue. -/
def sentState : State :=
  { emptyState with
    documents := (Table.empty Document.id).insert
      { id := 10
        tenant_id := 1
        direction := .outbound
        issuer_nit := ""
        document_type := .invoice
        pfx := "FE"
        document_number := 1
        numbering_range_id := some 7
        cufe_cude := "cufe"
        payload := .null
        original_xml := none
        signed_xml := none
        status := .sentDian
        created_at := 0 }
    jobs := (Table.empty StoredJob.id).insert (storedJob (.pollStatus 20 10 "zip-1" 10 0)) }

/-- The verdict of the DIAN, with a second status query to follow. -/
def duplicateFollowUp : Transition :=
  (Transition.new 10 .dianAccepted).withFollowUp (.pollStatus 21 10 "zip-2" 10 5)

/-- The transition is refused, and the document is accepted all the same. -/
theorem refused_transition_kept : ¬ ∀ op s, Atomic (perform op) s := by
  intro h
  have hatomic := h (.applyTransition duplicateFollowUp 5 fun i => i) sentState
  have hkept := (applyTransition_atomic_iff duplicateFollowUp 5 fun i => i).mp
    (atomic_discard.mp hatomic)
  exact absurd hkept (by decide)

end DianService.Memory
