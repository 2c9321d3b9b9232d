import DianService.Store.Admin

/-
  Store: every administrative operation that reports success made its change together with one
  row of `admin_audit_log`, and every other one left the tables as they were. So the log is the
  list of the changes made, in order.
-/

namespace DianService

open Lib Lib.Tx AdminDb

/-! ## The operations, as what they change -/

inductive AdminOp where
  | createTenant (tenant : NewTenant) (now : Time)
  | createApiKey (key : ApiKeyRecord)
  | revokeApiKey (tenant_id key_id : Uuid) (now : Time)
  | activateCertificate (certificate : Certificate)
  | addNumberingRange (range : NumberingRange)
  | retryDeadJob (job_id : Uuid) (now : Time)
  | retryDeadDelivery (delivery_id : Uuid) (now : Time)

namespace AdminOp

/-- The operation; `true` is `Ok` or `Ok(true)`. -/
def perform (op : AdminOp) (audit : AuditEntry) : AdminTx Bool :=
  match op with
  | .createTenant tenant now => do
      let _ ← PgStore.createTenant tenant audit now
      return true
  | .createApiKey key => do
      PgStore.createApiKey key audit
      return true
  | .revokeApiKey tenant_id key_id now => PgStore.revokeApiKey tenant_id key_id audit now
  | .activateCertificate certificate => do
      PgStore.activateCertificate certificate audit
      return true
  | .addNumberingRange range => do
      PgStore.addNumberingRange range audit
      return true
  | .retryDeadJob job_id now => PgStore.retryDeadJob job_id audit now
  | .retryDeadDelivery delivery_id now => PgStore.retryDeadDelivery delivery_id audit now

/-- The rows once the operation has made its change. -/
def change (op : AdminOp) (db : AdminDb) : AdminDb :=
  match op with
  | .createTenant tenant now => db.withTenant (tenant.row now)
  | .createApiKey key => db.withApiKey key
  | .revokeApiKey tenant_id key_id now => db.withKeyRevoked tenant_id key_id now
  | .activateCertificate certificate =>
      (db.revokeActive certificate.tenant_id).withCertificate certificate
  | .addNumberingRange range => db.withRange range
  | .retryDeadJob job_id now =>
      match db.deadJob? job_id with
      | some (.transmit, .contingencyPending, document_id) =>
          (db.withDocumentPending document_id).withJobRevived job_id now
      | _ => db.withJobRevived job_id now
  | .retryDeadDelivery delivery_id now => db.withDeliveryRevived delivery_id now

end AdminOp

/-- The change was made, with its row of the log. -/
structure Recorded (op : AdminOp) (audit : AuditEntry) (db db' : AdminDb) : Prop where
  rows : db' = (op.change db).record audit
  log : db'.admin_audit_log = db.admin_audit_log ++ [audit]
  changed : op.change db ≠ db

/-- Success is recorded, anything else leaves the rows as they were. -/
def Audited (op : AdminOp) (audit : AuditEntry) (db : AdminDb) :
    Except DomainError Bool × AdminDb → Prop
  | (.ok true, db') => Recorded op audit db db'
  | (.ok false, db') => db' = db
  | (.error _, db') => db' = db

/-! ## Each operation -/

theorem change_log (op : AdminOp) (db : AdminDb) :
    (op.change db).admin_audit_log = db.admin_audit_log := by
  cases op with
  | retryDeadJob job_id now =>
      simp only [AdminOp.change]
      split <;> rfl
  | _ => rfl

theorem recorded {op : AdminOp} {audit : AuditEntry} {db : AdminDb} (h : op.change db ≠ db) :
    Recorded op audit db ((op.change db).record audit) :=
  ⟨rfl, by rw [record, change_log], h⟩

section Operations

variable {db : AdminDb} {audit : AuditEntry}

theorem holds_insertAudit {c w : AdminDb} {Q : Unit → AdminDb → AdminDb → Prop}
    (h : Q () c (w.record audit)) :
    Holds (PgStore.insertAudit audit) c w Q (fun _ c' => c' = c) := by
  refine holds_exec (fun _ => rfl) fun w' a hw => ?_
  cases hw
  exact h

theorem append_singleton_ne {ρ : Type} (rows : List ρ) (r : ρ) : rows ++ [r] ≠ rows := by
  simp

theorem createTenant_holds (tenant : NewTenant) (now : Time) :
    Holds (AdminOp.perform (.createTenant tenant now) audit) db db
      (fun b c _ => Audited (.createTenant tenant now) audit db (.ok b, c)) fun _ c => c = db := by
  refine holds_bind (holds_bind (holds_begin (fun _ => rfl) ?_))
  refine holds_bind (holds_exec (fun _ => rfl) fun w' row hw => ?_)
  unfold insertTenant at hw
  split at hw
  · cases hw
  · cases hw
    refine holds_bind (holds_insertAudit ?_)
    refine holds_bind (holds_commit (fun _ => rfl) ?_)
    refine holds_pure (holds_pure (recorded fun h => ?_))
    exact append_singleton_ne _ _ (congrArg AdminDb.tenant_rows h)

theorem createApiKey_holds (key : ApiKeyRecord) :
    Holds (AdminOp.perform (.createApiKey key) audit) db db
      (fun b c _ => Audited (.createApiKey key) audit db (.ok b, c)) fun _ c => c = db := by
  refine holds_bind (holds_bind (holds_begin (fun _ => rfl) ?_))
  refine holds_bind (holds_exec (fun _ => rfl) fun w' _ hw => ?_)
  unfold insertApiKey at hw
  split_ifs at hw
  cases hw
  refine holds_bind (holds_insertAudit ?_)
  refine holds_commit (fun _ => rfl) (holds_pure (recorded fun h => ?_))
  exact append_singleton_ne _ _ (congrArg AdminDb.api_keys h)

theorem revokeApiKey_holds (tenant_id key_id : Uuid) (now : Time) :
    Holds (AdminOp.perform (.revokeApiKey tenant_id key_id now) audit) db db
      (fun b c _ => Audited (.revokeApiKey tenant_id key_id now) audit db (.ok b, c))
      fun _ c => c = db := by
  refine holds_bind (holds_begin (fun _ => rfl) ?_)
  refine holds_bind (holds_exec (fun _ => rfl) fun w' rows hw => ?_)
  cases hw
  by_cases hany : db.api_keys.any (·.isActive tenant_id key_id) = true
  · rw [if_pos hany]
    refine holds_bind (holds_insertAudit ?_)
    refine holds_bind (holds_commit (fun _ => rfl) (holds_pure (recorded fun h => ?_)))
    obtain ⟨k, hk, hactive⟩ := List.any_eq_true.mp hany
    refine map_ite_ne hk hactive ?_ (congrArg AdminDb.api_keys h)
    intro heq
    have hrevoked := congrArg ApiKeyRecord.revoked_at heq
    simp only [ApiKeyRecord.isActive, decide_eq_true_eq] at hactive
    rw [hactive.2.2] at hrevoked
    cases hrevoked
  · rw [if_neg hany]
    refine holds_bind (holds_commit (fun _ => rfl) (holds_pure ?_))
    show db.withKeyRevoked tenant_id key_id now = db
    rw [withKeyRevoked, map_ite_eq_self hany]

theorem activateCertificate_holds (certificate : Certificate) :
    Holds (AdminOp.perform (.activateCertificate certificate) audit) db db
      (fun b c _ => Audited (.activateCertificate certificate) audit db (.ok b, c))
      fun _ c => c = db := by
  refine holds_bind (holds_bind (holds_begin (fun _ => rfl) ?_))
  refine holds_bind (holds_exec (fun _ => rfl) fun w₁ _ hw₁ => ?_)
  cases hw₁
  refine holds_bind (holds_exec (fun _ => rfl) fun w' _ hw => ?_)
  unfold insertCertificate at hw
  split_ifs at hw
  cases hw
  refine holds_bind (holds_insertAudit ?_)
  refine holds_commit (fun _ => rfl) (holds_pure (recorded fun h => ?_))
  -- the insert adds a row, whatever became of the certificates before it
  have hlength := congrArg (fun d => d.certificates.length) h
  simp [AdminOp.change, withCertificate, revokeActive] at hlength

theorem addNumberingRange_holds (range : NumberingRange) :
    Holds (AdminOp.perform (.addNumberingRange range) audit) db db
      (fun b c _ => Audited (.addNumberingRange range) audit db (.ok b, c))
      fun _ c => c = db := by
  refine holds_bind (holds_bind (holds_begin (fun _ => rfl) ?_))
  refine holds_bind (holds_query (fun _ => rfl) ?_)
  split
  · exact holds_throw rfl
  · refine holds_bind (holds_exec (fun _ => rfl) fun w' inserted hw => ?_)
    unfold insertRange at hw
    split_ifs at hw
    · cases hw
      exact holds_throw rfl
    · cases hw
      refine holds_bind (holds_insertAudit ?_)
      refine holds_commit (fun _ => rfl) (holds_pure (recorded fun h => ?_))
      exact append_singleton_ne _ _ (congrArg (fun d => d.numbering_ranges) h)

theorem retryDeadDelivery_holds (delivery_id : Uuid) (now : Time) :
    Holds (AdminOp.perform (.retryDeadDelivery delivery_id now) audit) db db
      (fun b c _ => Audited (.retryDeadDelivery delivery_id now) audit db (.ok b, c))
      fun _ c => c = db := by
  refine holds_bind (holds_begin (fun _ => rfl) ?_)
  refine holds_bind (holds_exec (fun _ => rfl) fun w' rows hw => ?_)
  cases hw
  by_cases hany : db.webhook_deliveries.any (isDead delivery_id) = true
  · rw [if_pos hany]
    refine holds_bind (holds_insertAudit ?_)
    refine holds_bind (holds_commit (fun _ => rfl) (holds_pure (recorded fun h => ?_)))
    obtain ⟨d, hd, hdead⟩ := List.any_eq_true.mp hany
    refine map_ite_ne hd hdead ?_ (congrArg (fun d => d.webhook_deliveries) h)
    intro heq
    have hstatus := congrArg DeliveryRow.status heq
    simp only [isDead, decide_eq_true_eq] at hdead
    rw [hdead.2] at hstatus
    cases hstatus
  · rw [if_neg hany]
    refine holds_bind (holds_commit (fun _ => rfl) (holds_pure ?_))
    show db.withDeliveryRevived delivery_id now = db
    rw [withDeliveryRevived, Db.mapDeliveries, map_ite_eq_self hany]

theorem retryDeadJob_jobs (job_id : Uuid) (now : Time) (db : AdminDb) :
    ((AdminOp.retryDeadJob job_id now).change db).jobs =
      db.jobs.map fun j => if j.id = job_id then j.revived now else j := by
  simp only [AdminOp.change]
  split <;> rfl

/-- A dead job that is revived is not as it was. -/
theorem retryDeadJob_changes {job_id : Uuid} {now : Time} {x : JobKind × DocumentStatus × Uuid}
    (h : db.deadJob? job_id = some x) : (AdminOp.retryDeadJob job_id now).change db ≠ db := by
  intro heq
  have hjobs : ((AdminOp.retryDeadJob job_id now).change db).jobs = db.jobs := by rw [heq]
  rw [retryDeadJob_jobs] at hjobs
  unfold deadJob? at h
  obtain ⟨j, hj, -⟩ := Option.bind_eq_some_iff.mp h
  obtain ⟨hfind, hdead⟩ := Option.filter_eq_some_iff.mp hj
  obtain ⟨hmem, hid⟩ := Db.job?_mem hfind
  refine map_ite_ne hmem hid ?_ hjobs
  intro hrevived
  have hstatus := congrArg JobRow.status hrevived
  rw [of_decide_eq_true hdead] at hstatus
  cases hstatus

/-- The last statements of `retry_dead_job`, from the rows `w` on. -/
theorem revive_holds {job_id : Uuid} {now : Time} {w : AdminDb}
    (hw : w.withJobRevived job_id now = (AdminOp.retryDeadJob job_id now).change db)
    (hne : (AdminOp.retryDeadJob job_id now).change db ≠ db) :
    Holds (do
        exec (updateDeadJob job_id now)
        PgStore.insertAudit audit
        commit
        return true) db w
      (fun b c _ => Audited (.retryDeadJob job_id now) audit db (.ok b, c)) fun _ c => c = db := by
  refine holds_bind (holds_exec (fun _ => rfl) fun w' _ hstep => ?_)
  unfold updateDeadJob at hstep
  split at hstep
  · cases hstep
  · cases hstep
    rw [hw]
    exact holds_bind (holds_insertAudit (holds_bind (holds_commit (fun _ => rfl)
      (holds_pure (recorded hne)))))

theorem retryDeadJob_holds (job_id : Uuid) (now : Time) :
    Holds (AdminOp.perform (.retryDeadJob job_id now) audit) db db
      (fun b c _ => Audited (.retryDeadJob job_id now) audit db (.ok b, c))
      fun _ c => c = db := by
  refine holds_bind (holds_begin (fun _ => rfl) ?_)
  refine holds_bind (holds_query (fun _ => rfl) ?_)
  split
  · exact holds_bind (holds_rollback (fun _ => rfl) (holds_pure rfl))
  · rename_i kind status document_id hjob
    dsimp only
    by_cases hallowed : Db.retryAllowed kind status = true
    · rw [if_neg (by simp [hallowed])]
      by_cases hpending : kind = .transmit ∧ status = .contingencyPending
      · rw [if_pos hpending]
        refine holds_bind (holds_exec (fun _ => rfl) fun w' _ hw => ?_)
        cases hw
        refine revive_holds ?_ (retryDeadJob_changes hjob)
        obtain ⟨rfl, rfl⟩ := hpending
        simp only [AdminOp.change, hjob]
      · rw [if_neg hpending]
        refine revive_holds ?_ (retryDeadJob_changes hjob)
        simp only [AdminOp.change, hjob]
        split
        · rename_i heq
          cases heq
          exact absurd ⟨rfl, rfl⟩ hpending
        · rfl
    · rw [if_pos (by simp [hallowed])]
      exact holds_bind (holds_throw rfl)

theorem perform_holds (op : AdminOp) :
    Holds (op.perform audit) db db (fun b c _ => Audited op audit db (.ok b, c))
      fun _ c => c = db := by
  cases op with
  | createTenant tenant now => exact createTenant_holds tenant now
  | createApiKey key => exact createApiKey_holds key
  | revokeApiKey tenant_id key_id now => exact revokeApiKey_holds tenant_id key_id now
  | activateCertificate certificate => exact activateCertificate_holds certificate
  | addNumberingRange range => exact addNumberingRange_holds range
  | retryDeadJob job_id now => exact retryDeadJob_holds job_id now
  | retryDeadDelivery delivery_id now => exact retryDeadDelivery_holds delivery_id now

/-- Whichever of its calls fail, an operation is recorded or leaves no trace. -/
theorem audited (op : AdminOp) (audit : AuditEntry) (db : AdminDb)
    (faults : List (Option DomainError)) :
    Audited op audit db (transact (op.perform audit) db faults) :=
  transact_of_holds (P := Audited op audit db) (perform_holds op) faults

end Operations

/-! ## The same operations in one step -/

/-- The end of an operation on the tables that the other operations share. -/
def AdminDb.ended {α : Type} (db : AdminDb) :
    Except DomainError (Db × α) → Except DomainError α × AdminDb
  | .ok (db', a) => (.ok a, { db with toDb := db' })
  | .error e => (.error e, db)

/-- The last statements of `retry_dead_job`, from the rows `w` on. -/
theorem revive_run (db w : AdminDb) (job_id : Uuid) (audit : AuditEntry) (now : Time) :
    (do
      exec (updateDeadJob job_id now)
      PgStore.insertAudit audit
      commit
      return true : AdminTx Bool) ⟨db, w, []⟩ =
      if w.wouldDuplicate job_id then
        .error (.conflict "El documento ya tiene un trabajo activo") ⟨db, w, []⟩
      else
        let rows := (w.withJobRevived job_id now).record audit
        .ok true ⟨rows, rows, []⟩ := by
  by_cases hduplicate : w.wouldDuplicate job_id = true
  · rw [if_pos hduplicate]
    exact bind_error (exec_run_error (by rw [updateDeadJob, if_pos hduplicate]))
  · rw [if_neg hduplicate, bind_ok (exec_run (by rw [updateDeadJob, if_neg hduplicate]))]
    rfl

/-- With every call answered, `retry_dead_job` is the one step of `Db.retryDeadJob`. -/
theorem retryDeadJob_one_step (db : AdminDb) (job_id : Uuid) (audit : AuditEntry) (now : Time) :
    transact (PgStore.retryDeadJob job_id audit now) db [] =
      db.ended (db.toDb.retryDeadJob job_id audit now) := by
  unfold Db.retryDeadJob transact PgStore.retryDeadJob
  rw [bind_ok begin_run, bind_ok (query_run _)]
  cases hj : (db.job? job_id).filter fun j => j.status = .dead with
  | none =>
      simp only [deadJob?, hj, Option.bind_none, Option.bind_eq_bind]
      rw [bind_ok rollback_run]
      rfl
  | some j =>
      cases hd : db.document? j.document_id with
      | none =>
          simp only [deadJob?, hj, hd, Option.bind_none, Option.bind_eq_bind, Option.bind_some]
          rw [bind_ok rollback_run]
          rfl
      | some d =>
          simp only [deadJob?, hj, hd, Option.bind_eq_bind, Option.bind_some, Option.pure_def]
          by_cases hallowed : Db.retryAllowed j.kind d.status = true
          · simp only [hallowed, Bool.not_true, Bool.false_eq_true, if_false, not_true_eq_false]
            by_cases hpending : j.kind = .transmit ∧ d.status = .contingencyPending
            · rw [if_pos hpending, if_pos hpending, bind_ok (exec_run rfl), revive_run]
              have hid : d.id = j.document_id := (Db.document?_mem hd).2
              rw [← hid]
              -- the update of the document leaves the jobs as they are
              by_cases hduplicate : db.wouldDuplicate job_id = true
              · rw [if_pos hduplicate, if_pos (show (db.withDocumentPending d.id).wouldDuplicate
                  job_id = true from hduplicate)]
                rfl
              · rw [if_neg hduplicate, if_neg (show ¬ (db.withDocumentPending d.id).wouldDuplicate
                  job_id = true from hduplicate)]
                rfl
            · rw [if_neg hpending, if_neg hpending, revive_run]
              by_cases hduplicate : db.wouldDuplicate job_id = true
              · rw [if_pos hduplicate, if_pos hduplicate]
                rfl
              · rw [if_neg hduplicate, if_neg hduplicate]
                rfl
          · simp only [hallowed, Bool.not_false, if_true]
            rfl

theorem withDeliveryRevived_eq (db : AdminDb) (delivery_id : Uuid) (now : Time) :
    db.withDeliveryRevived delivery_id now =
      { db with
        toDb := db.toDb.mapDeliveries fun d =>
          if d.id = delivery_id ∧ d.status = .dead then d.revived now else d } := by
  simp only [withDeliveryRevived, isDead, decide_eq_true_eq]

theorem retryDeadDelivery_one_step (db : AdminDb) (delivery_id : Uuid) (audit : AuditEntry)
    (now : Time) :
    transact (PgStore.retryDeadDelivery delivery_id audit now) db [] =
      db.ended (.ok (db.toDb.retryDeadDelivery delivery_id audit now)) := by
  unfold Db.retryDeadDelivery transact PgStore.retryDeadDelivery
  rw [bind_ok begin_run, bind_ok (exec_run rfl)]
  by_cases hany : db.webhook_deliveries.any (isDead delivery_id) = true
  · rw [if_pos hany, if_pos (show db.webhook_deliveries.any (fun d => d.id = delivery_id ∧
      d.status = .dead) = true from hany), withDeliveryRevived_eq]
    rfl
  · rw [if_neg hany, if_neg (show ¬ db.webhook_deliveries.any (fun d => d.id = delivery_id ∧
      d.status = .dead) = true from hany)]
    have hsame : db.withDeliveryRevived delivery_id now = db := by
      rw [withDeliveryRevived, Db.mapDeliveries, map_ite_eq_self hany]
    rw [hsame]
    rfl

/-- What the one step of `Db.addNumberingRange` accepts, `add_numbering_range` commits. -/
theorem addNumberingRange_one_step {db : AdminDb} {range : NumberingRange} {audit : AuditEntry}
    {db' : Db} (hlimits : range.from_number ≤ range.to_number) (hcounter : 0 ≤ range.current_counter)
    (h : db.toDb.addNumberingRange range audit = .ok db') :
    transact (PgStore.addNumberingRange range audit) db [] = (.ok (), { db with toDb := db' }) := by
  have htenant : db.hasTenant range.tenant_id = true := by
    unfold Db.addNumberingRange at h
    split at h
    · cases h
    · rename_i hfound
      simpa [hasTenant] using hfound
  obtain ⟨rfl, hid, hoverlaps⟩ := Db.addNumberingRange_ok h
  have hinsert : insertRange range db = .ok (db.withRange range, 1) := by
    unfold insertRange
    rw [if_neg (by simpa using hoverlaps), if_neg (by omega), if_neg (by omega),
      if_neg (by simpa using hid)]
  unfold transact PgStore.addNumberingRange
  rw [bind_ok begin_run, bind_ok (query_run _)]
  simp only [htenant, Bool.not_true, Bool.false_eq_true, if_false]
  rw [bind_ok (exec_run hinsert)]
  rfl

/-! ## Runs -/

/-- A step of the service: an operation of the administrator, or any other write, none of which
    is to `admin_audit_log`. -/
inductive ServiceStep where
  | admin (op : AdminOp) (audit : AuditEntry) (faults : List (Option DomainError))
  | other (write : AdminDb → AdminDb)
      (keeps : ∀ db, (write db).admin_audit_log = db.admin_audit_log)

/-- The rows after a step, and the entry of the change it reports. -/
def ServiceStep.take (db : AdminDb) : ServiceStep → AdminDb × List AuditEntry
  | .admin op audit faults =>
      match transact (op.perform audit) db faults with
      | (.ok true, db') => (db', [audit])
      | (_, db') => (db', [])
  | .other write _ => (write db, [])

/-- The rows after a run, and the entries of the changes reported in it, in order. -/
def serviceRun : AdminDb → List ServiceStep → AdminDb × List AuditEntry
  | db, [] => (db, [])
  | db, step :: steps =>
      let (db', entries) := step.take db
      let (db'', rest) := serviceRun db' steps
      (db'', entries ++ rest)

theorem take_log (step : ServiceStep) (db : AdminDb) :
    (step.take db).1.admin_audit_log = db.admin_audit_log ++ (step.take db).2 := by
  cases step with
  | admin op audit faults =>
      have haudited := audited op audit db faults
      unfold ServiceStep.take
      dsimp only
      split
      · rename_i db' htransact
        rw [htransact] at haudited
        exact haudited.log
      · rename_i result db' hne htransact
        rw [htransact] at haudited
        have hsame : db' = db := by
          cases result with
          | error e => exact haudited
          | ok b =>
              cases b with
              | false => exact haudited
              | true => exact absurd rfl hne
        rw [hsame, List.append_nil]
  | other write keeps => rw [ServiceStep.take, keeps, List.append_nil]

theorem serviceRun_log (db : AdminDb) (steps : List ServiceStep) :
    (serviceRun db steps).1.admin_audit_log = db.admin_audit_log ++ (serviceRun db steps).2 := by
  induction steps generalizing db with
  | nil => exact (List.append_nil _).symm
  | cons step steps ih =>
      simp only [serviceRun]
      rw [ih, take_log, List.append_assoc]

/-- Every operation of the administrator, from any rows and with any of its calls failing, made
    its change with its row of the log if it reports success, and left the rows as they were if
    not; so over any run the log grows by the changes reported, in order. -/
theorem audit_log_exact :
    (∀ op audit db faults, Audited op audit db (transact (op.perform audit) db faults)) ∧
      ∀ db steps, (serviceRun db steps).1.admin_audit_log =
        db.admin_audit_log ++ (serviceRun db steps).2 :=
  ⟨audited, serviceRun_log⟩

end DianService
