import DianService.Issue.Alone
import DianService.Store.Deliveries
import DianService.Application.ProcessingCalls

/-
  Worker: all workers together over one database. A claimed job becomes a task, which runs
  `process` call by call; the calls of different tasks, the reconciler, the administrator, the
  API and the clock interleave freely. A repository call is answered by the store, or fails
  without effect, or takes effect and fails on the way back; the other calls (signer, DIAN,
  breaker, clock, random numbers) are answered by anything at all. A worker may die at any point:
  its task is gone and its job stays as it is in the table. `JOB_TIMEOUT` ends a task in the same
  way. A worker may also be arbitrarily slow.

  The dispatcher of webhooks works beside them on the outbox: it claims deliveries, sends each
  one and records the outcome.

  `log` is history only: every exchange of every task, with the document it was made for.
-/

namespace DianService

open Lib Lib.Prog

/-! ## Repository calls -/

/-- An update, and the reply to it. -/
def Db.committed (db : Db) : Except DomainError Db → Db × Except DomainError Unit
  | .ok db' => (db', .ok ())
  | .error e => (db, .error e)

/-- The store's answer to a repository call, `none` for the other calls. -/
def Db.respond (db : Db) (now : Time) (fresh : Nat → Uuid) : (c : Call) → Option (Db × Reply c)
  | .findDocument id => some (db, .ok (db.document? id))
  | .findNumberingRange id => some (db, .ok (db.range? id))
  | .storeArtifacts id cufe original_xml signed_xml =>
      some (db.committed (db.storeArtifacts id cufe original_xml signed_xml))
  | .recordEvent event => some (db.committed (db.insertEvent event))
  | .applyTransition t =>
      match db.applyTransition t now fresh with
      | .ok (db', applied) => some (db', .ok applied)
      | .error e => some (db, .error e)
  | .complete job_id => some (db.complete job_id, .ok ())
  | .retry job_id run_at error => some (db.committed (db.retry job_id run_at error))
  | .release job_id run_at => some (db.committed (db.release job_id run_at))
  | .bury job_id error => some (db.bury job_id error, .ok ())
  | _ => none

/-- The reply of a repository call that failed. -/
def Call.failure (e : DomainError) : (c : Call) → Option (Reply c)
  | .findDocument _ => some (.error e)
  | .findNumberingRange _ => some (.error e)
  | .storeArtifacts .. => some (.error e)
  | .recordEvent _ => some (.error e)
  | .applyTransition _ => some (.error e)
  | .complete _ => some (.error e)
  | .retry .. => some (.error e)
  | .release .. => some (.error e)
  | .bury .. => some (.error e)
  | _ => none

/-- What goes wrong between a worker and the database during one call. -/
inductive Fault where
  | none
  /-- The call fails without effect. -/
  | failed (message : String)
  /-- The call takes effect and its reply is lost. -/
  | lost (message : String)

/-- Everything about a call that the code does not decide. -/
structure World where
  answer : (c : Call) → Reply c
  fresh : Nat → Uuid
  fault : Fault

def World.apply (w : World) (db : Db) (now : Time) (c : Call) : Db × Reply c :=
  match db.respond now w.fresh c with
  | none => (db, w.answer c)
  | some (db', r) =>
      match w.fault with
      | .none => (db', r)
      | .failed message => (db, (c.failure (.database message)).getD r)
      | .lost message => (db', (c.failure (.database message)).getD r)

/-! ## The system -/

/-- The processing of a claimed job. -/
structure Task where
  job : Job
  lease_until : Time
  history : History
  rest : Prog Call Reply (Except DomainError Unit)

/-- A claimed delivery that is being sent. -/
structure DeliveryTask where
  delivery : WebhookDelivery
  lease_until : Time

/-- Everything about the sending of a delivery that the code does not decide. -/
structure DeliveryWorld where
  started : Time
  post : Except DomainError Nat
  delay : Int
  fault : Fault

structure System where
  db : Db
  now : Time
  tasks : List Task
  deliveries : List DeliveryTask
  log : List (Uuid × Exchange Call Reply)

inductive SystemAction where
  | tick (d : Nat)
  | createWebhook (webhook : Webhook)
  | registerRange (id tenant_id : Uuid) (request : RegisterNumberingRange)
  | issueOutbound (r : Request) (times : List Time)
  | buryExpired
  | claim (worker_id : String) (limit lease : Nat) (skipped : List Uuid)
  | work (i : Nat) (w : World)
  | crash (i : Nat)
  | requeueContingency (limit : Nat) (fresh : Nat → Uuid) (skipped : List Uuid)
  | retryDeadJob (job_id : Uuid) (audit : AuditEntry)
  | claimDeliveries (limit lease : Nat) (skipped : List Uuid)
  | deliver (i : Nat) (w : DeliveryWorld)
  | crashDelivery (i : Nat)
  | retryDeadDelivery (delivery_id : Uuid) (audit : AuditEntry)

/-- The outcome of a delivery as the database has it in the end. -/
def DeliveryWorld.record (w : DeliveryWorld) (db : Db) (delivery : WebhookDelivery) : Db :=
  match w.fault with
  | .none | .lost _ =>
      db.recordDelivery delivery.id (deliverOutcome delivery w.started w.post w.delay)
  | .failed _ => db

section System

variable (ubl : UblEngine) (config : ProcessorConfig)

/-- A job just claimed. -/
def Task.start (lease_until : Time) (job : Job) : Task :=
  ⟨job, lease_until, [], (process ubl config job).run⟩

/-- The task after a call and its reply. -/
def Task.reply (t : Task) (c : Call) (r : Reply c) (rest : Prog Call Reply (Except DomainError Unit)) :
    Task :=
  { t with history := t.history ++ [⟨c, r⟩], rest := rest }

def systemStep (s : System) : SystemAction → Option System
  | .tick d => some { s with now := s.now + d }
  | .createWebhook webhook =>
      match s.db.createWebhook webhook with
      | .error _ => some s
      | .ok db => some { s with db := db }
  | .registerRange id tenant_id request =>
      match s.db.registerNumberingRange id tenant_id request with
      | .error _ => some s
      | .ok (db, _) => some { s with db := db }
  | .issueOutbound r times => some { s with db := s.db.issueOutbound r times }
  | .buryExpired => some { s with db := s.db.buryExpired s.now }
  | .claim worker_id limit lease skipped =>
      let (db, jobs) := s.db.claim worker_id limit lease s.now skipped
      some { s with
        db := db
        tasks := s.tasks ++ jobs.map (Task.start ubl config (s.now + lease)) }
  | .work i w =>
      match s.tasks[i]? with
      | none => none
      | some t =>
          match t.rest with
          | .done _ => none
          | .call c k =>
              let (db, r) := w.apply s.db s.now c
              some { s with
                db := db
                tasks := s.tasks.set i (t.reply c r (k r))
                log := s.log ++ [(t.job.document_id, ⟨c, r⟩)] }
  | .crash i =>
      match s.tasks[i]? with
      | none => none
      | some _ => some { s with tasks := s.tasks.eraseIdx i }
  | .requeueContingency limit fresh skipped =>
      match s.db.requeueContingency limit config.transmit_max_attempts s.now fresh skipped with
      | .error _ => some s
      | .ok (db, _) => some { s with db := db }
  | .retryDeadJob job_id audit =>
      match s.db.retryDeadJob job_id audit s.now with
      | .error _ => some s
      | .ok (db, _) => some { s with db := db }
  | .claimDeliveries limit lease skipped =>
      let (db, deliveries) := s.db.claimDeliveries limit lease s.now skipped
      some { s with
        db := db
        deliveries := s.deliveries ++ deliveries.map fun delivery => ⟨delivery, s.now + lease⟩ }
  | .deliver i w =>
      match s.deliveries[i]? with
      | none => none
      | some t =>
          some { s with
            db := w.record s.db t.delivery
            deliveries := s.deliveries.eraseIdx i }
  | .crashDelivery i =>
      match s.deliveries[i]? with
      | none => none
      | some _ => some { s with deliveries := s.deliveries.eraseIdx i }
  | .retryDeadDelivery delivery_id audit =>
      some { s with db := (s.db.retryDeadDelivery delivery_id audit s.now).1 }

def system : Machine System SystemAction where
  start s := ∃ tenants now, s = ⟨Db.fresh tenants, now, [], [], []⟩
  step := systemStep ubl config

end System

end DianService
