import DianService.Store.Consistency
import DianService.Worker.System

/-
  Worker: what one step of the system can do. `Answered` lists what a call of a task does to the
  tables and what its reply says about them, `SystemStep` the cases of `systemStep` with
  everything each of them tests. The invariants of the system are case analyses over the two.
-/

namespace DianService

open Lib Lib.Prog

/-! ## A call of a task -/

/-- What a call can do to the tables. -/
inductive Effect (db : Db) : Call → Db → Prop where
  | same {c : Call} : Effect db c db
  | stored {id : Uuid} {cufe original_xml signed_xml : String} :
      Effect db (.storeArtifacts id cufe original_xml signed_xml)
        (db.updateDocument id (Document.signed cufe original_xml signed_xml))
  | recorded {event : DianEvent} :
      Effect db (.recordEvent event) { db with dian_events := db.dian_events ++ [event] }
  | applied {t : Transition} {d : Document} {db' : Db} (h : db.Applied t d db') :
      Effect db (.applyTransition t) db'
  | completed {id : Uuid} : Effect db (.complete id) (db.complete id)
  | retried {id : Uuid} {run_at : Time} {error : String} (h : db.wouldDuplicate id = false) :
      Effect db (.retry id run_at error) (db.updateJob id (JobRow.retried run_at error))
  | released {id : Uuid} {run_at : Time} (h : db.wouldDuplicate id = false) :
      Effect db (.release id run_at) (db.updateJob id (JobRow.released run_at))
  | buried {id : Uuid} {error : String} : Effect db (.bury id error) (db.bury id error)

/-- What the replies that a processing relies on say about the tables. -/
def Truthful (db : Db) : Exchange Call Reply → Prop
  | ⟨.findDocument id, .ok found⟩ => found = db.document? id
  | ⟨.applyTransition t, .ok false⟩ =>
      ∀ d, db.document? t.document_id = some d → d.status ∉ t.target.allowedPredecessors
  | _ => True

structure Answered (db : Db) (c : Call) (r : Reply c) (db' : Db) : Prop where
  effect : Effect db c db'
  truthful : Truthful db ⟨c, r⟩
  calm : settles ⟨c, r⟩ = false → db'.jobs = db.jobs

section Answered

variable {db db' : Db} {now : Time} {fresh : Nat → Uuid} {c : Call} {r r' : Reply c}

theorem committed_cases (result : Except DomainError Db) :
    (∃ db', result = .ok db' ∧ db.committed result = (db', .ok ())) ∨
      ∃ e, db.committed result = (db, .error e) := by
  cases result with
  | ok db' => exact .inl ⟨db', rfl, rfl⟩
  | error e => exact .inr ⟨e, rfl⟩

/-- A repository call that went through. -/
theorem respond_answered (h : db.respond now fresh c = some (db', r)) : Answered db c r db' := by
  cases c with
  | findDocument id =>
      cases h
      exact ⟨.same, rfl, fun _ => rfl⟩
  | findNumberingRange id =>
      cases h
      exact ⟨.same, trivial, fun _ => rfl⟩
  | storeArtifacts id cufe original_xml signed_xml =>
      simp only [Db.respond, Option.some.injEq] at h
      rcases @committed_cases db (db.storeArtifacts id cufe original_xml signed_xml) with
        ⟨db₁, hok, hc⟩ | ⟨e, hc⟩ <;> rw [hc] at h <;> cases h
      · rw [Db.storeArtifacts_ok hok]
        exact ⟨.stored, trivial, fun _ => rfl⟩
      · exact ⟨.same, trivial, fun _ => rfl⟩
  | recordEvent event =>
      simp only [Db.respond, Option.some.injEq] at h
      rcases @committed_cases db (db.insertEvent event) with ⟨db₁, hok, hc⟩ | ⟨e, hc⟩ <;>
        rw [hc] at h <;> cases h
      · rw [Db.insertEvent_ok hok]
        exact ⟨.recorded, trivial, fun _ => rfl⟩
      · exact ⟨.same, trivial, fun _ => rfl⟩
  | applyTransition t =>
      simp only [Db.respond] at h
      split at h
      · rename_i db₁ applied happlied
        cases h
        rcases Db.applyTransition_ok happlied with ⟨rfl, rfl, hnot⟩ | ⟨rfl, d, hd⟩
        · exact ⟨.same, hnot, fun _ => rfl⟩
        · exact ⟨.applied hd, trivial, by simp [settles]⟩
      · cases h
        exact ⟨.same, trivial, fun _ => rfl⟩
  | complete job_id =>
      cases h
      exact ⟨.completed, trivial, by simp [settles]⟩
  | retry job_id run_at error =>
      simp only [Db.respond, Option.some.injEq] at h
      rcases @committed_cases db (db.retry job_id run_at error) with
        ⟨db₁, hok, hc⟩ | ⟨e, hc⟩ <;> rw [hc] at h <;> cases h
      · obtain ⟨rfl, hfree⟩ := Db.requeueJob_ok hok
        exact ⟨.retried hfree, trivial, by simp [settles]⟩
      · exact ⟨.same, trivial, fun _ => rfl⟩
  | release job_id run_at =>
      simp only [Db.respond, Option.some.injEq] at h
      rcases @committed_cases db (db.release job_id run_at) with
        ⟨db₁, hok, hc⟩ | ⟨e, hc⟩ <;> rw [hc] at h <;> cases h
      · obtain ⟨rfl, hfree⟩ := Db.requeueJob_ok hok
        exact ⟨.released hfree, trivial, by simp [settles]⟩
      · exact ⟨.same, trivial, fun _ => rfl⟩
  | bury job_id error =>
      cases h
      exact ⟨.buried, trivial, by simp [settles]⟩
  | _ => cases h

/-- A failed reply says nothing about the tables, and it counts as a settling one. -/
theorem failure_truthful {e : DomainError} (h : c.failure e = some r) :
    Truthful db ⟨c, r⟩ ∧ (settles ⟨c, r⟩ = false → Effect db c db' → db'.jobs = db.jobs) := by
  cases c <;> cases h
  case findDocument | findNumberingRange | storeArtifacts | recordEvent =>
    exact ⟨trivial, fun _ heffect => by cases heffect <;> rfl⟩
  case applyTransition | complete | retry | release | bury =>
    exact ⟨trivial, by simp [settles]⟩

theorem failure_isSome (h : (db.respond now fresh c).isSome) (e : DomainError) :
    (c.failure e).isSome := by
  cases c
  case findDocument | findNumberingRange | storeArtifacts | recordEvent | applyTransition |
      complete | retry | release | bury => rfl
  all_goals cases h

/-- What the other calls do: nothing that the store knows of. -/
theorem respond_none_answered (h : db.respond now fresh c = none) (r : Reply c) :
    Answered db c r db := by
  refine ⟨.same, ?_, fun _ => rfl⟩
  cases c
  case findDocument => cases h
  case applyTransition t =>
    simp only [Db.respond] at h
    split at h <;> cases h
  all_goals exact trivial

theorem World.apply_answered (w : World) (db : Db) (now : Time) (c : Call) :
    Answered db c (w.apply db now c).2 (w.apply db now c).1 := by
  unfold World.apply
  cases hresp : db.respond now w.fresh c with
  | none => exact respond_none_answered hresp _
  | some result =>
      obtain ⟨db', r⟩ := result
      have hans := respond_answered hresp
      have hsome : ∀ e, (c.failure e).isSome := failure_isSome (by rw [hresp]; rfl)
      cases w.fault with
      | none => exact hans
      | failed message =>
          obtain ⟨r', hr'⟩ := Option.isSome_iff_exists.mp (hsome (.database message))
          show Answered db c ((c.failure (.database message)).getD r) db
          rw [hr', Option.getD_some]
          exact ⟨.same, (@failure_truthful db db c r' _ hr').1, fun _ => rfl⟩
      | lost message =>
          obtain ⟨r', hr'⟩ := Option.isSome_iff_exists.mp (hsome (.database message))
          show Answered db c ((c.failure (.database message)).getD r) db'
          rw [hr', Option.getD_some]
          obtain ⟨htrue, hcalm⟩ := @failure_truthful db db' c r' _ hr'
          exact ⟨hans.effect, htrue, fun h => hcalm h hans.effect⟩

/-- `store_artifacts` was answered with success, so the columns are written. -/
theorem stored_of_ok {w : World} {id : Uuid} {cufe original_xml signed_xml : String}
    (h : w.apply db now (.storeArtifacts id cufe original_xml signed_xml) = (db', .ok ())) :
    db' = db.updateDocument id (Document.signed cufe original_xml signed_xml) := by
  simp only [World.apply, Db.respond] at h
  rcases @committed_cases db (db.storeArtifacts id cufe original_xml signed_xml) with
    ⟨db₁, hok, hc⟩ | ⟨e, hc⟩ <;> rw [hc] at h <;> cases hfault : w.fault <;> rw [hfault] at h <;>
    cases h
  exact Db.storeArtifacts_ok hok

end Answered

/-! ## A step of the system -/

section Step

variable (ubl : UblEngine) (config : ProcessorConfig)

/-- The steps of tasks. -/
def SystemAction.works : SystemAction → Bool
  | .work .. => true
  | _ => false

inductive SystemStep (s : System) : SystemAction → System → Prop where
  | idle {a : SystemAction} {db : Db} {now : Time} {deliveries : List DeliveryTask}
      (hdocuments : db.documents = s.db.documents) (hjobs : db.jobs = s.db.jobs)
      (hevents : db.dian_events = s.db.dian_events) (hnow : s.now ≤ now)
      (hidle : a.works = false) :
      SystemStep s a { s with db := db, now := now, deliveries := deliveries }
  | issued {r : Request} {times : List Time} {tx : Tx} {db' : Db}
      (hfree : s.db.documentTaken r.document tx.number = false)
      (hjob : s.db.insertJob r.initialJob = .ok db') :
      SystemStep s (.issueOutbound r times) { s with db := s.db.commitIssue r tx }
  | expired : SystemStep s .buryExpired { s with db := s.db.buryExpired s.now }
  | claimed {worker_id : String} {limit lease : Nat} {skipped : List Uuid} :
      SystemStep s (.claim worker_id limit lease skipped)
        { s with
          db := (s.db.claim worker_id limit lease s.now skipped).1
          tasks := s.tasks ++ (s.db.claim worker_id limit lease s.now skipped).2.map
            (Task.start ubl config (s.now + lease)) }
  | worked {i : Nat} {w : World} {t : Task} {c : Call} {r : Reply c} {db : Db}
      {k : Reply c → Prog Call Reply (Except DomainError Unit)} (ht : s.tasks[i]? = some t)
      (hrest : t.rest = .call c k) (happly : w.apply s.db s.now c = (db, r))
      (h : Answered s.db c r db) :
      SystemStep s (.work i w)
        { s with
          db := db
          tasks := s.tasks.set i (t.reply c r (k r))
          log := s.log ++ [(t.job.document_id, ⟨c, r⟩)] }
  | crashed {i : Nat} {t : Task} (ht : s.tasks[i]? = some t) :
      SystemStep s (.crash i) { s with tasks := s.tasks.eraseIdx i }
  | requeued {limit : Nat} {fresh : Nat → Uuid} {skipped : List Uuid} {db : Db} {n : Nat}
      (h : s.db.requeueContingency limit config.transmit_max_attempts s.now fresh skipped =
        .ok (db, n)) :
      SystemStep s (.requeueContingency limit fresh skipped) { s with db := db }
  | revived {job_id : Uuid} {audit : AuditEntry} {db : Db} {b : Bool}
      (h : s.db.retryDeadJob job_id audit s.now = .ok (db, b)) (hne : db ≠ s.db) :
      SystemStep s (.retryDeadJob job_id audit) { s with db := db }

variable {ubl config}

/-- Sending a delivery touches no document, job or event. -/
theorem DeliveryWorld.record_db (w : DeliveryWorld) (db : Db) (delivery : WebhookDelivery) :
    (w.record db delivery).documents = db.documents ∧ (w.record db delivery).jobs = db.jobs ∧
      (w.record db delivery).dian_events = db.dian_events := by
  unfold DeliveryWorld.record Db.recordDelivery
  cases w.fault <;> dsimp only <;> first | exact ⟨rfl, rfl, rfl⟩ | (split <;> exact ⟨rfl, rfl, rfl⟩)

theorem systemStep_inv {s s' : System} {a : SystemAction}
    (h : systemStep ubl config s a = some s') : SystemStep ubl config s a s' := by
  cases a with
  | tick d =>
      cases h
      exact .idle rfl rfl rfl (Int.le_add_of_nonneg_right (Int.natCast_nonneg d)) rfl
  | createWebhook webhook =>
      simp only [systemStep] at h
      split at h
      · cases h
        exact .idle rfl rfl rfl (le_refl _) rfl
      · rename_i db hok
        cases h
        rw [(Db.createWebhook_ok hok).1]
        exact .idle rfl rfl rfl (le_refl _) rfl
  | registerRange id tenant_id request =>
      simp only [systemStep] at h
      split at h
      · cases h
        exact .idle rfl rfl rfl (le_refl _) rfl
      · rename_i db range hok
        cases h
        obtain ⟨rfl, -, -⟩ := Db.addNumberingRange_ok (Db.registerNumberingRange_ok hok).2
        exact .idle rfl rfl rfl (le_refl _) rfl
  | issueOutbound r times =>
      cases h
      rcases issueAlone_cases times (show FoundFree s.db r .lookup from .of_none rfl) with
        hdb | ⟨tx, hdb, hfree, db', hjob⟩
      · rw [Db.issueOutbound, hdb]
        exact .idle rfl rfl rfl (le_refl _) rfl
      · rw [Db.issueOutbound, hdb]
        exact .issued hfree hjob
  | buryExpired =>
      cases h
      exact .expired
  | claim worker_id limit lease skipped =>
      cases h
      exact .claimed
  | work i w =>
      simp only [systemStep] at h
      split at h
      · cases h
      · rename_i t ht
        split at h
        · cases h
        · rename_i c k hrest
          cases h
          exact .worked ht hrest rfl (w.apply_answered s.db s.now c)
  | crash i =>
      simp only [systemStep] at h
      split at h <;> cases h
      exact .crashed ‹_›
  | requeueContingency limit fresh skipped =>
      simp only [systemStep] at h
      split at h <;> cases h
      · exact .idle rfl rfl rfl (le_refl _) rfl
      · exact .requeued ‹_›
  | retryDeadJob job_id audit =>
      simp only [systemStep] at h
      split at h <;> cases h
      · exact .idle rfl rfl rfl (le_refl _) rfl
      · rename_i db b hok
        by_cases hdb : db = s.db
        · subst hdb
          exact .idle rfl rfl rfl (le_refl _) rfl
        · exact .revived hok hdb
  | claimDeliveries limit lease skipped =>
      cases h
      exact .idle rfl rfl rfl (le_refl _) rfl
  | deliver i w =>
      simp only [systemStep] at h
      split at h <;> cases h
      have hdb := w.record_db s.db (DeliveryTask.delivery ‹_›)
      exact .idle hdb.1 hdb.2.1 hdb.2.2 (le_refl _) rfl
  | crashDelivery i =>
      simp only [systemStep] at h
      split at h <;> cases h
      exact .idle rfl rfl rfl (le_refl _) rfl
  | retryDeadDelivery delivery_id audit =>
      cases h
      unfold Db.retryDeadDelivery
      split <;> exact .idle rfl rfl rfl (le_refl _) rfl

end Step

end DianService
