import DianService.Application.Inbound
import DianService.Worker.Tasks

/-
  Worker: what a step does to the tables that a document rests on. Tenants never change, a range
  keeps all but its counter, and a row of `documents` is what some earlier one was, moved or signed
  for a job of its own.
-/

namespace DianService

open Lib Lib.Prog

/-- The columns of a range that no statement updates. -/
structure NumberingRange.Same (r q : NumberingRange) : Prop where
  id : q.id = r.id
  tenant_id : q.tenant_id = r.tenant_id
  document_type : q.document_type = r.document_type
  pfx : q.pfx = r.pfx
  technical_key : q.technical_key = r.technical_key

theorem NumberingRange.Same.refl (r : NumberingRange) : r.Same r := ⟨rfl, rfl, rfl, rfl, rfl⟩

theorem NumberingRange.Same.trans {r q p : NumberingRange} (h : r.Same q) (h' : q.Same p) :
    r.Same p :=
  ⟨h'.id.trans h.id, h'.tenant_id.trans h.tenant_id, h'.document_type.trans h.document_type,
    h'.pfx.trans h.pfx, h'.technical_key.trans h.technical_key⟩

theorem same_setCounter (id : Uuid) (number : Int) (r : NumberingRange) :
    r.Same (setCounter id number r) := by
  unfold setCounter
  split
  · exact ⟨rfl, rfl, rfl, rfl, rfl⟩
  · exact .refl r

/-- The tenants and the ranges as the other rows refer to them. -/
structure Db.Rooted (db db' : Db) : Prop where
  tenants : db'.tenants = db.tenants
  ranges : ∀ r ∈ db.numbering_ranges, ∃ q ∈ db'.numbering_ranges, r.Same q
  range_ids : (db.numbering_ranges.map NumberingRange.id).Nodup →
    (db'.numbering_ranges.map NumberingRange.id).Nodup

namespace Db.Rooted

variable {db db' : Db}

theorem of_eq (htenants : db'.tenants = db.tenants)
    (hranges : db'.numbering_ranges = db.numbering_ranges) : db.Rooted db' :=
  ⟨htenants, fun r hr => ⟨r, hranges ▸ hr, .refl r⟩, fun h => hranges ▸ h⟩

theorem addRange {range : NumberingRange} (hnew : ∀ r ∈ db.numbering_ranges, r.id ≠ range.id)
    (htenants : db'.tenants = db.tenants)
    (hranges : db'.numbering_ranges = db.numbering_ranges ++ [range]) : db.Rooted db' := by
  refine ⟨htenants, fun r hr => ⟨r, hranges ▸ List.mem_append_left _ hr, .refl r⟩, fun h => ?_⟩
  rw [hranges, List.map_append, List.nodup_append]
  refine ⟨h, List.nodup_singleton _, ?_⟩
  intro a ha b hb
  obtain ⟨r, hr, rfl⟩ := List.mem_map.mp ha
  rw [List.mem_singleton.mp hb]
  exact hnew r hr

theorem commitIssue (r : Request) (tx : Tx) : db.Rooted (db.commitIssue r tx) := by
  refine ⟨rfl, fun q hq => ⟨_, List.mem_map_of_mem hq, same_setCounter _ _ q⟩, fun h => ?_⟩
  show ((db.numbering_ranges.map (setCounter tx.range.id tx.number)).map NumberingRange.id).Nodup
  rw [List.map_map]
  convert h using 2
  funext q
  exact (same_setCounter _ _ q).id

end Db.Rooted

section Step

variable {db db' : Db} {now : Time} {fresh : Nat → Uuid}

theorem Db.applyTransition_tables {t : Transition} {b : Bool}
    (h : db.applyTransition t now fresh = .ok (db', b)) : db.Rooted db' := by
  unfold Db.applyTransition at h
  split at h
  · cases h
    exact .of_eq rfl rfl
  · obtain ⟨db₁, hnotify, h⟩ := ok_of_bind h
    obtain ⟨db₂, hevent, h⟩ := ok_of_bind h
    obtain ⟨db₃, hjob, h⟩ := ok_of_bind h
    cases h
    rw [(Db.insertJob?_ok hjob).1, Db.insertEvent?_ok hevent, (Db.notify_ok hnotify).1]
    rcases t.job with _ | _ | _ <;> exact .of_eq rfl rfl

theorem committed_tables {result : Except DomainError Db} {r : Except DomainError Unit}
    (h : db.committed result = (db', r)) (hresult : ∀ db₁, result = .ok db₁ → db.Rooted db₁) :
    db.Rooted db' := by
  cases result with
  | error e =>
    cases h
    exact .of_eq rfl rfl
  | ok db₁ =>
    cases h
    exact hresult _ rfl

theorem respond_tables {c : Call} {r : Reply c} (h : db.respond now fresh c = some (db', r)) :
    db.Rooted db' := by
  cases c with
  | findDocument | findNumberingRange | complete | bury =>
    cases h
    exact .of_eq rfl rfl
  | storeArtifacts id cufe original_xml signed_xml =>
    refine committed_tables (Option.some.inj h) fun db₁ hok => ?_
    rw [Db.storeArtifacts_ok hok]
    exact .of_eq rfl rfl
  | recordEvent event =>
    refine committed_tables (Option.some.inj h) fun db₁ hok => ?_
    rw [Db.insertEvent_ok hok]
    exact .of_eq rfl rfl
  | retry id run_at error =>
    refine committed_tables (Option.some.inj h) fun db₁ hok => ?_
    rw [(Db.requeueJob_ok hok).1]
    exact .of_eq rfl rfl
  | release id run_at =>
    refine committed_tables (Option.some.inj h) fun db₁ hok => ?_
    rw [(Db.requeueJob_ok hok).1]
    exact .of_eq rfl rfl
  | applyTransition t =>
    simp only [Db.respond] at h
    split at h <;> cases h
    · exact Db.applyTransition_tables ‹_›
    · exact .of_eq rfl rfl
  | _ => cases h

theorem World.apply_tables (w : World) (db : Db) (now : Time) (c : Call) :
    db.Rooted (w.apply db now c).1 := by
  unfold World.apply
  split
  · exact .of_eq rfl rfl
  · rename_i db' r hrespond
    cases w.fault with
    | failed message => exact .of_eq rfl rfl
    | none | lost message => exact respond_tables hrespond

theorem issueAlone_tables (r : Request) (times : List Time) (db : Db) :
    db.Rooted (db.issueOutbound r times) := by
  obtain h | ⟨tx, h, -⟩ := issueAlone_cases times (show FoundFree db r .lookup from .of_none rfl)
  · rw [Db.issueOutbound, h]
    exact .of_eq rfl rfl
  · rw [Db.issueOutbound, h]
    exact .commitIssue r tx

theorem DeliveryWorld.record_tables (w : DeliveryWorld) (db : Db) (delivery : WebhookDelivery) :
    db.Rooted (w.record db delivery) := by
  unfold DeliveryWorld.record Db.recordDelivery
  cases w.fault with
  | failed message => exact .of_eq rfl rfl
  | none | lost message =>
    dsimp only
    split <;> exact .of_eq rfl rfl

theorem systemStep_tables {ubl : UblEngine} {config : ProcessorConfig} {s s' : System}
    {a : SystemAction} (h : systemStep ubl config s a = some s') : s.db.Rooted s'.db := by
  cases a with
  | tick d =>
    cases h
    exact .of_eq rfl rfl
  | createWebhook webhook =>
    simp only [systemStep] at h
    split at h <;> cases h
    · exact .of_eq rfl rfl
    · rename_i db hok
      rw [(Db.createWebhook_ok hok).1]
      exact .of_eq rfl rfl
  | registerRange id tenant_id request =>
    simp only [systemStep] at h
    split at h <;> cases h
    · exact .of_eq rfl rfl
    · obtain ⟨hdb, hnew, -⟩ := Db.addNumberingRange_ok (Db.registerNumberingRange_ok ‹_›).2
      rw [hdb]
      exact .addRange hnew rfl rfl
  | issueOutbound r times =>
    cases h
    exact issueAlone_tables r times s.db
  | buryExpired | claim | claimDeliveries =>
    cases h
    exact .of_eq rfl rfl
  | work i w =>
    simp only [systemStep] at h
    split at h
    · cases h
    · split at h <;> cases h
      exact w.apply_tables s.db s.now _
  | crash i | crashDelivery i =>
    simp only [systemStep] at h
    split at h <;> cases h
    exact .of_eq rfl rfl
  | requeueContingency limit fresh skipped =>
    simp only [systemStep] at h
    split at h <;> cases h
    · exact .of_eq rfl rfl
    · rename_i db n hok
      rw [Db.requeueContingency_frame hok]
      exact .of_eq rfl rfl
  | retryDeadJob job_id audit =>
    simp only [systemStep] at h
    split at h <;> cases h
    · exact .of_eq rfl rfl
    · rename_i db retried hok
      rw [Db.retryDeadJob_frame hok]
      exact .of_eq rfl rfl
  | deliver i w =>
    simp only [systemStep] at h
    split at h <;> cases h
    exact w.record_tables s.db _
  | retryDeadDelivery delivery_id audit =>
    cases h
    unfold Db.retryDeadDelivery
    split <;> exact .of_eq rfl rfl

end Step

end DianService
