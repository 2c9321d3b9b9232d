import DianService.Store.Consistency
import DianService.Store.Issue

/-
  Store: the statuses that the statements give to documents. Status is written in three places:
  `apply_transition`, `requeue_contingency` and `retry_dead_job`, the last two with SQL of their
  own; all of them only go where the state machine goes.
-/

namespace DianService

open Lib

/-- Every document has the status it had, or one that may follow it; a new one is `Pending`. -/
def Db.Moves (db db' : Db) : Prop :=
  ∀ d' ∈ db'.documents,
    (∃ d ∈ db.documents, d.id = d'.id ∧
      (d'.status = d.status ∨ d.status.canTransitionTo d'.status = true)) ∨
    (d'.status = .pending ∧ ∀ d ∈ db.documents, d.id ≠ d'.id)

theorem DocumentStatus.canTransitionTo_iff {s t : DocumentStatus} :
    s.canTransitionTo t = true ↔ s ∈ t.allowedPredecessors := by
  simp [canTransitionTo]

section Moves

variable {db db' : Db}

theorem Db.Moves.of_eq (h : db'.documents = db.documents) : db.Moves db' := by
  intro d hd
  rw [h] at hd
  exact .inl ⟨d, hd, rfl, .inl rfl⟩

/-- An update of documents that moves some of them. -/
theorem Db.Moves.of_map {f : Document → Document} (h : db'.documents = db.documents.map f)
    (hf : ∀ d ∈ db.documents, (f d).id = d.id ∧
      ((f d).status = d.status ∨ d.status.canTransitionTo (f d).status = true)) : db.Moves db' := by
  intro d' hd'
  rw [h] at hd'
  obtain ⟨d, hd, rfl⟩ := List.mem_map.mp hd'
  exact .inl ⟨d, hd, (hf d hd).1.symm, (hf d hd).2⟩

theorem Db.Moves.signed {id : Uuid} {cufe original_xml signed_xml : String} :
    db.Moves (db.updateDocument id (Document.signed cufe original_xml signed_xml)) := by
  refine .of_map rfl fun d _ => ?_
  split <;> exact ⟨rfl, .inl rfl⟩

theorem Db.Applied.moves {t : Transition} {d : Document} (h : db.Applied t d db')
    (hids : (db.documents.map Document.id).Nodup) : db.Moves db' := by
  refine .of_map h.documents fun e he => ?_
  by_cases hid : e.id = d.id
  · rw [if_pos hid, eq_of_key_eq hids he (Db.document?_mem h.found).1 hid]
    exact ⟨rfl, .inr (DocumentStatus.canTransitionTo_iff.mpr h.allowed)⟩
  · rw [if_neg hid]
    exact ⟨rfl, .inl rfl⟩

/-- The document of a transition that is applied has its target. -/
theorem Db.Applied.status {t : Transition} {d : Document} (h : db.Applied t d db') :
    ∀ d' ∈ db'.documents, d'.id = t.document_id → d'.status = t.target := by
  intro d' hd' hid
  rw [h.documents] at hd'
  obtain ⟨e, he, rfl⟩ := List.mem_map.mp hd'
  by_cases heid : e.id = d.id
  · rw [if_pos heid]
    rfl
  · rw [if_neg heid] at hid
    exact absurd (hid.trans (Db.document?_mem h.found).2.symm) heid

/-- A document row just inserted has an id no committed document has. -/
theorem fresh_of_not_taken {document : NewOutboundDocument} {number : Int}
    (h : db.documentTaken document number = false) : ∀ d ∈ db.documents, d.id ≠ document.id := by
  simp only [Db.documentTaken, List.any_eq_false, decide_eq_true_eq, not_or] at h
  exact fun d hd => (h d hd).1

theorem Db.commitIssue_moves {r : Request} {tx : Tx}
    (hfresh : ∀ d ∈ db.documents, d.id ≠ r.document.id) : db.Moves (db.commitIssue r tx) := by
  intro d' hd'
  rcases List.mem_append.mp hd' with hd' | hd'
  · exact .inl ⟨d', hd', rfl, .inl rfl⟩
  · rw [List.mem_singleton.mp hd']
    exact .inr ⟨rfl, hfresh⟩

theorem Db.requeueContingency_moves {limit n : Nat} {max_attempts : Int} {now : Time}
    {fresh : Nat → Uuid} {skipped : List Uuid}
    (h : db.requeueContingency limit max_attempts now fresh skipped = .ok (db', n))
    (hids : (db.documents.map Document.id).Nodup) : db.Moves db' := by
  refine .of_map (Db.requeueContingency_ok h).1 fun d hd => ?_
  split
  · rename_i hpicked
    obtain ⟨e, he, hid⟩ := List.mem_map.mp hpicked
    obtain ⟨hemem, hstatus, -⟩ := Db.mem_of_mem_contingencyCandidates he
    rw [eq_of_key_eq hids hemem hd hid] at hstatus
    refine ⟨rfl, .inr ?_⟩
    rw [hstatus]
    rfl
  · exact ⟨rfl, .inl rfl⟩

theorem Db.retryDeadJob_moves {job_id : Uuid} {audit : AuditEntry} {now : Time} {b : Bool}
    (h : db.retryDeadJob job_id audit now = .ok (db', b))
    (hids : (db.documents.map Document.id).Nodup) : db.Moves db' := by
  obtain rfl | ⟨j, d, -, -, -, hd, -, -, -, -, -, hdocuments⟩ := Db.retryDeadJob_ok h
  · exact .of_eq rfl
  · split at hdocuments
    · rename_i hcontingency
      refine .of_map hdocuments fun e he => ?_
      by_cases hid : e.id = d.id
      · rw [if_pos hid, eq_of_key_eq hids he hd hid]
        refine ⟨rfl, .inr ?_⟩
        rw [hcontingency.2]
        rfl
      · rw [if_neg hid]
        exact ⟨rfl, .inl rfl⟩
    · exact .of_eq hdocuments

end Moves

end DianService
