import DianService.Issue.Steps

/-
  Issue: one transaction of `issue_outbound` with no other request in course. It commits the
  document, its first job and the key of the request together, or leaves the tables as they are.
-/

namespace DianService

/-- The statements of `issue_outbound` with no other request in course, each at its own instant.
    If the instants run out before its commit, the connection was lost there. -/
def issueAlone (r : Request) : List Time → Db → Phase → Db
  | [], db, _ => db
  | now :: times, db, p =>
      match advance db [] r now p with
      | none => db
      | some (db', p') => issueAlone r times db' p'

def Db.issueOutbound (db : Db) (r : Request) (times : List Time) : Db :=
  issueAlone r times db .lookup

/-- The unique keys that a transaction in phase `p` has found free. -/
structure FoundFree (db : Db) (r : Request) (p : Phase) : Prop where
  document : ∀ tx, p.documentTx? = some tx → db.documentTaken r.document tx.number = false
  job : p.hasJob = true → ∃ db', db.insertJob r.initialJob = .ok db'

theorem FoundFree.of_none {db : Db} {r : Request} {p : Phase} (hp : p.documentTx? = none) :
    FoundFree db r p := by
  refine ⟨by simp [hp], fun h => ?_⟩
  cases p <;> simp_all [Phase.documentTx?, Phase.hasJob]

theorem FoundFree.step {db db' : Db} {r : Request} {now : Time} {p p' : Phase}
    (hf : FoundFree db r p) (h : Advance db [] r now none p db' p') : FoundFree db r p' := by
  cases h with
  | documentInserted _ hfree =>
      refine ⟨?_, by simp [Phase.hasJob]⟩
      rintro tx ⟨⟩
      exact hfree
  | jobInserted _ hjob => exact ⟨hf.document, fun _ => ⟨_, hjob⟩⟩
  | keyInserted => exact ⟨hf.document, fun _ => hf.job rfl⟩
  | _ => exact .of_none rfl

theorem issueAlone_cases {r : Request} {db : Db} {p : Phase} (times : List Time)
    (hf : FoundFree db r p) :
    issueAlone r times db p = db ∨ ∃ tx, issueAlone r times db p = db.commitIssue r tx ∧
      db.documentTaken r.document tx.number = false ∧
      ∃ db', db.insertJob r.initialJob = .ok db' := by
  induction times generalizing p with
  | nil => exact .inl rfl
  | cons now times ih =>
      unfold issueAlone
      cases hstep : advance db [] r now p with
      | none => exact .inl rfl
      | some next =>
          obtain ⟨db', p'⟩ := next
          have hadv := advance_inv hstep
          rcases hadv.db_eq_or_commit with hdb | ⟨tx, htx, hjob, -, hdb, hp'⟩
          · subst hdb
            exact ih (hf.step hadv)
          · have hend : issueAlone r times db' p' = db' := by
              subst hp'
              cases times <;> rfl
            refine .inr ⟨tx, ?_, hf.document tx htx, hf.job hjob⟩
            show issueAlone r times db' p' = _
            rw [hend, hdb]

end DianService
