import DianService.Issue.Alone

/-
  Issue: the range and the number of the document that a transaction alone commits. The range is a
  row that serves the document, and the number is the next one of that row.
-/

namespace DianService

structure Tx.Serves (db : Db) (r : Request) (tx : Tx) : Prop where
  range : tx.range ∈ db.numbering_ranges
  serves : tx.range.serves r.document tx.now = true
  number : tx.number = tx.range.next
  requested : ∀ n, r.document.requested_number = some n → n = tx.number

/-- What a transaction in phase `p` has found of its range. -/
structure FoundRange (db : Db) (r : Request) (p : Phase) : Prop where
  locked : ∀ now range, p = .locked now range → range ∈ db.numbering_ranges ∧
    range.serves r.document now = true
  tx : ∀ tx, p.tx? = some tx → tx.Serves db r

theorem FoundRange.of_none {db : Db} {r : Request} {p : Phase} (hp : p.range? = none) :
    FoundRange db r p := by
  refine ⟨?_, fun tx htx => ?_⟩
  · rintro now range rfl
    cases hp
  · cases p <;> cases htx <;> cases hp

theorem FoundRange.step {db db' : Db} {r : Request} {now : Time} {p p' : Phase}
    (hf : FoundRange db r p) (h : Advance db [] r now none p db' p') (hdb : db' = db) :
    FoundRange db' r p' := by
  rw [hdb]
  cases h with
  | locked _ hrow hserves =>
    refine ⟨?_, nofun⟩
    rintro _ _ ⟨⟩
    exact ⟨(Db.range?_mem hrow).1, hserves⟩
  | @numbered tx_now range number hnumber =>
    refine ⟨nofun, ?_⟩
    rintro tx ⟨⟩
    obtain ⟨hmem, hserves⟩ := hf.locked tx_now range rfl
    exact ⟨hmem, hserves, (nextNumber_ok hnumber).1, (nextNumber_ok hnumber).2.2.1⟩
  | documentInserted | jobInserted | keyInserted => exact ⟨nofun, hf.tx⟩
  | _ => exact .of_none rfl

/-- What a transaction alone leaves in the tables. -/
theorem issueAlone_serves {r : Request} {db : Db} {p : Phase} (times : List Time)
    (hf : FoundRange db r p) :
    issueAlone r times db p = db ∨ ∃ tx, issueAlone r times db p = db.commitIssue r tx ∧
      tx.Serves db r := by
  induction times generalizing p with
  | nil => exact .inl rfl
  | cons now times ih =>
    unfold issueAlone
    cases hstep : advance db [] r now p with
    | none => exact .inl rfl
    | some next =>
      obtain ⟨db', p'⟩ := next
      have hadv := advance_inv hstep
      rcases hadv.db_eq_or_commit with hdb | ⟨tx, htx, -, -, hdb, hp'⟩
      · have hf' := hf.step hadv hdb
        subst hdb
        exact ih hf'
      · have hend : issueAlone r times db' p' = db' := by
          subst hp'
          cases times <;> rfl
        have htx' : p.tx? = some tx := by
          cases p <;> cases htx <;> rfl
        refine .inr ⟨tx, ?_, hf.tx tx htx'⟩
        show issueAlone r times db' p' = _
        rw [hend, hdb]

theorem NumberingRange.next_inI32 (range : NumberingRange) : InI32 range.next := by
  have h := @Int.le_bmod (max range.current_counter (wrap32 (range.from_number - 1)) + 1) (2 ^ 32)
    (by decide)
  have h' := @Int.bmod_lt (max range.current_counter (wrap32 (range.from_number - 1)) + 1) (2 ^ 32)
    (by decide)
  unfold NumberingRange.next wrap32 InI32
  unfold wrap32 at h h'
  omega

/-- The number of the document is one that the column can hold. -/
theorem Tx.Serves.inI32 {db : Db} {r : Request} {tx : Tx} (h : tx.Serves db r) :
    InI32 tx.number := by
  rw [h.number]
  exact tx.range.next_inI32

/-- The range is of the tenant, and for the type and the prefix of the document. -/
theorem Tx.Serves.columns {db : Db} {r : Request} {tx : Tx} (h : tx.Serves db r) :
    tx.range.tenant_id = r.document.tenant_id ∧
      tx.range.document_type = r.document.document_type ∧ tx.range.pfx = r.document.pfx := by
  have hserves := h.serves
  simp only [NumberingRange.serves, decide_eq_true_eq] at hserves
  exact ⟨hserves.1, hserves.2.1, hserves.2.2.1⟩

theorem Db.issueOutbound_serves (db : Db) (r : Request) (times : List Time) :
    db.issueOutbound r times = db ∨ ∃ tx, db.issueOutbound r times = db.commitIssue r tx ∧
      tx.Serves db r :=
  issueAlone_serves times (.of_none rfl)

end DianService
