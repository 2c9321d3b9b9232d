import Mathlib.Data.List.Perm.Basic
import DianService.Store.Issue

/-
  Issue: what one statement of a request can do. `Advance` lists the cases of `advance` once,
  with everything each of them tests, and the invariants below are case analyses over it.
-/

namespace DianService

open Lib

/-- `Advance db others r now f p db' p'`: the next statement of `r`, or the failure `f` of its
    call to the database, takes it from `p` to `p'` and the committed rows from `db` to `db'`. -/
inductive Advance (db : Db) (others : List (Request × Phase)) (r : Request) (now : Time) :
    Option String → Phase → Db → Phase → Prop where
  | started
      (hfree : ∀ key, r.document.idempotency = some key →
        db.idempotency? r.document.tenant_id key.key = none) :
      Advance db others r now none .lookup db .beginTx
  | answered {p : Phase} {key : IdempotencyKey} {row : IdempotencyRow}
      (hp : p = .lookup ∨ p = .rolledBack) (hkey : r.document.idempotency = some key)
      (hrow : db.idempotency? r.document.tenant_id key.key = some row) :
      Advance db others r now none p db (.done (replay row.request_hash row.issued key))
  | selected {range : NumberingRange} (h : db.selectRange r.document now = some range) :
      Advance db others r now none .beginTx db (.waiting now range.id)
  | unserved (h : db.selectRange r.document now = none) :
      Advance db others r now none .beginTx db (.done (.error (noRange r.document)))
  | unservedRow {tx_now : Time} {range_id : Uuid}
      (h : (db.range? range_id).filter (fun range => range.serves r.document tx_now) = none) :
      Advance db others r now none (.waiting tx_now range_id) db (.done (.error (noRange r.document)))
  | locked {tx_now : Time} {range_id : Uuid} {range : NumberingRange}
      (hfree : ∀ x ∈ others, holdsRange range_id x = false)
      (hrow : db.range? range_id = some range) (hserves : range.serves r.document tx_now = true) :
      Advance db others r now none (.waiting tx_now range_id) db (.locked tx_now range)
  | refused {tx_now : Time} {range : NumberingRange} {e : DomainError}
      (h : nextNumber range r.document.requested_number now = .error e) :
      Advance db others r now none (.locked tx_now range) db (.done (.error e))
  | counterRefused {tx_now : Time} {range : NumberingRange} {number : Int}
      (h : nextNumber range r.document.requested_number now = .ok number) (hneg : number < 0) :
      Advance db others r now none (.locked tx_now range) db (.done (.error counterRefused))
  | numbered {tx_now : Time} {range : NumberingRange} {number : Int}
      (h : nextNumber range r.document.requested_number now = .ok number) (hnonneg : 0 ≤ number) :
      Advance db others r now none (.locked tx_now range) db (.numbered ⟨tx_now, range, number⟩)
  | documentExists {tx : Tx} (h : db.documentTaken r.document tx.number = true) :
      Advance db others r now none (.numbered tx) db
        (.done (.error (documentExists r.document tx.number)))
  | documentInserted {tx : Tx} (hfree : ∀ x ∈ others, holdsDocument r.document tx.number x = false)
      (h : db.documentTaken r.document tx.number = false) :
      Advance db others r now none (.numbered tx) db (.documentInserted tx)
  | jobRefused {tx : Tx} {e : DomainError} (h : db.insertJob r.initialJob = .error e) :
      Advance db others r now none (.documentInserted tx) db (.done (.error e))
  | jobInserted {tx : Tx} {db' : Db} (hfree : ∀ x ∈ others, holdsJob r.job_id x = false)
      (h : db.insertJob r.initialJob = .ok db') :
      Advance db others r now none (.documentInserted tx) db (.jobInserted tx)
  | committed {p : Phase} {tx : Tx}
      (hp : p = .jobInserted tx ∧ r.document.idempotency = none ∨ p = .keyInserted tx) :
      Advance db others r now none p (db.commitIssue r tx) (.done (.ok (.created (r.issued tx))))
  | keyTaken {tx : Tx} {key : IdempotencyKey} {row : IdempotencyRow}
      (hkey : r.document.idempotency = some key)
      (hrow : db.idempotency? r.document.tenant_id key.key = some row) :
      Advance db others r now none (.jobInserted tx) db .rolledBack
  | keyInserted {tx : Tx} {key : IdempotencyKey} (hkey : r.document.idempotency = some key)
      (hfree : ∀ x ∈ others, holdsKey r.document.tenant_id key.key x = false)
      (hnone : db.idempotency? r.document.tenant_id key.key = none) :
      Advance db others r now none (.jobInserted tx) db (.keyInserted tx)
  | vanished {key : IdempotencyKey} (hkey : r.document.idempotency = some key)
      (hnone : db.idempotency? r.document.tenant_id key.key = none) :
      Advance db others r now none .rolledBack db (.done (.error keyVanished))
  | failed {p : Phase} (message : String) (hp : p.isDone = false) :
      Advance db others r now (some message) p db (.done (.error (.database message)))

theorem replayOr_eq (db : Db) (r : Request) (key : IdempotencyKey) (otherwise : Phase) :
    db.replayOr r key otherwise =
      match db.idempotency? r.document.tenant_id key.key with
      | none => otherwise
      | some row => .done (replay row.request_hash row.issued key) := by
  unfold Db.replayOr Db.findIdempotency
  cases db.idempotency? r.document.tenant_id key.key with
  | none => rfl
  | some row => cases h : replay row.request_hash row.issued key <;> simp [h, Except.map]

theorem advance_inv {db db' : Db} {others : List (Request × Phase)} {r : Request} {now : Time}
    {p p' : Phase} (h : advance db others r now p = some (db', p')) :
    Advance db others r now none p db' p' := by
  cases p with
  | lookup =>
      simp only [advance] at h
      split at h
      · rename_i hkey
        cases h
        exact .started (by simp [hkey])
      · rename_i key hkey
        rw [replayOr_eq] at h
        cases hrow : db.idempotency? r.document.tenant_id key.key with
        | none =>
            simp only [hrow, Option.some.injEq, Prod.mk.injEq] at h
            obtain ⟨rfl, rfl⟩ := h
            refine .started fun key' hkey' => ?_
            rw [hkey] at hkey'
            cases hkey'
            exact hrow
        | some row =>
            simp only [hrow, Option.some.injEq, Prod.mk.injEq] at h
            obtain ⟨rfl, rfl⟩ := h
            exact .answered (.inl rfl) hkey hrow
  | beginTx =>
      simp only [advance] at h
      split at h <;> cases h
      · exact .unserved ‹_›
      · exact .selected ‹_›
  | waiting tx_now range_id =>
      simp only [advance] at h
      split at h
      · cases h
      · rename_i hfree
        split at h <;> cases h
        · exact .unservedRow ‹_›
        · rename_i range hrange
          simp only [Option.filter_eq_some_iff] at hrange
          exact .locked (by simpa using hfree) hrange.1 hrange.2
  | locked tx_now range =>
      simp only [advance] at h
      split at h
      · cases h
        exact .refused ‹_›
      · split at h <;> cases h
        · exact .counterRefused ‹_› ‹_›
        · exact .numbered ‹_› (by omega)
  | numbered tx =>
      simp only [advance] at h
      split at h
      · cases h
      · rename_i hfree
        split at h <;> cases h
        · exact .documentExists ‹_›
        · rename_i htaken
          exact .documentInserted (by simpa using hfree) (by simpa using htaken)
  | documentInserted tx =>
      simp only [advance] at h
      split at h
      · cases h
      · rename_i hfree
        split at h <;> cases h
        · exact .jobRefused ‹_›
        · exact .jobInserted (by simpa using hfree) ‹_›
  | jobInserted tx =>
      simp only [advance] at h
      split at h
      · cases h
        exact .committed (.inl ⟨rfl, ‹_›⟩)
      · rename_i key hkey
        split at h
        · cases h
        · rename_i hfree
          split at h <;> cases h
          · obtain ⟨row, hrow⟩ := Option.isSome_iff_exists.mp ‹_›
            exact .keyTaken hkey hrow
          · rename_i hnone
            exact .keyInserted hkey (by simpa using hfree) (by simpa using hnone)
  | keyInserted tx =>
      cases h
      exact .committed (.inr rfl)
  | rolledBack =>
      simp only [advance] at h
      split at h
      · cases h
      · rename_i key hkey
        rw [replayOr_eq] at h
        cases hrow : db.idempotency? r.document.tenant_id key.key with
        | none =>
            simp only [hrow, Option.some.injEq, Prod.mk.injEq] at h
            obtain ⟨rfl, rfl⟩ := h
            exact .vanished hkey hrow
        | some row =>
            simp only [hrow, Option.some.injEq, Prod.mk.injEq] at h
            obtain ⟨rfl, rfl⟩ := h
            exact .answered (.inr rfl) hkey hrow
  | done result => cases h

/-! ## What a statement leaves in the hands of its request -/

namespace Advance

variable {db db' : Db} {others : List (Request × Phase)} {r : Request} {now : Time}
  {f : Option String} {p p' : Phase}

/-- A request that has its answer runs no more statements. -/
theorem not_done (h : Advance db others r now f p db' p') : p.isDone = false := by
  cases h with
  | answered hp => rcases hp with rfl | rfl <;> rfl
  | committed hp => rcases hp with ⟨rfl, -⟩ | rfl <;> rfl
  | failed _ hp => exact hp
  | _ => rfl

/-- Only a commit changes the committed rows, and it is the step that answers `Created`. -/
theorem db_eq_or_commit (h : Advance db others r now f p db' p') :
    db' = db ∨ ∃ tx, p.documentTx? = some tx ∧ p.hasJob = true ∧
      (∀ key, r.document.idempotency = some key → p.hasKey = true) ∧
      db' = db.commitIssue r tx ∧ p' = .done (.ok (.created (r.issued tx))) := by
  cases h with
  | committed hp =>
      right
      rcases hp with ⟨rfl, hkey⟩ | rfl
      · exact ⟨_, rfl, rfl, by simp [hkey], rfl, rfl⟩
      · exact ⟨_, rfl, rfl, fun _ _ => rfl, rfl, rfl⟩
  | _ => exact .inl rfl

/-- A range row is locked only when nobody else holds it, and read then. -/
theorem range_cases (h : Advance db others r now f p db' p') {range : NumberingRange}
    (hr : p'.range? = some range) :
    p.range? = some range ∨
      (∀ x ∈ others, holdsRange range.id x = false) ∧ range ∈ db.numbering_ranges := by
  cases h with
  | locked hfree hrow hserves =>
      cases hr
      obtain ⟨hmem, rfl⟩ := Db.range?_mem hrow
      exact .inr ⟨hfree, hmem⟩
  | _ => first | exact .inl hr | (simp [Phase.range?] at hr)

/-- A number is given out by `next_number` on the locked row. -/
theorem tx_cases (h : Advance db others r now f p db' p') {tx : Tx} (ht : p'.tx? = some tx) :
    p.tx? = some tx ∨ p.range? = some tx.range ∧
      tx.number = tx.range.next ∧ tx.number ≤ tx.range.to_number ∧ 0 ≤ tx.number := by
  cases h with
  | numbered hn hnonneg =>
      cases ht
      exact .inr ⟨rfl, (nextNumber_ok hn).1, (nextNumber_ok hn).2.1, hnonneg⟩
  | _ => first | exact .inl ht | (simp [Phase.tx?] at ht)

/-- A document row is inserted only when neither a committed row nor one in course has its
    keys. -/
theorem documentTx_cases (h : Advance db others r now f p db' p') {tx : Tx}
    (ht : p'.documentTx? = some tx) :
    p.documentTx? = some tx ∨ (∀ x ∈ others, holdsDocument r.document tx.number x = false) ∧
      db.documentTaken r.document tx.number = false := by
  cases h with
  | documentInserted hfree hnew =>
      cases ht
      exact .inr ⟨hfree, hnew⟩
  | _ => first | exact .inl ht | (simp [Phase.documentTx?] at ht)

/-- A key row is inserted only when neither a committed row nor one in course has it. -/
theorem hasKey_cases (h : Advance db others r now f p db' p') (hk : p'.hasKey = true) :
    p.hasKey = true ∨ ∃ key, r.document.idempotency = some key ∧
      (∀ x ∈ others, holdsKey r.document.tenant_id key.key x = false) ∧
      db.idempotency? r.document.tenant_id key.key = none := by
  cases h with
  | keyInserted hkey hfree hnone => exact .inr ⟨_, hkey, hfree, hnone⟩
  | _ => first | exact .inl hk | (simp [Phase.hasKey] at hk)

end Advance

/-! ## Steps of the whole machine -/

/-- The cases of a step. -/
inductive IssueStep (s s' : IssueState) : IssueAction → Prop where
  | registered {id tenant_id : Uuid} {request : RegisterNumberingRange} {range : NumberingRange}
      (h : s.db.registerNumberingRange id tenant_id request = .ok (s'.db, range))
      (hs' : s' = { s with db := s'.db, registered := s.registered ++ [range] }) :
      IssueStep s s' (.register id tenant_id request)
  | refused {id tenant_id : Uuid} {request : RegisterNumberingRange} (hs' : s' = s) :
      IssueStep s s' (.register id tenant_id request)
  | submitted {r : Request} (hs' : s' = { s with requests := s.requests ++ [(r, .lookup)] }) :
      IssueStep s s' (.submit r)
  | moved {a : IssueAction} {i : Nat} {now : Time} {f : Option String} {r : Request} {p p' : Phase}
      (ha : a = .advance i now ∧ f = none ∨ ∃ m, a = .fail i m ∧ f = some m)
      (hi : s.requests[i]? = some (r, p))
      (hadv : Advance s.db (s.requests.eraseIdx i) r now f p s'.db p')
      (hs' : s' = s.setPhase i s'.db r p') : IssueStep s s' a

theorem issueStep_inv {s s' : IssueState} {a : IssueAction} (h : issueStep s a = some s') :
    IssueStep s s' a := by
  cases a with
  | register id tenant_id request =>
      simp only [issueStep] at h
      split at h <;> cases h
      · exact .refused rfl
      · exact .registered ‹_› rfl
  | submit r =>
      cases h
      exact .submitted rfl
  | advance i now =>
      simp only [issueStep] at h
      split at h
      · cases h
      · rename_i r p hi
        split at h <;> cases h
        exact .moved (.inl ⟨rfl, rfl⟩) hi (advance_inv ‹_›) rfl
  | fail i message =>
      simp only [issueStep] at h
      split at h
      · cases h
      · rename_i r p hi
        split at h
        · cases h
        · rename_i hdone
          cases h
          have hfailed : Advance s.db (s.requests.eraseIdx i) r 0 (some message) p s.db
              (.done (.error (.database message))) := .failed message (by simpa using hdone)
          exact .moved (.inr ⟨message, rfl, rfl⟩) hi hfailed rfl

/-! ## Reading the requests after a step -/

section SetPhase

variable {s : IssueState} {i : Nat} {x : Request × Phase}

@[simp] theorem setPhase_db (db : Db) (r : Request) (p : Phase) :
    (s.setPhase i db r p).db = db := rfl

@[simp] theorem setPhase_registered (db : Db) (r : Request) (p : Phase) :
    (s.setPhase i db r p).registered = s.registered := rfl

theorem setPhase_get_self (hi : s.requests[i]? = some x) (db : Db) (r : Request) (p : Phase) :
    (s.setPhase i db r p).requests[i]? = some (r, p) := by
  have hlt : i < s.requests.length := (List.getElem?_eq_some_iff.mp hi).1
  simp [IssueState.setPhase, hlt]

theorem setPhase_get_ne {j : Nat} (hij : i ≠ j) (db : Db) (r : Request) (p : Phase) :
    (s.setPhase i db r p).requests[j]? = s.requests[j]? := by
  simp [IssueState.setPhase, List.getElem?_set_ne hij]

/-- Another request in course is among those a statement sees. -/
theorem mem_others {j : Nat} (hij : i ≠ j) (hj : s.requests[j]? = some x) :
    x ∈ s.requests.eraseIdx i := by
  obtain ⟨hlt, rfl⟩ := List.getElem?_eq_some_iff.mp hj
  exact List.mem_eraseIdx_iff_getElem.mpr ⟨j, hlt, hij.symm, rfl⟩

/-- The request about to move, and the others. -/
theorem requests_perm (hi : s.requests[i]? = some x) :
    s.requests.Perm (x :: s.requests.eraseIdx i) := by
  obtain ⟨hlt, rfl⟩ := List.getElem?_eq_some_iff.mp hi
  exact (List.getElem_cons_eraseIdx_perm hlt).symm

/-- The request that moved, and the others as they were. -/
theorem setPhase_perm (hi : s.requests[i]? = some x) (db : Db) (r : Request) (p : Phase) :
    (s.setPhase i db r p).requests.Perm ((r, p) :: s.requests.eraseIdx i) := by
  obtain ⟨hlt, -⟩ := List.getElem?_eq_some_iff.mp hi
  exact List.set_perm_cons_eraseIdx hlt _

/-- What all requests meet, they meet after a step if the one that moved does and the others
    keep it. -/
theorem forall_setPhase {I J : Request × Phase → Prop} (hi : s.requests[i]? = some x)
    (h : ∀ y ∈ s.requests, I y) {db : Db} {r : Request} {p : Phase} (hself : J (r, p))
    (hothers : ∀ y ∈ s.requests.eraseIdx i, I y → J y) :
    ∀ y ∈ (s.setPhase i db r p).requests, J y := by
  intro y hy
  rcases List.mem_cons.mp ((setPhase_perm hi db r p).mem_iff.mp hy) with rfl | hy
  · exact hself
  · exact hothers y hy (h y (List.mem_of_mem_eraseIdx hy))

/-- What holds between any two requests, holds after a step if it does between the one that
    moved and the others. -/
theorem pairwise_setPhase {R : Request × Phase → Request × Phase → Prop}
    (hsymm : ∀ {a b}, R a b → R b a) (hi : s.requests[i]? = some x) (h : s.requests.Pairwise R)
    {db : Db} {r : Request} {p : Phase}
    (hself : (∀ y ∈ s.requests.eraseIdx i, R x y) → ∀ y ∈ s.requests.eraseIdx i, R (r, p) y) :
    (s.setPhase i db r p).requests.Pairwise R := by
  rw [(requests_perm hi).pairwise_iff hsymm, List.pairwise_cons] at h
  rw [(setPhase_perm hi db r p).pairwise_iff hsymm, List.pairwise_cons]
  exact ⟨hself h.1, h.2⟩

/-- A request that has its answer stays as it is. -/
theorem done_kept {now : Time} {f : Option String} {r : Request} {p p' : Phase} {db' : Db}
    (hi : s.requests[i]? = some (r, p))
    (hadv : Advance s.db (s.requests.eraseIdx i) r now f p db' p') {y : Request × Phase}
    (hy : y ∈ s.requests) (hdone : y.2.isDone = true) :
    y ∈ (s.setPhase i db' r p').requests := by
  rcases List.mem_cons.mp ((requests_perm hi).mem_iff.mp hy) with rfl | hy
  · exact absurd hdone (by simp [hadv.not_done])
  · exact (setPhase_perm hi db' r p').mem_iff.mpr (List.mem_cons_of_mem _ hy)

/-- A request that gets its answer in a step is the one the step moves. -/
theorem ended_inv {s' : IssueState} {a : IssueAction} (h : issueStep s a = some s') {j : Nat}
    {r r' : Request} {p : Phase} {result : Except DomainError IssueOutcome}
    (hj : s.requests[j]? = some (r, p)) (hp : p.isDone = false)
    (hj' : s'.requests[j]? = some (r', .done result)) :
    ∃ now f, (a = .advance j now ∧ f = none ∨ ∃ m, a = .fail j m ∧ f = some m) ∧
      Advance s.db (s.requests.eraseIdx j) r now f p s'.db (.done result) := by
  have hkept : s'.requests[j]? ≠ some (r, p) := by
    rw [hj']
    intro e
    cases e
    cases hp
  cases issueStep_inv h with
  | registered hreg hs' => exact absurd (by rw [hs']; exact hj) hkept
  | refused hs' => exact absurd (by rw [hs']; exact hj) hkept
  | submitted hs' =>
      refine absurd ?_ hkept
      rw [hs']
      exact (List.getElem?_append_left (List.getElem?_eq_some_iff.mp hj).1).trans hj
  | @moved _ i now f q ph ph' ha hi hadv hs' =>
      by_cases hij : i = j
      · subst hij
        rw [hi] at hj
        cases hj
        rw [hs', setPhase_get_self hi] at hj'
        cases hj'
        exact ⟨now, f, ha, hadv⟩
      · refine absurd ?_ hkept
        rw [hs', setPhase_get_ne hij]
        exact hj

end SetPhase

end DianService
