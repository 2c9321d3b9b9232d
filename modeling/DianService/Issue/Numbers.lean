import DianService.Lib.Rows
import DianService.Issue.Steps
import DianService.Store.Lifecycle

/-
  Issue: the fiscal numbering. Over any run of requests the numbers given out on one range are
  consecutive, lie in the range, and the stored counter is the last one; every document has its
  transmit job; a request that does not answer `Created` changes no row.

  The invariant that carries it: a request that locked a range holds its current row, nobody
  else holds it (`InFlight`), and the committed rows are those of the registered ranges with the
  counter moved to the last number (`Numbered`).
-/

namespace DianService

open Lib

/-! ## The numbers of a range -/

/-- The numbers given out on a range, in commit order. -/
def numbersOn (db : Db) (range_id : Uuid) : List Int :=
  (db.documents.filter fun d => d.numbering_range_id = some range_id).map (·.document_number)

/-- `first, first + 1, ...`, `n` of them. -/
def consecutive (first : Int) (n : Nat) : List Int := (List.range n).map fun k : Nat => first + k

/-- The first number a range gives out. -/
def NumberingRange.firstNumber (r : NumberingRange) : Int :=
  max r.current_counter (r.from_number - 1) + 1

/-- The row of a range once the numbers `ns` were given out on it. -/
def NumberingRange.after (r : NumberingRange) (ns : List Int) : NumberingRange :=
  { r with current_counter := ns.getLast?.getD r.current_counter }

@[simp] theorem NumberingRange.after_id (r : NumberingRange) (ns : List Int) :
    (r.after ns).id = r.id := rfl

@[simp] theorem NumberingRange.after_nil (r : NumberingRange) : r.after [] = r := rfl

theorem NumberingRange.after_concat (r : NumberingRange) (ns : List Int) (n : Int) :
    r.after (ns ++ [n]) = { r with current_counter := n } := by
  simp [NumberingRange.after]

@[simp] theorem consecutive_zero (first : Int) : consecutive first 0 = [] := rfl

theorem consecutive_succ (first : Int) (n : Nat) :
    consecutive first (n + 1) = consecutive first n ++ [first + n] := by
  simp [consecutive, List.range_succ]

@[simp] theorem length_consecutive (first : Int) (n : Nat) : (consecutive first n).length = n := by
  simp [consecutive]

theorem mem_consecutive {first m : Int} {n : Nat} (h : m ∈ consecutive first n) :
    first ≤ m ∧ m < first + n := by
  simp only [consecutive, List.mem_map, List.mem_range] at h
  obtain ⟨k, hk, rfl⟩ := h
  omega

/-- The next number of a range that gave out `n` consecutive ones. -/
theorem next_after_consecutive {r : NumberingRange} (hr : r.Registered) {n : Nat}
    (hto : ∀ m ∈ consecutive r.firstNumber n, m ≤ r.to_number)
    (hnonneg : 0 ≤ (r.after (consecutive r.firstNumber n)).next) :
    (r.after (consecutive r.firstNumber n)).next = r.firstNumber + n := by
  obtain ⟨hfrom, hfromto, hc0, hcto, hlt⟩ := hr
  cases n with
  | zero =>
      rw [consecutive_zero, NumberingRange.after_nil] at hnonneg ⊢
      rw [NumberingRange.next_of_nonneg hfrom (by omega) (by omega) (by omega) hnonneg]
      simp [NumberingRange.firstNumber]
  | succ k =>
      have hlast : r.firstNumber + k ≤ r.to_number :=
        hto _ (by simp [consecutive_succ])
      have hfirst : r.from_number ≤ r.firstNumber := by
        unfold NumberingRange.firstNumber
        omega
      have hafter : r.after (consecutive r.firstNumber (k + 1)) =
          { r with current_counter := r.firstNumber + k } := by
        rw [consecutive_succ, NumberingRange.after_concat]
      rw [hafter] at hnonneg ⊢
      rw [NumberingRange.next_of_nonneg (by simpa using hfrom) (by simp only; omega)
        (by simp only; omega) (by simp only; omega) hnonneg]
      simp only
      omega

/-! ## What the requests in course hold -/

def RangesApart (x y : Request × Phase) : Prop :=
  ∀ a b, x.2.range? = some a → y.2.range? = some b → a.id ≠ b.id

def DocumentsApart (x y : Request × Phase) : Prop :=
  ∀ a b, x.2.documentTx? = some a → y.2.documentTx? = some b → x.1.document.id ≠ y.1.document.id

theorem RangesApart.symm {x y : Request × Phase} (h : RangesApart x y) : RangesApart y x :=
  fun a b ha hb => (h b a hb ha).symm

theorem DocumentsApart.symm {x y : Request × Phase} (h : DocumentsApart x y) :
    DocumentsApart y x :=
  fun a b ha hb => (h b a hb ha).symm

theorem holdsRange_eq_false {id : Uuid} {x : Request × Phase} (h : holdsRange id x = false)
    {range : NumberingRange} (hr : x.2.range? = some range) : range.id ≠ id := by
  simpa [holdsRange, hr] using h

theorem holdsDocument_eq_false {document : NewOutboundDocument} {number : Int}
    {x : Request × Phase} (h : holdsDocument document number x = false) {tx : Tx}
    (ht : x.2.documentTx? = some tx) : x.1.document.id ≠ document.id := by
  simp only [holdsDocument, ht, decide_eq_false_iff_not, not_or] at h
  exact h.1

theorem Phase.tx?_of_documentTx? {p : Phase} {tx : Tx} (h : p.documentTx? = some tx) :
    p.tx? = some tx := by
  cases p <;> first | exact h | cases h

theorem Phase.range?_of_tx? {p : Phase} {tx : Tx} (h : p.tx? = some tx) :
    p.range? = some tx.range := by
  cases p <;> cases h <;> rfl

structure InFlight (s : IssueState) : Prop where
  held : ∀ x ∈ s.requests, ∀ range, x.2.range? = some range → range ∈ s.db.numbering_ranges
  ranges_apart : s.requests.Pairwise RangesApart
  number : ∀ x ∈ s.requests, ∀ tx, x.2.tx? = some tx →
    tx.number = tx.range.next ∧ tx.number ≤ tx.range.to_number ∧ 0 ≤ tx.number
  fresh : ∀ x ∈ s.requests, ∀ tx, x.2.documentTx? = some tx →
    ∀ d ∈ s.db.documents, d.id ≠ x.1.document.id
  documents_apart : s.requests.Pairwise DocumentsApart

theorem setCounter_of_ne {id : Uuid} {number : Int} {r : NumberingRange} (h : r.id ≠ id) :
    setCounter id number r = r := by
  simp [setCounter, h]

/-- The rows others hold survive a step: a commit changes only the row its request holds. -/
theorem held_kept {s : IssueState} {i : Nat} {now : Time} {f : Option String}
    {r : Request} {p p' : Phase} {db' : Db}
    (hI : InFlight s) (hi : s.requests[i]? = some (r, p))
    (hadv : Advance s.db (s.requests.eraseIdx i) r now f p db' p') {y : Request × Phase}
    (hy : y ∈ s.requests.eraseIdx i) {range : NumberingRange} (hr : y.2.range? = some range) :
    range ∈ db'.numbering_ranges := by
  have hmem := hI.held y (List.mem_of_mem_eraseIdx hy) range hr
  rcases hadv.db_eq_or_commit with rfl | ⟨tx, htx, -, -, rfl, -⟩
  · exact hmem
  · have happart := ((requests_perm hi).pairwise_iff RangesApart.symm).mp hI.ranges_apart
    have hne : tx.range.id ≠ range.id :=
      (List.pairwise_cons.mp happart).1 y hy _ _
        (Phase.range?_of_tx? (Phase.tx?_of_documentTx? htx)) hr
    exact List.mem_map.mpr ⟨range, hmem, setCounter_of_ne hne.symm⟩

theorem fresh_kept {s : IssueState} {i : Nat} {now : Time} {f : Option String}
    {r : Request} {p p' : Phase} {db' : Db}
    (hI : InFlight s) (hi : s.requests[i]? = some (r, p))
    (hadv : Advance s.db (s.requests.eraseIdx i) r now f p db' p') {y : Request × Phase}
    (hy : y ∈ s.requests.eraseIdx i) {b : Tx} (hb : y.2.documentTx? = some b) :
    ∀ d ∈ db'.documents, d.id ≠ y.1.document.id := by
  have hfresh := hI.fresh y (List.mem_of_mem_eraseIdx hy) b hb
  rcases hadv.db_eq_or_commit with rfl | ⟨tx, htx, -, -, rfl, -⟩
  · exact hfresh
  · have happart := ((requests_perm hi).pairwise_iff DocumentsApart.symm).mp hI.documents_apart
    have hne : r.document.id ≠ y.1.document.id :=
      (List.pairwise_cons.mp happart).1 y hy _ _ htx hb
    intro d hd
    rcases List.mem_append.mp hd with hd | hd
    · exact hfresh d hd
    · rw [List.mem_singleton.mp hd]
      exact hne

theorem inFlight_step {s s' : IssueState} {a : IssueAction} (hI : InFlight s)
    (h : issueStep s a = some s') : InFlight s' := by
  cases issueStep_inv h with
  | registered hreg hs' =>
      obtain ⟨-, hadd⟩ := Db.registerNumberingRange_ok hreg
      obtain ⟨hdb, -, -⟩ := Db.addNumberingRange_ok hadd
      rw [hs', hdb]
      exact { hI with held := fun x hx range hr =>
                        List.mem_append_left _ (hI.held x hx range hr) }
  | refused hs' => exact hs' ▸ hI
  | submitted hs' =>
      subst hs'
      refine ⟨?_, ?_, ?_, ?_, ?_⟩
      · simpa [or_imp, forall_and, Phase.range?] using hI.held
      · simpa [List.pairwise_append, RangesApart, Phase.range?] using hI.ranges_apart
      · simpa [or_imp, forall_and, Phase.tx?] using hI.number
      · simpa [or_imp, forall_and, Phase.documentTx?] using hI.fresh
      · simpa [List.pairwise_append, DocumentsApart, Phase.documentTx?] using hI.documents_apart
  | @moved _ i now f r p p' ha hi hadv hs' =>
      have hx := List.mem_of_getElem? hi
      rw [hs']
      refine ⟨?_, ?_, ?_, ?_, ?_⟩
      · refine forall_setPhase hi hI.held (fun range hr => ?_)
          fun y hy _ range hr => held_kept hI hi hadv hy hr
        rcases hadv.db_eq_or_commit with hdb | ⟨_, _, _, _, _, rfl⟩
        · rw [hdb]
          rcases hadv.range_cases hr with hp | ⟨-, hmem⟩
          · exact hI.held _ hx range hp
          · exact hmem
        · cases hr
      · refine pairwise_setPhase RangesApart.symm hi hI.ranges_apart fun hpairs y hy a b ha hb => ?_
        rcases hadv.range_cases ha with hp | ⟨hfree, -⟩
        · exact hpairs y hy a b hp hb
        · exact (holdsRange_eq_false (hfree y hy) hb).symm
      · refine forall_setPhase hi hI.number (fun tx ht => ?_) fun y _ hy => hy
        rcases hadv.tx_cases ht with hp | ⟨-, hn⟩
        · exact hI.number _ hx tx hp
        · exact hn
      · refine forall_setPhase hi hI.fresh (fun tx ht => ?_)
          fun y hy _ tx ht => fresh_kept hI hi hadv hy ht
        rcases hadv.db_eq_or_commit with hdb | ⟨_, _, _, _, _, rfl⟩
        · rw [hdb]
          rcases hadv.documentTx_cases ht with hp | ⟨-, hnew⟩
          · exact hI.fresh (r, p) hx tx hp
          · exact fresh_of_not_taken hnew
        · cases ht
      · refine pairwise_setPhase DocumentsApart.symm hi hI.documents_apart
          fun hpairs y hy a b ha hb => ?_
        rcases hadv.documentTx_cases ha with hp | ⟨hfree, -⟩
        · exact hpairs y hy a b hp hb
        · exact (holdsDocument_eq_false (hfree y hy) hb).symm

/-! ## The committed rows -/

theorem numbersOn_commit (db : Db) (r : Request) (tx : Tx) (id : Uuid) :
    numbersOn (db.commitIssue r tx) id =
      numbersOn db id ++ if tx.range.id = id then [tx.number] else [] := by
  by_cases h : tx.range.id = id <;> simp [numbersOn, Db.commitIssue, Request.documentRow, h]

structure Numbered (s : IssueState) : Prop where
  ranges : s.db.numbering_ranges = s.registered.map fun r => r.after (numbersOn s.db r.id)
  registered : ∀ r ∈ s.registered, r.Registered
  ids : (s.registered.map (·.id)).Nodup
  numbers : ∀ r ∈ s.registered,
    numbersOn s.db r.id = consecutive r.firstNumber (numbersOn s.db r.id).length
  bound : ∀ r ∈ s.registered, ∀ n ∈ numbersOn s.db r.id, n ≤ r.to_number
  owned : ∀ d ∈ s.db.documents, ∃ r ∈ s.registered, d.numbering_range_id = some r.id

/-- The number `next_number` gives out on the current row of a range, if `chk_counter` admits
    it. -/
theorem Numbered.next_number {s : IssueState} (hN : Numbered s) {r : NumberingRange}
    (hr : r ∈ s.registered) (hnonneg : 0 ≤ (r.after (numbersOn s.db r.id)).next) :
    (r.after (numbersOn s.db r.id)).next = r.firstNumber + (numbersOn s.db r.id).length := by
  have hnext := next_after_consecutive (hN.registered r hr) (n := (numbersOn s.db r.id).length)
  rw [← hN.numbers r hr] at hnext
  exact hnext (hN.bound r hr) hnonneg

theorem Numbered.commit {s : IssueState} (hN : Numbered s) {r : Request}
    {tx : Tx} (hheld : tx.range ∈ s.db.numbering_ranges)
    (hnum : tx.number = tx.range.next ∧ tx.number ≤ tx.range.to_number ∧ 0 ≤ tx.number)
    (requests : List (Request × Phase)) :
    Numbered ⟨s.db.commitIssue r tx, requests, s.registered⟩ := by
  -- the row in hand is the one of a registered range, with the counter moved
  obtain ⟨r₀, hr₀, hrow⟩ := List.mem_map.mp (hN.ranges ▸ hheld)
  have hid : tx.range.id = r₀.id := by rw [← hrow, NumberingRange.after_id]
  have hnumber : tx.number = r₀.firstNumber + (numbersOn s.db r₀.id).length := by
    have hnonneg := hnum.2.2
    rw [hnum.1, ← hrow] at hnonneg
    rw [hnum.1, ← hrow, hN.next_number hr₀ hnonneg]
  have hto : tx.number ≤ r₀.to_number := by
    rw [show r₀.to_number = tx.range.to_number by rw [← hrow]; rfl]
    exact hnum.2.1
  have hsame : ∀ x ∈ s.registered, tx.range.id = x.id → x = r₀ := fun x hx h =>
    eq_of_key_eq hN.ids hx hr₀ (h.symm.trans hid)
  refine ⟨?_, hN.registered, hN.ids, ?_, ?_, ?_⟩
  · show (s.db.numbering_ranges.map (setCounter tx.range.id tx.number)) = _
    rw [hN.ranges, List.map_map]
    refine List.map_congr_left fun x _ => ?_
    simp only [Function.comp_apply, numbersOn_commit]
    by_cases h : tx.range.id = x.id
    · simp [setCounter, h, NumberingRange.after]
    · simp [setCounter, h, Ne.symm h]
  · intro x hx
    simp only [numbersOn_commit]
    split_ifs with h
    · obtain rfl := hsame x hx h
      rw [List.length_append, List.length_singleton, consecutive_succ, ← hN.numbers x hx, hnumber]
    · simpa using hN.numbers x hx
  · intro x hx n hn
    simp only [numbersOn_commit, List.mem_append] at hn
    rcases hn with hn | hn
    · exact hN.bound x hx n hn
    · split_ifs at hn with h
      · obtain rfl := hsame x hx h
        rw [List.mem_singleton.mp hn]
        exact hto
      · cases hn
  · intro d hd
    rcases List.mem_append.mp hd with hd | hd
    · exact hN.owned d hd
    · rw [List.mem_singleton.mp hd]
      exact ⟨r₀, hr₀, congrArg some hid⟩

/-- A range just registered has given out no number yet. -/
theorem Numbered.register {s : IssueState} (hN : Numbered s) {range : NumberingRange}
    (hreg : range.Registered) (hnew : ∀ r ∈ s.db.numbering_ranges, r.id ≠ range.id) {db : Db}
    (hdocs : db.documents = s.db.documents)
    (hranges : db.numbering_ranges = s.db.numbering_ranges ++ [range]) :
    Numbered ⟨db, s.requests, s.registered ++ [range]⟩ := by
  have hfresh : ∀ r ∈ s.registered, r.id ≠ range.id := fun r hr =>
    hnew (r.after (numbersOn s.db r.id)) (hN.ranges ▸ List.mem_map_of_mem hr)
  have hold : ∀ id, numbersOn db id = numbersOn s.db id := fun id => by
    simp only [numbersOn, hdocs]
  have hnone : numbersOn s.db range.id = [] := by
    simp only [numbersOn, List.map_eq_nil_iff, List.filter_eq_nil_iff, decide_eq_true_eq]
    intro d hd hrange
    obtain ⟨r, hr, hdr⟩ := hN.owned d hd
    rw [hrange, Option.some.injEq] at hdr
    exact hfresh r hr hdr.symm
  refine ⟨?_, ?_, ?_, ?_, ?_, ?_⟩
  · simp only [hranges, hN.ranges, hold, List.map_append, List.map_cons, List.map_nil, hnone,
      NumberingRange.after_nil]
  · simpa [or_imp, forall_and] using ⟨hN.registered, hreg⟩
  · simp only [List.map_append, List.map_cons, List.map_nil]
    refine List.nodup_append.mpr ⟨hN.ids, by simp, ?_⟩
    simpa using hfresh
  · simpa [or_imp, forall_and, hold, hnone] using hN.numbers
  · simpa [or_imp, forall_and, hold, hnone] using hN.bound
  · intro d hd
    obtain ⟨r, hr, hdr⟩ := hN.owned d (hdocs ▸ hd)
    exact ⟨r, List.mem_append_left _ hr, hdr⟩

theorem numbered_step {s s' : IssueState} {a : IssueAction} (hI : InFlight s) (hN : Numbered s)
    (h : issueStep s a = some s') : Numbered s' := by
  cases issueStep_inv h with
  | registered hreg hs' =>
      obtain ⟨hcheck, hadd⟩ := Db.registerNumberingRange_ok hreg
      obtain ⟨hdb, hnew, -⟩ := Db.addNumberingRange_ok hadd
      obtain ⟨hregistered, hid⟩ := checkRange_registered hcheck
      rw [hs', hdb]
      exact hN.register hregistered hnew rfl rfl
  | refused hs' => exact hs' ▸ hN
  | submitted hs' => exact hs' ▸ ⟨hN.ranges, hN.registered, hN.ids, hN.numbers, hN.bound, hN.owned⟩
  | @moved _ i now f r p p' ha hi hadv hs' =>
      have hx := List.mem_of_getElem? hi
      rw [hs']
      rcases hadv.db_eq_or_commit with hdb | ⟨tx, htx, -, -, hdb, -⟩
      · rw [hdb]
        exact ⟨hN.ranges, hN.registered, hN.ids, hN.numbers, hN.bound, hN.owned⟩
      · have ht := Phase.tx?_of_documentTx? htx
        rw [hdb]
        exact hN.commit (hI.held _ hx _ (Phase.range?_of_tx? ht)) (hI.number _ hx _ ht) _

/-! ## Documents and their jobs -/

/-- What a row of `jobs` says about the transmission of its document. -/
def JobRow.duty (j : JobRow) : Uuid × JobKind × JobStatus := (j.document_id, j.kind, j.status)

theorem duty_initialJob (r : Request) :
    r.initialJob.row.duty = (r.document.id, JobKind.transmit, JobStatus.queued) := rfl

def answerOf (d : Document) : Except DomainError IssueOutcome :=
  .ok (.created ⟨d.id, d.document_number⟩)

structure Queued (s : IssueState) : Prop where
  ids : (s.db.documents.map (·.id)).Nodup
  jobs : s.db.jobs.map JobRow.duty =
    s.db.documents.map fun d => (d.id, JobKind.transmit, JobStatus.queued)
  answered : ∀ d ∈ s.db.documents, ∃ x ∈ s.requests, x.2 = .done (answerOf d)
  created : ∀ x ∈ s.requests, ∀ issued, x.2 = .done (.ok (.created issued)) →
    ∃ d ∈ s.db.documents, x.2 = .done (answerOf d)

/-- The requests that answer `Created` in a step are the ones that commit in it. -/
theorem Advance.created_cases {db db' : Db} {others : List (Request × Phase)} {r : Request}
    {now : Time} {f : Option String} {p p' : Phase} (h : Advance db others r now f p db' p') {issued : IssuedDocument}
    (hp' : p' = .done (.ok (.created issued))) :
    ∃ tx, db' = db.commitIssue r tx ∧ issued = r.issued tx := by
  cases h with
  | committed =>
      simp only [Phase.done.injEq, Except.ok.injEq, IssueOutcome.created.injEq] at hp'
      exact ⟨_, rfl, hp'.symm⟩
  | answered hp hkey hrow =>
      rw [replay_eq] at hp'
      split_ifs at hp' <;> simp at hp'
  | _ => simp at hp'

theorem Queued.commit {s : IssueState} (hQ : Queued s) {i : Nat} {now : Time} {f : Option String}
    {r : Request} {p : Phase} {tx : Tx} (hi : s.requests[i]? = some (r, p))
    (hadv : Advance s.db (s.requests.eraseIdx i) r now f p (s.db.commitIssue r tx)
      (.done (.ok (.created (r.issued tx)))))
    (hfresh : ∀ d ∈ s.db.documents, d.id ≠ r.document.id) :
    Queued (s.setPhase i (s.db.commitIssue r tx) r (.done (.ok (.created (r.issued tx))))) := by
  have hself := List.mem_of_getElem? (setPhase_get_self hi (s.db.commitIssue r tx) r
    (.done (.ok (.created (r.issued tx)))))
  refine ⟨?_, ?_, ?_, ?_⟩
  · simp only [setPhase_db, Db.commitIssue, List.map_append, List.map_cons, List.map_nil]
    refine List.nodup_append.mpr ⟨hQ.ids, by simp, ?_⟩
    simpa [Request.documentRow] using hfresh
  · simp only [setPhase_db, Db.commitIssue, List.map_append, List.map_cons, List.map_nil, hQ.jobs,
      duty_initialJob, Request.documentRow]
  · intro d hd
    rcases List.mem_append.mp hd with hd | hd
    · obtain ⟨x, hx, hdone⟩ := hQ.answered d hd
      exact ⟨x, done_kept hi hadv hx (by rw [hdone]; rfl), hdone⟩
    · exact ⟨_, hself, by rw [List.mem_singleton.mp hd]; rfl⟩
  · refine forall_setPhase hi hQ.created (fun issued _ => ?_) fun y _ hy issued hdone => ?_
    · exact ⟨r.documentRow tx, List.mem_append_right _ (List.mem_singleton_self _), rfl⟩
    · obtain ⟨d, hd, hdone⟩ := hy issued hdone
      exact ⟨d, List.mem_append_left _ hd, hdone⟩

theorem queued_step {s s' : IssueState} {a : IssueAction} (hI : InFlight s) (hQ : Queued s)
    (h : issueStep s a = some s') : Queued s' := by
  cases issueStep_inv h with
  | registered hreg hs' =>
      obtain ⟨hdb, -, -⟩ := Db.addNumberingRange_ok (Db.registerNumberingRange_ok hreg).2
      rw [hs', hdb]
      exact ⟨hQ.ids, hQ.jobs, hQ.answered, hQ.created⟩
  | refused hs' => exact hs' ▸ hQ
  | submitted hs' =>
      rw [hs']
      refine ⟨hQ.ids, hQ.jobs, fun d hd => ?_, ?_⟩
      · obtain ⟨x, hx, hdone⟩ := hQ.answered d hd
        exact ⟨x, List.mem_append_left _ hx, hdone⟩
      · simpa [or_imp, forall_and] using hQ.created
  | @moved _ i now f r p p' ha hi hadv hs' =>
      rcases hadv.db_eq_or_commit with hdb | ⟨tx, htx, -, -, hdb, rfl⟩
      · rw [hdb] at hadv hs'
        rw [hs']
        refine ⟨hQ.ids, hQ.jobs, fun d hd => ?_, ?_⟩
        · obtain ⟨x, hx, hdone⟩ := hQ.answered d hd
          exact ⟨x, done_kept hi hadv hx (by rw [hdone]; rfl), hdone⟩
        · refine forall_setPhase hi hQ.created (fun issued hdone => ?_) fun y _ hy => hy
          obtain ⟨tx, hcommit, -⟩ := hadv.created_cases hdone
          have hlen := congrArg (·.documents.length) hcommit
          simp [Db.commitIssue] at hlen
      · rw [hdb] at hadv hs'
        rw [hs']
        exact hQ.commit hi hadv (hI.fresh _ (List.mem_of_getElem? hi) _ htx)

/-! ## Every run -/

/-- What a run keeps. -/
def IssueInvariant (s : IssueState) : Prop := InFlight s ∧ Queued s ∧ Numbered s

theorem issueInvariant {s : IssueState} (hs : issuing.Reachable s) : IssueInvariant s := by
  refine hs.invariant ?_ fun s a s' _ hI _ h => ?_
  · rintro s ⟨tenants, rfl⟩
    refine ⟨⟨?_, ?_, ?_, ?_, ?_⟩, ⟨?_, ?_, ?_, ?_⟩, ⟨?_, ?_, ?_, ?_, ?_, ?_⟩⟩ <;>
      simp [Db.fresh]
  · exact ⟨inFlight_step hI.1 h, queued_step hI.1 hI.2.1 h, numbered_step hI.1 hI.2.2 h⟩

/-- Exactly one row of `jobs` is about a document, and it is queued to transmit it. -/
theorem Queued.one_job {s : IssueState} (hQ : Queued s) {d : Document} (hd : d ∈ s.db.documents) :
    ∃ j, s.db.jobs.filter (fun j => j.document_id = d.id) = [j] ∧ j.kind = .transmit ∧
      j.status = .queued := by
  have hduties := congrArg (List.filter fun x => x.1 = d.id) hQ.jobs
  rw [List.filter_map, List.filter_map] at hduties
  have hone : s.db.documents.filter (fun e => e.id = d.id) = [d] := filter_key_eq hQ.ids hd
  simp only [Function.comp_def, JobRow.duty, hone, List.map_cons, List.map_nil,
    List.map_eq_singleton_iff, Prod.mk.injEq] at hduties
  obtain ⟨j, hj, -, hkind, hstatus⟩ := hduties
  exact ⟨j, hj, hkind, hstatus⟩

/-- The claim's reading of one registered range: the numbers given out on it, in commit order,
    and its stored counter. -/
structure ConsecutiveOn (db : Db) (r : NumberingRange) : Prop where
  numbers : numbersOn db r.id = consecutive r.firstNumber (numbersOn db r.id).length
  in_range : ∀ n ∈ numbersOn db r.id, r.from_number ≤ n ∧ n ≤ r.to_number
  counter : (db.range? r.id).map (·.current_counter) =
    some ((numbersOn db r.id).getLast?.getD r.current_counter)

theorem Numbered.range_ids {s : IssueState} (hN : Numbered s) :
    (s.db.numbering_ranges.map (·.id)).Nodup := by
  rw [hN.ranges, List.map_map]
  exact hN.ids

theorem Numbered.consecutiveOn {s : IssueState} (hN : Numbered s) {r : NumberingRange}
    (hr : r ∈ s.registered) : ConsecutiveOn s.db r := by
  refine ⟨hN.numbers r hr, fun n hn => ⟨?_, hN.bound r hr n hn⟩, ?_⟩
  · have hfirst : r.from_number ≤ r.firstNumber := by
      unfold NumberingRange.firstNumber
      omega
    rw [hN.numbers r hr] at hn
    exact hfirst.trans (mem_consecutive hn).1
  · have hmem : r.after (numbersOn s.db r.id) ∈ s.db.numbering_ranges :=
      hN.ranges ▸ List.mem_map_of_mem hr
    have hrow : s.db.range? r.id = some (r.after (numbersOn s.db r.id)) :=
      find?_key_eq hN.range_ids hmem
    rw [hrow]
    rfl

/-- A request that does not answer `Created` changes nothing. -/
theorem unchanged_unless_created {s s' : IssueState} {a : IssueAction} {i : Nat}
    (ha : a.request? = some i) (h : issueStep s a = some s')
    (hnot : ∀ r issued, s'.requests[i]? ≠ some (r, .done (.ok (.created issued)))) :
    s'.db = s.db := by
  cases issueStep_inv h with
  | registered => cases ha
  | refused => cases ha
  | submitted => cases ha
  | moved hb hi hadv hs' =>
      obtain rfl : _ = i := by
        rcases hb with ⟨rfl, -⟩ | ⟨m, rfl, -⟩ <;> exact Option.some.inj ha
      rcases hadv.db_eq_or_commit with hdb | ⟨tx, -, -, -, -, rfl⟩
      · exact hdb
      · rw [hs'] at hnot
        exact absurd (setPhase_get_self hi _ _ _) (hnot _ _)

/-- An answer is final: no later step changes it. -/
theorem answer_final {s s' : IssueState} {a : IssueAction} (h : issueStep s a = some s') {i : Nat}
    {r : Request} {result : Except DomainError IssueOutcome}
    (hi : s.requests[i]? = some (r, .done result)) :
    s'.requests[i]? = some (r, .done result) := by
  cases issueStep_inv h with
  | registered hreg hs' => rw [hs']; exact hi
  | refused hs' => rw [hs']; exact hi
  | submitted hs' =>
      rw [hs']
      exact (List.getElem?_append_left (List.getElem?_eq_some_iff.mp hi).1).trans hi
  | @moved _ j now f q p p' ha hj hadv hs' =>
      rw [hs']
      by_cases hij : j = i
      · subst hij
        rw [hi] at hj
        cases hj
        exact absurd hadv.not_done (by simp [Phase.isDone])
      · rw [setPhase_get_ne hij]
        exact hi

/-! ## Consecutive numbering -/

/-- In every state that any interleaving of requests reaches: on each registered range the
    numbers are consecutive from the first one on, within the range, and the counter is the last;
    the documents created are those the answers name, each on a registered range and with one
    queued transmit job; an answer is final, and a step after which its request has not answered
    `Created` changes no row. -/
theorem issued_numbers_consecutive {s : IssueState} (hs : issuing.Reachable s) :
    (∀ r ∈ s.registered, ConsecutiveOn s.db r) ∧
    (∀ d ∈ s.db.documents,
      (∃ r ∈ s.registered, d.numbering_range_id = some r.id) ∧
      (∃ x ∈ s.requests, x.2 = .done (answerOf d)) ∧
      ∃ j, s.db.jobs.filter (fun j => j.document_id = d.id) = [j] ∧ j.kind = .transmit ∧
        j.status = .queued) ∧
    (∀ x ∈ s.requests, ∀ issued, x.2 = .done (.ok (.created issued)) →
      ∃ d ∈ s.db.documents, x.2 = .done (answerOf d)) ∧
    (∀ a s', issuing.step s a = some s' →
      (∀ (i : Nat) r result, s.requests[i]? = some (r, .done result) →
        s'.requests[i]? = some (r, .done result)) ∧
      (∀ i : Nat, a.request? = some i →
        (∀ r issued, s'.requests[i]? ≠ some (r, .done (.ok (.created issued)))) →
        s'.db = s.db)) := by
  obtain ⟨-, hQ, hN⟩ := issueInvariant hs
  exact ⟨fun r hr => hN.consecutiveOn hr,
    fun d hd => ⟨hN.owned d hd, hQ.answered d hd, hQ.one_job hd⟩, hQ.created,
    fun a s' h => ⟨fun i r result hi => answer_final h hi,
      fun i ha hnot => unchanged_unless_created ha h hnot⟩⟩

/-! ## The arithmetic of `next_number` -/

def NumberingRange.inForce (r : NumberingRange) (now : Time) : Prop :=
  r.valid_date_from ≤ now ∧ now ≤ r.valid_date_to

/-- A call of `next_number` does what it is for: its two operations, made only for a range in
    force, stay in `i32`; a number is in the range and past the counter; a range that is used up
    is refused. -/
structure NextNumberSound (r : NumberingRange) (requested : Option Int) (now : Time) : Prop where
  fits : r.inForce now →
    InI32 (r.from_number - 1) ∧ InI32 (max r.current_counter (r.from_number - 1) + 1)
  number : ∀ n, nextNumber r requested now = .ok n →
    r.from_number ≤ n ∧ n ≤ r.to_number ∧ r.current_counter < n
  exhausted : r.to_number ≤ r.current_counter → ∃ e, nextNumber r requested now = .error e

/-- The counter of a committed row stays in its range. -/
theorem Numbered.row_registered {s : IssueState} (hN : Numbered s) {r : NumberingRange}
    (hr : r ∈ s.db.numbering_ranges) : r.Registered := by
  rw [hN.ranges] at hr
  obtain ⟨r₀, hr₀, rfl⟩ := List.mem_map.mp hr
  have hreg := hN.registered r₀ hr₀
  refine ⟨hreg.one_le_from, hreg.from_le_to, ?_, ?_, hreg.to_lt⟩ <;>
    simp only [NumberingRange.after] <;>
    cases hlast : (numbersOn s.db r₀.id).getLast? with
    | none =>
        first
          | exact hreg.counter_nonneg
          | exact hreg.counter_le_to
    | some n =>
        have hmem := List.mem_of_getLast? hlast
        have hcons := hN.consecutiveOn hr₀
        have hn := hcons.in_range n hmem
        have := hreg.one_le_from
        simp only [Option.getD_some]
        omega

theorem NumberingRange.Registered.nextNumberSound_iff {r : NumberingRange} (hr : r.Registered)
    (requested : Option Int) (now : Time) :
    NextNumberSound r requested now ↔ (r.inForce now → r.current_counter < 2 ^ 31 - 1) := by
  obtain ⟨hfrom, hfromto, hc, hcto, hto⟩ := hr
  constructor
  · intro h hforce
    have hlast := (h.fits hforce).2.2
    omega
  · intro h
    refine ⟨fun hforce => ?_, fun n hn => ?_, fun hused => ?_⟩
    · have hlt := h hforce
      exact ⟨⟨by omega, by omega⟩, by omega, by omega⟩
    · obtain ⟨rfl, hle, -, hforce⟩ := nextNumber_ok hn
      rw [NumberingRange.next_eq hfrom (by omega) (by omega) (h hforce)] at hle ⊢
      omega
    · cases hn : nextNumber r requested now with
      | error e => exact ⟨e, rfl⟩
      | ok n =>
          obtain ⟨rfl, hle, -, hforce⟩ := nextNumber_ok hn
          rw [NumberingRange.next_eq hfrom (by omega) (by omega) (h hforce)] at hle
          omega

/-- On every row of every reachable state, `next_number` is sound for every request and instant
    except when the range is in force and its counter is the largest `i32`. -/
theorem next_number_sound_iff {s : IssueState} (hs : issuing.Reachable s) :
    ∀ r ∈ s.db.numbering_ranges, ∀ requested now,
      NextNumberSound r requested now ↔ (r.inForce now → r.current_counter < 2 ^ 31 - 1) :=
  fun _ hr requested now =>
    ((issueInvariant hs).2.2.row_registered hr).nextNumberSound_iff requested now

/-! ### A run -/

/-- Numbers 1 to 100 of prefix FE. -/
def sampleRange : RegisterNumberingRange where
  document_type := "invoice"
  pfx := "FE"
  from_number := 1
  to_number := 100
  technical_key := "tk"
  valid_date_from := 0
  valid_date_to := 1000
  last_issued_number := none
  from_i32 := by decide
  to_i32 := by decide

def sampleHash (c : Char) (h : isHexDigit c = true) : HexDigest where
  text := String.ofList (List.replicate 64 c)
  length_eq := by simp
  hex := by simpa using h

def sampleRequest (id : Uuid) (requested_number : Option Int)
    (idempotency : Option IdempotencyKey) : Request where
  document :=
    { id := id
      tenant_id := 1
      document_type := .invoice
      pfx := "FE"
      requested_number := requested_number
      payload := .null
      idempotency := idempotency }
  job_id := id
  job_run_at := 0
  max_attempts := 5

def sampleStart : IssueState := ⟨Db.fresh [⟨1, "900123456"⟩], [], []⟩

theorem sampleStart_start : issuing.start sampleStart := ⟨_, rfl⟩

/-- A document without a requested number, and one that asks for the number that comes next. -/
def twoInvoices : List IssueAction :=
  [.register 7 1 sampleRange, .submit (sampleRequest 10 none none),
    .submit (sampleRequest 11 (some 2) none)] ++
  List.replicate 7 (.advance 0 5) ++ List.replicate 7 (.advance 1 6)

set_option maxRecDepth 10000 in
theorem twoInvoices_runs : (issuing.run sampleStart twoInvoices).isSome = true := by decide

def twoInvoicesIssued : IssueState := (issuing.run sampleStart twoInvoices).get twoInvoices_runs

set_option maxRecDepth 10000 in
theorem issued_numbers_consecutive_two :
    numbersOn twoInvoicesIssued.db 7 = [1, 2] ∧
      ∀ r ∈ twoInvoicesIssued.registered, ConsecutiveOn twoInvoicesIssued.db r :=
  ⟨by decide, (issued_numbers_consecutive (s := twoInvoicesIssued)
    (Machine.Reachable.get sampleStart_start _)).1⟩

set_option maxRecDepth 10000 in
theorem next_number_sound_two :
    twoInvoicesIssued.db.numbering_ranges.map (·.current_counter) = [2] ∧
      ∀ r ∈ twoInvoicesIssued.db.numbering_ranges, ∀ requested now,
        NextNumberSound r requested now ↔ (r.inForce now → r.current_counter < 2 ^ 31 - 1) :=
  ⟨by decide, next_number_sound_iff (Machine.Reachable.get sampleStart_start _)⟩

/-- A resolution that ends at the largest `i32`, registered when all of it has been issued. -/
def lastRange : RegisterNumberingRange :=
  { sampleRange with
    to_number := 2 ^ 31 - 1
    last_issued_number := some (2 ^ 31 - 1)
    to_i32 := by decide }

theorem lastRange_runs : (issuing.run sampleStart [.register 7 1 lastRange]).isSome = true := by
  decide

theorem next_number_wraps :
    ¬ ∀ s, issuing.Reachable s → ∀ r ∈ s.db.numbering_ranges, ∀ requested now,
      NextNumberSound r requested now := by
  intro h
  have hrow := h _ (Machine.Reachable.get sampleStart_start lastRange_runs) _
    (List.mem_singleton_self _) none 5
  have hnumber := hrow.number (-2 ^ 31) (by decide)
  exact absurd hnumber.1 (by decide)

end DianService
