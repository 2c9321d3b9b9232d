import Mathlib.Data.List.Pairwise
import DianService.Issue.Alone
import DianService.Issue.Numbers

/-
  Issue: a range in force with free numbers gives out the next one. Registration keeps the
  validity periods of the ranges of a tenant, type and prefix apart, but the numbers of documents
  are unique among all of these ranges. Where two ranges have numbers in common, the second one to
  reach a number the first gave out is stuck on it: the refused document takes the counter back
  with it.
-/

namespace DianService

open Lib

/-- What a document is numbered in. -/
def NewOutboundDocument.series (d : NewOutboundDocument) : Uuid × DocumentType × String :=
  (d.tenant_id, d.document_type, d.pfx)

def Document.series (d : Document) : Uuid × DocumentType × String :=
  (d.tenant_id, d.document_type, d.pfx)

def NumberingRange.series (r : NumberingRange) : Uuid × DocumentType × String :=
  (r.tenant_id, r.document_type, r.pfx)

/-- Two ranges of one series have no number in common, from the first one each gives out. -/
def NumberingRange.Apart (r s : NumberingRange) : Prop :=
  r.series = s.series → r.to_number < s.firstNumber ∨ s.to_number < r.firstNumber

instance (r s : NumberingRange) : Decidable (r.Apart s) :=
  inferInstanceAs (Decidable (_ → _))

/-- A range that is registered has no number in common with the others of its series. -/
def registersApart (s : IssueState) : IssueAction → Bool
  | .register id tenant_id request =>
      match s.db.registerNumberingRange id tenant_id request with
      | .ok (_, range) => s.registered.all fun r => r.Apart range
      | .error _ => true
  | _ => true

/-- The answer of the statements of `issue_outbound` with no other request in course. -/
def answerAlone (r : Request) : List Time → Db → Phase → Phase
  | [], _, p => p
  | now :: times, db, p =>
      match advance db [] r now p with
      | none => p
      | some (db', p') => answerAlone r times db' p'

/-- A request that asks for no number, whose ids and key are new. -/
structure Request.Fresh (r : Request) (db : Db) : Prop where
  unnumbered : r.document.requested_number = none
  id : ∀ d ∈ db.documents, d.id ≠ r.document.id
  key : ∀ key, r.document.idempotency = some key →
    db.idempotency? r.document.tenant_id key.key = none
  job_id : ∀ j ∈ db.jobs, j.id ≠ r.job_id
  max_attempts : 0 < r.max_attempts

/-- A fresh request is answered `Created` while the range in force has free numbers: `now` is the
    instant of the transaction, `clock` the one `next_number` reads. -/
def NeverStuck (db : Db) : Prop :=
  ∀ (r : Request) (range : NumberingRange) (start now lock clock : Time) (times : List Time),
    r.Fresh db → db.selectRange r.document now = some range →
    range.valid_date_from ≤ clock → clock ≤ range.valid_date_to →
    max range.current_counter (range.from_number - 1) < range.to_number → 4 ≤ times.length →
    ∃ issued, answerAlone r (start :: now :: lock :: clock :: times) db .lookup =
      .done (.ok (.created issued))

/-! ## The ranges of a run -/

theorem series_of_serves {range : NumberingRange} {document : NewOutboundDocument} {now : Time}
    (h : range.serves document now = true) : range.series = document.series := by
  simp only [NumberingRange.serves, decide_eq_true_eq] at h
  obtain ⟨htenant, htype, hpfx, -⟩ := h
  rw [NumberingRange.series, NewOutboundDocument.series, htenant, htype, hpfx]

@[simp] theorem NumberingRange.after_series (r : NumberingRange) (ns : List Int) :
    (r.after ns).series = r.series := rfl

theorem Advance.range_series {db db' : Db} {others : List (Request × Phase)} {r : Request}
    {now : Time} {f : Option String} {p p' : Phase} (h : Advance db others r now f p db' p')
    {range : NumberingRange} (hr : p'.range? = some range) :
    p.range? = some range ∨ range.series = r.document.series := by
  cases h with
  | locked _ _ hserves =>
      cases hr
      exact .inr (series_of_serves hserves)
  | _ => first | exact .inl hr | (simp [Phase.range?] at hr)

/-- Documents are numbered on ranges of their series. -/
structure InSeries (s : IssueState) : Prop where
  requests : ∀ x ∈ s.requests, ∀ range, x.2.range? = some range →
    range.series = x.1.document.series
  documents : ∀ d ∈ s.db.documents, ∃ r ∈ s.registered,
    d.numbering_range_id = some r.id ∧ r.series = d.series

theorem inSeries_step {s s' : IssueState} {a : IssueAction} (hI : InFlight s) (hN : Numbered s)
    (hS : InSeries s) (h : issueStep s a = some s') : InSeries s' := by
  cases issueStep_inv h with
  | registered hreg hs' =>
      obtain ⟨hdb, -, -⟩ := Db.addNumberingRange_ok (Db.registerNumberingRange_ok hreg).2
      rw [hs', hdb]
      refine ⟨hS.requests, fun d hd => ?_⟩
      obtain ⟨r, hr, hid, hseries⟩ := hS.documents d hd
      exact ⟨r, List.mem_append_left _ hr, hid, hseries⟩
  | refused hs' => exact hs' ▸ hS
  | submitted hs' =>
      rw [hs']
      refine ⟨?_, hS.documents⟩
      simpa [or_imp, forall_and, Phase.range?] using hS.requests
  | @moved _ i now f r p p' ha hi hadv hs' =>
      have hx := List.mem_of_getElem? hi
      rw [hs']
      refine ⟨?_, ?_⟩
      · refine forall_setPhase hi hS.requests (fun range hr => ?_) fun y _ hy => hy
        rcases hadv.range_series hr with hp | hseries
        · exact hS.requests _ hx range hp
        · exact hseries
      · rcases hadv.db_eq_or_commit with hdb | ⟨tx, htx, -, -, hdb, -⟩
        · rw [hdb]
          exact hS.documents
        · have hrange := Phase.range?_of_tx? (Phase.tx?_of_documentTx? htx)
          obtain ⟨r₀, hr₀, hrow⟩ := List.mem_map.mp (hN.ranges ▸ hI.held _ hx _ hrange)
          intro d hd
          rw [hdb] at hd
          rcases List.mem_append.mp hd with hd | hd
          · exact hS.documents d hd
          · rw [List.mem_singleton.mp hd]
            refine ⟨r₀, hr₀, ?_, ?_⟩
            · show some tx.range.id = some r₀.id
              rw [← hrow, NumberingRange.after_id]
            · have hseries := hS.requests _ hx _ hrange
              rw [← hrow, NumberingRange.after_series] at hseries
              exact hseries

/-- A relation between the registered ranges holds after a step if it does between the range the
    step registers and those before it. -/
theorem registered_pairwise {R : NumberingRange → NumberingRange → Prop} {s s' : IssueState}
    {a : IssueAction} (h : s.registered.Pairwise R)
    (hnew : ∀ id tenant_id request, a = .register id tenant_id request → ∀ db range,
      s.db.registerNumberingRange id tenant_id request = .ok (db, range) →
      ∀ r ∈ s.registered, R r range)
    (hstep : issueStep s a = some s') : s'.registered.Pairwise R := by
  cases issueStep_inv hstep with
  | registered hreg hs' =>
      rw [hs', List.pairwise_append]
      refine ⟨h, List.pairwise_singleton _ _, ?_⟩
      intro r hr range hrange
      rw [List.mem_singleton.mp hrange]
      exact hnew _ _ _ rfl _ _ hreg r hr
  | refused hs' => exact hs' ▸ h
  | submitted hs' => exact hs' ▸ h
  | moved _ _ _ hs' =>
      rw [hs', setPhase_registered]
      exact h

/-- Documents are numbered on ranges of their series, and the ranges of one series are apart. -/
structure Served (s : IssueState) : Prop where
  requests : ∀ x ∈ s.requests, ∀ range, x.2.range? = some range →
    range.series = x.1.document.series
  documents : ∀ d ∈ s.db.documents, ∃ r ∈ s.registered,
    d.numbering_range_id = some r.id ∧ r.series = d.series
  apart : s.registered.Pairwise NumberingRange.Apart

theorem NumberingRange.Apart.symm {r s : NumberingRange} (h : r.Apart s) : s.Apart r :=
  fun hseries => (h hseries.symm).symm

theorem served_step {s s' : IssueState} {a : IssueAction} (hI : InFlight s) (hN : Numbered s)
    (hS : Served s) (hc : registersApart s a = true) (h : issueStep s a = some s') : Served s' := by
  obtain ⟨hrequests, hdocuments⟩ := inSeries_step hI hN ⟨hS.requests, hS.documents⟩ h
  refine ⟨hrequests, hdocuments, registered_pairwise hS.apart ?_ h⟩
  intro id tenant_id request ha db range hreg
  simp only [ha, registersApart, hreg, List.all_eq_true, decide_eq_true_eq] at hc
  exact hc

theorem served_of_reachableBy {s : IssueState}
    (hs : issuing.ReachableBy (fun s a => registersApart s a = true) s) : Served s := by
  refine hs.invariant ?_ fun s a s' hr hS hc h => ?_
  · rintro s ⟨tenants, rfl⟩
    exact ⟨by simp, by simp [Db.fresh], .nil⟩
  · obtain ⟨hI, -, hN⟩ := issueInvariant hr.reachable
    exact served_step hI hN hS hc h

/-! ## The next number -/

/-- No document of the series has the next number of the range in force. -/
theorem next_free {s : IssueState} (hN : Numbered s) (hS : Served s) {document : NewOutboundDocument}
    {r : NumberingRange} (hr : r ∈ s.registered) (hseries : r.series = document.series)
    (hfresh : ∀ d ∈ s.db.documents, d.id ≠ document.id) {number : Int}
    (hnumber : number = r.firstNumber + (numbersOn s.db r.id).length)
    (hto : number ≤ r.to_number) : s.db.documentTaken document number = false := by
  rw [Db.documentTaken, List.any_eq_false]
  intro d hd htaken
  rw [decide_eq_true_eq] at htaken
  have hissued := htaken.resolve_left (hfresh d hd)
  simp only [Document.isIssued, decide_eq_true_eq] at hissued
  obtain ⟨htenant, -, -, htype, hpfx, hdnumber⟩ := hissued
  obtain ⟨r', hr', hrange, hseries'⟩ := hS.documents d hd
  have hmem : d.document_number ∈ numbersOn s.db r'.id :=
    List.mem_map.mpr ⟨d, List.mem_filter.mpr ⟨hd, by simpa using hrange⟩, rfl⟩
  have hlast := hN.bound r' hr' _ hmem
  rw [hN.numbers r' hr'] at hmem
  obtain ⟨hfirst, hnext⟩ := mem_consecutive hmem
  by_cases hrr : r' = r
  · subst hrr
    omega
  · have hsame : r'.series = r.series := by
      rw [hseries, hseries', Document.series, NewOutboundDocument.series, htenant, htype, hpfx]
    have hsymm : Std.Symm NumberingRange.Apart := ⟨fun _ _ => NumberingRange.Apart.symm⟩
    have hapart := hS.apart.forall hr' hr hrr hsame
    omega

theorem Numbered.counter_nonneg {s : IssueState} (hN : Numbered s) {r : NumberingRange}
    (hr : r ∈ s.registered) : 0 ≤ (r.after (numbersOn s.db r.id)).current_counter := by
  show 0 ≤ (numbersOn s.db r.id).getLast?.getD r.current_counter
  obtain ⟨hfrom, -, hcounter, -, -⟩ := hN.registered r hr
  cases hlast : (numbersOn s.db r.id).getLast? with
  | none => exact hcounter
  | some n =>
      have hmem := List.mem_of_getLast? hlast
      rw [hN.numbers r hr] at hmem
      have hfirst := (mem_consecutive hmem).1
      unfold NumberingRange.firstNumber at hfirst
      show 0 ≤ n
      omega

/-- The range that serves a request, with the number it gives out next. -/
theorem next_of_selected {s : IssueState} (hN : Numbered s) {document : NewOutboundDocument}
    {now : Time} {range : NumberingRange} (hselect : s.db.selectRange document now = some range)
    (hfree : max range.current_counter (range.from_number - 1) < range.to_number) :
    s.db.range? range.id = some range ∧ range.serves document now = true ∧ 0 ≤ range.next ∧
      range.next ≤ range.to_number ∧
      ∃ r ∈ s.registered, r.series = document.series ∧ range.to_number = r.to_number ∧
        range.next = r.firstNumber + (numbersOn s.db r.id).length := by
  obtain ⟨hmem, hserves⟩ := List.mem_filter.mp (mem_of_latestBy hselect)
  obtain ⟨r, hr, hrow⟩ := List.mem_map.mp (hN.ranges ▸ hmem)
  obtain ⟨hfrom, hfromto, -, -, hlt⟩ := hN.registered r hr
  have hfromEq : range.from_number = r.from_number := by rw [← hrow]; rfl
  have htoEq : range.to_number = r.to_number := by rw [← hrow]; rfl
  have hcounter : 0 ≤ range.current_counter := hrow ▸ hN.counter_nonneg hr
  have hnext : range.next = max range.current_counter (range.from_number - 1) + 1 :=
    NumberingRange.next_eq (by omega) (by omega) (by omega) (by omega)
  have hnonneg : 0 ≤ range.next := by omega
  refine ⟨find?_key_eq hN.range_ids hmem, hserves, hnonneg, by omega, r, hr, ?_, htoEq, ?_⟩
  · rw [← series_of_serves hserves, ← hrow, NumberingRange.after_series]
  · rw [← hrow] at hnonneg ⊢
    exact hN.next_number hr hnonneg

/-! ## The request alone -/

section Alone

variable {db db' : Db} {r : Request} {now : Time} {times : List Time} {p p' : Phase}

theorem answerAlone_done (result : Except DomainError IssueOutcome) :
    answerAlone r times db (.done result) = .done result := by
  cases times <;> rfl

theorem answerAlone_cons (h : advance db [] r now p = some (db', p')) :
    answerAlone r (now :: times) db p = answerAlone r times db' p' := by
  simp only [answerAlone, h]

/-- Once a request has its number, and nothing of it is taken, it is created. -/
theorem answerAlone_numbered {tx : Tx} (hdocument : db.documentTaken r.document tx.number = false)
    (hjob : ∃ db', db.insertJob r.initialJob = .ok db')
    (hkey : ∀ key, r.document.idempotency = some key →
      db.idempotency? r.document.tenant_id key.key = none) (hlength : 4 ≤ times.length) :
    ∃ issued, answerAlone r times db (.numbered tx) = .done (.ok (.created issued)) := by
  obtain ⟨db', hjob⟩ := hjob
  match times, hlength with
  | t₁ :: t₂ :: t₃ :: t₄ :: times, _ =>
      have h₁ : advance db [] r t₁ (.numbered tx) = some (db, .documentInserted tx) := by
        simp [advance, hdocument]
      have h₂ : advance db [] r t₂ (.documentInserted tx) = some (db, .jobInserted tx) := by
        simp [advance, hjob]
      rw [answerAlone_cons h₁, answerAlone_cons h₂]
      cases hidempotency : r.document.idempotency with
      | none =>
          have h₃ : advance db [] r t₃ (.jobInserted tx) =
              some (db.commitIssue r tx, .done (.ok (.created (r.issued tx)))) := by
            simp [advance, hidempotency]
          rw [answerAlone_cons h₃, answerAlone_done]
          exact ⟨_, rfl⟩
      | some key =>
          have h₃ : advance db [] r t₃ (.jobInserted tx) = some (db, .keyInserted tx) := by
            simp [advance, hidempotency, hkey key hidempotency]
          have h₄ : advance db [] r t₄ (.keyInserted tx) =
              some (db.commitIssue r tx, .done (.ok (.created (r.issued tx)))) := rfl
          rw [answerAlone_cons h₃, answerAlone_cons h₄, answerAlone_done]
          exact ⟨_, rfl⟩

theorem answerAlone_fresh {range : NumberingRange} {start lock clock : Time}
    (hselect : db.selectRange r.document now = some range) (hrow : db.range? range.id = some range)
    (hserves : range.serves r.document now = true)
    (hnumber : nextNumber range r.document.requested_number clock = .ok range.next)
    (hnonneg : 0 ≤ range.next) (hdocument : db.documentTaken r.document range.next = false)
    (hjob : ∃ db', db.insertJob r.initialJob = .ok db')
    (hkey : ∀ key, r.document.idempotency = some key →
      db.idempotency? r.document.tenant_id key.key = none) (hlength : 4 ≤ times.length) :
    ∃ issued, answerAlone r (start :: now :: lock :: clock :: times) db .lookup =
      .done (.ok (.created issued)) := by
  have h₁ : advance db [] r start .lookup = some (db, .beginTx) := by
    cases hidempotency : r.document.idempotency with
    | none => simp [advance, hidempotency]
    | some key => simp [advance, hidempotency, replayOr_eq, hkey key hidempotency]
  have h₂ : advance db [] r now .beginTx = some (db, .waiting now range.id) := by
    simp [advance, hselect]
  have hheld : (db.range? range.id).filter (fun x => x.serves r.document now) = some range := by
    rw [hrow, Option.filter_some, if_pos hserves]
  have h₃ : advance db [] r lock (.waiting now range.id) = some (db, .locked now range) := by
    simp [advance, hheld]
  have h₄ : advance db [] r clock (.locked now range) =
      some (db, .numbered ⟨now, range, range.next⟩) := by
    simp [advance, hnumber, not_lt.mpr hnonneg]
  rw [answerAlone_cons h₁, answerAlone_cons h₂, answerAlone_cons h₃, answerAlone_cons h₄]
  exact answerAlone_numbered hdocument hjob hkey hlength

end Alone

/-- The transmit job of a new document is not refused. -/
theorem Queued.initialJob_ok {s : IssueState} (hQ : Queued s) {r : Request} (hr : r.Fresh s.db) :
    ∃ db', s.db.insertJob r.initialJob = .ok db' := by
  have hactive : s.db.hasActiveJob r.document.id .transmit = false := by
    rw [Db.hasActiveJob, List.any_eq_false]
    intro j hj hdoc
    rw [decide_eq_true_eq] at hdoc
    have hduty : j.duty ∈ s.db.jobs.map JobRow.duty := List.mem_map_of_mem hj
    rw [hQ.jobs] at hduty
    obtain ⟨d, hd, heq⟩ := List.mem_map.mp hduty
    exact hr.id d hd ((congrArg Prod.fst heq).trans hdoc.1)
  have hid : ¬ s.db.jobs.any fun j => j.id = r.initialJob.id := by
    rw [Bool.not_eq_true, List.any_eq_false]
    intro j hj heq
    exact hr.job_id j hj (of_decide_eq_true heq)
  have hmax : ¬ r.initialJob.max_attempts ≤ 0 := not_le.mpr hr.max_attempts
  refine ⟨{ s.db with jobs := s.db.jobs ++ [r.initialJob.row] }, ?_⟩
  have hnone : ¬ s.db.hasActiveJob r.initialJob.document_id r.initialJob.kind = true := by
    rw [Bool.not_eq_true]
    exact hactive
  unfold Db.insertJob
  rw [if_neg (not_or.mpr ⟨hid, hnone⟩), if_neg hmax]

/-- While registered ranges of one series have no number in common, none of them gets stuck. -/
theorem never_stuck {s : IssueState}
    (hs : issuing.ReachableBy (fun s a => registersApart s a = true) s) : NeverStuck s.db := by
  intro r range start now lock clock times hfresh hselect hfrom hto hfree hlength
  obtain ⟨-, hQ, hN⟩ := issueInvariant hs.reachable
  have hS := served_of_reachableBy hs
  obtain ⟨hrow, hserves, hnonneg, hnext, r₀, hr₀, hseries, hto₀, hnumber⟩ :=
    next_of_selected hN hselect hfree
  have hdocument := next_free hN hS hr₀ hseries hfresh.id hnumber (hto₀ ▸ hnext)
  have hgiven : nextNumber range r.document.requested_number clock = .ok range.next := by
    have hin : ¬ (clock < range.valid_date_from ∨ clock > range.valid_date_to) :=
      not_or.mpr ⟨not_lt.mpr hfrom, not_lt.mpr hto⟩
    have hle : ¬ range.next > range.to_number := by omega
    unfold nextNumber
    rw [if_neg hin, hfresh.unnumbered]
    dsimp only
    rw [if_neg hle]
  exact answerAlone_fresh hselect hrow hserves hgiven hnonneg hdocument (hQ.initialJob_ok hfresh)
    hfresh.key hlength

/-! ### A renewed resolution -/

/-- The range of `sampleRange` renewed for the next period, from `first` on. -/
def renewal (first : Int) (h : InI32 first) : RegisterNumberingRange :=
  { sampleRange with
    from_number := first
    to_number := 200
    valid_date_from := 1000
    valid_date_to := 2000
    from_i32 := h
    to_i32 := by decide }

/-- Number 1 is given out before the renewal. -/
def issuedAndRenewed (first : Int) (h : InI32 first) : List IssueAction :=
  [.register 7 1 sampleRange, .submit (sampleRequest 10 none none)] ++
    List.replicate 7 (.advance 0 5) ++ [.register 8 1 (renewal first h)]

theorem inI32_101 : InI32 101 := by decide

set_option maxRecDepth 10000 in
theorem renewed_runs :
    (issuing.run sampleStart (issuedAndRenewed 101 inI32_101)).isSome = true := by decide

def renewed : IssueState :=
  (issuing.run sampleStart (issuedAndRenewed 101 inI32_101)).get renewed_runs

set_option maxRecDepth 10000 in
theorem never_stuck_renewed : renewed.db.numbering_ranges.length = 2 ∧ NeverStuck renewed.db :=
  ⟨by decide, never_stuck (Machine.ReachableBy.get sampleStart_start (by decide) renewed_runs)⟩

set_option maxRecDepth 10000 in
theorem renewedFromOne_runs :
    (issuing.run sampleStart (issuedAndRenewed 1 sampleRange.from_i32)).isSome = true := by decide

def renewedFromOne : IssueState :=
  (issuing.run sampleStart (issuedAndRenewed 1 sampleRange.from_i32)).get renewedFromOne_runs

set_option maxRecDepth 10000 in
/-- The renewed range starts at a number that was given out: its first document is refused. -/
theorem renewed_range_stuck : ¬ ∀ s, issuing.Reachable s → NeverStuck s.db := by
  intro h
  have hstuck := h renewedFromOne (Machine.Reachable.get sampleStart_start renewedFromOne_runs)
  have hfresh : (sampleRequest 11 none none).Fresh renewedFromOne.db :=
    ⟨rfl, by decide, by simp [sampleRequest], by decide, by decide⟩
  have hselect : ∃ range, renewedFromOne.db.selectRange (sampleRequest 11 none none).document 1500 =
      some range ∧ range.valid_date_from ≤ 1500 ∧ 1500 ≤ range.valid_date_to ∧
      max range.current_counter (range.from_number - 1) < range.to_number := by decide
  obtain ⟨range, hrange, hfrom, hto, hfree⟩ := hselect
  obtain ⟨issued, hcreated⟩ := hstuck (sampleRequest 11 none none) range 1500 1500 1500 1500
    (List.replicate 4 1500) hfresh hrange hfrom hto hfree (by decide)
  have hconflict : answerAlone (sampleRequest 11 none none) (List.replicate 8 1500)
      renewedFromOne.db .lookup = .done (.error (.conflict "El documento FE1 ya existe")) := rfl
  exact absurd (hconflict.symm.trans hcreated) (by simp)

end DianService
