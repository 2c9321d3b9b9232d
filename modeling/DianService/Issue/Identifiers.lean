import Std.Data.String.ToInt
import DianService.Issue.FreeNumbers

/-
  Issue: the identifier a document prints, its prefix followed by its number. The unique key of
  the table is on the pair, and a prefix may end in digits, so two ranges of one tenant and type
  may print one identifier twice: FE with number 11, and FE1 with number 1. While no two
  registered ranges can do so, every identifier is printed once.

  The invariant that carries it: the rows of `uq_tenant_document`, those in course included,
  differ in series or number (`NumbersUnique`), and a document lies within a registered range of
  its series.
-/

namespace DianService

open Lib

/-- `format!("{}{}", prefix, number)`: the `cbc:ID` of the XML and the first component of its
    unique code. -/
def printedId (pfx : String) (number : Int) : String := pfx ++ toString number

def Document.printedId (d : Document) : String := DianService.printedId d.pfx d.document_number

/-- Of two ranges of one tenant and type with different prefixes, no number the one gives out
    prints like a number of the other. -/
def NumberingRange.PrintsApart (r s : NumberingRange) : Prop :=
  r.tenant_id = s.tenant_id → r.document_type = s.document_type → r.pfx ≠ s.pfx →
    ∀ n m, r.firstNumber ≤ n → n ≤ r.to_number → s.firstNumber ≤ m → m ≤ s.to_number →
      printedId r.pfx n ≠ printedId s.pfx m

/-- A range that is registered prints no identifier that another range prints. -/
def RegistersPrintsApart (s : IssueState) (a : IssueAction) : Prop :=
  ∀ id tenant_id request, a = .register id tenant_id request → ∀ db range,
    s.db.registerNumberingRange id tenant_id request = .ok (db, range) →
    ∀ r ∈ s.registered, r.PrintsApart range

/-! ## Printed numbers -/

theorem printedId_number_inj {pfx : String} {n m : Int}
    (h : printedId pfx n = printedId pfx m) : n = m := by
  have hdigits : toString n = toString m := by
    simpa [printedId] using h
  exact Int.repr_injective hdigits

/-- What `toString` prints of a number is ASCII digits. -/
theorem digits_of_toString {n : Int} (h : 0 ≤ n) :
    ∀ c ∈ (toString n).toList, c.isDigit = true := by
  obtain ⟨k, rfl⟩ := Int.eq_ofNat_of_zero_le h
  intro c hc
  have hrepr : (toString (k : Int)).toList = Nat.toDigits 10 k := by
    show (Nat.repr k).toList = _
    rw [Nat.repr_eq_ofList_toDigits, String.toList_ofList]
  rw [hrepr] at hc
  exact Nat.isDigit_of_mem_toDigits (by decide) (by decide) hc

/-- A text without digits before a text of digits is read back from the two together. -/
theorem takeWhile_letters {p digits : List Char} (hp : ∀ c ∈ p, c.isDigit = false)
    (hd : ∀ c ∈ digits, c.isDigit = true) :
    (p ++ digits).takeWhile (fun c => !c.isDigit) = p := by
  rw [List.takeWhile_append_of_pos (by simpa using hp)]
  have hnone : digits.takeWhile (fun c => !c.isDigit) = [] := by
    cases digits with
    | nil => rfl
    | cons c digits => simp [hd c List.mem_cons_self]
  rw [hnone, List.append_nil]

/-- Ranges whose prefixes have no digit print no identifier in common. -/
theorem NumberingRange.PrintsApart.of_letters {r s : NumberingRange} (hr : 0 ≤ r.firstNumber)
    (hs : 0 ≤ s.firstNumber) (hrp : ∀ c ∈ r.pfx.toList, c.isDigit = false)
    (hsp : ∀ c ∈ s.pfx.toList, c.isDigit = false) : r.PrintsApart s := by
  intro _ _ hne n m hn _ hm _ heq
  have hchars := congrArg String.toList heq
  simp only [printedId, String.toList_append] at hchars
  have hprefixes := congrArg (List.takeWhile fun c => !c.isDigit) hchars
  rw [takeWhile_letters hrp (digits_of_toString (by omega)),
    takeWhile_letters hsp (digits_of_toString (by omega))] at hprefixes
  exact hne (String.toList_injective hprefixes)

theorem NumberingRange.PrintsApart.symm {r s : NumberingRange} (h : r.PrintsApart s) :
    s.PrintsApart r :=
  fun htenant htype hpfx n m hn hn' hm hm' heq =>
    h htenant.symm htype.symm hpfx.symm m n hm hm' hn hn' heq.symm

/-! ## The unique key of documents -/

/-- The rows two requests in course inserted differ in series or number. -/
def NumbersApart (x y : Request × Phase) : Prop :=
  ∀ a b, x.2.documentTx? = some a → y.2.documentTx? = some b →
    x.1.document.series = y.1.document.series → a.number ≠ b.number

theorem NumbersApart.symm {x y : Request × Phase} (h : NumbersApart x y) : NumbersApart y x :=
  fun a b ha hb hseries => (h b a hb ha hseries.symm).symm

/-- `uq_tenant_document` over the committed rows and those in course. -/
structure NumbersUnique (s : IssueState) : Prop where
  issued : ∀ d ∈ s.db.documents, d.direction = .outbound ∧ d.issuer_nit = ""
  free : ∀ x ∈ s.requests, ∀ tx, x.2.documentTx? = some tx →
    ∀ d ∈ s.db.documents, d.series = x.1.document.series → d.document_number ≠ tx.number
  apart : s.requests.Pairwise NumbersApart
  numbers : s.db.documents.Pairwise fun d e => d.series = e.series →
    d.document_number ≠ e.document_number

theorem number_ne_of_not_taken {s : IssueState} (hU : NumbersUnique s)
    {document : NewOutboundDocument} {number : Int}
    (h : s.db.documentTaken document number = false) :
    ∀ d ∈ s.db.documents, d.series = document.series → d.document_number ≠ number := by
  intro d hd hseries hnumber
  obtain ⟨hdirection, hnit⟩ := hU.issued d hd
  simp only [Document.series, NewOutboundDocument.series, Prod.mk.injEq] at hseries
  rw [Db.documentTaken, List.any_eq_false] at h
  refine h d hd ?_
  rw [decide_eq_true_eq]
  right
  rw [Document.isIssued, decide_eq_true_eq]
  exact ⟨hseries.1, hdirection, hnit, hseries.2.1, hseries.2.2, hnumber⟩

theorem numbersApart_of_not_held {r : Request} {number : Int} {y : Request × Phase}
    (h : holdsDocument r.document number y = false) {b : Tx} (hb : y.2.documentTx? = some b)
    (hseries : r.document.series = y.1.document.series) : number ≠ b.number := by
  simp only [NewOutboundDocument.series, Prod.mk.injEq] at hseries
  simp only [holdsDocument, hb, decide_eq_false_iff_not, not_or, not_and] at h
  intro heq
  exact h.2 hseries.1.symm hseries.2.1.symm hseries.2.2.symm heq.symm

theorem NumbersUnique.commit {s : IssueState} (hU : NumbersUnique s) {i : Nat} {r : Request}
    {p : Phase} {tx : Tx} (hi : s.requests[i]? = some (r, p)) (htx : p.documentTx? = some tx)
    (result : Except DomainError IssueOutcome) :
    NumbersUnique (s.setPhase i (s.db.commitIssue r tx) r (.done result)) := by
  have hx := List.mem_of_getElem? hi
  have happart := ((requests_perm hi).pairwise_iff NumbersApart.symm).mp hU.apart
  refine ⟨?_, ?_, ?_, ?_⟩
  · intro d hd
    rcases List.mem_append.mp hd with hd | hd
    · exact hU.issued d hd
    · rw [List.mem_singleton.mp hd]
      exact ⟨rfl, rfl⟩
  · refine forall_setPhase hi hU.free (fun b hb => by cases hb) fun y hy hfree b hb d hd => ?_
    rcases List.mem_append.mp hd with hd | hd
    · exact hfree b hb d hd
    · rw [List.mem_singleton.mp hd]
      exact (List.pairwise_cons.mp happart).1 y hy _ _ htx hb
  · refine pairwise_setPhase NumbersApart.symm hi hU.apart fun _ y _ a b ha => ?_
    cases ha
  · show (s.db.documents ++ [r.documentRow tx]).Pairwise _
    rw [List.pairwise_append]
    refine ⟨hU.numbers, List.pairwise_singleton _ _, ?_⟩
    intro d hd e he
    rw [List.mem_singleton.mp he]
    exact hU.free _ hx _ htx d hd

theorem numbersUnique_step {s s' : IssueState} {a : IssueAction} (hU : NumbersUnique s)
    (h : issueStep s a = some s') : NumbersUnique s' := by
  cases issueStep_inv h with
  | registered hreg hs' =>
      obtain ⟨hdb, -, -⟩ := Db.addNumberingRange_ok (Db.registerNumberingRange_ok hreg).2
      rw [hs', hdb]
      exact ⟨hU.issued, hU.free, hU.apart, hU.numbers⟩
  | refused hs' => exact hs' ▸ hU
  | submitted hs' =>
      rw [hs']
      refine ⟨hU.issued, ?_, ?_, hU.numbers⟩
      · simpa [or_imp, forall_and, Phase.documentTx?] using hU.free
      · simpa [List.pairwise_append, NumbersApart, Phase.documentTx?] using hU.apart
  | @moved _ i now f r p p' ha hi hadv hs' =>
      have hx := List.mem_of_getElem? hi
      rw [hs']
      rcases hadv.db_eq_or_commit with hdb | ⟨tx, htx, -, -, hdb, rfl⟩
      · rw [hdb]
        refine ⟨hU.issued, ?_, ?_, hU.numbers⟩
        · refine forall_setPhase hi hU.free (fun tx ht => ?_) fun y _ hy => hy
          rcases hadv.documentTx_cases ht with hp | ⟨-, hnew⟩
          · exact hU.free _ hx tx hp
          · exact number_ne_of_not_taken hU hnew
        · refine pairwise_setPhase NumbersApart.symm hi hU.apart
            fun hpairs y hy a b ha hb => ?_
          rcases hadv.documentTx_cases ha with hp | ⟨hfree, -⟩
          · exact hpairs y hy a b hp hb
          · exact numbersApart_of_not_held (hfree y hy) hb
      · rw [hdb]
        exact hU.commit hi htx _

/-! ## Every run -/

/-- What a run keeps whose ranges print apart. -/
structure Identified (s : IssueState) : Prop where
  series : InSeries s
  unique : NumbersUnique s
  ranges : s.registered.Pairwise NumberingRange.PrintsApart

theorem identified {s : IssueState} (hs : issuing.ReachableBy RegistersPrintsApart s) :
    Identified s := by
  refine hs.invariant ?_ fun s a s' hr hI hc h => ?_
  · rintro s ⟨tenants, rfl⟩
    refine ⟨⟨?_, ?_⟩, ⟨?_, ?_, ?_, ?_⟩, ?_⟩ <;> simp [Db.fresh]
  · obtain ⟨hF, -, hN⟩ := issueInvariant hr.reachable
    exact ⟨inSeries_step hF hN hI.series h, numbersUnique_step hI.unique h,
      registered_pairwise hI.ranges hc h⟩

/-- The registered range of a document, with the number in it. -/
theorem Numbered.number_in_range {s : IssueState} (hN : Numbered s) {d : Document}
    (hd : d ∈ s.db.documents) {r : NumberingRange} (hr : r ∈ s.registered)
    (hrange : d.numbering_range_id = some r.id) :
    r.firstNumber ≤ d.document_number ∧ d.document_number ≤ r.to_number := by
  have hmem : d.document_number ∈ numbersOn s.db r.id :=
    List.mem_map.mpr ⟨d, List.mem_filter.mpr ⟨hd, by simpa using hrange⟩, rfl⟩
  refine ⟨?_, hN.bound r hr _ hmem⟩
  rw [hN.numbers r hr] at hmem
  exact (mem_consecutive hmem).1

/-- No two documents of one tenant and type print one identifier. -/
def PrintedOnce (db : Db) : Prop :=
  db.documents.Pairwise fun d e => d.tenant_id = e.tenant_id →
    d.document_type = e.document_type → d.printedId ≠ e.printedId

instance (db : Db) : Decidable (PrintedOnce db) :=
  inferInstanceAs (Decidable (List.Pairwise _ _))

/-- In every run that registers only ranges which print apart, each identifier is printed once. -/
theorem printed_once {s : IssueState} (hs : issuing.ReachableBy RegistersPrintsApart s) :
    PrintedOnce s.db := by
  obtain ⟨-, -, hN⟩ := issueInvariant hs.reachable
  obtain ⟨hS, hU, hR⟩ := identified hs
  refine hU.numbers.imp_of_mem fun {d e} hd he hnumbers htenant htype heq => ?_
  by_cases hpfx : d.pfx = e.pfx
  · refine hnumbers ?_ ?_
    · simp only [Document.series, htenant, htype, hpfx]
    · rw [Document.printedId, Document.printedId, hpfx] at heq
      exact printedId_number_inj heq
  · obtain ⟨r, hr, hdr, hrs⟩ := hS.documents d hd
    obtain ⟨r', hr', her, hrs'⟩ := hS.documents e he
    simp only [NumberingRange.series, Document.series, Prod.mk.injEq] at hrs hrs'
    have hne : r ≠ r' := by
      rintro rfl
      exact hpfx (hrs.2.2.symm.trans hrs'.2.2)
    have hsymm : Std.Symm NumberingRange.PrintsApart :=
      ⟨fun _ _ => NumberingRange.PrintsApart.symm⟩
    obtain ⟨hfrom, hto⟩ := hN.number_in_range hd hr hdr
    obtain ⟨hfrom', hto'⟩ := hN.number_in_range he hr' her
    refine hR.forall hr hr' hne ?_ ?_ ?_ _ _ hfrom hto hfrom' hto' ?_
    · rw [hrs.1, hrs'.1, htenant]
    · rw [hrs.2.1, hrs'.2.1, htype]
    · rw [hrs.2.2, hrs'.2.2]
      exact hpfx
    · rw [hrs.2.2, hrs'.2.2]
      exact heq

/-! ## Prefixes without digits -/

/-- A range that is registered has a prefix without digits. -/
def registersLetters : IssueAction → Bool
  | .register _ _ request => (trim request.pfx).toList.all fun c => !c.isDigit
  | _ => true

theorem checkRange_pfx {id tenant_id : Uuid} {request : RegisterNumberingRange}
    {range : NumberingRange} (h : checkRange id tenant_id request = .ok range) :
    range.pfx = trim request.pfx := by
  unfold checkRange at h
  split at h
  · cases h
  · dsimp only at h
    split_ifs at h
    split at h
    · cases h
    · cases h
      rfl

/-- Where no prefix has a digit, the ranges print apart. -/
theorem printsApart_of_letters {s : IssueState}
    (hs : issuing.ReachableBy (fun _ a => registersLetters a = true) s) :
    issuing.ReachableBy RegistersPrintsApart s ∧
      ∀ r ∈ s.registered, ∀ c ∈ r.pfx.toList, c.isDigit = false := by
  refine hs.invariant (I := fun s => issuing.ReachableBy RegistersPrintsApart s ∧
    ∀ r ∈ s.registered, ∀ c ∈ r.pfx.toList, c.isDigit = false) ?_ fun s a s' hr hI hc h => ?_
  · rintro s ⟨tenants, rfl⟩
    exact ⟨.start ⟨tenants, rfl⟩, by simp⟩
  · obtain ⟨hreach, hletters⟩ := hI
    obtain ⟨-, -, hN⟩ := issueInvariant hr.reachable
    have hfirst : ∀ r : NumberingRange, r.Registered → 0 ≤ r.firstNumber := fun r hreg => by
      have := hreg.counter_nonneg
      unfold NumberingRange.firstNumber
      omega
    have hnew : ∀ id tenant_id request, a = .register id tenant_id request → ∀ db range,
        s.db.registerNumberingRange id tenant_id request = .ok (db, range) →
        range.Registered ∧ ∀ c ∈ range.pfx.toList, c.isDigit = false := by
      rintro id tenant_id request rfl db range hreg
      obtain ⟨hcheck, -⟩ := Db.registerNumberingRange_ok hreg
      refine ⟨(checkRange_registered hcheck).1, ?_⟩
      rw [checkRange_pfx hcheck]
      simpa [registersLetters] using hc
    refine ⟨.step hreach ?_ h, ?_⟩
    · intro id tenant_id request ha db range hreg r hr
      obtain ⟨hregistered, hpfx⟩ := hnew id tenant_id request ha db range hreg
      exact .of_letters (hfirst r (hN.registered r hr)) (hfirst range hregistered)
        (hletters r hr) hpfx
    · cases issueStep_inv h with
      | registered hreg hs' =>
          rw [hs']
          intro r hr
          rcases List.mem_append.mp hr with hr | hr
          · exact hletters r hr
          · rw [List.mem_singleton.mp hr]
            exact (hnew _ _ _ rfl _ _ hreg).2
      | refused hs' => exact hs' ▸ hletters
      | submitted hs' => exact hs' ▸ hletters
      | moved _ _ _ hs' =>
          rw [hs', setPhase_registered]
          exact hletters

/-! ### Two prefixes -/

/-- The range of `sampleRange` for another prefix and first number. -/
def rangeOf (pfx : String) (first : Int) (h : InI32 first) : RegisterNumberingRange :=
  { sampleRange with
    pfx := pfx
    from_number := first
    from_i32 := h }

def requestOf (id : Uuid) (pfx : String) : Request :=
  let r := sampleRequest id none none
  { r with document := { r.document with pfx := pfx } }

theorem inI32_11 : InI32 11 := by decide

/-- A document on prefix `FE` from 11 on, and one on prefix `pfx` from 1 on. -/
def twoPrefixes (pfx : String) : List IssueAction :=
  [.register 7 1 (rangeOf "FE" 11 inI32_11), .register 8 1 (rangeOf pfx 1 sampleRange.from_i32),
    .submit (requestOf 10 "FE"), .submit (requestOf 11 pfx)] ++
  List.replicate 7 (.advance 0 5) ++ List.replicate 7 (.advance 1 6)

set_option maxRecDepth 10000 in
theorem lettersOnly_runs : (issuing.run sampleStart (twoPrefixes "SETP")).isSome = true := by
  decide

def lettersOnly : IssueState :=
  (issuing.run sampleStart (twoPrefixes "SETP")).get lettersOnly_runs

set_option maxRecDepth 10000 in
theorem printed_once_letters :
    lettersOnly.db.documents.map (·.printedId) = ["FE11", "SETP1"] ∧
      PrintedOnce lettersOnly.db :=
  ⟨by decide, printed_once (printsApart_of_letters
    (Machine.ReachableBy.get sampleStart_start (by decide) lettersOnly_runs)).1⟩

set_option maxRecDepth 10000 in
theorem digitInPrefix_runs : (issuing.run sampleStart (twoPrefixes "FE1")).isSome = true := by
  decide

def digitInPrefix : IssueState :=
  (issuing.run sampleStart (twoPrefixes "FE1")).get digitInPrefix_runs

set_option maxRecDepth 10000 in
/-- Number 11 of FE and number 1 of FE1 are both printed FE11. -/
theorem printed_twice : ¬ ∀ s, issuing.Reachable s → PrintedOnce s.db := by
  intro h
  have honce := h digitInPrefix (Machine.Reachable.get sampleStart_start digitInPrefix_runs)
  exact absurd honce (by decide)

end DianService
