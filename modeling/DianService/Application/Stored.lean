import DianService.Application.Engine
import DianService.Application.ProcessingCalls

/-
  Application: what a processing stores of a document, and what it gives a document up for. It
  stores what the generators have made of the document as it was found, with the signature that was
  asked for it; it gives up where one of the steps to that has failed.
-/

namespace DianService

open Lib Lib.Prog

/-! ## What neither stores nor gives up -/

/-- The document is given up. -/
def Call.fails : Call → Bool
  | .applyTransition t => t.target = .processingFailed
  | _ => false

def Call.looksUp : Call → Bool
  | .findNumberingRange _ => true
  | _ => false

def Plain (c : Call) : Prop := c.stores = false ∧ c.fails = false ∧ c.looksUp = false

section Plain

variable {ε : Type} (job : Job) (document : Document) (config : ProcessorConfig) (ubl : UblEngine)

theorem only_newEvent (status : EventStatus) (code message : String) :
    Only Plain (newEvent document.id status code message : Service ε DianEvent).run :=
  .run_bind (.run_lift ⟨⟨rfl, rfl, rfl⟩, fun _ => trivial⟩) fun _ =>
    .run_bind (.run_lift ⟨⟨rfl, rfl, rfl⟩, fun _ => trivial⟩) fun _ => trivial

theorem only_transition {t : Transition} (h : t.target ≠ .processingFailed) :
    Only Plain (transition job t).run := by
  refine .run_bind ⟨⟨rfl, decide_eq_false h, rfl⟩, fun _ => trivial⟩ fun applied => ?_
  cases applied with
  | false => exact ⟨⟨rfl, rfl, rfl⟩, fun _ => trivial⟩
  | true => trivial

theorem only_closeWith {status : DocumentStatus} (h : status ≠ .processingFailed)
    (event_status : EventStatus) (response : DianResponse) :
    Only Plain (closeWith job document status event_status response).run :=
  .run_bind (.run_bind (only_newEvent document _ _ _) fun _ => trivial) fun _ =>
    only_transition job h

theorem only_afterBackoff (attempts : Int) : Only Plain (afterBackoff attempts).run :=
  .run_bind (.run_lift ⟨⟨rfl, rfl, rfl⟩, fun _ => trivial⟩) fun _ =>
    .run_bind (.run_lift ⟨⟨rfl, rfl, rfl⟩, fun _ => trivial⟩) fun _ => trivial

theorem only_transmissionFailed (error : DomainError) :
    Only Plain (transmissionFailed job document error).run := by
  refine .run_bind (.run_lift ⟨⟨rfl, rfl, rfl⟩, fun _ => trivial⟩) fun _ =>
    .run_bind (only_newEvent document _ _ _) fun event => ?_
  split
  · exact only_transition job nofun
  · exact .run_bind ⟨⟨rfl, rfl, rfl⟩, fun _ => trivial⟩ fun _ =>
      .run_bind (only_afterBackoff _) fun _ => ⟨⟨rfl, rfl, rfl⟩, fun _ => trivial⟩

theorem only_releaseAfterCooldown : Only Plain (releaseAfterCooldown config job).run :=
  .run_bind (.run_lift ⟨⟨rfl, rfl, rfl⟩, fun _ => trivial⟩) fun _ => ⟨⟨rfl, rfl, rfl⟩, fun _ => trivial⟩

theorem only_acceptedBefore (a : Artifacts) : Only Plain (acceptedBefore job document a).run := by
  unfold acceptedBefore
  split
  · refine .run_bind (.run_lift ⟨⟨rfl, rfl, rfl⟩, fun _ => trivial⟩) fun reply => ?_
    cases reply with
    | error e => trivial
    | ok status =>
      dsimp only
      split <;> trivial
  · trivial

theorem only_attachedDocument (a : Artifacts) (dian_response_xml : String) :
    Only Plain (attachedDocument ubl document a dian_response_xml : Service ε Unit).run := by
  refine .run_bind (.run_lift ?_) fun _ => trivial
  refine .run_bind trivial fun payload => .run_bind (.run_lift ⟨⟨rfl, rfl, rfl⟩, fun _ => trivial⟩) fun now => ?_
  refine .run_bind (.run_lift ⟨⟨rfl, rfl, rfl⟩, fun _ => trivial⟩) fun id => .run_bind trivial fun xml => ?_
  exact .run_bind (.run_lift ⟨⟨rfl, rfl, rfl⟩, fun _ => trivial⟩) fun signed => .run_bind trivial fun _ => trivial

theorem only_sendTestSet (zip : List UInt8) (test_set_id : String) :
    Only Plain (sendTestSet config job document zip test_set_id).run := by
  refine .run_bind (.run_lift ⟨⟨rfl, rfl, rfl⟩, fun _ => trivial⟩) fun reply => ?_
  cases reply with
  | error e => exact only_transmissionFailed job document e
  | ok zip_key =>
    refine .run_bind (.run_lift ⟨⟨rfl, rfl, rfl⟩, fun _ => trivial⟩) fun _ =>
      .run_bind (.run_lift ⟨⟨rfl, rfl, rfl⟩, fun _ => trivial⟩) fun now =>
        .run_bind (only_newEvent document _ _ _) fun event => ?_
    exact .run_bind (.run_lift ⟨⟨rfl, rfl, rfl⟩, fun _ => trivial⟩) fun poll_id =>
      only_transition job nofun

theorem only_sendBill (a : Artifacts) (zip : List UInt8) :
    Only Plain (sendBill ubl job document a zip).run := by
  refine .run_bind (.run_lift ⟨⟨rfl, rfl, rfl⟩, fun _ => trivial⟩) fun reply => ?_
  cases reply with
  | error e => exact only_transmissionFailed job document e
  | ok response =>
    refine .run_bind (.run_lift ⟨⟨rfl, rfl, rfl⟩, fun _ => trivial⟩) fun _ => ?_
    split
    · refine .run_bind (only_closeWith job document (by simp) _ response) fun _ => ?_
      split
      · exact only_attachedDocument document ubl a _
      · trivial
    · exact only_closeWith job document (by simp) _ response

theorem only_pollAgain (outcome : String) : Only Plain (pollAgain job document outcome).run := by
  unfold pollAgain
  split
  · exact .run_bind (only_newEvent document _ _ _) fun _ =>
      .run_bind ⟨⟨rfl, rfl, rfl⟩, fun _ => trivial⟩ fun _ => ⟨⟨rfl, rfl, rfl⟩, fun _ => trivial⟩
  · exact .run_bind (only_afterBackoff _) fun _ => ⟨⟨rfl, rfl, rfl⟩, fun _ => trivial⟩

theorem only_pollStatus (zip_key : String) :
    Only Plain (pollStatus job document zip_key).run := by
  refine .run_bind (.run_lift ⟨⟨rfl, rfl, rfl⟩, fun _ => trivial⟩) fun reply => ?_
  cases reply with
  | error e =>
    exact .run_bind (.run_lift ⟨⟨rfl, rfl, rfl⟩, fun _ => trivial⟩) fun _ => only_pollAgain job document _
  | ok response =>
    refine .run_bind (.run_lift ⟨⟨rfl, rfl, rfl⟩, fun _ => trivial⟩) fun _ => ?_
    dsimp only
    split
    · exact only_closeWith job document (by simp) _ response
    · split
      · exact only_closeWith job document (by simp) _ response
      · exact only_pollAgain job document _

theorem only_poll : Only Plain (poll config job).run := by
  refine .run_bind ⟨⟨rfl, rfl, rfl⟩, fun _ => trivial⟩ fun found => ?_
  cases found with
  | none => exact ⟨⟨rfl, rfl, rfl⟩, fun _ => trivial⟩
  | some document =>
    dsimp only
    split
    · exact ⟨⟨rfl, rfl, rfl⟩, fun _ => trivial⟩
    · split
      · exact ⟨⟨rfl, rfl, rfl⟩, fun _ => trivial⟩
      · refine .run_bind (.run_lift ⟨⟨rfl, rfl, rfl⟩, fun _ => trivial⟩) fun allowed => ?_
        cases allowed with
        | true => exact only_pollStatus job document _
        | false => exact only_releaseAfterCooldown job config

end Plain

/-! ## What is stored, and what is given up -/

section Stored

variable (ubl : UblEngine) (config : ProcessorConfig) {job : Job}

/-- Only the range of the document is looked up. -/
def LooksUp (document : Document) (c : Call) : Prop :=
  ∃ id, document.numbering_range_id = some id ∧ c = .findNumberingRange id

theorem only_technicalKey (document : Document) (payload : InvoicePayload) :
    Only (LooksUp document) (technicalKey document payload).run := by
  unfold technicalKey
  split
  · rename_i id hid
    refine .run_bind (.run_lift ⟨⟨id, hid, rfl⟩, fun _ => trivial⟩) fun reply =>
      .run_bind trivial fun range => ?_
    cases range <;> trivial
  · split <;> trivial

theorem only_generate (document : Document) :
    Only (LooksUp document) (generate ubl document).run := by
  unfold generate
  split
  · exact .run_bind trivial fun payload =>
      .run_bind (only_technicalKey document payload) fun _ => trivial
  all_goals exact .run_bind trivial fun _ => trivial

/-- What a generation has looked up, and where it ends for that. -/
inductive LookedUp {α : Type} (document : Document) : History → Except String α → Prop where
  | nothing {r : Except String α} : LookedUp document [] r
  | found {id : Uuid} {range : NumberingRange} {r : Except String α}
      (hid : document.numbering_range_id = some id) :
      LookedUp document [⟨.findNumberingRange id, .ok (some range)⟩] r
  | missing {id : Uuid} {reason : String} (hid : document.numbering_range_id = some id) :
      LookedUp document [⟨.findNumberingRange id, .ok none⟩] (.error reason)
  | unavailable {id : Uuid} {e : DomainError} {reason : String}
      (hid : document.numbering_range_id = some id) :
      LookedUp document [⟨.findNumberingRange id, .error e⟩] (.error reason)

theorem technicalKey_looks (document : Document) (payload : InvoicePayload) :
    wp (fun _ _ => True) (LookedUp document) [] (technicalKey document payload).run := by
  unfold technicalKey
  split
  · rename_i id hid
    simp only [wp_run_bind, wp_findNumberingRange, wp_run_ofExcept]
    refine ⟨trivial, fun reply => ?_⟩
    cases reply with
    | error e => exact .unavailable hid
    | ok found =>
      cases found with
      | none => exact .missing hid
      | some range => exact .found hid
  · split <;> exact .nothing

theorem generate_looks (document : Document) :
    wp (fun _ _ => True) (LookedUp document) [] (generate ubl document).run := by
  unfold generate
  split
  · simp only [wp_run_bind, wp_run_ofExcept]
    split
    · refine wp_post (technicalKey_looks document _) fun t key hlooks => ?_
      cases hlooks with
      | nothing => split <;> exact .nothing
      | found hid => split <;> exact .found hid
      | missing hid => exact .missing hid
      | unavailable hid => exact .unavailable hid
    · exact .nothing
  all_goals
    simp only [wp_run_bind, wp_run_ofExcept]
    split <;> exact .nothing

/-- A run of the generators that made the XML and the code of a document as it was found. -/
structure StoredOf (job : Job) (t : History) (d : Document) (cufe original_xml signed_xml : String) :
    Prop where
  found : Found job t d
  generated : ∃ q : History, (∀ e ∈ q, e ∈ t) ∧
    Runs (generate ubl d).run q (.ok (original_xml, cufe))
  signed : (⟨.signForTenant d.tenant_id original_xml, .ok signed_xml⟩ : Exchange Call Reply) ∈ t

/-- A step to a signed XML of the document has failed. -/
inductive Blocked (d : Document) (t : History) : Prop where
  | unread {reason : String} (h : issuerNit ubl d = .error reason)
  | ungenerated {q : History} {reason : String} (hq : ∀ e ∈ q, e ∈ t)
      (h : Runs (generate ubl d).run q (.error reason))
  | unsigned {xml : String} {e : DomainError}
      (h : (⟨.signForTenant d.tenant_id xml, .error e⟩ : Exchange Call Reply) ∈ t)
  | unstored {cufe original_xml signed_xml : String} {e : DomainError}
      (h : (⟨.storeArtifacts d.id cufe original_xml signed_xml, .error e⟩ :
        Exchange Call Reply) ∈ t)
  | unpacked {signed_xml issuer_nit reason : String}
      (h : ubl.compress_xml_to_zip signed_xml issuer_nit d.pfx d.document_number = .error reason)

def WorkCall (job : Job) (t : History) : Call → Prop
  | .storeArtifacts id cufe original_xml signed_xml =>
      ∃ d, d.id = id ∧ StoredOf ubl job t d cufe original_xml signed_xml
  | .applyTransition tr => tr.target = .processingFailed →
      ∃ d, d.id = tr.document_id ∧ Found job t d ∧ Blocked ubl d t
  | .findNumberingRange id => ∃ d, Found job t d ∧ d.numbering_range_id = some id
  | _ => True

variable {ubl}

theorem Blocked.append {d : Document} {t : History} (h : Blocked ubl d t) (q : History) :
    Blocked ubl d (t ++ q) := by
  cases h with
  | unread h => exact .unread h
  | ungenerated hq h => exact .ungenerated (fun e he => List.mem_append_left _ (hq e he)) h
  | unsigned h => exact .unsigned (List.mem_append_left _ h)
  | unstored h => exact .unstored (List.mem_append_left _ h)
  | unpacked h => exact .unpacked h

theorem workCall_of_plain (t : History) (c : Call) (h : Plain c) : WorkCall ubl job t c := by
  cases c with
  | storeArtifacts => cases h.1
  | findNumberingRange => cases h.2.2
  | applyTransition tr => exact fun hfails => absurd hfails (of_decide_eq_false h.2.1)
  | _ => trivial

theorem work_of_plain {α : Type} {t : History} {p : Prog Call Reply α} (h : Only Plain p) :
    wp (WorkCall ubl job) (fun _ _ => True) t p :=
  h.wp workCall_of_plain fun _ _ => trivial

theorem work_fail {d : Document} {t : History} (hfound : Found job t d) (h : Blocked ubl d t)
    (reason : String) :
    wp (WorkCall ubl job) (fun _ _ => True) t (fail job d reason).run := by
  simp only [fail, transition, newEvent, wp_run_bind, wp_newUuid, wp_utcNow, wp_run_pure,
    wp_applyTransition]
  refine ⟨trivial, fun id => ⟨trivial, fun now => ⟨fun _ => ⟨d, rfl, ?_, ?_⟩, fun applied => ?_⟩⟩⟩
  · exact List.mem_append_left _ (List.mem_append_left _ hfound)
  · exact (h.append _).append _
  · split
    · split
      · trivial
      · exact ⟨trivial, fun _ => trivial⟩
    · trivial

/-- Where there are no artifacts, the document is blocked. -/
theorem work_artifacts {d : Document} {t : History} (hfound : Found job t d) :
    wp (WorkCall ubl job) (fun t' r => Found job t' d ∧ ∀ reason, r = .error reason →
      Blocked ubl d t') t (artifacts ubl d).run := by
  unfold artifacts
  simp only [wp_run_bind, wp_run_ofExcept]
  split
  · split
    · exact ⟨hfound, fun reason h => by cases h⟩
    · simp only [wp_run_bind]
      have hlooks : ∀ q c, LooksUp d c → WorkCall ubl job (t ++ q) c := by
        rintro q c ⟨id, hid, rfl⟩
        exact ⟨d, List.mem_append_left _ hfound, hid⟩
      refine wp_post ((only_generate ubl d).wp_runs hlooks) ?_
      rintro _ generated ⟨q, rfl, hruns, -⟩
      have hfound := List.mem_append_left q hfound
      have hq : ∀ e ∈ q, e ∈ t ++ q := fun e he => List.mem_append_right _ he
      split
      · rename_i xml
        simp only [wp_signForTenant, wp_run_ofExcept]
        refine ⟨trivial, fun signed => ?_⟩
        have hsigned : (⟨.signForTenant d.tenant_id xml.1, signed⟩ : Exchange Call Reply) ∈
            t ++ q ++ [⟨.signForTenant d.tenant_id xml.1, signed⟩] :=
          List.mem_append_right _ (List.mem_singleton_self _)
        cases signed with
        | error e => exact ⟨List.mem_append_left _ hfound, fun _ _ => .unsigned hsigned⟩
        | ok signed_xml =>
          simp only [Except.mapError, wp_storeArtifacts]
          refine ⟨⟨d, rfl, List.mem_append_left _ hfound,
            ⟨q, fun e he => List.mem_append_left _ (hq e he), hruns⟩, hsigned⟩, fun stored => ?_⟩
          have hfound := List.mem_append_left
            [⟨.storeArtifacts d.id xml.2 xml.1 signed_xml, stored⟩] (List.mem_append_left
              [⟨.signForTenant d.tenant_id xml.1, .ok signed_xml⟩] hfound)
          cases stored with
          | ok u => exact ⟨hfound, fun reason h => by cases h⟩
          | error e =>
            exact ⟨hfound, fun _ _ => .unstored (List.mem_append_right _ (List.mem_singleton_self _))⟩
      · exact ⟨hfound, fun _ _ => .ungenerated hq hruns⟩
  · rename_i hread
    exact ⟨hfound, fun _ _ => .unread hread⟩

theorem work_submit {d : Document} {t : History} (hfound : Found job t d) (a : Artifacts) :
    wp (WorkCall ubl job) (fun _ _ => True) t (submit ubl config job d a).run := by
  unfold submit
  split
  · rename_i hzip
    exact work_fail hfound (.unpacked hzip) _
  · split
    · exact work_of_plain (only_sendTestSet job d config _ _)
    · exact work_of_plain (only_sendBill job d ubl a _)

theorem work_transmitPending {d : Document} {t : History} (hfound : Found job t d) :
    wp (WorkCall ubl job) (fun _ _ => True) t (transmitPending ubl config job d).run := by
  simp only [transmitPending, wp_run_bind, wp_canExecute]
  refine ⟨trivial, fun allowed => ?_⟩
  cases allowed with
  | false => exact work_of_plain (only_releaseAfterCooldown job config)
  | true =>
    simp only [if_true, wp_run_bind, ExceptT.run_lift, wp_map_ok]
    refine wp_post (work_artifacts (List.mem_append_left _ hfound)) fun t' result hresult => ?_
    obtain ⟨hfound, hblocked⟩ := hresult
    cases result with
    | error reason => exact work_fail hfound (hblocked reason rfl) reason
    | ok a =>
      simp only [wp_run_bind]
      refine wp_post ((only_acceptedBefore job d a).wp_runs fun q => workCall_of_plain (t' ++ q)) ?_
      rintro _ before ⟨q, rfl, -⟩
      split
      · rename_i before
        cases before with
        | none => exact work_submit config (List.mem_append_left _ hfound) a
        | some status =>
          exact work_of_plain (.run_bind (.run_lift ⟨⟨rfl, rfl, rfl⟩, fun _ => trivial⟩) fun _ =>
            only_closeWith job d (by simp) _ status)
      · trivial

variable (ubl)

/-- Every call of a processing, whatever the replies before it. -/
theorem process_works (job : Job) :
    wp (WorkCall ubl job) (fun _ _ => True) [] (process ubl config job).run := by
  unfold process
  cases job.kind with
  | pollStatus => exact work_of_plain (only_poll job config)
  | transmit =>
    simp only [transmit, wp_run_bind, wp_findDocument]
    refine ⟨trivial, fun found => ?_⟩
    split
    · rename_i found
      cases found with
      | none => exact ⟨trivial, fun _ => trivial⟩
      | some d =>
        dsimp only
        split
        · exact ⟨trivial, fun _ => trivial⟩
        · exact work_transmitPending config (List.mem_singleton_self _)
    · trivial

end Stored

/-! ## What it says -/

section Generated

variable {A : Arithmetic} {k : Ubl.Codes} {J : Ubl.Floats}
  {compress : String → String → String → Int → Except String (List UInt8 × String)}
  {d : Document} {p : Ubl.Payload}

/-- Every lookup of a range is answered with the range, and nothing else goes well. -/
def rangeAnswer (range : NumberingRange) : ∀ c, Reply c
  | .findNumberingRange _ => .ok (some range)
  | .findDocument _ | .storeArtifacts .. | .recordEvent _ | .applyTransition _ | .complete _
  | .retry .. | .release .. | .bury .. | .signForTenant .. | .sendBillSync .. | .sendTestSetAsync ..
  | .getStatus .. | .getStatusZip .. => .error (.internal "")
  | .canExecute _ => false
  | .recordSuccess _ | .recordFailure _ => ()
  | .utcNow | .newUuid | .backoffWithJitter _ => 0

/-- A generation ends as it does with the range of the document, unless that is not found. -/
theorem generate_ends (h : d.Carries A J p) (hnumber : InI32 d.document_number) {id : Uuid}
    (hid : d.numbering_range_id = some id) (range : NumberingRange) {q : History}
    {r : Except String (String × String)}
    (hruns : Runs (generate (ublEngine A k J compress) d).run q r) :
    (∃ found xml code, (found = range ∨
        (⟨.findNumberingRange id, .ok (some found)⟩ : Exchange Call Reply) ∈ q) ∧
      r = .ok (xml, code) ∧ (d.reads p).Prints k found.technical_key xml code) ∨
      (∃ reason, r = .error reason) ∧ (⟨.findNumberingRange id, .ok none⟩ ∈ q ∨
        ∃ e, ⟨.findNumberingRange id, .error e⟩ ∈ q) := by
  have hprints : ∀ found : NumberingRange,
      (∀ e ∈ q, e.reply = rangeAnswer found e.call) → ∃ xml code, r = .ok (xml, code) ∧
        (d.reads p).Prints k found.technical_key xml code := by
    intro found hanswers
    have hfound : RangeFound d (rangeAnswer found) found := ⟨id, hid, rfl⟩
    obtain ⟨xml, code, hrun, hprints⟩ := @generate_run A k J compress d p h hnumber _ found hfound
    rw [hruns.runWith_eq hanswers] at hrun
    exact ⟨xml, code, hrun, hprints⟩
  have hlooks := end_of_path (generate_looks _ d) hruns
  cases hlooks with
  | nothing =>
    obtain ⟨xml, code, hr, hprints⟩ := hprints range (List.forall_mem_nil _)
    exact .inl ⟨range, xml, code, .inl rfl, hr, hprints⟩
  | @found id' found _ hid' =>
    rw [hid] at hid'
    cases hid'
    obtain ⟨xml, code, hr, hprints⟩ := hprints found fun e he => by
      rw [List.mem_singleton.mp he]
      rfl
    exact .inl ⟨found, xml, code, .inr (List.mem_singleton_self _), hr, hprints⟩
  | missing hid' =>
    rw [hid] at hid'
    cases hid'
    exact .inr ⟨⟨_, rfl⟩, .inl (List.mem_singleton_self _)⟩
  | unavailable hid' =>
    rw [hid] at hid'
    cases hid'
    exact .inr ⟨⟨_, rfl⟩, .inr ⟨_, List.mem_singleton_self _⟩⟩

end Generated

end DianService
