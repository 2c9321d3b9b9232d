import DianService.Application.Processing

/-
  Application: when a processing makes which call. `ProcessCall job t c` is what holds whenever
  the processing of `job` calls `c` after the exchanges `t`: it works on its own document and
  job, sends at most once, settles the job at most once, and moves the document for a reason
  found in `t`. `process_calls` proves it of every call of every run, whatever the replies.
-/

namespace DianService

open Lib Lib.Prog

/-! ## One rule for each port -/

section Ports

variable {P : History → Call → Prop} {t : History} {ε : Type}

@[simp] theorem wp_run_ofExcept {α : Type} (r : Except ε α) {Q : History → Except ε α → Prop} :
    wp P Q t (ofExcept r).run ↔ Q t r := Iff.rfl

@[simp] theorem wp_findDocument (id : Uuid)
    {Q : History → Except DomainError (Option Document) → Prop} :
    wp P Q t (findDocument id).run ↔
      P t (.findDocument id) ∧ ∀ r, Q (t ++ [⟨.findDocument id, r⟩]) r := Iff.rfl

@[simp] theorem wp_recordEvent (event : DianEvent) {Q : History → Except DomainError Unit → Prop} :
    wp P Q t (recordEvent event).run ↔
      P t (.recordEvent event) ∧ ∀ r, Q (t ++ [⟨.recordEvent event, r⟩]) r := Iff.rfl

@[simp] theorem wp_applyTransition (tr : Transition) {Q : History → Except DomainError Bool → Prop} :
    wp P Q t (applyTransition tr).run ↔
      P t (.applyTransition tr) ∧ ∀ r, Q (t ++ [⟨.applyTransition tr, r⟩]) r := Iff.rfl

@[simp] theorem wp_complete (id : Uuid) {Q : History → Except DomainError Unit → Prop} :
    wp P Q t (complete id).run ↔
      P t (.complete id) ∧ ∀ r, Q (t ++ [⟨.complete id, r⟩]) r := Iff.rfl

@[simp] theorem wp_retry (id : Uuid) (run_at : Time) (error : String)
    {Q : History → Except DomainError Unit → Prop} :
    wp P Q t (retry id run_at error).run ↔
      P t (.retry id run_at error) ∧ ∀ r, Q (t ++ [⟨.retry id run_at error, r⟩]) r := Iff.rfl

@[simp] theorem wp_release (id : Uuid) (run_at : Time)
    {Q : History → Except DomainError Unit → Prop} :
    wp P Q t (release id run_at).run ↔
      P t (.release id run_at) ∧ ∀ r, Q (t ++ [⟨.release id run_at, r⟩]) r := Iff.rfl

@[simp] theorem wp_bury (id : Uuid) (error : String)
    {Q : History → Except DomainError Unit → Prop} :
    wp P Q t (bury id error).run ↔
      P t (.bury id error) ∧ ∀ r, Q (t ++ [⟨.bury id error, r⟩]) r := Iff.rfl

theorem wp_run_lift_request (c : Call) {Q : History → Except ε (Reply c) → Prop} :
    wp P Q t (ExceptT.lift (request c)).run ↔ P t c ∧ ∀ r, Q (t ++ [⟨c, r⟩]) (.ok r) := by
  show wp P Q t (Except.ok <$> request c) ↔ _
  simp

@[simp] theorem wp_findNumberingRange (id : Uuid)
    {Q : History → Except ε (Except DomainError (Option NumberingRange)) → Prop} :
    wp P Q t (findNumberingRange id).run ↔
      P t (.findNumberingRange id) ∧ ∀ r, Q (t ++ [⟨.findNumberingRange id, r⟩]) (.ok r) :=
  wp_run_lift_request (.findNumberingRange id)

@[simp] theorem wp_storeArtifacts (id : Uuid) (cufe original_xml signed_xml : String)
    {Q : History → Except ε (Except DomainError Unit) → Prop} :
    wp P Q t (storeArtifacts id cufe original_xml signed_xml).run ↔
      P t (.storeArtifacts id cufe original_xml signed_xml) ∧
        ∀ r, Q (t ++ [⟨.storeArtifacts id cufe original_xml signed_xml, r⟩]) (.ok r) :=
  wp_run_lift_request (.storeArtifacts id cufe original_xml signed_xml)

@[simp] theorem wp_signForTenant (tenant_id : Uuid) (xml : String)
    {Q : History → Except ε (Except DomainError String) → Prop} :
    wp P Q t (signForTenant tenant_id xml).run ↔
      P t (.signForTenant tenant_id xml) ∧
        ∀ r, Q (t ++ [⟨.signForTenant tenant_id xml, r⟩]) (.ok r) :=
  wp_run_lift_request (.signForTenant tenant_id xml)

@[simp] theorem wp_sendBillSync (tenant_id : Uuid) (zip : List UInt8) (is_hab : Bool)
    {Q : History → Except ε (Except DomainError DianResponse) → Prop} :
    wp P Q t (sendBillSync tenant_id zip is_hab).run ↔
      P t (.sendBillSync tenant_id zip is_hab) ∧
        ∀ r, Q (t ++ [⟨.sendBillSync tenant_id zip is_hab, r⟩]) (.ok r) :=
  wp_run_lift_request (.sendBillSync tenant_id zip is_hab)

@[simp] theorem wp_sendTestSetAsync (tenant_id : Uuid) (zip : List UInt8) (test_set_id : String)
    (is_hab : Bool) {Q : History → Except ε (Except DomainError String) → Prop} :
    wp P Q t (sendTestSetAsync tenant_id zip test_set_id is_hab).run ↔
      P t (.sendTestSetAsync tenant_id zip test_set_id is_hab) ∧
        ∀ r, Q (t ++ [⟨.sendTestSetAsync tenant_id zip test_set_id is_hab, r⟩]) (.ok r) :=
  wp_run_lift_request (.sendTestSetAsync tenant_id zip test_set_id is_hab)

@[simp] theorem wp_getStatus (tenant_id : Uuid) (cufe : String) (is_hab : Bool)
    {Q : History → Except ε (Except DomainError DianResponse) → Prop} :
    wp P Q t (getStatus tenant_id cufe is_hab).run ↔
      P t (.getStatus tenant_id cufe is_hab) ∧
        ∀ r, Q (t ++ [⟨.getStatus tenant_id cufe is_hab, r⟩]) (.ok r) :=
  wp_run_lift_request (.getStatus tenant_id cufe is_hab)

@[simp] theorem wp_getStatusZip (tenant_id : Uuid) (zip_key : String) (is_hab : Bool)
    {Q : History → Except ε (Except DomainError DianResponse) → Prop} :
    wp P Q t (getStatusZip tenant_id zip_key is_hab).run ↔
      P t (.getStatusZip tenant_id zip_key is_hab) ∧
        ∀ r, Q (t ++ [⟨.getStatusZip tenant_id zip_key is_hab, r⟩]) (.ok r) :=
  wp_run_lift_request (.getStatusZip tenant_id zip_key is_hab)

@[simp] theorem wp_canExecute (is_hab : Bool) {Q : History → Except ε Bool → Prop} :
    wp P Q t (canExecute is_hab).run ↔
      P t (.canExecute is_hab) ∧ ∀ r, Q (t ++ [⟨.canExecute is_hab, r⟩]) (.ok r) :=
  wp_run_lift_request (.canExecute is_hab)

@[simp] theorem wp_recordSuccess (is_hab : Bool) {Q : History → Except ε Unit → Prop} :
    wp P Q t (recordSuccess is_hab).run ↔
      P t (.recordSuccess is_hab) ∧ ∀ r, Q (t ++ [⟨.recordSuccess is_hab, r⟩]) (.ok r) :=
  wp_run_lift_request (.recordSuccess is_hab)

@[simp] theorem wp_recordFailure (is_hab : Bool) {Q : History → Except ε Unit → Prop} :
    wp P Q t (recordFailure is_hab).run ↔
      P t (.recordFailure is_hab) ∧ ∀ r, Q (t ++ [⟨.recordFailure is_hab, r⟩]) (.ok r) :=
  wp_run_lift_request (.recordFailure is_hab)

@[simp] theorem wp_utcNow {Q : History → Except ε Time → Prop} :
    wp P Q t utcNow.run ↔ P t .utcNow ∧ ∀ r, Q (t ++ [⟨.utcNow, r⟩]) (.ok r) :=
  wp_run_lift_request .utcNow

@[simp] theorem wp_newUuid {Q : History → Except ε Uuid → Prop} :
    wp P Q t newUuid.run ↔ P t .newUuid ∧ ∀ r, Q (t ++ [⟨.newUuid, r⟩]) (.ok r) :=
  wp_run_lift_request .newUuid

@[simp] theorem wp_backoffWithJitter (attempt : Int) {Q : History → Except ε Int → Prop} :
    wp P Q t (backoffWithJitter attempt).run ↔
      P t (.backoffWithJitter attempt) ∧ ∀ r, Q (t ++ [⟨.backoffWithJitter attempt, r⟩]) (.ok r) :=
  wp_run_lift_request (.backoffWithJitter attempt)

end Ports

/-! ## What a processing knows -/

/-- The status a document has when a job of the kind is due. -/
def JobKind.entry : JobKind → DocumentStatus
  | .transmit => .pending
  | .pollStatus => .sentDian

def Found (job : Job) (t : History) (d : Document) : Prop :=
  ⟨.findDocument job.document_id, .ok (some d)⟩ ∈ t

/-- The call may settle the job or move its document: all but a transition that was not
    applied. -/
def settles : Exchange Call Reply → Bool
  | ⟨.complete _, _⟩ | ⟨.retry .., _⟩ | ⟨.release .., _⟩ | ⟨.bury .., _⟩ => true
  | ⟨.applyTransition _, .ok false⟩ => false
  | ⟨.applyTransition _, _⟩ => true
  | _ => false

def Call.isSend : Call → Bool
  | .sendBillSync .. => true
  | _ => false

/-- The calls that submit a document or ask for the outcome of a submission. -/
def Call.isSubmission : Call → Bool
  | .sendBillSync .. | .sendTestSetAsync .. | .getStatusZip .. => true
  | _ => false

theorem Call.isSubmission_of_isSend {c : Call} (h : c.isSend = true) : c.isSubmission = true := by
  cases c <;> first | rfl | cases h

def Call.stores : Call → Bool
  | .storeArtifacts .. => true
  | _ => false

def Unsettled (t : History) : Prop := ∀ e ∈ t, settles e = false

def Unsent (t : History) : Prop := ∀ e ∈ t, e.call.isSubmission = false

def Unstored (t : History) : Prop := ∀ e ∈ t, e.call.stores = false

/-- The document was found in the status its job is due in, and the job is still open. -/
structure Working (job : Job) (d : Document) (t : History) : Prop where
  found : Found job t d
  entry : d.status = job.kind.entry
  unsettled : Unsettled t

/-- A document response of the DIAN. -/
def dianAnswer? : Exchange Call Reply → Option DianResponse
  | ⟨.sendBillSync .., .ok r⟩ | ⟨.getStatus .., .ok r⟩ | ⟨.getStatusZip .., .ok r⟩ => some r
  | _ => none

def AnsweredAccepted (t : History) : Prop :=
  ∃ e ∈ t, ∃ r, dianAnswer? e = some r ∧ r.status_code ∈ ACCEPTED_CODES

/-- A rejection, or a code that `send_bill_sync` takes for one. -/
def AnsweredRejected (t : History) : Prop :=
  ∃ e ∈ t, ∃ r, dianAnswer? e = some r ∧
    (r.status_code = REJECTED_CODE ∨ e.call.isSend = true ∧ r.status_code ∉ ACCEPTED_CODES)

/-- The CUFE of the document: the stored one, or the one this processing stored. -/
def CufeOf (d : Document) (t : History) (cufe : String) : Prop :=
  d.cufe_cude = cufe ∨ ∃ original_xml signed_xml,
    (⟨.storeArtifacts d.id cufe original_xml signed_xml, .ok ()⟩ : Exchange Call Reply) ∈ t

/-- The document has no signed XML that could be used again. -/
def Unsigned (d : Document) : Prop := d.signed_xml = none ∨ d.cufe_cude = ""

/-- The signed XML a processing works with: the stored one, or the one it signed and stored. -/
def SignedAs (d : Document) (t : History) (signed_xml cufe : String) : Prop :=
  (Unstored t ∧ d.signed_xml = some signed_xml ∧ d.cufe_cude = cufe ∧ cufe ≠ "") ∨
  ∃ original_xml, (⟨.storeArtifacts d.id cufe original_xml signed_xml, .ok ()⟩ :
    Exchange Call Reply) ∈ t

/-- The ZIP of the signed XML. -/
def Packs (ubl : UblEngine) (d : Document) (t : History) (zip : List UInt8) : Prop :=
  ∃ signed_xml cufe nit name, SignedAs d t signed_xml cufe ∧
    ubl.compress_xml_to_zip signed_xml nit d.pfx d.document_number = .ok (zip, name)

/-- The DIAN was asked for the status of the document and did not report it accepted. -/
def AskedStatus (d : Document) (t : History) : Prop :=
  ∃ cufe r, CufeOf d t cufe ∧
    (⟨.getStatus d.tenant_id cufe (isHabilitacion d), r⟩ : Exchange Call Reply) ∈ t ∧
    ∀ response, r = .ok response → response.status_code ∉ ACCEPTED_CODES

/-- The document was found in another status than the one its job is due in, or a transition
    from that status was not applied. -/
def MovedOn (job : Job) (t : History) : Prop :=
  (∃ d, Found job t d ∧ d.status ≠ job.kind.entry) ∨
  ∃ d tr, Found job t d ∧ (⟨.applyTransition tr, .ok false⟩ : Exchange Call Reply) ∈ t ∧
    tr.document_id = d.id ∧ job.kind.entry ∈ tr.target.allowedPredecessors

/-- The transitions a processing asks for, and what each rests on. -/
def TransitionFor (job : Job) (d : Document) (t : History) (tr : Transition) : Prop :=
  tr.document_id = d.id ∧
  match tr.target with
  | .dianAccepted =>
      tr.job = some (.complete job.id) ∧ tr.follow_up = none ∧ AnsweredAccepted t
  | .dianRejected =>
      tr.job = some (.complete job.id) ∧ tr.follow_up = none ∧ AnsweredRejected t
  | .processingFailed =>
      job.kind = .transmit ∧ tr.job = some (.complete job.id) ∧ tr.follow_up = none
  | .contingencyPending =>
      job.kind = .transmit ∧ (∃ m, tr.job = some (.bury job.id m)) ∧ tr.follow_up = none
  | .sentDian =>
      job.kind = .transmit ∧ tr.job = some (.complete job.id) ∧
        ∃ event zip_key poll_id max_attempts run_at, tr.event = some event ∧
          event.document_id = d.id ∧ event.event_status = .sent ∧
          event.soap_trace_id = some zip_key ∧
          tr.follow_up = some (.pollStatus poll_id d.id zip_key max_attempts run_at)
  | _ => False

/-- The generators never return an empty CUFE. -/
structure UblEngine.ComputesCufe (ubl : UblEngine) : Prop where
  invoice : ∀ payload key xml cufe, ubl.generate_invoice_xml payload key = .ok (xml, cufe) → cufe ≠ ""
  payroll : ∀ payload xml cufe, ubl.generate_payroll_xml payload = .ok (xml, cufe) → cufe ≠ ""
  support_document : ∀ payload xml cufe,
    ubl.generate_support_document_xml payload = .ok (xml, cufe) → cufe ≠ ""

def ProcessCall (ubl : UblEngine) (job : Job) (t : History) : Call → Prop
  | .findDocument id => id = job.document_id ∧ t = []
  | .storeArtifacts id cufe .. => ∃ d, Working job d t ∧ id = d.id ∧ job.kind = .transmit ∧
      Unsigned d ∧ Unstored t ∧ (ubl.ComputesCufe → cufe ≠ "")
  | .applyTransition tr => ∃ d, Working job d t ∧ TransitionFor job d t tr
  | .complete id => id = job.id ∧ Unsettled t ∧ MovedOn job t
  | .retry id .. => id = job.id ∧ Unsettled t ∧ job.attempts < job.max_attempts
  | .release id _ => id = job.id ∧ Unsettled t ∧ Unsent t
  | .bury id _ => id = job.id ∧ Unsettled t ∧ (job.kind = .transmit →
      (⟨.findDocument job.document_id, .ok none⟩ : Exchange Call Reply) ∈ t)
  | .sendBillSync _ zip _ => job.kind = .transmit ∧ Unsent t ∧
      ∃ d, Working job d t ∧ (1 < job.attempts → AskedStatus d t) ∧ Packs ubl d t zip
  | .sendTestSetAsync _ zip .. => job.kind = .transmit ∧ Unsent t ∧
      ∃ d, Working job d t ∧ Packs ubl d t zip
  | .getStatus _ cufe _ => job.kind = .transmit ∧
      ∃ d signed_xml, Working job d t ∧ SignedAs d t signed_xml cufe
  | .getStatusZip .. => job.kind = .pollStatus ∧ Unsettled t ∧ Unsent t
  | _ => True

/-! ### They outlast further calls -/

section Append

variable {job : Job} {d : Document} {t q : History}

theorem Working.append (h : Working job d t) (hq : Unsettled q) : Working job d (t ++ q) :=
  ⟨List.mem_append_left _ h.found, h.entry, fun e he =>
    (List.mem_append.mp he).elim (h.unsettled e) (hq e)⟩

theorem Unsent.append (h : Unsent t) (hq : Unsent q) : Unsent (t ++ q) := fun e he =>
  (List.mem_append.mp he).elim (h e) (hq e)

theorem AnsweredAccepted.append (h : AnsweredAccepted t) : AnsweredAccepted (t ++ q) := by
  obtain ⟨e, he, h⟩ := h
  exact ⟨e, List.mem_append_left _ he, h⟩

theorem AnsweredRejected.append (h : AnsweredRejected t) : AnsweredRejected (t ++ q) := by
  obtain ⟨e, he, h⟩ := h
  exact ⟨e, List.mem_append_left _ he, h⟩

theorem Unstored.append (h : Unstored t) (hq : Unstored q) : Unstored (t ++ q) := fun e he =>
  (List.mem_append.mp he).elim (h e) (hq e)

theorem SignedAs.append {signed_xml cufe : String} (h : SignedAs d t signed_xml cufe)
    (hq : Unstored q) : SignedAs d (t ++ q) signed_xml cufe := by
  rcases h with ⟨ht, h⟩ | ⟨o, h⟩
  · exact .inl ⟨ht.append hq, h⟩
  · exact .inr ⟨o, List.mem_append_left _ h⟩

theorem SignedAs.cufeOf {signed_xml cufe : String} (h : SignedAs d t signed_xml cufe) :
    CufeOf d t cufe := by
  rcases h with ⟨-, -, h, -⟩ | ⟨o, h⟩
  · exact .inl h
  · exact .inr ⟨o, signed_xml, h⟩

theorem CufeOf.append {cufe : String} (h : CufeOf d t cufe) : CufeOf d (t ++ q) cufe := by
  rcases h with h | ⟨o, x, h⟩
  · exact .inl h
  · exact .inr ⟨o, x, List.mem_append_left _ h⟩

/-- A transition that is not applied leaves from a status it could have been applied in. -/
theorem TransitionFor.entry_mem {tr : Transition} (h : TransitionFor job d t tr) :
    job.kind.entry ∈ tr.target.allowedPredecessors := by
  obtain ⟨-, h⟩ := h
  cases htarget : tr.target <;> simp only [htarget] at h
  case dianAccepted | dianRejected =>
    cases job.kind <;> simp [JobKind.entry, DocumentStatus.allowedPredecessors]
  case sentDian | contingencyPending | processingFailed =>
    simp [h.1, JobKind.entry, DocumentStatus.allowedPredecessors]

end Append

/-! ## The calls of each helper -/

/-- The calls that `artifacts` makes before it stores. -/
def PreparationCall : Call → Prop
  | .findNumberingRange _ | .signForTenant .. => True
  | _ => False

/-- The calls that `artifacts` makes for a document. -/
def ArtifactsCall (d : Document) : Call → Prop
  | .findNumberingRange _ | .signForTenant .. => True
  | .storeArtifacts id .. => id = d.id
  | _ => False

theorem PreparationCall.artifacts {d : Document} {c : Call} (h : PreparationCall c) :
    ArtifactsCall d c := by
  cases c <;> first | exact trivial | exact absurd h id

/-- A call to the document or job repository that failed. -/
def repositoryError? : Exchange Call Reply → Option DomainError
  | ⟨.findDocument _, .error e⟩ | ⟨.findNumberingRange _, .error e⟩
  | ⟨.storeArtifacts .., .error e⟩ | ⟨.recordEvent _, .error e⟩ | ⟨.applyTransition _, .error e⟩
  | ⟨.complete _, .error e⟩ | ⟨.retry .., .error e⟩ | ⟨.release .., .error e⟩
  | ⟨.bury .., .error e⟩ => some e
  | _ => none

/-- How a part of `artifacts` can go: its own calls only, and a failed one among them is its
    failure. -/
structure CallsRun {α : Type} (p : Call → Prop) (q : History) (r : Except String α) : Prop where
  calls : ∀ e ∈ q, p e.call
  ok : ∀ a, r = .ok a → ∀ e ∈ q, repositoryError? e = none

abbrev PreparationRun {α : Type} (q : History) (r : Except String α) : Prop :=
  CallsRun PreparationCall q r

abbrev ArtifactsRun {α : Type} (d : Document) (q : History) (r : Except String α) : Prop :=
  CallsRun (ArtifactsCall d) q r

section Artifacts

variable {P : History → Call → Prop} {t : History} {d : Document} (ubl : UblEngine)

theorem CallsRun.nil {α : Type} {p : Call → Prop} (r : Except String α) : CallsRun p [] r :=
  ⟨by simp, by simp⟩

theorem CallsRun.failed {α β : Type} {p : Call → Prop} {q : History} {r : Except String α}
    (h : CallsRun p q r) (e : String) : CallsRun p q (.error e : Except String β) :=
  ⟨h.calls, by simp⟩

/-- The result of a pure step after the calls. -/
theorem CallsRun.pure {α β : Type} {p : Call → Prop} {q : History} {a : α}
    (h : CallsRun p q (.ok a)) (r : Except String β) : CallsRun p q r :=
  ⟨h.calls, fun _ _ => h.ok a rfl⟩

theorem wp_technicalKey (payload : InvoicePayload) {Q : History → Except String String → Prop}
    (hP : ∀ q c, (∀ e ∈ q, PreparationCall e.call) → PreparationCall c → P (t ++ q) c)
    (hQ : ∀ q r, PreparationRun q r → Q (t ++ q) r) :
    wp P Q t (technicalKey d payload).run := by
  unfold technicalKey
  cases hrange : d.numbering_range_id with
  | none =>
      have hnil : ∀ r, Q t r := fun r => by simpa using hQ [] r (.nil r)
      cases payload.technical_key with
      | none => exact hnil _
      | some key => exact hnil _
  | some range_id =>
      simp only [wp_run_bind, wp_findNumberingRange, wp_run_ofExcept]
      refine ⟨by simpa using hP [] (.findNumberingRange range_id) (by simp) trivial, fun r => ?_⟩
      cases r with
      | error e => exact hQ _ _ ⟨by simp [PreparationCall], by simp⟩
      | ok range =>
          simp only [Except.mapError]
          cases range <;> exact hQ _ _ ⟨by simp [PreparationCall], by simp [repositoryError?]⟩

theorem mapError_eq_ok {ε ε' α : Type} {f : ε → ε'} {r : Except ε α} {a : α}
    (h : r.mapError f = .ok a) : r = .ok a := by
  cases r with
  | error e => cases h
  | ok b => exact congrArg Except.ok (Except.ok.inj h)

theorem wp_generate {Q : History → Except String (String × String) → Prop}
    (hP : ∀ q c, (∀ e ∈ q, PreparationCall e.call) → PreparationCall c → P (t ++ q) c)
    (hQ : ∀ q r, PreparationRun q r →
      (∀ xml cufe, r = .ok (xml, cufe) → ubl.ComputesCufe → cufe ≠ "") → Q (t ++ q) r) :
    wp P Q t (generate ubl d).run := by
  have hnil : ∀ r : Except String (String × String),
      (∀ xml cufe, r = .ok (xml, cufe) → ubl.ComputesCufe → cufe ≠ "") → Q t r := fun r hr => by
    simpa using hQ [] r (.nil r) hr
  unfold generate
  split
  case h_1 =>
    simp only [wp_run_bind, wp_run_ofExcept]
    split
    · refine wp_technicalKey _ hP fun q r hr => ?_
      cases r with
      | error e => exact hQ _ _ (hr.failed e) fun _ _ h => by cases h
      | ok key =>
          exact hQ _ _ (hr.pure _) fun xml cufe hok hubl => hubl.invoice _ _ _ _ (mapError_eq_ok hok)
    · exact hnil _ fun _ _ h => by cases h
  case h_2 | h_3 =>
    simp only [wp_run_bind, wp_run_ofExcept]
    split
    · exact hnil _ fun xml cufe hok hubl => hubl.invoice _ _ _ _ (mapError_eq_ok hok)
    · exact hnil _ fun _ _ h => by cases h
  case h_4 =>
    simp only [wp_run_bind, wp_run_ofExcept]
    split
    · exact hnil _ fun xml cufe hok hubl => hubl.payroll _ _ _ (mapError_eq_ok hok)
    · exact hnil _ fun _ _ h => by cases h
  case h_5 =>
    simp only [wp_run_bind, wp_run_ofExcept]
    split
    · exact hnil _ fun xml cufe hok hubl => hubl.support_document _ _ _ (mapError_eq_ok hok)
    · exact hnil _ fun _ _ h => by cases h

theorem storedArtifacts_cases (d : Document) (nit : String) :
    (∃ a, storedArtifacts d nit = some a ∧ d.signed_xml = some a.signed_xml ∧
      d.cufe_cude = a.cufe ∧ a.cufe ≠ "") ∨ storedArtifacts d nit = none ∧ Unsigned d := by
  unfold storedArtifacts Unsigned
  cases hsigned : d.signed_xml with
  | none => exact .inr ⟨rfl, .inl rfl⟩
  | some signed_xml =>
      by_cases hcufe : d.cufe_cude = ""
      · exact .inr ⟨by simp [hcufe], .inr hcufe⟩
      · exact .inl ⟨⟨signed_xml, d.cufe_cude, nit⟩, by simp [hcufe], rfl, rfl, hcufe⟩

theorem wp_artifacts {Q : History → Except String Artifacts → Prop}
    (hP : ∀ q c, (∀ e ∈ q, PreparationCall e.call) → PreparationCall c → P (t ++ q) c)
    (hS : ∀ q cufe original_xml signed_xml, (∀ e ∈ q, PreparationCall e.call) → Unsigned d →
      (ubl.ComputesCufe → cufe ≠ "") →
        P (t ++ q) (.storeArtifacts d.id cufe original_xml signed_xml))
    (hQ : ∀ q r, ArtifactsRun d q r →
      (∀ a, r = .ok a → Unstored t → SignedAs d (t ++ q) a.signed_xml a.cufe) → Q (t ++ q) r) :
    wp P Q t (artifacts ubl d).run := by
  have herror : ∀ e, Q t (.error e) := fun e => by simpa using hQ [] (.error e) (.nil _) (by simp)
  simp only [artifacts, wp_run_bind, wp_run_ofExcept]
  split
  swap
  · exact herror _
  · rename_i nit _
    rcases storedArtifacts_cases d nit with ⟨a, hstored, hsigned, hcufe, hne⟩ | ⟨hstored, hunsigned⟩
    · rw [hstored]
      have := hQ [] (.ok a) (.nil _) (by
        rintro _ ⟨⟩ ht
        exact .inl ⟨by simpa using ht, hsigned, hcufe, hne⟩)
      simpa using this
    · rw [hstored]
      simp only [wp_run_bind]
      refine wp_generate ubl hP fun q r hr hcufe => ?_
      have hprep : ∀ {q : History}, (∀ e ∈ q, PreparationCall e.call) →
          ∀ e ∈ q, ArtifactsCall d e.call := fun hq e he => (hq e he).artifacts
      cases r with
      | error e => exact hQ q (.error e) ⟨hprep hr.calls, by simp⟩ (by simp)
      | ok xml =>
          obtain ⟨unsigned_xml, cufe⟩ := xml
          simp only [wp_signForTenant, wp_run_ofExcept, wp_storeArtifacts, wp_run_pure,
            List.append_assoc]
          refine ⟨hP q _ hr.calls trivial, fun signed => ?_⟩
          have hsign : PreparationRun
              (q ++ [⟨.signForTenant d.tenant_id unsigned_xml, signed⟩]) (.ok ()) := by
            refine ⟨?_, fun _ _ => ?_⟩
            · simpa [or_imp, forall_and, PreparationCall] using hr.calls
            · simpa [or_imp, forall_and, repositoryError?] using hr.ok _ rfl
          cases signed with
          | error e => exact hQ _ _ ⟨hprep hsign.calls, by simp⟩ (by simp)
          | ok signed_xml =>
              simp only [Except.mapError]
              refine ⟨hS _ _ _ _ hsign.calls hunsigned (hcufe _ _ rfl), fun stored => ?_⟩
              have hcalls : ∀ e ∈ q ++ ([⟨.signForTenant d.tenant_id unsigned_xml,
                  .ok signed_xml⟩] ++ [⟨.storeArtifacts d.id cufe unsigned_xml signed_xml,
                    stored⟩]), ArtifactsCall d e.call := by
                simpa [or_imp, forall_and, ArtifactsCall] using hprep hr.calls
              cases stored with
              | error e => exact hQ _ _ ⟨hcalls, by simp⟩ (by simp)
              | ok u =>
                  refine hQ _ _ ⟨hcalls, fun _ _ => ?_⟩ ?_
                  · simpa [or_imp, forall_and, repositoryError?] using hr.ok _ rfl
                  · rintro a ⟨⟩ -
                    exact .inr ⟨unsigned_xml, by simp⟩

end Artifacts

theorem artifactsCall_calm {d : Document} {q : History} (h : ∀ e ∈ q, ArtifactsCall d e.call) :
    Unsettled q ∧ Unsent q := by
  refine ⟨fun e he => ?_, fun e he => ?_⟩
  all_goals
    have := h e he
    obtain ⟨c, r⟩ := e
    cases c <;> simp_all [ArtifactsCall, settles, Call.isSubmission]

theorem preparationCall_calm {q : History} (h : ∀ e ∈ q, PreparationCall e.call) :
    Unsettled q ∧ Unstored q := by
  refine ⟨fun e he => ?_, fun e he => ?_⟩
  all_goals
    have := h e he
    obtain ⟨c, r⟩ := e
    cases c <;> simp_all [PreparationCall, settles, Call.stores]

section Calls

variable {ubl : UblEngine} {job : Job} {d : Document} {t : History} {Q : History → Except DomainError Unit → Prop}

theorem wp_transition {tr : Transition} (hW : Working job d t) (hT : TransitionFor job d t tr)
    (hQ : ∀ t r, Q t r) : wp (ProcessCall ubl job) Q t (transition job tr).run := by
  simp only [transition, wp_run_bind, wp_applyTransition]
  refine ⟨⟨d, hW, hT⟩, fun r => ?_⟩
  rcases r with e | applied
  · exact hQ _ _
  · cases applied with
    | true => exact hQ _ _
    | false =>
        have hW' := hW.append (q := [⟨.applyTransition tr, .ok false⟩]) (by simp [Unsettled, settles])
        simp only [Bool.false_eq_true, if_false, wp_complete]
        refine ⟨⟨rfl, hW'.unsettled, .inr ⟨d, tr, hW'.found, by simp, hT.1, hT.entry_mem⟩⟩,
          fun r => hQ _ _⟩

theorem wp_fail (hW : Working job d t) (hk : job.kind = .transmit) (reason : String)
    (hQ : ∀ t r, Q t r) : wp (ProcessCall ubl job) Q t (fail job d reason).run := by
  simp only [fail, newEvent, wp_run_bind, wp_newUuid, wp_utcNow, wp_run_pure, List.append_assoc]
  refine ⟨trivial, fun id => ⟨trivial, fun created_at => ?_⟩⟩
  exact wp_transition (hW.append (by simp [Unsettled, settles])) ⟨rfl, hk, rfl, rfl⟩ hQ

/-- Closing with a verdict needs an answer of the DIAN that says so. -/
theorem wp_closeWith {status : DocumentStatus} (hW : Working job d t)
    (hstatus : status = .dianAccepted ∧ AnsweredAccepted t ∨
      status = .dianRejected ∧ AnsweredRejected t)
    (event_status : EventStatus) (response : DianResponse) (hQ : ∀ t r, Q t r) :
    wp (ProcessCall ubl job) Q t (closeWith job d status event_status response).run := by
  simp only [closeWith, responseEvent, newEvent, wp_run_bind, wp_newUuid, wp_utcNow, wp_run_pure,
    List.append_assoc]
  refine ⟨trivial, fun id => ⟨trivial, fun created_at => ?_⟩⟩
  refine wp_transition (hW.append (by simp [Unsettled, settles])) ?_ hQ
  rcases hstatus with ⟨rfl, hans⟩ | ⟨rfl, hans⟩
  · exact ⟨rfl, rfl, rfl, hans.append⟩
  · exact ⟨rfl, rfl, rfl, hans.append⟩

theorem wp_afterBackoff {Q : History → Except DomainError Time → Prop} (attempts : Int)
    (hQ : ∀ now delay, Q (t ++ [⟨.utcNow, now⟩, ⟨.backoffWithJitter attempts, delay⟩])
      (.ok (now + delay))) :
    wp (ProcessCall ubl job) Q t (afterBackoff attempts).run := by
  simp only [afterBackoff, wp_run_bind, wp_utcNow, wp_backoffWithJitter, wp_run_pure,
    List.append_assoc]
  exact ⟨trivial, fun now => ⟨trivial, fun delay => hQ now delay⟩⟩

theorem wp_transmissionFailed (hW : Working job d t) (hk : job.kind = .transmit)
    (error : DomainError) (hQ : ∀ t r, Q t r) :
    wp (ProcessCall ubl job) Q t (transmissionFailed job d error).run := by
  simp only [transmissionFailed, newEvent, wp_run_bind, wp_recordFailure, wp_newUuid, wp_utcNow,
    wp_run_pure, List.append_assoc]
  refine ⟨trivial, fun _ => ⟨trivial, fun id => ⟨trivial, fun created_at => ?_⟩⟩⟩
  split
  · exact wp_transition (hW.append (by simp [Unsettled, settles])) ⟨rfl, hk, ⟨_, rfl⟩, rfl⟩ hQ
  · rename_i hlast
    simp only [wp_run_bind, wp_recordEvent]
    refine ⟨trivial, fun r => ?_⟩
    cases r with
    | error e => exact hQ _ _
    | ok u =>
        refine wp_afterBackoff _ fun now delay => ?_
        simp only [wp_retry, List.append_assoc]
        refine ⟨⟨rfl, (hW.append (by simp [Unsettled, settles])).unsettled, ?_⟩, fun r => hQ _ _⟩
        simpa [Job.isLastAttempt] using hlast

theorem wp_acceptedBefore {a : Artifacts} {Q : History → Except DomainError (Option DianResponse) → Prop}
    (hW : Working job d t) (hk : job.kind = .transmit) (hsigned : SignedAs d t a.signed_xml a.cufe)
    (hsome : ∀ q response, Unsettled q → AnsweredAccepted (t ++ q) →
      Q (t ++ q) (.ok (some response)))
    (hnone : ∀ q, Unsettled q → Unsent q → Unstored q →
      (1 < job.attempts → testSetId d = none → AskedStatus d (t ++ q)) → Q (t ++ q) (.ok none)) :
    wp (ProcessCall ubl job) Q t (acceptedBefore job d a).run := by
  unfold acceptedBefore
  split
  · simp only [wp_run_bind, wp_getStatus]
    refine ⟨⟨hk, d, a.signed_xml, hW, hsigned⟩, fun r => ?_⟩
    have hq : Unsettled [⟨.getStatus d.tenant_id a.cufe (isHabilitacion d), r⟩] := by
      simp [Unsettled, settles]
    have hq' : Unsent [⟨.getStatus d.tenant_id a.cufe (isHabilitacion d), r⟩] := by
      simp [Unsent, Call.isSubmission]
    have hq'' : Unstored [⟨.getStatus d.tenant_id a.cufe (isHabilitacion d), r⟩] := by
      simp [Unstored, Call.stores]
    have hasked : (∀ response, r = .ok response → response.status_code ∉ ACCEPTED_CODES) →
        AskedStatus d (t ++ [⟨.getStatus d.tenant_id a.cufe (isHabilitacion d), r⟩]) :=
      fun h => ⟨a.cufe, r, hsigned.cufeOf.append, by simp, h⟩
    cases r with
    | error e => exact hnone _ hq hq' hq'' fun _ _ => hasked (by simp)
    | ok status =>
        simp only
        split
        · rename_i hacc
          exact hsome _ _ hq ⟨_, List.mem_append_right _ (List.mem_singleton_self _), status, rfl, hacc⟩
        · rename_i hacc
          exact hnone _ hq hq' hq'' fun _ _ => hasked (by rintro _ ⟨⟩; exact hacc)
  · rename_i hnot
    have := hnone [] (by simp [Unsettled]) (by simp [Unsent]) (by simp [Unstored]) fun h1 h2 =>
      absurd ⟨h1, by simp [h2]⟩ hnot
    simpa using this

variable (config : ProcessorConfig)

theorem wp_sendTestSet (hW : Working job d t) (hk : job.kind = .transmit) (hunsent : Unsent t)
    {zip : List UInt8} (hpacks : Packs ubl d t zip) (test_set_id : String) (hQ : ∀ t r, Q t r) :
    wp (ProcessCall ubl job) Q t (sendTestSet config job d zip test_set_id).run := by
  simp only [sendTestSet, wp_run_bind, wp_sendTestSetAsync]
  refine ⟨⟨hk, hunsent, d, hW, hpacks⟩, fun r => ?_⟩
  cases r with
  | error e => exact wp_transmissionFailed (hW.append (by simp [Unsettled, settles])) hk e hQ
  | ok zip_key =>
      simp only [newEvent, wp_run_bind, wp_recordSuccess, wp_utcNow, wp_newUuid, wp_run_pure,
        List.append_assoc]
      refine ⟨trivial, fun _ => ⟨trivial, fun now => ⟨trivial, fun id => ⟨trivial,
        fun created_at => ⟨trivial, fun poll_id => ?_⟩⟩⟩⟩⟩
      refine wp_transition (hW.append (by simp [Unsettled, settles])) ⟨rfl, hk, rfl, ?_⟩ hQ
      exact ⟨_, zip_key, poll_id, _, _, rfl, rfl, rfl, rfl, rfl⟩

theorem wp_attachedDocument (a : Artifacts) (xml : String) (hQ : ∀ t r, Q t r) :
    wp (ProcessCall ubl job) Q t (attachedDocument ubl d a xml).run := by
  simp only [attachedDocument, wp_run_bind, ExceptT.run_lift, wp_map_ok, wp_run_ofExcept,
    wp_utcNow, wp_newUuid, wp_signForTenant, wp_run_pure]
  split
  · refine ⟨trivial, fun now => ⟨trivial, fun id => ?_⟩⟩
    split
    · refine ⟨trivial, fun signed => ?_⟩
      cases signed <;> exact hQ _ _
    · exact hQ _ _
  · exact hQ _ _

theorem wp_sendBill (hW : Working job d t) (hk : job.kind = .transmit) (hunsent : Unsent t)
    (hasked : 1 < job.attempts → AskedStatus d t) (a : Artifacts) {zip : List UInt8}
    (hpacks : Packs ubl d t zip) (hQ : ∀ t r, Q t r) : wp (ProcessCall ubl job) Q t (sendBill ubl job d a zip).run := by
  simp only [sendBill, wp_run_bind, wp_sendBillSync]
  refine ⟨⟨hk, hunsent, d, hW, hasked, hpacks⟩, fun r => ?_⟩
  cases r with
  | error e => exact wp_transmissionFailed (hW.append (by simp [Unsettled, settles])) hk e hQ
  | ok response =>
      have hW' := hW.append (q := [⟨.sendBillSync d.tenant_id zip (isHabilitacion d), .ok response⟩,
        ⟨.recordSuccess (isHabilitacion d), ()⟩]) (by simp [Unsettled, settles])
      have hanswer : (⟨.sendBillSync d.tenant_id zip (isHabilitacion d), .ok response⟩ :
          Exchange Call Reply) ∈ t ++ [⟨.sendBillSync d.tenant_id zip (isHabilitacion d),
            .ok response⟩, ⟨.recordSuccess (isHabilitacion d), ()⟩] := by simp
      simp only [wp_run_bind, wp_recordSuccess, List.append_assoc]
      refine ⟨trivial, fun _ => ?_⟩
      split
      · rename_i hacc
        simp only [wp_run_bind]
        refine wp_closeWith hW' (.inl ⟨rfl, _, hanswer, response, rfl, hacc⟩) _ _ fun t r => ?_
        cases r with
        | error e => exact hQ _ _
        | ok u =>
            simp only
            split
            · exact wp_attachedDocument a _ hQ
            · exact hQ _ _
      · rename_i hacc
        exact wp_closeWith hW' (.inr ⟨rfl, _, hanswer, response, rfl, .inr ⟨rfl, hacc⟩⟩) _ _ hQ

theorem wp_submit (hW : Working job d t) (hk : job.kind = .transmit) (hunsent : Unsent t)
    (hasked : 1 < job.attempts → testSetId d = none → AskedStatus d t) {a : Artifacts}
    (hsigned : SignedAs d t a.signed_xml a.cufe) (hQ : ∀ t r, Q t r) :
    wp (ProcessCall ubl job) Q t (submit ubl config job d a).run := by
  unfold submit
  split
  · exact wp_fail hW hk _ hQ
  · rename_i zip name hzip
    have hpacks : Packs ubl d t zip := ⟨a.signed_xml, a.cufe, a.issuer_nit, name, hsigned, hzip⟩
    split
    · exact wp_sendTestSet config hW hk hunsent hpacks _ hQ
    · rename_i hset
      exact wp_sendBill hW hk hunsent (fun h => hasked h hset) a hpacks hQ

theorem wp_releaseAfterCooldown (hW : Working job d t) (hunsent : Unsent t) (hQ : ∀ t r, Q t r) :
    wp (ProcessCall ubl job) Q t (releaseAfterCooldown config job).run := by
  simp only [releaseAfterCooldown, wp_run_bind, wp_utcNow, wp_release, List.append_assoc]
  refine ⟨trivial, fun now => ⟨⟨rfl, ?_, ?_⟩, fun r => hQ _ _⟩⟩
  · exact (hW.append (by simp [Unsettled, settles])).unsettled
  · exact hunsent.append (by simp [Unsent, Call.isSubmission])

theorem wp_transmitPending (hW : Working job d t) (hk : job.kind = .transmit) (hunsent : Unsent t)
    (hunstored : Unstored t) (hQ : ∀ t r, Q t r) :
    wp (ProcessCall ubl job) Q t (transmitPending ubl config job d).run := by
  simp only [transmitPending, wp_run_bind, wp_canExecute]
  refine ⟨trivial, fun r => ?_⟩
  have hexec : Unsettled [⟨.canExecute (isHabilitacion d), r⟩] := by simp [Unsettled, settles]
  have hexec' : Unsent [⟨.canExecute (isHabilitacion d), r⟩] := by
    simp [Unsent, Call.isSubmission]
  have hexec'' : Unstored [⟨.canExecute (isHabilitacion d), r⟩] := by simp [Unstored, Call.stores]
  cases r with
  | false => exact wp_releaseAfterCooldown config (hW.append hexec) (hunsent.append hexec') hQ
  | true =>
      simp only [if_true, wp_run_bind, ExceptT.run_lift, wp_map_ok]
      refine wp_artifacts ubl (fun q c hq hc => ?_) (fun q cufe o x hq hunsigned hcufe => ?_)
        fun q r hr hsigned => ?_
      · cases c <;> first | exact trivial | cases hc
      · obtain ⟨hsettled, hstored⟩ := preparationCall_calm hq
        exact ⟨d, (hW.append hexec).append hsettled, rfl, hk, hunsigned,
          (hunstored.append hexec'').append hstored, hcufe⟩
      · obtain ⟨hq, hq'⟩ := artifactsCall_calm hr.calls
        have hWq := (hW.append hexec).append hq
        have hunsentq := (hunsent.append hexec').append hq'
        cases r with
        | error reason => exact wp_fail hWq hk reason hQ
        | ok a =>
            have hsigned := hsigned a rfl (hunstored.append hexec'')
            simp only [wp_run_bind]
            refine wp_acceptedBefore hWq hk hsigned (fun q' response hq' hacc => ?_)
              fun q' hq1 hq2 hq3 hasked => ?_
            · simp only [wp_run_bind, wp_recordSuccess]
              refine ⟨trivial, fun _ => ?_⟩
              refine wp_closeWith ((hWq.append hq').append ?_) (.inl ⟨rfl, hacc.append⟩) _ _ hQ
              simp [Unsettled, settles]
            · exact wp_submit config (hWq.append hq1) hk (hunsentq.append hq2) hasked
                (hsigned.append hq3) hQ

theorem wp_transmit (hk : job.kind = .transmit) (hQ : ∀ t r, Q t r) :
    wp (ProcessCall ubl job) Q [] (transmit ubl config job).run := by
  simp only [transmit, wp_run_bind, wp_findDocument, List.nil_append]
  refine ⟨⟨rfl, rfl⟩, fun r => ?_⟩
  have hopen : Unsettled [⟨.findDocument job.document_id, r⟩] := by simp [Unsettled, settles]
  rcases r with e | found
  · exact hQ _ _
  · cases found with
    | none =>
        simp only [wp_bury]
        exact ⟨⟨rfl, hopen, fun _ => List.mem_singleton_self _⟩, fun r => hQ _ _⟩
    | some d =>
        simp only
        split
        · rename_i hstatus
          refine ⟨⟨rfl, hopen, .inl ⟨d, List.mem_singleton_self _, ?_⟩⟩, fun r => hQ _ _⟩
          simpa [hk, JobKind.entry] using hstatus
        · rename_i hstatus
          refine wp_transmitPending config ⟨List.mem_singleton_self _, ?_, hopen⟩ hk ?_ ?_ hQ
          · simpa [hk, JobKind.entry] using hstatus
          · simp [Unsent, Call.isSubmission]
          · simp [Unstored, Call.stores]

theorem wp_pollAgain (hW : Working job d t) (hk : job.kind = .pollStatus) (outcome : String)
    (hQ : ∀ t r, Q t r) : wp (ProcessCall ubl job) Q t (pollAgain job d outcome).run := by
  unfold pollAgain
  split
  · simp only [newEvent, wp_run_bind, wp_newUuid, wp_utcNow, wp_run_pure, wp_recordEvent,
      List.append_assoc]
    refine ⟨trivial, fun id => ⟨trivial, fun created_at => ⟨trivial, fun r => ?_⟩⟩⟩
    cases r with
    | error e => exact hQ _ _
    | ok u =>
        refine ⟨⟨rfl, (hW.append ?_).unsettled, by simp [hk]⟩, fun r => hQ _ _⟩
        simp [Unsettled, settles]
  · rename_i hlast
    simp only [wp_run_bind]
    refine wp_afterBackoff _ fun now delay => ?_
    refine ⟨⟨rfl, (hW.append ?_).unsettled, by simpa [Job.isLastAttempt] using hlast⟩,
      fun r => hQ _ _⟩
    simp [Unsettled, settles]

theorem wp_pollStatus (hW : Working job d t) (hk : job.kind = .pollStatus) (hunsent : Unsent t)
    (zip_key : String) (hQ : ∀ t r, Q t r) : wp (ProcessCall ubl job) Q t (pollStatus job d zip_key).run := by
  simp only [pollStatus, wp_run_bind, wp_getStatusZip]
  refine ⟨⟨hk, hW.unsettled, hunsent⟩, fun r => ?_⟩
  cases r with
  | error e =>
      simp only [wp_run_bind, wp_recordFailure, List.append_assoc]
      exact ⟨trivial, fun _ => wp_pollAgain (hW.append (by simp [Unsettled, settles])) hk _ hQ⟩
  | ok response =>
      have hW' := hW.append (q := [⟨.getStatusZip d.tenant_id zip_key (isHabilitacion d),
        .ok response⟩, ⟨.recordSuccess (isHabilitacion d), ()⟩]) (by simp [Unsettled, settles])
      have hanswer : (⟨.getStatusZip d.tenant_id zip_key (isHabilitacion d), .ok response⟩ :
          Exchange Call Reply) ∈ t ++ [⟨.getStatusZip d.tenant_id zip_key (isHabilitacion d),
            .ok response⟩, ⟨.recordSuccess (isHabilitacion d), ()⟩] := by simp
      simp only [wp_run_bind, wp_recordSuccess, List.append_assoc]
      refine ⟨trivial, fun _ => ?_⟩
      split
      · rename_i hacc
        exact wp_closeWith hW' (.inl ⟨rfl, _, hanswer, response, rfl, hacc⟩) _ _ hQ
      · split
        · rename_i hrej
          exact wp_closeWith hW' (.inr ⟨rfl, _, hanswer, response, rfl, .inl hrej⟩) _ _ hQ
        · exact wp_pollAgain hW' hk _ hQ

theorem wp_poll (hk : job.kind = .pollStatus) (hQ : ∀ t r, Q t r) :
    wp (ProcessCall ubl job) Q [] (poll config job).run := by
  simp only [poll, wp_run_bind, wp_findDocument, List.nil_append]
  refine ⟨⟨rfl, rfl⟩, fun r => ?_⟩
  have hopen : Unsettled [⟨.findDocument job.document_id, r⟩] := by simp [Unsettled, settles]
  rcases r with e | found
  · exact hQ _ _
  · cases found with
    | none =>
        simp only [wp_bury]
        exact ⟨⟨rfl, hopen, fun _ => List.mem_singleton_self _⟩, fun r => hQ _ _⟩
    | some d =>
        simp only
        split
        · rename_i hstatus
          refine ⟨⟨rfl, hopen, .inl ⟨d, List.mem_singleton_self _, ?_⟩⟩, fun r => hQ _ _⟩
          simpa [hk, JobKind.entry] using hstatus
        · rename_i hstatus
          have hW : Working job d [⟨.findDocument job.document_id, .ok (some d)⟩] :=
            ⟨List.mem_singleton_self _, by simpa [hk, JobKind.entry] using hstatus, hopen⟩
          split
          · exact ⟨⟨rfl, hopen, by simp [hk]⟩, fun r => hQ _ _⟩
          · simp only [wp_run_bind, wp_canExecute]
            refine ⟨trivial, fun r => ?_⟩
            have hexec : Unsettled [⟨.canExecute (isHabilitacion d), r⟩] := by
              simp [Unsettled, settles]
            cases r with
            | true =>
                refine wp_pollStatus (hW.append hexec) hk ?_ _ hQ
                simp [Unsent, Call.isSubmission]
            | false =>
                refine wp_releaseAfterCooldown config (hW.append hexec) ?_ hQ
                simp [Unsent, Call.isSubmission]

/-- Every call of a processing, whatever the replies before it. -/
theorem process_calls (ubl : UblEngine) (job : Job) :
    wp (ProcessCall ubl job) (fun _ _ => True) [] (process ubl config job).run := by
  unfold process
  cases hk : job.kind with
  | transmit => exact wp_transmit config hk fun _ _ => trivial
  | pollStatus => exact wp_poll config hk fun _ _ => trivial

end Calls

end DianService
