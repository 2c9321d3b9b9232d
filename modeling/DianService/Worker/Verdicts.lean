import DianService.Application.Failures
import DianService.Issue.Numbers
import DianService.Soap.Response
import DianService.Worker.Tasks

/-
  Worker: the verdict of a document comes from the DIAN. A document is accepted only on an answer
  with an accepted code. `send_bill_sync` takes every other code for a rejection, where
  `poll` waits for `REJECTED_CODE`; so a document is rejected only on that code as long as
  `send_bill_sync` is answered with a code that decides.
-/

namespace DianService

open Lib Lib.Prog

/-! ## The two paths -/

/-- The verdict of `send_bill_sync` on a status code. -/
def syncVerdict (code : String) : DocumentStatus :=
  if code ∈ ACCEPTED_CODES then .dianAccepted else .dianRejected

/-- The verdict of `poll` on a status code, if it has one. -/
def pollVerdict (code : String) : Option DocumentStatus :=
  if code ∈ ACCEPTED_CODES then some .dianAccepted
  else if code = REJECTED_CODE then some .dianRejected
  else none

/-- The code is a verdict for both paths. -/
def Decisive (code : String) : Prop := code ∈ ACCEPTED_CODES ∨ code = REJECTED_CODE

instance (code : String) : Decidable (Decisive code) := inferInstanceAs (Decidable (_ ∨ _))

theorem pollVerdict_eq_syncVerdict (code : String) :
    pollVerdict code = some (syncVerdict code) ↔ Decisive code := by
  unfold pollVerdict syncVerdict Decisive
  by_cases h : code ∈ ACCEPTED_CODES
  · simp [h]
  · rw [if_neg h, if_neg h]
    by_cases h' : code = REJECTED_CODE
    · simp [h']
    · simp [h, h']

/-- The status that the first transition asked for leads to. -/
def requested (t : History) : Option DocumentStatus :=
  t.findSome? fun e =>
    match e with
    | ⟨.applyTransition tr, _⟩ => some tr.target
    | _ => none

/-- The DIAN's answer to the first call. -/
def firstAnswer (t : History) : Option DianResponse := t.head?.bind dianAnswer?

theorem requested_append (t q : History) : requested (t ++ q) = (requested t).or (requested q) :=
  List.findSome?_append

section Requested

variable {α : Type} {t : History} {v : DocumentStatus} {job : Job} {d : Document}

/-- What was asked for first stays so. -/
theorem wp_of_requested (p : Prog Call Reply α) (h : requested t = some v) :
    wp AnyCall (fun t' _ => requested t' = some v) t p := by
  induction p generalizing t with
  | done a => exact h
  | call c k ih =>
      refine ⟨trivial, fun r => ih r ?_⟩
      rw [requested_append, h]
      rfl

/-- A program only adds to its history. -/
theorem wp_extends (p : Prog Call Reply α) : wp AnyCall (fun t' _ => t <+: t') t p := by
  have key : ∀ (p : Prog Call Reply α) (t q : History),
      wp AnyCall (fun t' _ => t <+: t') (t ++ q) p := by
    intro p
    induction p with
    | done a => exact fun t q => List.prefix_append t q
    | call c k ih =>
        refine fun t q => ⟨trivial, fun r => ?_⟩
        rw [List.append_assoc]
        exact ih r t _
  simpa using key p t []

theorem wp_closeWith_requested (status : DocumentStatus) (event_status : EventStatus)
    (response : DianResponse) (h : requested t = none) :
    wp AnyCall (fun t' _ => requested t' = some status) t
      (closeWith job d status event_status response).run := by
  simp only [closeWith, responseEvent, newEvent, transition, wp_run_bind, wp_newUuid, wp_utcNow,
    wp_run_pure, wp_applyTransition]
  refine ⟨trivial, fun id => ⟨trivial, fun now => ⟨trivial, fun r => ?_⟩⟩⟩
  have hreq : requested (t ++ [⟨.newUuid, id⟩] ++ [⟨.utcNow, now⟩] ++ [⟨.applyTransition
      (((Transition.new d.id status).withEvent
        { id := id, document_id := d.id, event_status := event_status,
          dian_response_code := some response.status_code,
          dian_response_message := some response.message,
          soap_trace_id := response.soap_trace_id, xml_response := response.xml_response,
          created_at := now }).withJob (.complete job.id)), r⟩]) = some status := by
    simp only [requested_append, h]
    rfl
  cases r with
  | error e => exact hreq
  | ok applied =>
      simp only
      split
      · exact hreq
      · exact wp_of_requested _ hreq

/-- After a query without a verdict nothing is asked for. -/
theorem wp_pollAgain_requested (h : requested t = none) (outcome : String) :
    wp AnyCall (fun t' _ => requested t' = none) t (pollAgain job d outcome).run := by
  have hstep : ∀ {t : History} {x : Exchange Call Reply}, requested t = none →
      requested [x] = none → requested (t ++ [x]) = none := by
    intro t x ht hx
    rw [requested_append, ht, hx]
    rfl
  unfold pollAgain
  split
  · simp only [newEvent, wp_run_bind, wp_newUuid, wp_utcNow, wp_run_pure, wp_recordEvent]
    refine ⟨trivial, fun id => ⟨trivial, fun now => ⟨trivial, fun r => ?_⟩⟩⟩
    have hreq := hstep (x := ⟨.utcNow, now⟩) (hstep (x := ⟨.newUuid, id⟩) h rfl) rfl
    cases r with
    | error e => exact hstep hreq rfl
    | ok u => exact ⟨trivial, fun r => hstep (hstep hreq rfl) rfl⟩
  · simp only [afterBackoff, wp_run_bind, wp_utcNow, wp_backoffWithJitter, wp_run_pure, wp_retry]
    refine ⟨trivial, fun now => ⟨trivial, fun delay => ⟨trivial, fun r => ?_⟩⟩⟩
    exact hstep (hstep (hstep h rfl) rfl) rfl

end Requested

/-- What a program asks for first, by the answer its history starts with. -/
theorem wp_of_firstAnswer {α : Type} {x : Exchange Call Reply} {t : History}
    {p : Prog Call Reply α} {v : String → Option DocumentStatus}
    (h : ∀ response, dianAnswer? x = some response →
      wp AnyCall (fun t' _ => requested t' = v response.status_code) (x :: t) p) :
    wp AnyCall (fun t' _ => ∀ response, firstAnswer t' = some response →
      requested t' = v response.status_code) (x :: t) p := by
  have hfirst : ∀ {t' : History}, x :: t <+: t' → firstAnswer t' = dianAnswer? x := by
    rintro _ ⟨q, rfl⟩
    rfl
  cases hx : dianAnswer? x with
  | none =>
      refine wp_post (wp_extends p) fun t' _ hpre response hans => ?_
      rw [hfirst hpre, hx] at hans
      cases hans
  | some response =>
      refine wp_post (wp_and (h response hx) (wp_extends p)) ?_
      rintro t' _ ⟨hreq, hpre⟩ response' hans
      rw [hfirst hpre, hx] at hans
      cases hans
      exact hreq

theorem sendBill_verdict {ubl : UblEngine} {job : Job} {d : Document} {a : Artifacts}
    {zip : List UInt8} {t : History} {r : Except DomainError Unit} {response : DianResponse}
    (h : Runs (sendBill ubl job d a zip).run t r) (hans : firstAnswer t = some response) :
    requested t = some (syncVerdict response.status_code) := by
  have key : wp AnyCall (fun t _ => ∀ response, firstAnswer t = some response →
      requested t = some (syncVerdict response.status_code)) []
      (sendBill ubl job d a zip).run := by
    simp only [sendBill, wp_run_bind, wp_sendBillSync]
    refine ⟨trivial, fun r => ?_⟩
    refine wp_of_firstAnswer (v := fun code => some (syncVerdict code)) ?_
    rintro response hresponse
    cases r with
    | error e => cases hresponse
    | ok response' =>
        cases hresponse
        simp only [wp_run_bind, wp_recordSuccess]
        refine ⟨trivial, fun u => ?_⟩
        unfold syncVerdict
        split
        · simp only [wp_run_bind]
          refine wp_post (wp_closeWith_requested _ _ _ rfl) fun t' r hreq => ?_
          cases r with
          | error e => exact hreq
          | ok u =>
              simp only
              split
              · exact wp_of_requested _ hreq
              · exact hreq
        · exact wp_closeWith_requested _ _ _ rfl
  exact end_of_path key h response hans

theorem pollStatus_verdict {job : Job} {d : Document} {zip_key : String} {t : History}
    {r : Except DomainError Unit} {response : DianResponse}
    (h : Runs (pollStatus job d zip_key).run t r) (hans : firstAnswer t = some response) :
    requested t = pollVerdict response.status_code := by
  have key : wp AnyCall (fun t _ => ∀ response, firstAnswer t = some response →
      requested t = pollVerdict response.status_code) [] (pollStatus job d zip_key).run := by
    simp only [pollStatus, wp_run_bind, wp_getStatusZip]
    refine ⟨trivial, fun r => ?_⟩
    refine wp_of_firstAnswer (v := pollVerdict) ?_
    rintro response hresponse
    cases r with
    | error e => cases hresponse
    | ok response' =>
        cases hresponse
        simp only [wp_run_bind, wp_recordSuccess]
        refine ⟨trivial, fun u => ?_⟩
        unfold pollVerdict
        split
        · exact wp_closeWith_requested _ _ _ rfl
        · split
          · exact wp_closeWith_requested _ _ _ rfl
          · exact wp_pollAgain_requested rfl _
  exact end_of_path key h response hans

/-- The two paths give one verdict on a status code, in all their runs. -/
def SameVerdict (ubl : UblEngine) (code : String) : Prop :=
  ∀ job d a zip t r job' d' zip_key t' r' response response',
    Runs (sendBill ubl job d a zip).run t r → Runs (pollStatus job' d' zip_key).run t' r' →
    firstAnswer t = some response → firstAnswer t' = some response' →
    response.status_code = code → response'.status_code = code → requested t = requested t'

/-- Everything works and the DIAN answers `code`. -/
def codeAnswer (code : String) : (c : Call) → Reply c
  | .sendBillSync .. | .getStatus .. | .getStatusZip .. => .ok ⟨code, "", none, none⟩
  | c => calmAnswer c

theorem sameVerdict_iff (ubl : UblEngine) (code : String) : SameVerdict ubl code ↔ Decisive code := by
  rw [← pollVerdict_eq_syncVerdict]
  constructor
  · intro h
    have hsend := runs_runWith (sendBill ubl sampleJob sampleInvoice ⟨"", "", ""⟩ []).run
      (codeAnswer code)
    have hpoll := runs_runWith (pollStatus sampleJob sampleInvoice "zip-key-1").run
      (codeAnswer code)
    have heq := h _ _ _ _ _ _ _ _ _ _ _ _ _ hsend hpoll rfl rfl rfl rfl
    rw [sendBill_verdict hsend rfl, pollStatus_verdict hpoll rfl] at heq
    exact heq.symm
  · rintro h job d a zip t r job' d' zip_key t' r' response response' hsend hpoll hans hans' rfl hcode
    rw [sendBill_verdict hsend hans, pollStatus_verdict hpoll hans', hcode, h]

/-! ## The statuses of documents -/

/-- A document response with a code of which `p` holds. -/
def Carries (p : String → Prop) (e : Exchange Call Reply) : Prop :=
  ∃ response, dianAnswer? e = some response ∧ p response.status_code

/-- Every document with status `v` got an answer with a code of which `p` holds. -/
def FoundedOn (s : System) (v : DocumentStatus) (p : String → Prop) : Prop :=
  ∀ d ∈ s.db.documents, d.status = v → ∃ e, (d.id, e) ∈ s.log ∧ Carries p e

structure VerdictsFounded (s : System) : Prop where
  accepted : FoundedOn s .dianAccepted (· ∈ ACCEPTED_CODES)
  rejected : FoundedOn s .dianRejected (· = REJECTED_CODE)
  /-- A processing that got neither code asks for no verdict. -/
  undecided : ∀ t ∈ s.tasks, (∀ e ∈ t.history, ¬ Carries Decisive e) →
    ∀ tr k, t.rest = .call (.applyTransition tr) k →
      tr.target ≠ .dianAccepted ∧ tr.target ≠ .dianRejected

/-- `send_bill_sync` is answered with a code that decides, if it is answered. -/
def DecisiveAnswers (_ : System) : SystemAction → Prop
  | .work _ w => ∀ tenant_id zip is_hab response,
      w.answer (.sendBillSync tenant_id zip is_hab) = .ok response → Decisive response.status_code
  | _ => True

/-- Every answer to `send_bill_sync` so far decides. -/
def LogDecisive (s : System) : Prop :=
  ∀ x ∈ s.log, x.2.call.isSend = true → ∀ response, dianAnswer? x.2 = some response →
    Decisive response.status_code

section Founded

variable {ubl : UblEngine} {config : ProcessorConfig} {s s' : System}

theorem logDecisive_of_reachableBy (hs : (system ubl config).ReachableBy DecisiveAnswers s) :
    LogDecisive s := by
  refine hs.invariant ?_ ?_
  · rintro s ⟨tenants, now, rfl⟩ x hx
    cases hx
  · intro s a s' _ hI hc h x hx hsend response hans
    cases systemStep_inv h with
    | @worked i w t c r db k ht hrest happly h =>
        rcases List.mem_append.mp hx with hx | hx
        · exact hI x hx hsend response hans
        · rw [List.mem_singleton.mp hx] at hsend hans
          cases c with
          | sendBillSync tenant_id zip is_hab =>
              -- the DIAN's answer is the one of the step
              have hr : r = w.answer (.sendBillSync tenant_id zip is_hab) :=
                (congrArg Prod.snd happly).symm
              subst hr
              cases hanswer : w.answer (.sendBillSync tenant_id zip is_hab) with
              | error e => simp [hanswer, dianAnswer?] at hans
              | ok response' =>
                  simp only [hanswer, dianAnswer?, Option.some.injEq] at hans
                  subst hans
                  exact hc _ _ _ _ hanswer
          | _ => cases hsend
    | _ => exact hI x hx hsend response hans

/-- An accepted answer among the exchanges of a task is in the log of its document. -/
theorem carries_of_answered (hs : s.Sound ubl config) {t : Task} (ht : t ∈ s.tasks)
    (h : AnsweredAccepted t.history) :
    ∃ e, (t.job.document_id, e) ∈ s.log ∧ Carries (· ∈ ACCEPTED_CODES) e := by
  obtain ⟨e, he, response, hans, hcode⟩ := h
  exact ⟨e, (hs.task t ht).logged e he, response, hans, hcode⟩

/-- With decisive answers, what counts as a rejection is one. -/
theorem carries_of_answeredRejected (hs : s.Sound ubl config) (hl : LogDecisive s) {t : Task}
    (ht : t ∈ s.tasks) (h : AnsweredRejected t.history) :
    ∃ e, e ∈ t.history ∧ (t.job.document_id, e) ∈ s.log ∧ Carries (· = REJECTED_CODE) e := by
  obtain ⟨e, he, response, hans, hcode⟩ := h
  have hlog := (hs.task t ht).logged e he
  refine ⟨e, he, hlog, response, hans, ?_⟩
  rcases hcode with hcode | ⟨hsend, hnot⟩
  · exact hcode
  · exact (hl _ hlog hsend response hans).resolve_left hnot

/-- A status that only tasks give, and only on an answer of the document's log. -/
theorem foundedOn_of_reachableBy {C : System → SystemAction → Prop} {v : DocumentStatus}
    {p : String → Prop} (hs : (system ubl config).ReachableBy C s) (hv : v ≠ .pending)
    (hask : ∀ s, (system ubl config).ReachableBy C s → ∀ t ∈ s.tasks, ∀ d tr,
      TransitionFor t.job d t.history tr → tr.target = v →
        ∃ e, (t.job.document_id, e) ∈ s.log ∧ Carries p e) : FoundedOn s v p := by
  refine hs.invariant (I := fun s => FoundedOn s v p) ?_ ?_
  · rintro s ⟨tenants, now, rfl⟩ d hd
    cases hd
  · intro s a s' hr hI _ h d' hd' hstatus
    have hsound := sound_of_reachableBy hr
    have hstep := systemStep_inv h
    rcases hstep.status_cases d' hd' with
      ⟨d, hd, hid, hkeep⟩ | hpend | ⟨t, ht, tr, k, hrest, hid, hto⟩
    · obtain ⟨e, he, hcarries⟩ := hI d hd (hkeep.trans hstatus)
      exact ⟨e, hstep.log_mono _ (hid ▸ he), hcarries⟩
    · exact absurd (hstatus.symm.trans hpend) hv
    · obtain ⟨d, hW, htr⟩ := hsound.call ht hrest
      obtain ⟨e, he, hcarries⟩ := hask s hr t ht d tr htr (hto.symm.trans hstatus)
      rw [hid, htr.1, (hsound.found ht hW.found).1]
      exact ⟨e, hstep.log_mono _ he, hcarries⟩

theorem answeredAccepted_of_transition {job : Job} {d : Document} {t : History} {tr : Transition}
    (h : TransitionFor job d t tr) (htarget : tr.target = .dianAccepted) : AnsweredAccepted t := by
  have h := h.2
  simp only [htarget] at h
  exact h.2.2

theorem answeredRejected_of_transition {job : Job} {d : Document} {t : History} {tr : Transition}
    (h : TransitionFor job d t tr) (htarget : tr.target = .dianRejected) : AnsweredRejected t := by
  have h := h.2
  simp only [htarget] at h
  exact h.2.2

theorem verdictsFounded_of_reachableBy (hs : (system ubl config).ReachableBy DecisiveAnswers s) :
    VerdictsFounded s where
  accepted := foundedOn_of_reachableBy hs (by decide) fun s hr t ht d tr htr htarget =>
    carries_of_answered (sound_of_reachableBy hr) ht (answeredAccepted_of_transition htr htarget)
  rejected := foundedOn_of_reachableBy hs (by decide) fun s hr t ht d tr htr htarget => by
    obtain ⟨e, -, he⟩ := carries_of_answeredRejected (sound_of_reachableBy hr)
      (logDecisive_of_reachableBy hr) ht (answeredRejected_of_transition htr htarget)
    exact ⟨e, he⟩
  undecided := by
    intro t ht hnone tr k hrest
    have hsound := sound_of_reachableBy hs
    obtain ⟨d, -, htr⟩ := hsound.call ht hrest
    constructor <;> intro htarget
    · obtain ⟨e, he, response, hans, hcode⟩ := answeredAccepted_of_transition htr htarget
      exact hnone e he ⟨response, hans, .inl hcode⟩
    · obtain ⟨e, he, -, response, hans, hcode⟩ := carries_of_answeredRejected hsound
        (logDecisive_of_reachableBy hs) ht (answeredRejected_of_transition htr htarget)
      exact hnone e he ⟨response, hans, .inr hcode⟩

end Founded

/-- While `send_bill_sync` is answered with codes that decide, every verdict is the DIAN's; and
    those codes are exactly the ones on which the two paths agree. -/
theorem verdicts_founded (ubl : UblEngine) (config : ProcessorConfig) :
    (∀ s, (system ubl config).ReachableBy DecisiveAnswers s → VerdictsFounded s) ∧
      ∀ code, SameVerdict ubl code ↔ Decisive code :=
  ⟨fun _ hs => verdictsFounded_of_reachableBy hs, sameVerdict_iff ubl⟩

/-! ### Two runs -/

def sampleSystem : System := ⟨Db.fresh [⟨1, "900123456"⟩], 0, [], [], []⟩

theorem sampleSystem_start : (system sampleUbl sampleConfig).start sampleSystem := ⟨_, _, rfl⟩

def sampleWorld (answer : (c : Call) → Reply c) : World := ⟨answer, fun i => 1000 + i, .none⟩

/-- An invoice is issued and its job claimed. -/
def claimedInvoice : List SystemAction :=
  [.registerRange 7 1 sampleRange, .issueOutbound (sampleRequest 10 none none) (List.replicate 7 5),
    .tick 10, .claim "worker-1" 1 600 []]

/-- The task 0 makes `n` calls. -/
def works (n : Nat) (answer : (c : Call) → Reply c) : List SystemAction :=
  List.replicate n (.work 0 (sampleWorld answer))

/-- `send_bill_sync` is answered without a `StatusCode`. -/
def noStatusCode : (c : Call) → Reply c
  | .sendBillSync .. => .ok (dianResponse "<s:Envelope/>" none)
  | c => calmAnswer c

set_option maxRecDepth 10000 in
theorem noStatusCode_runs : ((system sampleUbl sampleConfig).run sampleSystem
    (claimedInvoice ++ works 10 noStatusCode)).isSome = true := by decide

/-- The system after that answer. -/
def unansweredSystem : System :=
  ((system sampleUbl sampleConfig).run sampleSystem
    (claimedInvoice ++ works 10 noStatusCode)).get noStatusCode_runs

set_option maxRecDepth 10000 in
/-- The answer that says nothing is stored as a rejection. -/
theorem verdict_not_founded :
    ¬ ∀ s, (system sampleUbl sampleConfig).Reachable s → VerdictsFounded s := by
  intro h
  have hfounded := h unansweredSystem (Machine.Reachable.get sampleSystem_start noStatusCode_runs)
  have hrejected : unansweredSystem.db.documents.any (fun d => d.status = .dianRejected) = true := by
    decide
  have hlog : unansweredSystem.log.all (fun x =>
      (dianAnswer? x.2).all fun response => response.status_code ≠ REJECTED_CODE) = true := by
    decide
  obtain ⟨d, hd, hstatus⟩ := List.any_eq_true.mp hrejected
  obtain ⟨e, he, response, hans, hcode⟩ := hfounded.rejected d hd (of_decide_eq_true hstatus)
  have hnot := List.all_eq_true.mp hlog _ he
  simp [hans, hcode] at hnot

set_option maxRecDepth 10000 in
theorem accepted_runs : ((system sampleUbl sampleConfig).run sampleSystem
    (claimedInvoice ++ works 10 calmAnswer)).isSome = true := by decide

/-- The DIAN accepts the invoice. -/
theorem verdicts_founded_accepted :
    VerdictsFounded (((system sampleUbl sampleConfig).run sampleSystem
      (claimedInvoice ++ works 10 calmAnswer)).get accepted_runs) := by
  refine (verdicts_founded sampleUbl sampleConfig).1 _
    (Machine.ReachableBy.get sampleSystem_start
      (Machine.meets_of_run ?_ (Option.some_get accepted_runs).symm) accepted_runs)
  intro s a ha
  rcases List.mem_append.mp ha with ha | ha
  · simp only [claimedInvoice, List.mem_cons, List.not_mem_nil, or_false] at ha
    rcases ha with rfl | rfl | rfl | rfl <;> trivial
  · rw [works, List.mem_replicate] at ha
    rw [ha.2]
    rintro tenant_id zip is_hab response ⟨⟩
    decide

end DianService
