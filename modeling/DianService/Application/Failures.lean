import DianService.Application.ProcessingCalls

/-
  Application: failures of the service's own database during a processing. A failed repository
  call is meant to end the processing with an error, so that the job is retried when its lease
  expires. All calls do that but the two made while the signed XML is prepared: their error is
  turned into the reason of a `ProcessingFailed`. `retried_iff` says of every run exactly when
  the intention is met.
-/

namespace DianService

open Lib Lib.Prog

/-! ## The intention -/

/-- A repository call that returned a `Database` error. -/
def databaseFailure (e : Exchange Call Reply) : Bool :=
  match repositoryError? e with
  | some error => error.isDatabase
  | none => false

def RepositoryFailed (t : History) : Prop := ∃ e ∈ t, databaseFailure e = true

/-- The processing moved the document to a terminal status. -/
def TerminalApplied (t : History) : Prop :=
  ∃ tr, (⟨.applyTransition tr, .ok true⟩ : Exchange Call Reply) ∈ t ∧ tr.target.isTerminal = true

/-- If a repository call failed, the processing returns an error and did not move the document
    to a terminal status. -/
def Retried {α : Type} (t : History) (r : Except DomainError α) : Prop :=
  RepositoryFailed t → (∃ e, r = .error e) ∧ ¬ TerminalApplied t

/-! ## When it is met -/

/-- The calls made to prepare the signed XML. -/
def Call.prepares : Call → Bool
  | .findNumberingRange _ | .storeArtifacts .. => true
  | _ => false

/-- The calls that end a processing: the transition, or closing the job instead. -/
def Call.closes : Call → Bool
  | .applyTransition _ | .complete _ => true
  | _ => false

def PreparationFailed (t : History) : Prop :=
  ∃ e ∈ t, e.call.prepares = true ∧ databaseFailure e = true

def ClosingFailed (t : History) : Prop :=
  ∃ e ∈ t, e.call.closes = true ∧ (repositoryError? e).isSome

def Outcome {α : Type} (t : History) (r : Except DomainError α) : Prop :=
  Retried t r ↔ (PreparationFailed t → ClosingFailed t)

def Healthy (t : History) : Prop := ∀ e ∈ t, databaseFailure e = false

/-- The processing has not tried to end yet. -/
def Ongoing (t : History) : Prop := ∀ e ∈ t, e.call.closes = false

section Outcome

variable {α : Type} {t : History} {r : Except DomainError α} {x : Exchange Call Reply}

theorem Healthy.append (h : Healthy t) {q : History} (hq : Healthy q) : Healthy (t ++ q) :=
  fun e he => (List.mem_append.mp he).elim (h e) (hq e)

theorem Ongoing.append (h : Ongoing t) {q : History} (hq : Ongoing q) : Ongoing (t ++ q) :=
  fun e he => (List.mem_append.mp he).elim (h e) (hq e)

theorem PreparationFailed.append (h : PreparationFailed t) (q : History) :
    PreparationFailed (t ++ q) := by
  obtain ⟨e, he, h⟩ := h
  exact ⟨e, List.mem_append_left _ he, h⟩

theorem Ongoing.not_terminalApplied (h : Ongoing t) : ¬ TerminalApplied t := by
  rintro ⟨tr, he, -⟩
  exact absurd (h _ he) (by simp [Call.closes])

theorem Healthy.not_preparationFailed (h : Healthy t) : ¬ PreparationFailed t := by
  rintro ⟨e, he, -, hf⟩
  simp [h e he] at hf

theorem outcome_of_healthy (h : Healthy t) : Outcome t r := by
  have hrep : ¬ RepositoryFailed t := by
    rintro ⟨e, he, hf⟩
    simp [h e he] at hf
  exact ⟨fun _ hp => absurd hp h.not_preparationFailed, fun _ hr => absurd hr hrep⟩

/-- An exchange that ends the processing with its error moves no document. -/
theorem not_terminalApplied_append (h : ¬ TerminalApplied t)
    (hx : ∀ tr, x ≠ ⟨.applyTransition tr, .ok true⟩) : ¬ TerminalApplied (t ++ [x]) := by
  rintro ⟨tr, he, hterm⟩
  rcases List.mem_append.mp he with he | he
  · exact h ⟨tr, he, hterm⟩
  · exact hx tr (List.mem_singleton.mp he).symm

theorem not_applied_of_error {e : DomainError} (hx : repositoryError? x = some e)
    (tr : Transition) : x ≠ ⟨.applyTransition tr, .ok true⟩ := by
  rintro rfl
  simp [repositoryError?] at hx

/-- A failed call outside the preparation, its error passed on. -/
theorem outcome_of_error (hh : Healthy t) (hnt : ¬ TerminalApplied t) {e : DomainError}
    (hx : repositoryError? x = some e) (hprep : x.call.prepares = false) :
    Outcome (t ++ [x]) (.error e : Except DomainError α) := by
  refine ⟨fun _ hp => ?_, fun _ _ =>
    ⟨⟨e, rfl⟩, not_terminalApplied_append hnt (not_applied_of_error hx)⟩⟩
  obtain ⟨y, hy, hyp, hyf⟩ := hp
  rcases List.mem_append.mp hy with hy | hy
  · simp [hh y hy] at hyf
  · rw [List.mem_singleton.mp hy, hprep] at hyp
    cases hyp

/-- A processing that could not be closed. -/
theorem outcome_of_closing_error (hnt : ¬ TerminalApplied t) {e : DomainError}
    (hx : repositoryError? x = some e) (hclose : x.call.closes = true) :
    Outcome (t ++ [x]) (.error e : Except DomainError α) :=
  ⟨fun _ _ => ⟨x, List.mem_append_right _ (List.mem_singleton_self _), hclose, by simp [hx]⟩,
    fun _ _ => ⟨⟨e, rfl⟩, not_terminalApplied_append hnt (not_applied_of_error hx)⟩⟩

/-- A failed preparation that was recorded as the failure of the document. -/
theorem outcome_of_closed (hp : PreparationFailed t) (hc : ¬ ClosingFailed t) (a : α) :
    Outcome t (.ok a : Except DomainError α) := by
  refine ⟨fun h _ => ?_, fun h => absurd (h hp) hc⟩
  obtain ⟨e, he, -, hf⟩ := hp
  obtain ⟨⟨_, hr⟩, -⟩ := h ⟨e, he, hf⟩
  cases hr

end Outcome

/-! ## Every run -/

/-- Nothing is asked of the calls here. -/
abbrev AnyCall : History → Call → Prop := fun _ _ => True

section Runs

variable {job : Job} {d : Document} {t : History} {Q : History → Except DomainError Unit → Prop}

theorem wp_transition_outcome {tr : Transition} (ho : Ongoing t)
    (hc : Healthy t ∨ PreparationFailed t)
    (hQ : ∀ t' r, Outcome t' r → (Healthy t → ∀ u, r = .ok u → Healthy t') → Q t' r) :
    wp AnyCall Q t (transition job tr).run := by
  -- a transition or a closing call that succeeds
  have hok : ∀ q : History, (∀ e ∈ q, repositoryError? e = none) → Q (t ++ q) (.ok ()) := by
    intro q hq
    have hq' : Healthy q := fun e he => by simp [databaseFailure, hq e he]
    refine hQ _ _ ?_ fun hh _ _ => hh.append hq'
    rcases hc with hh | hp
    · exact outcome_of_healthy (hh.append hq')
    · refine outcome_of_closed (hp.append q) ?_ ()
      rintro ⟨e, he, hclose, hsome⟩
      rcases List.mem_append.mp he with he | he
      · simp [ho e he] at hclose
      · simp [hq e he] at hsome
  have herror : ∀ {t' : History} {x : Exchange Call Reply} {e : DomainError},
      ¬ TerminalApplied t' → repositoryError? x = some e → x.call.closes = true →
      Q (t' ++ [x]) (.error e) := fun hnt hx hclose =>
    hQ _ _ (outcome_of_closing_error hnt hx hclose) (by simp)
  simp only [transition, wp_run_bind, wp_applyTransition]
  refine ⟨trivial, fun r => ?_⟩
  rcases r with e | applied
  · exact herror ho.not_terminalApplied rfl rfl
  · cases applied with
    | true => exact hok _ (by simp [repositoryError?])
    | false =>
        simp only [Bool.false_eq_true, if_false, wp_complete]
        refine ⟨trivial, fun r => ?_⟩
        cases r with
        | error e =>
            exact herror (not_terminalApplied_append ho.not_terminalApplied (by simp)) rfl rfl
        | ok u =>
            rw [List.append_assoc]
            exact hok _ (by simp [repositoryError?])

theorem wp_fail_outcome (ho : Ongoing t) (hc : Healthy t ∨ PreparationFailed t) (reason : String)
    (hQ : ∀ t' r, Outcome t' r → Q t' r) :
    wp AnyCall Q t (fail job d reason).run := by
  simp only [fail, newEvent, wp_run_bind, wp_newUuid, wp_utcNow, wp_run_pure, List.append_assoc]
  refine ⟨trivial, fun id => ⟨trivial, fun created_at => ?_⟩⟩
  refine wp_transition_outcome (ho.append (by simp [Ongoing, Call.closes])) ?_ fun t' r h _ => hQ t' r h
  exact hc.imp (fun hh => hh.append (by simp [Healthy, databaseFailure, repositoryError?]))
    fun hp => hp.append _

/-- No repository call has failed and the processing has not tried to end. -/
structure Fine (t : History) : Prop where
  ongoing : Ongoing t
  healthy : Healthy t

theorem Fine.append (h : Fine t) {q : History} (hq : Ongoing q ∧ Healthy q) : Fine (t ++ q) :=
  ⟨h.ongoing.append hq.1, h.healthy.append hq.2⟩

/-- A call that neither failed nor tried to end the processing. -/
theorem Fine.step (h : Fine t) {x : Exchange Call Reply} (hc : x.call.closes = false)
    (hf : databaseFailure x = false) : Fine (t ++ [x]) :=
  h.append ⟨by simpa [Ongoing] using hc, by simpa [Healthy] using hf⟩

/-- The last call of a processing, outside the preparation: its error is passed on. -/
theorem Fine.last_error (h : Fine t) {x : Exchange Call Reply} {e : DomainError}
    (hx : repositoryError? x = some e) (hprep : x.call.prepares = false) :
    Outcome (t ++ [x]) (.error e : Except DomainError Unit) :=
  outcome_of_error h.healthy h.ongoing.not_terminalApplied hx hprep

theorem Fine.last_ok (h : Fine t) {x : Exchange Call Reply} (hx : databaseFailure x = false) :
    Outcome (t ++ [x]) (.ok () : Except DomainError Unit) :=
  outcome_of_healthy (h.healthy.append (by simpa [Healthy] using hx))

theorem wp_closeWith_outcome (hF : Fine t) (status : DocumentStatus)
    (event_status : EventStatus) (response : DianResponse)
    (hQ : ∀ t' r, Outcome t' r → (∀ u, r = .ok u → Healthy t') → Q t' r) :
    wp AnyCall Q t (closeWith job d status event_status response).run := by
  simp only [closeWith, responseEvent, newEvent, wp_run_bind, wp_newUuid, wp_utcNow, wp_run_pure]
  refine ⟨trivial, fun id => ⟨trivial, fun created_at => ?_⟩⟩
  have hF' := (hF.step (x := ⟨.newUuid, id⟩) rfl rfl).step (x := ⟨.utcNow, created_at⟩) rfl rfl
  exact wp_transition_outcome hF'.ongoing (.inl hF'.healthy)
    fun t' r h hok => hQ t' r h (hok hF'.healthy)

theorem wp_retry_outcome (hF : Fine t) (attempts : Int) (error : String) :
    wp AnyCall Outcome t (do
      let run_at ← afterBackoff attempts
      retry job.id run_at error : Service DomainError Unit).run := by
  simp only [afterBackoff, wp_run_bind, wp_utcNow, wp_backoffWithJitter, wp_run_pure, wp_retry]
  refine ⟨trivial, fun now => ⟨trivial, fun delay => ⟨trivial, fun r => ?_⟩⟩⟩
  have hF' := (hF.step (x := ⟨.utcNow, now⟩) rfl rfl).step
    (x := ⟨.backoffWithJitter attempts, delay⟩) rfl rfl
  cases r with
  | error e => exact hF'.last_error rfl rfl
  | ok u => exact hF'.last_ok rfl

theorem wp_transmissionFailed_outcome (hF : Fine t) (error : DomainError) :
    wp AnyCall Outcome t (transmissionFailed job d error).run := by
  simp only [transmissionFailed, newEvent, wp_run_bind, wp_recordFailure, wp_newUuid, wp_utcNow,
    wp_run_pure]
  refine ⟨trivial, fun _ => ⟨trivial, fun id => ⟨trivial, fun created_at => ?_⟩⟩⟩
  have hF' := ((hF.step (x := ⟨.recordFailure (isHabilitacion d), ()⟩) rfl rfl).step
    (x := ⟨.newUuid, id⟩) rfl rfl).step (x := ⟨.utcNow, created_at⟩) rfl rfl
  split
  · exact wp_transition_outcome hF'.ongoing (.inl hF'.healthy) fun t' r h _ => h
  · rw [wp_run_bind, wp_recordEvent]
    refine ⟨trivial, fun r => ?_⟩
    cases r with
    | error e => exact hF'.last_error rfl rfl
    | ok u => exact wp_retry_outcome (hF'.step rfl rfl) _ _

variable (ubl : UblEngine) (config : ProcessorConfig)

theorem wp_sendTestSet_outcome (hF : Fine t) (zip : List UInt8) (test_set_id : String) :
    wp AnyCall Outcome t (sendTestSet config job d zip test_set_id).run := by
  simp only [sendTestSet, wp_run_bind, wp_sendTestSetAsync]
  refine ⟨trivial, fun r => ?_⟩
  cases r with
  | error e => exact wp_transmissionFailed_outcome (hF.step rfl rfl) e
  | ok zip_key =>
      simp only [newEvent, wp_run_bind, wp_recordSuccess, wp_utcNow, wp_newUuid, wp_run_pure]
      refine ⟨trivial, fun _ => ⟨trivial, fun now => ⟨trivial, fun id => ⟨trivial,
        fun created_at => ⟨trivial, fun poll_id => ?_⟩⟩⟩⟩⟩
      have hF' := (hF.step (x := ⟨.sendTestSetAsync d.tenant_id zip test_set_id
        (isHabilitacion d), .ok zip_key⟩) rfl rfl).step
        (x := ⟨.recordSuccess (isHabilitacion d), ()⟩) rfl rfl
      have hF'' := (((hF'.step (x := ⟨.utcNow, now⟩) rfl rfl).step (x := ⟨.newUuid, id⟩) rfl
        rfl).step (x := ⟨.utcNow, created_at⟩) rfl rfl).step (x := ⟨.newUuid, poll_id⟩) rfl rfl
      exact wp_transition_outcome hF''.ongoing (.inl hF''.healthy) fun t' r h _ => h

/-- The AttachedDocument makes no repository call. -/
theorem wp_attachedDocument_outcome (hh : Healthy t) (a : Artifacts) (xml : String) :
    wp AnyCall Outcome t (attachedDocument ubl d a xml : Service DomainError Unit).run := by
  have hok : ∀ q : History, Healthy q → Outcome (t ++ q) (.ok () : Except DomainError Unit) :=
    fun q hq => outcome_of_healthy (hh.append hq)
  simp only [attachedDocument, wp_run_bind, ExceptT.run_lift, wp_map_ok, wp_run_ofExcept,
    wp_utcNow, wp_newUuid, wp_signForTenant, wp_run_pure, List.append_assoc]
  split
  · refine ⟨trivial, fun now => ⟨trivial, fun id => ?_⟩⟩
    split
    · refine ⟨trivial, fun signed => ?_⟩
      cases signed <;> exact hok _ (by simp [Healthy, databaseFailure, repositoryError?])
    · exact hok _ (by simp [Healthy, databaseFailure, repositoryError?])
  · exact outcome_of_healthy hh

theorem wp_sendBill_outcome (hF : Fine t) (a : Artifacts) (zip : List UInt8) :
    wp AnyCall Outcome t (sendBill ubl job d a zip).run := by
  simp only [sendBill, wp_run_bind, wp_sendBillSync]
  refine ⟨trivial, fun r => ?_⟩
  cases r with
  | error e => exact wp_transmissionFailed_outcome (hF.step rfl rfl) e
  | ok response =>
      simp only [wp_run_bind, wp_recordSuccess]
      refine ⟨trivial, fun _ => ?_⟩
      have hF' := (hF.step (x := ⟨.sendBillSync d.tenant_id zip (isHabilitacion d),
        .ok response⟩) rfl rfl).step (x := ⟨.recordSuccess (isHabilitacion d), ()⟩) rfl rfl
      split
      · rw [wp_run_bind]
        refine wp_closeWith_outcome hF' _ _ _ fun t' r h hok => ?_
        cases r with
        | error e => exact h
        | ok u =>
            simp only
            split
            · exact wp_attachedDocument_outcome ubl (hok u rfl) a _
            · exact h
      · exact wp_closeWith_outcome hF' _ _ _ fun t' r h _ => h

theorem wp_submit_outcome (hF : Fine t) (a : Artifacts) :
    wp AnyCall Outcome t (submit ubl config job d a).run := by
  unfold submit
  split
  · exact wp_fail_outcome hF.ongoing (.inl hF.healthy) _ fun _ _ h => h
  · split
    · exact wp_sendTestSet_outcome config hF _ _
    · exact wp_sendBill_outcome ubl hF a _

theorem wp_releaseAfterCooldown_outcome (hF : Fine t) :
    wp AnyCall Outcome t (releaseAfterCooldown config job).run := by
  simp only [releaseAfterCooldown, wp_run_bind, wp_utcNow, wp_release]
  refine ⟨trivial, fun now => ⟨trivial, fun r => ?_⟩⟩
  have hF' := hF.step (x := ⟨.utcNow, now⟩) rfl rfl
  cases r with
  | error e => exact hF'.last_error rfl rfl
  | ok u => exact hF'.last_ok rfl

/-- The preparation fails either for the document or the signer, or for the database. -/
theorem artifactsRun_cases {q : History} {α : Type} {r : Except String α}
    (h : ArtifactsRun d q r) : Ongoing q ∧ (Healthy q ∨ PreparationFailed q) := by
  refine ⟨fun e he => ?_, ?_⟩
  · have hcall := h.calls e he
    obtain ⟨c, r⟩ := e
    cases c <;> simp_all [ArtifactsCall, Call.closes]
  · by_cases hh : Healthy q
    · exact .inl hh
    · right
      simp only [Healthy, not_forall, Bool.not_eq_false] at hh
      obtain ⟨e, he, hf⟩ := hh
      refine ⟨e, he, ?_, hf⟩
      have hcall := h.calls e he
      obtain ⟨c, r⟩ := e
      cases c <;> simp_all [ArtifactsCall, Call.prepares, databaseFailure, repositoryError?]

theorem wp_acceptedBefore_outcome (hF : Fine t) (a : Artifacts)
    {Q : History → Except DomainError (Option DianResponse) → Prop}
    (hQ : ∀ t' r, Fine t' → Q t' (.ok r)) :
    wp AnyCall Q t (acceptedBefore job d a).run := by
  unfold acceptedBefore
  split
  · rw [wp_run_bind, wp_getStatus]
    refine ⟨trivial, fun status => ?_⟩
    cases status with
    | error e => exact hQ _ _ (hF.step rfl rfl)
    | ok response =>
        simp only
        split <;> exact hQ _ _ (hF.step rfl rfl)
  · exact hQ _ _ hF

theorem wp_transmitPending_outcome (hF : Fine t) :
    wp AnyCall Outcome t (transmitPending ubl config job d).run := by
  simp only [transmitPending, wp_run_bind, wp_canExecute]
  refine ⟨trivial, fun r => ?_⟩
  have hF' := hF.step (x := ⟨.canExecute (isHabilitacion d), r⟩) rfl rfl
  cases r with
  | false => exact wp_releaseAfterCooldown_outcome config hF'
  | true =>
      simp only [if_true, wp_run_bind, ExceptT.run_lift, wp_map_ok]
      refine wp_artifacts ubl (fun _ _ _ _ => trivial) (fun _ _ _ _ _ _ _ => trivial)
        fun q r hr _ => ?_
      obtain ⟨hongoing, hcases⟩ := artifactsRun_cases hr
      cases r with
      | error reason =>
          refine wp_fail_outcome (hF'.ongoing.append hongoing) ?_ reason fun _ _ h => h
          rcases hcases with hh | ⟨e, he, hp⟩
          · exact .inl (hF'.healthy.append hh)
          · exact .inr ⟨e, List.mem_append_right _ he, hp⟩
      | ok a =>
          have hq : Healthy q := fun e he => by simp [databaseFailure, hr.ok a rfl e he]
          rw [wp_run_bind]
          refine wp_acceptedBefore_outcome (hF'.append ⟨hongoing, hq⟩) a fun t' r hF'' => ?_
          cases r with
          | none => exact wp_submit_outcome ubl config hF'' a
          | some response =>
              simp only [wp_run_bind, wp_recordSuccess]
              refine ⟨trivial, fun _ => ?_⟩
              exact wp_closeWith_outcome (hF''.step rfl rfl) _ _ _ fun t' r h _ => h

theorem wp_pollAgain_outcome (hF : Fine t) (outcome : String) :
    wp AnyCall Outcome t (pollAgain job d outcome).run := by
  unfold pollAgain
  split
  · simp only [newEvent, wp_run_bind, wp_newUuid, wp_utcNow, wp_run_pure, wp_recordEvent]
    refine ⟨trivial, fun id => ⟨trivial, fun created_at => ⟨trivial, fun r => ?_⟩⟩⟩
    have hF' := (hF.step (x := ⟨.newUuid, id⟩) rfl rfl).step (x := ⟨.utcNow, created_at⟩) rfl rfl
    cases r with
    | error e => exact hF'.last_error rfl rfl
    | ok u =>
        refine ⟨trivial, fun r => ?_⟩
        cases r with
        | error e => exact (hF'.step rfl rfl).last_error rfl rfl
        | ok u => exact (hF'.step rfl rfl).last_ok rfl
  · exact wp_retry_outcome hF _ _

theorem wp_pollStatus_outcome (hF : Fine t) (zip_key : String) :
    wp AnyCall Outcome t (pollStatus job d zip_key).run := by
  simp only [pollStatus, wp_run_bind, wp_getStatusZip]
  refine ⟨trivial, fun r => ?_⟩
  cases r with
  | error e =>
      rw [wp_run_bind, wp_recordFailure]
      exact ⟨trivial, fun _ => wp_pollAgain_outcome ((hF.step rfl rfl).step rfl rfl) _⟩
  | ok response =>
      simp only [wp_run_bind, wp_recordSuccess]
      refine ⟨trivial, fun _ => ?_⟩
      have hF' := (hF.step (x := ⟨.getStatusZip d.tenant_id zip_key (isHabilitacion d),
        .ok response⟩) rfl rfl).step (x := ⟨.recordSuccess (isHabilitacion d), ()⟩) rfl rfl
      split
      · exact wp_closeWith_outcome hF' _ _ _ fun t' r h _ => h
      · split
        · exact wp_closeWith_outcome hF' _ _ _ fun t' r h _ => h
        · exact wp_pollAgain_outcome hF' _

theorem fine_nil : Fine [] := ⟨by simp [Ongoing], by simp [Healthy]⟩

/-- A processing that ends with one call on its job after looking the document up. -/
theorem outcome_of_job_call {x : Exchange Call Reply} (hF : Fine t)
    (hprep : x.call.prepares = false) {r : Except DomainError Unit}
    (hx : repositoryError? x = match r with | .error e => some e | .ok _ => none) :
    Outcome (t ++ [x]) r := by
  cases r with
  | error e => exact hF.last_error hx hprep
  | ok u => exact hF.last_ok (by simp [databaseFailure, hx])

theorem wp_transmit_outcome : wp AnyCall Outcome [] (transmit ubl config job).run := by
  simp only [transmit, wp_run_bind, wp_findDocument]
  refine ⟨trivial, fun r => ?_⟩
  rcases r with e | found
  · exact fine_nil.last_error rfl rfl
  · have hF := fine_nil.step (x := ⟨.findDocument job.document_id, .ok found⟩) rfl rfl
    cases found with
    | none => exact ⟨trivial, fun r => outcome_of_job_call hF rfl (by cases r <;> rfl)⟩
    | some d =>
        simp only
        split
        · exact ⟨trivial, fun r => outcome_of_job_call hF rfl (by cases r <;> rfl)⟩
        · exact wp_transmitPending_outcome ubl config hF

theorem wp_poll_outcome : wp AnyCall Outcome [] (poll config job).run := by
  simp only [poll, wp_run_bind, wp_findDocument]
  refine ⟨trivial, fun r => ?_⟩
  rcases r with e | found
  · exact fine_nil.last_error rfl rfl
  · have hF := fine_nil.step (x := ⟨.findDocument job.document_id, .ok found⟩) rfl rfl
    cases found with
    | none => exact ⟨trivial, fun r => outcome_of_job_call hF rfl (by cases r <;> rfl)⟩
    | some d =>
        simp only
        split
        · exact ⟨trivial, fun r => outcome_of_job_call hF rfl (by cases r <;> rfl)⟩
        · split
          · exact ⟨trivial, fun r => outcome_of_job_call hF rfl (by cases r <;> rfl)⟩
          · simp only [wp_run_bind, wp_canExecute]
            refine ⟨trivial, fun r => ?_⟩
            have hF' := hF.step (x := ⟨.canExecute (isHabilitacion d), r⟩) rfl rfl
            cases r with
            | true => exact wp_pollStatus_outcome hF' _
            | false => exact wp_releaseAfterCooldown_outcome config hF'

theorem wp_process_outcome (job : Job) : wp AnyCall Outcome [] (process ubl config job).run := by
  unfold process
  cases job.kind with
  | transmit => exact wp_transmit_outcome ubl config
  | pollStatus => exact wp_poll_outcome config

end Runs

/-- In every run of `process`, whatever the job and the replies: a failed repository call makes
    it return an error with the document in no terminal status, if and only if the failure of a
    `find_numbering_range` or `store_artifacts` (if any) is followed by a failure of the
    transition or of closing the job. -/
theorem retried_iff (ubl : UblEngine) (config : ProcessorConfig) (job : Job) {t : History}
    {r : Except DomainError Unit} (h : Runs (process ubl config job).run t r) :
    Retried t r ↔ (PreparationFailed t → ClosingFailed t) :=
  end_of_path (wp_process_outcome ubl config job) h

/-! ### Two runs -/

def sampleUbl : UblEngine where
  invoice_payload := fun body => .ok ⟨"900123456", some "tk", body⟩
  payroll_payload := fun body => .ok ⟨"900123456", body⟩
  support_document_payload := fun body => .ok ⟨"900123456", body⟩
  generate_invoice_xml := fun _ _ => .ok ("<Invoice/>", "cufe-1")
  generate_payroll_xml := fun _ => .ok ("<NominaIndividual/>", "cune-1")
  generate_support_document_xml := fun _ => .ok ("<Invoice/>", "cuds-1")
  generate_attached_document_xml := fun _ _ _ _ _ _ _ => .ok "<AttachedDocument/>"
  compress_xml_to_zip := fun _ _ _ _ => .ok ([80, 75], "z.zip")

def sampleConfig : ProcessorConfig where
  transmit_max_attempts := 5
  poll_max_attempts := 30
  poll_initial_delay := 10000000
  breaker_cooldown := 30000000

/-- An invoice numbered on the range 7. -/
def sampleInvoice : Document where
  id := 10
  tenant_id := 1
  direction := .outbound
  issuer_nit := ""
  document_type := .invoice
  pfx := "FE"
  document_number := 1
  numbering_range_id := some 7
  cufe_cude := ""
  payload := .object []
  original_xml := none
  signed_xml := none
  status := .pending
  created_at := 0

def sampleJob : Job where
  id := 20
  kind := .transmit
  document_id := 10
  payload := .object []
  attempts := 1
  max_attempts := 5

/-- Everything works and the DIAN accepts. -/
def calmAnswer : (c : Call) → Reply c
  | .findDocument _ => .ok (some sampleInvoice)
  | .findNumberingRange _ => .ok none
  | .storeArtifacts .. | .recordEvent _ | .complete _ | .retry .. | .release .. | .bury .. => .ok ()
  | .applyTransition _ => .ok true
  | .signForTenant .. => .ok "<signed/>"
  | .sendTestSetAsync .. => .ok "zip-key-1"
  | .sendBillSync .. | .getStatus .. | .getStatusZip .. => .ok ⟨"00", "Procesado", none, none⟩
  | .canExecute _ => true
  | .recordSuccess _ | .recordFailure _ => ()
  | .utcNow => 0
  | .newUuid => 99
  | .backoffWithJitter _ => 500000

/-- The database does not answer the query for the numbering range. -/
def rangeTimeout : (c : Call) → Reply c
  | .findNumberingRange _ => .error (.database "pool timed out")
  | c => calmAnswer c

/-- The invoice ends as `ProcessingFailed` and its job as done. -/
theorem not_retried :
    ¬ ∀ ubl config job t r, Runs (process ubl config job).run t r → Retried t r := by
  intro h
  have hrun := h sampleUbl sampleConfig sampleJob _ _
    (runs_runWith (process sampleUbl sampleConfig sampleJob).run rangeTimeout)
  obtain ⟨⟨e, he⟩, -⟩ := hrun (List.any_eq_true.mp (by decide))
  cases he

def databaseDown : (c : Call) → Reply c
  | .findDocument _ => .error (.database "pool timed out")
  | c => calmAnswer c

/-- The database does not answer the first query: the processing returns the error. -/
theorem retried_iff_down :
    Retried ((process sampleUbl sampleConfig sampleJob).run.runWith databaseDown).1
      ((process sampleUbl sampleConfig sampleJob).run.runWith databaseDown).2 :=
  (retried_iff sampleUbl sampleConfig sampleJob (runs_runWith _ databaseDown)).mpr (by
    rintro ⟨e, he, hp, -⟩
    have hnone : (((process sampleUbl sampleConfig sampleJob).run.runWith databaseDown).1.any
        fun e => e.call.prepares) = false := by decide
    exact absurd hp (List.any_eq_false.mp hnone e he))

end DianService
