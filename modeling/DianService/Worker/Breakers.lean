import DianService.Application.Failures
import DianService.Application.Resilience
import DianService.Lib.Machine
import DianService.Soap.Client

/-
  Worker: the circuit breakers that all the jobs of a process share. The breaker is told of an
  error by the code that called the DIAN, which sees a `DomainError` and not whether a request
  was ever made for it. A job whose envelope cannot be signed therefore counts as an outage.

  A processing is interleaved here with the others of its process only. What the repositories,
  the signer of documents and the clock answer is left open, the other processes included. The
  calls of the DIAN go through the client, those of the breaker to the breaker.
-/

namespace DianService

open Lib Lib.Prog

/-! ## When the breaker is told -/

/-- An error the breaker of the environment is told of. -/
def failedOn (is_hab : Bool) : Exchange Call Reply → Bool
  | ⟨.sendBillSync _ _ b, .error _⟩ | ⟨.sendTestSetAsync _ _ _ b, .error _⟩
  | ⟨.getStatusZip _ _ b, .error _⟩ => b == is_hab
  | _ => false

/-- An answer the breaker of the environment is told of. -/
def answeredOn (is_hab : Bool) : Exchange Call Reply → Bool
  | ⟨.sendBillSync _ _ b, .ok _⟩ | ⟨.sendTestSetAsync _ _ _ b, .ok _⟩
  | ⟨.getStatus _ _ b, .ok _⟩ | ⟨.getStatusZip _ _ b, .ok _⟩ => b == is_hab
  | _ => false

/-- The breaker is told right after the call it is told of. A job is released where the breaker
    lets nothing through. -/
def BreakerCall (t : History) : Call → Prop
  | .recordFailure is_hab => ∃ e, t.getLast? = some e ∧ failedOn is_hab e = true
  | .recordSuccess is_hab => ∃ e, t.getLast? = some e ∧ answeredOn is_hab e = true
  | .release .. => ∃ is_hab, (⟨.canExecute is_hab, false⟩ : Exchange Call Reply) ∈ t
  | _ => True

section Calls

variable {ubl : UblEngine} {config : ProcessorConfig} {job : Job} {d : Document} {t : History}
  {Q : History → Except DomainError Unit → Prop}

theorem breaker_transition (tr : Transition) (hQ : ∀ t r, Q t r) :
    wp BreakerCall Q t (transition job tr).run := by
  simp only [transition, wp_run_bind, wp_applyTransition]
  refine ⟨trivial, fun r => ?_⟩
  cases r with
  | error e => exact hQ _ _
  | ok applied =>
      cases applied with
      | true => exact hQ _ _
      | false => exact ⟨trivial, fun r => hQ _ _⟩

theorem breaker_fail (reason : String) (hQ : ∀ t r, Q t r) :
    wp BreakerCall Q t (fail job d reason).run := by
  simp only [fail, newEvent, wp_run_bind, wp_newUuid, wp_utcNow, wp_run_pure]
  exact ⟨trivial, fun id => ⟨trivial, fun now => breaker_transition _ hQ⟩⟩

theorem breaker_closeWith (status : DocumentStatus) (event_status : EventStatus)
    (response : DianResponse) (hQ : ∀ t r, Q t r) :
    wp BreakerCall Q t (closeWith job d status event_status response).run := by
  simp only [closeWith, responseEvent, newEvent, wp_run_bind, wp_newUuid, wp_utcNow, wp_run_pure]
  exact ⟨trivial, fun id => ⟨trivial, fun now => breaker_transition _ hQ⟩⟩

/-- A job that is tried again later. -/
theorem breaker_retryLater (attempts : Int) (error : String) (hQ : ∀ t r, Q t r) :
    wp BreakerCall Q t (afterBackoff attempts >>= fun run_at => retry job.id run_at error).run := by
  simp only [afterBackoff, wp_run_bind, wp_utcNow, wp_backoffWithJitter, wp_run_pure, wp_retry]
  exact ⟨trivial, fun now => ⟨trivial, fun delay => ⟨trivial, fun r => hQ _ _⟩⟩⟩

theorem breaker_transmissionFailed {error : DomainError}
    (h : ∃ e, t.getLast? = some e ∧ failedOn (isHabilitacion d) e = true) (hQ : ∀ t r, Q t r) :
    wp BreakerCall Q t (transmissionFailed job d error).run := by
  simp only [transmissionFailed, newEvent, wp_run_bind, wp_recordFailure, wp_newUuid, wp_utcNow,
    wp_run_pure]
  refine ⟨h, fun _ => ⟨trivial, fun id => ⟨trivial, fun created_at => ?_⟩⟩⟩
  split
  · exact breaker_transition _ hQ
  · simp only [wp_run_bind, wp_recordEvent]
    refine ⟨trivial, fun r => ?_⟩
    cases r with
    | error e => exact hQ _ _
    | ok u => exact breaker_retryLater _ _ hQ

theorem breaker_attachedDocument (a : Artifacts) (xml : String) (hQ : ∀ t r, Q t r) :
    wp BreakerCall Q t (attachedDocument ubl d a xml).run := by
  simp only [attachedDocument, wp_run_bind, ExceptT.run_lift, wp_map_ok, wp_run_ofExcept,
    wp_utcNow, wp_newUuid, wp_signForTenant, wp_run_pure]
  split
  · refine ⟨trivial, fun now => ⟨trivial, fun id => ?_⟩⟩
    split
    · refine ⟨trivial, fun signed => ?_⟩
      cases signed <;> exact hQ _ _
    · exact hQ _ _
  · exact hQ _ _

theorem breaker_releaseAfterCooldown {is_hab : Bool}
    (h : (⟨.canExecute is_hab, false⟩ : Exchange Call Reply) ∈ t) (hQ : ∀ t r, Q t r) :
    wp BreakerCall Q t (releaseAfterCooldown config job).run := by
  simp only [releaseAfterCooldown, wp_run_bind, wp_utcNow, wp_release]
  exact ⟨trivial, fun now => ⟨⟨is_hab, List.mem_append_left _ h⟩, fun r => hQ _ _⟩⟩

theorem breaker_sendTestSet (zip : List UInt8) (test_set_id : String) (hQ : ∀ t r, Q t r) :
    wp BreakerCall Q t (sendTestSet config job d zip test_set_id).run := by
  simp only [sendTestSet, wp_run_bind, wp_sendTestSetAsync]
  refine ⟨trivial, fun r => ?_⟩
  cases r with
  | error e => exact breaker_transmissionFailed ⟨_, List.getLast?_concat, by simp [failedOn]⟩ hQ
  | ok zip_key =>
      simp only [newEvent, wp_run_bind, wp_recordSuccess, wp_utcNow, wp_newUuid, wp_run_pure]
      refine ⟨⟨_, List.getLast?_concat, by simp [answeredOn]⟩, fun _ => ?_⟩
      exact ⟨trivial, fun now => ⟨trivial, fun id => ⟨trivial, fun created_at =>
        ⟨trivial, fun poll_id => breaker_transition _ hQ⟩⟩⟩⟩

theorem breaker_sendBill (a : Artifacts) (zip : List UInt8) (hQ : ∀ t r, Q t r) :
    wp BreakerCall Q t (sendBill ubl job d a zip).run := by
  simp only [sendBill, wp_run_bind, wp_sendBillSync]
  refine ⟨trivial, fun r => ?_⟩
  cases r with
  | error e => exact breaker_transmissionFailed ⟨_, List.getLast?_concat, by simp [failedOn]⟩ hQ
  | ok response =>
      simp only [wp_run_bind, wp_recordSuccess]
      refine ⟨⟨_, List.getLast?_concat, by simp [answeredOn]⟩, fun _ => ?_⟩
      split
      · simp only [wp_run_bind]
        refine breaker_closeWith _ _ _ fun t r => ?_
        cases r with
        | error e => exact hQ _ _
        | ok u =>
            simp only
            split
            · exact breaker_attachedDocument a _ hQ
            · exact hQ _ _
      · exact breaker_closeWith _ _ _ hQ

theorem breaker_submit (a : Artifacts) (hQ : ∀ t r, Q t r) :
    wp BreakerCall Q t (submit ubl config job d a).run := by
  unfold submit
  split
  · exact breaker_fail _ hQ
  · split
    · exact breaker_sendTestSet _ _ hQ
    · exact breaker_sendBill _ _ hQ

/-- The accepted answer to an earlier attempt is the last one given. -/
theorem breaker_acceptedBefore (a : Artifacts)
    {Q : History → Except DomainError (Option DianResponse) → Prop}
    (hsome : ∀ q e response, q.getLast? = some e → answeredOn (isHabilitacion d) e = true →
      Q q (.ok (some response))) (hnone : ∀ q, Q q (.ok none)) :
    wp BreakerCall Q t (acceptedBefore job d a).run := by
  unfold acceptedBefore
  split
  · simp only [wp_run_bind, wp_getStatus]
    refine ⟨trivial, fun r => ?_⟩
    cases r with
    | error e => exact hnone _
    | ok status =>
        simp only
        split
        · exact hsome _ _ _ List.getLast?_concat (by simp [answeredOn])
        · exact hnone _
  · exact hnone _

theorem breaker_transmitPending (hQ : ∀ t r, Q t r) :
    wp BreakerCall Q t (transmitPending ubl config job d).run := by
  simp only [transmitPending, wp_run_bind, wp_canExecute]
  refine ⟨trivial, fun r => ?_⟩
  cases r with
  | false =>
      exact breaker_releaseAfterCooldown (List.mem_append_right _ (List.mem_singleton_self _)) hQ
  | true =>
      simp only [if_true, wp_run_bind, ExceptT.run_lift, wp_map_ok]
      refine wp_artifacts ubl (fun q c _ hc => ?_) (fun q cufe o x _ _ _ => trivial)
        fun q r _ _ => ?_
      · cases c <;> first | exact trivial | cases hc
      · cases r with
        | error reason => exact breaker_fail _ hQ
        | ok a =>
            simp only [wp_run_bind]
            refine breaker_acceptedBefore a (fun q e response hlast hanswered => ?_) fun q => ?_
            · simp only [wp_run_bind, wp_recordSuccess]
              exact ⟨⟨e, hlast, hanswered⟩, fun _ => breaker_closeWith _ _ _ hQ⟩
            · exact breaker_submit _ hQ

theorem breaker_pollAgain (outcome : String) (hQ : ∀ t r, Q t r) :
    wp BreakerCall Q t (pollAgain job d outcome).run := by
  unfold pollAgain
  split
  · simp only [newEvent, wp_run_bind, wp_newUuid, wp_utcNow, wp_run_pure, wp_recordEvent]
    refine ⟨trivial, fun id => ⟨trivial, fun created_at => ⟨trivial, fun r => ?_⟩⟩⟩
    cases r with
    | error e => exact hQ _ _
    | ok u => exact ⟨trivial, fun r => hQ _ _⟩
  · exact breaker_retryLater _ _ hQ

theorem breaker_pollStatus (zip_key : String) (hQ : ∀ t r, Q t r) :
    wp BreakerCall Q t (pollStatus job d zip_key).run := by
  simp only [pollStatus, wp_run_bind, wp_getStatusZip]
  refine ⟨trivial, fun r => ?_⟩
  cases r with
  | error e =>
      simp only [wp_run_bind, wp_recordFailure]
      exact ⟨⟨_, List.getLast?_concat, by simp [failedOn]⟩, fun _ => breaker_pollAgain _ hQ⟩
  | ok response =>
      simp only [wp_run_bind, wp_recordSuccess]
      refine ⟨⟨_, List.getLast?_concat, by simp [answeredOn]⟩, fun _ => ?_⟩
      split
      · exact breaker_closeWith _ _ _ hQ
      · split
        · exact breaker_closeWith _ _ _ hQ
        · exact breaker_pollAgain _ hQ

theorem breaker_transmit (hQ : ∀ t r, Q t r) :
    wp BreakerCall Q t (transmit ubl config job).run := by
  simp only [transmit, wp_run_bind, wp_findDocument]
  refine ⟨trivial, fun found => ?_⟩
  rcases found with e | found
  · exact hQ _ _
  · cases found with
    | none => exact ⟨trivial, fun r => hQ _ _⟩
    | some d =>
        simp only
        split
        · exact ⟨trivial, fun r => hQ _ _⟩
        · exact breaker_transmitPending hQ

theorem breaker_poll (hQ : ∀ t r, Q t r) : wp BreakerCall Q t (poll config job).run := by
  simp only [poll, wp_run_bind, wp_findDocument]
  refine ⟨trivial, fun found => ?_⟩
  rcases found with e | found
  · exact hQ _ _
  · cases found with
    | none => exact ⟨trivial, fun r => hQ _ _⟩
    | some d =>
        simp only
        split
        · exact ⟨trivial, fun r => hQ _ _⟩
        · split
          · exact ⟨trivial, fun r => hQ _ _⟩
          · simp only [wp_run_bind, wp_canExecute]
            refine ⟨trivial, fun r => ?_⟩
            cases r with
            | true => exact breaker_pollStatus _ hQ
            | false =>
                exact breaker_releaseAfterCooldown
                  (List.mem_append_right _ (List.mem_singleton_self _)) hQ

theorem process_breaker (ubl : UblEngine) (config : ProcessorConfig) (job : Job) :
    wp BreakerCall (fun _ _ => True) [] (process ubl config job).run := by
  unfold process
  cases job.kind with
  | transmit => exact breaker_transmit fun _ _ => trivial
  | pollStatus => exact breaker_poll fun _ _ => trivial

end Calls

/-! ## A process and its breakers -/

/-- An exchange, and the HTTP requests made for it. -/
structure Exchanged where
  exchange : Exchange Call Reply
  requests : List HttpRequest

/-- The processing of a job. A worker that stops takes no further step. -/
structure Processing where
  job : Job
  past : List Exchanged
  rest : Prog Call Reply (Except DomainError Unit)

def Processing.history (t : Processing) : History := t.past.map Exchanged.exchange

structure Process where
  now : Time
  breakers : Breakers
  tasks : List Processing

/-- Everything about a call that the code does not decide. -/
structure Outside where
  answer : (c : Call) → Reply c
  wire : Wire

inductive ProcessAction where
  | tick (d : Nat)
  | start (job : Job)
  | work (i : Nat) (w : Outside)

/-- What a call leaves of the breakers. -/
def Breakers.told (b : Breakers) (now : Time) : Call → Breakers
  | .canExecute is_hab =>
      b.setEnvironment is_hab ((b.forEnvironment is_hab).canExecute now).2
  | .recordSuccess is_hab => b.setEnvironment is_hab (b.forEnvironment is_hab).recordSuccess
  | .recordFailure is_hab => b.setEnvironment is_hab ((b.forEnvironment is_hab).recordFailure now)
  | _ => b

section Process

variable (ubl : UblEngine) (config : ProcessorConfig) (client : SoapClient)

/-- The reply to a call, and the HTTP requests made for it. -/
def Outside.reply (w : Outside) (s : Process) : (c : Call) → Reply c × List HttpRequest
  | .sendBillSync tenant_id zip is_hab => client.sendBillSync w.wire tenant_id zip is_hab
  | .sendTestSetAsync tenant_id zip test_set_id is_hab =>
      client.sendTestSetAsync w.wire tenant_id zip test_set_id is_hab
  | .getStatus tenant_id cufe is_hab => client.getStatus w.wire tenant_id cufe is_hab
  | .getStatusZip tenant_id zip_key is_hab => client.getStatusZip w.wire tenant_id zip_key is_hab
  | .canExecute is_hab => (((s.breakers.forEnvironment is_hab).canExecute s.now).1, [])
  | c => (w.answer c, [])

def Processing.start (job : Job) : Processing := ⟨job, [], (process ubl config job).run⟩

def processStep (s : Process) : ProcessAction → Option Process
  | .tick d => some { s with now := s.now + d }
  | .start job => some { s with tasks := s.tasks ++ [.start ubl config job] }
  | .work i w =>
      match s.tasks[i]? with
      | none => none
      | some t =>
          match t.rest with
          | .done _ => none
          | .call c k =>
              let (r, requests) := w.reply client s c
              some { s with
                breakers := s.breakers.told s.now c
                tasks := s.tasks.set i ⟨t.job, t.past ++ [⟨⟨c, r⟩, requests⟩], k r⟩ }

/-- A process from its start, with closed breakers. -/
def workerProcess (failure_threshold : Nat) (cooldown : Int) : Machine Process ProcessAction where
  start s := ∃ now, s = ⟨now, .new failure_threshold cooldown, []⟩
  step := processStep ubl config client

end Process

/-! ## What the breakers count -/

/-- An error of a call that made a request was counted on the breaker of the environment. -/
def CountedOn (is_hab : Bool) (past : List Exchanged) : Prop :=
  ∃ before x after e, past = before ++ x :: after ∧ x.exchange.call = .recordFailure is_hab ∧
    before.getLast? = some e ∧ failedOn is_hab e.exchange = true ∧ e.requests ≠ []

/-- The breakers change because of the communication with the DIAN: what they are told of comes
    from a request. -/
structure CommunicationOnly (s : Process) : Prop where
  failures : ∀ t ∈ s.tasks, ∀ before x after, t.past = before ++ x :: after → ∀ is_hab,
    x.exchange.call = .recordFailure is_hab →
      ∃ e, before.getLast? = some e ∧ failedOn is_hab e.exchange = true ∧ e.requests ≠ []
  successes : ∀ t ∈ s.tasks, ∀ before x after, t.past = before ++ x :: after → ∀ is_hab,
    x.exchange.call = .recordSuccess is_hab →
      ∃ e, before.getLast? = some e ∧ answeredOn is_hab e.exchange = true ∧ e.requests ≠ []
  opened : ∀ is_hab, (s.breakers.forEnvironment is_hab).state ≠ .closed →
    ∃ u ∈ s.tasks, CountedOn is_hab u.past
  /-- A job is put off for an open breaker only where one of the process met the DIAN down. -/
  releases : ∀ t ∈ s.tasks, ∀ x ∈ t.past, ∀ job_id run_at,
    x.exchange.call = .release job_id run_at → ∃ is_hab, ∃ y ∈ t.past,
      y.exchange = ⟨.canExecute is_hab, false⟩ ∧ ∃ u ∈ s.tasks, CountedOn is_hab u.past

/-- The request of a call whose errors are counted, where its ZIP can be read. -/
def SoapClient.outgoing (client : SoapClient) : Call → Option Outgoing
  | .sendBillSync tenant_id zip is_hab =>
      (client.zipRequest tenant_id "SendBillSync" zip is_hab "").toOption
  | .sendTestSetAsync tenant_id zip test_set_id is_hab =>
      (client.zipRequest tenant_id "SendTestSetAsync" zip is_hab
        (testSetElement test_set_id)).toOption
  | .getStatusZip tenant_id zip_key is_hab =>
      some (trackRequest tenant_id "GetStatusZip" zip_key is_hab)
  | _ => none

def Processing.next? (t : Processing) : Option Call :=
  match t.rest with
  | .done _ => none
  | .call c _ => some c

/-- A call whose errors are counted has its ZIP read and its envelope signed. -/
def Reaches (client : SoapClient) (s : Process) : ProcessAction → Prop
  | .work i w => ∀ t ∈ s.tasks[i]?, ∀ c ∈ t.next?, c.isSubmission = true →
      (client.outgoing c).any (client.signs w.wire) = true
  | _ => True

instance (client : SoapClient) (s : Process) : ∀ a, Decidable (Reaches client s a)
  | .work i _ => inferInstanceAs (Decidable (∀ t ∈ s.tasks[i]?, _))
  | .tick _ | .start _ => isTrue trivial

section Reply

variable {client : SoapClient} {w : Outside} {s : Process} {c : Call}

theorem toOption_eq_some {ε α : Type} {r : Except ε α} {a : α} (h : r.toOption = some a) :
    r = .ok a := by
  cases r with
  | error e => cases h
  | ok b => exact congrArg Except.ok (Option.some.inj h)

/-- A call whose errors are counted makes a request where the condition holds. -/
theorem reply_requests (hc : c.isSubmission = true)
    (h : (client.outgoing c).any (client.signs w.wire) = true) :
    (w.reply client s c).2 ≠ [] := by
  obtain ⟨out, hout, hsigns⟩ : ∃ out, client.outgoing c = some out ∧
      client.signs w.wire out = true := by simpa [Option.any_eq_true] using h
  cases c <;> simp only [Call.isSubmission, Bool.false_eq_true] at hc
  case sendBillSync tenant_id zip is_hab =>
    exact (client.sendZip_requests w.wire _ _ _ _ _).mpr ⟨out, toOption_eq_some hout, hsigns⟩
  case sendTestSetAsync tenant_id zip test_set_id is_hab =>
    exact (client.sendZip_requests w.wire _ _ _ _ _).mpr ⟨out, toOption_eq_some hout, hsigns⟩
  case getStatusZip tenant_id zip_key is_hab =>
    cases hout
    exact (client.call_requests w.wire _).mpr hsigns

/-- An answer the breaker is told of comes from a request. -/
theorem answered_requests {is_hab : Bool}
    (h : answeredOn is_hab ⟨c, (w.reply client s c).1⟩ = true) : (w.reply client s c).2 ≠ [] := by
  cases c with
  | sendBillSync tenant_id zip b =>
      cases hr : (client.sendBillSync w.wire tenant_id zip b).1 with
      | error e =>
          simp only [Outside.reply] at h
          rw [hr] at h
          cases h
      | ok response =>
          obtain ⟨resp_xml, hok⟩ := Sent.map_ok hr
          exact client.sendZip_ok w.wire hok
  | sendTestSetAsync tenant_id zip test_set_id b =>
      cases hr : (client.sendTestSetAsync w.wire tenant_id zip test_set_id b).1 with
      | error e =>
          simp only [Outside.reply] at h
          rw [hr] at h
          cases h
      | ok zip_key =>
          obtain ⟨resp_xml, hok⟩ := Sent.map_ok hr
          exact client.sendZip_ok w.wire hok
  | getStatus tenant_id cufe b =>
      cases hr : (client.getStatus w.wire tenant_id cufe b).1 with
      | error e =>
          simp only [Outside.reply] at h
          rw [hr] at h
          cases h
      | ok response =>
          obtain ⟨resp_xml, hok⟩ := Sent.map_ok hr
          exact client.call_ok w.wire hok
  | getStatusZip tenant_id zip_key b =>
      cases hr : (client.getStatusZip w.wire tenant_id zip_key b).1 with
      | error e =>
          simp only [Outside.reply] at h
          rw [hr] at h
          cases h
      | ok response =>
          obtain ⟨resp_xml, hok⟩ := Sent.map_ok hr
          exact client.call_ok w.wire hok
  | _ => cases h

theorem failedOn_isSubmission {is_hab : Bool} {e : Exchange Call Reply}
    (h : failedOn is_hab e = true) : e.call.isSubmission = true := by
  obtain ⟨c, r⟩ := e
  cases c <;> first | rfl | cases h

end Reply

/-! ## Breakers -/

section Told

variable {b : Breakers} {now : Time} {c : Call} {is_hab : Bool}

/-- A breaker that stops being closed was told of a failure. -/
theorem told_opened (h : ((b.told now c).forEnvironment is_hab).state ≠ .closed) :
    c = .recordFailure is_hab ∨ (b.forEnvironment is_hab).state ≠ .closed := by
  by_contra hnot
  obtain ⟨hother, hclosed⟩ := not_or.mp hnot
  rw [not_not] at hclosed
  apply h
  cases c with
  | canExecute e =>
      by_cases he : e = is_hab
      · subst he
        simpa [Breakers.told] using CircuitBreaker.canExecute_closed hclosed
      · simpa only [Breakers.told, b.forEnvironment_setEnvironment_ne he] using hclosed
  | recordSuccess e =>
      by_cases he : e = is_hab
      · subst he
        simp [Breakers.told, CircuitBreaker.recordSuccess]
      · simpa only [Breakers.told, b.forEnvironment_setEnvironment_ne he] using hclosed
  | recordFailure e =>
      have he : e ≠ is_hab := fun he => hother (congrArg Call.recordFailure he)
      simpa only [Breakers.told, b.forEnvironment_setEnvironment_ne he] using hclosed
  | _ => exact hclosed

end Told

/-! ## One step -/

section Step

variable {ubl : UblEngine} {config : ProcessorConfig} {client : SoapClient} {s s' : Process}
  {a : ProcessAction}

inductive ProcessStep (ubl : UblEngine) (config : ProcessorConfig) (client : SoapClient)
    (s : Process) : ProcessAction → Process → Prop where
  | tick {d : Nat} : ProcessStep ubl config client s (.tick d) { s with now := s.now + d }
  | start {job : Job} : ProcessStep ubl config client s (.start job)
      { s with tasks := s.tasks ++ [.start ubl config job] }
  | work {i : Nat} {w : Outside} {t : Processing} {c : Call}
      {k : Reply c → Prog Call Reply (Except DomainError Unit)} (ht : s.tasks[i]? = some t)
      (hrest : t.rest = .call c k) : ProcessStep ubl config client s (.work i w)
        { s with
          breakers := s.breakers.told s.now c
          tasks := s.tasks.set i ⟨t.job, t.past ++ [⟨⟨c, (w.reply client s c).1⟩,
            (w.reply client s c).2⟩], k (w.reply client s c).1⟩ }

theorem processStep_inv (h : processStep ubl config client s a = some s') :
    ProcessStep ubl config client s a s' := by
  cases a with
  | tick d =>
      cases h
      exact .tick
  | start job =>
      cases h
      exact .start
  | work i w =>
      simp only [processStep] at h
      split at h
      · cases h
      · rename_i t ht
        split at h
        · cases h
        · rename_i c k hrest
          cases h
          exact .work ht hrest

/-- A failure was counted on the breaker of the environment. -/
def Failed (s : Process) (is_hab : Bool) : Prop :=
  ∃ u ∈ s.tasks, ∃ x ∈ u.past, x.exchange.call = .recordFailure is_hab

structure Process.Sound (ubl : UblEngine) (config : ProcessorConfig) (s : Process) : Prop where
  path : ∀ t ∈ s.tasks, Path (process ubl config t.job).run t.history t.rest
  reached : ∀ t ∈ s.tasks, ∀ e ∈ t.past, e.exchange.call.isSubmission = true → e.requests ≠ []
  answered : ∀ t ∈ s.tasks, ∀ e ∈ t.past, ∀ is_hab, answeredOn is_hab e.exchange = true →
    e.requests ≠ []
  opened : ∀ is_hab, (s.breakers.forEnvironment is_hab).state ≠ .closed → Failed s is_hab
  refused : ∀ t ∈ s.tasks, ∀ e ∈ t.past, ∀ is_hab, e.exchange = ⟨.canExecute is_hab, false⟩ →
    Failed s is_hab

/-- What a task has done stays done. -/
theorem ProcessStep.failed (h : ProcessStep ubl config client s a s') {is_hab : Bool}
    (hf : Failed s is_hab) : Failed s' is_hab := by
  obtain ⟨u, hu, x, hx, hcall⟩ := hf
  cases h with
  | tick => exact ⟨u, hu, x, hx, hcall⟩
  | start => exact ⟨u, List.mem_append_left _ hu, x, hx, hcall⟩
  | @work i w t c k ht hrest =>
      obtain ⟨j, hj⟩ := List.getElem?_of_mem hu
      by_cases hij : i = j
      · subst hij
        cases ht.symm.trans hj
        have hi := (List.getElem?_eq_some_iff.mp ht).1
        exact ⟨_, List.mem_set hi _, x, List.mem_append_left _ hx, hcall⟩
      · refine ⟨u, List.mem_of_getElem? (i := j) ?_, x, hx, hcall⟩
        rwa [List.getElem?_set_ne hij]

/-- A property of the exchanges of every task: a step shows it of the new exchange. -/
theorem ProcessStep.forall_past {P : Exchanged → Prop} (h : ProcessStep ubl config client s a s')
    (hs : ∀ t ∈ s.tasks, ∀ e ∈ t.past, P e)
    (hnew : ∀ i w t c k, a = .work i w → s.tasks[i]? = some t → t.rest = .call c k →
      P ⟨⟨c, (w.reply client s c).1⟩, (w.reply client s c).2⟩) :
    ∀ t ∈ s'.tasks, ∀ e ∈ t.past, P e := by
  intro t' ht'
  cases h with
  | tick => exact hs t' ht'
  | start =>
      rcases List.mem_append.mp ht' with ht' | ht'
      · exact hs t' ht'
      · rw [List.mem_singleton.mp ht']
        intro e he
        cases he
  | @work i w t c k ht hrest =>
      rcases List.mem_or_eq_of_mem_set ht' with ht' | rfl
      · exact hs t' ht'
      · intro e he
        rcases List.mem_append.mp he with he | he
        · exact hs t (List.mem_of_getElem? ht) e he
        · rw [List.mem_singleton.mp he]
          exact hnew i w t c k rfl ht hrest

theorem ProcessStep.path (h : ProcessStep ubl config client s a s')
    (hs : ∀ t ∈ s.tasks, Path (process ubl config t.job).run t.history t.rest) :
    ∀ t ∈ s'.tasks, Path (process ubl config t.job).run t.history t.rest := by
  intro t' ht'
  cases h with
  | tick => exact hs t' ht'
  | start =>
      rcases List.mem_append.mp ht' with ht' | ht'
      · exact hs t' ht'
      · rw [List.mem_singleton.mp ht']
        exact .start
  | @work i w t c k ht hrest =>
      rcases List.mem_or_eq_of_mem_set ht' with ht' | rfl
      · exact hs t' ht'
      · have hpath := hs t (List.mem_of_getElem? ht)
        rw [hrest] at hpath
        simpa [Processing.history] using hpath.reply (w.reply client s c).1

/-- A breaker that is not closed after a step was told of a failure. -/
theorem ProcessStep.opened (h : ProcessStep ubl config client s a s')
    (hs : ∀ is_hab, (s.breakers.forEnvironment is_hab).state ≠ .closed → Failed s is_hab)
    {is_hab : Bool} (hne : (s'.breakers.forEnvironment is_hab).state ≠ .closed) :
    Failed s' is_hab := by
  have hkept := fun hopen => h.failed (hs is_hab hopen)
  cases h with
  | tick => exact hkept hne
  | start => exact hkept hne
  | @work i w t c k ht hrest =>
      rcases told_opened hne with rfl | hopen
      · have hi := (List.getElem?_eq_some_iff.mp ht).1
        exact ⟨_, List.mem_set hi _, _, List.mem_append_right _ (List.mem_singleton_self _), rfl⟩
      · exact hkept hopen

/-- A breaker that lets nothing through was told of a failure. -/
theorem Process.Sound.refusal (hs : s.Sound ubl config) {w : Outside} {c : Call} {is_hab : Bool}
    (h : (⟨c, (w.reply client s c).1⟩ : Exchange Call Reply) = ⟨.canExecute is_hab, false⟩) :
    Failed s is_hab := by
  have hc : c = .canExecute is_hab := congrArg Exchange.call h
  subst hc
  have hr : ((s.breakers.forEnvironment is_hab).canExecute s.now).1 = false := by
    injection h
  exact hs.opened is_hab (CircuitBreaker.canExecute_false hr)

theorem Process.Sound.step (hs : s.Sound ubl config) (hreaches : Reaches client s a)
    (h : ProcessStep ubl config client s a s') : s'.Sound ubl config where
  path := h.path hs.path
  reached := by
    refine h.forall_past hs.reached fun i w t c k ha ht hrest hc => ?_
    subst ha
    refine reply_requests hc (hreaches t ht c ?_ hc)
    simp [Processing.next?, hrest]
  answered := by
    refine h.forall_past hs.answered fun i w t c k _ _ _ is_hab hanswered => ?_
    exact answered_requests hanswered
  opened := fun is_hab => h.opened hs.opened
  refused := by
    refine h.forall_past (fun t ht e he is_hab hrefused => ?_)
      fun i w t c k _ _ _ is_hab hrefused => ?_
    · exact h.failed (hs.refused t ht e he is_hab hrefused)
    · exact h.failed (hs.refusal hrefused)

/-! ## What a state shows -/

theorem Process.Sound.call (hs : s.Sound ubl config) {t : Processing} (ht : t ∈ s.tasks)
    {before after : List Exchanged} {x : Exchanged} (hpast : t.past = before ++ x :: after) :
    BreakerCall (before.map Exchanged.exchange) x.exchange.call := by
  refine call_of_trace (process_breaker ubl config t.job) (hs.path t ht)
    (m := after.map Exchanged.exchange) ?_
  simp [Processing.history, hpast]

/-- What the breaker was told of, with the requests made for it. -/
theorem getLast?_exchanged {before : List Exchanged} {e : Exchange Call Reply}
    (h : (before.map Exchanged.exchange).getLast? = some e) :
    ∃ x, before.getLast? = some x ∧ x.exchange = e := by
  rw [List.getLast?_map] at h
  exact Option.map_eq_some_iff.mp h

theorem Process.Sound.failure (hs : s.Sound ubl config) {t : Processing} (ht : t ∈ s.tasks)
    {before after : List Exchanged} {x : Exchanged} (hpast : t.past = before ++ x :: after)
    {is_hab : Bool} (hcall : x.exchange.call = .recordFailure is_hab) :
    ∃ e, before.getLast? = some e ∧ failedOn is_hab e.exchange = true ∧ e.requests ≠ [] := by
  have hlast := hs.call ht hpast
  rw [hcall] at hlast
  obtain ⟨_, hlast, hfailed⟩ := hlast
  obtain ⟨e, he, rfl⟩ := getLast?_exchanged hlast
  have hmem : e ∈ t.past := by
    rw [hpast]
    exact List.mem_append_left _ (List.mem_of_getLast? he)
  exact ⟨e, he, hfailed, hs.reached t ht e hmem (failedOn_isSubmission hfailed)⟩

theorem Process.Sound.success (hs : s.Sound ubl config) {t : Processing} (ht : t ∈ s.tasks)
    {before after : List Exchanged} {x : Exchanged} (hpast : t.past = before ++ x :: after)
    {is_hab : Bool} (hcall : x.exchange.call = .recordSuccess is_hab) :
    ∃ e, before.getLast? = some e ∧ answeredOn is_hab e.exchange = true ∧ e.requests ≠ [] := by
  have hlast := hs.call ht hpast
  rw [hcall] at hlast
  obtain ⟨_, hlast, hanswered⟩ := hlast
  obtain ⟨e, he, rfl⟩ := getLast?_exchanged hlast
  have hmem : e ∈ t.past := by
    rw [hpast]
    exact List.mem_append_left _ (List.mem_of_getLast? he)
  exact ⟨e, he, hanswered, hs.answered t ht e hmem is_hab hanswered⟩

theorem Process.Sound.counted (hs : s.Sound ubl config) {is_hab : Bool} (h : Failed s is_hab) :
    ∃ u ∈ s.tasks, CountedOn is_hab u.past := by
  obtain ⟨u, hu, x, hx, hcall⟩ := h
  obtain ⟨before, after, hpast⟩ := List.append_of_mem hx
  obtain ⟨e, he⟩ := hs.failure hu hpast hcall
  exact ⟨u, hu, before, x, after, e, hpast, hcall, he⟩

theorem Process.Sound.communicationOnly (hs : s.Sound ubl config) : CommunicationOnly s where
  failures := fun _ ht _ _ _ hpast _ hcall => hs.failure ht hpast hcall
  successes := fun _ ht _ _ _ hpast _ hcall => hs.success ht hpast hcall
  opened := fun is_hab hopen => hs.counted (hs.opened is_hab hopen)
  releases := by
    intro t ht x hx job_id run_at hcall
    obtain ⟨before, after, hpast⟩ := List.append_of_mem hx
    have hasked := hs.call ht hpast
    rw [hcall] at hasked
    obtain ⟨is_hab, hmem⟩ := hasked
    obtain ⟨y, hy, hrefused⟩ := List.mem_map.mp hmem
    have hypast : y ∈ t.past := by
      rw [hpast]
      exact List.mem_append_left _ hy
    exact ⟨is_hab, y, hypast, hrefused, hs.counted (hs.refused t ht y hypast is_hab hrefused)⟩

end Step

/-! ## Runs -/

theorem Breakers.new_closed (failure_threshold : Nat) (cooldown : Int) (is_hab : Bool) :
    ((Breakers.new failure_threshold cooldown).forEnvironment is_hab).state = .closed := by
  cases is_hab <;> rfl

/-- While every call whose errors are counted makes its request, the breakers count
    communication only, and no job is put off because of one that cannot be signed. -/
theorem breakers_count_communication (ubl : UblEngine) (config : ProcessorConfig)
    (client : SoapClient) (failure_threshold : Nat) (cooldown : Int) {s : Process}
    (h : (workerProcess ubl config client failure_threshold cooldown).ReachableBy
      (Reaches client) s) : CommunicationOnly s := by
  suffices hs : s.Sound ubl config from hs.communicationOnly
  refine h.invariant ?_ fun s a s' _ hs hreaches hstep => ?_
  · rintro s ⟨now, rfl⟩
    refine ⟨by simp, by simp, by simp, fun is_hab hne => ?_, by simp⟩
    exact absurd (Breakers.new_closed failure_threshold cooldown is_hab) hne
  · exact hs.step hreaches (processStep_inv hstep)

/-! ### Two runs -/

def sampleClient : SoapClient where
  zip_reader := ⟨fun _ => .ok 1, fun _ => .ok (.ok "z.xml"), fun _ => "UEs="⟩
  hab_url := "https://vpfe-hab.dian.gov.co/WcfDianCustomerServices.svc"
  prod_url := "https://vpfe.dian.gov.co/WcfDianCustomerServices.svc"

/-- The invoice of another tenant that an earlier attempt signed. -/
def signedInvoice (id : Uuid) : Document :=
  { sampleInvoice with
    id := id
    tenant_id := 2
    cufe_cude := "cufe-2"
    signed_xml := some "<signed/>" }

/-- The second attempt of the job of that invoice. -/
def secondTransmission (document_id : Uuid) : Job :=
  { sampleJob with id := 10 + document_id, document_id := document_id, attempts := 2 }

def twoTenants : (c : Call) → Reply c
  | .findDocument id => .ok (some (if id = 10 then sampleInvoice else signedInvoice id))
  | c => calmAnswer c

/-- The DIAN is out of service; `certified` is whether the tenant 2 has a certificate. -/
def outOfService (certified : Bool) : Outside where
  answer := twoTenants
  wire :=
    { sign_soap_for_tenant := fun tenant_id envelope =>
        if tenant_id = 2 ∧ certified = false then
          .error (.crypto "Tenant 2 has no active certificate")
        else .ok envelope
      post := fun _ => .ok ⟨503, "503 Service Unavailable", .ok ""⟩ }

/-- Three jobs of the tenant 2 are processed, then one of the tenant 1. -/
def threeFailures (w : Outside) : List ProcessAction :=
  [.start (secondTransmission 11), .start (secondTransmission 12), .start (secondTransmission 13),
    .start sampleJob] ++ List.replicate 5 (.work 0 w) ++ List.replicate 5 (.work 1 w) ++
    List.replicate 5 (.work 2 w) ++ List.replicate 4 (.work 3 w)

def sampleProcess : Process := ⟨0, .new 3 30000000, []⟩

abbrev sampleWorker : Machine Process ProcessAction :=
  workerProcess sampleUbl sampleConfig sampleClient 3 30000000

theorem sampleProcess_start : sampleWorker.start sampleProcess := ⟨_, rfl⟩

set_option maxRecDepth 10000 in
theorem threeFailures_runs (certified : Bool) :
    (sampleWorker.run sampleProcess (threeFailures (outOfService certified))).isSome = true := by
  revert certified
  decide

def afterFailures (certified : Bool) : Process :=
  (sampleWorker.run sampleProcess (threeFailures (outOfService certified))).get
    (threeFailures_runs certified)

/-- The DIAN answers each of the requests with an error. -/
theorem breakers_count_outage : CommunicationOnly (afterFailures true) :=
  breakers_count_communication sampleUbl sampleConfig sampleClient 3 30000000
    (Machine.ReachableBy.get sampleProcess_start (by decide) (threeFailures_runs true))

def isRelease : Call → Bool
  | .release .. => true
  | _ => false

set_option maxRecDepth 10000 in
/-- Without a certificate the jobs of the tenant 2 open the breaker all the same: the one of the
    tenant 1 is put off, and no request was ever made. -/
theorem unsigned_jobs_open_breaker :
    (∃ s, sampleWorker.Reachable s ∧ (∀ t ∈ s.tasks, ∀ e ∈ t.past, e.requests = []) ∧
      ∃ t ∈ s.tasks, t.job.document_id = 10 ∧ ∃ e ∈ t.past, isRelease e.exchange.call = true) ∧
    ¬ ∀ s, sampleWorker.Reachable s → CommunicationOnly s := by
  have hreach : sampleWorker.Reachable (afterFailures false) :=
    Machine.Reachable.get sampleProcess_start (threeFailures_runs false)
  have hsilent : (afterFailures false).tasks.all (fun t => t.past.all fun e =>
      e.requests.isEmpty) = true := by decide
  have hput : (afterFailures false).tasks.any (fun t => t.job.document_id = 10 &&
      t.past.any fun e => isRelease e.exchange.call) = true := by decide
  simp only [List.all_eq_true, List.isEmpty_iff] at hsilent
  simp only [List.any_eq_true, Bool.and_eq_true, decide_eq_true_eq] at hput
  refine ⟨⟨_, hreach, hsilent, hput⟩, fun h => ?_⟩
  have hopen : ((afterFailures false).breakers.forEnvironment false).state ≠ .closed := by decide
  obtain ⟨u, hu, before, x, after, e, hpast, -, hlast, -, hrequests⟩ :=
    (h _ hreach).opened false hopen
  refine hrequests (hsilent u hu e ?_)
  rw [hpast]
  exact List.mem_append_left _ (List.mem_of_getLast? hlast)

end DianService
