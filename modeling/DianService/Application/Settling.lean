import DianService.Application.ProcessingCalls
import DianService.Lib.Served

/-
  Application: how a processing leaves its job. `Repositories` is what `process` can see of a
  store, whichever it is; `Lawful` says what each of its calls does to that. Signer, DIAN,
  breaker and clock answer anything, and any call of the repositories may fail.

  Up to the call that settles the job a processing only reads, signs and records events
  (`Keeps`); each of its exits is one settling call, or a transition that is refused and a
  settling call. `process_settles` puts them together.
-/

namespace DianService

open Lib Lib.Prog

/-! ## A store as processing sees it -/

structure JobState where
  kind : JobKind
  document_id : Uuid
  status : JobStatus
  attempts : Int
  max_attempts : Int
  deriving DecidableEq

structure Repositories (σ : Type) where
  document? : σ → Uuid → Option Document
  job? : σ → Uuid → Option JobState
  events : σ → List DianEvent
  answers : σ → (c : Call) → Reply c → σ → Prop

namespace Repositories

variable {σ : Type} (R : Repositories σ)

def status? (s : σ) (document_id : Uuid) : Option DocumentStatus :=
  (R.document? s document_id).map (·.status)

/-- The jobs and the statuses are as they were, and no event is lost. -/
structure Keeps (s s' : σ) : Prop where
  job : ∀ id, R.job? s' id = R.job? s id
  status : ∀ id, R.status? s' id = R.status? s id
  events : ∀ e ∈ R.events s, e ∈ R.events s'

/-- A job has changed as `f` says, and nothing else has. -/
structure Settles (s s' : σ) (job_id : Uuid) (f : JobState → JobState) : Prop where
  job : ∀ j, R.job? s job_id = some j → R.job? s' job_id = some (f j)
  status : ∀ id, R.status? s' id = R.status? s id
  events : ∀ e ∈ R.events s, e ∈ R.events s'

end Repositories

/-- The calls that change no job, no status and no event. -/
def Call.isQuiet : Call → Bool
  | .recordEvent _ | .applyTransition _ | .complete _ | .retry .. | .release .. | .bury .. => false
  | _ => true

def JobState.closed (status : JobStatus) (j : JobState) : JobState := { j with status := status }

def JobState.released (j : JobState) : JobState :=
  { j with status := .queued, attempts := max (j.attempts - 1) 0 }

/-- The job that the outcome of a transition settles, and its status. -/
def JobOutcome.settled : JobOutcome → Uuid × JobStatus
  | .complete id => (id, .done)
  | .bury id _ => (id, .dead)

/-- A transition that was applied. -/
structure Repositories.Applies {σ : Type} (R : Repositories σ) (s s' : σ) (t : Transition) :
    Prop where
  status : R.status? s' t.document_id = some t.target
  event : ∀ e, t.event = some e → e ∈ R.events s'
  job : ∀ outcome, t.job = some outcome → ∀ j, R.job? s outcome.settled.1 = some j →
    R.job? s' outcome.settled.1 = some (j.closed outcome.settled.2)
  follow_up : ∀ n, t.follow_up = some n →
    R.job? s' n.id = some ⟨n.kind, n.document_id, .queued, 0, n.max_attempts⟩

/-- What each call does to a store. A new id is the id of no job. -/
structure Repositories.Lawful {σ : Type} (R : Repositories σ) : Prop where
  keyed : ∀ s id d, R.document? s id = some d → d.id = id
  find : ∀ s id found s', R.answers s (.findDocument id) (.ok found) s' →
    found = R.document? s id
  quiet : ∀ s c r s', c.isQuiet → R.answers s c r s' → R.Keeps s s'
  fresh : ∀ s id s', R.answers s .newUuid id s' → R.job? s id = none
  record : ∀ s e s', R.answers s (.recordEvent e) (.ok ()) s' → R.Keeps s s' ∧ e ∈ R.events s'
  applied : ∀ s t s', R.answers s (.applyTransition t) (.ok true) s' →
    (∀ n, t.follow_up = some n → R.job? s n.id = none) → R.Applies s s' t
  refused : ∀ s t s' status, R.answers s (.applyTransition t) (.ok false) s' →
    R.status? s t.document_id = some status → status ∉ t.target.allowedPredecessors
  complete : ∀ s id s', R.answers s (.complete id) (.ok ()) s' →
    R.Settles s s' id (JobState.closed .done)
  retry : ∀ s id run_at error s', R.answers s (.retry id run_at error) (.ok ()) s' →
    R.Settles s s' id (JobState.closed .queued)
  release : ∀ s id run_at s', R.answers s (.release id run_at) (.ok ()) s' →
    R.Settles s s' id JobState.released
  bury : ∀ s id error s', R.answers s (.bury id error) (.ok ()) s' →
    R.Settles s s' id (JobState.closed .dead)

/-! ## How a job may be left -/

/-- The document was left in a terminal status, or sent with a new job that queries its status, or
    was not in the status that the job handles. -/
def DoneRightly {σ : Type} (R : Repositories σ) (job : Job) (s s' : σ) : Prop :=
  (∃ status, R.status? s' job.document_id = some status ∧ status.isTerminal) ∨
  (R.status? s' job.document_id = some .sentDian ∧ ∃ id j, R.job? s id = none ∧
    R.job? s' id = some j ∧ j.kind = .pollStatus ∧ j.document_id = job.document_id ∧
    j.status = .queued) ∨
  ∃ status, R.status? s job.document_id = some status ∧ status ≠ job.kind.entry ∧
    R.status? s' job.document_id = some status

/-- The document is missing, or in contingency with an error event; of a query, the document is
    missing, the job has no tracking key, or the queries are exhausted. -/
def DeadRightly {σ : Type} (R : Repositories σ) (job : Job) (s s' : σ) : Prop :=
  R.document? s job.document_id = none ∨
  match job.kind with
  | .transmit => R.status? s' job.document_id = some .contingencyPending ∧
      ∃ e ∈ R.events s', e.document_id = job.document_id ∧ e.event_status = .error
  | .pollStatus => job.zipKey = none ∨ R.status? s' job.document_id = some .sentDian ∧
      ∃ e ∈ R.events s', e.document_id = job.document_id ∧
        e.dian_response_code = some "POLLING_EXHAUSTED"

/-- How a processing that started from `s` may leave its job. -/
def Settled {σ : Type} (R : Repositories σ) (job : Job) (s s' : σ) : Prop :=
  ∃ j, R.job? s' job.id = some j ∧
    (j.status = .done ∧ DoneRightly R job s s' ∨
      j.status = .queued ∧ j.attempts < j.max_attempts ∨
      j.status = .dead ∧ DeadRightly R job s s')

/-- The row of a claimed job. -/
structure ClaimedRow {σ : Type} (R : Repositories σ) (job : Job) (s : σ) : Prop where
  row : R.job? s job.id =
    some ⟨job.kind, job.document_id, .running, job.attempts, job.max_attempts⟩
  counted : 1 ≤ job.attempts
  limited : job.attempts ≤ job.max_attempts

/-! ## What the exits make of it -/

section Exits

variable {σ : Type} {R : Repositories σ} {job : Job} {s₀ s s' : σ} {t : Transition}

theorem Repositories.Keeps.refl (s : σ) : R.Keeps s s := ⟨fun _ => rfl, fun _ => rfl, fun _ h => h⟩

theorem Repositories.Keeps.trans {s₁ s₂ s₃ : σ} (h : R.Keeps s₁ s₂) (h' : R.Keeps s₂ s₃) :
    R.Keeps s₁ s₃ :=
  ⟨fun id => (h'.job id).trans (h.job id), fun id => (h'.status id).trans (h.status id),
    fun e he => h'.events e (h.events e he)⟩

/-- What was settled stays settled. -/
theorem Settled.keeps (h : Settled R job s₀ s) (hk : R.Keeps s s') : Settled R job s₀ s' := by
  obtain ⟨j, hj, hcases⟩ := h
  refine ⟨j, (hk.job _).trans hj, ?_⟩
  obtain ⟨hstatus, hdone⟩ | hqueued | ⟨hstatus, hdead⟩ := hcases
  · refine .inl ⟨hstatus, ?_⟩
    obtain ⟨x, hx, hterminal⟩ | ⟨hsent, id, k, hnew, hk', hkind⟩ | ⟨x, hx, hne, hx'⟩ := hdone
    · exact .inl ⟨x, (hk.status _).trans hx, hterminal⟩
    · exact .inr (.inl ⟨(hk.status _).trans hsent, id, k, hnew, (hk.job _).trans hk', hkind⟩)
    · exact .inr (.inr ⟨x, hx, hne, (hk.status _).trans hx'⟩)
  · exact .inr (.inl hqueued)
  · refine .inr (.inr ⟨hstatus, ?_⟩)
    unfold DeadRightly at hdead ⊢
    cases hkind : job.kind with
    | transmit =>
        simp only [hkind] at hdead ⊢
        obtain hnone | ⟨hstatus, e, he, hevent⟩ := hdead
        · exact .inl hnone
        · exact .inr ⟨(hk.status _).trans hstatus, e, hk.events e he, hevent⟩
    | pollStatus =>
        simp only [hkind] at hdead ⊢
        obtain hnone | hzip | ⟨hstatus, e, he, hevent⟩ := hdead
        · exact .inl hnone
        · exact .inr (.inl hzip)
        · exact .inr (.inr ⟨(hk.status _).trans hstatus, e, hk.events e he, hevent⟩)

/-- The job has been settled alone. -/
theorem Repositories.Settles.row {f : JobState → JobState} (h : R.Settles s s' job.id f)
    (hk : R.Keeps s₀ s) (hrow : ClaimedRow R job s₀) :
    R.job? s' job.id =
      some (f ⟨job.kind, job.document_id, .running, job.attempts, job.max_attempts⟩) :=
  h.job _ ((hk.job _).trans hrow.row)

theorem Repositories.Applies.row (h : R.Applies s s' t) (hk : R.Keeps s₀ s)
    (hrow : ClaimedRow R job s₀) {outcome : JobOutcome} (hjob : t.job = some outcome)
    (hid : outcome.settled.1 = job.id) :
    R.job? s' job.id = some ⟨job.kind, job.document_id, outcome.settled.2, job.attempts,
      job.max_attempts⟩ := by
  have hsettled := h.job outcome hjob _ (hid ▸ (hk.job _).trans hrow.row)
  rw [hid] at hsettled
  exact hsettled

/-- A transition into a terminal status, with the job done. -/
theorem settled_of_terminal (h : R.Applies s s' t) (hk : R.Keeps s₀ s)
    (hrow : ClaimedRow R job s₀) (hid : t.document_id = job.document_id)
    (hjob : t.job = some (.complete job.id)) (hterminal : t.target.isTerminal) :
    Settled R job s₀ s' :=
  ⟨_, h.row hk hrow hjob rfl, .inl ⟨rfl, .inl ⟨t.target, hid ▸ h.status, hterminal⟩⟩⟩

/-- The job goes back to the queue with attempts left. -/
theorem settled_of_queued {f : JobState → JobState} (h : R.Settles s s' job.id f)
    (hk : R.Keeps s₀ s) (hrow : ClaimedRow R job s₀)
    (hf : ∀ j : JobState, (f j).status = .queued ∧ (f j).max_attempts = j.max_attempts)
    (hleft : (f ⟨job.kind, job.document_id, .running, job.attempts, job.max_attempts⟩).attempts <
      job.max_attempts) : Settled R job s₀ s' := by
  refine ⟨_, h.row hk hrow, .inr (.inl ⟨(hf _).1, ?_⟩)⟩
  rw [(hf _).2]
  exact hleft

theorem settled_of_dead {f : JobState → JobState} (h : R.Settles s s' job.id f)
    (hk : R.Keeps s₀ s) (hrow : ClaimedRow R job s₀) (hf : ∀ j : JobState, (f j).status = .dead)
    (hdead : DeadRightly R job s₀ s') : Settled R job s₀ s' :=
  ⟨_, h.row hk hrow, .inr (.inr ⟨hf _, hdead⟩)⟩

/-- The document was in another status. -/
theorem settled_of_moved {d : Document} (h : R.Settles s s' job.id (JobState.closed .done))
    (hk : R.Keeps s₀ s) (hrow : ClaimedRow R job s₀) (hd : R.document? s₀ job.document_id = some d)
    (hstatus : d.status ≠ job.kind.entry) : Settled R job s₀ s' := by
  have hfound : R.status? s₀ job.document_id = some d.status := congrArg (Option.map _) hd
  refine ⟨_, h.row hk hrow, .inl ⟨rfl, .inr (.inr ⟨d.status, hfound, hstatus, ?_⟩)⟩⟩
  rw [h.status, hk.status, hfound]

end Exits

/-! ## Each part of a processing -/

/-- A processing that returns `Ok` has settled its job. -/
def SettledIfOk {σ : Type} (R : Repositories σ) (job : Job) (s s' : σ)
    (r : Except DomainError Unit) : Prop :=
  r = .ok () → Settled R job s s'

theorem settledIfOk_error {σ : Type} {R : Repositories σ} {job : Job} {s s' : σ}
    (e : DomainError) : SettledIfOk R job s s' (.error e) := by
  intro h
  cases h

section Parts

variable {σ : Type} {R : Repositories σ} {job : Job} {d : Document} {s₀ s : σ} {ε : Type}

/-- A program that makes quiet calls only. -/
theorem wpIn_of_quiet {α : Type} {p : Prog Call Reply α} {Q : σ → α → Prop} (hL : R.Lawful)
    (hk : R.Keeps s₀ s) (hquiet : wp (fun _ c => c.isQuiet = true) (fun _ _ => True) [] p)
    (hQ : ∀ s' a, R.Keeps s₀ s' → Q s' a) : wpIn R.answers Q s p :=
  wpIn_of_wp (show ∀ s, R.Keeps s s from .refl) (fun _ _ _ => .trans) hL.quiet hquiet
    fun s' a hkeeps => hQ s' a (hk.trans hkeeps)

/-- A quiet call whose reply is looked at, and what comes after it. -/
theorem wpIn_ask {α : Type} (hL : R.Lawful) (hk : R.Keeps s₀ s) (c : Call) (hc : c.isQuiet = true)
    {f : Reply c → Service ε α} {Q : σ → Except ε α → Prop}
    (hQ : ∀ r s', R.Keeps s₀ s' → R.answers s c r s' → wpIn R.answers Q s' (f r).run) :
    wpIn R.answers Q s (ExceptT.lift (Prog.request c) >>= f : Service ε α).run := by
  simp only [wpIn_run_bind, ExceptT.run_lift, wpIn_map_ok, wpIn_request]
  exact fun r s' h => hQ r s' (hk.trans (hL.quiet _ _ _ _ hc h)) h

theorem wpIn_newEvent {status : EventStatus} {code message : String}
    {Q : σ → Except ε DianEvent → Prop} (hL : R.Lawful) (hk : R.Keeps s₀ s) (id : Uuid)
    (hQ : ∀ s' e, R.Keeps s₀ s' → e.document_id = id → e.event_status = status →
      e.dian_response_code = some code → Q s' (.ok e)) :
    wpIn R.answers Q s (newEvent id status code message).run := by
  refine wpIn_ask hL hk .newUuid rfl fun event_id s₁ hk₁ _ => ?_
  refine wpIn_ask hL hk₁ .utcNow rfl fun created_at s₂ hk₂ _ => ?_
  exact hQ s₂ _ hk₂ rfl rfl rfl

/-- A transition that the status of the document allows is applied or fails. -/
theorem wpIn_transition {t : Transition} {status : DocumentStatus} (hL : R.Lawful)
    (hk : R.Keeps s₀ s) (hstatus : R.status? s₀ t.document_id = some status)
    (hallowed : status ∈ t.target.allowedPredecessors)
    (hfresh : ∀ n, t.follow_up = some n → R.job? s₀ n.id = none)
    (hQ : ∀ s', R.Applies s s' t → Settled R job s₀ s') :
    wpIn R.answers (SettledIfOk R job s₀) s (transition job t).run := by
  simp only [transition, applyTransition, wpIn_run_bind, wpIn_run_mk]
  intro r s' hanswer
  cases r with
  | error e => exact settledIfOk_error e
  | ok applied =>
      cases applied with
      | true =>
          have happlies := hL.applied _ _ _ hanswer fun n hn => (hk.job _).trans (hfresh n hn)
          exact fun _ => hQ s' happlies
      | false =>
          exact absurd hallowed (hL.refused _ _ _ status hanswer ((hk.status _).trans hstatus))

/-- The status in which the processing found its document. -/
theorem entry_status (hL : R.Lawful) (hd : R.document? s₀ job.document_id = some d)
    (hentry : d.status = job.kind.entry) :
    d.id = job.document_id ∧ R.status? s₀ d.id = some job.kind.entry := by
  have hid := hL.keyed _ _ _ hd
  refine ⟨hid, ?_⟩
  rw [hid, ← hentry]
  exact congrArg (Option.map _) hd

variable (hL : R.Lawful) (hrow : ClaimedRow R job s₀)
include hL hrow

theorem wpIn_retry (hk : R.Keeps s₀ s) (hlast : job.isLastAttempt = false) (outcome : String) :
    wpIn R.answers (SettledIfOk R job s₀) s (do
      let run_at ← afterBackoff job.attempts
      retry job.id run_at outcome : Service DomainError Unit).run := by
  have hleft : job.attempts < job.max_attempts := by simpa [Job.isLastAttempt] using hlast
  unfold afterBackoff
  refine wpIn_ask hL hk .utcNow rfl fun now s₁ hk₁ _ => ?_
  refine wpIn_ask hL hk₁ (.backoffWithJitter job.attempts) rfl fun delay s₂ hk₂ _ => ?_
  intro r s₃ h₃
  cases r with
  | error e => exact settledIfOk_error e
  | ok u =>
      exact fun _ => settled_of_queued (hL.retry _ _ _ _ _ h₃) hk₂ hrow (fun _ => ⟨rfl, rfl⟩) hleft

theorem wpIn_releaseAfterCooldown (config : ProcessorConfig) (hk : R.Keeps s₀ s) :
    wpIn R.answers (SettledIfOk R job s₀) s (releaseAfterCooldown config job).run := by
  refine wpIn_ask hL hk .utcNow rfl fun now s₁ hk₁ _ => ?_
  intro r s₂ h₂
  cases r with
  | error e => exact settledIfOk_error e
  | ok u =>
      -- the attempt is given back, so one is left
      have hcounted := hrow.counted
      have hlimited := hrow.limited
      exact fun _ => settled_of_queued (hL.release _ _ _ _ h₂) hk₁ hrow (fun _ => ⟨rfl, rfl⟩)
        (show max (job.attempts - 1) 0 < job.max_attempts by omega)

variable (hd : R.document? s₀ job.document_id = some d) (hentry : d.status = job.kind.entry)
include hd hentry

theorem wpIn_fail (hk : R.Keeps s₀ s) (hkind : job.kind = .transmit) (reason : String) :
    wpIn R.answers (SettledIfOk R job s₀) s (fail job d reason).run := by
  obtain ⟨hid, hstatus⟩ := entry_status hL hd hentry
  simp only [fail, wpIn_run_bind]
  refine wpIn_newEvent hL hk d.id fun s' e hk' _ _ _ => ?_
  have hallowed : job.kind.entry ∈ DocumentStatus.processingFailed.allowedPredecessors := by
    rw [hkind]
    decide
  refine wpIn_transition hL hk' hstatus hallowed (fun n hn => by cases hn) ?_
  exact fun s'' happlies => settled_of_terminal happlies hk' hrow hid rfl rfl

theorem wpIn_closeWith (hk : R.Keeps s₀ s) {status : DocumentStatus}
    (hverdict : status = .dianAccepted ∨ status = .dianRejected) (event_status : EventStatus)
    (response : DianResponse) :
    wpIn R.answers (SettledIfOk R job s₀) s
      (closeWith job d status event_status response).run := by
  obtain ⟨hid, hstatus⟩ := entry_status hL hd hentry
  have hallowed : job.kind.entry ∈ status.allowedPredecessors := by
    cases hverdict with
    | inl h => subst h; cases job.kind <;> decide
    | inr h => subst h; cases job.kind <;> decide
  have hterminal : status.isTerminal = true := by
    cases hverdict with
    | inl h => subst h; rfl
    | inr h => subst h; rfl
  simp only [closeWith, responseEvent, wpIn_run_bind]
  refine wpIn_newEvent hL hk d.id fun s' e hk' _ _ _ => ?_
  refine wpIn_transition hL hk' hstatus hallowed (fun n hn => by cases hn) ?_
  exact fun s'' happlies => settled_of_terminal happlies hk' hrow hid rfl hterminal

theorem wpIn_transmissionFailed (hk : R.Keeps s₀ s) (hkind : job.kind = .transmit)
    (error : DomainError) :
    wpIn R.answers (SettledIfOk R job s₀) s (transmissionFailed job d error).run := by
  obtain ⟨hid, hstatus⟩ := entry_status hL hd hentry
  have hallowed : job.kind.entry ∈ DocumentStatus.contingencyPending.allowedPredecessors := by
    rw [hkind]
    decide
  refine wpIn_ask hL hk (.recordFailure _) rfl fun _ s₁ hk₁ _ => (wpIn_run_bind _ _).mpr ?_
  refine wpIn_newEvent hL hk₁ d.id fun s₂ e hk₂ hdocument hevent _ => ?_
  dsimp only
  split
  · refine wpIn_transition hL hk₂ hstatus hallowed (fun n hn => by cases hn) ?_
    intro s₃ happlies
    refine ⟨_, happlies.row hk₂ hrow rfl rfl, .inr (.inr ⟨rfl, .inr ?_⟩)⟩
    simp only [hkind]
    exact ⟨hid ▸ happlies.status, e, happlies.event e rfl, hdocument.trans hid, hevent⟩
  · rename_i hlast
    simp only [recordEvent, wpIn_run_bind, wpIn_run_mk]
    intro r s₃ h₃
    cases r with
    | error e => exact settledIfOk_error e
    | ok u =>
        have hk₃ := hk₂.trans (hL.record _ _ _ h₃).1
        exact (wpIn_run_bind _ _).mp
          (wpIn_retry hL hrow hk₃ (by simpa using hlast) error.message)

end Parts

/-! ## The parts that only make quiet calls -/

section Quiet

variable {t : History} {d : Document} {ε : Type}

theorem artifacts_quiet (ubl : UblEngine) :
    wp (fun _ c => c.isQuiet = true) (fun _ _ => True) t (artifacts ubl d).run := by
  refine wp_artifacts ubl (fun q c _ hc => ?_) (fun _ _ _ _ _ _ _ => rfl) fun _ _ _ _ => trivial
  cases c <;> first | rfl | exact absurd hc id

theorem acceptedBefore_quiet (job : Job) (a : Artifacts) :
    wp (fun _ c => c.isQuiet = true) (fun _ _ => True) t (acceptedBefore job d a).run := by
  unfold acceptedBefore
  split
  · simp only [wp_run_bind, wp_getStatus]
    refine ⟨rfl, fun r => ?_⟩
    cases r with
    | error e => exact trivial
    | ok status =>
        simp only
        split <;> exact trivial
  · exact trivial

theorem attachedDocument_quiet (ubl : UblEngine) (a : Artifacts) (xml : String) :
    wp (fun _ c => c.isQuiet = true) (fun _ _ => True) t
      (attachedDocument ubl d a xml : Service ε Unit).run := by
  simp only [attachedDocument, wp_run_bind, ExceptT.run_lift, wp_map_ok, wp_run_ofExcept,
    wp_utcNow, wp_newUuid, wp_signForTenant, wp_run_pure]
  split
  · refine ⟨rfl, fun now => ⟨rfl, fun id => ?_⟩⟩
    split
    · refine ⟨rfl, fun signed => ?_⟩
      cases signed <;> exact trivial
    · exact trivial
  · exact trivial

end Quiet

/-! ## The exits of a transmission -/

section Transmit

variable {σ : Type} {R : Repositories σ} {job : Job} {d : Document} {s₀ s : σ}
  (ubl : UblEngine) (config : ProcessorConfig)
  (hL : R.Lawful) (hrow : ClaimedRow R job s₀)
  (hd : R.document? s₀ job.document_id = some d) (hentry : d.status = job.kind.entry)
include hL hrow hd hentry

theorem wpIn_sendTestSet (hk : R.Keeps s₀ s) (hkind : job.kind = .transmit) (zip : List UInt8)
    (test_set_id : String) :
    wpIn R.answers (SettledIfOk R job s₀) s
      (sendTestSet config job d zip test_set_id).run := by
  obtain ⟨hid, hstatus⟩ := entry_status hL hd hentry
  have hallowed : job.kind.entry ∈ DocumentStatus.sentDian.allowedPredecessors := by
    rw [hkind]
    decide
  refine wpIn_ask hL hk (.sendTestSetAsync ..) rfl fun r s₁ hk₁ _ => ?_
  cases r with
  | error e => exact wpIn_transmissionFailed hL hrow hd hentry hk₁ hkind e
  | ok zip_key =>
      refine wpIn_ask hL hk₁ (.recordSuccess _) rfl fun _ s₂ hk₂ _ => ?_
      refine wpIn_ask hL hk₂ .utcNow rfl fun now s₃ hk₃ _ => (wpIn_run_bind _ _).mpr ?_
      refine wpIn_newEvent hL hk₃ d.id fun s₄ e hk₄ _ _ _ => ?_
      refine wpIn_ask hL hk₄ .newUuid rfl fun poll_id s₅ hk₅ h₅ => ?_
      have hnew : R.job? s₀ poll_id = none := (hk₄.job _).symm.trans (hL.fresh _ _ _ h₅)
      refine wpIn_transition hL hk₅ hstatus hallowed ?_ fun s₆ happlies => ?_
      · intro n hn
        cases hn
        exact hnew
      · have hpoll := happlies.follow_up _ rfl
        exact ⟨_, happlies.row hk₅ hrow rfl rfl, .inl ⟨rfl, .inr (.inl ⟨hid ▸ happlies.status,
          poll_id, _, hnew, hpoll, rfl, hid, rfl⟩)⟩⟩

theorem wpIn_sendBill (hk : R.Keeps s₀ s) (hkind : job.kind = .transmit) (a : Artifacts)
    (zip : List UInt8) :
    wpIn R.answers (SettledIfOk R job s₀) s (sendBill ubl job d a zip).run := by
  refine wpIn_ask hL hk (.sendBillSync ..) rfl fun r s₁ hk₁ _ => ?_
  cases r with
  | error e => exact wpIn_transmissionFailed hL hrow hd hentry hk₁ hkind e
  | ok response =>
      refine wpIn_ask hL hk₁ (.recordSuccess _) rfl fun _ s₂ hk₂ _ => ?_
      split
      · simp only [wpIn_run_bind]
        refine wpIn_mono (fun s₃ r hsettled => ?_)
          (wpIn_closeWith hL hrow hd hentry hk₂ (.inl rfl) .accepted response)
        cases r with
        | error e => exact settledIfOk_error e
        | ok u =>
            simp only
            split
            · -- the container is built after the job is settled and changes nothing
              refine wpIn_of_quiet hL (.refl s₃) (attachedDocument_quiet ubl a _) ?_
              exact fun s₄ r hk₄ _ => (hsettled rfl).keeps hk₄
            · exact fun _ => hsettled rfl
      · exact wpIn_closeWith hL hrow hd hentry hk₂ (.inr rfl) .rejected response

theorem wpIn_submit (hk : R.Keeps s₀ s) (hkind : job.kind = .transmit) (a : Artifacts) :
    wpIn R.answers (SettledIfOk R job s₀) s (submit ubl config job d a).run := by
  unfold submit
  split
  · exact wpIn_fail hL hrow hd hentry hk hkind _
  · split
    · exact wpIn_sendTestSet config hL hrow hd hentry hk hkind _ _
    · exact wpIn_sendBill ubl hL hrow hd hentry hk hkind a _

theorem wpIn_transmitPending (hk : R.Keeps s₀ s) (hkind : job.kind = .transmit) :
    wpIn R.answers (SettledIfOk R job s₀) s (transmitPending ubl config job d).run := by
  refine wpIn_ask hL hk (.canExecute _) rfl fun r s₁ hk₁ _ => ?_
  cases r with
  | false => exact wpIn_releaseAfterCooldown hL hrow config hk₁
  | true =>
      simp only [if_true, wpIn_run_bind, ExceptT.run_lift, wpIn_map_ok]
      refine wpIn_of_quiet hL hk₁ (artifacts_quiet ubl) fun s₂ r hk₂ => ?_
      cases r with
      | error reason => exact wpIn_fail hL hrow hd hentry hk₂ hkind reason
      | ok a =>
          simp only [wpIn_run_bind]
          refine wpIn_of_quiet hL hk₂ (acceptedBefore_quiet job a) fun s₃ r hk₃ => ?_
          cases r with
          | error e => exact settledIfOk_error e
          | ok before =>
              cases before with
              | none => exact wpIn_submit ubl config hL hrow hd hentry hk₃ hkind a
              | some status =>
                  refine wpIn_ask hL hk₃ (.recordSuccess _) rfl fun _ s₄ hk₄ _ => ?_
                  exact wpIn_closeWith hL hrow hd hentry hk₄ (.inl rfl) .accepted status

/-! ## The exits of a query -/

theorem wpIn_pollAgain (hk : R.Keeps s₀ s) (hkind : job.kind = .pollStatus) (outcome : String) :
    wpIn R.answers (SettledIfOk R job s₀) s (pollAgain job d outcome).run := by
  obtain ⟨hid, hstatus⟩ := entry_status hL hd hentry
  unfold pollAgain
  split
  · simp only [wpIn_run_bind]
    refine wpIn_newEvent hL hk d.id fun s₁ e hk₁ hdocument _ hcode => ?_
    simp only [recordEvent, bury, wpIn_run_mk]
    intro r s₂ h₂
    cases r with
    | error e => exact settledIfOk_error e
    | ok u =>
        intro r s₃ h₃
        obtain ⟨hkeeps, he⟩ := hL.record _ _ _ h₂
        cases r with
        | error e => exact settledIfOk_error e
        | ok u =>
            have hbury := hL.bury _ _ _ _ h₃
            refine fun _ => settled_of_dead hbury (hk₁.trans hkeeps) hrow (fun _ => rfl) (.inr ?_)
            simp only [hkind]
            refine .inr ⟨?_, e, hbury.events e he, hdocument.trans hid, hcode⟩
            rw [hbury.status, (hk₁.trans hkeeps).status, ← hid, hstatus, hkind]
            rfl
  · rename_i hlast
    exact wpIn_retry hL hrow hk (by simpa using hlast) outcome

theorem wpIn_pollStatus (hk : R.Keeps s₀ s) (hkind : job.kind = .pollStatus) (zip_key : String) :
    wpIn R.answers (SettledIfOk R job s₀) s (pollStatus job d zip_key).run := by
  refine wpIn_ask hL hk (.getStatusZip ..) rfl fun r s₁ hk₁ _ => ?_
  cases r with
  | error e =>
      refine wpIn_ask hL hk₁ (.recordFailure _) rfl fun _ s₂ hk₂ _ => ?_
      exact wpIn_pollAgain hL hrow hd hentry hk₂ hkind _
  | ok response =>
      refine wpIn_ask hL hk₁ (.recordSuccess _) rfl fun _ s₂ hk₂ _ => ?_
      split
      · exact wpIn_closeWith hL hrow hd hentry hk₂ (.inl rfl) .accepted response
      · split
        · exact wpIn_closeWith hL hrow hd hentry hk₂ (.inr rfl) .rejected response
        · exact wpIn_pollAgain hL hrow hd hentry hk₂ hkind _

end Transmit

/-! ## The whole -/

section Whole

variable {σ : Type} {R : Repositories σ} {job : Job} {s₀ : σ}
  (ubl : UblEngine) (config : ProcessorConfig) (hL : R.Lawful) (hrow : ClaimedRow R job s₀)
include hL hrow

/-- A job whose document is not in the store. -/
theorem wpIn_missing {s : σ} (hk : R.Keeps s₀ s) (hnone : R.document? s₀ job.document_id = none) :
    wpIn R.answers (SettledIfOk R job s₀) s (bury job.id "document not found").run := by
  simp only [bury, wpIn_run_mk]
  intro r s₁ h₁
  cases r with
  | error e => exact settledIfOk_error e
  | ok u =>
      exact fun _ => settled_of_dead (hL.bury _ _ _ _ h₁) hk hrow (fun _ => rfl) (.inl hnone)

/-- A job whose document has moved on. -/
theorem wpIn_closed {s : σ} {d : Document} (hk : R.Keeps s₀ s)
    (hd : R.document? s₀ job.document_id = some d) (hne : d.status ≠ job.kind.entry) :
    wpIn R.answers (SettledIfOk R job s₀) s (complete job.id).run := by
  simp only [complete, wpIn_run_mk]
  intro r s₁ h₁
  cases r with
  | error e => exact settledIfOk_error e
  | ok u => exact fun _ => settled_of_moved (hL.complete _ _ _ h₁) hk hrow hd hne

theorem wpIn_transmit (hkind : job.kind = .transmit) :
    wpIn R.answers (SettledIfOk R job s₀) s₀ (transmit ubl config job).run := by
  simp only [transmit, findDocument, wpIn_run_bind, wpIn_run_mk]
  intro r s₁ h₁
  have hk₁ := hL.quiet _ _ _ _ rfl h₁
  cases r with
  | error e => exact settledIfOk_error e
  | ok found =>
      have hfound := hL.find _ _ _ _ h₁
      cases found with
      | none => exact wpIn_missing hL hrow hk₁ hfound.symm
      | some d =>
          simp only [wpIn_done]
          split
          · exact wpIn_closed hL hrow hk₁ hfound.symm (by rw [hkind]; assumption)
          · rename_i hstatus
            exact wpIn_transmitPending ubl config hL hrow hfound.symm
              (by rw [hkind]; exact not_not.mp hstatus) hk₁ hkind

theorem wpIn_poll (hkind : job.kind = .pollStatus) :
    wpIn R.answers (SettledIfOk R job s₀) s₀ (poll config job).run := by
  simp only [poll, findDocument, wpIn_run_bind, wpIn_run_mk]
  intro r s₁ h₁
  have hk₁ := hL.quiet _ _ _ _ rfl h₁
  cases r with
  | error e => exact settledIfOk_error e
  | ok found =>
      have hfound := hL.find _ _ _ _ h₁
      cases found with
      | none => exact wpIn_missing hL hrow hk₁ hfound.symm
      | some d =>
          simp only [wpIn_done]
          split
          · exact wpIn_closed hL hrow hk₁ hfound.symm (by rw [hkind]; assumption)
          · rename_i hstatus
            have hentry : d.status = job.kind.entry := by
              rw [hkind]
              exact not_not.mp hstatus
            split
            · rename_i hzip
              simp only [bury, wpIn_run_mk]
              intro r s₂ h₂
              cases r with
              | error e => exact settledIfOk_error e
              | ok u =>
                  refine fun _ => settled_of_dead (hL.bury _ _ _ _ h₂) hk₁ hrow (fun _ => rfl)
                    (.inr ?_)
                  simp only [hkind]
                  exact .inl hzip
            · rename_i zip_key _
              refine wpIn_ask hL hk₁ (.canExecute _) rfl fun r s₂ hk₂ _ => ?_
              cases r with
              | false => exact wpIn_releaseAfterCooldown hL hrow config hk₂
              | true => exact wpIn_pollStatus hL hrow hfound.symm hentry hk₂ hkind zip_key

theorem wpIn_process :
    wpIn R.answers (SettledIfOk R job s₀) s₀ (process ubl config job).run := by
  unfold process
  split
  · exact wpIn_transmit ubl config hL hrow ‹_›
  · exact wpIn_poll config hL hrow ‹_›

end Whole

end DianService
