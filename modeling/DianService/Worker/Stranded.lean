import DianService.Worker.Resends

/-
  Worker: no document is left behind. A document in `SentDian` has its `poll_status` job in every
  run: it leaves that status only for a verdict, so a worker that completes the job has found the
  verdict there. A document in `Pending` has a transmit job as long as `claim` buries none whose
  lease expired on its last attempt: that job is dead and its document stays as it is.
-/

namespace DianService

open Lib Lib.Prog

/-! ## What the claim is -/

/-- The document waits in a queue that a worker, the reconciler or the administrator serves. -/
structure NotStranded (s : System) : Prop where
  pending : ∀ d ∈ s.db.documents, d.status = .pending →
    ∃ j ∈ s.db.jobs, j.document_id = d.id ∧ j.kind = .transmit ∧ j.active = true
  /-- `requeue_contingency` picks it once its limit reaches the candidates before it. -/
  contingency : ∀ d ∈ s.db.documents, d.status = .contingencyPending →
    s.db.hasActiveJob d.id .transmit = false → ∀ limit skipped, d.id ∉ skipped →
      (s.db.documents.countP fun e => e.created_at ≤ d.created_at) ≤ limit →
        d ∈ s.db.contingencyCandidates limit skipped
  sent : ∀ d ∈ s.db.documents, d.status = .sentDian →
    ∃ j ∈ s.db.jobs, j.document_id = d.id ∧ j.kind = .pollStatus ∧ j.status ≠ .done ∧
      ∃ e ∈ s.db.dian_events, e.document_id = d.id ∧ e.event_status = .sent ∧
        ∃ zip_key, e.soap_trace_id = some zip_key ∧ (j.job.zipKey = some zip_key)

/-- `claim` buries no transmit job of a document that is still `Pending`. -/
def BuriesNoPending (s : System) : SystemAction → Prop
  | .buryExpired => ∀ j ∈ s.db.jobs, j.kind = .transmit → j.leaseExpired s.now = true →
      j.max_attempts ≤ j.attempts → ∀ d ∈ s.db.documents, d.id = j.document_id →
        d.status ≠ .pending
  | _ => True

instance (s : System) : ∀ a, Decidable (BuriesNoPending s a)
  | .buryExpired => inferInstanceAs (Decidable (∀ j ∈ s.db.jobs, _))
  | .tick _ | .createWebhook _ | .registerRange .. | .issueOutbound .. | .claim .. | .work .. |
    .crash _ | .requeueContingency .. | .retryDeadJob .. | .claimDeliveries .. | .deliver .. |
    .crashDelivery _ | .retryDeadDelivery .. => isTrue trivial

def Guarded (s : System) (a : SystemAction) : Prop := Fenced s a ∧ BuriesNoPending s a

instance (s : System) (a : SystemAction) : Decidable (Guarded s a) :=
  inferInstanceAs (Decidable (_ ∧ _))

/-! ## What a call closes -/

section Effect

variable {db db' : Db} {c : Call}

/-- What becomes of a job under a call of a task. -/
inductive JobFate (db : Db) (c : Call) (db' : Db) (j j' : JobRow) : Prop where
  | open (hactive : j.active = true → j'.active = true) (hdone : j.status ≠ .done → j'.status ≠ .done)
  | completed (hc : c = .complete j.id)
  | buried {error : String} (hc : c = .bury j.id error) (hdead : j'.status = .dead)
  | closed {tr : Transition} {d : Document} {o : JobOutcome} (hc : c = .applyTransition tr)
      (h : db.Applied tr d db') (ho : tr.job = some o) (hid : o.jobId = j.id)

theorem Effect.fate (h : Effect db c db') :
    ∀ j ∈ db.jobs, ∃ j' ∈ db'.jobs, j.Same j' ∧ JobFate db c db' j j' := by
  intro j hj
  have hmap : ∀ {id : Uuid} {f : JobRow → JobRow}, (∀ j : JobRow, j.Same (f j)) →
      (j.id = id → JobFate db c db' j (f j)) →
      ∃ j' ∈ db.jobs.map (fun j => if j.id = id then f j else j), j.Same j' ∧
        JobFate db c db' j j' := by
    intro id f hf hfate
    refine ⟨_, List.mem_map_of_mem hj, same_ite hf (fun j => j.id = id) j, ?_⟩
    split
    · exact hfate ‹_›
    · exact .open (fun h => h) fun h => h
  cases h with
  | same | stored | recorded => exact ⟨j, hj, .refl j, .open (fun h => h) fun h => h⟩
  | @applied tr d _ h =>
      have hkeep : ∀ j' ∈ (db.closeJob tr.job).jobs, j' ∈ db'.jobs := by
        intro j' hj'
        rw [h.jobs]
        exact List.mem_append_left _ hj'
      cases hjob : tr.job with
      | none =>
          refine ⟨j, hkeep j ?_, .refl j, .open (fun h => h) fun h => h⟩
          rw [hjob]
          exact hj
      | some o =>
          obtain ⟨f, hf, hjobs⟩ := closeJob_jobs db o
          rw [hjob, hjobs] at hkeep
          refine ⟨_, hkeep _ (List.mem_map_of_mem hj), same_ite (fun j => (hf j).1)
            (fun j => j.id = o.jobId) j, ?_⟩
          split
          · exact .closed rfl h hjob (Eq.symm ‹_›)
          · exact .open (fun h => h) fun h => h
  | completed =>
      refine hmap JobRow.same_completed fun hid => ?_
      rw [← hid]
      exact .completed rfl
  | buried =>
      refine hmap (JobRow.same_buried _) fun hid => ?_
      rw [← hid]
      exact .buried rfl rfl
  | retried =>
      exact hmap (JobRow.same_retried _ _) fun _ => .open (fun _ => JobRow.active_retried _ _ j)
        fun _ => by simp [JobRow.retried]
  | released =>
      exact hmap (JobRow.same_released _) fun _ => .open (fun _ => JobRow.active_released _ j)
        fun _ => by simp [JobRow.released]

end Effect

/-! ## A task that found its document moved on -/

section MovedOn

variable {ubl : UblEngine} {config : ProcessorConfig} {s s' : System} {a : SystemAction} {t : Task}
  {c : Call} {r : Reply c} {k : Reply c → Prog Call Reply (Except DomainError Unit)} {db : Db}

/-- If a reply tells a task that its document has moved on, it has. -/
theorem movedOn_reply (hs : s.Sound ubl config) (ht : t ∈ s.tasks) (hrest : t.rest = .call c k)
    (h : Answered s.db c r db) (hm : MovedOn t.job (t.history ++ [⟨c, r⟩])) :
    MovedOn t.job t.history ∨ db.documents = s.db.documents ∧
      ∀ d ∈ s.db.documents, d.id = t.job.document_id → d.status ≠ t.job.kind.entry := by
  have hP := hs.call ht hrest
  have hlast : ∀ {x : Exchange Call Reply}, x ∈ t.history ++ [⟨c, r⟩] →
      x ∈ t.history ∨ x = ⟨c, r⟩ := by
    intro x hx
    rw [List.mem_append, List.mem_singleton] at hx
    exact hx
  have hfind : ∀ {found : Option Document},
      (⟨.findDocument t.job.document_id, .ok found⟩ : Exchange Call Reply) = ⟨c, r⟩ →
      t.history = [] ∧ db.documents = s.db.documents ∧ found = s.db.document? t.job.document_id := by
    intro found heq
    cases heq
    refine ⟨hP.2, ?_, h.truthful⟩
    cases h.effect
    rfl
  rcases hm with ⟨d, hfound, hstatus⟩ | ⟨d, tr, hfound, happly, hid, hentry⟩
  · rcases hlast hfound with hfound | heq
    · exact .inl (.inl ⟨d, hfound, hstatus⟩)
    · obtain ⟨-, hdb, htrue⟩ := hfind heq
      refine .inr ⟨hdb, fun e he heid => ?_⟩
      rw [← heid, hs.consistent.document?_eq he] at htrue
      cases htrue
      exact hstatus
  · rcases hlast happly with happly | heq
    · rcases hlast hfound with hfound | heq
      · exact .inl (.inr ⟨d, tr, hfound, happly, hid, hentry⟩)
      · rw [(hfind heq).1] at happly
        cases happly
    · -- the transition was refused, so the document is in none of the statuses it may leave
      cases heq
      obtain ⟨hdid, -⟩ := hs.found ht (d := d) (by
        rcases hlast hfound with hfound | heq
        · exact hfound
        · cases heq)
      have hnot : ∀ e ∈ s.db.documents, e.id = tr.document_id →
          e.status ∉ tr.target.allowedPredecessors := fun e he heid =>
        h.truthful e (heid ▸ hs.consistent.document?_eq he)
      refine .inr ⟨?_, fun e he heid hstatus => ?_⟩
      · cases h.effect with
        | same => rfl
        | applied h' =>
            have hmem := Db.document?_mem h'.found
            exact absurd h'.allowed (hnot _ hmem.1 hmem.2)
      · exact hnot e he (heid.trans (hdid.symm.trans hid.symm)) (hstatus ▸ hentry)

theorem not_movedOn_nil (job : Job) : ¬ MovedOn job [] := by
  rintro (⟨d, h, -⟩ | ⟨d, tr, h, -⟩) <;> cases h

/-! ## Documents that were sent -/

/-- What the poll jobs say of their documents. -/
structure Tracked (s : System) : Prop where
  polled : ∀ j ∈ s.db.jobs, j.kind = .pollStatus → ∀ d ∈ s.db.documents, d.id = j.document_id →
    d.status = .sentDian ∨ d.status.isTerminal = true
  moved : ∀ t ∈ s.tasks, t.job.kind = .pollStatus → MovedOn t.job t.history →
    ∀ d ∈ s.db.documents, d.id = t.job.document_id → d.status.isTerminal = true
  sent : ∀ d ∈ s.db.documents, d.status = .sentDian →
    ∃ j ∈ s.db.jobs, j.document_id = d.id ∧ j.kind = .pollStatus ∧ j.status ≠ .done ∧
      ∃ e ∈ s.db.dian_events, e.document_id = d.id ∧ e.event_status = .sent ∧
        ∃ zip_key, e.soap_trace_id = some zip_key ∧ j.job.zipKey = some zip_key

/-- A document that has a verdict or waits for one goes nowhere else. -/
theorem sent_or_terminal {d d' : Document} (hd : d.status = .sentDian ∨ d.status.isTerminal = true)
    (h : d'.status = d.status ∨ d.status.canTransitionTo d'.status = true) :
    d'.status = .sentDian ∨ d'.status.isTerminal = true := by
  rcases h with h | h
  · rwa [h]
  · rcases hd with hd | hd
    · rw [hd] at h
      rcases DocumentStatus.canTransitionTo_of_sentDian h with h | h <;> rw [h] <;> exact .inr rfl
    · rw [DocumentStatus.not_canTransitionTo_of_isTerminal hd] at h
      cases h

theorem terminal_stays {d d' : Document} (hd : d.status.isTerminal = true)
    (h : d'.status = d.status ∨ d.status.canTransitionTo d'.status = true) :
    d'.status.isTerminal = true := by
  rcases h with h | h
  · rwa [h]
  · rw [DocumentStatus.not_canTransitionTo_of_isTerminal hd] at h
    cases h

/-- A job for a status query that a step leaves: an older one, or the one a transition to
    `SentDian` adds. -/
theorem poll_cases (h : SystemStep ubl config s a s') (hs : s.Sound ubl config) :
    ∀ j' ∈ s'.db.jobs, j'.kind = .pollStatus → (∃ j ∈ s.db.jobs, j.Same j') ∨
      ∀ d ∈ s'.db.documents, d.id = j'.document_id → d.status = .sentDian := by
  intro j' hj' hkind
  have hmap : ∀ {f : JobRow → JobRow}, (∀ j : JobRow, j.Same (f j)) → j' ∈ s.db.jobs.map f →
      ∃ j ∈ s.db.jobs, j.Same j' := by
    intro f hf hmem
    obtain ⟨j, hj, rfl⟩ := List.mem_map.mp hmem
    exact ⟨j, hj, hf j⟩
  cases h with
  | idle _ hjobs =>
      rw [hjobs] at hj'
      exact .inl ⟨j', hj', .refl j'⟩
  | issued =>
      rcases List.mem_append.mp hj' with hj' | hj'
      · exact .inl ⟨j', hj', .refl j'⟩
      · rw [List.mem_singleton.mp hj'] at hkind
        cases hkind
  | expired =>
      exact .inl (hmap (same_ite JobRow.same_expired fun j =>
        j.leaseExpired s.now ∧ j.max_attempts ≤ j.attempts) hj')
  | claimed => exact .inl (hmap (same_ite (JobRow.same_claimed _ _ s.now) _) hj')
  | @worked i w t c r db k ht hrest _ h =>
      have hP := hs.call (List.mem_of_getElem? ht) hrest
      cases h.effect with
      | same | stored | recorded => exact .inl ⟨j', hj', .refl j'⟩
      | completed => exact .inl (hmap (same_ite JobRow.same_completed fun j => j.id = _) hj')
      | buried => exact .inl (hmap (same_ite (JobRow.same_buried _) fun j => j.id = _) hj')
      | retried => exact .inl (hmap (same_ite (JobRow.same_retried _ _) fun j => j.id = _) hj')
      | released => exact .inl (hmap (same_ite (JobRow.same_released _) fun j => j.id = _) hj')
      | @applied tr d _ h =>
          dsimp only at hj'
          rw [h.jobs] at hj'
          rcases List.mem_append.mp hj' with hj' | hj'
          · cases hjob : tr.job with
            | none =>
                rw [hjob] at hj'
                exact .inl ⟨j', hj', .refl j'⟩
            | some o =>
                obtain ⟨f, hf, hjobs⟩ := closeJob_jobs s.db o
                rw [hjob, hjobs] at hj'
                exact .inl (hmap (same_ite (fun j => (hf j).1) fun j => j.id = o.jobId) hj')
          · obtain ⟨new, hnew, rfl⟩ := List.mem_map.mp hj'
            obtain ⟨e, hW, hdoc, htr⟩ := hP
            cases htarget : tr.target <;> simp only [htarget] at htr
            case sentDian =>
              obtain ⟨-, -, event, zip_key, poll_id, max_attempts, run_at, -, -, -, -, hfollow⟩ := htr
              rw [hfollow, Option.toList_some, List.mem_singleton] at hnew
              subst hnew
              refine .inr fun d' hd' hid => ?_
              exact (h.status d' hd' (Eq.trans hid hdoc.symm)).trans htarget
            all_goals simp [htr] at hnew
  | crashed => exact .inl ⟨j', hj', .refl j'⟩
  | requeued h =>
      dsimp only at hj'
      rw [(Db.requeueContingency_ok h).2.1] at hj'
      rcases List.mem_append.mp hj' with hj' | hj'
      · exact .inl ⟨j', hj', .refl j'⟩
      · obtain ⟨d, -, id, rfl⟩ := Db.mem_contingencyJobs hj'
        cases hkind
  | revived h hne =>
      obtain h | ⟨j, d, -, -, -, -, -, -, -, -, hjobs, -⟩ := Db.retryDeadJob_ok h
      · exact absurd h hne
      · dsimp only at hj'
        rw [hjobs] at hj'
        exact .inl (hmap (same_ite (JobRow.same_revived s.now) fun k => k.id = _) hj')

/-- The document of an earlier state that a document comes from. -/
theorem moves_of_known (h : s.db.Moves s'.db) {d' : Document} (hd' : d' ∈ s'.db.documents)
    (hknown : ∃ d ∈ s.db.documents, d.id = d'.id) : ∃ d ∈ s.db.documents, d.id = d'.id ∧
      (d'.status = d.status ∨ d.status.canTransitionTo d'.status = true) := by
  rcases h d' hd' with hold | ⟨-, hnew⟩
  · exact hold
  · obtain ⟨d, hd, hid⟩ := hknown
    exact absurd hid (hnew d hd)

theorem tracked_polled (h : SystemStep ubl config s a s') (hs : s.Sound ubl config)
    (hT : Tracked s) : ∀ j ∈ s'.db.jobs, j.kind = .pollStatus → ∀ d ∈ s'.db.documents,
      d.id = j.document_id → d.status = .sentDian ∨ d.status.isTerminal = true := by
  intro j' hj' hkind d' hd' hid
  rcases poll_cases h hs j' hj' hkind with ⟨j, hj, hsame⟩ | hsent
  · obtain ⟨e, he, heid⟩ := hs.consistent.foreign j hj
    obtain ⟨d, hd, hdid, hstatus⟩ := moves_of_known (h.moves hs.consistent) hd'
      ⟨e, he, heid.trans (hsame.document_id.trans hid.symm)⟩
    exact sent_or_terminal (hT.polled j hj (hsame.kind.trans hkind) d hd
      (hdid.trans (hid.trans hsame.document_id.symm))) hstatus
  · exact .inl (hsent d' hd' hid)

theorem tracked_moved (h : SystemStep ubl config s a s') (hs : s.Sound ubl config)
    (hT : Tracked s) : ∀ t ∈ s'.tasks, t.job.kind = .pollStatus → MovedOn t.job t.history →
      ∀ d ∈ s'.db.documents, d.id = t.job.document_id → d.status.isTerminal = true := by
  intro t' ht' hkind hmoved d' hd' hid
  have hmoves := h.moves hs.consistent
  have hold : ∀ t ∈ s.tasks, t.job = t'.job → MovedOn t.job t.history → d'.status.isTerminal = true := by
    intro t ht hjob hm
    obtain ⟨e, he, heid⟩ := hs.document ht
    rw [hjob] at heid
    obtain ⟨d, hd, hdid, hstatus⟩ := moves_of_known hmoves hd' ⟨e, he, heid.trans hid.symm⟩
    exact terminal_stays (hT.moved t ht (hjob ▸ hkind) hm d hd (by rw [hjob, hdid, hid])) hstatus
  cases h with
  | claimed =>
      rcases List.mem_append.mp ht' with ht' | ht'
      · exact hold t' ht' rfl hmoved
      · obtain ⟨job, -, rfl⟩ := List.mem_map.mp ht'
        exact absurd hmoved (not_movedOn_nil job)
  | @worked i w t c r db k ht hrest _ h =>
      have htmem := List.mem_of_getElem? ht
      rcases List.mem_or_eq_of_mem_set ht' with ht' | rfl
      · exact hold t' ht' rfl hmoved
      · rcases movedOn_reply hs htmem hrest h hmoved with hm | ⟨hdb, hne⟩
        · exact hold t htmem rfl hm
        · dsimp only at hd'
          rw [hdb] at hd'
          obtain ⟨j, hj, hof⟩ := (hs.task t htmem).row
          have hpolled := hT.polled j hj (hof.kind.trans hkind) d' hd'
            (hid.trans hof.document_id.symm)
          have hentry : t.job.kind.entry = .sentDian := by
            rw [show t.job.kind = .pollStatus from hkind]
            rfl
          exact hpolled.resolve_left (hentry ▸ hne d' hd' hid)
  | crashed => exact hold t' (List.mem_of_mem_eraseIdx ht') rfl hmoved
  | _ => exact hold t' ht' rfl hmoved

/-- The transition a task asks for is about the document of its job. -/
theorem transition_document (hs : s.Sound ubl config) (ht : t ∈ s.tasks) {tr : Transition}
    {k : Reply (.applyTransition tr) → Prog Call Reply (Except DomainError Unit)}
    (hrest : t.rest = .call (.applyTransition tr) k) :
    tr.document_id = t.job.document_id := by
  obtain ⟨d, hW, hdoc, -⟩ := hs.call ht hrest
  rw [hdoc]
  exact (hs.found ht hW.found).1

/-- A poll job of a document in `SentDian` is not completed. -/
theorem poll_stays_open (hs : s.Sound ubl config) (hT : Tracked s) (ht : t ∈ s.tasks)
    (hrest : t.rest = .call c k) (h : Answered s.db c r db) {d d' : Document}
    (hd : d ∈ s.db.documents) (hstatus : d.status = .sentDian) (hd' : d' ∈ db.documents)
    (hid : d'.id = d.id) (hstatus' : d'.status = .sentDian) {j : JobRow} (hj : j ∈ s.db.jobs)
    (hdoc : j.document_id = d.id) (hkind : j.kind = .pollStatus) (hopen : j.status ≠ .done) :
    ∃ j' ∈ db.jobs, j.Same j' ∧ j'.status ≠ .done := by
  have hP := hs.call ht hrest
  obtain ⟨i, hi, hof⟩ := (hs.task t ht).row
  have hown : j.id = t.job.id → t.job.kind = .pollStatus ∧ d.id = t.job.document_id := by
    intro hjid
    have hij := hs.consistent.eq_of_id hj hi (hjid.trans hof.id.symm)
    subst hij
    exact ⟨hof.kind.symm.trans hkind, hdoc.symm.trans hof.document_id⟩
  obtain ⟨j', hj', hsame, hfate⟩ := h.effect.fate j hj
  refine ⟨j', hj', hsame, ?_⟩
  cases hfate with
  | «open» _ hdone => exact hdone hopen
  | completed hc =>
      subst hc
      obtain ⟨hjid, -, hmoved⟩ := hP
      have hterminal := hT.moved t ht (hown hjid).1 hmoved d hd (hown hjid).2
      rw [hstatus] at hterminal
      cases hterminal
  | buried _ hdead => simp [hdead]
  | @closed tr d₀ o hc h' ho hoid =>
      subst hc
      obtain ⟨-, o', ho', hjid⟩ := ProcessCall.settling (c := .applyTransition tr) hP rfl
      rw [ho] at ho'
      cases ho'
      obtain ⟨hpoll, hdid⟩ := hown (hoid.symm.trans hjid)
      have htarget := h'.status d' hd' (hid.trans (hdid.trans (transition_document hs ht hrest).symm))
      obtain ⟨e, -, -, htr⟩ := hP
      rw [← htarget, hstatus'] at htr
      rw [htr.1] at hpoll
      cases hpoll

theorem tracked_sent (h : SystemStep ubl config s a s') (hs : s.Sound ubl config)
    (hT : Tracked s) : ∀ d ∈ s'.db.documents, d.status = .sentDian →
      ∃ j ∈ s'.db.jobs, j.document_id = d.id ∧ j.kind = .pollStatus ∧ j.status ≠ .done ∧
        ∃ e ∈ s'.db.dian_events, e.document_id = d.id ∧ e.event_status = .sent ∧
          ∃ zip_key, e.soap_trace_id = some zip_key ∧ j.job.zipKey = some zip_key := by
  intro d' hd' hstatus'
  have hevents := h.kept.dian_events
  -- a document that was there already, with a job that stays open
  have hcarry : ∀ d ∈ s.db.documents, d'.id = d.id → d.status = .sentDian →
      (∀ j ∈ s.db.jobs, j.document_id = d.id → j.kind = .pollStatus → j.status ≠ .done →
        ∃ j' ∈ s'.db.jobs, j.Same j' ∧ j'.status ≠ .done) →
      ∃ j ∈ s'.db.jobs, j.document_id = d'.id ∧ j.kind = .pollStatus ∧ j.status ≠ .done ∧
        ∃ e ∈ s'.db.dian_events, e.document_id = d'.id ∧ e.event_status = .sent ∧
          ∃ zip_key, e.soap_trace_id = some zip_key ∧ j.job.zipKey = some zip_key := by
    intro d hd hid hstatus hjobs
    obtain ⟨j, hj, hdoc, hkind, hopen, e, he, hedoc, hsent, z, hez, hjz⟩ := hT.sent d hd hstatus
    obtain ⟨j', hj', hsame, hopen'⟩ := hjobs j hj hdoc hkind hopen
    refine ⟨j', hj', hsame.document_id.symm.trans (hdoc.trans hid.symm),
      hsame.kind.symm.trans hkind, hopen', e, hevents e he, hedoc.trans hid.symm, hsent, z, hez, ?_⟩
    unfold Job.zipKey at hjz ⊢
    show (j'.payload.get? "zip_key").bind Value.asStr? = some z
    rw [← hsame.payload]
    exact hjz
  have hmap : ∀ {f : JobRow → JobRow} {p : JobRow → Prop} [DecidablePred p],
      (∀ j : JobRow, j.Same (f j)) → (∀ j, (f j).status ≠ .done) →
      ∀ j ∈ s.db.jobs, j.status ≠ .done →
        ∃ j' ∈ s.db.jobs.map (fun j => if p j then f j else j), j.Same j' ∧ j'.status ≠ .done := by
    intro f p _ hf hdone j hj hopen
    refine ⟨_, List.mem_map_of_mem hj, same_ite hf p j, ?_⟩
    split
    · exact hdone j
    · exact hopen
  cases h with
  | idle hdocuments hjobs =>
      dsimp only at hd'
      rw [hdocuments] at hd'
      refine hcarry d' hd' rfl hstatus' fun j hj _ _ hopen => ⟨j, ?_, .refl j, hopen⟩
      dsimp only
      rwa [hjobs]
  | issued =>
      rcases List.mem_append.mp hd' with hd' | hd'
      · exact hcarry d' hd' rfl hstatus' fun j hj _ _ hopen =>
          ⟨j, List.mem_append_left _ hj, .refl j, hopen⟩
      · rw [List.mem_singleton.mp hd'] at hstatus'
        cases hstatus'
  | expired =>
      exact hcarry d' hd' rfl hstatus' fun j hj _ _ hopen =>
        hmap JobRow.same_expired (by simp [JobRow.expired]) j hj hopen
  | claimed =>
      exact hcarry d' hd' rfl hstatus' fun j hj _ _ hopen =>
        hmap (JobRow.same_claimed _ _ s.now) (by simp [JobRow.claimed]) j hj hopen
  | @worked i w t c r db k ht hrest _ h =>
      have htmem := List.mem_of_getElem? ht
      rcases h.effect.status_cases d' hd' with ⟨d, hd, hid, hstatus⟩ | ⟨tr, rfl, hid, htarget⟩
      · rw [hstatus'] at hstatus
        exact hcarry d hd hid.symm hstatus fun j hj hdoc hkind hopen =>
          poll_stays_open hs hT htmem hrest h hd hstatus hd' hid.symm hstatus' hj hdoc hkind hopen
      · cases h.effect with
        | same => exact hcarry d' hd' rfl hstatus' fun j hj _ _ hopen => ⟨j, hj, .refl j, hopen⟩
        | applied h' =>
            -- the transition adds the poll job and the event
            obtain ⟨e, -, hdoc, htr⟩ := hs.call htmem hrest
            rw [hstatus'] at htarget
            rw [← htarget] at htr
            obtain ⟨-, -, event, z, poll_id, max_attempts, run_at, hevent, hedoc, hsent, htrace,
              hfollow⟩ := htr
            have hid' : d'.id = e.id := hid.trans hdoc
            refine ⟨(NewJob.pollStatus poll_id e.id z max_attempts run_at).row, ?_, hid'.symm, rfl,
              by simp [NewJob.row], event, ?_, hedoc.trans hid'.symm, hsent, z, htrace, rfl⟩
            · dsimp only
              rw [h'.jobs, hfollow]
              simp
            · dsimp only
              rw [h'.dian_events, hevent]
              simp
  | crashed =>
      exact hcarry d' hd' rfl hstatus' fun j hj _ _ hopen => ⟨j, hj, .refl j, hopen⟩
  | requeued h =>
      obtain ⟨hdocuments, hjobs, -, -⟩ := Db.requeueContingency_ok h
      dsimp only at hd'
      rw [hdocuments] at hd'
      obtain ⟨d, hd, rfl⟩ := List.mem_map.mp hd'
      split at hstatus'
      · cases hstatus'
      · rename_i hnot
        rw [if_neg hnot] at hcarry ⊢
        refine hcarry d hd rfl hstatus' fun j hj _ _ hopen => ⟨j, ?_, .refl j, hopen⟩
        dsimp only
        rw [hjobs]
        exact List.mem_append_left _ hj
  | @revived job_id audit db b h hne =>
      obtain h | ⟨j, d, -, -, -, -, -, -, -, -, hjobs, hdocuments⟩ := Db.retryDeadJob_ok h
      · exact absurd h hne
      · have hold : d' ∈ s.db.documents := by
          dsimp only at hd'
          rw [hdocuments] at hd'
          split at hd'
          · obtain ⟨e, he, rfl⟩ := List.mem_map.mp hd'
            split at hstatus'
            · cases hstatus'
            · rw [if_neg ‹_›]
              exact he
          · exact hd'
        refine hcarry d' hold rfl hstatus' fun i hi _ _ hopen => ?_
        dsimp only
        rw [hjobs]
        exact hmap (JobRow.same_revived s.now) (by simp [JobRow.revived]) i hi hopen

theorem tracked_of_reachableBy {C : System → SystemAction → Prop}
    (hs : (system ubl config).ReachableBy C s) : Tracked s := by
  refine hs.invariant ?_ ?_
  · rintro s ⟨tenants, now, rfl⟩
    refine ⟨?_, ?_, ?_⟩
    · intro j hj
      cases hj
    · intro t ht
      cases ht
    · intro d hd
      cases hd
  · intro s a s' hr hT _ h
    have hstep := systemStep_inv h
    have hsound := sound_of_reachableBy hr
    exact ⟨tracked_polled hstep hsound hT, tracked_moved hstep hsound hT,
      tracked_sent hstep hsound hT⟩

/-! ## Documents that wait to be sent -/

structure Waiting (s : System) : Prop where
  pending : ∀ d ∈ s.db.documents, d.status = .pending →
    ∃ j ∈ s.db.jobs, j.document_id = d.id ∧ j.kind = .transmit ∧ j.active = true
  /-- While a worker holds the job of a document that moved on, nobody brings it back. -/
  moved : ∀ t ∈ s.tasks, t.holding = true → t.claim.Holds (leaseOf s.db.jobs) →
    t.job.kind = .transmit → MovedOn t.job t.history →
      ∀ d ∈ s.db.documents, d.id = t.job.document_id → d.status ≠ .pending

/-- The row of a task that holds its job is its document's active transmit job. -/
theorem active_of_holds (hs : s.Sound ubl config) (ht : t ∈ s.tasks)
    (hholds : t.claim.Holds (leaseOf s.db.jobs)) (hkind : t.job.kind = .transmit) :
    ∃ j ∈ s.db.jobs, j.id = t.job.id ∧ j.status = .running ∧ j.kind = .transmit ∧
      j.document_id = t.job.document_id := by
  obtain ⟨j, hj, hof⟩ := (hs.task t ht).row
  exact ⟨j, hj, hof.id, (running_of_holds hs hholds hj hof.id).1, hof.kind.trans hkind,
    hof.document_id⟩

theorem transition_not_pending {job : Job} {d : Document} {q : History} {tr : Transition}
    (h : TransitionFor job d q tr) : tr.target ≠ .pending := by
  intro htarget
  have h := h.2
  simp only [htarget] at h

/-- What makes a document pending again finds no active transmit job for it. -/
theorem pending_cases (h : SystemStep ubl config s a s') (hs : s.Sound ubl config) {d' : Document}
    (hd' : d' ∈ s'.db.documents) (hstatus : d'.status = .pending) :
    (∃ d ∈ s.db.documents, d.id = d'.id ∧ d.status = .pending) ∨
    (∃ j ∈ s'.db.jobs, j.document_id = d'.id ∧ j.kind = .transmit ∧ j.active = true) ∧
      ∀ j ∈ s.db.jobs, j.document_id = d'.id → j.kind = .transmit → j.status ≠ .running := by
  cases h with
  | idle hdocuments =>
      dsimp only at hd'
      rw [hdocuments] at hd'
      exact .inl ⟨d', hd', rfl, hstatus⟩
  | @issued r times tx db' hfree =>
      rcases List.mem_append.mp hd' with hd' | hd'
      · exact .inl ⟨d', hd', rfl, hstatus⟩
      · rw [List.mem_singleton.mp hd']
        refine .inr ⟨⟨_, List.mem_append_right _ (List.mem_singleton_self _), rfl, rfl, rfl⟩, ?_⟩
        intro j hj hdoc
        obtain ⟨e, he, heid⟩ := hs.consistent.foreign j hj
        simp only [Db.documentTaken, List.any_eq_false, decide_eq_true_eq, not_or] at hfree
        exact absurd (heid.trans hdoc) (hfree e he).1
  | expired | claimed | crashed => exact .inl ⟨d', hd', rfl, hstatus⟩
  | @worked i w t c r db k ht hrest _ h =>
      rcases h.effect.status_cases d' hd' with ⟨d, hd, hid, hsame⟩ | ⟨tr, rfl, hid, htarget⟩
      · exact .inl ⟨d, hd, hid, hsame.trans hstatus⟩
      · obtain ⟨d, -, htr⟩ := hs.call (List.mem_of_getElem? ht) hrest
        exact absurd (htarget.symm.trans hstatus) (transition_not_pending htr)
  | @requeued limit fresh skipped db n h =>
      obtain ⟨hdocuments, hjobs, -, -⟩ := Db.requeueContingency_ok h
      dsimp only at hd' ⊢
      rw [hdocuments] at hd'
      obtain ⟨d, hd, rfl⟩ := List.mem_map.mp hd'
      by_cases hpicked : d.id ∈ (s.db.contingencyCandidates limit skipped).map Document.id
      · rw [if_pos hpicked]
        obtain ⟨e, he, hid⟩ := List.mem_map.mp hpicked
        obtain ⟨i, hi, rfl⟩ := List.mem_iff_getElem.mp he
        refine .inr ⟨⟨(NewJob.transmit (fresh i) s.now
          ((s.db.contingencyCandidates limit skipped)[i]).id config.transmit_max_attempts).row,
          ?_, hid, rfl, rfl⟩, ?_⟩
        · rw [hjobs]
          exact List.mem_append_right _ (List.mem_mapIdx.mpr ⟨i, hi, rfl⟩)
        · intro j hj hdoc hkind hrunning
          have hnone := (Db.mem_of_mem_contingencyCandidates he).2.2
          rw [hasActiveJob_eq_false] at hnone
          exact hnone j hj (JobRow.active_iff.mpr (.inr hrunning)) (hdoc.trans hid.symm) hkind
      · rw [if_neg hpicked] at hstatus ⊢
        exact .inl ⟨d, hd, rfl, hstatus⟩
  | @revived job_id audit db b h hne =>
      obtain h | ⟨j, d, hj, hid, hdead, hd, hdoc, -, hfree, -, hjobs, hdocuments⟩ :=
        Db.retryDeadJob_ok h
      · exact absurd h hne
      · dsimp only at hd' ⊢
        rw [hdocuments] at hd'
        split at hd'
        · rename_i hmoved
          obtain ⟨e, he, rfl⟩ := List.mem_map.mp hd'
          by_cases heid : e.id = d.id
          · rw [if_pos heid]
            refine .inr ⟨⟨j.revived s.now, ?_, hdoc.symm.trans heid.symm, hmoved.1, by simp⟩, ?_⟩
            · rw [hjobs]
              exact List.mem_map.mpr ⟨j, hj, if_pos hid⟩
            · intro i hi hidoc hikind hrunning
              have hidoc : i.document_id = e.id := hidoc
              by_cases hij : i.id = job_id
              · rw [hs.consistent.eq_of_id hi hj (hij.trans hid.symm), hdead] at hrunning
                cases hrunning
              · have hnot := Db.wouldDuplicate_eq_false.mp hfree j hj hid i hi hij
                  (hidoc.trans (heid.trans hdoc)) (hikind.trans hmoved.1.symm)
                rw [JobRow.active_iff.mpr (.inr hrunning)] at hnot
                cases hnot
          · rw [if_neg heid] at hstatus ⊢
            exact .inl ⟨e, he, rfl, hstatus⟩
        · exact .inl ⟨d', hd', rfl, hstatus⟩

theorem waiting_moved (h : SystemStep ubl config s a s') (hs : s.Sound ubl config)
    (hC : Fenced s a) (hI : LeaseInv s) (hW : Waiting s) :
    ∀ t ∈ s'.tasks, t.holding = true → t.claim.Holds (leaseOf s'.db.jobs) →
      t.job.kind = .transmit → MovedOn t.job t.history →
        ∀ d ∈ s'.db.documents, d.id = t.job.document_id → d.status ≠ .pending := by
  intro t' ht' hholding hholds hkind hmoved d' hd' hid hstatus
  -- a task of the state before, with what it had found there
  have hold : ∀ t ∈ s.tasks, t.job = t'.job → t.claim = t'.claim → t.holding = true →
      (MovedOn t.job t.history ∨
        ∀ d ∈ s.db.documents, d.id = t.job.document_id → d.status ≠ .pending) → False := by
    intro t ht hjob hclaim hth hm
    have hheld := h.holds_of_holds hs hC hI ht hth (hclaim ▸ hholds)
    obtain ⟨j, hj, -, hrunning, hjkind, hjdoc⟩ := active_of_holds hs ht hheld (hjob ▸ hkind)
    rcases pending_cases h hs hd' hstatus with ⟨d, hd, hdid, hpending⟩ | ⟨-, hnone⟩
    · have hdoc : d.id = t.job.document_id := by rw [hdid, hid, hjob]
      rcases hm with hm | hm
      · exact hW.moved t ht hth hheld (hjob ▸ hkind) hm d hd hdoc hpending
      · exact hm d hd hdoc hpending
    · exact hnone j hj (by rw [hjdoc, hid, hjob]) hjkind hrunning
  have hstep := h
  cases h with
  | claimed =>
      rcases List.mem_append.mp ht' with ht' | ht'
      · exact hold t' ht' rfl rfl hholding (.inl hmoved)
      · obtain ⟨job, -, rfl⟩ := List.mem_map.mp ht'
        exact absurd hmoved (not_movedOn_nil job)
  | @worked i w t c r db k ht hrest _ h =>
      have htmem := List.mem_of_getElem? ht
      rcases List.mem_or_eq_of_mem_set ht' with ht' | rfl
      · exact hold t' ht' rfl rfl hholding (.inl hmoved)
      · have hth := holding_of_reply (by rw [hrest]; rfl) hholding
        rcases movedOn_reply hs htmem hrest h hmoved with hm | ⟨-, hne⟩
        · exact hold t htmem rfl rfl hth (.inl hm)
        · have hentry : t.job.kind.entry = .pending := by
            rw [show t.job.kind = .transmit from hkind]
            rfl
          exact hold t htmem rfl rfl hth (.inr (hentry ▸ hne))
  | crashed => exact hold t' (List.mem_of_mem_eraseIdx ht') rfl rfl hholding (.inl hmoved)
  | _ => exact hold t' ht' rfl rfl hholding (.inl hmoved)

/-- The active transmit job of a pending document stays active. -/
theorem transmit_stays_active (h : SystemStep ubl config s a s') (hs : s.Sound ubl config)
    (hC : Guarded s a) (hI : LeaseInv s) (hW : Waiting s) {d d' : Document}
    (hd : d ∈ s.db.documents) (hstatus : d.status = .pending) (hd' : d' ∈ s'.db.documents)
    (hid : d'.id = d.id) (hstatus' : d'.status = .pending) {j : JobRow} (hj : j ∈ s.db.jobs)
    (hdoc : j.document_id = d.id) (hkind : j.kind = .transmit) (hactive : j.active = true) :
    ∃ j' ∈ s'.db.jobs, j.Same j' ∧ j'.active = true := by
  have hmap : ∀ {f : JobRow → JobRow} {p : JobRow → Prop} [DecidablePred p],
      (∀ j : JobRow, j.Same (f j)) → (p j → (f j).active = true) →
      ∃ j' ∈ s.db.jobs.map (fun j => if p j then f j else j), j.Same j' ∧ j'.active = true := by
    intro f p _ hf hstays
    refine ⟨_, List.mem_map_of_mem hj, same_ite hf p j, ?_⟩
    split
    · exact hstays ‹_›
    · exact hactive
  cases h with
  | idle _ hjobs =>
      dsimp only
      rw [hjobs]
      exact ⟨j, hj, .refl j, hactive⟩
  | issued => exact ⟨j, List.mem_append_left _ hj, .refl j, hactive⟩
  | expired =>
      refine hmap JobRow.same_expired fun hexpired => ?_
      exact absurd hstatus (hC.2 j hj hkind hexpired.1 hexpired.2 d hd hdoc.symm)
  | claimed => exact hmap (JobRow.same_claimed _ _ s.now) fun _ => by simp
  | @worked i w t c r db k ht hrest _ h =>
      have htmem := List.mem_of_getElem? ht
      have hP := hs.call htmem hrest
      obtain ⟨i, hi, hof⟩ := (hs.task t htmem).row
      have hown : j.id = t.job.id → t.job.kind = .transmit ∧ d.id = t.job.document_id := by
        intro hjid
        have hij := hs.consistent.eq_of_id hj hi (hjid.trans hof.id.symm)
        subst hij
        exact ⟨hof.kind.symm.trans hkind, hdoc.symm.trans hof.document_id⟩
      obtain ⟨j', hj', hsame, hfate⟩ := h.effect.fate j hj
      refine ⟨j', hj', hsame, ?_⟩
      cases hfate with
      | «open» hstays => exact hstays hactive
      | completed hc =>
          -- the worker holds the job and found the document moved on
          exfalso
          subst hc
          obtain ⟨hjid, hunsettled, hmoved⟩ := hP
          have hholding : t.holding = true := holding_iff.mpr ⟨by rw [hrest]; rfl, hunsettled⟩
          have hholds := Lease.Inv.holds_of_not_superseded hI (mem_claimsOf htmem hholding)
            (hC.1 t ht _ (Task.next?_eq hrest) rfl)
          exact hW.moved t htmem hholding hholds (hown hjid).1 hmoved d hd (hown hjid).2 hstatus
      | buried hc =>
          -- a transmission finds its document
          exfalso
          subst hc
          obtain ⟨hjid, -, hnone⟩ := hP
          obtain ⟨e, he, -⟩ := (hs.task t htmem).found _ (hnone (hown hjid).1)
          cases he
      | @closed tr d₀ o hc h' ho hoid =>
          exfalso
          subst hc
          obtain ⟨-, o', ho', hjid⟩ := ProcessCall.settling (c := .applyTransition tr) hP rfl
          rw [ho] at ho'
          cases ho'
          have htarget := h'.status d' hd' (hid.trans ((hown (hoid.symm.trans hjid)).2.trans
            (transition_document hs htmem hrest).symm))
          obtain ⟨e, -, htr⟩ := hP
          exact transition_not_pending htr (htarget.symm.trans hstatus')
  | crashed => exact ⟨j, hj, .refl j, hactive⟩
  | requeued h =>
      dsimp only
      rw [(Db.requeueContingency_ok h).2.1]
      exact ⟨j, List.mem_append_left _ hj, .refl j, hactive⟩
  | revived h hne =>
      obtain h | ⟨i, e, -, -, -, -, -, -, -, -, hjobs, -⟩ := Db.retryDeadJob_ok h
      · exact absurd h hne
      · dsimp only
        rw [hjobs]
        exact hmap (JobRow.same_revived s.now) fun _ => by simp

theorem waiting_of_reachableBy (hs : (system ubl config).ReachableBy Guarded s) : Waiting s := by
  refine hs.invariant ?_ ?_
  · rintro s ⟨tenants, now, rfl⟩
    refine ⟨?_, ?_⟩
    · intro d hd
      cases hd
    · intro t ht
      cases ht
  · intro s a s' hr hW hC h
    have hstep := systemStep_inv h
    have hsound := sound_of_reachableBy hr
    have hI := leaseInv_of_reachableBy (fun _ _ h => h.1) hr
    refine ⟨?_, waiting_moved hstep hsound hC.1 hI hW⟩
    intro d' hd' hstatus'
    rcases pending_cases hstep hsound hd' hstatus' with ⟨d, hd, hid, hstatus⟩ | ⟨hjob, -⟩
    · obtain ⟨j, hj, hdoc, hkind, hactive⟩ := hW.pending d hd hstatus
      obtain ⟨j', hj', hsame, hactive'⟩ := transmit_stays_active hstep hsound hC hI hW hd hstatus hd'
        hid.symm hstatus' hj hdoc hkind hactive
      exact ⟨j', hj', hsame.document_id.symm.trans (hdoc.trans hid),
        hsame.kind.symm.trans hkind, hactive'⟩
    · exact hjob

end MovedOn

/-- In a run where no settling call is made under a superseded claim and `claim` buries no
    transmit job of a pending document, no document is left behind. -/
theorem no_document_stranded (ubl : UblEngine) (config : ProcessorConfig) {s : System}
    (hs : (system ubl config).ReachableBy Guarded s) : NotStranded s where
  pending := (waiting_of_reachableBy hs).pending
  contingency := by
    intro d hd hstatus hnone limit skipped hskipped hcount
    refine mem_take_orderBy ?_ (Nat.le_trans ?_ hcount)
    · rw [List.mem_filter, decide_eq_true_eq]
      exact ⟨hd, hstatus, by simpa using hnone, hskipped⟩
    · rw [List.countP_filter]
      exact List.countP_mono_left fun e _ he => (by simpa using he : _ ∧ _).1
  sent := (tracked_of_reachableBy hs).sent

/-! ### Two runs -/

/-- The worker dies, and another one claims the job once its lease has expired. -/
def crashes : Nat → List SystemAction
  | 0 => []
  | n + 1 => [.crash 0, .tick 1000, .claim "worker-2" 1 600 []] ++ crashes n

/-- The workers die in all five attempts. -/
def fiveCrashes : List SystemAction :=
  claimedInvoice ++ crashes 4 ++ [.crash 0, .tick 1000, .buryExpired]

set_option maxRecDepth 10000 in
theorem fiveCrashes_runs :
    ((system sampleUbl sampleConfig).run sampleSystem fiveCrashes).isSome = true := by decide

def buriedSystem : System :=
  ((system sampleUbl sampleConfig).run sampleSystem fiveCrashes).get fiveCrashes_runs

set_option maxRecDepth 10000 in
/-- The invoice stays pending and has no job but a dead one. -/
theorem buried_stranded :
    ¬ ∀ s, (system sampleUbl sampleConfig).Reachable s → NotStranded s := by
  intro h
  have hpending := (h buriedSystem
    (Machine.Reachable.get sampleSystem_start fiveCrashes_runs)).pending
  have hnone : ∃ d ∈ buriedSystem.db.documents, d.status = .pending ∧
      ∀ j ∈ buriedSystem.db.jobs, j.active = false := by decide
  obtain ⟨d, hd, hstatus, hnone⟩ := hnone
  obtain ⟨j, hj, -, -, hactive⟩ := hpending d hd hstatus
  rw [hnone j hj] at hactive
  cases hactive

set_option maxRecDepth 10000 in
theorem fourCrashes_runs : ((system sampleUbl sampleConfig).run sampleSystem
    (claimedInvoice ++ crashes 4)).isSome = true := by decide

set_option maxRecDepth 10000 in
/-- After four crashes the fifth attempt is in course. -/
theorem no_document_stranded_crashes :
    NotStranded (((system sampleUbl sampleConfig).run sampleSystem
      (claimedInvoice ++ crashes 4)).get fourCrashes_runs) :=
  no_document_stranded sampleUbl sampleConfig
    (Machine.ReachableBy.get sampleSystem_start (by decide) fourCrashes_runs)

end DianService
