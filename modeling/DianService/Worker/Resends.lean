import DianService.Worker.Deliveries

/-
  Worker: a document that was sent is not sent again without asking. `transmit` asks
  `get_status` before it sends only where `job.attempts > 1`, so the question whether a document
  was sent before is answered by a counter of the job. The counter says so as long as nothing
  starts it again for a document that was sent: `requeue_contingency` (a new job), `retry_dead_job`
  (attempts = 0), or a worker that goes on under a claim it lost.
-/

namespace DianService

open Lib Lib.Prog

/-- `send_bill_sync` has been called for the document. -/
def SentBefore (s : System) (id : Uuid) : Prop := ∃ x ∈ s.log, x.1 = id ∧ x.2.call.isSend = true

instance (s : System) (id : Uuid) : Decidable (SentBefore s id) :=
  inferInstanceAs (Decidable (∃ x ∈ s.log, _))

/-- Nothing starts the count of attempts again for a document that was sent. -/
def KeepsCount (s : System) : SystemAction → Prop
  | .work i _ => ∀ t ∈ s.tasks[i]?, ∀ c ∈ t.next?, (c.settling || c.isSend) = true →
      ¬ t.claim.Superseded s.now (leaseOf s.db.jobs)
  | .requeueContingency limit _ skipped =>
      ∀ d ∈ s.db.contingencyCandidates limit skipped, ¬ SentBefore s d.id
  | .retryDeadJob job_id _ => ∀ j ∈ s.db.jobs, j.id = job_id → j.kind = .transmit →
      j.status = .dead → ¬ SentBefore s j.document_id
  | _ => True

instance (s : System) : ∀ a, Decidable (KeepsCount s a)
  | .work i _ => inferInstanceAs (Decidable (∀ t ∈ s.tasks[i]?, _))
  | .requeueContingency limit _ skipped =>
      inferInstanceAs (Decidable (∀ d ∈ s.db.contingencyCandidates limit skipped, _))
  | .retryDeadJob .. => inferInstanceAs (Decidable (∀ j ∈ s.db.jobs, _))
  | .tick _ | .createWebhook _ | .registerRange .. | .issueOutbound .. | .buryExpired |
    .claim .. | .crash _ | .claimDeliveries .. | .deliver .. | .crashDelivery _ |
    .retryDeadDelivery .. => isTrue trivial

theorem KeepsCount.fenced {s : System} {a : SystemAction} (h : KeepsCount s a) : Fenced s a := by
  cases a with
  | work i w => exact fun t ht c hc hsettling => h t ht c hc (by simp [hsettling])
  | _ => trivial

/-- A send that follows an earlier one of the document comes after a `get_status` with its CUFE
    that was not answered with an accepted code. -/
def AsksFirst (s : System) : SystemAction → Prop
  | .work i _ => ∀ t ∈ s.tasks[i]?, ∀ c ∈ t.next?, c.isSend = true →
      SentBefore s t.job.document_id → ∃ d, Found t.job t.history d ∧ AskedStatus d t.history
  | _ => True

/-- The count of attempts tells of the sends. -/
structure CountTells (s : System) : Prop where
  rows : ∀ j ∈ s.db.jobs, j.kind = .transmit → j.active = true → SentBefore s j.document_id →
    1 ≤ j.attempts
  tasks : ∀ t ∈ s.tasks, t.holding = true → t.claim.Holds (leaseOf s.db.jobs) →
    t.job.kind = .transmit → Unsent t.history → SentBefore s t.job.document_id → 2 ≤ t.job.attempts

/-! ## One step -/

section Step

variable {ubl : UblEngine} {config : ProcessorConfig} {s s' : System} {a : SystemAction}

/-- Of the tasks that hold a job, there is one at most. -/
theorem holder_unique (hI : LeaseInv s) {t u : Task} {l₁ l₂ : List Task}
    (hsplit : s.tasks = l₁ ++ t :: l₂) (ht : t.holding = true)
    (hth : t.claim.Holds (leaseOf s.db.jobs)) (hu : u ∈ l₁ ++ l₂) (huh : u.holding = true)
    (huH : u.claim.Holds (leaseOf s.db.jobs)) : u.job.id ≠ t.job.id := by
  intro hid
  have hexcl := Lease.Inv.exclusive hI
  rw [claimsOf, List.pairwise_map, List.pairwise_filter, hsplit, List.pairwise_append,
    List.pairwise_cons] at hexcl
  rcases List.mem_append.mp hu with hu | hu
  · exact hexcl.2.2 u hu t List.mem_cons_self huh ht hid ⟨huH, hth⟩
  · exact hexcl.2.1.1 u hu ht huh hid.symm ⟨hth, huH⟩

/-- What a call makes of an active transmit job: nothing, or it is the job of the task, and the
    count goes down only where the task has not sent. -/
theorem Effect.transmit_attempts {db db' : Db} {c : Call} {job : Job} {t : History}
    (h : Effect db c db') (hP : ProcessCall ubl job t c) :
    ∀ j' ∈ db'.jobs, j'.kind = .transmit → j'.active = true → ∃ j ∈ db.jobs, j.Same j' ∧
      (j' = j ∨ j.id = job.id ∧ (j'.attempts = j.attempts ∨
        Unsent t ∧ j'.attempts = max (j.attempts - 1) 0)) := by
  intro j' hj' hkind hactive
  have hmap : ∀ {id : Uuid} {f : JobRow → JobRow}, id = job.id → (∀ j : JobRow, j.Same (f j)) →
      j' ∈ (db.jobs.map fun j => if j.id = id then f j else j) →
      (∀ j, (f j).active = true → (f j).attempts = j.attempts ∨
        Unsent t ∧ (f j).attempts = max (j.attempts - 1) 0) →
      ∃ j ∈ db.jobs, j.Same j' ∧ (j' = j ∨ j.id = job.id ∧ (j'.attempts = j.attempts ∨
        Unsent t ∧ j'.attempts = max (j.attempts - 1) 0)) := by
    rintro id f rfl hf hmem hcount
    obtain ⟨j, hj, rfl⟩ := List.mem_map.mp hmem
    refine ⟨j, hj, same_ite hf (fun j => j.id = job.id) j, ?_⟩
    by_cases hid : j.id = job.id
    · rw [if_pos hid] at hactive ⊢
      exact .inr ⟨hid, hcount j hactive⟩
    · rw [if_neg hid]
      exact .inl rfl
  cases h with
  | same | stored | recorded => exact ⟨j', hj', .refl j', .inl rfl⟩
  | @applied tr d _ h =>
      obtain ⟨e, hW, htr⟩ := hP
      rw [h.jobs] at hj'
      rcases List.mem_append.mp hj' with hj' | hj'
      · cases hjob : tr.job with
        | none =>
            rw [hjob] at hj'
            exact ⟨j', hj', .refl j', .inl rfl⟩
        | some o =>
            obtain ⟨f, hf, hjobs⟩ := closeJob_jobs db o
            obtain ⟨-, o', ho', hid⟩ :=
              (show ProcessCall ubl job t (.applyTransition tr) from ⟨e, hW, htr⟩).settling rfl
            rw [hjob] at ho' hj'
            cases ho'
            rw [hjobs] at hj'
            refine hmap hid (fun j => (hf j).1) hj' fun j ha => ?_
            rw [(hf j).2.1] at ha
            cases ha
      · -- the job that follows is a poll job
        obtain ⟨new, hnew, rfl⟩ := List.mem_map.mp hj'
        obtain ⟨-, htr⟩ := htr
        cases htarget : tr.target <;> simp only [htarget] at htr
        case sentDian =>
          obtain ⟨-, -, event, zip_key, poll_id, max_attempts, run_at, -, -, -, -, hfollow⟩ := htr
          rw [hfollow, Option.toList_some, List.mem_singleton] at hnew
          subst hnew
          cases hkind
        all_goals simp [htr] at hnew
  | completed => exact hmap hP.1 JobRow.same_completed hj' fun j ha => by simp at ha
  | buried => exact hmap hP.1 (JobRow.same_buried _) hj' fun j ha => by simp at ha
  | retried => exact hmap hP.1 (JobRow.same_retried _ _) hj' fun j _ => .inl rfl
  | released => exact hmap hP.1 (JobRow.same_released _) hj' fun j _ => .inr ⟨hP.2.2, rfl⟩

/-- A send by a holder: the only active transmit job of the document is its own. -/
theorem countTells_sent {t : Task} {c : Call} {r : Reply c} {db : Db} {l₁ l₂ : List Task}
    {rest : Prog Call Reply (Except DomainError Unit)}
    {k : Reply c → Prog Call Reply (Except DomainError Unit)} (hs : s.Sound ubl config)
    (hsplit : s.tasks = l₁ ++ t :: l₂) (hrest : t.rest = .call c k) (hsend : c.isSend = true)
    (hheld : ¬ t.claim.Superseded s.now (leaseOf s.db.jobs)) (h : Answered s.db c r db)
    (hI : LeaseInv s) (hJ : CountTells s) (htasks : s'.tasks = l₁ ++ t.reply c r rest :: l₂)
    (hdb : s'.db = db) (hlog : s'.log = s.log ++ [(t.job.document_id, ⟨c, r⟩)]) :
    CountTells s' := by
  have ht : t ∈ s.tasks := by simp [hsplit]
  have hsettling : c.settling = false := by cases c <;> first | rfl | cases hsend
  have hjobs : s'.db.jobs = s.db.jobs := by rw [hdb]; exact h.effect.jobs_eq hsettling
  have hP := hs.call ht hrest
  obtain ⟨hkind, hunsettled⟩ : t.job.kind = .transmit ∧ Unsettled t.history := by
    cases c with
    | sendBillSync tenant_id zip is_hab =>
        obtain ⟨hkind, -, d, hW, -, -⟩ := hP
        exact ⟨hkind, hW.unsettled⟩
    | _ => cases hsend
  have hholding : t.holding = true := holding_iff.mpr ⟨by rw [hrest]; rfl, hunsettled⟩
  have hholds := Lease.Inv.holds_of_not_superseded hI (mem_claimsOf ht hholding) hheld
  obtain ⟨j, hj, hof⟩ := (hs.task t ht).row
  obtain ⟨hrunning, hattempts⟩ := running_of_holds hs hholds hj hof.id
  have hbefore : ∀ id, SentBefore s' id → SentBefore s id ∨ id = t.job.document_id := by
    rintro id ⟨x, hx, hid, hxsend⟩
    rw [hlog] at hx
    rcases List.mem_append.mp hx with hx | hx
    · exact .inl ⟨x, hx, hid, hxsend⟩
    · rw [List.mem_singleton.mp hx] at hid
      exact .inr hid.symm
  have hown : ∀ i ∈ s.db.jobs, i.kind = .transmit → i.active = true →
      i.document_id = t.job.document_id → i = j := fun i hi hik hia hid =>
    hs.consistent.active i hi j hj hia (JobRow.active_iff.mpr (.inr hrunning))
      (hid.trans hof.document_id.symm) (hik.trans (hkind.symm.trans hof.kind.symm))
  refine ⟨?_, ?_⟩
  · intro i hi hik hia hsent
    rw [hjobs] at hi
    rcases hbefore _ hsent with hsent | hid
    · exact hJ.rows i hi hik hia hsent
    · have hfirst := (hs.task t ht).attempts
      rw [hown i hi hik hia hid, hattempts]
      exact hfirst
  · intro u hu huh huH huk hunsent hsent
    rw [hjobs] at huH
    rw [htasks] at hu
    have hmem : u ∈ l₁ ++ l₂ := by
      rcases List.mem_append.mp hu with hu | hu
      · exact List.mem_append_left _ hu
      · rcases List.mem_cons.mp hu with rfl | hu
        · have hnot : c.isSubmission = false :=
            hunsent _ (List.mem_append_right _ (List.mem_singleton_self _))
          rw [Call.isSubmission_of_isSend hsend] at hnot
          cases hnot
        · exact List.mem_append_right _ hu
    have husys : u ∈ s.tasks := by
      rw [hsplit]
      rcases List.mem_append.mp hmem with hu | hu
      · exact List.mem_append_left _ hu
      · exact List.mem_append_right _ (List.mem_cons_of_mem _ hu)
    rcases hbefore _ hsent with hsent | hid
    · exact hJ.tasks u husys huh huH huk hunsent hsent
    · -- another holder for the document would hold the same job
      exfalso
      obtain ⟨i, hi, hiof⟩ := (hs.task u husys).row
      have hirunning := (running_of_holds hs huH hi hiof.id).1
      have hij := hown i hi (hiof.kind.trans huk) (JobRow.active_iff.mpr (.inr hirunning))
        (hiof.document_id.trans hid)
      refine holder_unique hI hsplit hholding hholds hmem huh huH ?_
      rw [← hiof.id, ← hof.id, hij]

/-- A call that sends nothing. -/
theorem countTells_called {t : Task} {c : Call} {r : Reply c} {db : Db} {l₁ l₂ : List Task}
    {rest : Prog Call Reply (Except DomainError Unit)}
    {k : Reply c → Prog Call Reply (Except DomainError Unit)} (hs : s.Sound ubl config)
    (hsplit : s.tasks = l₁ ++ t :: l₂) (hrest : t.rest = .call c k) (hsend : c.isSend = false)
    (hfenced : c.settling = true → ¬ t.claim.Superseded s.now (leaseOf s.db.jobs))
    (h : Answered s.db c r db) (hI : LeaseInv s) (hJ : CountTells s)
    (htasks : s'.tasks = l₁ ++ t.reply c r rest :: l₂) (hdb : s'.db = db)
    (hlog : s'.log = s.log ++ [(t.job.document_id, ⟨c, r⟩)]) : CountTells s' := by
  have ht : t ∈ s.tasks := by simp [hsplit]
  have hbefore : ∀ id, SentBefore s' id → SentBefore s id := by
    rintro id ⟨x, hx, hid, hxsend⟩
    rw [hlog] at hx
    rcases List.mem_append.mp hx with hx | hx
    · exact ⟨x, hx, hid, hxsend⟩
    · rw [List.mem_singleton.mp hx, hsend] at hxsend
      cases hxsend
  have hcases := worked_jobs hs ht hrest hfenced h hI
  have hcall : t.rest.isCall = true := by rw [hrest]; rfl
  -- who holds a job after the call held it before
  have hheld : ∀ cl : Claim Uuid Int, cl.Holds (leaseOf s'.db.jobs) →
      cl.Holds (leaseOf s.db.jobs) := by
    intro cl hcl
    rw [hdb] at hcl
    exact holds_of_worked hs ht hrest hfenced h hI hcl
  refine ⟨?_, ?_⟩
  · intro j' hj' hkind hactive hsent
    rw [hdb] at hj'
    obtain ⟨j, hj, hsame, rfl | ⟨hid, hcount⟩⟩ :=
      h.effect.transmit_attempts (hs.call ht hrest) j' hj' hkind hactive
    · exact hJ.rows j' hj hkind hactive (hbefore _ hsent)
    · have hsent' := hbefore _ hsent
      rcases hcases with hquiet | ⟨-, hholding, hholds, -⟩
      · -- the row was there as it is
        rw [hquiet] at hj'
        rw [hs.consistent.eq_of_id hj hj' hsame.id] at *
        exact hJ.rows j' hj' hkind hactive hsent'
      · obtain ⟨hrunning, hattempts⟩ := running_of_holds hs hholds hj hid
        have hkind' : j.kind = .transmit := hsame.kind.trans hkind
        have hdoc : SentBefore s j.document_id := hsame.document_id ▸ hsent'
        rcases hcount with heq | ⟨hunsent, heq⟩
        · rw [heq]
          exact hJ.rows j hj hkind' (JobRow.active_iff.mpr (.inr hrunning)) hdoc
        · -- the task has not sent, so this is at least its second attempt
          obtain ⟨i, hi, hof⟩ := (hs.task t ht).row
          have hij := hs.consistent.eq_of_id hi hj (hof.id.trans hid.symm)
          subst hij
          have htwo := hJ.tasks t ht hholding hholds (hof.kind.symm.trans hkind') hunsent
            (hof.document_id ▸ hdoc)
          have hstamp : i.attempts = t.job.attempts := hattempts
          rw [heq]
          omega
  · intro u hu huh huH huk hunsent hsent
    rw [htasks] at hu
    have hold : ∀ v ∈ s.tasks, v.holding = true → v.claim = u.claim → v.job = u.job →
        Unsent v.history → 2 ≤ u.job.attempts := by
      intro v hv hvh hclaim hjob hvunsent
      have := hJ.tasks v hv hvh (hclaim ▸ hheld _ huH) (hjob ▸ huk) hvunsent
        (hjob ▸ hbefore _ hsent)
      rwa [hjob] at this
    rcases List.mem_append.mp hu with hu | hu
    · exact hold u (by simp [hsplit, hu]) huh rfl rfl hunsent
    · rcases List.mem_cons.mp hu with rfl | hu
      · exact hold t ht (holding_of_reply hcall huh) rfl rfl
          fun e he => hunsent e (List.mem_append_left _ he)
      · exact hold u (by simp [hsplit, hu]) huh rfl rfl hunsent

theorem countTells_claimed {worker_id : String} {limit lease : Nat} {skipped : List Uuid}
    (hs : s.Sound ubl config) (hJ : CountTells s) :
    CountTells { s with
      db := (s.db.claim worker_id limit lease s.now skipped).1
      tasks := s.tasks ++ (s.db.claim worker_id limit lease s.now skipped).2.map
        (Task.start ubl config (s.now + lease)) } := by
  have hstep : SystemStep ubl config s (.claim worker_id limit lease skipped) _ := .claimed
  have hs' := hstep.sound hs
  have hclaimed : ∀ j ∈ s.db.jobs, j.ready s.now = true → j.kind = .transmit →
      SentBefore s j.document_id → 2 ≤ j.attempts + 1 := by
    intro j hj hready hkind hsent
    have := hJ.rows j hj hkind (JobRow.active_of_ready hready) hsent
    omega
  have hpicked : ∀ {j : JobRow}, j ∈ s.db.jobs →
      j.id ∈ (s.db.readyJobs limit s.now skipped).map JobRow.id → j.ready s.now = true := by
    intro j hj hmem
    obtain ⟨k, hk, hid⟩ := List.mem_map.mp hmem
    obtain ⟨hkmem, hready⟩ := Db.mem_of_mem_readyJobs hk
    rwa [← hs.consistent.eq_of_id hkmem hj hid]
  refine ⟨?_, ?_⟩
  · intro j' hj' hkind hactive hsent
    obtain ⟨j, hj, rfl⟩ := List.mem_map.mp hj'
    split at hkind
    · rename_i hmem
      rw [if_pos hmem] at hsent ⊢
      have := hclaimed j hj (hpicked hj hmem) hkind hsent
      show 1 ≤ j.attempts + 1
      omega
    · rename_i hmem
      rw [if_neg hmem] at hactive hsent ⊢
      exact hJ.rows j hj hkind hactive hsent
  · intro u hu huh huH huk hunsent hsent
    rcases List.mem_append.mp hu with hold | hnew
    · -- the row of an older claim may have been claimed again
      obtain ⟨j', hj', hof⟩ := (hs'.task u hu).row
      have hcount := (running_of_holds hs' huH hj' hof.id).2
      obtain ⟨j, hj, rfl⟩ := List.mem_map.mp hj'
      by_cases hmem : j.id ∈ (s.db.readyJobs limit s.now skipped).map JobRow.id
      · rw [if_pos hmem] at hof hcount
        rw [← hof.document_id] at hsent
        have hcount : j.attempts + 1 = u.job.attempts := hcount
        have := hclaimed j hj (hpicked hj hmem) (hof.kind.trans huk) hsent
        omega
      · refine hJ.tasks u hold huh ?_ huk hunsent hsent
        rw [if_neg hmem] at hof
        have hlease := leaseOf_eq hs.consistent hj
        rw [hof.id] at hlease
        have hlease' := leaseOf_eq hs'.consistent hj'
        rw [if_neg hmem, hof.id] at hlease'
        exact hlease.trans (hlease'.symm.trans huH)
    · obtain ⟨job, hjob, rfl⟩ := List.mem_map.mp hnew
      obtain ⟨j, hj, hready, rfl, -⟩ := mem_claim hjob
      exact hclaimed j hj hready huk hsent

theorem SystemStep.countTells (h : SystemStep ubl config s a s') (hs : s.Sound ubl config)
    (hC : KeepsCount s a) (hI : LeaseInv s) (hJ : CountTells s) : CountTells s' := by
  have hheld := fun t (ht : t ∈ s.tasks) => h.holds_of_holds hs hC.fenced hI ht
  -- a step that keeps the log and starts no task
  have hquiet : ∀ {db : Db} {now : Time} {tasks : List Task} {deliveries : List DeliveryTask},
      s' = { s with db := db, now := now, tasks := tasks, deliveries := deliveries } →
      tasks.Sublist s.tasks →
      (∀ j' ∈ db.jobs, j'.kind = .transmit → j'.active = true → SentBefore s j'.document_id →
        1 ≤ j'.attempts) → CountTells s' := by
    rintro db now tasks deliveries rfl hsub hrows
    refine ⟨hrows, fun t ht hth htH => ?_⟩
    have ht := hsub.subset ht
    exact hJ.tasks t ht hth (hheld t ht hth htH)
  cases h with
  | idle _ hj =>
      refine hquiet rfl (List.Sublist.refl _) fun j hjmem => ?_
      rw [hj] at hjmem
      exact hJ.rows j hjmem
  | @issued r times tx db' hfree _ =>
      refine hquiet rfl (List.Sublist.refl _) fun j hj hkind hactive hsent => ?_
      rcases List.mem_append.mp hj with hj | hj
      · exact hJ.rows j hj hkind hactive hsent
      · -- the document is new
        exfalso
        obtain ⟨x, hx, hid, -⟩ := hsent
        obtain ⟨d, hd, hdid⟩ := hs.log x hx
        simp only [Db.documentTaken, List.any_eq_false, decide_eq_true_eq, not_or] at hfree
        refine (hfree d hd).1 (hdid.trans (hid.trans ?_))
        rw [List.mem_singleton.mp hj]
        rfl
  | expired =>
      refine hquiet rfl (List.Sublist.refl _) fun j' hj' hkind hactive hsent => ?_
      obtain ⟨j, hj, rfl⟩ := List.mem_map.mp hj'
      split at hactive
      · simp at hactive
      · rename_i hnot
        rw [if_neg hnot] at hkind hsent ⊢
        exact hJ.rows j hj hkind hactive hsent
  | claimed => exact countTells_claimed hs hJ
  | @worked i w t c r db k ht hrest _ h =>
      obtain ⟨l₁, l₂, hsplit, hset, -⟩ := exists_split ht
      have hC := hC t ht c (Task.next?_eq hrest)
      by_cases hsend : c.isSend = true
      · exact countTells_sent hs hsplit hrest hsend (hC (by simp [hsend])) h hI hJ (hset _) rfl rfl
      · exact countTells_called hs hsplit hrest (by simpa using hsend)
          (fun hsettling => hC (by simp [hsettling])) h hI hJ (hset _) rfl rfl
  | crashed => exact hquiet rfl (List.eraseIdx_sublist _ _) hJ.rows
  | @requeued limit fresh skipped db n h =>
      refine hquiet rfl (List.Sublist.refl _) fun j hj hkind hactive hsent => ?_
      rw [(Db.requeueContingency_ok h).2.1] at hj
      rcases List.mem_append.mp hj with hj | hj
      · exact hJ.rows j hj hkind hactive hsent
      · obtain ⟨d, hd, id, rfl⟩ := Db.mem_contingencyJobs hj
        exact absurd hsent (hC d hd)
  | @revived job_id audit db b h hne =>
      obtain h | ⟨k, d, hk, hid, hdead, -, -, -, -, -, hj, -⟩ := Db.retryDeadJob_ok h
      · exact absurd h hne
      · refine hquiet rfl (List.Sublist.refl _) fun j' hj' hkind hactive hsent => ?_
        rw [hj] at hj'
        obtain ⟨j, hjmem, rfl⟩ := List.mem_map.mp hj'
        by_cases hjid : j.id = job_id
        · rw [if_pos hjid] at hkind hsent
          have hjk := hs.consistent.eq_of_id hjmem hk (hjid.trans hid.symm)
          exact absurd hsent (hC j hjmem hjid hkind (hjk ▸ hdead))
        · rw [if_neg hjid] at hkind hactive hsent ⊢
          exact hJ.rows j hjmem hkind hactive hsent

theorem countTells_of_reachableBy (hs : (system ubl config).ReachableBy KeepsCount s) :
    CountTells s := by
  refine hs.invariant ?_ ?_
  · rintro s ⟨tenants, now, rfl⟩
    refine ⟨?_, ?_⟩
    · intro j hj
      cases hj
    · intro t ht
      cases ht
  · intro s a s' hr hJ hc h
    exact (systemStep_inv h).countTells (sound_of_reachableBy hr) hc
      (leaseInv_of_reachableBy (fun _ _ h => h.fenced) hr) hJ

end Step

/-- In a run where nothing starts the count of attempts again for a document that was sent,
    every send that follows an earlier one of its document has asked for the status first. -/
theorem resends_ask_first (ubl : UblEngine) (config : ProcessorConfig) {s s' : System}
    {a : SystemAction} (hs : (system ubl config).ReachableBy KeepsCount s) (hC : KeepsCount s a)
    (h : (system ubl config).step s a = some s') : AsksFirst s a := by
  cases a with
  | work i w =>
      intro t ht c hc hsend hbefore
      have hsound := sound_of_reachableBy hs
      have hmem := List.mem_of_getElem? ht
      obtain ⟨k, hrest⟩ := Task.rest_of_next? hc
      have hP := hsound.call hmem hrest
      have hheld := hC t ht c hc (by simp [hsend])
      cases c with
      | sendBillSync tenant_id zip is_hab =>
          obtain ⟨hkind, hunsent, d, hW, hasked, -⟩ := hP
          have hholding : t.holding = true := holding_iff.mpr ⟨by rw [hrest]; rfl, hW.unsettled⟩
          have hholds := Lease.Inv.holds_of_not_superseded
            (leaseInv_of_reachableBy (fun _ _ h => h.fenced) hs) (mem_claimsOf hmem hholding) hheld
          have htwo := (countTells_of_reachableBy hs).tasks t hmem hholding hholds hkind hunsent
            hbefore
          exact ⟨d, hW.found, hasked (by omega)⟩
      | _ => cases hsend
  | _ => trivial

/-! ### A document that is sent again -/

/-- The DIAN does not answer in time; `id` is the id of the event. -/
def noAnswer (id : Uuid) : (c : Call) → Reply c
  | .newUuid => id
  | .getStatus .. => .error (.soap "timeout")
  | c => sendTimeout c

/-- The next attempt of a job that was put off: the task `i` makes `n` calls. -/
def nextAttempt (i n : Nat) : List SystemAction :=
  [.tick 1000000, .claim "worker-1" 1 600 []] ++ List.replicate n (workAt i (noAnswer (200 + i)))

/-- All attempts of the first job go without an answer, and the invoice goes into contingency. -/
def exhausted : List SystemAction :=
  claimedInvoice ++ List.replicate 13 (workAt 0 (noAnswer 200)) ++ nextAttempt 1 11 ++
    nextAttempt 2 11 ++ nextAttempt 3 11 ++ nextAttempt 4 8

/-- Its second job is about to send it. -/
def requeued : List SystemAction :=
  exhausted ++ .requeueContingency 10 (fun i => 300 + i) [] :: nextAttempt 5 2

/-- The second attempt of the first job is about to send the invoice again. -/
def secondAttempt : List SystemAction :=
  claimedInvoice ++ List.replicate 13 (workAt 0 (noAnswer 200)) ++ nextAttempt 1 3

set_option maxRecDepth 10000 in
theorem secondAttempt_runs :
    ((system sampleUbl sampleConfig).run sampleSystem secondAttempt).isSome = true := by decide

def retryingSystem : System :=
  ((system sampleUbl sampleConfig).run sampleSystem secondAttempt).get secondAttempt_runs

set_option maxRecDepth 10000 in
theorem retryingSystem_steps : ((system sampleUbl sampleConfig).step retryingSystem
    (workAt 1 (noAnswer 201))).isSome = true := by decide

set_option maxRecDepth 10000 in
/-- It has asked for the status. -/
theorem resends_ask_first_retry : AsksFirst retryingSystem (workAt 1 (noAnswer 201)) :=
  resends_ask_first sampleUbl sampleConfig
    (Machine.ReachableBy.get sampleSystem_start (by decide) secondAttempt_runs) (by decide)
    (Option.some_get retryingSystem_steps).symm

def Call.asksStatus : Call → Bool
  | .getStatus .. => true
  | _ => false

set_option maxRecDepth 10000 in
theorem requeued_runs :
    ((system sampleUbl sampleConfig).run sampleSystem requeued).isSome = true := by decide

def requeuedSystem : System :=
  ((system sampleUbl sampleConfig).run sampleSystem requeued).get requeued_runs

set_option maxRecDepth 10000 in
theorem requeuedSystem_steps : ((system sampleUbl sampleConfig).step requeuedSystem
    (workAt 5 (noAnswer 205))).isSome = true := by decide

set_option maxRecDepth 10000 in
/-- The job that contingency makes counts from zero, so its first attempt asks nothing. -/
theorem requeued_sent_unasked : ¬ ∀ s a s', (system sampleUbl sampleConfig).Reachable s →
    (system sampleUbl sampleConfig).step s a = some s' → AsksFirst s a := by
  intro h
  have hasks := h requeuedSystem (workAt 5 (noAnswer 205)) _
    (Machine.Reachable.get sampleSystem_start requeued_runs)
    (Option.some_get requeuedSystem_steps).symm
  have hsends : ∃ t ∈ requeuedSystem.tasks[5]?, ∃ c ∈ t.next?, c.isSend = true ∧
      SentBefore requeuedSystem t.job.document_id ∧
      t.history.all (fun e => !e.call.asksStatus) = true := by decide
  obtain ⟨t, ht, c, hc, hsend, hbefore, hnone⟩ := hsends
  obtain ⟨d, -, cufe, r, -, hasked, -⟩ := hasks t ht c hc hsend hbefore
  have := List.all_eq_true.mp hnone _ hasked
  simp [Call.asksStatus] at this

end DianService
