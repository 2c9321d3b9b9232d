import DianService.Lib.Lease
import DianService.Worker.Verdicts

/-
  Worker: the leases of the jobs. A settling call (`complete`, `retry`, `release`, `bury`,
  `apply_transition`) names a job, not the claim it is made under, so the statements keep a slow
  worker from nothing. `JOB_TIMEOUT < JOB_LEASE` is there for that: a worker drops a job before
  its lease expires. In runs where no settling call is made under a superseded claim, the jobs and
  the tasks that still have to settle them are an instance of `Lease.Inv`.
-/

namespace DianService

open Lib Lib.Prog

/-! ## Jobs and tasks as leases -/

/-- The lease a job is under; the stamp is the number of the attempt. -/
def JobRow.lease? (j : JobRow) : Option (Lease Int) :=
  if j.status = .running then j.locked_until.map fun lease_until => ⟨lease_until, j.attempts⟩
  else none

def leaseOf (jobs : List JobRow) : Uuid → Option (Lease Int) :=
  Lease.ofRows JobRow.id JobRow.lease? jobs

def Task.claim (t : Task) : Claim Uuid Int := ⟨t.job.id, ⟨t.lease_until, t.job.attempts⟩⟩

/-- The task goes on and has not settled its job. -/
def Task.holding (t : Task) : Bool := t.rest.isCall && t.history.all fun e => !settles e

def claimsOf (tasks : List Task) : List (Claim Uuid Int) :=
  (tasks.filter Task.holding).map Task.claim

/-- The calls that change the job they name. -/
def Call.settling : Call → Bool
  | .complete _ | .retry .. | .release .. | .bury .. | .applyTransition _ => true
  | _ => false

/-- The call that a task is about to make. -/
def Task.next? (t : Task) : Option Call :=
  match t.rest with
  | .call c _ => some c
  | .done _ => none

theorem Task.next?_eq {t : Task} {c : Call} {k : Reply c → Prog Call Reply (Except DomainError Unit)}
    (h : t.rest = .call c k) : t.next? = some c := by
  rw [Task.next?, h]

theorem Task.rest_of_next? {t : Task} {c : Call} (h : t.next? = some c) :
    ∃ k, t.rest = .call c k := by
  unfold Task.next? at h
  split at h <;> cases h
  exact ⟨_, ‹_›⟩

/-- No settling call is made under a superseded claim. -/
def Fenced (s : System) : SystemAction → Prop
  | .work i _ => ∀ t ∈ s.tasks[i]?, ∀ c ∈ t.next?, c.settling = true →
      ¬ t.claim.Superseded s.now (leaseOf s.db.jobs)
  | _ => True

instance (s : System) : ∀ a, Decidable (Fenced s a)
  | .work i _ => inferInstanceAs (Decidable (∀ t ∈ s.tasks[i]?, _))
  | .tick _ | .createWebhook _ | .registerRange .. | .issueOutbound .. | .buryExpired |
    .claim .. | .crash _ | .requeueContingency .. | .retryDeadJob .. | .claimDeliveries .. |
    .deliver .. | .crashDelivery _ | .retryDeadDelivery .. => isTrue trivial

def LeaseInv (s : System) : Prop := Lease.Inv s.now (leaseOf s.db.jobs) (claimsOf s.tasks)

theorem holding_iff {t : Task} :
    t.holding = true ↔ t.rest.isCall = true ∧ Unsettled t.history := by
  simp [Task.holding, Unsettled]

/-! ### Leases of rows -/

theorem lease?_eq_some {j : JobRow} {l : Lease Int} :
    j.lease? = some l ↔ j.status = .running ∧ j.locked_until = some l.lease_until ∧
      j.attempts = l.stamp := by
  unfold JobRow.lease?
  obtain ⟨lease_until, stamp⟩ := l
  by_cases h : j.status = .running <;> simp [h]

theorem lease?_eq_none_of_status {j : JobRow} (h : j.status ≠ .running) : j.lease? = none := by
  simp [JobRow.lease?, h]

/-- New jobs are queued, so under no lease. -/
theorem leaseOf_append {jobs rows : List JobRow} (h : ∀ j ∈ rows, j.status = .queued) :
    leaseOf (jobs ++ rows) = leaseOf jobs :=
  Lease.ofRows_append fun j hj => lease?_eq_none_of_status (by simp [h j hj])

theorem leaseOf_eq {documents : List Document} {jobs : List JobRow}
    (h : Consistent documents jobs) {j : JobRow} (hj : j ∈ jobs) : leaseOf jobs j.id = j.lease? :=
  Lease.ofRows_eq h.job_ids hj

theorem leaseOf_map_ne {jobs : List JobRow} {f : JobRow → JobRow} {id : Uuid}
    (hf : ∀ j : JobRow, j.Same (f j)) (hne : leaseOf (jobs.map f) id ≠ leaseOf jobs id) :
    ∃ j ∈ jobs, j.id = id ∧ leaseOf jobs id = j.lease? ∧ (f j).lease? ≠ j.lease? :=
  Lease.ofRows_map_ne (fun j => (hf j).id.symm) hne

/-! ### Settling calls -/

def JobOutcome.jobId : JobOutcome → Uuid
  | .complete id => id
  | .bury id _ => id

/-- Of the jobs there are, the call changes the job `id` only. -/
def Call.Names (id : Uuid) : Call → Prop
  | .complete i | .retry i .. | .release i _ | .bury i _ => i = id
  | .applyTransition tr => ∃ o, tr.job = some o ∧ o.jobId = id
  | _ => True

/-- A processing settles its own job, and at most once. -/
theorem ProcessCall.settling {ubl : UblEngine} {job : Job} {t : History} {c : Call}
    (h : ProcessCall ubl job t c)
    (hc : c.settling = true) : Unsettled t ∧ c.Names job.id := by
  cases c with
  | complete id => exact ⟨h.2.1, h.1⟩
  | retry id run_at error => exact ⟨h.2.1, h.1⟩
  | release id run_at => exact ⟨h.2.1, h.1⟩
  | bury id error => exact ⟨h.2.1, h.1⟩
  | applyTransition tr =>
      obtain ⟨d, hW, -, htr⟩ := h
      refine ⟨hW.unsettled, ?_⟩
      cases htarget : tr.target <;> simp only [htarget] at htr
      case dianAccepted | dianRejected => exact ⟨_, htr.1, rfl⟩
      case sentDian | processingFailed => exact ⟨_, htr.2.1, rfl⟩
      case contingencyPending =>
        obtain ⟨m, hm⟩ := htr.2.1
        exact ⟨_, hm, rfl⟩
  | _ => cases hc

section Effect

variable {db db' : Db} {c : Call} {id : Uuid}

theorem Effect.jobs_eq (h : Effect db c db') (hc : c.settling = false) : db'.jobs = db.jobs := by
  cases h <;> first | rfl | cases hc

theorem closeJob_jobs (db : Db) (o : JobOutcome) :
    ∃ f : JobRow → JobRow,
      (∀ j : JobRow, j.Same (f j) ∧ (f j).active = false ∧ (f j).attempts = j.attempts) ∧
      (db.closeJob (some o)).jobs = db.jobs.map fun j => if j.id = o.jobId then f j else j := by
  cases o with
  | complete id => exact ⟨_, fun j => ⟨j.same_completed, j.active_completed, rfl⟩, rfl⟩
  | bury id error => exact ⟨_, fun j => ⟨j.same_buried error, j.active_buried error, rfl⟩, rfl⟩

/-- A settling call updates the job it names, which runs no longer, and may add a queued one. -/
theorem Effect.jobs_own (h : Effect db c db') (hc : c.settling = true) (hn : c.Names id) :
    db'.jobs = db.jobs ∨ ∃ (f : JobRow → JobRow) (rows : List JobRow), (∀ j : JobRow, j.Same (f j)) ∧
      (∀ j, (f j).status ≠ .running) ∧ (∀ j ∈ rows, j.status = .queued) ∧
      db'.jobs = (db.jobs.map fun j => if j.id = id then f j else j) ++ rows := by
  cases h with
  | same => exact .inl rfl
  | @applied tr d _ h =>
      obtain ⟨o, ho, rfl⟩ := hn
      obtain ⟨f, hf, hjobs⟩ := closeJob_jobs db o
      refine .inr ⟨f, tr.follow_up.toList.map NewJob.row, fun j => (hf j).1, ?_, ?_, ?_⟩
      · intro j hrunning
        have hactive := JobRow.active_iff.mpr (.inr hrunning)
        rw [(hf j).2.1] at hactive
        cases hactive
      · intro j hj
        obtain ⟨new, -, rfl⟩ := List.mem_map.mp hj
        rfl
      · rw [h.jobs, ho, hjobs]
  | completed =>
      cases hn
      exact .inr ⟨_, [], JobRow.same_completed, by simp [JobRow.completed], by simp,
        by simp [Db.complete]⟩
  | @retried id run_at error =>
      cases hn
      exact .inr ⟨_, [], JobRow.same_retried run_at error, by simp [JobRow.retried], by simp, by simp⟩
  | @released id run_at =>
      cases hn
      exact .inr ⟨_, [], JobRow.same_released run_at, by simp [JobRow.released], by simp, by simp⟩
  | @buried id error =>
      cases hn
      exact .inr ⟨_, [], JobRow.same_buried error, by simp [JobRow.buried], by simp,
        by simp [Db.bury]⟩
  | _ => cases hc

end Effect

/-! ### Claims of tasks -/

section Claims

variable {t : Task} {c : Call} {r : Reply c} {rest : Prog Call Reply (Except DomainError Unit)}
  {l₁ l₂ : List Task}

theorem holding_of_reply (hrest : t.rest.isCall = true) (h : (t.reply c r rest).holding = true) :
    t.holding = true := by
  rw [holding_iff] at h ⊢
  exact ⟨hrest, fun e he => h.2 e (List.mem_append_left _ he)⟩

theorem not_holding_of_settles (h : settles ⟨c, r⟩ = true) : (t.reply c r rest).holding = false := by
  rw [Bool.eq_false_iff]
  intro hh
  have := (holding_iff.mp hh).2 _ (List.mem_append_right _ (List.mem_singleton_self _))
  rw [h] at this
  cases this

theorem claimsOf_cons (t : Task) (l : List Task) :
    claimsOf (t :: l) = (if t.holding then [t.claim] else []) ++ claimsOf l := by
  unfold claimsOf
  rw [List.filter_cons]
  split <;> rfl

theorem claimsOf_append (l₁ l₂ : List Task) : claimsOf (l₁ ++ l₂) = claimsOf l₁ ++ claimsOf l₂ := by
  simp [claimsOf]

theorem claimsOf_sublist {l l' : List Task} (h : l.Sublist l') :
    (claimsOf l).Sublist (claimsOf l') :=
  (h.filter _).map _

theorem mem_claimsOf {l : List Task} (ht : t ∈ l) (h : t.holding = true) : t.claim ∈ claimsOf l :=
  List.mem_map_of_mem (List.mem_filter.mpr ⟨ht, h⟩)

/-- Going on makes no claim. -/
theorem claimsOf_reply_sublist (hrest : t.rest.isCall = true) :
    (claimsOf (l₁ ++ t.reply c r rest :: l₂)).Sublist (claimsOf (l₁ ++ t :: l₂)) := by
  rw [claimsOf_append, claimsOf_append, claimsOf_cons, claimsOf_cons]
  refine List.Sublist.append_left (List.Sublist.append_right ?_ _) _
  split
  · rename_i h
    rw [if_pos (holding_of_reply hrest h)]
    exact List.Sublist.refl _
  · exact List.nil_sublist _

end Claims

/-! ## The invariant -/

section Leases

variable {ubl : UblEngine} {config : ProcessorConfig} {s s' : System} {a : SystemAction}

/-- The leases a claim gives. -/
theorem lease?_claimed (worker_id : String) (lease : Nat) (now : Time) (j : JobRow) :
    (j.claimed worker_id lease now).lease? = some ⟨now + lease, j.attempts + 1⟩ := by
  simp [JobRow.lease?, JobRow.claimed]

/-- A row that is ready is under no unexpired lease. -/
theorem lease_until_lt_of_ready {j : JobRow} {now : Time} {l : Lease Int} (h : j.ready now = true)
    (hl : j.lease? = some l) : l.lease_until < now := by
  obtain ⟨hrunning, hlocked, -⟩ := lease?_eq_some.mp hl
  simp only [JobRow.ready, JobRow.leaseExpired, decide_eq_true_eq, hrunning, hlocked] at h
  simpa using h.1

theorem leaseInv_claimed {worker_id : String} {limit lease : Nat} {skipped : List Uuid}
    (hs : s.Sound ubl config) (hI : LeaseInv s) :
    LeaseInv { s with
      db := (s.db.claim worker_id limit lease s.now skipped).1
      tasks := s.tasks ++ (s.db.claim worker_id limit lease s.now skipped).2.map
        (Task.start ubl config (s.now + lease)) } := by
  have hc := hs.consistent
  have hc' := hc.claim worker_id limit lease s.now skipped
  have hnew : ∀ c ∈ claimsOf ((s.db.claim worker_id limit lease s.now skipped).2.map
      (Task.start ubl config (s.now + lease))), ∃ j ∈ s.db.jobs, j.ready s.now = true ∧
        c = ⟨j.id, ⟨s.now + lease, j.attempts + 1⟩⟩ ∧ j.claimed worker_id lease s.now ∈
          (s.db.claim worker_id limit lease s.now skipped).1.jobs := by
    intro c hc
    obtain ⟨t, ht, rfl⟩ := List.mem_map.mp hc
    obtain ⟨job, hjob, rfl⟩ := List.mem_map.mp (List.mem_of_mem_filter ht)
    obtain ⟨j, hj, hready, rfl, hmem⟩ := mem_claim hjob
    exact ⟨j, hj, hready, rfl, hmem⟩
  unfold LeaseInv at hI ⊢
  dsimp only
  rw [claimsOf_append]
  refine hI.claim ?_ ?_ ?_ ?_ ?_
  · intro c hc' l hl
    obtain ⟨j, hj, hready, rfl, -⟩ := hnew c hc'
    rw [leaseOf_eq hc hj] at hl
    exact lease_until_lt_of_ready hready hl
  · intro c hc''
    obtain ⟨j, hj, -, rfl, hmem⟩ := hnew c hc''
    have := leaseOf_eq hc' hmem
    rw [lease?_claimed] at this
    exact this
  · intro c hc'
    obtain ⟨j, -, -, rfl, -⟩ := hnew c hc'
    exact Int.le_add_of_nonneg_right (Int.natCast_nonneg lease)
  · -- the rows picked are distinct
    refine List.Pairwise.sublist ((List.filter_sublist).map Task.claim) ?_
    have hnodup : ((s.db.readyJobs limit s.now skipped).map JobRow.id).Nodup :=
      Db.readyJobs_nodup hc.job_ids
    rw [List.nodup_iff_pairwise_ne, List.pairwise_map] at hnodup
    show List.Pairwise _ ((((s.db.readyJobs limit s.now skipped).map _).map _).map _)
    simp only [List.pairwise_map]
    exact hnodup
  · intro k hne l hl
    obtain ⟨j, hj, rfl, hlease, hchanged⟩ := leaseOf_map_ne
      (same_ite (JobRow.same_claimed worker_id lease s.now) fun j =>
        j.id ∈ (s.db.readyJobs limit s.now skipped).map JobRow.id) hne
    by_cases hpicked : j.id ∈ (s.db.readyJobs limit s.now skipped).map JobRow.id
    · obtain ⟨j', hj', hid⟩ := List.mem_map.mp hpicked
      obtain ⟨hmem, hready⟩ := Db.mem_of_mem_readyJobs hj'
      rw [hc.eq_of_id hmem hj hid] at hready
      exact lease_until_lt_of_ready hready (hlease.symm.trans hl)
    · simp [hpicked] at hchanged

/-- A call leaves the jobs as they are, or it settles the job of a task that holds it. -/
theorem worked_jobs {t : Task} {c : Call} {r : Reply c} {db : Db}
    {k : Reply c → Prog Call Reply (Except DomainError Unit)} (hs : s.Sound ubl config)
    (ht : t ∈ s.tasks) (hrest : t.rest = .call c k)
    (hfenced : c.settling = true → ¬ t.claim.Superseded s.now (leaseOf s.db.jobs))
    (h : Answered s.db c r db) (hI : LeaseInv s) :
    db.jobs = s.db.jobs ∨ settles ⟨c, r⟩ = true ∧ t.holding = true ∧
      t.claim.Holds (leaseOf s.db.jobs) ∧
      ∃ (f : JobRow → JobRow) (rows : List JobRow), (∀ j : JobRow, j.Same (f j)) ∧
        (∀ j, (f j).status ≠ .running) ∧ (∀ j ∈ rows, j.status = .queued) ∧
        db.jobs = (s.db.jobs.map fun j => if j.id = t.job.id then f j else j) ++ rows := by
  by_cases hquiet : db.jobs = s.db.jobs
  · exact .inl hquiet
  · have hsettles : settles ⟨c, r⟩ = true := by
      by_contra hnot
      exact hquiet (h.calm (by simpa using hnot))
    have hsettling : c.settling = true := by
      by_contra hnot
      exact hquiet (h.effect.jobs_eq (by simpa using hnot))
    have hcall : t.rest.isCall = true := by rw [hrest]; rfl
    obtain ⟨hunsettled, hnames⟩ := (hs.call ht hrest).settling hsettling
    have hholding : t.holding = true := holding_iff.mpr ⟨hcall, hunsettled⟩
    have hholds := Lease.Inv.holds_of_not_superseded hI (mem_claimsOf ht hholding)
      (hfenced hsettling)
    exact .inr ⟨hsettles, hholding, hholds,
      (h.effect.jobs_own hsettling hnames).resolve_left hquiet⟩

theorem leaseInv_worked {i : Nat} {t : Task} {c : Call} {r : Reply c} {db : Db}
    {rest : Prog Call Reply (Except DomainError Unit)} {log : List (Uuid × Exchange Call Reply)}
    (hs : s.Sound ubl config)
    (ht : s.tasks[i]? = some t) {k : Reply c → Prog Call Reply (Except DomainError Unit)}
    (hrest : t.rest = .call c k)
    (hfenced : c.settling = true → ¬ t.claim.Superseded s.now (leaseOf s.db.jobs))
    (h : Answered s.db c r db) (hI : LeaseInv s) :
    LeaseInv { s with db := db, tasks := s.tasks.set i (t.reply c r rest), log := log } := by
  obtain ⟨l₁, l₂, hsplit, hset, -⟩ := exists_split ht
  have hcall : t.rest.isCall = true := by rw [hrest]; rfl
  have hcases := worked_jobs hs (List.mem_of_getElem? ht) hrest hfenced h hI
  unfold LeaseInv at hI ⊢
  dsimp only
  rw [hset]
  rw [hsplit] at hI
  rcases hcases with hquiet | ⟨hsettles, hholding, hholds, f, rows, hf, -, hrows, hjobs⟩
  · rw [hquiet]
    exact hI.sublist (claimsOf_reply_sublist hcall)
  · have hclaims : claimsOf (l₁ ++ t.reply c r rest :: l₂) = claimsOf l₁ ++ claimsOf l₂ := by
      rw [claimsOf_append, claimsOf_cons, not_holding_of_settles hsettles]
      rfl
    rw [claimsOf_append, claimsOf_cons, hholding] at hI
    rw [hclaims]
    refine Lease.Inv.settle (c := t.claim) hI hholds ?_
    intro k hne
    rw [hjobs, leaseOf_append hrows] at hne
    obtain ⟨j, -, rfl, -, hj⟩ := leaseOf_map_ne (same_ite hf fun j => j.id = t.job.id) hne
    by_contra hid
    have hid : j.id ≠ t.job.id := hid
    simp [hid] at hj

theorem SystemStep.leaseInv (h : SystemStep ubl config s a s') (hs : s.Sound ubl config)
    (hC : Fenced s a) (hI : LeaseInv s) : LeaseInv s' := by
  have hqueued : ∀ {rows : List JobRow}, (∀ j ∈ rows, j.status = .queued) →
      leaseOf (s.db.jobs ++ rows) = leaseOf s.db.jobs := fun hrows =>
    Lease.ofRows_append fun j hj => lease?_eq_none_of_status (by simp [hrows j hj])
  cases h with
  | idle _ hj _ hnow =>
      unfold LeaseInv at hI ⊢
      rw [hj]
      exact hI.tick hnow
  | @issued r times tx =>
      unfold LeaseInv
      have hsame : leaseOf (s.db.commitIssue r tx).jobs = leaseOf s.db.jobs :=
        leaseOf_append (by simp [Request.initialJob, NewJob.row])
      rw [hsame]
      exact hI
  | expired =>
      refine Lease.Inv.change hI fun k hne l hl => ?_
      obtain ⟨j, -, rfl, hlease, hchanged⟩ := leaseOf_map_ne
        (same_ite JobRow.same_expired fun j => j.leaseExpired s.now ∧ j.max_attempts ≤ j.attempts) hne
      have hj := hlease.symm.trans hl
      by_cases hexpired : j.leaseExpired s.now ∧ j.max_attempts ≤ j.attempts
      · have := hexpired.1
        simp only [JobRow.leaseExpired, decide_eq_true_eq, (lease?_eq_some.mp hj).2.1] at this
        simpa using this.2
      · simp [hexpired] at hchanged
  | claimed => exact leaseInv_claimed hs hI
  | @worked i w t c r db k ht hrest _ h =>
      exact leaseInv_worked hs ht hrest (hC t ht c (Task.next?_eq hrest)) h hI
  | crashed =>
      exact hI.sublist (claimsOf_sublist (List.eraseIdx_sublist _ _))
  | requeued h =>
      obtain ⟨-, hj, -, -⟩ := Db.requeueContingency_ok h
      unfold LeaseInv
      dsimp only
      rw [hj, leaseOf_append]
      · exact hI
      · intro j hj
        obtain ⟨d, -, id, rfl⟩ := Db.mem_contingencyJobs hj
        rfl
  | @revived job_id audit db b h hne =>
      obtain h | ⟨j, d, hjmem, hid, hdead, -, -, -, -, -, hj, -⟩ := Db.retryDeadJob_ok h
      · exact absurd h hne
      · refine Lease.Inv.change hI fun k hk l hl => ?_
        dsimp only at hk
        rw [hj] at hk
        obtain ⟨i, hi, rfl, hlease, hchanged⟩ := leaseOf_map_ne
          (same_ite (JobRow.same_revived s.now) fun k => k.id = job_id) hk
        by_cases hi' : i.id = job_id
        · -- the job was dead, so under no lease
          have hsame := hs.consistent.eq_of_id hi hjmem (hi'.trans hid.symm)
          have := (lease?_eq_some.mp (hlease.symm.trans hl)).1
          rw [hsame, hdead] at this
          cases this
        · simp [hi'] at hchanged

theorem leaseInv_of_reachableBy {C : System → SystemAction → Prop}
    (hC : ∀ s a, C s a → Fenced s a) (hs : (system ubl config).ReachableBy C s) : LeaseInv s := by
  refine hs.invariant ?_ ?_
  · rintro s ⟨tenants, now, rfl⟩
    exact Lease.Inv.nil
  · intro s a s' hr hI hc h
    exact (systemStep_inv h).leaseInv (sound_of_reachableBy hr) (hC s a hc) hI

/-! ## Leases that a step leaves -/

/-- After a call of a task, who holds a job held it before. -/
theorem holds_of_worked {t : Task} {c : Call} {r : Reply c} {db : Db}
    {k : Reply c → Prog Call Reply (Except DomainError Unit)} (hs : s.Sound ubl config)
    (ht : t ∈ s.tasks) (hrest : t.rest = .call c k)
    (hfenced : c.settling = true → ¬ t.claim.Superseded s.now (leaseOf s.db.jobs))
    (h : Answered s.db c r db) (hI : LeaseInv s) {cl : Claim Uuid Int}
    (hcl : cl.Holds (leaseOf db.jobs)) : cl.Holds (leaseOf s.db.jobs) := by
  rcases worked_jobs hs ht hrest hfenced h hI with
    hquiet | ⟨-, -, -, f, rows, hf, hstopped, hrows, hjobs⟩
  · rwa [hquiet] at hcl
  · rw [hjobs, leaseOf_append hrows] at hcl
    refine Lease.ofRows_of_map (fun j => ((same_ite hf fun j => j.id = t.job.id) j).id.symm)
      (fun j _ => ?_) hcl
    by_cases hid : j.id = t.job.id
    · rw [if_pos hid]
      exact .inr (lease?_eq_none_of_status (hstopped j))
    · rw [if_neg hid]
      exact .inl rfl

theorem holding_start (lease_until : Time) (job : Job) :
    (Task.start ubl config lease_until job).holding = true := by
  rw [holding_iff]
  refine ⟨?_, by simp [Task.start, Unsettled]⟩
  unfold Task.start process
  cases job.kind <;> rfl

/-- A claim gives no older claim its job back. -/
theorem holds_of_claimed {worker_id : String} {limit lease : Nat} {skipped : List Uuid}
    (hs : s.Sound ubl config)
    (hI' : LeaseInv { s with
      db := (s.db.claim worker_id limit lease s.now skipped).1
      tasks := s.tasks ++ (s.db.claim worker_id limit lease s.now skipped).2.map
        (Task.start ubl config (s.now + lease)) })
    {t : Task} (ht : t ∈ s.tasks) (hholding : t.holding = true)
    (hholds : t.claim.Holds (leaseOf (s.db.claim worker_id limit lease s.now skipped).1.jobs)) :
    t.claim.Holds (leaseOf s.db.jobs) := by
  by_contra hnot
  have hne : leaseOf (s.db.claim worker_id limit lease s.now skipped).1.jobs t.claim.row ≠
      leaseOf s.db.jobs t.claim.row := fun heq => hnot (heq.symm.trans hholds)
  obtain ⟨j, hj, hid, -, hchanged⟩ := leaseOf_map_ne
    (same_ite (JobRow.same_claimed worker_id lease s.now) fun j =>
      j.id ∈ (s.db.readyJobs limit s.now skipped).map JobRow.id) hne
  by_cases hmem : j.id ∈ (s.db.readyJobs limit s.now skipped).map JobRow.id
  · -- the new claim on the row expires at the same instant
    obtain ⟨i, hi, hiid⟩ := List.mem_map.mp hmem
    have hij := hs.consistent.eq_of_id (Db.mem_of_mem_readyJobs hi).1 hj hiid
    subst hij
    have hnew : (⟨i.id, ⟨s.now + lease, i.attempts + 1⟩⟩ : Claim Uuid Int) ∈
        claimsOf ((s.db.claim worker_id limit lease s.now skipped).2.map
          (Task.start ubl config (s.now + lease))) :=
      mem_claimsOf (t := Task.start ubl config (s.now + lease)
          (i.claimed worker_id lease s.now).job)
        (List.mem_map_of_mem (List.mem_map_of_mem hi)) (holding_start _ _)
    have hmem' : i.claimed worker_id lease s.now ∈
        (s.db.claim worker_id limit lease s.now skipped).1.jobs :=
      List.mem_map.mpr ⟨i, hj, if_pos (List.mem_map_of_mem hi)⟩
    have hlease := leaseOf_eq (hs.consistent.claim worker_id limit lease s.now skipped) hmem'
    rw [lease?_claimed] at hlease
    have hsame : some t.claim.lease = some ⟨s.now + lease, i.attempts + 1⟩ := by
      rw [← hlease]
      show some t.claim.lease = leaseOf _ i.id
      rw [hid]
      exact hholds.symm
    have hapart := Lease.Inv.apart hI'
    rw [claimsOf_append, List.pairwise_append] at hapart
    refine hapart.2.2 t.claim (mem_claimsOf ht hholding) _ hnew hid.symm ?_
    rw [Option.some.inj hsame]
  · simp [hmem] at hchanged

/-- No step gives a claim its job back. -/
theorem SystemStep.holds_of_holds (h : SystemStep ubl config s a s') (hs : s.Sound ubl config)
    (hC : Fenced s a) (hI : LeaseInv s) {t : Task} (ht : t ∈ s.tasks) (hholding : t.holding = true)
    (hholds : t.claim.Holds (leaseOf s'.db.jobs)) : t.claim.Holds (leaseOf s.db.jobs) := by
  have hI' := h.leaseInv hs hC hI
  -- an update that leaves a lease or ends it
  have hmap : ∀ {f : JobRow → JobRow} {p : JobRow → Prop} [DecidablePred p],
      (∀ j : JobRow, j.Same (f j)) → (∀ j, (f j).status ≠ .running) →
      t.claim.Holds (leaseOf (s.db.jobs.map fun j => if p j then f j else j)) →
      t.claim.Holds (leaseOf s.db.jobs) := by
    intro f p _ hf hstopped hholds
    refine Lease.ofRows_of_map (fun j => (same_ite hf p j).id.symm) (fun j _ => ?_) hholds
    split
    · exact .inr (lease?_eq_none_of_status (hstopped j))
    · exact .inl rfl
  cases h with
  | idle _ hj =>
      dsimp only at hholds
      rwa [hj] at hholds
  | @issued r times tx =>
      rwa [show leaseOf (s.db.commitIssue r tx).jobs = leaseOf s.db.jobs from
        leaseOf_append (by simp [Request.initialJob, NewJob.row])] at hholds
  | expired => exact hmap JobRow.same_expired (by simp [JobRow.expired]) hholds
  | claimed => exact holds_of_claimed hs hI' ht hholding hholds
  | @worked i w u c r db k hu hrest _ h =>
      exact holds_of_worked hs (List.mem_of_getElem? hu) hrest (hC u hu c (Task.next?_eq hrest)) h
        hI hholds
  | crashed => exact hholds
  | requeued h =>
      dsimp only at hholds
      rw [(Db.requeueContingency_ok h).2.1, leaseOf_append] at hholds
      · exact hholds
      · intro j hj
        obtain ⟨d, -, id, rfl⟩ := Db.mem_contingencyJobs hj
        rfl
  | revived h hne =>
      obtain h | ⟨j, d, -, -, -, -, -, -, -, -, hj, -⟩ := Db.retryDeadJob_ok h
      · exact absurd h hne
      · dsimp only at hholds
        rw [hj] at hholds
        exact hmap (JobRow.same_revived s.now) (by simp [JobRow.revived]) hholds

/-! ## Rows that a step leaves alone -/

/-- The call of a task changes no job but the one it holds. -/
theorem worked_own {t : Task} {c : Call} {r : Reply c} {db : Db}
    {k : Reply c → Prog Call Reply (Except DomainError Unit)} (hs : s.Sound ubl config)
    (ht : t ∈ s.tasks) (hrest : t.rest = .call c k)
    (hfenced : c.settling = true → ¬ t.claim.Superseded s.now (leaseOf s.db.jobs))
    (h : Answered s.db c r db) (hI : LeaseInv s) :
    ∀ j ∈ s.db.jobs, j ∈ db.jobs ∨ j.id = t.job.id ∧ t.claim.Holds (leaseOf s.db.jobs) := by
  intro j hj
  rcases worked_jobs hs ht hrest hfenced h hI with hquiet | ⟨-, -, hholds, f, rows, -, -, -, hjobs⟩
  · rw [hquiet]
    exact .inl hj
  · by_cases hid : j.id = t.job.id
    · exact .inr ⟨hid, hholds⟩
    · rw [hjobs]
      exact .inl (List.mem_append_left rows (mem_map_ite hj hid))

/-- The row of a claim that holds is running. -/
theorem running_of_holds (hs : s.Sound ubl config) {c : Claim Uuid Int}
    (h : c.Holds (leaseOf s.db.jobs)) {j : JobRow} (hj : j ∈ s.db.jobs) (hid : j.id = c.row) :
    j.status = .running ∧ j.attempts = c.lease.stamp := by
  have hlease : j.lease? = some c.lease := by
    rw [← leaseOf_eq hs.consistent hj, hid]
    exact h
  obtain ⟨hrunning, -, hstamp⟩ := lease?_eq_some.mp hlease
  exact ⟨hrunning, hstamp⟩

/-- A finished job stays as it is. -/
theorem SystemStep.done_mem (h : SystemStep ubl config s a s') (hs : s.Sound ubl config)
    (hC : Fenced s a) (hI : LeaseInv s) :
    ∀ j ∈ s.db.jobs, j.status = .done → j ∈ s'.db.jobs := by
  intro j hj hdone
  have hready : ∀ {now : Time}, j.ready now ≠ true := by
    intro now hready
    have hactive := JobRow.active_iff.mp (JobRow.active_of_ready hready)
    simp [hdone] at hactive
  cases h with
  | idle _ hjobs =>
      rw [hjobs]
      exact hj
  | issued => exact List.mem_append_left _ hj
  | expired =>
      refine mem_map_ite hj ?_
      rintro ⟨hexpired, -⟩
      simp [JobRow.leaseExpired, hdone] at hexpired
  | claimed =>
      refine mem_map_ite hj fun hpicked => ?_
      obtain ⟨k, hk, hid⟩ := List.mem_map.mp hpicked
      obtain ⟨hkmem, hkready⟩ := Db.mem_of_mem_readyJobs hk
      rw [hs.consistent.eq_of_id hkmem hj hid] at hkready
      exact hready hkready
  | @worked i w t c r db k ht hrest _ h =>
      have htmem := List.mem_of_getElem? ht
      rcases worked_own hs htmem hrest (hC t ht c (Task.next?_eq hrest)) h hI j hj with hmem | ⟨hid, hholds⟩
      · exact hmem
      · have hrunning := (running_of_holds hs hholds hj hid).1
        rw [hdone] at hrunning
        cases hrunning
  | crashed => exact hj
  | requeued h =>
      rw [(Db.requeueContingency_ok h).2.1]
      exact List.mem_append_left _ hj
  | revived h hne =>
      obtain h | ⟨k, d, hkmem, hid, hdead, -, -, -, -, -, hjobs, -⟩ := Db.retryDeadJob_ok h
      · exact absurd h hne
      · rw [hjobs]
        refine mem_map_ite hj fun hjid => ?_
        rw [hs.consistent.eq_of_id hj hkmem (hjid.trans hid.symm), hdead] at hdone
        cases hdone

end Leases

end DianService
