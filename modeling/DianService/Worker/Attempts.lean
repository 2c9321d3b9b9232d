import DianService.Worker.Stranded

/-
  Worker: how often a job is tried. `claim` counts an attempt before the worker does anything, a
  release gives it back, and `claim`, `retry` and `is_last_attempt` all compare the count with
  `max_attempts`. While workers stop before their lease expires, the count bounds the submissions
  a job makes, crashes included.

  The submissions of each job are counted beside the run, from its creation or from the last time
  an administrator retried it.
-/

namespace DianService

open Lib Lib.Prog

/-- Every worker stops acting on a job before its lease expires. -/
def Punctual (s : System) : SystemAction → Prop
  | .work i _ => ∀ t ∈ s.tasks[i]?, t.claim.Unexpired s.now
  | _ => True

instance (s : System) : ∀ a, Decidable (Punctual s a)
  | .work i _ => inferInstanceAs (Decidable (∀ t ∈ s.tasks[i]?, s.now ≤ t.lease_until))
  | .tick _ | .createWebhook _ | .registerRange .. | .issueOutbound .. | .buryExpired |
    .claim .. | .crash _ | .requeueContingency .. | .retryDeadJob .. | .claimDeliveries .. |
    .deliver .. | .crashDelivery _ | .retryDeadDelivery .. => isTrue trivial

theorem Punctual.fenced {s : System} {a : SystemAction} (h : Punctual s a) : Fenced s a := by
  cases a with
  | work i w =>
      intro t ht c _ _ hsuperseded
      exact hsuperseded.1 (h t ht)
  | _ => trivial

/-- The retry is accepted. -/
def retriesJob (s : System) (job_id : Uuid) (audit : AuditEntry) : Bool :=
  match s.db.retryDeadJob job_id audit s.now with
  | .ok (_, b) => b
  | .error _ => false

/-- The submissions of each job since it was created or an administrator retried it. -/
def noteSubmissions (s : System) (a : SystemAction) (calls : Uuid → Nat) : Uuid → Nat :=
  match a with
  | .work i _ =>
      match s.tasks[i]? with
      | none => calls
      | some t =>
          if t.next?.any Call.isSubmission then
            Function.update calls t.job.id (calls t.job.id + 1)
          else calls
  | .retryDeadJob job_id audit =>
      if retriesJob s job_id audit then Function.update calls job_id 0 else calls
  | _ => calls

/-- The system and the submissions of its jobs. -/
def submissions (ubl : UblEngine) (config : ProcessorConfig) :
    Machine (System × (Uuid → Nat)) SystemAction :=
  (system ubl config).observed (fun _ => 0) noteSubmissions

/-! ## What a call leaves of the counts -/

section Effect

variable {ubl : UblEngine} {db db' : Db} {c : Call} {job : Job} {t : History}

/-- A row after a call of `job`: one of before, a new one, or that of the job. -/
inductive Counted (db : Db) (job : Job) (t : History) (j' : JobRow) : Prop where
  | kept (h : j' ∈ db.jobs)
  | added (hfresh : ∀ j ∈ db.jobs, j.id ≠ j'.id) (hcount : j'.attempts = 0)
      (hmax : 0 < j'.max_attempts)
  | closed {j : JobRow} (hj : j ∈ db.jobs) (hid : j.id = job.id) (hsame : j.Same j')
      (hcount : j'.attempts = j.attempts) (hclosed : j'.active = false)
  | retried {j : JobRow} (hj : j ∈ db.jobs) (hid : j.id = job.id) (hsame : j.Same j')
      (hcount : j'.attempts = j.attempts) (hlast : job.attempts < job.max_attempts)
  | released {j : JobRow} (hj : j ∈ db.jobs) (hid : j.id = job.id) (hsame : j.Same j')
      (hcount : j'.attempts = max (j.attempts - 1) 0) (hunsent : Unsent t)

theorem Effect.counted (h : Effect db c db') (hP : ProcessCall ubl job t c) :
    ∀ j' ∈ db'.jobs, Counted db job t j' := by
  intro j' hj'
  have hmap : ∀ {id : Uuid} {f : JobRow → JobRow},
      j' ∈ (db.jobs.map fun j => if j.id = id then f j else j) →
      (∀ j ∈ db.jobs, j.id = id → Counted db job t (f j)) → Counted db job t j' := by
    intro id f hmem hown
    obtain ⟨j, hj, rfl⟩ := List.mem_map.mp hmem
    split
    · exact hown j hj ‹_›
    · exact .kept hj
  cases h with
  | same | stored | recorded => exact .kept hj'
  | @applied tr d _ h =>
      obtain ⟨-, o, ho, hid⟩ := hP.settling rfl
      obtain ⟨f, hf, hjobs⟩ := closeJob_jobs db o
      have hfresh := h.follow_up
      rw [h.jobs] at hj'
      rw [ho, hjobs] at hj' hfresh
      rcases List.mem_append.mp hj' with hj' | hj'
      · exact hmap hj' fun j hj hjid =>
          .closed hj (hjid.trans hid) (hf j).1 (hf j).2.2 (hf j).2.1
      · obtain ⟨new, hnew, rfl⟩ := List.mem_map.mp hj'
        obtain ⟨hfresh, -, -, hmax⟩ := hfresh new (by simpa using hnew)
        refine .added (fun j hj => ?_) rfl hmax
        have hne := hfresh _ (List.mem_map_of_mem hj)
        rwa [← (same_ite (fun j => (hf j).1) (fun j => j.id = o.jobId) j).id] at hne
  | completed =>
      exact hmap hj' fun j hj hid =>
        .closed hj (hid.trans hP.1) j.same_completed rfl j.active_completed
  | buried =>
      exact hmap hj' fun j hj hid =>
        .closed hj (hid.trans hP.1) (j.same_buried _) rfl (j.active_buried _)
  | retried =>
      exact hmap hj' fun j hj hid =>
        .retried hj (hid.trans hP.1) (j.same_retried _ _) rfl hP.2.2
  | released =>
      exact hmap hj' fun j hj hid =>
        .released hj (hid.trans hP.1) (j.same_released _) rfl hP.2.2

end Effect

/-! ## The count bounds the submissions -/

/-- The count of attempts of a row is within its limit, below it in the queue. -/
structure JobRow.Limited (j : JobRow) : Prop where
  pos : 0 < j.max_attempts
  le : j.attempts ≤ j.max_attempts
  lt : j.status = .queued → j.attempts < j.max_attempts

structure Tally (s : System) (calls : Uuid → Nat) : Prop where
  known : ∀ id, calls id ≠ 0 → ∃ j ∈ s.db.jobs, j.id = id
  rows : ∀ j ∈ s.db.jobs, j.Limited ∧ (calls j.id : Int) ≤ j.attempts
  tasks : ∀ t ∈ s.tasks, t.holding = true → t.claim.Holds (leaseOf s.db.jobs) →
    Unsent t.history → (calls t.job.id : Int) < t.job.attempts

section Step

variable {ubl : UblEngine} {config : ProcessorConfig} {s s' : System} {a : SystemAction}
  {calls calls' : Uuid → Nat}

/-- A new row. -/
theorem NewJob.row_limited {new : NewJob} (h : 0 < new.max_attempts) : new.row.Limited :=
  ⟨h, le_of_lt h, fun _ => h⟩

theorem Tally.unknown (h : Tally s calls) {id : Uuid} (hfresh : ∀ j ∈ s.db.jobs, j.id ≠ id) :
    calls id = 0 := by
  by_contra hne
  obtain ⟨j, hj, hid⟩ := h.known id hne
  exact hfresh j hj hid

/-- A step that makes no submission keeps the tally if it keeps it of the rows. -/
theorem Tally.step (h : SystemStep ubl config s a s') (hs : s.Sound ubl config) (hC : Fenced s a)
    (hI : LeaseInv s) (hT : Tally s calls)
    (hrows : ∀ j ∈ s'.db.jobs, j.Limited ∧ (calls j.id : Int) ≤ j.attempts)
    (hnew : ∀ t ∈ s'.tasks, t.holding = true → Unsent t.history →
      (∃ u ∈ s.tasks, u.holding = true ∧ u.claim = t.claim ∧ Unsent u.history) ∨
        (calls t.job.id : Int) < t.job.attempts) : Tally s' calls where
  known := by
    intro id hne
    obtain ⟨j, hj, hid⟩ := hT.known id hne
    obtain ⟨k, hk, hsame⟩ := h.kept.jobs j hj
    exact ⟨k, hk, hsame.id.symm.trans hid⟩
  rows := hrows
  tasks := by
    intro t ht hholding hholds hunsent
    rcases hnew t ht hholding hunsent with ⟨u, hu, huh, hclaim, huunsent⟩ | hlt
    · have hkept := h.holds_of_holds hs hC hI hu huh (hclaim ▸ hholds)
      have hlt := hT.tasks u hu huh hkept huunsent
      have hid : u.job.id = t.job.id := congrArg Claim.row hclaim
      have hcount : u.job.attempts = t.job.attempts := congrArg (fun c => c.lease.stamp) hclaim
      rwa [hid, hcount] at hlt
    · exact hlt

/-- The rows a call leaves. -/
theorem tally_rows {t : Task} {c : Call} {r : Reply c} {db : Db}
    {k : Reply c → Prog Call Reply (Except DomainError Unit)} (hs : s.Sound ubl config)
    (ht : t ∈ s.tasks) (hrest : t.rest = .call c k)
    (hfenced : c.settling = true → ¬ t.claim.Superseded s.now (leaseOf s.db.jobs))
    (h : Answered s.db c r db) (hI : LeaseInv s) (hT : Tally s calls) :
    ∀ j ∈ db.jobs, j.Limited ∧ (calls j.id : Int) ≤ j.attempts := by
  intro j' hj'
  rcases worked_jobs hs ht hrest hfenced h hI with hquiet | ⟨-, hholding, hholds, -⟩
  · exact hT.rows j' (hquiet ▸ hj')
  · obtain ⟨i, hi, hof⟩ := (hs.task t ht).row
    have hrow : ∀ j ∈ s.db.jobs, j.id = t.job.id → j.attempts = t.job.attempts ∧
        j.max_attempts = t.job.max_attempts := by
      intro j hj hid
      rw [← hs.consistent.eq_of_id hi hj (hof.id.trans hid.symm)]
      exact ⟨(running_of_holds hs hholds hi hof.id).2, hof.max_attempts⟩
    cases h.effect.counted (hs.call ht hrest) j' hj' with
    | kept hj => exact hT.rows j' hj
    | added hfresh hcount hmax =>
        have hzero := hT.unknown hfresh
        refine ⟨⟨hmax, ?_, fun _ => ?_⟩, ?_⟩ <;> omega
    | @closed j hj hid hsame hcount hclosed =>
        obtain ⟨hlimited, hle⟩ := hT.rows j hj
        rw [hsame.id] at hle
        refine ⟨⟨hsame.max_attempts ▸ hlimited.pos, ?_, fun hqueued => ?_⟩, hcount ▸ hle⟩
        · rw [hcount, ← hsame.max_attempts]
          exact hlimited.le
        · rw [JobRow.active_iff.mpr (.inl hqueued)] at hclosed
          cases hclosed
    | @retried j hj hid hsame hcount hlast =>
        obtain ⟨hlimited, hle⟩ := hT.rows j hj
        obtain ⟨hattempts, hmax⟩ := hrow j hj hid
        have hlt : j'.attempts < j'.max_attempts := by
          rw [hcount, ← hsame.max_attempts, hattempts, hmax]
          exact hlast
        rw [hsame.id] at hle
        exact ⟨⟨hsame.max_attempts ▸ hlimited.pos, le_of_lt hlt, fun _ => hlt⟩, hcount ▸ hle⟩
    | @released j hj hid hsame hcount hunsent =>
        -- the attempt is given back, and it made no submission
        obtain ⟨hlimited, -⟩ := hT.rows j hj
        obtain ⟨hattempts, hmax⟩ := hrow j hj hid
        have hahead := hT.tasks t ht hholding hholds hunsent
        have hmax' := hsame.max_attempts
        have hle := hlimited.le
        rw [← hid, hsame.id] at hahead
        refine ⟨⟨hsame.max_attempts ▸ hlimited.pos, ?_, fun _ => ?_⟩, ?_⟩ <;> omega

theorem noteSubmissions_le (h : a.works = false) (id : Uuid) :
    noteSubmissions s a calls id ≤ calls id := by
  unfold noteSubmissions
  cases a with
  | work => cases h
  | retryDeadJob job_id audit =>
      dsimp only
      split
      · by_cases hid : id = job_id
        · rw [hid, Function.update_self]
          exact Nat.zero_le _
        · rw [Function.update_of_ne hid]
      · exact le_refl _
  | _ => exact le_refl _

theorem Tally.anti (h : Tally s calls) (hle : ∀ id, calls' id ≤ calls id) : Tally s calls' where
  known := by
    intro id hne
    have := hle id
    exact h.known id (by omega)
  rows := by
    intro j hj
    have hid := hle j.id
    obtain ⟨hlimited, hcount⟩ := h.rows j hj
    exact ⟨hlimited, by omega⟩
  tasks := by
    intro t ht hholding hholds hunsent
    have hid := hle t.job.id
    have := h.tasks t ht hholding hholds hunsent
    omega

/-- A submission by a holder. -/
theorem tally_submitted {t : Task} {c : Call} {r : Reply c} {db : Db} {l₁ l₂ : List Task}
    {rest : Prog Call Reply (Except DomainError Unit)}
    {k : Reply c → Prog Call Reply (Except DomainError Unit)} (hs : s.Sound ubl config)
    (hsplit : s.tasks = l₁ ++ t :: l₂) (hrest : t.rest = .call c k)
    (hsubmits : c.isSubmission = true) (hheld : t.claim.Unexpired s.now) (h : Answered s.db c r db)
    (hI : LeaseInv s) (hT : Tally s calls) (htasks : s'.tasks = l₁ ++ t.reply c r rest :: l₂)
    (hdb : s'.db = db) : Tally s' (Function.update calls t.job.id (calls t.job.id + 1)) := by
  have ht : t ∈ s.tasks := by simp [hsplit]
  obtain ⟨hunsettled, hunsent⟩ : Unsettled t.history ∧ Unsent t.history := by
    have hP := hs.call ht hrest
    cases c with
    | sendBillSync =>
        obtain ⟨-, hunsent, d, hW, -⟩ := hP
        exact ⟨hW.unsettled, hunsent⟩
    | sendTestSetAsync =>
        obtain ⟨-, hunsent, d, hW, -⟩ := hP
        exact ⟨hW.unsettled, hunsent⟩
    | getStatusZip => exact hP.2
    | _ => cases hsubmits
  have hjobs : s'.db.jobs = s.db.jobs := by
    rw [hdb]
    exact h.effect.jobs_eq (by cases c <;> first | rfl | cases hsubmits)
  have hholding : t.holding = true := holding_iff.mpr ⟨by rw [hrest]; rfl, hunsettled⟩
  have hholds := hI.held t.claim (mem_claimsOf ht hholding) hheld
  have hahead := hT.tasks t ht hholding hholds hunsent
  obtain ⟨j, hj, hof⟩ := (hs.task t ht).row
  have hcount := (running_of_holds hs hholds hj hof.id).2
  refine ⟨fun id hne => ?_, fun i hi => ?_, fun u hu huh huH hunsent' => ?_⟩
  · rw [hjobs]
    by_cases hid : id = t.job.id
    · exact ⟨j, hj, hof.id.trans hid.symm⟩
    · rw [Function.update_of_ne hid] at hne
      exact hT.known id hne
  · rw [hjobs] at hi
    obtain ⟨hlimited, hle⟩ := hT.rows i hi
    refine ⟨hlimited, ?_⟩
    by_cases hid : i.id = t.job.id
    · have hij := hs.consistent.eq_of_id hi hj (hid.trans hof.id.symm)
      have hstamp : j.attempts = t.job.attempts := hcount
      rw [hid, Function.update_self, hij, hstamp]
      omega
    · rwa [Function.update_of_ne hid]
  · rw [hjobs] at huH
    rw [htasks] at hu
    have hmem : u ∈ l₁ ++ l₂ := by
      rcases List.mem_append.mp hu with hu | hu
      · exact List.mem_append_left _ hu
      · rcases List.mem_cons.mp hu with rfl | hu
        · have hnot := hunsent' _ (List.mem_append_right _ (List.mem_singleton_self _))
          rw [show (⟨c, r⟩ : Exchange Call Reply).call.isSubmission = true from hsubmits] at hnot
          cases hnot
        · exact List.mem_append_right _ hu
    have hne := holder_unique hI hsplit hholding hholds hmem huh huH
    rw [Function.update_of_ne hne]
    refine hT.tasks u ?_ huh huH hunsent'
    rw [hsplit]
    rcases List.mem_append.mp hmem with hu | hu
    · exact List.mem_append_left _ hu
    · exact List.mem_append_right _ (List.mem_cons_of_mem _ hu)

/-- A claim counts its attempt first. -/
theorem tally_claimed {worker_id : String} {limit lease : Nat} {skipped : List Uuid}
    (hs : s.Sound ubl config) (hT : Tally s calls) :
    ∀ j ∈ (s.db.claim worker_id limit lease s.now skipped).1.jobs,
      j.Limited ∧ (calls j.id : Int) ≤ j.attempts := by
  intro j' hj'
  obtain ⟨j, hj, rfl⟩ := List.mem_map.mp hj'
  obtain ⟨hlimited, hle⟩ := hT.rows j hj
  split
  · rename_i hpicked
    obtain ⟨i, hi, hid⟩ := List.mem_map.mp hpicked
    obtain ⟨himem, hready⟩ := Db.mem_of_mem_readyJobs hi
    rw [hs.consistent.eq_of_id himem hj hid] at hready
    simp only [JobRow.ready, decide_eq_true_eq] at hready
    have hlt := hready.2
    refine ⟨⟨hlimited.pos, ?_, fun hqueued => by cases hqueued⟩, ?_⟩
    · show j.attempts + 1 ≤ j.max_attempts
      omega
    · show (calls j.id : Int) ≤ j.attempts + 1
      omega
  · exact ⟨hlimited, hle⟩

/-- A retry starts both counts again. -/
theorem tally_revived {job_id : Uuid} {jobs : List JobRow} {now : Time} (hT : Tally s calls)
    (hjobs : jobs = s.db.jobs.map fun k => if k.id = job_id then k.revived now else k) :
    ∀ j ∈ jobs, j.Limited ∧ (Function.update calls job_id 0 j.id : Int) ≤ j.attempts := by
  intro j' hj'
  rw [hjobs] at hj'
  obtain ⟨j, hj, rfl⟩ := List.mem_map.mp hj'
  obtain ⟨hlimited, hle⟩ := hT.rows j hj
  by_cases hid : j.id = job_id
  · rw [if_pos hid]
    refine ⟨⟨hlimited.pos, le_of_lt hlimited.pos, fun _ => hlimited.pos⟩, ?_⟩
    rw [show (j.revived now).id = job_id from hid, Function.update_self]
    exact le_refl _
  · rw [if_neg hid, Function.update_of_ne hid]
    exact ⟨hlimited, hle⟩

theorem SystemStep.tally (h : SystemStep ubl config s a s') (hs : s.Sound ubl config)
    (hC : Punctual s a) (hI : LeaseInv s) (hT : Tally s calls) :
    Tally s' (noteSubmissions s a calls) := by
  have hkeep : ∀ t ∈ s.tasks, t.holding = true → Unsent t.history →
      (∃ u ∈ s.tasks, u.holding = true ∧ u.claim = t.claim ∧ Unsent u.history) ∨
        (calls t.job.id : Int) < t.job.attempts :=
    fun t ht hholding hunsent => .inl ⟨t, ht, hholding, rfl, hunsent⟩
  have hadd : ∀ {new : NewJob}, 0 < new.max_attempts → (∀ j ∈ s.db.jobs, j.id ≠ new.id) →
      new.row.Limited ∧ (calls new.row.id : Int) ≤ new.row.attempts := by
    intro new hmax hfresh
    refine ⟨NewJob.row_limited hmax, ?_⟩
    rw [show calls new.row.id = 0 from hT.unknown hfresh]
    exact le_refl _
  cases h with
  | idle hd hj he hnow hidle =>
      refine (Tally.step (.idle hd hj he hnow hidle) hs hC.fenced hI hT ?_ hkeep).anti
        (noteSubmissions_le hidle)
      dsimp only
      rw [hj]
      exact hT.rows
  | issued hfree hjob =>
      refine Tally.step (.issued hfree hjob) hs hC.fenced hI hT (fun j hj => ?_) hkeep
      obtain ⟨-, hid, -, hmax⟩ := Db.insertJob_ok hjob
      rcases List.mem_append.mp hj with hj | hj
      · exact hT.rows j hj
      · rw [List.mem_singleton.mp hj]
        exact hadd hmax hid
  | expired =>
      refine Tally.step .expired hs hC.fenced hI hT (fun j' hj' => ?_) hkeep
      obtain ⟨j, hj, rfl⟩ := List.mem_map.mp hj'
      obtain ⟨hlimited, hle⟩ := hT.rows j hj
      split
      · exact ⟨⟨hlimited.pos, hlimited.le, fun hqueued => by cases hqueued⟩, hle⟩
      · exact ⟨hlimited, hle⟩
  | claimed =>
      refine Tally.step .claimed hs hC.fenced hI hT (tally_claimed hs hT)
        fun t ht hholding hunsent => ?_
      rcases List.mem_append.mp ht with ht | ht
      · exact hkeep t ht hholding hunsent
      · obtain ⟨job, hjob, rfl⟩ := List.mem_map.mp ht
        obtain ⟨j, hj, -, rfl, -⟩ := mem_claim hjob
        have hle := (hT.rows j hj).2
        refine .inr ?_
        show (calls j.id : Int) < j.attempts + 1
        omega
  | @worked i w t c r db k ht hrest happly h =>
      obtain ⟨l₁, l₂, hsplit, hset, -⟩ := exists_split ht
      have hheld := hC t ht
      unfold noteSubmissions
      simp only [ht, Task.next?_eq hrest, Option.any_some]
      split
      · rename_i hsubmits
        exact tally_submitted hs hsplit hrest hsubmits hheld h hI hT (hset _) rfl
      · refine Tally.step (.worked ht hrest happly h) hs hC.fenced hI hT
          (tally_rows hs (List.mem_of_getElem? ht) hrest (hC.fenced t ht c (Task.next?_eq hrest))
            h hI hT) fun u hu hholding hunsent => ?_
        rcases List.mem_or_eq_of_mem_set hu with hu | rfl
        · exact hkeep u hu hholding hunsent
        · refine .inl ⟨t, List.mem_of_getElem? ht, ?_, rfl, ?_⟩
          · exact holding_of_reply (by rw [hrest]; rfl) hholding
          · exact fun e he => hunsent e (List.mem_append_left _ he)
  | crashed ht =>
      exact Tally.step (.crashed ht) hs hC.fenced hI hT hT.rows fun t ht hholding hunsent =>
        hkeep t (List.mem_of_mem_eraseIdx ht) hholding hunsent
  | requeued h =>
      refine Tally.step (.requeued h) hs hC.fenced hI hT (fun j hj => ?_) hkeep
      obtain ⟨-, hjobs, -, hids, hmax⟩ := Db.requeueContingency_ok h
      rw [hjobs] at hj hids
      rcases List.mem_append.mp hj with hj | hj
      · exact hT.rows j hj
      · obtain ⟨d, hd, id, rfl⟩ := Db.mem_contingencyJobs hj
        rw [List.map_append, List.nodup_append] at hids
        refine hadd (hmax (List.ne_nil_of_mem hd)) fun i hi => ?_
        exact hids.2.2 _ (List.mem_map_of_mem hi) _ (List.mem_map_of_mem hj)
  | @revived job_id audit db b h hne =>
      have htrue : retriesJob s job_id audit = true := by
        rw [retriesJob, h]
        exact Db.retryDeadJob_true h hne
      unfold noteSubmissions
      simp only [htrue, if_true]
      obtain h' | ⟨j, d, -, -, -, -, -, -, -, -, hjobs, -⟩ := Db.retryDeadJob_ok h
      · exact absurd h' hne
      · have hle : ∀ id, Function.update calls job_id 0 id ≤ calls id := by
          intro id
          have hnote : noteSubmissions s (.retryDeadJob job_id audit) calls id ≤ calls id :=
            noteSubmissions_le rfl id
          simpa [noteSubmissions, htrue] using hnote
        exact Tally.step (.revived h hne) hs hC.fenced hI (hT.anti hle) (tally_revived hT hjobs)
          fun t ht hholding hunsent => .inl ⟨t, ht, hholding, rfl, hunsent⟩

theorem tally_of_reachableBy {C : System → SystemAction → Prop} (hC : ∀ s a, C s a → Punctual s a)
    (hs : (submissions ubl config).ReachableBy (fun p => C p.1) (s, calls)) : Tally s calls := by
  refine Machine.ReachableBy.observed_invariant ?_ ?_ hs
  · rintro s ⟨tenants, now, rfl⟩
    refine ⟨fun id h => absurd rfl h, ?_, ?_⟩
    · intro j hj
      cases hj
    · intro t ht
      cases ht
  · intro s calls a s' hr hT hc h
    exact (systemStep_inv h).tally (sound_of_reachableBy hr) (hC s a hc)
      (leaseInv_of_reachableBy (fun s a hc => (hC s a hc).fenced) hr) hT

end Step

structure AttemptsBounded (s : System) (calls : Uuid → Nat) : Prop where
  active : ∀ j ∈ s.db.jobs, ∀ k ∈ s.db.jobs, j.active = true → k.active = true →
    j.document_id = k.document_id → j.kind = k.kind → j = k
  /-- A queued job is ready once it is due. -/
  queued : ∀ j ∈ s.db.jobs, j.status = .queued → j.attempts < j.max_attempts ∧
    ∀ now, j.run_at ≤ now → j.ready now = true
  calls : ∀ j ∈ s.db.jobs, (calls j.id : Int) ≤ j.max_attempts

/-- While every worker stops before its lease expires, a document has one active job of a kind at
    most, every queued job has attempts left, and no job makes more submissions than its
    `max_attempts` from its creation, or its last retry by an administrator, on. -/
theorem submissions_bounded (ubl : UblEngine) (config : ProcessorConfig) {s : System}
    {calls : Uuid → Nat}
    (hs : (submissions ubl config).ReachableBy (fun p => Punctual p.1) (s, calls)) :
    AttemptsBounded s calls := by
  have hT := tally_of_reachableBy (fun _ _ h => h) hs
  refine ⟨(sound_of_reachableBy hs.of_observed).consistent.active, ?_, ?_⟩
  · intro j hj hqueued
    have hlt := (hT.rows j hj).1.lt hqueued
    refine ⟨hlt, fun now hdue => ?_⟩
    simp only [JobRow.ready, decide_eq_true_eq]
    exact ⟨.inl ⟨hqueued, hdue⟩, hlt⟩
  · intro j hj
    obtain ⟨hlimited, hle⟩ := hT.rows j hj
    exact hle.trans hlimited.le

set_option maxRecDepth 10000 in
theorem exhausted_counted : ((submissions sampleUbl sampleConfig).run (sampleSystem, fun _ => 0)
    exhausted).isSome = true := by decide

def exhaustedSystem : System × (Uuid → Nat) :=
  ((submissions sampleUbl sampleConfig).run (sampleSystem, fun _ => 0) exhausted).get
    exhausted_counted

set_option maxRecDepth 10000 in
theorem exhausted_punctual : (submissions sampleUbl sampleConfig).Meets (fun p => Punctual p.1)
    (sampleSystem, fun _ => 0) exhausted := by decide

theorem exhaustedSystem_reachable :
    (submissions sampleUbl sampleConfig).ReachableBy (fun p => Punctual p.1) exhaustedSystem :=
  Machine.ReachableBy.get (M := submissions sampleUbl sampleConfig) ⟨sampleSystem_start, rfl⟩
    exhausted_punctual exhausted_counted

set_option maxRecDepth 10000 in
/-- All attempts of the invoice's job were submissions. -/
example : ∀ j ∈ exhaustedSystem.1.db.jobs, (exhaustedSystem.2 j.id : Int) = j.max_attempts := by
  decide +kernel

theorem submissions_bounded_exhausted : AttemptsBounded exhaustedSystem.1 exhaustedSystem.2 :=
  submissions_bounded sampleUbl sampleConfig exhaustedSystem_reachable

end DianService
