import DianService.Application.Resilience
import Mathlib.Data.List.Induction

/-
  Application: every run of a circuit breaker. The jobs of a process share it, so a result may be
  reported long after the breaker was asked, and in any order. `BreakerState.since?` carries the
  laws: until a success is reported it only moves on, and nothing is let through for a cooldown
  after it.
-/

namespace DianService

/-- When a breaker that is not closed was opened, or its last probe let through. -/
def BreakerState.since? : BreakerState → Option Time
  | .closed => none
  | .opened since | .halfOpen since => some since

theorem BreakerState.since?_eq_none {state : BreakerState} :
    state.since? = none ↔ state = .closed := by
  cases state <;> simp [BreakerState.since?]

theorem BreakerState.exists_since {state : BreakerState} (h : state ≠ .closed) :
    ∃ s, state.since? = some s :=
  Option.ne_none_iff_exists'.mp (mt BreakerState.since?_eq_none.mp h)

theorem BreakerState.ne_closed_of_since {state : BreakerState} {s : Time}
    (h : state.since? = some s) : state ≠ .closed := by
  intro hclosed
  rw [hclosed] at h
  cases h

namespace CircuitBreaker

/-! ## Runs -/

inductive Operation where
  | canExecute (now : Time)
  | recordSuccess (now : Time)
  | recordFailure (now : Time)
  deriving DecidableEq

def Operation.now : Operation → Time
  | .canExecute now | .recordSuccess now | .recordFailure now => now

def Operation.isSuccess : Operation → Bool
  | .recordSuccess _ => true
  | _ => false

def Operation.isFailure : Operation → Bool
  | .recordFailure _ => true
  | _ => false

/-- `record_failure` with its `u32` counter, which wraps. -/
def recordFailureWrapping (b : CircuitBreaker) (now : Time) : CircuitBreaker :=
  if isHalfOpen b.state = true ∨ b.failure_threshold ≤ (b.failures + 1) % 2 ^ 32 then
    { b with failures := (b.failures + 1) % 2 ^ 32, state := .opened now }
  else { b with failures := (b.failures + 1) % 2 ^ 32 }

/-- Below 2^32 failures the counter is the number of them. -/
theorem recordFailureWrapping_eq {b : CircuitBreaker} {now : Time} (h : b.failures + 1 < 2 ^ 32) :
    b.recordFailureWrapping now = b.recordFailure now := by
  unfold recordFailureWrapping recordFailure
  rw [Nat.mod_eq_of_lt h]

def perform (b : CircuitBreaker) : Operation → CircuitBreaker
  | .canExecute now => (b.canExecute now).2
  | .recordSuccess _ => b.recordSuccess
  | .recordFailure now => b.recordFailureWrapping now

def performAll (b : CircuitBreaker) (ops : List Operation) : CircuitBreaker := ops.foldl perform b

/-- The breaker of a process after the calls of its jobs. -/
def after (failure_threshold : UInt32) (cooldown : Int) (ops : List Operation) : CircuitBreaker :=
  (new failure_threshold.toNat cooldown).performAll ops

/-- The times of the calls do not decrease. -/
def InOrder (ops : List Operation) : Prop := ops.Pairwise fun a b => a.now ≤ b.now

def NoSuccess (ops : List Operation) : Prop := ∀ op ∈ ops, op.isSuccess = false

def NoFailure (ops : List Operation) : Prop := ∀ op ∈ ops, op.isFailure = false

def failureCount (ops : List Operation) : Nat := ops.countP Operation.isFailure

/-- None of the calls is a request that the breaker lets through. -/
def AllHeld (b : CircuitBreaker) (ops : List Operation) : Prop :=
  ∀ before now rest, ops = before ++ .canExecute now :: rest →
    ((b.performAll before).canExecute now).1 = false

theorem performAll_cons (b : CircuitBreaker) (op : Operation) (ops : List Operation) :
    b.performAll (op :: ops) = (b.perform op).performAll ops := rfl

/-! ## One call -/

section Call

variable {b : CircuitBreaker} {s now : Time} {op : Operation}

theorem canExecute_since (h : b.state.since? = some s) :
    b.canExecute now =
      if b.cooldown ≤ now - s then (true, { b with state := .halfOpen now }) else (false, b) := by
  unfold canExecute
  cases hstate : b.state with
  | closed =>
    rw [hstate] at h
    cases h
  | opened since | halfOpen since =>
    rw [hstate] at h
    obtain rfl := Option.some.inj h
    rfl

/-- Who is let through has waited for the cooldown. -/
theorem canExecute_waited (h : b.state.since? = some s) (hasked : (b.canExecute now).1 = true) :
    s + b.cooldown ≤ now := by
  rw [canExecute_since h] at hasked
  split at hasked
  · exact le_sub_iff_add_le'.mp (by assumption)
  · cases hasked

theorem canExecute_probe (h : b.state.since? = some s) (hasked : (b.canExecute now).1 = true) :
    (b.canExecute now).2.state = .halfOpen now := by
  have hwaited := canExecute_waited h hasked
  rw [canExecute_since h, if_pos (le_sub_iff_add_le'.mpr hwaited)]

theorem canExecute_held (h : (b.canExecute now).1 = false) : (b.canExecute now).2 = b := by
  obtain ⟨s, hs⟩ := BreakerState.exists_since (canExecute_false h)
  rw [canExecute_since hs] at h ⊢
  split at h
  · cases h
  · rename_i hearly
    rw [if_neg hearly]

/-- A breaker lets a request through once the cooldown is over, and whenever it is closed. -/
theorem canExecute_true (h : ∀ s, b.state.since? = some s → s + b.cooldown ≤ now) :
    (b.canExecute now).1 = true := by
  by_contra hheld
  rw [Bool.not_eq_true] at hheld
  obtain ⟨s, hs⟩ := BreakerState.exists_since (canExecute_false hheld)
  rw [canExecute_since hs, if_pos (le_sub_iff_add_le'.mpr (h s hs))] at hheld
  cases hheld

theorem canExecute_failures : (b.canExecute now).2.failures = b.failures := by
  unfold canExecute
  split
  · rfl
  · split <;> rfl
  · split <;> rfl

@[simp] theorem perform_cooldown : (b.perform op).cooldown = b.cooldown := by
  cases op with
  | canExecute now =>
    simp only [perform, canExecute]
    split
    · rfl
    · split <;> rfl
    · split <;> rfl
  | recordSuccess now => rfl
  | recordFailure now =>
    simp only [perform, recordFailureWrapping]
    split <;> rfl

@[simp] theorem perform_failure_threshold :
    (b.perform op).failure_threshold = b.failure_threshold := by
  cases op with
  | canExecute now =>
    simp only [perform, canExecute]
    split
    · rfl
    · split <;> rfl
    · split <;> rfl
  | recordSuccess now => rfl
  | recordFailure now =>
    simp only [perform, recordFailureWrapping]
    split <;> rfl

/-- A call leaves the instant of the breaker, or sets it to its own time. -/
theorem perform_since (h : (b.perform op).state.since? = some s) :
    b.state.since? = some s ∨ s = op.now := by
  cases op with
  | canExecute now =>
    cases hasked : (b.canExecute now).1 with
    | false =>
      simp only [perform, canExecute_held hasked] at h
      exact Or.inl h
    | true =>
      have hopen : b.state ≠ .closed := fun hclosed =>
        BreakerState.ne_closed_of_since h (canExecute_closed hclosed)
      obtain ⟨s', hs'⟩ := BreakerState.exists_since hopen
      simp only [perform, canExecute_probe hs' hasked, BreakerState.since?, Option.some.injEq] at h
      exact Or.inr h.symm
  | recordSuccess now => cases h
  | recordFailure now =>
    simp only [perform, recordFailureWrapping] at h
    split at h
    · exact Or.inr (Option.some.inj h).symm
    · exact Or.inl h

/-- Only a success closes the breaker. -/
theorem perform_ne_closed (hop : op.isSuccess = false) (h : b.state ≠ .closed) :
    (b.perform op).state ≠ .closed := by
  cases op with
  | canExecute now =>
    cases hasked : (b.canExecute now).1 with
    | false =>
      simp only [perform, canExecute_held hasked]
      exact h
    | true =>
      obtain ⟨s, hs⟩ := BreakerState.exists_since h
      simp [perform, canExecute_probe hs hasked]
  | recordSuccess now => cases hop
  | recordFailure now =>
    simp only [perform, recordFailureWrapping]
    split
    · simp
    · exact h

end Call

/-! ## Until a success is reported -/

section Waiting

variable {b : CircuitBreaker} {ops : List Operation} {s t : Time}

@[simp] theorem performAll_cooldown : (b.performAll ops).cooldown = b.cooldown := by
  induction ops generalizing b with
  | nil => rfl
  | cons op ops ih => rw [performAll_cons, ih, perform_cooldown]

@[simp] theorem performAll_failure_threshold :
    (b.performAll ops).failure_threshold = b.failure_threshold := by
  induction ops generalizing b with
  | nil => rfl
  | cons op ops ih => rw [performAll_cons, ih, perform_failure_threshold]

/-- The instant of the breaker moves on only. -/
theorem performAll_since (hno : NoSuccess ops) (horder : InOrder ops) (hs : b.state.since? = some s)
    (hle : ∀ op ∈ ops, s ≤ op.now) : ∃ s', (b.performAll ops).state.since? = some s' ∧ s ≤ s' := by
  induction ops generalizing b s with
  | nil => exact ⟨s, hs, le_refl s⟩
  | cons op ops ih =>
    obtain ⟨hlater, horder⟩ := List.pairwise_cons.mp horder
    have hopen := perform_ne_closed (hno op List.mem_cons_self) (BreakerState.ne_closed_of_since hs)
    obtain ⟨s₁, hs₁⟩ := BreakerState.exists_since hopen
    have hnow := hle op List.mem_cons_self
    have hstep : s ≤ s₁ ∧ ∀ o ∈ ops, s₁ ≤ o.now := by
      obtain hsame | hnew := perform_since hs₁
      · obtain rfl := Option.some.inj (hs.symm.trans hsame)
        exact ⟨le_refl s, fun o ho => hle o (List.mem_cons_of_mem op ho)⟩
      · rw [hnew]
        exact ⟨hnow, hlater⟩
    obtain ⟨s', hs', hmoved⟩ :=
      ih (fun o ho => hno o (List.mem_cons_of_mem op ho)) horder hs₁ hstep.2
    exact ⟨s', hs', hstep.1.trans hmoved⟩

/-- Nothing is let through before a cooldown is over. -/
theorem performAll_waited (hno : NoSuccess ops) (horder : InOrder (ops ++ [.canExecute t]))
    (hs : b.state.since? = some s) (hle : ∀ op ∈ ops, s ≤ op.now)
    (hasked : ((b.performAll ops).canExecute t).1 = true) : s + b.cooldown ≤ t := by
  obtain ⟨s', hs', hmoved⟩ := performAll_since hno (List.pairwise_append.mp horder).1 hs hle
  have hwaited := canExecute_waited hs' hasked
  rw [performAll_cooldown] at hwaited
  exact (add_le_add_left hmoved b.cooldown).trans hwaited

/-- The instant of the breaker is that of a call. -/
theorem since_le (hb : ∀ s, b.state.since? = some s → s ≤ t) (hle : ∀ op ∈ ops, op.now ≤ t) :
    ∀ s, (b.performAll ops).state.since? = some s → s ≤ t := by
  induction ops generalizing b with
  | nil => exact hb
  | cons op ops ih =>
    refine ih (fun s hs => ?_) fun o ho => hle o (List.mem_cons_of_mem op ho)
    obtain hsame | hnew := perform_since hs
    · exact hb s hsame
    · rw [hnew]
      exact hle op List.mem_cons_self

/-- Where no failure is reported and nobody is let through, the instant stays. -/
theorem performAll_quiet (hno : NoFailure ops) (hheld : b.AllHeld ops)
    (h : (b.performAll ops).state.since? = some s) : b.state.since? = some s := by
  induction ops generalizing b with
  | nil => exact h
  | cons op ops ih =>
    have hrest : (b.perform op).AllHeld ops := by
      intro before now rest hops
      exact hheld (op :: before) now rest (by rw [hops, List.cons_append])
    have hstep := ih (fun o ho => hno o (List.mem_cons_of_mem op ho)) hrest h
    cases op with
    | canExecute now =>
      have hsame : b.perform (.canExecute now) = b := canExecute_held (hheld [] now ops rfl)
      rwa [hsame] at hstep
    | recordSuccess now => cases hstep
    | recordFailure now => exact absurd (hno _ List.mem_cons_self) Bool.noConfusion

end Waiting

/-! ## Up to the threshold -/

/-- `failures` failures were reported since the breaker was closed with none. -/
structure Counted (b : CircuitBreaker) (failures : Nat) : Prop where
  below : b.state = .closed →
    b.failures = failures ∧ (failures = 0 ∨ failures < b.failure_threshold)
  reached : b.state ≠ .closed → 0 < failures ∧ b.failure_threshold ≤ failures

theorem Counted.closed_iff {b : CircuitBreaker} {failures : Nat} (h : b.Counted failures) :
    b.state = .closed ↔ failures = 0 ∨ failures < b.failure_threshold := by
  constructor
  · exact fun hclosed => (h.below hclosed).2
  · intro hfew
    by_contra hopen
    have hmany := h.reached hopen
    omega

section Counting

variable {b : CircuitBreaker} {failures : Nat} {op : Operation} {ops : List Operation}

theorem Counted.perform (hcap : b.failure_threshold < 2 ^ 32) (hop : op.isSuccess = false)
    (h : b.Counted failures) :
    (b.perform op).Counted (failures + if op.isFailure = true then 1 else 0) := by
  by_cases hclosed : b.state = .closed
  · obtain ⟨hcount, hfew⟩ := h.below hclosed
    cases op with
    | canExecute now =>
      have hstill : (b.perform (.canExecute now)).state = .closed := canExecute_closed hclosed
      refine ⟨fun _ => ?_, fun hopen => absurd hstill hopen⟩
      rw [perform_failure_threshold]
      exact ⟨canExecute_failures.trans hcount, hfew⟩
    | recordSuccess now => cases hop
    | recordFailure now =>
      -- a closed breaker is below its threshold, so its counter does not wrap
      have hmod : (b.failures + 1) % 2 ^ 32 = failures + 1 := by
        rw [hcount]
        exact Nat.mod_eq_of_lt (by omega)
      have hprobe : isHalfOpen b.state = false := by rw [hclosed]; rfl
      simp only [CircuitBreaker.perform, recordFailureWrapping, hmod, hprobe, Bool.false_eq_true,
        false_or, Operation.isFailure, if_true]
      by_cases hfull : b.failure_threshold ≤ failures + 1
      · rw [if_pos hfull]
        exact ⟨fun hstate => (BreakerState.noConfusion hstate), fun _ => ⟨Nat.succ_pos _, hfull⟩⟩
      · rw [if_neg hfull]
        exact ⟨fun _ => ⟨rfl, Or.inr (not_le.mp hfull)⟩, fun hopen => absurd hclosed hopen⟩
  · have hmany := h.reached hclosed
    refine ⟨fun hstate => absurd hstate (perform_ne_closed hop hclosed), fun _ => ?_⟩
    rw [perform_failure_threshold]
    omega

theorem Counted.performAll (hcap : b.failure_threshold < 2 ^ 32) (hno : NoSuccess ops)
    (h : b.Counted failures) : (b.performAll ops).Counted (failures + failureCount ops) := by
  induction ops generalizing b failures with
  | nil => exact h
  | cons op ops ih =>
    have hstep := h.perform hcap (hno op List.mem_cons_self)
    have hrest := ih (by rwa [perform_failure_threshold])
      (fun o ho => hno o (List.mem_cons_of_mem op ho)) hstep
    have hcount : failureCount (op :: ops) =
        failureCount ops + if op.isFailure = true then 1 else 0 := List.countP_cons
    rwa [add_assoc, add_comm (ite _ _ _), ← hcount] at hrest

end Counting

/-! ## Every run -/

section Runs

variable {failure_threshold : UInt32} {cooldown : Int} {ops : List Operation}

theorem after_cooldown : (after failure_threshold cooldown ops).cooldown = cooldown :=
  performAll_cooldown

theorem after_failure_threshold :
    (after failure_threshold cooldown ops).failure_threshold = failure_threshold.toNat :=
  performAll_failure_threshold

/-- In a run in order, the calls after one are no earlier. -/
theorem InOrder.tail {before rest : List Operation} {op : Operation}
    (h : InOrder (before ++ op :: rest)) : InOrder rest ∧ ∀ o ∈ rest, op.now ≤ o.now :=
  (List.pairwise_cons.mp (List.pairwise_append.mp h).2.1).symm

end Runs

end CircuitBreaker

open CircuitBreaker

/-- Whatever jobs share a breaker, and in whatever order their results are reported. While it is
    not closed, requests that it lets through are a cooldown apart, and a cooldown from the failure
    that opened it. A failed probe opens it again, a success closes it, `failure_threshold` failures
    in a row open it and no fewer do (none open a breaker whose threshold is 0: the first does).
    Once failures stop, one request is let through in every cooldown. -/
theorem breaker_runs (failure_threshold : UInt32) (cooldown : Int) (past : List Operation) :
    (∀ between t₁ t₂, InOrder (past ++ .canExecute t₁ :: (between ++ [.canExecute t₂])) →
      NoSuccess between → (after failure_threshold cooldown past).state ≠ .closed →
      ((after failure_threshold cooldown past).canExecute t₁).1 = true →
      ((after failure_threshold cooldown (past ++ .canExecute t₁ :: between)).canExecute t₂).1 =
        true → t₁ + cooldown ≤ t₂) ∧
    (∀ between t₀ t, InOrder (past ++ .recordFailure t₀ :: (between ++ [.canExecute t])) →
      NoSuccess between →
      (after failure_threshold cooldown (past ++ [.recordFailure t₀])).state = .opened t₀ →
      ((after failure_threshold cooldown (past ++ .recordFailure t₀ :: between)).canExecute t).1 =
        true → t₀ + cooldown ≤ t) ∧
    (∀ t, isHalfOpen (after failure_threshold cooldown past).state = true →
      (after failure_threshold cooldown (past ++ [.recordFailure t])).state = .opened t) ∧
    (∀ t, (after failure_threshold cooldown (past ++ [.recordSuccess t])).state = .closed ∧
      (after failure_threshold cooldown (past ++ [.recordSuccess t])).failures = 0) ∧
    (∀ further, NoSuccess further → (after failure_threshold cooldown past).state = .closed →
      (after failure_threshold cooldown past).failures = 0 →
      ((after failure_threshold cooldown (past ++ further)).state = .closed ↔
        failureCount further = 0 ∨ failureCount further < failure_threshold.toNat)) ∧
    ∀ quiet latest t, (∀ op ∈ past, op.now ≤ latest) → NoFailure quiet →
      (after failure_threshold cooldown past).AllHeld quiet → latest + cooldown ≤ t →
      ((after failure_threshold cooldown (past ++ quiet)).canExecute t).1 = true := by
  have happend : ∀ ops, after failure_threshold cooldown (past ++ ops) =
      (after failure_threshold cooldown past).performAll ops := fun ops => List.foldl_append
  have hcooldown : (after failure_threshold cooldown past).cooldown = cooldown := after_cooldown
  have hthreshold : (after failure_threshold cooldown past).failure_threshold =
      failure_threshold.toNat := after_failure_threshold
  generalize hb : after failure_threshold cooldown past = b at happend hcooldown hthreshold ⊢
  simp only [happend]
  refine ⟨?_, ?_, ?_, fun t => ⟨rfl, rfl⟩, ?_, ?_⟩
  · intro between t₁ t₂ horder hno hopen hasked₁ hasked₂
    obtain ⟨s, hs⟩ := BreakerState.exists_since hopen
    have hprobe : (b.perform (.canExecute t₁)).state.since? = some t₁ := by
      rw [perform, canExecute_probe hs hasked₁, BreakerState.since?]
    obtain ⟨hbetween, hlater⟩ := horder.tail
    rw [performAll_cons] at hasked₂
    have hwaited := performAll_waited hno hbetween hprobe
      (fun op hop => hlater op (List.mem_append_left _ hop)) hasked₂
    rwa [perform_cooldown, hcooldown] at hwaited
  · intro between t₀ t horder hno hopened hasked
    have hsince : (b.perform (.recordFailure t₀)).state.since? = some t₀ := by
      rw [performAll_cons] at hopened
      rw [← BreakerState.since?, ← hopened]
      rfl
    obtain ⟨hbetween, hlater⟩ := horder.tail
    rw [performAll_cons] at hasked
    have hwaited := performAll_waited hno hbetween hsince
      (fun op hop => hlater op (List.mem_append_left _ hop)) hasked
    rwa [perform_cooldown, hcooldown] at hwaited
  · intro t hprobe
    rw [performAll_cons, perform, recordFailureWrapping, if_pos (Or.inl hprobe)]
    rfl
  · intro further hno hclosed hzero
    have hstart : b.Counted 0 :=
      ⟨fun _ => ⟨hzero, Or.inl rfl⟩, fun hopen => absurd hclosed hopen⟩
    have hcap : b.failure_threshold < 2 ^ 32 := by
      rw [hthreshold]
      exact failure_threshold.toNat_lt
    have hcounted := (hstart.performAll hcap hno).closed_iff
    rwa [performAll_failure_threshold, hthreshold, zero_add] at hcounted
  · intro quiet latest t hpast hno hheld hlate
    apply canExecute_true
    intro s hs
    have hstart := performAll_quiet hno hheld hs
    rw [← hb] at hstart
    have hle := since_le (b := new failure_threshold.toNat cooldown) (by rintro _ ⟨⟩) hpast s hstart
    rw [performAll_cooldown, hcooldown]
    exact (add_le_add_left hle cooldown).trans hlate

/-- A breaker of threshold 2 lets a probe through 59 after it was opened, and the next one 50 after
    that. -/
theorem probes_apart : (1 : Int) + 50 ≤ 60 ∧ (60 : Int) + 50 ≤ 110 := by
  obtain ⟨-, hopened, -⟩ := breaker_runs 2 50 [.recordFailure 0]
  obtain ⟨hprobes, -⟩ := breaker_runs 2 50 [.recordFailure 0, .recordFailure 1]
  have hlate : InOrder [.recordFailure 0, .recordFailure 1, .canExecute 60, .canExecute 61,
      .canExecute 110] := by
    simp only [InOrder, List.pairwise_cons]
    decide
  have hearly : InOrder [.recordFailure 0, .recordFailure 1, .canExecute 60] := by
    simp only [InOrder, List.pairwise_cons]
    decide
  constructor
  · exact hopened [] 1 60 hearly (List.forall_mem_nil _) (by decide) (by decide)
  · exact hprobes [.canExecute 61] 60 110 hlate (by simp [NoSuccess, Operation.isSuccess])
      (by decide) (by decide) (by decide)

end DianService
