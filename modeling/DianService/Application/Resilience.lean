import DianService.Domain.Models

/-
  Application: the circuit breaker of an environment (`resilience.rs`). `now` is the reading of
  `Instant::now()`; the mutex makes each operation one step.
-/

namespace DianService

inductive BreakerState where
  | closed
  | opened (since : Time)
  /-- A single probe was let through at the instant. -/
  | halfOpen (since : Time)
  deriving DecidableEq

structure CircuitBreaker where
  state : BreakerState
  failures : Nat
  failure_threshold : Nat
  cooldown : Int

namespace CircuitBreaker

def new (failure_threshold : Nat) (cooldown : Int) : CircuitBreaker :=
  ⟨.closed, 0, failure_threshold, cooldown⟩

/-- Whether a request may go out. The first one after the cooldown is the probe. -/
def canExecute (b : CircuitBreaker) (now : Time) : Bool × CircuitBreaker :=
  match b.state with
  | .closed => (true, b)
  | .opened since | .halfOpen since =>
      if b.cooldown ≤ now - since then (true, { b with state := .halfOpen now }) else (false, b)

def recordSuccess (b : CircuitBreaker) : CircuitBreaker := { b with state := .closed, failures := 0 }

def isHalfOpen : BreakerState → Bool
  | .halfOpen _ => true
  | _ => false

def recordFailure (b : CircuitBreaker) (now : Time) : CircuitBreaker :=
  if isHalfOpen b.state = true ∨ b.failure_threshold ≤ b.failures + 1 then
    { b with failures := b.failures + 1, state := .opened now }
  else { b with failures := b.failures + 1 }

/-- A breaker that lets nothing through is not closed. -/
theorem canExecute_false {b : CircuitBreaker} {now : Time} (h : (b.canExecute now).1 = false) :
    b.state ≠ .closed := by
  intro hclosed
  unfold canExecute at h
  rw [hclosed] at h
  cases h

/-- Asking closes no breaker and opens none. -/
theorem canExecute_closed {b : CircuitBreaker} {now : Time} (h : b.state = .closed) :
    (b.canExecute now).2.state = .closed := by
  unfold canExecute
  rw [h]
  exact h

end CircuitBreaker

/-- One breaker for each environment of the DIAN. -/
structure Breakers where
  habilitacion : CircuitBreaker
  produccion : CircuitBreaker

namespace Breakers

def new (failure_threshold : Nat) (cooldown : Int) : Breakers :=
  ⟨.new failure_threshold cooldown, .new failure_threshold cooldown⟩

def forEnvironment (b : Breakers) (is_hab : Bool) : CircuitBreaker :=
  if is_hab then b.habilitacion else b.produccion

def setEnvironment (b : Breakers) (is_hab : Bool) (breaker : CircuitBreaker) : Breakers :=
  if is_hab then { b with habilitacion := breaker } else { b with produccion := breaker }

@[simp] theorem forEnvironment_setEnvironment (b : Breakers) (is_hab : Bool)
    (breaker : CircuitBreaker) :
    (b.setEnvironment is_hab breaker).forEnvironment is_hab = breaker := by
  cases is_hab <;> rfl

theorem forEnvironment_setEnvironment_ne (b : Breakers) {e is_hab : Bool} (h : e ≠ is_hab)
    (breaker : CircuitBreaker) :
    (b.setEnvironment e breaker).forEnvironment is_hab = b.forEnvironment is_hab := by
  cases e <;> cases is_hab <;> first | rfl | exact absurd rfl h

end Breakers

end DianService
