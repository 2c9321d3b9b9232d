import Mathlib.Order.Basic

/-
  Functions that return a value or an error, or panic. `Panics` and `Returns` go through the
  steps of such a function.
-/

namespace DianService.Lib

/-- `none` is a panic. -/
abbrev Checked (ε : Type) := ExceptT ε Option

namespace Checked

variable {ε α β : Type}

def Panics (x : Checked ε α) : Prop := x.run = none

def Returns (x : Checked ε α) (a : α) : Prop := x.run = some (.ok a)

variable {x : Checked ε α} {f : α → Checked ε β} {a : α} {b : β}

theorem Returns.unique {a' : α} (h : Returns x a) (h' : Returns x a') : a = a' := by
  unfold Returns at h h'
  rw [h] at h'
  cases h'
  rfl

@[simp] theorem panics_pure : ¬ Panics (pure a : Checked ε α) := by
  intro h
  cases h

@[simp] theorem returns_pure {a' : α} : Returns (pure a : Checked ε α) a' ↔ a = a' := by
  constructor
  · intro h
    cases h
    rfl
  · rintro rfl
    rfl

@[simp] theorem panics_throw {e : ε} : ¬ Panics (throw e : Checked ε α) := by
  intro h
  cases h

@[simp] theorem returns_throw {e : ε} : ¬ Returns (throw e : Checked ε α) a := by
  intro h
  cases h

theorem run_bind (x : Checked ε α) (f : α → Checked ε β) :
    (x >>= f).run = x.run.bind fun r => match r with
      | .ok a => (f a).run
      | .error e => some (.error e) := by
  show (x.run.bind (ExceptT.bindCont f) : Option (Except ε β)) = _
  refine congrArg (Option.bind x.run) (funext fun r => ?_)
  cases r <;> rfl

/-- A sequence panics in its first part or, where that returns, in the rest. -/
@[simp] theorem panics_bind : Panics (x >>= f) ↔ Panics x ∨ ∃ a, Returns x a ∧ Panics (f a) := by
  unfold Panics Returns
  rw [run_bind]
  cases x.run with
  | none => simp
  | some r => cases r <;> simp

@[simp] theorem returns_bind : Returns (x >>= f) b ↔ ∃ a, Returns x a ∧ Returns (f a) b := by
  unfold Returns
  rw [run_bind]
  cases x.run with
  | none => simp
  | some r => cases r <;> simp

@[simp] theorem panics_map {g : α → β} : Panics (g <$> x) ↔ Panics x := by
  rw [← bind_pure_comp, panics_bind]
  simp

@[simp] theorem returns_map {g : α → β} : Returns (g <$> x) b ↔ ∃ a, Returns x a ∧ g a = b := by
  rw [← bind_pure_comp, returns_bind]
  simp

/-! ### Steps that do not panic, and steps that do not fail -/

@[simp] theorem panics_except {r : Except ε α} : ¬ Panics (liftM r : Checked ε α) := by
  intro h
  cases h

@[simp] theorem returns_except {r : Except ε α} : Returns (liftM r : Checked ε α) a ↔ r = .ok a := by
  constructor
  · intro h
    cases h
    rfl
  · rintro rfl
    rfl

@[simp] theorem panics_option {r : Option α} : Panics (liftM r : Checked ε α) ↔ r = none := by
  cases r with
  | none => exact iff_of_true rfl rfl
  | some a => exact iff_of_false (fun h => by cases h) (Option.some_ne_none a)

@[simp] theorem returns_option {r : Option α} : Returns (liftM r : Checked ε α) a ↔ r = some a := by
  cases r with
  | none => exact iff_of_false (fun h => by cases h) (fun h => by cases h)
  | some b =>
      constructor
      · intro h
        cases h
        rfl
      · rintro ⟨⟩
        rfl

end Checked

end DianService.Lib
