/-
  Machines with a partial step function: runs, states reached under a discipline on the
  steps, and the two induction rules the development rests on.

  `M.step s a = none` means that `a` is not enabled in `s`. A *discipline* `C` says which
  enabled steps a run may take: `M.ReachableBy C s` is a run every step of which meets `C`.
  `M.Reachable` is the run under no discipline. `invariant` proves a property of every state
  reached, `stepwise` a property of every step taken.
-/

namespace DianService.Lib

structure Machine (σ α : Type) where
  start : σ → Prop
  step : σ → α → Option σ

namespace Machine

variable {σ α : Type} (M : Machine σ α) {C D : σ → α → Prop}

inductive ReachableBy (C : σ → α → Prop) : σ → Prop where
  | start {s : σ} : M.start s → ReachableBy C s
  | step {s s' : σ} {a : α} : ReachableBy C s → C s a → M.step s a = some s' → ReachableBy C s'

/-- Reached by a run under no discipline. -/
abbrev Reachable : σ → Prop := M.ReachableBy fun _ _ => True

/-- Take the labels of a list in order. -/
def run : σ → List α → Option σ
  | s, [] => some s
  | s, a :: as => (M.step s a).bind fun s' => run s' as

/-- Every step of the run that a list of labels takes from `s` meets `C`. -/
def Meets (C : σ → α → Prop) : σ → List α → Prop
  | _, [] => True
  | s, a :: as =>
      match M.step s a with
      | none => False
      | some s' => C s a ∧ Meets C s' as

instance decidableMeets [∀ s a, Decidable (C s a)] : ∀ s as, Decidable (M.Meets C s as)
  | _, [] => isTrue trivial
  | s, a :: as => by
      unfold Meets
      cases M.step s a with
      | none => exact isFalse id
      | some s' => exact @instDecidableAnd _ _ _ (decidableMeets s' as)

variable {M}

theorem ReachableBy.mono (h : ∀ s a, C s a → D s a) {s : σ} (hs : M.ReachableBy C s) :
    M.ReachableBy D s := by
  induction hs with
  | start h₀ => exact .start h₀
  | step _ hc hstep ih => exact .step ih (h _ _ hc) hstep

theorem ReachableBy.reachable {s : σ} (hs : M.ReachableBy C s) : M.Reachable s :=
  hs.mono fun _ _ _ => trivial

/-- What holds at the start and is kept by every disciplined step holds of every state
    reached. The step may use that the state before it was reached. -/
theorem ReachableBy.invariant {I : σ → Prop} (h₀ : ∀ s, M.start s → I s)
    (hstep : ∀ s a s', M.ReachableBy C s → I s → C s a → M.step s a = some s' → I s')
    {s : σ} (hs : M.ReachableBy C s) : I s := by
  induction hs with
  | start h => exact h₀ _ h
  | step hr hc hs ih => exact hstep _ _ _ hr ih hc hs

/-- A run from a reached state whose steps meet the discipline ends in a reached state. -/
theorem ReachableBy.run {s s' : σ} {as : List α} (hs : M.ReachableBy C s) (hm : M.Meets C s as)
    (hrun : M.run s as = some s') : M.ReachableBy C s' := by
  induction as generalizing s with
  | nil =>
      simp only [Machine.run, Option.some.injEq] at hrun
      exact hrun ▸ hs
  | cons a as ih =>
      unfold Meets at hm
      unfold Machine.run at hrun
      cases hstep : M.step s a with
      | none => simp [hstep] at hm
      | some t =>
          simp only [hstep, Option.bind_some] at hm hrun
          exact ih (.step hs hm.1 hstep) hm.2 hrun

/-- A run all of whose labels meet the discipline in any state. -/
theorem meets_of_run {s s' : σ} {as : List α} (hC : ∀ s, ∀ a ∈ as, C s a)
    (hrun : M.run s as = some s') : M.Meets C s as := by
  induction as generalizing s with
  | nil => trivial
  | cons a as ih =>
      unfold Machine.run at hrun
      unfold Meets
      cases hstep : M.step s a with
      | none => simp [hstep] at hrun
      | some t =>
          simp only [hstep, Option.bind_some] at hrun ⊢
          exact ⟨hC s a List.mem_cons_self, ih (fun s b hb => hC s b (List.mem_cons_of_mem a hb)) hrun⟩

theorem Reachable.run {s s' : σ} {as : List α} (hs : M.Reachable s)
    (hrun : M.run s as = some s') : M.Reachable s' :=
  ReachableBy.run hs (meets_of_run (fun _ _ _ => trivial) hrun) hrun

/-- The state a trace of disciplined steps ends in. -/
theorem ReachableBy.get {s : σ} {as : List α} (h₀ : M.start s) (hm : M.Meets C s as)
    (h : (M.run s as).isSome) : M.ReachableBy C ((M.run s as).get h) :=
  (ReachableBy.start h₀).run hm (Option.some_get h).symm

theorem Reachable.get {s : σ} {as : List α} (h₀ : M.start s) (h : (M.run s as).isSome) :
    M.Reachable ((M.run s as).get h) :=
  ReachableBy.get h₀ (meets_of_run (fun _ _ _ => trivial) (Option.some_get h).symm) h

/-! ## Observed runs -/

section Observed

variable {γ : Type} (M)

/-- The machine beside a record of its steps that `note` keeps and no step reads. -/
def observed (γ₀ : γ) (note : σ → α → γ → γ) : Machine (σ × γ) α where
  start p := M.start p.1 ∧ p.2 = γ₀
  step p a := (M.step p.1 a).map fun s' => (s', note p.1 a p.2)

variable {M} {γ₀ : γ} {note : σ → α → γ → γ} {s s' : σ} {g g' : γ} {a : α}

theorem observed_step_eq_some :
    (M.observed γ₀ note).step (s, g) a = some (s', g') ↔
      M.step s a = some s' ∧ g' = note s a g := by
  unfold observed
  rw [Option.map_eq_some_iff]
  constructor
  · rintro ⟨t, ht, heq⟩
    cases heq
    exact ⟨ht, rfl⟩
  · rintro ⟨h, rfl⟩
    exact ⟨s', h, rfl⟩

/-- A run under observation is a run. -/
theorem ReachableBy.of_observed {p : σ × γ}
    (h : (M.observed γ₀ note).ReachableBy (fun p => C p.1) p) : M.ReachableBy C p.1 := by
  induction h with
  | start h₀ => exact .start h₀.1
  | step _ hc hstep ih => exact .step ih hc (observed_step_eq_some.mp hstep).1

/-- Every run can be observed. -/
theorem ReachableBy.observe (h : M.ReachableBy C s) :
    ∃ g, (M.observed γ₀ note).ReachableBy (fun p => C p.1) (s, g) := by
  induction h with
  | start h₀ => exact ⟨γ₀, .start ⟨h₀, rfl⟩⟩
  | @step s s' a _ hc hstep ih =>
      obtain ⟨g, hg⟩ := ih
      exact ⟨note s a g, .step hg hc (observed_step_eq_some.mpr ⟨hstep, rfl⟩)⟩

/-- The invariant rule for observed runs. -/
theorem ReachableBy.observed_invariant {I : σ → γ → Prop} (h₀ : ∀ s, M.start s → I s γ₀)
    (hstep : ∀ s g a s', M.ReachableBy C s → I s g → C s a → M.step s a = some s' →
      I s' (note s a g))
    (h : (M.observed γ₀ note).ReachableBy (fun p => C p.1) (s, g)) : I s g := by
  refine h.invariant (I := fun p => I p.1 p.2) ?_ ?_
  · rintro ⟨s, g⟩ ⟨hs, rfl⟩
    exact h₀ s hs
  · rintro ⟨s, g⟩ a ⟨s', g'⟩ hr hI hc h
    obtain ⟨hs, rfl⟩ := observed_step_eq_some.mp h
    exact hstep s g a s' hr.of_observed hI hc hs

end Observed

end Machine

end DianService.Lib
