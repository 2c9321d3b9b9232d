import DianService.Lib.Prog

/-
  Programs served by an environment with a state. `answers s c r s'` says that the environment,
  in the state `s`, may answer the call `c` with `r` and be in `s'` then. `Ends` is a run of a
  program to its end; `wpIn` is the weakest precondition of a program over that state, with the
  rules that `wp` has over exchanges. A program whose calls all keep a relation between states
  keeps it as a whole (`wpIn_of_wp`).
-/

namespace DianService.Lib.Prog

variable {Call : Type} {Reply : Call → Type} {σ α β ε : Type}

/-- The run of a program from `s` that ends with the value `a` in `s'`. -/
inductive Ends (answers : σ → (c : Call) → Reply c → σ → Prop) :
    Prog Call Reply α → σ → α → σ → Prop where
  | done {a : α} {s : σ} : Ends answers (.done a) s a s
  | call {c : Call} {k : Reply c → Prog Call Reply α} {r : Reply c} {a : α} {s s' s'' : σ} :
      answers s c r s' → Ends answers (k r) s' a s'' → Ends answers (.call c k) s a s''

/-- Every end of a run from `s` meets `Q`. -/
def wpIn (answers : σ → (c : Call) → Reply c → σ → Prop) (Q : σ → α → Prop) :
    σ → Prog Call Reply α → Prop
  | s, done a => Q s a
  | s, call c k => ∀ r s', answers s c r s' → wpIn answers Q s' (k r)

variable {answers : σ → (c : Call) → Reply c → σ → Prop} {Q Q' : σ → α → Prop} {s s' : σ}

theorem end_of_wpIn {p : Prog Call Reply α} {a : α} (h : wpIn answers Q s p)
    (hend : Ends answers p s a s') : Q s' a := by
  induction hend with
  | done => exact h
  | call hanswer _ ih => exact ih (h _ _ hanswer)

@[simp] theorem wpIn_done (a : α) :
    wpIn answers Q s (done a : Prog Call Reply α) ↔ Q s a := Iff.rfl

@[simp] theorem wpIn_pure (a : α) :
    wpIn answers Q s (pure a : Prog Call Reply α) ↔ Q s a := Iff.rfl

@[simp] theorem wpIn_request (c : Call) {Q : σ → Reply c → Prop} :
    wpIn answers Q s (request c) ↔ ∀ r s', answers s c r s' → Q s' r := Iff.rfl

@[simp] theorem wpIn_bind (p : Prog Call Reply β) (f : β → Prog Call Reply α) :
    wpIn answers Q s (p >>= f) ↔ wpIn answers (fun s b => wpIn answers Q s (f b)) s p := by
  induction p generalizing s with
  | done b => exact Iff.rfl
  | call c k ih =>
      rw [bind_call]
      simp only [wpIn]
      exact forall_congr' fun r => forall_congr' fun s' => forall_congr' fun _ => ih r

theorem wpIn_mono {p : Prog Call Reply α} (hQ : ∀ s a, Q s a → Q' s a)
    (h : wpIn answers Q s p) : wpIn answers Q' s p := by
  induction p generalizing s with
  | done a => exact hQ _ _ h
  | call c k ih => exact fun r s' hanswer => ih r (h r s' hanswer)

/-- What the calls of a program keep, the program keeps. -/
theorem wpIn_of_wp {P : Call → Prop} {t : Trace Call Reply} {p : Prog Call Reply α}
    {keeps : σ → σ → Prop} (hrefl : ∀ s, keeps s s)
    (htrans : ∀ s s' s'', keeps s s' → keeps s' s'' → keeps s s'')
    (hstep : ∀ s c r s', P c → answers s c r s' → keeps s s')
    (h : wp (fun _ c => P c) (fun _ _ => True) t p) (hQ : ∀ s' a, keeps s s' → Q s' a) :
    wpIn answers Q s p := by
  induction p generalizing s t with
  | done a => exact hQ s a (hrefl s)
  | call c k ih =>
      intro r s' hanswer
      refine ih r (h.2 r) fun s'' a hkeeps => hQ s'' a ?_
      exact htrans s s' s'' (hstep s c r s' h.1 hanswer) hkeeps

/-! ## Programs that may throw -/

@[simp] theorem wpIn_run_bind (x : ExceptT ε (Prog Call Reply) β)
    (f : β → ExceptT ε (Prog Call Reply) α) {Q : σ → Except ε α → Prop} :
    wpIn answers Q s (x >>= f).run ↔
      wpIn answers (fun s r => match r with
        | .ok b => wpIn answers Q s (f b).run
        | .error e => Q s (.error e)) s x.run := by
  show wpIn answers Q s ((x.run : Prog Call Reply _) >>= ExceptT.bindCont f) ↔ _
  rw [wpIn_bind]
  have hcont : ∀ s (r : Except ε β), wpIn answers Q s (ExceptT.bindCont f r) ↔
      (match r with | .ok b => wpIn answers Q s (f b).run | .error e => Q s (.error e)) := by
    intro s r
    cases r <;> exact Iff.rfl
  exact iff_of_eq (congrArg (fun R => wpIn answers R s x.run)
    (funext fun s => funext fun r => propext (hcont s r)))

@[simp] theorem wpIn_run_pure (a : α) {Q : σ → Except ε α → Prop} :
    wpIn answers Q s (pure a : ExceptT ε (Prog Call Reply) α).run ↔ Q s (.ok a) := Iff.rfl

@[simp] theorem wpIn_run_mk (p : Prog Call Reply (Except ε α)) {Q : σ → Except ε α → Prop} :
    wpIn answers Q s (ExceptT.mk p).run ↔ wpIn answers Q s p := Iff.rfl

/-- The normal form of `ExceptT.lift`. -/
@[simp] theorem wpIn_map_ok (p : Prog Call Reply α) {Q : σ → Except ε α → Prop} :
    wpIn answers Q s (Except.ok <$> p) ↔ wpIn answers (fun s a => Q s (.ok a)) s p := by
  rw [show (Except.ok <$> p : Prog Call Reply (Except ε α)) = p >>= fun a => pure (.ok a) from rfl,
    wpIn_bind]
  simp

end DianService.Lib.Prog
