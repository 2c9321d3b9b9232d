import Mathlib.Data.List.Basic

/-
  Operations that may end early. An `EStateM` operation that ends with an error keeps the state
  it reached, so "all or nothing" is a property to prove, not one of the monad. `Ensures` is the
  rule for it: what holds of the value and the state, and what of the error and the state.

  `Tx` is such an operation on a database connection. Its statements work on the rows its open
  transaction sees; only `commit` makes them the committed ones; any call may fail. What is left
  of the operation is what it committed (`transact`): a transaction that is open when the
  operation ends is dropped.
-/

namespace DianService.Lib

variable {σ ε α β : Type}

/-- Run from `s`, the operation ends with a value that meets `Q` or an error that meets `E`; both
    see the state it leaves. -/
def Ensures (p : EStateM ε σ α) (s : σ) (Q : α → σ → Prop) (E : ε → σ → Prop) : Prop :=
  match p s with
  | .ok a s' => Q a s'
  | .error e s' => E e s'

section Ensures

variable {p : EStateM ε σ α} {f : α → EStateM ε σ β} {s : σ} {Q : α → σ → Prop}
  {R : β → σ → Prop} {E : ε → σ → Prop}

theorem ensures_pure {a : α} (h : Q a s) : Ensures (pure a : EStateM ε σ α) s Q E := h

theorem ensures_throw {e : ε} (h : E e s) : Ensures (throw e : EStateM ε σ α) s Q E := h

theorem get_bind_run (f : σ → EStateM ε σ β) : (get >>= f) s = f s s := rfl

theorem modify_bind_run (g : σ → σ) (p : EStateM ε σ β) :
    (modify g >>= fun _ => p) s = p (g s) := rfl

theorem bind_ok {a : α} {s' : σ} (h : p s = .ok a s') : (p >>= f) s = f a s' := by
  simp only [bind, EStateM.bind, h]

theorem bind_error {e : ε} {s' : σ} (h : p s = .error e s') : (p >>= f) s = .error e s' := by
  simp only [bind, EStateM.bind, h]

theorem ensures_bind (h : Ensures p s (fun a s' => Ensures (f a) s' R E) E) :
    Ensures (p >>= f) s R E := by
  unfold Ensures at h ⊢
  cases hp : p s with
  | ok a s' =>
      rw [bind_ok hp]
      rw [hp] at h
      exact h
  | error e s' =>
      rw [bind_error hp]
      rw [hp] at h
      exact h

end Ensures

/-! ## Transactions -/

/-- A connection: the committed rows, the rows its transaction sees, and how its next calls end:
    `some e` is a call that fails with `e`. -/
structure Session (σ ε : Type) where
  committed : σ
  work : σ
  faults : List (Option ε)

abbrev Tx (σ ε : Type) : Type → Type := EStateM ε (Session σ ε)

namespace Tx

/-- The server answers the next call, or the call fails. -/
def answered : Tx σ ε Unit := fun s =>
  match s.faults with
  | [] => .ok () s
  | none :: faults => .ok () { s with faults := faults }
  | some e :: faults => .error e { s with faults := faults }

def begin : Tx σ ε Unit := do
  answered
  modify fun s => { s with work := s.committed }

/-- The effect of a statement on the rows the transaction sees. -/
def step (statement : σ → Except ε (σ × α)) : Tx σ ε α := fun s =>
  match statement s.work with
  | .error e => .error e s
  | .ok (work, a) => .ok a { s with work := work }

/-- One statement. -/
def exec (statement : σ → Except ε (σ × α)) : Tx σ ε α := do
  answered
  step statement

/-- A statement that only reads. -/
def query (read : σ → α) : Tx σ ε α := exec fun rows => .ok (rows, read rows)

def commit : Tx σ ε Unit := do
  answered
  modify fun s => { s with committed := s.work }

def rollback : Tx σ ε Unit := do
  answered
  modify fun s => { s with work := s.committed }

/-- The answer of an operation, and the rows once it has ended. -/
def transact (p : Tx σ ε α) (rows : σ) (faults : List (Option ε)) : Except ε α × σ :=
  match p ⟨rows, rows, faults⟩ with
  | .ok a s => (.ok a, s.committed)
  | .error e s => (.error e, s.committed)

/-- What an operation ensures whichever of its calls fail: `Q` sees the committed rows and those
    of the transaction, `E` the committed rows. -/
def Holds (p : Tx σ ε α) (committed work : σ) (Q : α → σ → σ → Prop) (E : ε → σ → Prop) : Prop :=
  ∀ faults, Ensures p ⟨committed, work, faults⟩ (fun a s => Q a s.committed s.work)
    fun e s => E e s.committed

/-! ### Runs in which every call is answered -/

section Answered

variable {c w : σ} {p : Tx σ ε α} {f : α → Tx σ ε β}

@[simp] theorem begin_run : (begin : Tx σ ε Unit) ⟨c, w, []⟩ = .ok () ⟨c, c, []⟩ := rfl

@[simp] theorem commit_run : (commit : Tx σ ε Unit) ⟨c, w, []⟩ = .ok () ⟨w, w, []⟩ := rfl

@[simp] theorem rollback_run : (rollback : Tx σ ε Unit) ⟨c, w, []⟩ = .ok () ⟨c, c, []⟩ := rfl

@[simp] theorem query_run (read : σ → α) :
    (query read : Tx σ ε α) ⟨c, w, []⟩ = .ok (read w) ⟨c, w, []⟩ := rfl

theorem exec_run {statement : σ → Except ε (σ × α)} {w' : σ} {a : α}
    (h : statement w = .ok (w', a)) : exec statement ⟨c, w, []⟩ = .ok a ⟨c, w', []⟩ := by
  show step statement ⟨c, w, []⟩ = _
  rw [step, h]

theorem exec_run_error {statement : σ → Except ε (σ × α)} {e : ε} (h : statement w = .error e) :
    exec statement ⟨c, w, []⟩ = .error e ⟨c, w, []⟩ := by
  show step statement ⟨c, w, []⟩ = _
  rw [step, h]

end Answered

/-! ### Rules -/

section Rules

variable {p : Tx σ ε α} {f : α → Tx σ ε β} {c w : σ} {Q : α → σ → σ → Prop}
  {R : β → σ → σ → Prop} {E : ε → σ → Prop}

theorem holds_pure {a : α} (h : Q a c w) : Holds (pure a : Tx σ ε α) c w Q E :=
  fun _ => ensures_pure h

theorem holds_throw {e : ε} (h : E e c) : Holds (throw e : Tx σ ε α) c w Q E :=
  fun _ => ensures_throw h

theorem holds_bind (h : Holds p c w (fun a c' w' => Holds (f a) c' w' R E) E) :
    Holds (p >>= f) c w R E := by
  intro faults
  refine ensures_bind ?_
  have hp := h faults
  unfold Ensures at hp ⊢
  cases hrun : p ⟨c, w, faults⟩ with
  | ok a s =>
      rw [hrun] at hp
      exact hp s.faults
  | error e s =>
      rw [hrun] at hp
      exact hp

/-- Every call may fail, and else goes on. -/
theorem holds_answered {Q : Unit → σ → σ → Prop} (hE : ∀ e, E e c) (h : Q () c w) :
    Holds (answered : Tx σ ε Unit) c w Q E := by
  intro faults
  unfold Ensures answered
  cases faults with
  | nil => exact h
  | cons fault faults =>
      cases fault with
      | none => exact h
      | some e => exact hE e

theorem holds_begin {Q : Unit → σ → σ → Prop} (hE : ∀ e, E e c) (h : Q () c c) :
    Holds (begin : Tx σ ε Unit) c w Q E :=
  holds_bind (holds_answered hE fun _ => h)

theorem holds_commit {Q : Unit → σ → σ → Prop} (hE : ∀ e, E e c) (h : Q () w w) :
    Holds (commit : Tx σ ε Unit) c w Q E :=
  holds_bind (holds_answered hE fun _ => h)

theorem holds_rollback {Q : Unit → σ → σ → Prop} (hE : ∀ e, E e c) (h : Q () c c) :
    Holds (rollback : Tx σ ε Unit) c w Q E :=
  holds_bind (holds_answered hE fun _ => h)

theorem holds_exec {statement : σ → Except ε (σ × α)} (hE : ∀ e, E e c)
    (h : ∀ w' a, statement w = .ok (w', a) → Q a c w') :
    Holds (exec statement) c w Q E := by
  refine holds_bind (holds_answered hE fun faults => ?_)
  unfold Ensures step
  cases hs : statement w with
  | error e => exact hE e
  | ok wa => exact h wa.1 wa.2 hs

theorem holds_query {read : σ → α} (hE : ∀ e, E e c) (h : Q (read w) c w) :
    Holds (query read : Tx σ ε α) c w Q E := by
  refine holds_exec hE fun w' a heq => ?_
  cases heq
  exact h

/-- What an operation ensures, its end shows. -/
theorem transact_of_holds {rows : σ} {P : Except ε α × σ → Prop}
    (h : Holds p rows rows (fun a c _ => P (.ok a, c)) fun e c => P (.error e, c))
    (faults : List (Option ε)) : P (transact p rows faults) := by
  have hp := h faults
  unfold Ensures at hp
  unfold transact
  cases hrun : p ⟨rows, rows, faults⟩ with
  | ok a s =>
      rw [hrun] at hp
      exact hp
  | error e s =>
      rw [hrun] at hp
      exact hp

end Rules

end Tx

end DianService.Lib
