/-
  Programs that call their environment: `Prog Call Reply α` either ends with a value or makes
  a call and goes on with whatever the environment replies. Nothing is assumed about the
  replies, so a property of a program holds against every environment.

  `wp P Q t p` is the weakest precondition of `p` after the exchanges `t`: every call it makes
  meets `P` (which sees the exchanges before the call) and every end meets `Q`. It is the
  rule for sequencing (`wp_bind`) that lets each helper of a program be described once.
  `Path p t q` says that `q` is what remains of `p` after the exchanges `t`: `wp_of_path`
  carries a `wp` fact to any point of a run in which `p` is interleaved with anything else.
-/

namespace DianService.Lib

inductive Prog (Call : Type) (Reply : Call → Type) (α : Type) : Type where
  | done (a : α)
  | call (c : Call) (k : Reply c → Prog Call Reply α)

/-- A call together with the reply it got. -/
structure Exchange (Call : Type) (Reply : Call → Type) : Type where
  call : Call
  reply : Reply call

namespace Prog

variable {Call : Type} {Reply : Call → Type} {α β ε : Type}

abbrev Trace (Call : Type) (Reply : Call → Type) := List (Exchange Call Reply)

protected def bind : Prog Call Reply α → (α → Prog Call Reply β) → Prog Call Reply β
  | done a, f => f a
  | call c k, f => call c fun r => (k r).bind f

instance : Monad (Prog Call Reply) where
  pure := done
  bind := Prog.bind

/-- Make one call and return its reply. -/
def request (c : Call) : Prog Call Reply (Reply c) := call c done

/-- The program is about to make a call. -/
def isCall : Prog Call Reply α → Bool
  | done _ => false
  | call _ _ => true

theorem bind_call (c : Call) (k : Reply c → Prog Call Reply α) (f : α → Prog Call Reply β) :
    (call c k >>= f) = call c fun r => k r >>= f := rfl

/-! ## Weakest preconditions -/

def wp (P : Trace Call Reply → Call → Prop) (Q : Trace Call Reply → α → Prop) :
    Trace Call Reply → Prog Call Reply α → Prop
  | t, done a => Q t a
  | t, call c k => P t c ∧ ∀ r, wp P Q (t ++ [⟨c, r⟩]) (k r)

variable {P : Trace Call Reply → Call → Prop} {Q Q' : Trace Call Reply → α → Prop}
  {t : Trace Call Reply}

@[simp] theorem wp_done (a : α) : wp P Q t (done a) ↔ Q t a := Iff.rfl

@[simp] theorem wp_pure (a : α) : wp P Q t (pure a : Prog Call Reply α) ↔ Q t a := Iff.rfl

@[simp] theorem wp_request (c : Call) {Q : Trace Call Reply → Reply c → Prop} :
    wp P Q t (request c) ↔ P t c ∧ ∀ r, Q (t ++ [⟨c, r⟩]) r := Iff.rfl

@[simp] theorem wp_bind (p : Prog Call Reply β) (f : β → Prog Call Reply α) :
    wp P Q t (p >>= f) ↔ wp P (fun t b => wp P Q t (f b)) t p := by
  induction p generalizing t with
  | done b => exact Iff.rfl
  | call c k ih =>
      rw [bind_call]
      simp only [wp]
      exact and_congr_right fun _ => forall_congr' fun r => ih r

theorem wp_mono {P' : Trace Call Reply → Call → Prop} {p : Prog Call Reply α}
    (hP : ∀ t c, P t c → P' t c) (hQ : ∀ t a, Q t a → Q' t a) (h : wp P Q t p) :
    wp P' Q' t p := by
  induction p generalizing t with
  | done a => exact hQ _ _ h
  | call c k ih => exact ⟨hP _ _ h.1, fun r => ih r (h.2 r)⟩

theorem wp_post {p : Prog Call Reply α} (h : wp P Q t p) (hQ : ∀ t a, Q t a → Q' t a) :
    wp P Q' t p :=
  wp_mono (fun _ _ => id) hQ h

theorem wp_and {p : Prog Call Reply α} (h : wp P Q t p) (h' : wp P Q' t p) :
    wp P (fun t a => Q t a ∧ Q' t a) t p := by
  induction p generalizing t with
  | done a => exact ⟨h, h'⟩
  | call c k ih => exact ⟨h.1, fun r => ih r (h.2 r) (h'.2 r)⟩

/-! ## Programs that may throw

  `ExceptT ε (Prog Call Reply)` is a program that may end early with an error. -/

@[simp] theorem wp_run_bind (x : ExceptT ε (Prog Call Reply) β)
    (f : β → ExceptT ε (Prog Call Reply) α) {Q : Trace Call Reply → Except ε α → Prop} :
    wp P Q t (x >>= f).run ↔
      wp P (fun t r => match r with
        | .ok b => wp P Q t (f b).run
        | .error e => Q t (.error e)) t x.run := by
  show wp P Q t ((x.run : Prog Call Reply _) >>= ExceptT.bindCont f) ↔ _
  rw [wp_bind]
  have e : ∀ t (r : Except ε β), wp P Q t (ExceptT.bindCont f r) ↔
      (match r with | .ok b => wp P Q t (f b).run | .error e => Q t (.error e)) := by
    intro t r
    cases r <;> exact Iff.rfl
  exact iff_of_eq (congrArg (fun R => wp P R t x.run) (funext fun t => funext fun r => propext (e t r)))

@[simp] theorem wp_run_pure (a : α) {Q : Trace Call Reply → Except ε α → Prop} :
    wp P Q t (pure a : ExceptT ε (Prog Call Reply) α).run ↔ Q t (.ok a) := Iff.rfl

@[simp] theorem wp_run_throw (e : ε) {Q : Trace Call Reply → Except ε α → Prop} :
    wp P Q t (throw e : ExceptT ε (Prog Call Reply) α).run ↔ Q t (.error e) := Iff.rfl

@[simp] theorem wp_run_mk (p : Prog Call Reply (Except ε α))
    {Q : Trace Call Reply → Except ε α → Prop} :
    wp P Q t (ExceptT.mk p).run ↔ wp P Q t p := Iff.rfl

/-- The normal form of `ExceptT.lift`. -/
@[simp] theorem wp_map_ok (p : Prog Call Reply α) {Q : Trace Call Reply → Except ε α → Prop} :
    wp P Q t (Except.ok <$> p) ↔ wp P (fun t a => Q t (.ok a)) t p := by
  rw [show (Except.ok <$> p : Prog Call Reply (Except ε α)) = p >>= fun a => pure (.ok a) from rfl,
    wp_bind]
  simp

/-! ## Where a run of the program stands -/

/-- `q` is what remains of `p` after the exchanges `t`. -/
inductive Path (p : Prog Call Reply α) : Trace Call Reply → Prog Call Reply α → Prop where
  | start : Path p [] p
  | reply {t : Trace Call Reply} {c : Call} {k : Reply c → Prog Call Reply α} (r : Reply c) :
      Path p t (call c k) → Path p (t ++ [⟨c, r⟩]) (k r)

theorem wp_of_path {p q : Prog Call Reply α} (h : wp P Q [] p) (hp : Path p t q) :
    wp P Q t q := by
  induction hp with
  | start => exact h
  | reply r _ ih => exact ih.2 r

/-- Every call a run makes meets `P`. -/
theorem call_of_path {p : Prog Call Reply α} {c : Call} {k : Reply c → Prog Call Reply α}
    (h : wp P Q [] p) (hp : Path p t (call c k)) : P t c :=
  (wp_of_path h hp).1

/-- Every end of a run meets `Q`. -/
theorem end_of_path {p : Prog Call Reply α} {a : α} (h : wp P Q [] p) (hp : Path p t (done a)) :
    Q t a :=
  wp_of_path h hp

/-- Where the run stood before an exchange that it made. -/
theorem Path.before {p q : Prog Call Reply α} {l m : Trace Call Reply} {e : Exchange Call Reply}
    (h : Path p t q) (ht : t = l ++ e :: m) : ∃ k, Path p l (call e.call k) := by
  induction h generalizing m with
  | start => simp at ht
  | @reply t c k r hp ih =>
      rcases List.eq_nil_or_concat m with rfl | ⟨m', x, rfl⟩
      · obtain ⟨rfl, he⟩ := List.append_inj' ht rfl
        cases he
        exact ⟨k, hp⟩
      · rw [List.concat_eq_append, ← List.cons_append, ← List.append_assoc] at ht
        exact ih (List.append_inj' ht rfl).1

/-- Every call a run has made met `P`. -/
theorem call_of_trace {p q : Prog Call Reply α} {l m : Trace Call Reply}
    {e : Exchange Call Reply} (h : wp P Q [] p) (hp : Path p t q) (ht : t = l ++ e :: m) :
    P l e.call := by
  obtain ⟨k, hk⟩ := hp.before ht
  exact call_of_path h hk

/-- A run all the way to its end: the exchanges `t` and the value returned. -/
def Runs (p : Prog Call Reply α) (t : Trace Call Reply) (a : α) : Prop := Path p t (done a)

/-- The run against an environment that answers every call by a fixed function. -/
def runWith (answer : ∀ c, Reply c) : Prog Call Reply α → Trace Call Reply × α
  | done a => ([], a)
  | call c k =>
      let rest := runWith answer (k (answer c))
      (⟨c, answer c⟩ :: rest.1, rest.2)

theorem Path.runWith {p q : Prog Call Reply α} (answer : ∀ c, Reply c) (h : Path p t q) :
    Path p (t ++ (q.runWith answer).1) (done (q.runWith answer).2) := by
  induction q generalizing t with
  | done a => simpa [Prog.runWith] using h
  | call c k ih => simpa [Prog.runWith] using ih (answer c) (h.reply (answer c))

theorem runs_runWith (p : Prog Call Reply α) (answer : ∀ c, Reply c) :
    Runs p (p.runWith answer).1 (p.runWith answer).2 :=
  (Path.start (p := p)).runWith answer

/-! ## Programs that make some calls only -/

def Only (C : Call → Prop) : Prog Call Reply α → Prop
  | done _ => True
  | call c k => C c ∧ ∀ r, Only C (k r)

section Only

variable {C : Call → Prop} {p : Prog Call Reply α}

theorem Only.bind {p : Prog Call Reply β} {f : β → Prog Call Reply α} (hp : Only C p)
    (hf : ∀ b, Only C (f b)) : Only C (p >>= f) := by
  induction p with
  | done b => exact hf b
  | call c k ih => exact ⟨hp.1, fun r => ih r (hp.2 r)⟩

theorem Only.run_bind {x : ExceptT ε (Prog Call Reply) β} {f : β → ExceptT ε (Prog Call Reply) α}
    (hx : Only C x.run) (hf : ∀ b, Only C (f b).run) : Only C (x >>= f).run := by
  refine Only.bind hx fun r => ?_
  cases r with
  | error e => trivial
  | ok b => exact hf b

theorem Only.run_lift {p : Prog Call Reply α} (hp : Only C p) :
    Only C (ExceptT.lift p : ExceptT ε (Prog Call Reply) α).run :=
  Only.bind (f := fun a => pure (Except.ok a)) hp fun _ => trivial

/-- The trace that the program adds to the one it starts after is a run of it. -/
theorem Only.wp_runs (h : Only C p) (hP : ∀ q c, C c → P (t ++ q) c) :
    wp P (fun t' a => ∃ q, t' = t ++ q ∧ Runs p q a ∧ ∀ e ∈ q, C e.call) t p := by
  have hgoes : ∀ (p' : Prog Call Reply α) (q : Trace Call Reply), Only C p' → Path p q p' →
      (∀ e ∈ q, C e.call) →
      wp P (fun t' a => ∃ q, t' = t ++ q ∧ Runs p q a ∧ ∀ e ∈ q, C e.call) (t ++ q) p' := by
    intro p'
    induction p' with
    | done a => exact fun q _ hpath hq => ⟨q, rfl, hpath, hq⟩
    | call c k ih =>
      refine fun q honly hpath hq => ⟨hP _ c honly.1, fun r => ?_⟩
      rw [List.append_assoc]
      refine ih r _ (honly.2 r) (hpath.reply r) fun e he => ?_
      rcases List.mem_append.mp he with he | he
      · exact hq e he
      · rw [List.mem_singleton.mp he]
        exact honly.1
  simpa using hgoes p [] h .start (List.forall_mem_nil _)

theorem Only.wp (h : Only C p) (hP : ∀ t c, C c → P t c) (hQ : ∀ t a, Q t a) : wp P Q t p :=
  wp_post (h.wp_runs fun q c => hP (t ++ q) c) fun t a _ => hQ t a

end Only

/-- The run in which every call is answered as a function answers it. -/
theorem Runs.runWith_eq {p : Prog Call Reply α} {a : α} (h : Runs p t a) {answer : ∀ c, Reply c}
    (ht : ∀ e ∈ t, e.reply = answer e.call) : p.runWith answer = (t, a) := by
  have hgoes : ∀ {q : Prog Call Reply α} {t : Trace Call Reply}, Path p t q →
      (∀ e ∈ t, e.reply = answer e.call) →
      p.runWith answer = (t ++ (q.runWith answer).1, (q.runWith answer).2) := by
    intro q t hpath
    induction hpath with
    | start => exact fun _ => rfl
    | reply r _ ih =>
      intro ht
      have hr : r = answer _ := ht _ (List.mem_append_right _ (List.mem_singleton_self _))
      rw [ih fun e he => ht e (List.mem_append_left _ he), hr, List.append_assoc]
      rfl
  rw [hgoes h ht]
  simp [Prog.runWith]

end Prog

end DianService.Lib
