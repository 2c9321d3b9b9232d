import Mathlib.Data.List.Basic

/-
  Isolation of the domains that share a service. A call belongs to a domain and gets an answer;
  `view A` leaves of a state what is of the domain `A`. If a call of `A` does to the view what it
  does to the state, and a call of any other domain leaves the view, then the calls of another
  domain can be taken out of a run: `A` gets the same answers and ends with the same view.

  `ok calls s` is what a run of `calls` from `s` is promised.
-/

namespace DianService.Lib

structure Service (σ κ α δ : Type) where
  call : κ → σ → α × σ
  domain : κ → δ

namespace Service

variable {σ κ α δ : Type} (S : Service σ κ α δ)

/-- The answers of a run, each with its domain, and the state it ends in. -/
def run : List κ → σ → List (δ × α) × σ
  | [], s => ([], s)
  | c :: calls, s =>
      let first := S.call c s
      let rest := run calls first.2
      ((S.domain c, first.1) :: rest.1, rest.2)

theorem run_cons (c : κ) (calls : List κ) (s : σ) :
    S.run (c :: calls) s = ((S.domain c, (S.call c s).1) :: (S.run calls (S.call c s).2).1,
      (S.run calls (S.call c s).2).2) := rfl

variable [DecidableEq δ]

/-- The answers that `A` gets. -/
def answersTo (A : δ) (answers : List (δ × α)) : List α :=
  (answers.filter fun a => a.1 = A).map Prod.snd

/-- The run without the calls of `B`. -/
def without (B : δ) (calls : List κ) : List κ := calls.filter fun c => S.domain c ≠ B

def only (A : δ) (calls : List κ) : List κ := calls.filter fun c => S.domain c = A

theorem only_without {A B : δ} (h : A ≠ B) (calls : List κ) :
    S.only A (S.without B calls) = S.only A calls := by
  unfold only without
  rw [List.filter_filter]
  refine List.filter_congr fun c _ => ?_
  by_cases hc : S.domain c = A
  · simp [hc, h]
  · simp [hc]

structure Separates (view : δ → σ → σ) (ok : List κ → σ → Prop) : Prop where
  sublist : ∀ {calls calls' s}, calls'.Sublist calls → ok calls s → ok calls' s
  step : ∀ {c calls s}, ok (c :: calls) s → ok calls (S.call c s).2
  own : ∀ {c calls s}, ok (c :: calls) s → S.call c (view (S.domain c) s) =
    ((S.call c s).1, view (S.domain c) (S.call c s).2)
  other : ∀ {c calls s A}, ok (c :: calls) s → S.domain c ≠ A → view A (S.call c s).2 = view A s

variable {S} {view : δ → σ → σ} {ok : List κ → σ → Prop}

/-- What `A` sees of a run is the run of its own calls on its own view. -/
theorem Separates.run_view (h : S.Separates view ok) (A : δ) {calls : List κ} {s : σ}
    (hok : ok calls s) :
    answersTo A (S.run calls s).1 = answersTo A (S.run (S.only A calls) (view A s)).1 ∧
      view A (S.run calls s).2 = (S.run (S.only A calls) (view A s)).2 := by
  induction calls generalizing s with
  | nil => exact ⟨rfl, rfl⟩
  | cons c calls ih =>
      obtain ⟨hanswers, hview⟩ := ih (h.step hok)
      by_cases hc : S.domain c = A
      · have hown := h.own hok
        rw [hc] at hown
        have honly : S.only A (c :: calls) = c :: S.only A calls :=
          List.filter_cons_of_pos (by simpa using hc)
        rw [honly, run_cons, run_cons, hown, hc]
        refine ⟨?_, hview⟩
        unfold answersTo
        rw [List.filter_cons_of_pos (by simp), List.filter_cons_of_pos (by simp), List.map_cons,
          List.map_cons]
        exact congrArg _ hanswers
      · have honly : S.only A (c :: calls) = S.only A calls :=
          List.filter_cons_of_neg (by simpa using hc)
        rw [h.other hok hc] at hanswers hview
        rw [honly, run_cons, ← hanswers]
        refine ⟨?_, hview⟩
        unfold answersTo
        rw [List.filter_cons_of_neg (by simpa using hc)]

/-- Without the calls of `B` the answers of `A` and what is of `A` stay what they are. -/
theorem Separates.isolated (h : S.Separates view ok) {A B : δ} (hne : A ≠ B) {calls : List κ}
    {s : σ} (hok : ok calls s) :
    answersTo A (S.run (S.without B calls) s).1 = answersTo A (S.run calls s).1 ∧
      view A (S.run (S.without B calls) s).2 = view A (S.run calls s).2 := by
  have hall := h.run_view A hok
  have hwithout := h.run_view A (h.sublist List.filter_sublist hok : ok (S.without B calls) s)
  rw [S.only_without hne] at hwithout
  exact ⟨hwithout.1.trans hall.1.symm, hwithout.2.trans hall.2.symm⟩

end Service

end DianService.Lib
