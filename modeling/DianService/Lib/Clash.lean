import Mathlib.Data.List.Basic

/-
  Lists that differ whatever follows them: neither is the beginning of the other. An encoder that
  only ever appends cannot repair such a difference.
-/

namespace DianService.Lib

variable {α : Type}

def Clash (u v : List α) : Prop := ∀ x y, u ++ x ≠ v ++ y

theorem Clash.ne {u v : List α} (h : Clash u v) : u ≠ v := by
  intro heq
  exact h [] [] (by rw [heq])

/-- What follows does not matter. -/
theorem Clash.append {u v : List α} (h : Clash u v) (x y : List α) : Clash (u ++ x) (v ++ y) := by
  intro x' y' heq
  rw [List.append_assoc, List.append_assoc] at heq
  exact h _ _ heq

theorem clash_append_left (w : List α) {u v : List α} : Clash (w ++ u) (w ++ v) ↔ Clash u v := by
  unfold Clash
  simp only [List.append_assoc, ne_eq, List.append_cancel_left_eq]

theorem clash_of_head {a b : α} (h : a ≠ b) (u v : List α) : Clash (a :: u) (b :: v) := by
  intro x y heq
  exact h (List.cons_eq_cons.mp heq).1

/-- Names of which none contains the mark that ends both. -/
theorem clash_of_names {mark : α} {k l : List α} (hk : mark ∉ k) (hl : mark ∉ l) (hne : k ≠ l)
    (u v : List α) : Clash (k ++ mark :: u) (l ++ mark :: v) := by
  induction k generalizing l with
  | nil =>
      cases l with
      | nil => exact absurd rfl hne
      | cons b l => exact clash_of_head (List.ne_of_not_mem_cons hl) _ _
  | cons a k ih =>
      cases l with
      | nil => exact clash_of_head (List.ne_of_not_mem_cons hk).symm _ _
      | cons b l =>
          by_cases hab : a = b
          · rw [hab]
            refine (clash_append_left [b]).mpr ?_
            exact ih (List.not_mem_of_not_mem_cons hk) (List.not_mem_of_not_mem_cons hl)
              fun h => hne (by rw [hab, h])
          · exact clash_of_head hab _ _

end DianService.Lib
