import DianService.Domain.Models

/-
  Domain: the state machine of a document (`lifecycle.rs`), the events it notifies
  (`webhooks.rs`) and the numbering rule of a resolution (`numbering.rs`).
-/

namespace DianService

/-! ## Lifecycle -/

namespace DocumentStatus

/-- The statuses from which `self` may be reached. -/
def allowedPredecessors : DocumentStatus → List DocumentStatus
  | pending => [contingencyPending]
  | sentDian => [pending, contingencyPending]
  | dianAccepted => [pending, sentDian, contingencyPending]
  | dianRejected => [pending, sentDian, contingencyPending]
  | contingencyPending => [pending]
  | processingFailed => [pending, contingencyPending]
  | draft => []
  | contingencySent => []

def canTransitionTo (s next : DocumentStatus) : Bool := next.allowedPredecessors.contains s

def isTerminal : DocumentStatus → Bool
  | dianAccepted | dianRejected | processingFailed => true
  | _ => false

theorem not_canTransitionTo_of_isTerminal {s : DocumentStatus} (h : s.isTerminal = true)
    (t : DocumentStatus) : s.canTransitionTo t = false := by
  cases s <;> cases t <;> first | rfl | cases h

/-- A document that was sent to the DIAN leaves that status only for a verdict of the DIAN. -/
theorem canTransitionTo_of_sentDian {t : DocumentStatus} (h : sentDian.canTransitionTo t = true) :
    t = dianAccepted ∨ t = dianRejected := by
  cases t <;> simp_all [canTransitionTo, allowedPredecessors]

end DocumentStatus

/-- `webhooks::event_for`. -/
def eventFor : DocumentStatus → Option String
  | .dianAccepted => some "document.accepted"
  | .dianRejected => some "document.rejected"
  | .contingencyPending => some "document.contingency"
  | .processingFailed => some "document.failed"
  | _ => none

/-! ## Dates in messages -/

/-- Proleptic Gregorian date of a day counted from 1970-01-01. -/
def civilFromDays (days : Int) : Int × Int × Int :=
  let z := days + 719468
  let era := z / 146097
  let doe := z - era * 146097
  let yoe := (doe - doe / 1460 + doe / 36524 - doe / 146096) / 365
  let doy := doe - (365 * yoe + yoe / 4 - yoe / 100)
  let mp := (5 * doy + 2) / 153
  let d := doy - (153 * mp + 2) / 5 + 1
  let m := if mp < 10 then mp + 3 else mp - 9
  (yoe + era * 400 + if m ≤ 2 then 1 else 0, m, d)

def padLeft (n : Nat) (s : String) : String := "".pushn '0' (n - s.length) ++ s

/-- `date_naive()` in its `Display` form. -/
def dateNaive (t : Time) : String :=
  let (y, m, d) := civilFromDays (t / 86400000000)
  padLeft 4 (toString y) ++ "-" ++ padLeft 2 (toString m) ++ "-" ++ padLeft 2 (toString d)

example : dateNaive 1767225600000000 = "2026-01-01" := by decide +kernel

/-! ## Next number of a resolution -/

/-- `max(current_counter, from_number - 1) + 1` in `i32`. -/
def NumberingRange.next (range : NumberingRange) : Int :=
  wrap32 (max range.current_counter (wrap32 (range.from_number - 1)) + 1)

/-- `numbering::next_number`. -/
def nextNumber (range : NumberingRange) (requested : Option Int) (now : Time) :
    Except DomainError Int :=
  if now < range.valid_date_from ∨ now > range.valid_date_to then
    .error (.validation ("La resolucion de numeracion del prefijo '" ++ range.pfx ++
      "' no esta vigente (vigencia " ++ dateNaive range.valid_date_from ++ " a " ++
      dateNaive range.valid_date_to ++ ")"))
  else
    let next := range.next
    if next > range.to_number then
      .error (.validation ("El rango de numeracion del prefijo '" ++ range.pfx ++
        "' esta agotado (limite " ++ toString range.to_number ++ ")"))
    else
      match requested with
      | some number =>
          if number ≠ next then
            .error (.validation ("El numero " ++ toString number ++
              " no es el siguiente consecutivo del prefijo '" ++ range.pfx ++ "'; se esperaba " ++
              toString next))
          else .ok next
      | none => .ok next

theorem nextNumber_ok {range : NumberingRange} {requested : Option Int} {now : Time} {n : Int}
    (h : nextNumber range requested now = .ok n) :
    n = range.next ∧ n ≤ range.to_number ∧ (∀ r, requested = some r → r = n) ∧
      range.valid_date_from ≤ now ∧ now ≤ range.valid_date_to := by
  unfold nextNumber at h
  split at h
  · cases h
  · rename_i hval
    obtain ⟨hfrom, hto⟩ := not_or.mp hval
    dsimp only at h
    split at h
    · cases h
    · split at h
      · split at h
        · cases h
        · cases h
          refine ⟨rfl, by omega, ?_, not_lt.mp hfrom, not_lt.mp hto⟩
          rintro r ⟨⟩
          omega
      · cases h
        exact ⟨rfl, by omega, by simp, not_lt.mp hfrom, not_lt.mp hto⟩

/-- Every error of `next_number` is a `Validation`. -/
theorem nextNumber_error {range : NumberingRange} {requested : Option Int} {now : Time}
    {e : DomainError} (h : nextNumber range requested now = .error e) :
    ∃ m, e = .validation m := by
  unfold nextNumber at h
  split at h
  · cases h; exact ⟨_, rfl⟩
  · dsimp only at h
    split at h
    · cases h; exact ⟨_, rfl⟩
    · split at h
      · split at h
        · cases h; exact ⟨_, rfl⟩
        · cases h
      · cases h

/-- Within the `i32` range the next number is the exact one. -/
theorem NumberingRange.next_eq {range : NumberingRange} (hfrom : 1 ≤ range.from_number)
    (hfrom' : range.from_number < 2 ^ 31) (hc : -2 ^ 31 ≤ range.current_counter)
    (hc' : range.current_counter < 2 ^ 31 - 1) :
    range.next = max range.current_counter (range.from_number - 1) + 1 := by
  unfold NumberingRange.next
  have hf : InI32 (range.from_number - 1) := ⟨by omega, by omega⟩
  rw [wrap32_of_inI32 hf, wrap32_of_inI32]
  exact ⟨by omega, by omega⟩

/-- Past the largest `i32` the next number is the smallest one. -/
theorem NumberingRange.next_of_nonneg {range : NumberingRange} (hfrom : 1 ≤ range.from_number)
    (hfrom' : range.from_number < 2 ^ 31) (hc : -2 ^ 31 ≤ range.current_counter)
    (hc' : range.current_counter < 2 ^ 31) (h : 0 ≤ range.next) :
    range.next = max range.current_counter (range.from_number - 1) + 1 := by
  by_cases hlast : range.current_counter = 2 ^ 31 - 1
  · exfalso
    unfold NumberingRange.next at h
    have hf : InI32 (range.from_number - 1) := ⟨by omega, by omega⟩
    have hmax : max range.current_counter (range.from_number - 1) = 2 ^ 31 - 1 := by omega
    rw [wrap32_of_inI32 hf, hmax] at h
    exact absurd h (by decide)
  · exact NumberingRange.next_eq hfrom hfrom' hc (by omega)

end DianService
