import DianService.Store.Tables

/-
  Application: registering a numbering range, `AdminService::register_numbering_range` over
  `PgStore::add_numbering_range`. The insert runs in one transaction that holds the tenant row,
  so the overlap test and the insert are one step.
-/

namespace DianService

structure RegisterNumberingRange where
  document_type : String
  pfx : String
  from_number : Int
  to_number : Int
  technical_key : String
  valid_date_from : Time
  valid_date_to : Time
  last_issued_number : Option Int
  from_i32 : InI32 from_number
  to_i32 : InI32 to_number

/-- Two validity periods of the same tenant, type and prefix overlap. -/
def NumberingRange.overlaps (r s : NumberingRange) : Bool :=
  r.tenant_id = s.tenant_id ∧ r.document_type = s.document_type ∧ r.pfx = s.pfx ∧
    r.valid_date_from < s.valid_date_to ∧ s.valid_date_from < r.valid_date_to

/-- `PgStore::add_numbering_range`. -/
def Db.addNumberingRange (db : Db) (range : NumberingRange) (audit : AuditEntry) :
    Except DomainError Db :=
  if !(db.tenants.any fun t => t.id = range.tenant_id) then
    .error (.notFound ("Tenant " ++ uuidText range.tenant_id ++ " no encontrado"))
  else if db.numbering_ranges.any fun r => r.overlaps range then
    .error (.conflict "El rango se solapa en vigencia con otro del mismo tipo y prefijo")
  else if db.numbering_ranges.any fun r => r.id = range.id then
    .error (.database "duplicate key value violates unique constraint \"numbering_ranges_pkey\"")
  else
    .ok { db with
      numbering_ranges := db.numbering_ranges ++ [range]
      admin_audit_log := db.admin_audit_log ++ [audit] }

/-- The counter a new range starts with. -/
def initialCounter (request : RegisterNumberingRange) : Option Int :=
  match request.last_issued_number with
  | none => some 0
  | some n =>
      if n ≥ wrap32 (request.from_number - 1) ∧ n ≤ request.to_number then some n else none

/-- The checks of `register_numbering_range` on the request, and the range they let through. -/
def checkRange (id tenant_id : Uuid) (request : RegisterNumberingRange) :
    Except DomainError NumberingRange :=
  match DocumentType.fromStr? request.document_type with
  | none => .error (.validation ("document_type '" ++ request.document_type ++ "' no es valido"))
  | some document_type =>
    let pfx := trim request.pfx
    let technical_key := trim request.technical_key
    if pfx.utf8ByteSize > 4 ∨ !(pfx.toList.all isAsciiAlphanumeric) then
      .error (.validation "prefix admite hasta 4 caracteres alfanumericos")
    else if request.from_number < 1 ∨ request.to_number < request.from_number then
      .error (.validation "El rango debe cumplir 1 <= from_number <= to_number")
    else if request.valid_date_from ≥ request.valid_date_to then
      .error (.validation "valid_date_from debe ser anterior a valid_date_to")
    else if document_type = .invoice ∧ technical_key = "" then
      .error (.validation "Las facturas requieren la technical_key de la resolucion")
    else if technical_key.utf8ByteSize > 255 then
      .error (.validation "technical_key es demasiado larga")
    else
      match initialCounter request with
      | none => .error (.validation "last_issued_number debe estar dentro del rango")
      | some current_counter =>
        .ok {
          id := id
          tenant_id := tenant_id
          document_type := document_type
          pfx := pfx
          from_number := request.from_number
          to_number := request.to_number
          technical_key := technical_key
          valid_date_from := request.valid_date_from
          valid_date_to := request.valid_date_to
          current_counter := current_counter }

/-- The audit entry of a registered range; the technical key is not recorded. -/
def rangeAudit (range : NumberingRange) : AuditEntry where
  action := "numbering_range.created"
  tenant_id := some range.tenant_id
  subject_id := some range.id
  details := .object [
    ("document_type", .string range.document_type.asStr),
    ("prefix", .string range.pfx),
    ("from_number", .number range.from_number),
    ("to_number", .number range.to_number)]

/-- `AdminService::register_numbering_range`; `id` is the `Uuid::new_v4()` it draws. -/
def Db.registerNumberingRange (db : Db) (id tenant_id : Uuid) (request : RegisterNumberingRange) :
    Except DomainError (Db × NumberingRange) := do
  if !(db.tenants.any fun t => t.id = tenant_id) then
    throw (.notFound ("Tenant " ++ uuidText tenant_id ++ " no encontrado"))
  let range ← checkRange id tenant_id request
  let db ← db.addNumberingRange range (rangeAudit range)
  return (db, range)

/-! ## What registration guarantees -/

/-- The numbers of a range as registration accepts them. -/
structure NumberingRange.Registered (r : NumberingRange) : Prop where
  one_le_from : 1 ≤ r.from_number
  from_le_to : r.from_number ≤ r.to_number
  counter_nonneg : 0 ≤ r.current_counter
  counter_le_to : r.current_counter ≤ r.to_number
  to_lt : r.to_number < 2 ^ 31

theorem checkRange_registered {id tenant_id : Uuid} {request : RegisterNumberingRange}
    {range : NumberingRange} (h : checkRange id tenant_id request = .ok range) :
    range.Registered ∧ range.id = id := by
  have hi32 := request.from_i32.2
  unfold checkRange at h
  split at h
  · cases h
  · dsimp only at h
    split_ifs at h with h1 h2 h3 h4 h5
    split at h
    · cases h
    · rename_i c hc
      cases h
      obtain ⟨hfrom, hto⟩ := not_or.mp h2
      refine ⟨⟨by simpa using hfrom, by simpa using hto, ?_, ?_, request.to_i32.2⟩, rfl⟩ <;>
        simp only [initialCounter] at hc <;> split at hc
      · cases hc; simp
      · rename_i n _
        split at hc
        · rename_i hb
          cases hc
          rw [wrap32_of_inI32 ⟨by omega, by omega⟩] at hb
          simp only
          omega
        · cases hc
      · cases hc
        simp only
        omega
      · split at hc
        · rename_i hb
          cases hc
          exact hb.2
        · cases hc

theorem Db.addNumberingRange_ok {db db' : Db} {range : NumberingRange} {audit : AuditEntry}
    (h : db.addNumberingRange range audit = .ok db') :
    db' = { db with
      numbering_ranges := db.numbering_ranges ++ [range]
      admin_audit_log := db.admin_audit_log ++ [audit] } ∧
      (∀ r ∈ db.numbering_ranges, r.id ≠ range.id) ∧
      (∀ r ∈ db.numbering_ranges, r.overlaps range = false) := by
  unfold Db.addNumberingRange at h
  split_ifs at h with h1 h2 h3
  cases h
  exact ⟨rfl, by simpa using h3, by simpa using h2⟩

theorem Db.registerNumberingRange_ok {db db' : Db} {id tenant_id : Uuid}
    {request : RegisterNumberingRange} {range : NumberingRange}
    (h : db.registerNumberingRange id tenant_id request = .ok (db', range)) :
    checkRange id tenant_id request = .ok range ∧
      db.addNumberingRange range (rangeAudit range) = .ok db' := by
  unfold Db.registerNumberingRange at h
  split at h
  · cases h
  · cases hc : checkRange id tenant_id request with
    | error e => simp [hc, bind, Except.bind] at h
    | ok r =>
        cases ha : db.addNumberingRange r (rangeAudit r) with
        | error e => simp [hc, ha, bind, Except.bind] at h
        | ok d =>
            simp only [hc, ha, bind, Except.bind, pure, Except.pure, Except.ok.injEq,
              Prod.mk.injEq] at h
            obtain ⟨rfl, rfl⟩ := h
            exact ⟨rfl, ha⟩

end DianService
