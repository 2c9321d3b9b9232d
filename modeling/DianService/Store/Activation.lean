import DianService.Lib.Machine
import DianService.Store.Admin

/-
  Store: transactions of `PgStore::activate_certificate` under READ COMMITTED, statement by
  statement and one row at a time.

  The UPDATE takes the rows its snapshot shows as active and locks them in turn: it waits for a
  row that another transaction holds and then tests its WHERE clause again on the row as it was
  committed. The INSERT asks the primary key and `uq_certificates_active`, which make it wait for
  the transactions that may still commit a row equal to its own. What a transaction has written
  is read by no other before its commit.

  The invariant says what a transaction knows: the rows it has locked are committed, active and of
  its tenant, and once it has inserted they are all the active rows of its tenant.
-/

namespace DianService

open Lib

/-- A certificate as `register_certificate` builds it. -/
structure ActiveCertificate extends Certificate where
  active : status = .active

inductive ActivationPhase where
  | begun
  | revoking (unseen held : List Uuid)
  | inserted (held : List Uuid)
  | done (answer : Except DomainError Unit)

/-- A call of `activate_certificate` and how far its transaction has come. -/
structure Activation where
  certificate : ActiveCertificate
  audit : AuditEntry
  phase : ActivationPhase

def ActivationPhase.held : ActivationPhase → List Uuid
  | .begun => []
  | .revoking _ held => held
  | .inserted held => held
  | .done _ => []

def ActivationPhase.isInserted : ActivationPhase → Bool
  | .inserted _ => true
  | _ => false

namespace Activation

def tenant_id (a : Activation) : Uuid := a.certificate.tenant_id

/-- The rows whose locks the transaction has. -/
def held (a : Activation) : List Uuid := a.phase.held

/-- Its row is in the table and not committed. -/
def isInserted (a : Activation) : Bool := a.phase.isInserted

def movedTo (a : Activation) (phase : ActivationPhase) : Activation := { a with phase := phase }

@[simp] theorem movedTo_certificate (a : Activation) (p : ActivationPhase) :
    (a.movedTo p).certificate = a.certificate := rfl

@[simp] theorem movedTo_tenant_id (a : Activation) (p : ActivationPhase) :
    (a.movedTo p).tenant_id = a.tenant_id := rfl

@[simp] theorem movedTo_held (a : Activation) (p : ActivationPhase) :
    (a.movedTo p).held = p.held := rfl

@[simp] theorem movedTo_isInserted (a : Activation) (p : ActivationPhase) :
    (a.movedTo p).isInserted = p.isInserted := rfl

@[simp] theorem movedTo_phase (a : Activation) (p : ActivationPhase) :
    (a.movedTo p).phase = p := rfl

end Activation

/-! ## Statements -/

/-- What a unique index answers to a new row. -/
inductive Probe where
  | free
  | wait
  | duplicate
  deriving DecidableEq

/-- A committed row that no other transaction has locked is a duplicate; one that is locked, or a
    row that is not committed yet, has to be waited for. -/
def probe (committed : List Certificate) (others : List Activation) (same : Certificate → Bool) :
    Probe :=
  if committed.any fun c => same c ∧ ¬ others.any fun b => c.id ∈ b.held then .duplicate
  else if committed.any same ∨ others.any fun b => b.isInserted ∧ same b.certificate.toCertificate
    then .wait
  else .free

/-- `SELECT ... WHERE tenant_id = $1 AND status = 'active' ORDER BY expiration_date DESC LIMIT 1` -/
def AdminDb.findActiveCertificate (db : AdminDb) (tenant_id : Uuid) : Option Certificate :=
  latestBy (·.expiration_date) (db.certificates.filter (·.isActive tenant_id))

/-- The ids of the rows that the snapshot of the UPDATE shows as active. -/
def AdminDb.activeIds (db : AdminDb) (tenant_id : Uuid) : List Uuid :=
  (db.certificates.filter (·.isActive tenant_id)).map (·.id)

/-- The WHERE clause on a row as it is committed now. -/
def AdminDb.stillActive (db : AdminDb) (tenant_id id : Uuid) : Bool :=
  db.certificates.any fun c => c.id = id ∧ c.isActive tenant_id

def revokedIn (held : List Uuid) (c : Certificate) : Certificate :=
  if c.id ∈ held then { c with status := .revoked } else c

namespace Activation

def sameKey (a : Activation) (c : Certificate) : Bool := c.id = a.certificate.id

/-- An entry of `uq_certificates_active` that the transaction has not revoked itself. -/
def sameTenant (a : Activation) (c : Certificate) : Bool := c.isActive a.tenant_id ∧ c.id ∉ a.held

def conflict : DomainError := .conflict "El tenant ya tiene otro certificado activo"

/-- The INSERT and the foreign key that is checked after it; `none` waits. -/
def insert (a : Activation) (db : AdminDb) (others : List Activation) : Option ActivationPhase :=
  match probe db.certificates others a.sameKey, probe db.certificates others a.sameTenant with
  | .duplicate, _ => some (.done (.error conflict))
  | .wait, _ => none
  | .free, .duplicate => some (.done (.error conflict))
  | .free, .wait => none
  | .free, .free =>
      if !db.hasTenant a.tenant_id then some (.done (.error (AdminDb.missingTenant "certificates")))
      else some (.inserted a.held)

/-- The rows as the transaction leaves them. -/
def commit (a : Activation) (db : AdminDb) : AdminDb :=
  ({ db with certificates := db.certificates.map (revokedIn a.held) }.withCertificate
    a.certificate.toCertificate).record a.audit

/-- The next step of the transaction beside the others. -/
def advance (a : Activation) (db : AdminDb) (others : List Activation) :
    Option (AdminDb × ActivationPhase) :=
  match a.phase with
  | .begun => some (db, .revoking (db.activeIds a.tenant_id) [])
  | .revoking (id :: unseen) held =>
      if others.any fun b => id ∈ b.held then none
      else if db.stillActive a.tenant_id id then some (db, .revoking unseen (id :: held))
      else some (db, .revoking unseen held)
  | .revoking [] _ => (a.insert db others).map fun phase => (db, phase)
  | .inserted _ => some (a.commit db, .done (.ok ()))
  | .done _ => none

/-- The transaction or its connection fails; what the server then has is rolled back. -/
def fail (a : Activation) (db : AdminDb) (message : String) : Option (AdminDb × ActivationPhase) :=
  match a.phase with
  | .done _ => none
  | _ => some (db, .done (.error (.database message)))

/-- The transaction is committed and the answer of the COMMIT is lost. -/
def lose (a : Activation) (db : AdminDb) (message : String) : Option (AdminDb × ActivationPhase) :=
  match a.phase with
  | .inserted _ => some (a.commit db, .done (.error (.database message)))
  | _ => none

end Activation

/-! ## The machine -/

structure ActivationState where
  db : AdminDb
  calls : List Activation

inductive ActivationLabel where
  | submit (certificate : ActiveCertificate) (audit : AuditEntry)
  | advance (i : Nat)
  | fail (i : Nat) (message : String)
  | lose (i : Nat) (message : String)

def ActivationState.moveCall (s : ActivationState) (i : Nat)
    (move : Activation → List Activation → Option (AdminDb × ActivationPhase)) :
    Option ActivationState := do
  let a ← s.calls[i]?
  let (db, phase) ← move a (s.calls.eraseIdx i)
  return { db := db, calls := s.calls.set i (a.movedTo phase) }

/-- Calls at any rows that the constraints of the table admit. -/
def activations : Machine ActivationState ActivationLabel where
  start s := (s.db.certificates.map (·.id)).Nodup ∧
    ((s.db.certificates.filter (·.status = .active)).map (·.tenant_id)).Nodup ∧ s.calls = []
  step s
    | .submit certificate audit =>
        some { s with calls := s.calls ++ [{ certificate, audit, phase := .begun }] }
    | .advance i => s.moveCall i fun a others => a.advance s.db others
    | .fail i message => s.moveCall i fun a _ => a.fail s.db message
    | .lose i message => s.moveCall i fun a _ => a.lose s.db message

/-! ## What one step can do -/

/-- The outcomes of a step of `a` beside `others`: it writes nothing and has inserted nothing, it
    inserts its row, or it commits. -/
inductive Activation.Moves (a : Activation) (db : AdminDb) (others : List Activation) :
    AdminDb → ActivationPhase → Prop where
  | works {phase : ActivationPhase} (quiet : phase.isInserted = false)
      (locked : ∀ id ∈ phase.held, id ∈ a.held ∨
        (∀ b ∈ others, id ∉ b.held) ∧ db.stillActive a.tenant_id id)
      (unfinished : phase ≠ .done (.ok ())) : Moves a db others db phase
  | inserts (key : probe db.certificates others a.sameKey = .free)
      (tenant : probe db.certificates others a.sameTenant = .free) :
      Moves a db others db (.inserted a.held)
  | commits {answer : Except DomainError Unit} (inserted : a.isInserted)
      (answered : ∀ m, answer ≠ .error (.conflict m)) :
      Moves a db others (a.commit db) (.done answer)

section Moves

variable {a : Activation} {db db' : AdminDb} {others : List Activation} {phase : ActivationPhase}

/-- An error before the COMMIT. -/
theorem moves_error (e : DomainError) : a.Moves db others db (.done (.error e)) :=
  .works rfl (fun _ h => absurd h List.not_mem_nil) (by simp)

theorem moves_insert (h : a.insert db others = some phase) : a.Moves db others db phase := by
  unfold Activation.insert at h
  split at h
  · cases h
    exact moves_error _
  · cases h
  · cases h
    exact moves_error _
  · cases h
  · rename_i hkey htenant
    split at h
    · cases h
      exact moves_error _
    · cases h
      exact .inserts hkey htenant

theorem moves_advance (h : a.advance db others = some (db', phase)) :
    a.Moves db others db' phase ∧ ∀ answer, a.phase ≠ .done answer := by
  unfold Activation.advance at h
  split at h
  · rename_i hphase
    cases h
    exact ⟨.works rfl (fun _ h => absurd h List.not_mem_nil) (by simp), by simp [hphase]⟩
  · rename_i id unseen held hphase
    have hheld : a.held = held := by rw [Activation.held, hphase, ActivationPhase.held]
    refine ⟨?_, by simp [hphase]⟩
    split at h
    · cases h
    · rename_i hfree
      split at h
      · rename_i hactive
        cases h
        refine .works rfl (fun x hx => ?_) (by simp)
        cases hx with
        | head => exact .inr ⟨by simpa using hfree, hactive⟩
        | tail _ hx => exact .inl (hheld ▸ hx)
      · cases h
        exact .works rfl (fun x hx => .inl (hheld ▸ hx)) (by simp)
  · rename_i held hphase
    obtain ⟨p, hp, heq⟩ := Option.map_eq_some_iff.mp h
    cases heq
    exact ⟨moves_insert hp, by simp [hphase]⟩
  · rename_i held hphase
    cases h
    exact ⟨.commits (by rw [Activation.isInserted, hphase]; rfl) (by simp), by simp [hphase]⟩
  · cases h

theorem moves_fail {message : String} (h : a.fail db message = some (db', phase)) :
    a.Moves db others db' phase ∧ ∀ answer, a.phase ≠ .done answer := by
  unfold Activation.fail at h
  split at h
  · cases h
  · rename_i hphase
    cases h
    exact ⟨moves_error _, hphase⟩

theorem moves_lose {message : String} (h : a.lose db message = some (db', phase)) :
    a.Moves db others db' phase ∧ ∀ answer, a.phase ≠ .done answer := by
  unfold Activation.lose at h
  split at h
  · rename_i held hphase
    cases h
    exact ⟨.commits (by rw [Activation.isInserted, hphase]; rfl) (by simp), by simp [hphase]⟩
  · cases h

end Moves

/-- The call whose step a label is. -/
def ActivationLabel.call? : ActivationLabel → Option Nat
  | .submit _ _ => none
  | .advance i => some i
  | .fail i _ => some i
  | .lose i _ => some i

/-- What a step of the machine can do: a new call, or a step of one of the calls that are not
    answered. -/
theorem activations_step {s s' : ActivationState} {l : ActivationLabel}
    (h : activations.step s l = some s') :
    (∃ certificate audit, l.call? = none ∧
      s' = { s with calls := s.calls ++ [{ certificate, audit, phase := .begun }] }) ∨
    ∃ i a db phase, l.call? = some i ∧ s.calls[i]? = some a ∧
      a.Moves s.db (s.calls.eraseIdx i) db phase ∧ (∀ answer, a.phase ≠ .done answer) ∧
      s' = { db := db, calls := s.calls.set i (a.movedTo phase) } := by
  have hmove : ∀ i (move : Activation → List Activation → Option (AdminDb × ActivationPhase)),
      l.call? = some i →
      (∀ a db phase, move a (s.calls.eraseIdx i) = some (db, phase) →
        a.Moves s.db (s.calls.eraseIdx i) db phase ∧ ∀ answer, a.phase ≠ .done answer) →
      s.moveCall i move = some s' → ∃ i a db phase, l.call? = some i ∧ s.calls[i]? = some a ∧
        a.Moves s.db (s.calls.eraseIdx i) db phase ∧ (∀ answer, a.phase ≠ .done answer) ∧
        s' = { db := db, calls := s.calls.set i (a.movedTo phase) } := by
    intro i move hl hspec hmove
    unfold ActivationState.moveCall at hmove
    obtain ⟨a, ha, hmove⟩ := Option.bind_eq_some_iff.mp hmove
    obtain ⟨⟨db, phase⟩, hout, heq⟩ := Option.bind_eq_some_iff.mp hmove
    cases heq
    obtain ⟨hmoves, hopen⟩ := hspec a db phase hout
    exact ⟨i, a, db, phase, hl, ha, hmoves, hopen, rfl⟩
  cases l with
  | submit certificate audit =>
      cases h
      exact .inl ⟨certificate, audit, rfl, rfl⟩
  | advance i =>
      exact .inr (hmove i (fun a others => a.advance s.db others) rfl
        (fun _ _ _ => moves_advance) h)
  | fail i message =>
      exact .inr (hmove i (fun a _ => a.fail s.db message) rfl (fun _ _ _ => moves_fail) h)
  | lose i message =>
      exact .inr (hmove i (fun a _ => a.lose s.db message) rfl (fun _ _ _ => moves_lose) h)

/-! ## The invariant -/

/-- What a transaction knows of the committed rows. -/
structure Activation.Sees (a : Activation) (db : AdminDb) : Prop where
  held : ∀ id ∈ a.held, db.stillActive a.tenant_id id
  covers : a.isInserted → ∀ c ∈ db.certificates, c.isActive a.tenant_id → c.id ∈ a.held
  fresh : a.isInserted → ∀ c ∈ db.certificates, c.id ≠ a.certificate.id

/-- What locks and indexes keep apart. -/
structure Activation.Apart (a b : Activation) : Prop where
  held : ∀ id ∈ a.held, id ∉ b.held
  key : a.isInserted → b.isInserted → a.certificate.id ≠ b.certificate.id
  tenant : a.isInserted → b.isInserted → a.tenant_id ≠ b.tenant_id

/-- `uq_certificates_active`. -/
def AdminDb.activeTenants (db : AdminDb) : List Uuid :=
  (db.certificates.filter (·.status = .active)).map (·.tenant_id)

structure ActivationState.Sound (s : ActivationState) : Prop where
  key : (s.db.certificates.map (·.id)).Nodup
  index : s.db.activeTenants.Nodup
  sees : ∀ a ∈ s.calls, a.Sees s.db
  apart : s.calls.Pairwise Activation.Apart

theorem Activation.Apart.symm {a b : Activation} (h : a.Apart b) : b.Apart a where
  held := fun id hb ha => h.held id ha hb
  key := fun hb ha => (h.key ha hb).symm
  tenant := fun hb ha => (h.tenant ha hb).symm

section Rows

variable {db : AdminDb} {a b : Activation} {others : List Activation} {tenant_id : Uuid}

theorem isActive_iff {c : Certificate} :
    c.isActive tenant_id = true ↔ c.tenant_id = tenant_id ∧ c.status = .active := by
  simp [Certificate.isActive]

theorem stillActive_iff {id : Uuid} :
    db.stillActive tenant_id id = true ↔
      ∃ c ∈ db.certificates, c.id = id ∧ c.isActive tenant_id := by
  simp [AdminDb.stillActive]

/-- A free index: no committed row is the same, nor one that is about to be committed. -/
theorem probe_free {committed : List Certificate} {same : Certificate → Bool}
    (h : probe committed others same = .free) :
    (∀ c ∈ committed, ¬ same c) ∧
      ∀ b ∈ others, b.isInserted → ¬ same b.certificate.toCertificate := by
  unfold probe at h
  split_ifs at h with hdup hwait
  obtain ⟨hc, hb⟩ := not_or.mp hwait
  refine ⟨fun c hmem hsame => hc (List.any_eq_true.mpr ⟨c, hmem, hsame⟩), ?_⟩
  intro b hmem hin hsame
  exact hb (List.any_eq_true.mpr ⟨b, hmem, by simp [hin, hsame]⟩)

@[simp] theorem revokedIn_id (held : List Uuid) (c : Certificate) :
    (revokedIn held c).id = c.id := by
  unfold revokedIn
  split <;> rfl

theorem revokedIn_of_notMem {held : List Uuid} {c : Certificate} (h : c.id ∉ held) :
    revokedIn held c = c := if_neg h

/-- A row that is still active was not locked. -/
theorem revokedIn_isActive {held : List Uuid} {c : Certificate}
    (h : (revokedIn held c).isActive tenant_id) : c.id ∉ held ∧ revokedIn held c = c := by
  have hout : c.id ∉ held := by
    intro hin
    rw [revokedIn, if_pos hin, isActive_iff] at h
    cases h.2
  exact ⟨hout, revokedIn_of_notMem hout⟩

theorem filter_revokedIn (held : List Uuid) (rows : List Certificate) :
    (rows.map (revokedIn held)).filter (·.status = .active) =
      rows.filter fun c => c.status = .active ∧ c.id ∉ held := by
  induction rows with
  | nil => rfl
  | cons c rows ih =>
      rw [List.map_cons]
      by_cases hin : c.id ∈ held
      · have hrevoked : ¬ ((revokedIn held c).status = .active) := by simp [revokedIn, hin]
        rw [List.filter_cons_of_neg (by simpa using hrevoked),
          List.filter_cons_of_neg (by simp [hin]), ih]
      · rw [revokedIn_of_notMem hin]
        by_cases hactive : c.status = .active
        · rw [List.filter_cons_of_pos (by simpa using hactive),
            List.filter_cons_of_pos (by simp [hin, hactive]), ih]
        · rw [List.filter_cons_of_neg (by simpa using hactive),
            List.filter_cons_of_neg (by simp [hactive]), ih]

theorem mem_commit {c : Certificate} :
    c ∈ (a.commit db).certificates ↔
      (∃ d ∈ db.certificates, revokedIn a.held d = c) ∨ c = a.certificate.toCertificate := by
  simp [Activation.commit, AdminDb.withCertificate, AdminDb.record]

end Rows

/-! ## Each step keeps it -/

section Steps

variable {db : AdminDb} {a b : Activation} {others : List Activation}

/-- A transaction that has no lock and no row is free of the others. -/
theorem Activation.Sees.idle (hheld : a.held = []) (hin : a.isInserted = false) : a.Sees db where
  held := by simp [hheld]
  covers := by simp [hin]
  fresh := by simp [hin]

theorem Activation.Apart.idle (hheld : a.held = []) (hin : a.isInserted = false) : a.Apart b where
  held := by simp [hheld]
  key := by simp [hin]
  tenant := by simp [hin]

/-- A transaction that writes nothing. -/
theorem Activation.Sees.works {phase : ActivationPhase} (h : a.Sees db)
    (hquiet : phase.isInserted = false)
    (hlocked : ∀ id ∈ phase.held, id ∈ a.held ∨
      (∀ b ∈ others, id ∉ b.held) ∧ db.stillActive a.tenant_id id) :
    (a.movedTo phase).Sees db where
  held := by
    intro id hid
    cases hlocked id hid with
    | inl hmine => exact h.held id hmine
    | inr hnew => exact hnew.2
  covers := by simp [hquiet]
  fresh := by simp [hquiet]

theorem Activation.Apart.works {phase : ActivationPhase} (h : a.Apart b) (hb : b ∈ others)
    (hquiet : phase.isInserted = false)
    (hlocked : ∀ id ∈ phase.held, id ∈ a.held ∨
      (∀ b ∈ others, id ∉ b.held) ∧ db.stillActive a.tenant_id id) :
    (a.movedTo phase).Apart b where
  held := by
    intro id hid
    cases hlocked id hid with
    | inl hmine => exact h.held id hmine
    | inr hnew => exact hnew.1 b hb
  key := by simp [hquiet]
  tenant := by simp [hquiet]

/-- The INSERT found both indexes free. -/
theorem Activation.Sees.inserts (h : a.Sees db)
    (hkey : probe db.certificates others a.sameKey = .free)
    (htenant : probe db.certificates others a.sameTenant = .free) :
    (a.movedTo (.inserted a.held)).Sees db where
  held := h.held
  covers := by
    intro _ c hc hactive
    by_contra hout
    exact (probe_free htenant).1 c hc (by simpa [Activation.sameTenant] using ⟨hactive, hout⟩)
  fresh := by
    intro _ c hc heq
    exact (probe_free hkey).1 c hc (by simpa [Activation.sameKey] using heq)

theorem Activation.Apart.inserts (h : a.Apart b) (hb : b ∈ others) (ha : a.Sees db)
    (hsees : b.Sees db) (hkey : probe db.certificates others a.sameKey = .free)
    (htenant : probe db.certificates others a.sameTenant = .free) :
    (a.movedTo (.inserted a.held)).Apart b where
  held := h.held
  key := by
    intro _ hin heq
    exact (probe_free hkey).2 b hb hin (by simpa [Activation.sameKey] using heq.symm)
  tenant := by
    intro _ hin heq
    refine (probe_free htenant).2 b hb hin ?_
    have hactive : b.certificate.isActive a.tenant_id :=
      isActive_iff.mpr ⟨heq.symm, b.certificate.active⟩
    have hout : b.certificate.id ∉ a.held := by
      intro hheld
      obtain ⟨c, hc, hid, _⟩ := stillActive_iff.mp (ha.held _ hheld)
      exact hsees.fresh hin c hc hid
    simpa [Activation.sameTenant] using ⟨hactive, hout⟩

/-- The others after a COMMIT. -/
theorem Activation.Sees.after (h : b.Sees db) (hin : a.isInserted) (hapart : a.Apart b) :
    b.Sees (a.commit db) where
  held := by
    intro id hid
    obtain ⟨c, hc, rfl, hactive⟩ := stillActive_iff.mp (h.held id hid)
    have hout : c.id ∉ a.held := fun hheld => hapart.held _ hheld hid
    exact stillActive_iff.mpr
      ⟨c, mem_commit.mpr (.inl ⟨c, hc, revokedIn_of_notMem hout⟩), rfl, hactive⟩
  covers := by
    intro hb c hc hactive
    cases mem_commit.mp hc with
    | inl hold =>
        obtain ⟨d, hd, rfl⟩ := hold
        obtain ⟨_, heq⟩ := revokedIn_isActive hactive
        rw [heq] at hactive ⊢
        exact h.covers hb d hd hactive
    | inr hnew =>
        subst hnew
        exact absurd (isActive_iff.mp hactive).1 (hapart.tenant hin hb)
  fresh := by
    intro hb c hc
    cases mem_commit.mp hc with
    | inl hold =>
        obtain ⟨d, hd, rfl⟩ := hold
        rw [revokedIn_id]
        exact h.fresh hb d hd
    | inr hnew =>
        subst hnew
        exact hapart.key hin hb

theorem commit_key (h : (db.certificates.map (·.id)).Nodup) (hsees : a.Sees db)
    (hin : a.isInserted) : ((a.commit db).certificates.map (·.id)).Nodup := by
  have hids : (a.commit db).certificates.map (·.id) =
      db.certificates.map (·.id) ++ [a.certificate.id] := by
    simp [Activation.commit, AdminDb.withCertificate, AdminDb.record, Function.comp_def]
  rw [hids]
  refine List.Nodup.append h (List.nodup_singleton _) ?_
  intro id hid hmem
  obtain ⟨c, hc, rfl⟩ := List.mem_map.mp hid
  exact hsees.fresh hin c hc (List.mem_singleton.mp hmem)

theorem commit_index (h : db.activeTenants.Nodup) (hsees : a.Sees db) (hin : a.isInserted) :
    (a.commit db).activeTenants.Nodup := by
  have hactive : (a.commit db).activeTenants =
      (db.certificates.filter fun c => c.status = .active ∧ c.id ∉ a.held).map (·.tenant_id) ++
        [a.tenant_id] := by
    show (((db.certificates.map (revokedIn a.held) ++
      [a.certificate.toCertificate]).filter _).map _) = _
    rw [List.filter_append, filter_revokedIn, List.map_append,
      List.filter_cons_of_pos (by simpa using a.certificate.active)]
    rfl
  rw [hactive]
  refine List.Nodup.append ?_ (List.nodup_singleton _) ?_
  · refine h.sublist (List.Sublist.map _ (List.monotone_filter_right _ fun c hc => ?_))
    simp only [Bool.decide_and, Bool.and_eq_true] at hc
    exact hc.1
  · intro t ht hmem
    obtain ⟨c, hc, rfl⟩ := List.mem_map.mp ht
    obtain ⟨hc, hcond⟩ := List.mem_filter.mp hc
    have hcond : c.status = .active ∧ c.id ∉ a.held := by simpa using hcond
    exact hcond.2 (hsees.covers hin c hc
      (isActive_iff.mpr ⟨List.mem_singleton.mp hmem, hcond.1⟩))

end Steps

namespace ActivationState

variable {s : ActivationState} {db : AdminDb} {a : Activation} {l₁ l₂ : List Activation}
  {phase : ActivationPhase}

/-- One call among the others, in whatever order. -/
theorem sound_iff : Sound ⟨db, l₁ ++ a :: l₂⟩ ↔
    (db.certificates.map (·.id)).Nodup ∧ db.activeTenants.Nodup ∧ a.Sees db ∧
      (∀ b ∈ l₁ ++ l₂, b.Sees db ∧ a.Apart b) ∧ (l₁ ++ l₂).Pairwise Activation.Apart := by
  have hpair : (l₁ ++ a :: l₂).Pairwise Activation.Apart ↔
      (∀ b ∈ l₁ ++ l₂, a.Apart b) ∧ (l₁ ++ l₂).Pairwise Activation.Apart := by
    rw [List.pairwise_middle fun h => h.symm, List.pairwise_cons]
  have hsees : (∀ b ∈ l₁ ++ a :: l₂, b.Sees db) ↔ a.Sees db ∧ ∀ b ∈ l₁ ++ l₂, b.Sees db := by
    simp only [List.forall_mem_append, List.forall_mem_cons]
    tauto
  constructor
  · intro h
    obtain ⟨ha, hothers⟩ := hsees.mp h.sees
    obtain ⟨hapart, hrest⟩ := hpair.mp h.apart
    exact ⟨h.key, h.index, ha, fun b hb => ⟨hothers b hb, hapart b hb⟩, hrest⟩
  · intro ⟨hkey, hindex, ha, hothers, hrest⟩
    exact ⟨hkey, hindex, hsees.mpr ⟨ha, fun b hb => (hothers b hb).1⟩,
      hpair.mpr ⟨fun b hb => (hothers b hb).2, hrest⟩⟩

/-- A step of one call. -/
theorem Sound.moves {db' : AdminDb} (h : Sound ⟨db, l₁ ++ a :: l₂⟩)
    (hmoves : a.Moves db (l₁ ++ l₂) db' phase) : Sound ⟨db', l₁ ++ a.movedTo phase :: l₂⟩ := by
  obtain ⟨hkey, hindex, ha, hothers, hrest⟩ := sound_iff.mp h
  refine sound_iff.mpr ?_
  cases hmoves with
  | works quiet locked =>
      exact ⟨hkey, hindex, ha.works quiet locked,
        fun b hb => ⟨(hothers b hb).1, (hothers b hb).2.works hb quiet locked⟩, hrest⟩
  | inserts key tenant =>
      exact ⟨hkey, hindex, ha.inserts key tenant,
        fun b hb => ⟨(hothers b hb).1, (hothers b hb).2.inserts hb ha (hothers b hb).1 key tenant⟩,
        hrest⟩
  | commits inserted =>
      exact ⟨commit_key hkey ha inserted, commit_index hindex ha inserted, .idle rfl rfl,
        fun b hb => ⟨(hothers b hb).1.after inserted (hothers b hb).2, .idle rfl rfl⟩, hrest⟩

theorem Sound.submit {certificate : ActiveCertificate} {audit : AuditEntry} (h : s.Sound) :
    Sound { s with calls := s.calls ++ [{ certificate, audit, phase := .begun }] } := by
  have hsound : _ → Sound ⟨s.db, s.calls ++ { certificate, audit, phase := .begun } :: []⟩ :=
    sound_iff.mpr
  rw [List.append_nil] at hsound
  exact hsound ⟨h.key, h.index, .idle rfl rfl, fun b hb => ⟨h.sees b hb, .idle rfl rfl⟩, h.apart⟩

end ActivationState

theorem activations_start {s : ActivationState} (h : activations.start s) : s.Sound := by
  obtain ⟨hkey, hindex, hcalls⟩ := h
  exact ⟨hkey, hindex, by simp [hcalls], by simp [hcalls]⟩

theorem activations_sound {s s' : ActivationState} {l : ActivationLabel} (h : s.Sound)
    (hstep : activations.step s l = some s') : s'.Sound := by
  obtain ⟨certificate, audit, _, rfl⟩ | ⟨i, a, db, phase, _, ha, hmoves, _, rfl⟩ :=
    activations_step hstep
  · exact h.submit
  · obtain ⟨l₁, l₂, hcalls, hset, herase⟩ := exists_split ha
    rw [herase] at hmoves
    rw [hset]
    refine ActivationState.Sound.moves ?_ hmoves
    rw [← hcalls]
    exact h

/-! ## Commits -/

section Commits

variable {s s' : ActivationState} {db : AdminDb} {a : Activation} {tenant_id : Uuid}

/-- The rows a transaction has locked are of its tenant. -/
theorem isActive_of_held {c : Certificate} (hkey : (db.certificates.map (·.id)).Nodup)
    (ha : a.Sees db) (hc : c ∈ db.certificates) (hheld : c.id ∈ a.held) :
    c.isActive a.tenant_id := by
  obtain ⟨d, hd, hid, hactive⟩ := stillActive_iff.mp (ha.held c.id hheld)
  have heq : d = c := List.inj_on_of_nodup_map hkey hd hc hid
  exact heq ▸ hactive

/-- What a transaction commits is what the operation does alone on the committed rows. -/
theorem commit_serial (h : s.Sound) (ha : a ∈ s.calls) (hin : a.isInserted) :
    a.commit s.db = ((s.db.revokeActive a.tenant_id).withCertificate
      a.certificate.toCertificate).record a.audit := by
  have hrows : s.db.certificates.map (revokedIn a.held) =
      s.db.certificates.map fun c =>
        if c.isActive a.tenant_id then { c with status := .revoked } else c := by
    refine List.map_congr_left fun c hc => ?_
    unfold revokedIn
    by_cases hactive : c.isActive a.tenant_id
    · rw [if_pos hactive, if_pos ((h.sees a ha).covers hin c hc hactive)]
    · have hfree : c.id ∉ a.held :=
        fun hheld => hactive (isActive_of_held h.key (h.sees a ha) hc hheld)
      rw [if_neg hactive, if_neg hfree]
  unfold Activation.commit AdminDb.revokeActive
  rw [hrows]

def AdminDb.HasActive (db : AdminDb) (tenant_id : Uuid) : Prop :=
  ∃ c ∈ db.certificates, c.isActive tenant_id

theorem hasActive_commit : (a.commit db).HasActive a.tenant_id :=
  ⟨_, mem_commit.mpr (.inr rfl), isActive_iff.mpr ⟨rfl, a.certificate.active⟩⟩

theorem AdminDb.HasActive.commit (h : db.HasActive tenant_id)
    (hkey : (db.certificates.map (·.id)).Nodup) (ha : a.Sees db) :
    (a.commit db).HasActive tenant_id := by
  obtain ⟨c, hc, hactive⟩ := h
  by_cases hheld : c.id ∈ a.held
  · have hmine := (isActive_iff.mp (isActive_of_held hkey ha hc hheld)).1
    rw [← (isActive_iff.mp hactive).1, hmine]
    exact hasActive_commit
  · exact ⟨c, mem_commit.mpr (.inl ⟨c, hc, revokedIn_of_notMem hheld⟩), hactive⟩

/-- A tenant that can sign goes on signing. -/
theorem hasActive_step {l : ActivationLabel} (h : s.Sound)
    (hstep : activations.step s l = some s') (hactive : s.db.HasActive tenant_id) :
    s'.db.HasActive tenant_id := by
  obtain ⟨_, _, _, rfl⟩ | ⟨i, a, db, phase, _, ha, hmoves, _, rfl⟩ := activations_step hstep
  · exact hactive
  · cases hmoves with
    | works => exact hactive
    | inserts => exact hactive
    | commits => exact hactive.commit h.key (h.sees a (List.mem_of_getElem? ha))

/-- The index leaves `find_active_certificate` one row at most. -/
theorem length_candidates (h : db.activeTenants.Nodup) (tenant_id : Uuid) :
    (db.certificates.filter (·.isActive tenant_id)).length ≤ 1 := by
  have hcount := List.nodup_iff_count_le_one.mp h tenant_id
  have hsplit : db.certificates.filter (·.isActive tenant_id) =
      (db.certificates.filter (·.status = .active)).filter (·.tenant_id = tenant_id) := by
    rw [List.filter_filter]
    exact List.filter_congr fun c _ => by simp [Certificate.isActive]
  rw [hsplit, ← List.countP_eq_length_filter]
  rw [AdminDb.activeTenants, List.count_eq_countP, List.countP_map] at hcount
  exact hcount

/-- The only one there is is the one found. -/
theorem findActiveCertificate_of_hasActive (h : db.activeTenants.Nodup)
    (hactive : db.HasActive tenant_id) :
    ∃ c, db.certificates.filter (·.isActive tenant_id) = [c] ∧
      db.findActiveCertificate tenant_id = some c := by
  obtain ⟨c, hc, hcond⟩ := hactive
  have hmem : c ∈ db.certificates.filter (·.isActive tenant_id) := List.mem_filter.mpr ⟨hc, hcond⟩
  have hlength := length_candidates h tenant_id
  have hpos := List.length_pos_of_mem hmem
  obtain ⟨d, hd⟩ := List.length_eq_one_iff.mp (by omega :
    (db.certificates.filter (·.isActive tenant_id)).length = 1)
  refine ⟨d, hd, ?_⟩
  rw [AdminDb.findActiveCertificate, hd]
  rfl

theorem hasActive_of_findActiveCertificate {c : Certificate}
    (h : db.findActiveCertificate tenant_id = some c) : db.HasActive tenant_id := by
  obtain ⟨hc, hactive⟩ := List.mem_filter.mp (mem_of_latestBy h)
  exact ⟨c, hc, hactive⟩

end Commits

/-! ## Whole runs -/

/-- Keep the calls whose steps have changed the certificates. -/
def noteWriter (s : ActivationState) (l : ActivationLabel) (writers : List Nat) : List Nat :=
  match activations.step s l with
  | none => writers
  | some s' => if s'.db.certificates = s.db.certificates then writers else l.call?.toList ++ writers

/-- What is known of the calls that have written. -/
structure Written (s : ActivationState) (writers : List Nat) : Prop where
  bound : ∀ i ∈ writers, i < s.calls.length
  closed : ∀ i ∈ writers, ∀ a, s.calls[i]? = some a →
    s.db.HasActive a.tenant_id ∧
      ∃ answer, a.phase = .done answer ∧ ∀ m, answer ≠ .error (.conflict m)
  committed : ∀ i a, s.calls[i]? = some a → a.phase = .done (.ok ()) → i ∈ writers

section Runs

variable {s s' : ActivationState} {writers : List Nat} {l : ActivationLabel}

theorem noteWriter_same (hstep : activations.step s l = some s')
    (hsame : s'.db.certificates = s.db.certificates) : noteWriter s l writers = writers := by
  unfold noteWriter
  rw [hstep]
  exact if_pos hsame

theorem noteWriter_commit {i : Nat} {a : Activation} (hstep : activations.step s l = some s')
    (hl : l.call? = some i) (hdb : s'.db = a.commit s.db) :
    noteWriter s l writers = i :: writers := by
  have hne : s'.db.certificates ≠ s.db.certificates := by
    intro heq
    have hlength := congrArg List.length heq
    simp [hdb, Activation.commit, AdminDb.withCertificate, AdminDb.record] at hlength
  unfold noteWriter
  rw [hstep]
  simp only [if_neg hne, hl, Option.toList_some, List.singleton_append]

theorem written_step (hsound : s.Sound) (h : Written s writers)
    (hstep : activations.step s l = some s') : Written s' (noteWriter s l writers) := by
  have hkeeps : ∀ t, s.db.HasActive t → s'.db.HasActive t := fun t => hasActive_step hsound hstep
  obtain ⟨certificate, audit, _, rfl⟩ | ⟨i, a, db, phase, hl, ha, hmoves, hopen, rfl⟩ :=
    activations_step hstep
  · rw [noteWriter_same hstep rfl]
    refine ⟨fun i hi => ?_, fun i hi a hget => ?_, fun i a hget hdone => ?_⟩
    · have := h.bound i hi
      simp only [List.length_append]
      omega
    · rw [List.getElem?_append_left (h.bound i hi)] at hget
      exact h.closed i hi a hget
    · rw [List.getElem?_append] at hget
      split at hget
      · exact h.committed i a hget hdone
      · obtain ⟨_, rfl⟩ := List.getElem?_eq_some_iff.mp hget
        simp at hdone
  · obtain ⟨hi, _⟩ := List.getElem?_eq_some_iff.mp ha
    have hself : (s.calls.set i (a.movedTo phase))[i]? = some (a.movedTo phase) :=
      List.getElem?_set_self hi
    have hother : ∀ {j}, j ≠ i → (s.calls.set i (a.movedTo phase))[j]? = s.calls[j]? :=
      fun hne => List.getElem?_set_ne hne.symm
    -- a call that has written is answered, so it is not the one that takes the step
    have hnot : i ∉ writers := by
      intro hmem
      obtain ⟨_, answer, hdone, _⟩ := h.closed i hmem a ha
      exact hopen answer hdone
    have hquiet : phase ≠ .done (.ok ()) →
        Written ⟨db, s.calls.set i (a.movedTo phase)⟩ writers := by
      intro hphase
      refine ⟨fun j hj => ?_, fun j hj b hget => ?_, fun j b hget hdone => ?_⟩
      · rw [List.length_set]
        exact h.bound j hj
      · rw [hother fun heq => hnot (heq ▸ hj)] at hget
        exact ⟨hkeeps _ (h.closed j hj b hget).1, (h.closed j hj b hget).2⟩
      · by_cases hj : j = i
        · subst hj
          rw [hself] at hget
          cases hget
          exact absurd hdone hphase
        · rw [hother hj] at hget
          exact h.committed j b hget hdone
    cases hmoves with
    | works _ _ hphase =>
        rw [noteWriter_same hstep rfl]
        exact hquiet hphase
    | inserts =>
        rw [noteWriter_same hstep rfl]
        exact hquiet (by simp)
    | commits inserted answered =>
        rw [noteWriter_commit hstep hl rfl]
        refine ⟨fun j hj => ?_, fun j hj b hget => ?_, fun j b hget hdone => ?_⟩
        · rw [List.length_set]
          cases hj with
          | head => exact hi
          | tail _ hj => exact h.bound j hj
        · by_cases hji : j = i
          · subst hji
            rw [hself] at hget
            cases hget
            exact ⟨hasActive_commit, _, rfl, answered⟩
          · have hj : j ∈ writers := (List.mem_cons.mp hj).resolve_left hji
            rw [hother hji] at hget
            exact ⟨hkeeps _ (h.closed j hj b hget).1, (h.closed j hj b hget).2⟩
        · by_cases hji : j = i
          · exact hji ▸ List.mem_cons_self
          · rw [hother hji] at hget
            exact List.mem_cons_of_mem i (h.committed j b hget hdone)

theorem written_inv (h : (activations.observed [] noteWriter).Reachable (s, writers)) :
    s.Sound ∧ Written s writers := by
  refine Machine.ReachableBy.observed_invariant (C := fun _ _ => True)
    (I := fun s writers => s.Sound ∧ Written s writers) ?_ ?_ h
  · intro s hs
    exact ⟨activations_start hs, ⟨by simp, by simp, by simp [hs.2.2]⟩⟩
  · intro s writers l s' _ ⟨hsound, hwritten⟩ _ hstep
    exact ⟨activations_sound hsound hstep, written_step hsound hwritten hstep⟩

end Runs

/-- What holds of the certificates in a committed state, with the calls that have written. -/
structure OneActive (s : ActivationState) (writers : List Nat) : Prop where
  single : ∀ tenant_id, (s.db.certificates.filter (·.isActive tenant_id)).length ≤ 1
  found : ∀ i a, s.calls[i]? = some a → a.phase = .done (.ok ()) ∨ i ∈ writers →
    ∃ c, s.db.certificates.filter (·.isActive a.tenant_id) = [c] ∧
      s.db.findActiveCertificate a.tenant_id = some c
  conflicts : ∀ i a m, s.calls[i]? = some a → a.phase = .done (.error (.conflict m)) → i ∉ writers
  stays : ∀ l s', activations.step s l = some s' → ∀ tenant_id,
    (s.db.findActiveCertificate tenant_id).isSome → (s'.db.findActiveCertificate tenant_id).isSome
  serial : ∀ a ∈ s.calls, a.isInserted → a.commit s.db =
    ((s.db.revokeActive a.tenant_id).withCertificate a.certificate.toCertificate).record a.audit

theorem one_active_certificate {s : ActivationState} {writers : List Nat}
    (h : (activations.observed [] noteWriter).Reachable (s, writers)) : OneActive s writers := by
  obtain ⟨hsound, hwritten⟩ := written_inv h
  refine ⟨length_candidates hsound.index, fun i a ha hdone => ?_, fun i a m ha hconflict hi => ?_,
    fun l s' hstep tenant_id hfound => ?_, fun a => commit_serial hsound⟩
  · have hi : i ∈ writers := hdone.elim (hwritten.committed i a ha) id
    exact findActiveCertificate_of_hasActive hsound.index (hwritten.closed i hi a ha).1
  · obtain ⟨_, answer, hdone, hnot⟩ := hwritten.closed i hi a ha
    rw [hconflict] at hdone
    cases hdone
    exact hnot m rfl
  · obtain ⟨c, hc⟩ := Option.isSome_iff_exists.mp hfound
    have hactive := hasActive_step hsound hstep (hasActive_of_findActiveCertificate hc)
    obtain ⟨d, _, hd⟩ :=
      findActiveCertificate_of_hasActive (activations_sound hsound hstep).index hactive
    rw [hd]
    rfl

/-! ## Two calls at once -/

def renewalOf (id : Uuid) : ActiveCertificate :=
  ⟨⟨id, 1, "pki/dian", "thumbprint", 200, .active⟩, rfl⟩

def renewalAudit : AuditEntry := ⟨"certificate.activated", some 1, none, .object []⟩

def sampleRenewals : ActivationState where
  db := { Db.fresh [⟨1, "900123456"⟩] with
    tenant_rows := []
    api_keys := []
    certificates := [⟨10, 1, "pki/dian", "thumbprint", 100, .active⟩] }
  calls := []

/-- Both transactions find the certificate active; the second waits for the first, finds the
    certificate revoked and its place in the index taken. -/
def activationRace : List ActivationLabel :=
  [.submit (renewalOf 11) renewalAudit, .submit (renewalOf 12) renewalAudit,
    .advance 0, .advance 1, .advance 0, .advance 0, .advance 0, .advance 1, .advance 1]

theorem activationRace_runs : ((activations.observed [] noteWriter).run (sampleRenewals, [])
    activationRace).isSome = true := by decide +kernel

def activated : ActivationState × List Nat :=
  ((activations.observed [] noteWriter).run (sampleRenewals, []) activationRace).get
    activationRace_runs

theorem one_active_certificate_race :
    OneActive activated.1 activated.2 :=
  one_active_certificate (Machine.Reachable.get (M := activations.observed [] noteWriter)
    ⟨⟨by decide, by decide, rfl⟩, rfl⟩ activationRace_runs)

example : activated.2 = [0] ∧ activated.1.db.certificates.map (fun c => (c.id, c.status)) =
    [(10, .revoked), (11, .active)] := by decide +kernel

end DianService
