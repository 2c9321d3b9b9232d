import DianService.Platform.Machine

/-
  Platform: what is true of the tables in every state of every run. An issued document was stored
  for a payload that the service accepted of the tenant, with a number of one of its ranges; a
  received one that counts as verified is exactly what `register_verified` has inserted.
-/

namespace DianService

open Lib Lib.Prog Lib.Checked

variable {c : PlatformConfig} {s s' : Platform} {a : PlatformAction}

/-! ## Steps -/

/-- The cases of a step. -/
inductive PlatformStep (c : PlatformConfig) (s : Platform) : PlatformAction → Platform → Prop where
  | idle {a : PlatformAction} : PlatformStep c s a s
  | system {a : SystemAction} {system : System} (ha : a.isIssue = false)
      (h : systemStep c.ubl c.processing s.system a = some system) :
      PlatformStep c s (.system a) (s.inSystem system)
  | issued {tenant_id : Uuid} {tenant : Tenant} {payload : Ubl.Payload} {key : Option String}
      {draw : Draw} {times : List Time} {r : Request} (htenant : tenant ∈ s.system.db.tenants)
      (h : Returns (c.issuing.issuePayload tenant payload key draw) r) :
      PlatformStep c s (.issue tenant_id payload key draw times)
        (s.inDb (s.system.db.issueOutbound r times))
  | verified {tenant_id : Uuid} {tenant : Tenant} {attached_xml : String} {id : Uuid}
      {verify : String → Except DomainError String} {fault : Fault}
      {new : NewInboundDocument × String} (htenant : tenant ∈ s.system.db.tenants)
      (h : (c.inbound verify).verifiedDocument tenant id attached_xml = .ok new)
      (hnew : ∀ d ∈ s.system.db.documents, d.id ≠ new.1.id) :
      PlatformStep c s (.registerVerified tenant_id attached_xml id verify fault)
        { s.inDb { s.system.db with
            documents := s.system.db.documents ++ [new.1.row s.system.now] } with
          registrations := s.registrations ++
            [⟨tenant, attached_xml, verify, new.1, s.system.now⟩] }
  | unverified {tenant_id : Uuid} {tenant : Tenant} {xml : String} {id : Uuid} {fault : Fault}
      {new : NewInboundDocument × String}
      (h : InboundService.unverifiedDocument tenant id xml = .ok new)
      (hnew : ∀ d ∈ s.system.db.documents, d.id ≠ new.1.id) :
      PlatformStep c s (.registerUnverified tenant_id xml id fault)
        (s.inDb { s.system.db with
          documents := s.system.db.documents ++ [new.1.row s.system.now] })
  | started {tenant_id : Uuid} (issuer : EventIssuer) {document_id : Uuid}
      {request : RadianEventRequest} (htenant : issuer.tenant ∈ s.system.db.tenants) :
      PlatformStep c s (.registerEvent tenant_id issuer.registration_name document_id request)
        { s with events := s.events ++ [⟨issuer, document_id, request, [],
          (registerEvent c.codes c.compress issuer document_id request).run⟩] }
  | answered {i : Nat} {w : EventWorld} {t : EventTask} {asked : RadianCall}
      {k : RadianReply asked → Prog RadianCall RadianReply (Except DomainError RadianEventOutcome)}
      (ht : s.events[i]? = some t) (hrest : t.rest = .call asked k) :
      PlatformStep c s (.answerEvent i w)
        { s.inDb (w.apply s.system.db s.system.now asked).1 with
          events := s.events.set i { t with
            history := t.history ++ [⟨asked, (w.apply s.system.db s.system.now asked).2⟩]
            rest := k (w.apply s.system.db s.system.now asked).2 } }
  | dropped {i : Nat} : PlatformStep c s (.dropEvent i) { s with events := s.events.eraseIdx i }

theorem insertInbound_cases {db : Db} {document : NewInboundDocument} {now : Time} {r : Db × Bool}
    (h : db.insertInbound document now = .ok r) :
    r = (db, false) ∨ r = ({ db with documents := db.documents ++ [document.row now] }, true) ∧
      ∀ d ∈ db.documents, d.id ≠ document.id := by
  unfold Db.insertInbound at h
  split_ifs at h with hreceived hid htenants
  · cases h
    exact .inl rfl
  · cases h
    refine .inr ⟨rfl, fun d hd heq => hid ?_⟩
    exact List.any_eq_true.mpr ⟨d, hd, decide_eq_true heq⟩

theorem insertReceived_cases (db : Db) (document : NewInboundDocument) (now : Time) (fault : Fault) :
    db.insertReceived document now fault = (db, false) ∨
      db.insertReceived document now fault =
        ({ db with documents := db.documents ++ [document.row now] }, true) ∧
      ∀ d ∈ db.documents, d.id ≠ document.id := by
  cases fault with
  | failed message => exact .inl rfl
  | none | lost message =>
    rw [Db.insertReceived]
    split
    · rename_i r hinsert
      exact insertInbound_cases hinsert
    · exact .inl rfl

theorem tenant?_mem {id : Uuid} {tenant : Tenant} (h : s.tenant? id = some tenant) :
    tenant ∈ s.system.db.tenants :=
  List.mem_of_find?_eq_some h

theorem platformStep_inv (h : (platform c).step s a = some s') : PlatformStep c s a s' := by
  cases a with
  | system a =>
    change (if a.isIssue then none else _) = _ at h
    split at h
    · cases h
    · rename_i hissue
      obtain ⟨system, hstep, rfl⟩ := Option.map_eq_some_iff.mp h
      exact .system (by simpa using hissue) hstep
  | issue tenant_id payload key draw times =>
    simp only [platform, Platform.step] at h
    split at h
    · cases h
    · rename_i tenant htenant
      split at h <;> cases h
      · exact .issued (tenant?_mem htenant) ‹_›
      · exact .idle
  | registerVerified tenant_id attached_xml id verify fault =>
    simp only [platform, Platform.step] at h
    split at h
    · cases h
    · rename_i tenant htenant
      split at h
      · cases h
        exact .idle
      · rename_i document invoice_id hdocument
        obtain hsame | ⟨hinsert, hnew⟩ :=
          insertReceived_cases s.system.db document s.system.now fault
        · rw [hsame] at h
          simp only [Bool.false_eq_true, if_false, List.append_nil] at h
          cases h
          exact .idle
        · rw [hinsert] at h
          cases h
          exact .verified (tenant?_mem htenant) hdocument hnew
  | registerUnverified tenant_id xml id fault =>
    simp only [platform, Platform.step] at h
    split at h
    · cases h
    · rename_i tenant htenant
      split at h
      · cases h
        exact .idle
      · rename_i document invoice_id hdocument
        cases h
        obtain hsame | ⟨hinsert, hnew⟩ :=
          insertReceived_cases s.system.db document s.system.now fault
        · rw [hsame]
          exact .idle
        · rw [hinsert]
          exact .unverified hdocument hnew
  | registerEvent tenant_id registration_name document_id request =>
    simp only [platform, Platform.step] at h
    split at h
    · cases h
    · rename_i tenant htenant
      cases h
      exact .started ⟨tenant, registration_name⟩ (tenant?_mem htenant)
  | answerEvent i w =>
    simp only [platform, Platform.step] at h
    split at h
    · cases h
    · split at h <;> cases h
      exact .answered ‹_› ‹_›
  | dropEvent i =>
    simp only [platform, Platform.step] at h
    split at h <;> cases h
    exact .dropped

/-! ## What is kept -/

/-- The document was stored for an accepted payload of the tenant, with a number of the range. -/
structure Document.Backed (c : PlatformConfig) (db : Db) (d : Document) (tenant : Tenant)
    (p : Ubl.Payload) (range : NumberingRange) : Prop where
  tenant_mem : tenant ∈ db.tenants
  tenant_id : tenant.id = d.tenant_id
  issuer : p.issuer = tenant.tax_id
  carries : d.Carries c.issuing.arithmetic c.issuing.floats p
  number : InI32 d.document_number
  range_mem : range ∈ db.numbering_ranges
  range_id : d.numbering_range_id = some range.id
  range_tenant : range.tenant_id = d.tenant_id
  range_type : range.document_type = d.document_type
  range_pfx : range.pfx = d.pfx

theorem Document.Carries.same {A : Arithmetic} {J : Ubl.Floats} {d e : Document} {p : Ubl.Payload}
    (h : d.Carries A J p) (hsame : d.Same e) : e.Carries A J p :=
  ⟨h.valid, hsame.document_type ▸ h.document_type, hsame.pfx ▸ h.pfx, hsame.payload ▸ h.payload⟩

theorem Document.Backed.mono {db db' : Db} {d e : Document} {tenant : Tenant} {p : Ubl.Payload}
    {range : NumberingRange} (h : d.Backed c db tenant p range) (hroot : db.Rooted db')
    (hsame : d.Same e) (hrange : e.numbering_range_id = d.numbering_range_id) :
    ∃ range', range.Same range' ∧ e.Backed c db' tenant p range' := by
  obtain ⟨range', hmem, hr⟩ := hroot.ranges range h.range_mem
  exact ⟨range', hr, {
    tenant_mem := hroot.tenants ▸ h.tenant_mem
    tenant_id := h.tenant_id.trans hsame.tenant_id
    issuer := h.issuer
    carries := h.carries.same hsame
    number := hsame.document_number ▸ h.number
    range_mem := hmem
    range_id := by rw [hrange, h.range_id, hr.id]
    range_tenant := by rw [hr.tenant_id, h.range_tenant, hsame.tenant_id]
    range_type := by rw [hr.document_type, h.range_type, hsame.document_type]
    range_pfx := by rw [hr.pfx, h.range_pfx, hsame.pfx] }⟩

/-- The registration is one that `register_verified` accepts. -/
structure RegisteredInvoice.Accepted (c : PlatformConfig) (db : Db) (r : RegisteredInvoice) :
    Prop where
  tenant : r.tenant ∈ db.tenants
  verified : ∃ subject, c.dian_signer_subject = some subject ∧
    InboundService.VerifiedInvoice (c.inbound r.verify) ⟨r.verify, subject⟩ r.tenant r.attached_xml
      r.document

theorem RegisteredInvoice.Accepted.mono {db db' : Db} {r : RegisteredInvoice} (h : r.Accepted c db)
    (hroot : db.Rooted db') : r.Accepted c db' :=
  ⟨hroot.tenants ▸ h.tenant, h.verified⟩

/-- A document that counts as received and verified is a row that was registered. -/
def Document.Registered (registrations : List RegisteredInvoice) (d : Document) : Prop :=
  d.payload.flag "inbound" = true → d.payload.flag "signature_verified" = true →
    ∃ r ∈ registrations, d = r.row

structure EventTask.Sound (c : PlatformConfig) (s : Platform) (t : EventTask) : Prop where
  tenant : t.issuer.tenant ∈ s.system.db.tenants
  path : Path (registerEvent c.codes c.compress t.issuer t.document_id t.request).run t.history
    t.rest
  found : ∀ d, FoundFor t.issuer t.document_id t.history d →
    d.tenant_id = t.issuer.tenant.id ∧ d.Registered s.registrations

structure Platform.Safe (c : PlatformConfig) (s : Platform) : Prop where
  sound : s.system.Sound c.ubl c.processing
  apart : s.system.Apart
  range_ids : (s.system.db.numbering_ranges.map NumberingRange.id).Nodup
  issued : ∀ d ∈ s.system.db.documents, d.direction = .outbound →
    ∃ tenant p range, d.Backed c s.system.db tenant p range
  received : ∀ d ∈ s.system.db.documents, d.direction = .inbound →
    d.payload.flag "signature_verified" = false ∨ ∃ r ∈ s.registrations, d = r.row
  registrations : ∀ r ∈ s.registrations, r.Accepted c s.system.db ∧ r.row ∈ s.system.db.documents
  events : ∀ t ∈ s.events, t.Sound c s

/-- No payload that is issued has the fields of a received invoice, since `issue.rs` stores the
payload that it has read and not the body that it was sent. -/
theorem Ubl.Payload.toValue_inbound (J : Ubl.Floats) (p : Ubl.Payload) :
    (p.toValue J).flag "inbound" = false := by
  have hnone : (p.toValue J).get? "inbound" = none := by
    cases p with
    | invoice p => simp [Ubl.Payload.toValue, Ubl.InvoicePayload.toValue]
    | payroll p => simp [Ubl.Payload.toValue, Ubl.PayrollPayload.toValue]
    | supportDocument p => simp [Ubl.Payload.toValue, Ubl.SupportDocumentPayload.toValue]
  rw [Value.flag, hnone]
  rfl

theorem Platform.Safe.registered (hs : s.Safe c) {d : Document} (hd : d ∈ s.system.db.documents) :
    d.Registered s.registrations := by
  intro hinbound hverified
  cases hdirection : d.direction with
  | outbound =>
    obtain ⟨tenant, p, range, hbacked⟩ := hs.issued d hd hdirection
    rw [hbacked.carries.payload, p.toValue_inbound] at hinbound
    cases hinbound
  | inbound =>
    obtain hflag | hregistered := hs.received d hd hdirection
    · rw [hflag] at hverified
      cases hverified
    · exact hregistered

/-! ### Of the system -/

/-- Issued rows stay backed, but for the one that is just issued. -/
theorem Platform.Safe.issued_system (hs : s.Safe c) {a : SystemAction} {system : System}
    (h : SystemStep c.ubl c.processing s.system a system) (hroot : s.system.db.Rooted system.db)
    {d : Document} (hd : d ∈ system.db.documents) (hdirection : d.direction = .outbound) :
    (∃ tenant p range, d.Backed c system.db tenant p range) ∨ Issues s.system a system d := by
  obtain ⟨e, he, hrow⟩ | hissues := h.rows hs.sound hd
  · obtain ⟨tenant, p, range, hbacked⟩ :=
      hs.issued e he (hrow.same.direction.trans hdirection)
    obtain ⟨range', -, hbacked⟩ := hbacked.mono hroot hrow.same hrow.range
    exact .inl ⟨tenant, p, range', hbacked⟩
  · exact .inr hissues

/-- A received document stays in the tables as it is. -/
theorem Platform.Safe.stays (hs : s.Safe c) {a : SystemAction} {system : System}
    (h : SystemStep c.ubl c.processing s.system a system) {d : Document}
    (hd : d ∈ s.system.db.documents) (hdirection : d.direction = .inbound) :
    d ∈ system.db.documents := by
  obtain ⟨e, he, hsame⟩ := h.kept.documents d hd
  have hold := h.received hs.sound hs.apart he (hsame.direction ▸ hdirection)
  obtain rfl := hs.sound.consistent.document_eq_of_id hold hd hsame.id.symm
  exact he

/-- Everything but what is issued, after a step of the system. -/
theorem Platform.Safe.system_step (hs : s.Safe c) {a : SystemAction} {system : System}
    (hstep : systemStep c.ubl c.processing s.system a = some system)
    (hissued : ∀ d, Issues s.system a system d →
      ∃ tenant p range, d.Backed c system.db tenant p range) :
    (s.inSystem system).Safe c := by
  have h := systemStep_inv hstep
  have hroot := systemStep_tables hstep
  refine ⟨h.sound hs.sound, h.apart hs.sound hs.apart, hroot.range_ids hs.range_ids, ?_, ?_, ?_, ?_⟩
  · intro d hd hdirection
    obtain hbacked | hnew := hs.issued_system h hroot hd hdirection
    · exact hbacked
    · exact hissued d hnew
  · intro d hd hdirection
    exact hs.received d (h.received hs.sound hs.apart hd hdirection) hdirection
  · intro r hr
    obtain ⟨haccepted, hrow⟩ := hs.registrations r hr
    exact ⟨haccepted.mono hroot, hs.stays h hrow rfl⟩
  · intro t ht
    have ht := hs.events t ht
    exact ⟨hroot.tenants ▸ ht.tenant, ht.path, ht.found⟩

/-! ### Of the API -/

/-- A request that the service has accepted is backed once it is committed. -/
theorem Document.backed_of_issue {db : Db} {tenant : Tenant} {payload : Ubl.Payload}
    {key : Option String} {draw : Draw} {r : Request} {tx : Tx} (htenant : tenant ∈ db.tenants)
    (h : Returns (c.issuing.issuePayload tenant payload key draw) r) (hserves : tx.Serves db r) :
    ∃ range, (r.documentRow tx).Backed c (db.commitIssue r tx) tenant payload range := by
  have haccepts := c.issuing.issuePayload_returns h
  have hsame := same_setCounter tx.range.id tx.number tx.range
  obtain ⟨hrange_tenant, hrange_type, hrange_pfx⟩ := hserves.columns
  exact ⟨setCounter tx.range.id tx.number tx.range, {
    tenant_mem := htenant
    tenant_id := haccepts.tenant_id.symm
    issuer := haccepts.issuer
    carries := ⟨haccepts.valid, haccepts.document_type, haccepts.pfx, haccepts.payload⟩
    number := hserves.inI32
    range_mem := List.mem_map_of_mem hserves.range
    range_id := congrArg some hsame.id.symm
    range_tenant := hsame.tenant_id.trans hrange_tenant
    range_type := hsame.document_type.trans hrange_type
    range_pfx := hsame.pfx.trans hrange_pfx }⟩

theorem Platform.Safe.issue_step (hs : s.Safe c) {tenant : Tenant} {payload : Ubl.Payload}
    {key : Option String} {draw : Draw} {times : List Time} {r : Request}
    (htenant : tenant ∈ s.system.db.tenants)
    (h : Returns (c.issuing.issuePayload tenant payload key draw) r) :
    (s.inDb (s.system.db.issueOutbound r times)).Safe c := by
  refine hs.system_step (a := .issueOutbound r times) rfl ?_
  rintro d ⟨r', times', tx, heq, hdb, rfl⟩
  cases heq
  have hrows : s.system.db.issueOutbound r times = s.system.db.commitIssue r tx := hdb
  show ∃ tenant p range, Document.Backed c (s.system.db.issueOutbound r times) _ tenant p range
  obtain hsame | ⟨tx', hcommit, hserves⟩ := s.system.db.issueOutbound_serves r times
  · rw [hrows] at hsame
    have hlength := congrArg (fun db => db.documents.length) hsame
    simp [Db.commitIssue] at hlength
  · obtain ⟨range, hbacked⟩ := Document.backed_of_issue htenant h hserves
    have hrow : r.documentRow tx = r.documentRow tx' := by
      have hdocuments := congrArg Db.documents (hrows.symm.trans hcommit)
      exact List.singleton_inj.mp (List.append_cancel_left hdocuments)
    rw [hcommit, hrow]
    exact ⟨tenant, payload, range, hbacked⟩

/-- The tables with a row of a received document in them. -/
def Db.withReceived (db : Db) (d : Document) : Db := { db with documents := db.documents ++ [d] }

theorem System.Sound.withReceived {ubl : UblEngine} {config : ProcessorConfig} {s : System}
    (hs : s.Sound ubl config) {d : Document} (hnew : ∀ e ∈ s.db.documents, e.id ≠ d.id) :
    System.Sound ubl config { s with db := s.db.withReceived d } := by
  have hkept : Kept s.db (s.db.withReceived d) :=
    ⟨fun j hj => ⟨j, hj, .refl j⟩, fun e he => ⟨e, List.mem_append_left _ he, .refl e⟩,
      fun e he => he⟩
  refine ⟨hs.consistent.addDocument hnew, fun t ht => (hs.task t ht).mono hkept fun x hx => hx, ?_⟩
  intro x hx
  obtain ⟨e, he, hid⟩ := hs.log x hx
  exact ⟨e, List.mem_append_left _ he, hid⟩

theorem System.Apart.withReceived {ubl : UblEngine} {config : ProcessorConfig} {s : System}
    (hs : s.Sound ubl config) (hA : s.Apart) {d : Document}
    (hnew : ∀ e ∈ s.db.documents, e.id ≠ d.id) (haccepted : d.status = .dianAccepted) :
    System.Apart { s with db := s.db.withReceived d } := by
  refine ⟨fun e he hdirection => ?_, fun e he hdirection => ?_⟩
  · rcases List.mem_append.mp he with he | he
    · exact hA.accepted e he hdirection
    · rw [List.mem_singleton.mp he]
      exact haccepted
  · rcases List.mem_append.mp he with he | he
    · exact hA.employed e he hdirection
    · rw [List.mem_singleton.mp he]
      rintro ⟨j, hj, hid⟩
      obtain ⟨k, hk, hkid⟩ := hs.consistent.foreign j hj
      exact hnew k hk (hkid.trans hid)

/-- An insertion by either registration. -/
theorem Platform.Safe.insert_step (hs : s.Safe c) (d : Document)
    (registrations : List RegisteredInvoice)
    (hnew : ∀ e ∈ s.system.db.documents, e.id ≠ d.id) (hinbound : d.direction = .inbound)
    (hstatus : d.status = .dianAccepted)
    (hreceived : d.payload.flag "signature_verified" = false ∨
      ∃ r ∈ s.registrations ++ registrations, d = r.row)
    (hregistrations : ∀ r ∈ registrations, r.Accepted c s.system.db ∧ r.row = d) :
    Platform.Safe c { s.inDb (s.system.db.withReceived d) with
      registrations := s.registrations ++ registrations } := by
  have hroot : s.system.db.Rooted (s.system.db.withReceived d) := .of_eq rfl rfl
  refine ⟨hs.sound.withReceived hnew, hs.apart.withReceived hs.sound hnew hstatus, hs.range_ids,
    ?_, ?_, ?_, ?_⟩
  · intro e he hdirection
    rcases List.mem_append.mp he with he | he
    · obtain ⟨tenant, p, range, hbacked⟩ := hs.issued e he hdirection
      obtain ⟨range', -, hbacked⟩ := hbacked.mono hroot (.refl e) rfl
      exact ⟨tenant, p, range', hbacked⟩
    · rw [List.mem_singleton.mp he, hinbound] at hdirection
      cases hdirection
  · intro e he hdirection
    rcases List.mem_append.mp he with he | he
    · obtain hflag | ⟨r, hr, hrow⟩ := hs.received e he hdirection
      · exact .inl hflag
      · exact .inr ⟨r, List.mem_append_left _ hr, hrow⟩
    · rw [List.mem_singleton.mp he]
      exact hreceived
  · intro r hr
    rcases List.mem_append.mp hr with hr | hr
    · obtain ⟨haccepted, hrow⟩ := hs.registrations r hr
      exact ⟨haccepted.mono hroot, List.mem_append_left _ hrow⟩
    · obtain ⟨haccepted, rfl⟩ := hregistrations r hr
      exact ⟨haccepted.mono hroot, List.mem_append_right _ (List.mem_singleton_self _)⟩
  · intro t ht
    obtain ⟨htenant, hpath, hfound⟩ := hs.events t ht
    refine ⟨htenant, hpath, fun e he => ⟨(hfound e he).1, fun hflag hverified => ?_⟩⟩
    obtain ⟨r, hr, hrow⟩ := (hfound e he).2 hflag hverified
    exact ⟨r, List.mem_append_left _ hr, hrow⟩

/-! ### Of events -/

/-- A call of `register_event` writes nothing but an event of the DIAN. -/
theorem EventWorld.apply_kept (w : EventWorld) (db : Db) (now : Time) {asked : RadianCall}
    {issuer : EventIssuer} {document_id : Uuid} {request : RadianEventRequest} {t : RadianHistory}
    (h : RadianCalled c.codes c.compress issuer document_id request t asked) :
    (w.apply db now asked).1.documents = db.documents ∧ (w.apply db now asked).1.jobs = db.jobs ∧
      (∀ e ∈ db.dian_events, e ∈ (w.apply db now asked).1.dian_events) ∧
      db.Rooted (w.apply db now asked).1 := by
  cases asked with
  | findTenantDocument | sendEventUpdateStatus =>
    have hsame : ∀ db', db' = db → db'.documents = db.documents ∧ db'.jobs = db.jobs ∧
        (∀ e ∈ db.dian_events, e ∈ db'.dian_events) ∧ db.Rooted db' := by
      rintro db' rfl
      exact ⟨rfl, rfl, fun e he => he, .of_eq rfl rfl⟩
    apply hsame
    unfold EventWorld.apply
    split <;> rfl
  | port call =>
    have hroot := w.port.apply_tables db now call
    have heffect := (w.port.apply_answered db now call).effect
    rw [show w.apply db now (.port call) = w.port.apply db now call from rfl]
    generalize (w.port.apply db now call).1 = db' at hroot heffect
    cases heffect with
    | same => exact ⟨rfl, rfl, fun e he => he, hroot⟩
    | recorded => exact ⟨rfl, rfl, fun e he => List.mem_append_left _ he, hroot⟩
    | _ => exact absurd h id

/-- What is found of a tenant is in the tables, and is of the tenant. -/
theorem EventWorld.found {w : EventWorld} {db : Db} {now : Time} {tenant_id id : Uuid}
    {d : Document} (h : (w.apply db now (.findTenantDocument tenant_id id)).2 = .ok (some d)) :
    d ∈ db.documents ∧ d.tenant_id = tenant_id := by
  cases hfault : w.port.fault with
  | failed message | lost message =>
    simp only [EventWorld.apply, hfault] at h
    cases h
  | none =>
    simp only [EventWorld.apply, hfault] at h
    have hfind : db.findTenantDocument tenant_id id = some d := Except.ok.inj h
    refine ⟨List.mem_of_find?_eq_some hfind, ?_⟩
    have hcolumns := List.find?_some hfind
    rw [decide_eq_true_eq] at hcolumns
    exact hcolumns.2

theorem Platform.Safe.event_step (hs : s.Safe c) {i : Nat} {w : EventWorld} {t : EventTask}
    {asked : RadianCall}
    {k : RadianReply asked → Prog RadianCall RadianReply (Except DomainError RadianEventOutcome)}
    (ht : s.events[i]? = some t) (hrest : t.rest = .call asked k) :
    Platform.Safe c { s.inDb (w.apply s.system.db s.system.now asked).1 with
      events := s.events.set i { t with
        history := t.history ++ [⟨asked, (w.apply s.system.db s.system.now asked).2⟩]
        rest := k (w.apply s.system.db s.system.now asked).2 } } := by
  obtain ⟨htenant, hpath, hfound⟩ := hs.events t (List.mem_of_getElem? ht)
  rw [hrest] at hpath
  have hcall := call_of_path (registerEvent_calls t.issuer t.document_id t.request) hpath
  obtain ⟨hdocuments, hjobs, hevents, hroot⟩ := EventWorld.apply_kept w s.system.db s.system.now hcall
  have hfinds : ∀ r d, (w.apply s.system.db s.system.now asked).2 = r →
      (⟨asked, r⟩ : Exchange RadianCall RadianReply) =
        ⟨.findTenantDocument t.issuer.tenant.id t.document_id, .ok (some d)⟩ →
      d.tenant_id = t.issuer.tenant.id ∧ d.Registered s.registrations := by
    intro r d hr heq
    cases heq
    obtain ⟨hmem, hid⟩ := EventWorld.found hr
    exact ⟨hid, hs.registered hmem⟩
  generalize (w.apply s.system.db s.system.now asked).1 = db at hdocuments hjobs hevents hroot
  have hkept : Kept s.system.db db := by
    refine ⟨fun j hj => ⟨j, hjobs ▸ hj, .refl j⟩, fun d hd => ⟨d, hdocuments ▸ hd, .refl d⟩, hevents⟩
  have hsound : System.Sound c.ubl c.processing { s.system with db := db } := by
    refine ⟨?_, fun u hu => (hs.sound.task u hu).mono hkept fun x hx => hx, ?_⟩
    · show Consistent db.documents db.jobs
      rw [hdocuments, hjobs]
      exact hs.sound.consistent
    · show ∀ x ∈ s.system.log, ∃ d ∈ db.documents, d.id = x.1
      rw [hdocuments]
      exact hs.sound.log
  have hapart : System.Apart { s.system with db := db } := by
    refine ⟨fun d hd => hs.apart.accepted d (hdocuments ▸ hd), fun d hd hdirection hemploys => ?_⟩
    obtain ⟨j, hj, hid⟩ := hemploys
    exact hs.apart.employed d (hdocuments ▸ hd) hdirection ⟨j, hjobs ▸ hj, hid⟩
  have hsounds : ∀ u : EventTask, u.Sound c s → u.Sound c
      { s.inDb db with events := s.events.set i { t with
        history := t.history ++ [⟨asked, (w.apply s.system.db s.system.now asked).2⟩]
        rest := k (w.apply s.system.db s.system.now asked).2 } } := by
    intro u hu
    exact ⟨hroot.tenants ▸ hu.tenant, hu.path, hu.found⟩
  refine ⟨hsound, hapart, hroot.range_ids hs.range_ids, ?_, ?_, ?_, ?_⟩
  · intro d hd hdirection
    obtain ⟨tenant, p, range, hbacked⟩ := hs.issued d (hdocuments ▸ hd) hdirection
    obtain ⟨range', -, hbacked⟩ := hbacked.mono hroot (.refl d) rfl
    exact ⟨tenant, p, range', hbacked⟩
  · exact fun d hd => hs.received d (hdocuments ▸ hd)
  · intro r hr
    obtain ⟨haccepted, hrow⟩ := hs.registrations r hr
    exact ⟨haccepted.mono hroot, hdocuments ▸ hrow⟩
  · intro u hu
    rcases List.mem_or_eq_of_mem_set hu with hu | rfl
    · exact hsounds u (hs.events u hu)
    · refine ⟨hroot.tenants ▸ htenant, hpath.reply _, fun d hd => ?_⟩
      rcases List.mem_append.mp hd with hd | hd
      · exact hfound d hd
      · exact hfinds _ d rfl (List.mem_singleton.mp hd).symm

/-! ## Every reachable state -/

theorem PlatformStep.safe (h : PlatformStep c s a s') (hs : s.Safe c) : s'.Safe c := by
  cases h with
  | idle => exact hs
  | system ha hstep =>
    refine hs.system_step hstep ?_
    rintro d ⟨r, times, tx, rfl, -, -⟩
    cases ha
  | issued htenant hreturns => exact hs.issue_step htenant hreturns
  | @verified tenant_id tenant attached_xml id verify fault new htenant hdocument hnew =>
    obtain ⟨verification, hverification, hverified, -, hstatus⟩ :=
      InboundService.verifiedDocument_ok hdocument
    obtain ⟨subject, hsubject, rfl⟩ := Option.map_eq_some_iff.mp hverification
    refine hs.insert_step _ _ hnew rfl hstatus (.inr ⟨_, List.mem_append_right _
      (List.mem_singleton_self _), rfl⟩) fun r hr => ?_
    rw [List.mem_singleton.mp hr]
    exact ⟨⟨htenant, subject, hsubject, hverified⟩, rfl⟩
  | @unverified tenant_id tenant xml id fault new hdocument hnew =>
    obtain ⟨hflag, -, -, hstatus⟩ := InboundService.unverifiedDocument_ok hdocument
    have hsafe := hs.insert_step (new.1.row s.system.now) [] hnew rfl hstatus (.inl hflag)
      (List.forall_mem_nil _)
    rw [List.append_nil] at hsafe
    exact hsafe
  | started issuer htenant =>
    refine ⟨hs.sound, hs.apart, hs.range_ids, hs.issued, hs.received, hs.registrations, ?_⟩
    intro t ht
    rcases List.mem_append.mp ht with ht | ht
    · exact ⟨(hs.events t ht).tenant, (hs.events t ht).path, (hs.events t ht).found⟩
    · rw [List.mem_singleton.mp ht]
      exact ⟨htenant, .start, fun d hd => absurd hd List.not_mem_nil⟩
  | answered ht hrest => exact hs.event_step ht hrest
  | dropped =>
    refine ⟨hs.sound, hs.apart, hs.range_ids, hs.issued, hs.received, hs.registrations, ?_⟩
    intro t ht
    have ht := hs.events t (List.mem_of_mem_eraseIdx ht)
    exact ⟨ht.tenant, ht.path, ht.found⟩

theorem safe_of_reachable (h : (platform c).Reachable s) : s.Safe c := by
  refine h.invariant ?_ fun s a s' _ hs _ hstep => (platformStep_inv hstep).safe hs
  rintro s ⟨tenants, now, rfl⟩
  exact ⟨⟨.nil, List.forall_mem_nil _, List.forall_mem_nil _⟩,
    ⟨List.forall_mem_nil _, List.forall_mem_nil _⟩, .nil, List.forall_mem_nil _,
    List.forall_mem_nil _, List.forall_mem_nil _, List.forall_mem_nil _⟩

end DianService
