import DianService.Application.Stored
import DianService.Platform.Events

/-
  Platform: the XML of issued documents. Whatever runs beside, a document that was issued can be
  generated: the payload it was accepted with reads back, its range is there, and the result shows
  the payload with the number of the document. What a worker has stored is such a result, with the
  signature that was made of it; and a document is given up for a failed port only, never for what
  is in it.
-/

namespace DianService

open Lib Lib.Prog Lib.Checked

/-! ## What is kept -/

/-- The XML and the code are those of the payload that was accepted, with the number of the
    document and the technical key of its range. -/
def Document.Printed (c : PlatformConfig) (db : Db) (d : Document) (xml code : String) : Prop :=
  ∃ tenant p range, d.Backed c db tenant p range ∧
    (d.reads p).Prints c.codes range.technical_key xml code

/-- The documents keep the range that they are numbered in. -/
def Db.KeepsRanges (db db' : Db) : Prop :=
  ∀ d ∈ db.documents, ∃ e ∈ db'.documents, d.Same e ∧ e.numbering_range_id = d.numbering_range_id

/-- What a task has read of the tables is still true of them. -/
structure Task.Faithful (db : Db) (t : Task) : Prop where
  range : ∀ id found, (⟨.findNumberingRange id, .ok found⟩ : Exchange Call Reply) ∈ t.history →
    ∃ range, found = some range ∧ range.id = id ∧ ∃ q ∈ db.numbering_ranges, range.Same q
  found : ∀ d, Found t.job t.history d →
    ∃ e ∈ db.documents, d.Same e ∧ e.numbering_range_id = d.numbering_range_id

/-- Something outside has failed on the document. -/
inductive Document.PortFailed (c : PlatformConfig) (log : List (Uuid × Exchange Call Reply))
    (d : Document) : Prop where
  | range {id : Uuid} {e : DomainError} (hid : d.numbering_range_id = some id)
      (h : (d.id, ⟨.findNumberingRange id, .error e⟩) ∈ log)
  | signer {xml : String} {e : DomainError}
      (h : (d.id, ⟨.signForTenant d.tenant_id xml, .error e⟩) ∈ log)
  | store {cufe original_xml signed_xml : String} {e : DomainError}
      (h : (d.id, ⟨.storeArtifacts d.id cufe original_xml signed_xml, .error e⟩) ∈ log)
  | zip {signed_xml issuer_nit reason : String}
      (h : c.compress signed_xml issuer_nit d.pfx d.document_number = .error reason)

structure Platform.Printed (c : PlatformConfig) (s : Platform) : Prop where
  tasks : ∀ t ∈ s.system.tasks, t.Faithful s.system.db
  rows : ∀ d ∈ s.system.db.documents, d.direction = .outbound → ∀ xml, d.original_xml = some xml →
    d.Printed c s.system.db xml d.cufe_cude ∧ ∃ signed_xml, d.signed_xml = some signed_xml ∧
      (d.id, ⟨.signForTenant d.tenant_id xml, .ok signed_xml⟩) ∈ s.system.log
  failed : ∀ d ∈ s.system.db.documents, d.direction = .outbound → d.status = .processingFailed →
    d.PortFailed c s.system.log

variable {c : PlatformConfig} {s s' : Platform} {a : PlatformAction}

theorem range?_eq {db : Db} (hids : (db.numbering_ranges.map NumberingRange.id).Nodup)
    {range : NumberingRange} (h : range ∈ db.numbering_ranges) :
    db.range? range.id = some range :=
  find?_key_eq hids h

/-! ## What tasks have read -/

section Tasks

variable {db db' : Db} {t : Task}

theorem Task.Faithful.mono (h : t.Faithful db) (hroot : db.Rooted db') (hkeeps : db.KeepsRanges db') :
    t.Faithful db' := by
  refine ⟨fun id found hrange => ?_, fun d hd => ?_⟩
  · obtain ⟨range, hfound, hid, q, hq, hsame⟩ := h.range id found hrange
    obtain ⟨q', hq', hsame'⟩ := hroot.ranges q hq
    exact ⟨range, hfound, hid, q', hq', hsame.trans hsame'⟩
  · obtain ⟨e, he, hsame, hrange⟩ := h.found d hd
    obtain ⟨e', he', hsame', hrange'⟩ := hkeeps e he
    exact ⟨e', he', hsame.trans hsame', hrange'.trans hrange⟩

theorem World.found_range {w : World} {now : Time} {id : Uuid} {found : Option NumberingRange}
    (h : (w.apply db now (.findNumberingRange id)).2 = .ok found) : db.range? id = found := by
  cases hfault : w.fault with
  | none =>
    simp only [World.apply, Db.respond, hfault] at h
    exact Except.ok.inj h
  | failed message | lost message =>
    simp only [World.apply, Db.respond, hfault] at h
    cases h

theorem World.found_document {w : World} {now : Time} {id : Uuid} {d : Document}
    (h : (w.apply db now (.findDocument id)).2 = .ok (some d)) : d ∈ db.documents := by
  have htrue := (w.apply_answered db now (.findDocument id)).truthful
  rw [h] at htrue
  exact List.mem_of_find?_eq_some (show db.document? id = some d from htrue.symm)

/-- The task that makes a call. It only looks up ranges that are there. -/
theorem Task.Faithful.reply (h : t.Faithful db) (w : World) (now : Time) {asked : Call}
    (hasked : ∀ id, asked = .findNumberingRange id → ∃ range ∈ db.numbering_ranges, range.id = id)
    (rest : Prog Call Reply (Except DomainError Unit)) :
    (t.reply asked (w.apply db now asked).2 rest).Faithful db := by
  have hlast : ∀ {asked' : Call} {r : Reply asked'}, (⟨asked', r⟩ : Exchange Call Reply) ∈
      t.history ++ [⟨asked, (w.apply db now asked).2⟩] → ⟨asked', r⟩ ∈ t.history ∨
        asked = asked' ∧ (w.apply db now asked').2 = r := by
    intro asked' r he
    rcases List.mem_append.mp he with he | he
    · exact .inl he
    · obtain ⟨rfl, hr⟩ := Exchange.mk.inj (List.mem_singleton.mp he)
      exact .inr ⟨rfl, (eq_of_heq hr).symm⟩
  refine ⟨fun id found hrange => ?_, fun d hd => ?_⟩
  · obtain hold | ⟨rfl, hnew⟩ := hlast hrange
    · exact h.range id found hold
    · have hfind := World.found_range hnew
      obtain ⟨range, hmem, hid⟩ := hasked id rfl
      cases found with
      | none => exact absurd hid (of_decide_eq_false (by simpa using List.find?_eq_none.mp hfind range hmem))
      | some found =>
        exact ⟨found, rfl, by simpa using List.find?_some hfind, found,
          List.mem_of_find?_eq_some hfind, .refl found⟩
  · obtain hold | ⟨-, hnew⟩ := hlast hd
    · exact h.found d hold
    · exact ⟨d, World.found_document hnew, .refl d, rfl⟩

/-- A task of a later state was there, has just been claimed, or has just made a call. -/
theorem SystemStep.tasks {ubl : UblEngine} {config : ProcessorConfig} {s s' : System}
    {a : SystemAction} (h : SystemStep ubl config s a s') (ht : t ∈ s'.tasks) :
    t ∈ s.tasks ∨ t.history = [] ∨ ∃ u ∈ s.tasks, ∃ (w : World) (asked : Call) (k : _) (rest : _),
      u.rest = .call asked k ∧ t = u.reply asked (w.apply s.db s.now asked).2 rest := by
  cases h with
  | claimed =>
    rcases List.mem_append.mp ht with ht | ht
    · exact .inl ht
    · obtain ⟨job, -, rfl⟩ := List.mem_map.mp ht
      exact .inr (.inl rfl)
  | @worked i w u asked r db k hu hrest happly =>
    rcases List.mem_or_eq_of_mem_set ht with ht | rfl
    · exact .inl ht
    · refine .inr (.inr ⟨u, List.mem_of_getElem? hu, w, asked, k, k r, hrest, ?_⟩)
      rw [happly]
  | crashed => exact .inl (List.mem_of_mem_eraseIdx ht)
  | _ => exact .inl ht

/-- No step moves a document to another range. -/
theorem SystemStep.keepsRanges {ubl : UblEngine} {config : ProcessorConfig} {s s' : System}
    {a : SystemAction} (h : SystemStep ubl config s a s') (hs : s.Sound ubl config) :
    s.db.KeepsRanges s'.db := by
  intro d hd
  obtain ⟨e, he, hsame⟩ := h.kept.documents d hd
  obtain ⟨d', hd', hrow⟩ | ⟨r, times, tx, -, hdb, -⟩ := h.rows hs he
  · obtain rfl := hs.consistent.document_eq_of_id hd' hd (hrow.same.id.trans hsame.id.symm)
    exact ⟨e, he, hsame, hrow.range⟩
  · refine ⟨d, ?_, .refl d, rfl⟩
    rw [hdb]
    exact List.mem_append_left _ hd

end Tasks

/-! ## What is stored -/

theorem Document.Same.symm {d e : Document} (h : d.Same e) : e.Same d :=
  ⟨h.id.symm, h.tenant_id.symm, h.direction.symm, h.document_type.symm, h.pfx.symm,
    h.document_number.symm, h.payload.symm⟩

theorem Document.Printed.mono {db db' : Db} {d e : Document} {xml code : String}
    (h : d.Printed c db xml code) (hroot : db.Rooted db') (hsame : d.Same e)
    (hrange : e.numbering_range_id = d.numbering_range_id) : e.Printed c db' xml code := by
  obtain ⟨tenant, p, range, hbacked, hprints⟩ := h
  obtain ⟨range', hr, hbacked'⟩ := hbacked.mono hroot hsame hrange
  refine ⟨tenant, p, range', hbacked', ?_⟩
  rw [hr.technical_key, Document.reads, ← hsame.pfx, ← hsame.document_number]
  exact hprints

/-- The document that a task has found, if it is an issued one. -/
theorem Platform.Safe.found_backed (hs : s.Safe c) {t : Task} (hfaithful : t.Faithful s.system.db)
    {d' : Document} (hfound : Found t.job t.history d') {d : Document}
    (hd : d ∈ s.system.db.documents) (hid : d'.id = d.id) (hdirection : d.direction = .outbound) :
    d'.Same d ∧ ∃ tenant p range, d.Backed c s.system.db tenant p range ∧
      d'.Carries c.issuing.arithmetic c.issuing.floats p ∧ InI32 d'.document_number ∧
      d'.numbering_range_id = some range.id := by
  obtain ⟨e, he, hsame, hrange⟩ := hfaithful.found d' hfound
  obtain rfl := hs.sound.consistent.document_eq_of_id he hd (hsame.id.symm.trans hid)
  obtain ⟨tenant, p, range, hbacked⟩ := hs.issued e hd hdirection
  exact ⟨hsame, tenant, p, range, hbacked, hbacked.carries.same hsame.symm,
    hsame.document_number ▸ hbacked.number, hrange.symm.trans hbacked.range_id⟩

/-- The answer to the lookup of a range that is there. -/
theorem Platform.Safe.found_range (hs : s.Safe c) {t : Task} (hfaithful : t.Faithful s.system.db)
    {range : NumberingRange} (hrange : range ∈ s.system.db.numbering_ranges)
    {found : Option NumberingRange}
    (hlookup : (⟨.findNumberingRange range.id, .ok found⟩ : Exchange Call Reply) ∈ t.history) :
    ∃ range', found = some range' ∧ range'.technical_key = range.technical_key := by
  obtain ⟨range', rfl, hid, q, hq, hr⟩ := hfaithful.range _ _ hlookup
  have hfind := range?_eq hs.range_ids hq
  rw [hr.id, hid, range?_eq hs.range_ids hrange] at hfind
  cases hfind
  exact ⟨range', rfl, hr.technical_key.symm⟩

/-- How a generation by a task has ended. -/
theorem Platform.Safe.generated (hs : s.Safe c) {t : Task} (hfaithful : t.Faithful s.system.db)
    {d' : Document} (hfound : Found t.job t.history d') {d : Document}
    (hd : d ∈ s.system.db.documents) (hid : d'.id = d.id) (hdirection : d.direction = .outbound)
    {q : History} (hq : ∀ e ∈ q, e ∈ t.history) {r : Except String (String × String)}
    (hruns : Runs (generate c.ubl d').run q r) :
    (∃ xml code, r = .ok (xml, code) ∧ d.Printed c s.system.db xml code) ∨
      (∃ reason, r = .error reason) ∧ ∃ id e, d.numbering_range_id = some id ∧
        ⟨.findNumberingRange id, .error e⟩ ∈ t.history := by
  obtain ⟨hsame, tenant, p, range, hbacked, hcarries, hnumber, hrange⟩ :=
    hs.found_backed hfaithful hfound hd hid hdirection
  obtain ⟨found, xml, code, hwhich, hr, hprints⟩ | ⟨hr, hnone | ⟨e, he⟩⟩ :=
    generate_ends hcarries hnumber hrange range hruns
  · have hkey : found.technical_key = range.technical_key := by
      obtain rfl | hlookup := hwhich
      · rfl
      · obtain ⟨found', heq, hkey⟩ := hs.found_range hfaithful hbacked.range_mem (hq _ hlookup)
        cases heq
        exact hkey
    rw [hkey, Document.reads, hsame.pfx, hsame.document_number] at hprints
    exact .inl ⟨xml, code, hr, tenant, p, range, hbacked, hprints⟩
  · obtain ⟨found, hnone, -⟩ := hs.found_range hfaithful hbacked.range_mem (hq _ hnone)
    cases hnone
  · exact .inr ⟨hr, range.id, e, hbacked.range_id, hq _ he⟩

/-- What a task has asked is in the log under its document. -/
theorem System.Sound.logged {ubl : UblEngine} {config : ProcessorConfig} {s : System}
    (hs : s.Sound ubl config) {t : Task} (ht : t ∈ s.tasks) {d' d : Document}
    (hfound : Found t.job t.history d') (hid : d'.id = d.id) {e : Exchange Call Reply}
    (he : e ∈ t.history) : (d.id, e) ∈ s.log := by
  have hlogged := (hs.task t ht).logged e he
  rwa [← (hs.found ht hfound).1, hid] at hlogged

/-- What a task is about to store of an issued document. -/
theorem Platform.Safe.stores (hs : s.Safe c) {t : Task} (ht : t ∈ s.system.tasks)
    (hfaithful : t.Faithful s.system.db) {d : Document} (hd : d ∈ s.system.db.documents)
    (hdirection : d.direction = .outbound) {cufe original_xml signed_xml : String}
    {k : Except DomainError Unit → Prog Call Reply (Except DomainError Unit)}
    (hrest : t.rest = .call (.storeArtifacts d.id cufe original_xml signed_xml) k) :
    d.Printed c s.system.db original_xml cufe ∧
      (d.id, ⟨.signForTenant d.tenant_id original_xml, .ok signed_xml⟩) ∈ s.system.log := by
  have hpath := (hs.sound.task t ht).path
  rw [hrest] at hpath
  obtain ⟨d', hid, hfound, ⟨q, hq, hruns⟩, hsigned⟩ :=
    call_of_path (process_works c.ubl c.processing t.job) hpath
  have hsame := (hs.found_backed hfaithful hfound hd hid hdirection).1
  constructor
  · obtain ⟨xml, code, hr, hprinted⟩ | ⟨⟨reason, hr⟩, -⟩ :=
      hs.generated hfaithful hfound hd hid hdirection hq hruns
    · cases hr
      exact hprinted
    · cases hr
  · rw [hsame.tenant_id] at hsigned
    exact hs.sound.logged ht hfound hid hsigned

/-- A task that is about to give up an issued document. -/
theorem Platform.Safe.gives_up (hs : s.Safe c) {t : Task} (ht : t ∈ s.system.tasks)
    (hfaithful : t.Faithful s.system.db) {d : Document} (hd : d ∈ s.system.db.documents)
    (hdirection : d.direction = .outbound) {tr : Transition}
    {k : Except DomainError Bool → Prog Call Reply (Except DomainError Unit)}
    (hrest : t.rest = .call (.applyTransition tr) k) (hid : d.id = tr.document_id)
    (hfails : tr.target = .processingFailed) : d.PortFailed c s.system.log := by
  have hpath := (hs.sound.task t ht).path
  rw [hrest] at hpath
  obtain ⟨d', hid', hfound, hblocked⟩ :=
    call_of_path (process_works c.ubl c.processing t.job) hpath hfails
  have hid := hid'.trans hid.symm
  obtain ⟨hsame, tenant, p, range, -, hcarries, hnumber, -⟩ :=
    hs.found_backed hfaithful hfound hd hid hdirection
  cases hblocked with
  | unread h =>
    obtain ⟨nit, hread⟩ := @issuerNit_ok _ c.codes _ c.compress _ _ hcarries hnumber
    rw [show issuerNit c.ubl d' = .ok nit from hread] at h
    cases h
  | ungenerated hq hruns =>
    obtain ⟨xml, code, hr, -⟩ | ⟨-, id, e, hrange, he⟩ :=
      hs.generated hfaithful hfound hd hid hdirection hq hruns
    · cases hr
    · exact .range hrange (hs.sound.logged ht hfound hid he)
  | unsigned h =>
    rw [hsame.tenant_id] at h
    exact .signer (hs.sound.logged ht hfound hid h)
  | unstored h =>
    rw [hid] at h
    exact .store (hs.sound.logged ht hfound hid h)
  | unpacked h =>
    rw [hsame.pfx, hsame.document_number] at h
    exact .zip h

/-- The range that a task is about to look up is there. -/
theorem Platform.Safe.looks_up (hs : s.Safe c) {t : Task} (ht : t ∈ s.system.tasks)
    (hfaithful : t.Faithful s.system.db) {id : Uuid}
    {k : Except DomainError (Option NumberingRange) → Prog Call Reply (Except DomainError Unit)}
    (hrest : t.rest = .call (.findNumberingRange id) k) :
    ∃ range ∈ s.system.db.numbering_ranges, range.id = id := by
  have hpath := (hs.sound.task t ht).path
  rw [hrest] at hpath
  obtain ⟨d', hfound, hrange⟩ := call_of_path (process_works c.ubl c.processing t.job) hpath
  obtain ⟨d, hd, hsame, hsameRange⟩ := hfaithful.found d' hfound
  have hdirection : d.direction = .outbound := by
    cases hdirection : d.direction with
    | outbound => rfl
    | inbound =>
      have hemploys := hs.sound.employs ht hfound
      rw [hsame.id] at hemploys
      exact absurd hemploys (hs.apart.employed d hd hdirection)
  obtain ⟨tenant, p, range, hbacked⟩ := hs.issued d hd hdirection
  have heq := hbacked.range_id.symm.trans (hsameRange.trans hrange)
  exact ⟨range, hbacked.range_mem, Option.some.inj heq⟩

theorem Document.PortFailed.mono {log log' : List (Uuid × Exchange Call Reply)} {d e : Document}
    (h : d.PortFailed c log) (hlog : ∀ x ∈ log, x ∈ log') (hsame : d.Same e)
    (hrange : e.numbering_range_id = d.numbering_range_id) : e.PortFailed c log' := by
  cases h with
  | range hid h =>
    rw [hsame.id] at h
    exact .range (hrange.trans hid) (hlog _ h)
  | signer h =>
    rw [hsame.id, hsame.tenant_id] at h
    exact .signer (hlog _ h)
  | store h =>
    rw [hsame.id] at h
    exact .store (hlog _ h)
  | zip h =>
    rw [hsame.pfx, hsame.document_number] at h
    exact .zip h

theorem Platform.Printed.system_step (hs : s.Safe c) (hP : s.Printed c) {a : SystemAction}
    {system : System} (hstep : systemStep c.ubl c.processing s.system a = some system) :
    (s.inSystem system).Printed c := by
  have h := systemStep_inv hstep
  have hroot := systemStep_tables hstep
  have hkeeps := h.keepsRanges hs.sound
  refine ⟨fun t ht => ?_, fun d hd hdirection xml hxml => ?_, fun d hd hdirection hstatus => ?_⟩
  · obtain hold | hnew | ⟨u, hu, w, asked, k, rest, hrest, rfl⟩ := h.tasks ht
    · exact (hP.tasks t hold).mono hroot hkeeps
    · refine ⟨fun id found hrange => ?_, fun d hd => ?_⟩
      · rw [hnew] at hrange
        cases hrange
      · rw [Found, hnew] at hd
        cases hd
    · refine ((hP.tasks u hu).reply w s.system.now ?_ rest).mono hroot hkeeps
      rintro id rfl
      exact hs.looks_up hu (hP.tasks u hu) hrest
  · obtain ⟨e, he, hrow⟩ | ⟨r, times, tx, -, -, rfl⟩ := h.rows hs.sound hd
    · have hrows := hP.rows e he (hrow.same.direction.trans hdirection) xml
      cases hrow with
      | kept =>
        obtain ⟨hprinted, signed_xml, hsigned, hlog⟩ := hrows hxml
        exact ⟨hprinted.mono hroot (.refl d) rfl, signed_xml, hsigned, h.log_mono _ hlog⟩
      | moved =>
        obtain ⟨hprinted, signed_xml, hsigned, hlog⟩ := hrows hxml
        exact ⟨hprinted.mono hroot (Document.same_moved _ e) rfl, signed_xml, hsigned,
          h.log_mono _ hlog⟩
      | @signed t cufe original_xml signed_xml k ht hrest =>
        cases hxml
        obtain ⟨hprinted, hlog⟩ := hs.stores ht (hP.tasks t ht) he hdirection hrest
        exact ⟨hprinted.mono hroot (Document.same_signed _ _ _ e) rfl, signed_xml, rfl,
          h.log_mono _ hlog⟩
    · cases hxml
  · obtain ⟨e, he, hrow⟩ | ⟨r, times, tx, -, -, rfl⟩ := h.rows hs.sound hd
    · have hdirection := hrow.same.direction.trans hdirection
      refine Document.PortFailed.mono ?_ h.log_mono hrow.same hrow.range
      obtain ⟨e', he', hid, hold⟩ | hpending | ⟨t, ht, tr, k, hrest, hid, htarget⟩ :=
        h.status_cases d hd
      · obtain rfl := hs.sound.consistent.document_eq_of_id he' he (hid.trans hrow.same.id.symm)
        exact hP.failed e' he hdirection (hold.trans hstatus)
      · rw [hstatus] at hpending
        cases hpending
      · exact hs.gives_up ht (hP.tasks t ht) he hdirection hrest (hrow.same.id.trans hid)
          (htarget.symm.trans hstatus)
    · cases hstatus

/-- Another writer of the tables, which leaves the documents and adds none that is issued. -/
theorem Platform.Printed.write_step (hP : s.Printed c) {db : Db} {events : List EventTask}
    {registrations : List RegisteredInvoice} (hroot : s.system.db.Rooted db)
    (hkept : ∀ d ∈ s.system.db.documents, d ∈ db.documents)
    (hnew : ∀ d ∈ db.documents, d.direction = .outbound → d ∈ s.system.db.documents) :
    Platform.Printed c ⟨{ s.system with db := db }, events, registrations⟩ := by
  refine ⟨fun t ht => ?_, fun d hd hdirection xml hxml => ?_, fun d hd hdirection hstatus => ?_⟩
  · exact (hP.tasks t ht).mono hroot fun d hd => ⟨d, hkept d hd, .refl d, rfl⟩
  · obtain ⟨hprinted, hsigned⟩ := hP.rows d (hnew d hd hdirection) hdirection xml hxml
    exact ⟨hprinted.mono hroot (.refl d) rfl, hsigned⟩
  · exact hP.failed d (hnew d hd hdirection) hdirection hstatus

theorem PlatformStep.printed (h : PlatformStep c s a s') (hs : s.Safe c) (hP : s.Printed c) :
    s'.Printed c := by
  have hreceived : ∀ {d : Document} {registrations : List RegisteredInvoice},
      d.direction = .inbound → Platform.Printed c
        ⟨{ s.system with db := s.system.db.withReceived d }, s.events, registrations⟩ := by
    intro d registrations hinbound
    refine hP.write_step (.of_eq rfl rfl) (fun e he => List.mem_append_left _ he) ?_
    intro e he hdirection
    rcases List.mem_append.mp he with he | he
    · exact he
    · rw [List.mem_singleton.mp he, hinbound] at hdirection
      cases hdirection
  cases h with
  | idle => exact hP
  | system _ hstep => exact hP.system_step hs hstep
  | @issued _ _ _ _ _ times r => exact hP.system_step hs (a := .issueOutbound r times) rfl
  | verified => exact hreceived rfl
  | unverified => exact hreceived rfl
  | started => exact hP.write_step (.of_eq rfl rfl) (fun d hd => hd) fun d hd _ => hd
  | dropped => exact hP.write_step (.of_eq rfl rfl) (fun d hd => hd) fun d hd _ => hd
  | @answered i w t asked k ht hrest =>
    have hpath := (hs.events t (List.mem_of_getElem? ht)).path
    rw [hrest] at hpath
    have hcall := call_of_path (registerEvent_calls t.issuer t.document_id t.request) hpath
    obtain ⟨hdocuments, -, -, hroot⟩ := EventWorld.apply_kept w s.system.db s.system.now hcall
    exact hP.write_step hroot (fun d hd => hdocuments ▸ hd) fun d hd _ => hdocuments ▸ hd

theorem printed_of_reachable (h : (platform c).Reachable s) : s.Safe c ∧ s.Printed c := by
  refine Machine.ReachableBy.invariant (I := fun s => s.Safe c ∧ s.Printed c) ?_
    (fun s a s' _ hs _ hstep => ?_) h
  · rintro s ⟨tenants, now, rfl⟩
    exact ⟨safe_of_reachable (.start ⟨tenants, now, rfl⟩),
      ⟨List.forall_mem_nil _, List.forall_mem_nil _, List.forall_mem_nil _⟩⟩
  · have hstep := platformStep_inv hstep
    exact ⟨hstep.safe hs.1, hstep.printed hs.1 hs.2⟩

/-! ## Every reachable state -/

/-- The first invoice of the range. -/
def firstInvoice : Ubl.Payload := .invoice { Ubl.plainInvoice with number := 1 }

def issuerStart : Platform := ⟨⟨Db.fresh [⟨1, "900123456"⟩], 0, [], [], []⟩, [], []⟩

/-- The invoice is issued, and its job claimed and worked on. -/
def issuerRun (n : Nat) (answer : (c : Call) → Reply c) : List PlatformAction :=
  [.system (.registerRange 7 1 sampleRange),
    .issue 1 firstInvoice none ⟨10, 20, 0⟩ (List.replicate 7 5),
    .system (.tick 10), .system (.claim "worker-1" 1 600 [])] ++
  List.replicate n (.system (.work 0 (sampleWorld answer)))

/-- The vault is sealed. -/
def sealedAnswer : (c : Call) → Reply c
  | .signForTenant .. => .error (.crypto "sealed")
  | c => calmAnswer c

theorem issuerRun_reaches {n : Nat} {answer : (c : Call) → Reply c} {p : Document → Bool}
    (h : ((platform samplePlatform).run issuerStart (issuerRun n answer)).any (fun s =>
      s.system.db.documents.any p) = true) :
    ∃ s, (platform samplePlatform).run issuerStart (issuerRun n answer) = some s ∧
      (platform samplePlatform).Reachable s ∧ ∃ d ∈ s.system.db.documents, p d = true := by
  obtain ⟨s, hrun, hany⟩ := (Option.any_eq_true _ _).mp h
  exact ⟨s, hrun, Machine.Reachable.run (.start ⟨_, _, rfl⟩) hrun, List.any_eq_true.mp hany⟩

theorem issuerRun_stores : ((platform samplePlatform).run issuerStart
    (issuerRun 5 calmAnswer)).any (fun s => s.system.db.documents.any fun d =>
      d.direction = .outbound ∧ d.original_xml.isSome) = true := by decide +kernel

end DianService
