import DianService.Worker.Attempts

/-
  Worker: one signed XML for each document. `artifacts` signs only where it finds no signed XML,
  and the signer gives another XML every time, so what keeps two of them from being sent is that a
  worker stores before it sends and that no two workers have a transmit job of a document at a
  time. `Signatures` says so of the tables, the log and the tasks.

  A CUFE is never empty: it is a SHA-384 digest in hexadecimal. `artifacts` takes an empty one for
  "not signed yet", so the results here are about a `UblEngine` that computes it.
-/

namespace DianService

open Lib Lib.Prog

/-- The calls that send a document to the DIAN. -/
def Call.isTransmission : Call → Bool
  | .sendBillSync .. | .sendTestSetAsync .. => true
  | _ => false

/-- The ZIP holds the signed XML that the document has. -/
def Document.Packed (ubl : UblEngine) (d : Document) (zip : List UInt8) : Prop :=
  ∃ signed_xml nit name, d.signed_xml = some signed_xml ∧
    ubl.compress_xml_to_zip signed_xml nit d.pfx d.document_number = .ok (zip, name)

/-- A call about the document goes by the columns it has: a transmission by `signed_xml`, a
    status query by `cufe_cude`. -/
def GoesBy (ubl : UblEngine) (d : Document) : Call → Prop
  | .sendBillSync _ zip _ => d.Packed ubl zip ∧ d.cufe_cude ≠ ""
  | .sendTestSetAsync _ zip _ _ => d.Packed ubl zip ∧ d.cufe_cude ≠ ""
  | .getStatus _ cufe _ => (∃ signed_xml, d.signed_xml = some signed_xml) ∧ d.cufe_cude = cufe ∧
      cufe ≠ ""
  | _ => True

/-- The calls that go by the signature. -/
def Call.signs : Call → Bool
  | .sendBillSync .. | .sendTestSetAsync .. | .getStatus .. => true
  | _ => false

/-! ## The columns that `store_artifacts` writes -/

structure Document.SameSignature (d e : Document) : Prop where
  signed_xml : e.signed_xml = d.signed_xml
  cufe_cude : e.cufe_cude = d.cufe_cude

theorem Document.SameSignature.refl (d : Document) : d.SameSignature d := ⟨rfl, rfl⟩

section Columns

variable {ubl : UblEngine} {d e : Document} {c : Call}

theorem GoesBy.same (h : GoesBy ubl d c) (hd : d.Same e) (hs : d.SameSignature e) :
    GoesBy ubl e c := by
  have hpacked : ∀ {zip : List UInt8}, d.Packed ubl zip → e.Packed ubl zip := by
    rintro zip ⟨signed_xml, nit, name, hxml, hzip⟩
    refine ⟨signed_xml, nit, name, hs.signed_xml.trans hxml, ?_⟩
    rwa [← hd.pfx, ← hd.document_number]
  cases c with
  | sendBillSync => exact ⟨hpacked h.1, hs.cufe_cude ▸ h.2⟩
  | sendTestSetAsync => exact ⟨hpacked h.1, hs.cufe_cude ▸ h.2⟩
  | getStatus =>
      obtain ⟨⟨signed_xml, hxml⟩, hcufe, hne⟩ := h
      exact ⟨⟨signed_xml, hs.signed_xml.trans hxml⟩, hs.cufe_cude.trans hcufe, hne⟩
  | _ => trivial

/-- Nothing goes by a signature that is not there. -/
theorem GoesBy.not_unsigned (h : GoesBy ubl d c) (hc : c.signs = true) : ¬ Unsigned d := by
  have hsigned : (∃ signed_xml, d.signed_xml = some signed_xml) ∧ d.cufe_cude ≠ "" := by
    cases c with
    | sendBillSync =>
        obtain ⟨⟨signed_xml, -, -, hxml, -⟩, hne⟩ := h
        exact ⟨⟨signed_xml, hxml⟩, hne⟩
    | sendTestSetAsync =>
        obtain ⟨⟨signed_xml, -, -, hxml, -⟩, hne⟩ := h
        exact ⟨⟨signed_xml, hxml⟩, hne⟩
    | getStatus =>
        obtain ⟨hxml, hcufe, hne⟩ := h
        exact ⟨hxml, hcufe ▸ hne⟩
    | _ => cases hc
  obtain ⟨⟨signed_xml, hxml⟩, hne⟩ := hsigned
  rintro (hnone | hempty)
  · rw [hxml] at hnone
    cases hnone
  · exact hne hempty

end Columns

section Step

variable {ubl : UblEngine} {config : ProcessorConfig} {s s' : System} {a : SystemAction}

theorem Effect.signature {db db' : Db} {c : Call} (h : Effect db c db') :
    ∀ d ∈ db.documents, ∃ d' ∈ db'.documents, d.Same d' ∧ (d.SameSignature d' ∨
      ∃ cufe original_xml signed_xml, c = .storeArtifacts d.id cufe original_xml signed_xml) := by
  intro d hd
  cases h with
  | same | recorded | completed | retried | released | buried =>
      exact ⟨d, hd, .refl d, .inl (.refl d)⟩
  | stored =>
      refine ⟨_, List.mem_map_of_mem hd, Document.same_ite (Document.same_signed _ _ _) (fun d => d.id = _) d, ?_⟩
      split
      · rename_i hid
        rw [hid]
        exact .inr ⟨_, _, _, rfl⟩
      · exact .inl (.refl d)
  | @applied tr e _ h =>
      rw [h.documents]
      refine ⟨_, List.mem_map_of_mem hd, Document.same_ite (Document.same_moved tr.target) (fun d => d.id = e.id) d, ?_⟩
      split <;> exact .inl ⟨rfl, rfl⟩

/-- The step is a `store_artifacts` for the document. -/
def Stores (s : System) (id : Uuid) : SystemAction → Prop
  | .work i _ => ∃ t, s.tasks[i]? = some t ∧ ∃ cufe original_xml signed_xml,
      t.next? = some (.storeArtifacts id cufe original_xml signed_xml)
  | _ => False

/-- A step leaves the signature of a document, or it stores one. -/
theorem SystemStep.signature (h : SystemStep ubl config s a s') :
    ∀ d ∈ s.db.documents, ∃ d' ∈ s'.db.documents, d.Same d' ∧
      (d.SameSignature d' ∨ Stores s d.id a) := by
  intro d hd
  have hmap : ∀ {p : Document → Prop} [DecidablePred p] {status : DocumentStatus},
      ∃ d' ∈ s.db.documents.map (fun d => if p d then d.moved status else d), d.Same d' ∧
        d.SameSignature d' := by
    intro p _ status
    refine ⟨_, List.mem_map_of_mem hd, Document.same_ite (Document.same_moved status) p d, ?_⟩
    split <;> exact ⟨rfl, rfl⟩
  have hkeep : ∀ {documents : List Document}, (∃ d' ∈ documents, d.Same d' ∧ d.SameSignature d') →
      ∃ d' ∈ documents, d.Same d' ∧ (d.SameSignature d' ∨ Stores s d.id a) := by
    rintro documents ⟨d', hd', hsame, hsig⟩
    exact ⟨d', hd', hsame, .inl hsig⟩
  cases h with
  | idle hdocuments =>
      refine hkeep ⟨d, ?_, .refl d, .refl d⟩
      rw [hdocuments]
      exact hd
  | issued => exact hkeep ⟨d, List.mem_append_left _ hd, .refl d, .refl d⟩
  | expired | claimed | crashed => exact hkeep ⟨d, hd, .refl d, .refl d⟩
  | @worked i w t c r db k ht hrest _ h =>
      obtain ⟨d', hd', hsame, hsig | ⟨cufe, original_xml, signed_xml, rfl⟩⟩ :=
        h.effect.signature d hd
      · exact ⟨d', hd', hsame, .inl hsig⟩
      · exact ⟨d', hd', hsame, .inr ⟨t, ht, cufe, original_xml, signed_xml, Task.next?_eq hrest⟩⟩
  | requeued h =>
      dsimp only
      rw [(Db.requeueContingency_ok h).1]
      exact hkeep hmap
  | revived h hne =>
      obtain h | ⟨j, e, -, -, -, -, -, -, -, -, -, hdocuments⟩ := Db.retryDeadJob_ok h
      · exact absurd h hne
      · dsimp only
        rw [hdocuments]
        split
        · exact hkeep hmap
        · exact hkeep ⟨d, hd, .refl d, .refl d⟩

/-! ## The invariant -/

/-- The signature that a task works with is the one its document has. -/
structure Task.Signature (s : System) (t : Task) : Prop where
  found : ∀ d, Found t.job t.history d → Unstored t.history →
    ∃ e ∈ s.db.documents, e.id = t.job.document_id ∧ d.SameSignature e
  stored : ∀ id cufe original_xml signed_xml,
    (⟨.storeArtifacts id cufe original_xml signed_xml, .ok ()⟩ : Exchange Call Reply) ∈ t.history →
      ∃ e ∈ s.db.documents, e.id = t.job.document_id ∧ e.signed_xml = some signed_xml ∧
        e.cufe_cude = cufe ∧ cufe ≠ ""

structure Signatures (ubl : UblEngine) (s : System) : Prop where
  log : ∀ x ∈ s.log, ∃ d ∈ s.db.documents, d.id = x.1 ∧ GoesBy ubl d x.2.call
  tasks : ∀ t ∈ s.tasks, t.holding = true → t.claim.Holds (leaseOf s.db.jobs) →
    t.job.kind = .transmit → t.Signature s

/-- The job of a task that holds it is the only active one of its kind for the document. -/
theorem holds_document_unique (hs : s.Sound ubl config) (hI : LeaseInv s) {t u : Task}
    {l₁ l₂ : List Task} (hsplit : s.tasks = l₁ ++ t :: l₂) (ht : t.holding = true)
    (hth : t.claim.Holds (leaseOf s.db.jobs)) (hu : u ∈ l₁ ++ l₂) (huh : u.holding = true)
    (huH : u.claim.Holds (leaseOf s.db.jobs)) (hkind : t.job.kind = u.job.kind) :
    u.job.document_id ≠ t.job.document_id := by
  intro hdoc
  have hts : t ∈ s.tasks := by simp [hsplit]
  have hus : u ∈ s.tasks := by
    rw [hsplit]
    rcases List.mem_append.mp hu with hu | hu
    · exact List.mem_append_left _ hu
    · exact List.mem_append_right _ (List.mem_cons_of_mem _ hu)
  obtain ⟨i, hi, hiof⟩ := (hs.task t hts).row
  obtain ⟨j, hj, hjof⟩ := (hs.task u hus).row
  have hirunning := (running_of_holds hs hth hi hiof.id).1
  have hjrunning := (running_of_holds hs huH hj hjof.id).1
  have hij := hs.consistent.active i hi j hj (JobRow.active_iff.mpr (.inr hirunning))
    (JobRow.active_iff.mpr (.inr hjrunning))
    (hiof.document_id.trans (hdoc.symm.trans hjof.document_id.symm))
    (hiof.kind.trans (hkind.trans hjof.kind.symm))
  refine holder_unique hI hsplit ht hth hu huh huH ?_
  rw [← hjof.id, ← hij, hiof.id]

/-- What a task knows of its document is still true of the row. -/
theorem signedAs_row {t : Task} (hs : s.Sound ubl config) (ht : t ∈ s.tasks)
    (hS : t.Signature s) {d : Document} {signed_xml cufe : String}
    (hfound : Found t.job t.history d) (h : SignedAs d t.history signed_xml cufe) :
    ∃ e ∈ s.db.documents, e.id = t.job.document_id ∧ d.Same e ∧
      e.signed_xml = some signed_xml ∧ e.cufe_cude = cufe ∧ cufe ≠ "" := by
  obtain ⟨hid, e, he, hsame⟩ := hs.found ht hfound
  have heid : e.id = t.job.document_id := hsame.id.symm.trans hid
  refine ⟨e, he, heid, hsame, ?_⟩
  rcases h with ⟨hunstored, hxml, hcufe, hne⟩ | ⟨original_xml, hstored⟩
  · obtain ⟨e', he', heid', hsig⟩ := hS.found d hfound hunstored
    rw [hs.consistent.document_eq_of_id he he' (heid.trans heid'.symm)]
    exact ⟨hsig.signed_xml.trans hxml, hsig.cufe_cude.trans hcufe, hne⟩
  · obtain ⟨e', he', heid', hxml, hcufe, hne⟩ := hS.stored _ _ _ _ hstored
    rw [hs.consistent.document_eq_of_id he he' (heid.trans heid'.symm)]
    exact ⟨hxml, hcufe, hne⟩

/-- A worker that works on the document within its lease holds its job. -/
theorem holder_of_working {t : Task} {c : Call} {d : Document}
    {k : Reply c → Prog Call Reply (Except DomainError Unit)} (hI : LeaseInv s)
    (ht : t ∈ s.tasks) (hrest : t.rest = .call c k) (hlive : t.claim.Unexpired s.now)
    (hW : Working t.job d t.history) :
    t.holding = true ∧ t.claim.Holds (leaseOf s.db.jobs) := by
  have hholding : t.holding = true := holding_iff.mpr ⟨by rw [hrest]; rfl, hW.unsettled⟩
  exact ⟨hholding, hI.held t.claim (mem_claimsOf ht hholding) hlive⟩

/-- At the time of the call the columns are there. -/
theorem goesBy_of_call {t : Task} {c : Call}
    {k : Reply c → Prog Call Reply (Except DomainError Unit)} (hs : s.Sound ubl config)
    (hI : LeaseInv s) (hJ : Signatures ubl s) (ht : t ∈ s.tasks) (hrest : t.rest = .call c k)
    (hlive : t.claim.Unexpired s.now) :
    ∃ d ∈ s.db.documents, d.id = t.job.document_id ∧ GoesBy ubl d c := by
  have hP := hs.call ht hrest
  have hrow : ∀ {d : Document} {signed_xml cufe : String}, Working t.job d t.history →
      t.job.kind = .transmit → SignedAs d t.history signed_xml cufe →
      ∃ e ∈ s.db.documents, e.id = t.job.document_id ∧ d.Same e ∧
        e.signed_xml = some signed_xml ∧ e.cufe_cude = cufe ∧ cufe ≠ "" := by
    intro d signed_xml cufe hW hkind hsigned
    obtain ⟨hholding, hholds⟩ := holder_of_working hI ht hrest hlive hW
    exact signedAs_row hs ht (hJ.tasks t ht hholding hholds hkind) hW.found hsigned
  have hpacks : ∀ {d : Document} {zip : List UInt8}, Working t.job d t.history →
      t.job.kind = .transmit → Packs ubl d t.history zip →
      ∃ e ∈ s.db.documents, e.id = t.job.document_id ∧ e.Packed ubl zip ∧ e.cufe_cude ≠ "" := by
    rintro d zip hW hkind ⟨signed_xml, cufe, nit, name, hsigned, hzip⟩
    obtain ⟨e, he, hid, hsame, hxml, hcufe, hne⟩ := hrow hW hkind hsigned
    refine ⟨e, he, hid, ⟨signed_xml, nit, name, hxml, ?_⟩, hcufe ▸ hne⟩
    rwa [← hsame.pfx, ← hsame.document_number]
  cases c with
  | sendBillSync =>
      obtain ⟨hkind, -, d, hW, -, hpack⟩ := hP
      exact hpacks hW hkind hpack
  | sendTestSetAsync =>
      obtain ⟨hkind, -, d, hW, hpack⟩ := hP
      exact hpacks hW hkind hpack
  | getStatus =>
      obtain ⟨hkind, d, signed_xml, hW, hsigned⟩ := hP
      obtain ⟨e, he, hid, -, hxml, hcufe, hne⟩ := hrow hW hkind hsigned
      exact ⟨e, he, hid, ⟨signed_xml, hxml⟩, hcufe, hne⟩
  | _ =>
      obtain ⟨d, hd, hid⟩ := hs.document ht
      exact ⟨d, hd, hid, trivial⟩

/-- A signature is stored only where the document has none. -/
theorem unsigned_of_stores (hs : s.Sound ubl config) (hI : LeaseInv s) (hC : Punctual s a)
    (hJ : Signatures ubl s) {id : Uuid} (h : Stores s id a) :
    ∀ e ∈ s.db.documents, e.id = id → Unsigned e := by
  intro e he heid
  cases a with
  | work i w =>
      obtain ⟨t, ht, cufe, original_xml, signed_xml, hnext⟩ := h
      obtain ⟨k, hrest⟩ := Task.rest_of_next? hnext
      have hmem := List.mem_of_getElem? ht
      obtain ⟨d, hW, hid, hkind, hunsigned, hunstored, -⟩ := hs.call hmem hrest
      obtain ⟨hholding, hholds⟩ := holder_of_working hI hmem hrest (hC t ht) hW
      obtain ⟨e', he', heid', hsig⟩ := (hJ.tasks t hmem hholding hholds hkind).found d hW.found
        hunstored
      obtain ⟨hdid, -⟩ := hs.found hmem hW.found
      have hee : e = e' := hs.consistent.document_eq_of_id he he'
        (heid.trans (hid.trans (hdid.trans heid'.symm)))
      rw [hee]
      exact hunsigned.imp (fun h => hsig.signed_xml.trans h) fun h => hsig.cufe_cude.trans h
  | _ => cases h

/-! ## One step -/

theorem GoesBy.of_not_signs {d : Document} {c : Call} (h : c.signs = false) : GoesBy ubl d c := by
  cases c <;> trivial

theorem signatures_log (h : SystemStep ubl config s a s') (hs : s.Sound ubl config)
    (hI : LeaseInv s) (hC : Punctual s a) (hJ : Signatures ubl s) :
    ∀ x ∈ s'.log, ∃ d ∈ s'.db.documents, d.id = x.1 ∧ GoesBy ubl d x.2.call := by
  have hold : ∀ x : Uuid × Exchange Call Reply,
      (∃ d ∈ s.db.documents, d.id = x.1 ∧ GoesBy ubl d x.2.call) →
      ∃ d ∈ s'.db.documents, d.id = x.1 ∧ GoesBy ubl d x.2.call := by
    rintro x ⟨d, hd, hid, hgoes⟩
    obtain ⟨d', hd', hsame, hsig⟩ := h.signature d hd
    refine ⟨d', hd', hsame.id.symm.trans hid, ?_⟩
    by_cases hsigns : x.2.call.signs = true
    · rcases hsig with hsig | hstores
      · exact hgoes.same hsame hsig
      · exact absurd (unsigned_of_stores hs hI hC hJ hstores d hd rfl) (hgoes.not_unsigned hsigns)
    · exact .of_not_signs (by simpa using hsigns)
  intro x hx
  cases h with
  | @worked i w t c r db k ht hrest _ h =>
      rcases List.mem_append.mp hx with hx | hx
      · exact hold x (hJ.log x hx)
      · rw [List.mem_singleton.mp hx] at *
        exact hold _ (goesBy_of_call hs hI hJ (List.mem_of_getElem? ht) hrest (hC t ht))
  | _ => exact hold x (hJ.log x hx)

/-- While nobody stores for its document, what a task knows stays true. -/
theorem Task.Signature.mono {t u : Task} (h : SystemStep ubl config s a s') (hS : t.Signature s)
    (hnot : ¬ Stores s t.job.document_id a) (hjob : u.job = t.job)
    (hfound : ∀ d, Found t.job u.history d → Unstored u.history →
      Found t.job t.history d ∧ Unstored t.history ∨ d ∈ s.db.documents ∧ d.id = t.job.document_id)
    (hstored : ∀ id cufe original_xml signed_xml,
      (⟨.storeArtifacts id cufe original_xml signed_xml, .ok ()⟩ : Exchange Call Reply) ∈ u.history →
        (⟨.storeArtifacts id cufe original_xml signed_xml, .ok ()⟩ : Exchange Call Reply) ∈
          t.history) : u.Signature s' := by
  have hkept : ∀ e ∈ s.db.documents, e.id = t.job.document_id →
      ∃ e' ∈ s'.db.documents, e'.id = u.job.document_id ∧ e.SameSignature e' := by
    intro e he hid
    obtain ⟨e', he', hsame, hsig⟩ := h.signature e he
    rw [hjob]
    exact ⟨e', he', hsame.id.symm.trans hid, hsig.resolve_right (hid ▸ hnot)⟩
  refine ⟨fun d hd hunstored => ?_, fun id cufe original_xml signed_xml hmem => ?_⟩
  · rcases hfound d (hjob ▸ hd) hunstored with ⟨hd, hunstored⟩ | ⟨hd, hid⟩
    · obtain ⟨e, he, hid, hsig⟩ := hS.found d hd hunstored
      obtain ⟨e', he', hid', hsig'⟩ := hkept e he hid
      exact ⟨e', he', hid', hsig'.signed_xml.trans hsig.signed_xml,
        hsig'.cufe_cude.trans hsig.cufe_cude⟩
    · exact hkept d hd hid
  · obtain ⟨e, he, hid, hxml, hcufe, hne⟩ := hS.stored _ _ _ _ (hstored _ _ _ _ hmem)
    obtain ⟨e', he', hid', hsig'⟩ := hkept e he hid
    exact ⟨e', he', hid', hsig'.signed_xml.trans hxml, hsig'.cufe_cude.trans hcufe, hne⟩

/-- The task that makes the call. -/
theorem signature_reply {i : Nat} {w : World} {t : Task} {c : Call} {r : Reply c} {db : Db}
    {k : Reply c → Prog Call Reply (Except DomainError Unit)} (hubl : ubl.ComputesCufe)
    (hs : s.Sound ubl config) (ht : s.tasks[i]? = some t) (hrest : t.rest = .call c k)
    (happly : w.apply s.db s.now c = (db, r)) (h : Answered s.db c r db) (hS : t.Signature s)
    (hstep : SystemStep ubl config s (.work i w) s') (hdb : s'.db = db) :
    (t.reply c r (k r)).Signature s' := by
  have hmem := List.mem_of_getElem? ht
  have hP := hs.call hmem hrest
  by_cases hstores : c.stores = true
  · -- its own `store_artifacts`
    cases c with
    | storeArtifacts id cufe original_xml signed_xml =>
        obtain ⟨d, hW, rfl, -, -, hunstored, hcufe⟩ := hP
        refine ⟨fun e _ hun => ?_, fun id cufe' original_xml' signed_xml' hstored => ?_⟩
        · have hnot := hun _ (List.mem_append_right _ (List.mem_singleton_self _))
          cases hnot
        · rcases List.mem_append.mp hstored with hstored | hstored
          · have hnot := hunstored _ hstored
            cases hnot
          · cases List.mem_singleton.mp hstored
            obtain ⟨hid, -⟩ := hs.found hmem hW.found
            obtain ⟨e, he, heid⟩ := hs.document hmem
            rw [hdb, stored_of_ok happly]
            refine ⟨_, List.mem_map_of_mem he, ?_⟩
            rw [if_pos (heid.trans hid.symm)]
            exact ⟨heid, rfl, rfl, hcufe hubl⟩
    | _ => cases hstores
  · refine Task.Signature.mono hstep hS ?_ rfl (fun d hd hunstored => ?_)
      fun id cufe original_xml signed_xml hstored => ?_
    · rintro ⟨u, hu, cufe, original_xml, signed_xml, hnext⟩
      rw [ht] at hu
      cases hu
      rw [Task.next?_eq hrest] at hnext
      cases hnext
      exact hstores rfl
    · rcases List.mem_append.mp hd with hd | hd
      · exact .inl ⟨hd, fun e he => hunstored e (List.mem_append_left _ he)⟩
      · -- the document was read just now
        cases List.mem_singleton.mp hd
        exact .inr (Db.document?_mem h.truthful.symm)
    · rcases List.mem_append.mp hstored with hstored | hstored
      · exact hstored
      · cases List.mem_singleton.mp hstored
        exact absurd rfl hstores

theorem signatures_tasks (hubl : ubl.ComputesCufe) (h : SystemStep ubl config s a s')
    (hs : s.Sound ubl config) (hI : LeaseInv s) (hC : Punctual s a) (hJ : Signatures ubl s) :
    ∀ t ∈ s'.tasks, t.holding = true → t.claim.Holds (leaseOf s'.db.jobs) →
      t.job.kind = .transmit → t.Signature s' := by
  intro t ht hholding hholds hkind
  have hidle : ∀ u ∈ s.tasks, u = t → ¬ Stores s u.job.document_id a → t.Signature s' := by
    rintro u hu rfl hnot
    have hbefore := h.holds_of_holds hs hC.fenced hI hu hholding hholds
    exact (hJ.tasks u hu hholding hbefore hkind).mono h hnot rfl
      (fun d hd hunstored => .inl ⟨hd, hunstored⟩) fun _ _ _ _ hstored => hstored
  have hstep := h
  cases h with
  | claimed =>
      rcases List.mem_append.mp ht with ht | ht
      · exact hidle t ht rfl fun hstores => hstores
      · -- a task that has just started knows nothing
        obtain ⟨job, -, rfl⟩ := List.mem_map.mp ht
        refine ⟨fun d hd => ?_, fun _ _ _ _ hstored => ?_⟩
        · cases hd
        · cases hstored
  | @worked i w u c r db k hu hrest happly h =>
      obtain ⟨l₁, l₂, hsplit, hset, -⟩ := exists_split hu
      have hmem := List.mem_of_getElem? hu
      have hown : u.holding = true → u.claim.Holds (leaseOf s.db.jobs) := fun hholding =>
        hI.held u.claim (mem_claimsOf hmem hholding) (hC u hu)
      rw [hset] at ht
      have hcases : t ∈ l₁ ++ l₂ ∨ t = u.reply c r (k r) := by
        rcases List.mem_append.mp ht with ht | ht
        · exact .inl (List.mem_append_left _ ht)
        · rcases List.mem_cons.mp ht with rfl | ht
          · exact .inr rfl
          · exact .inl (List.mem_append_right _ ht)
      rcases hcases with htother | rfl
      · have hts : t ∈ s.tasks := by
          rw [hsplit]
          rcases List.mem_append.mp htother with ht | ht
          · exact List.mem_append_left _ ht
          · exact List.mem_append_right _ (List.mem_cons_of_mem _ ht)
        refine hidle t hts rfl ?_
        rintro ⟨v, hv, cufe, original_xml, signed_xml, hnext⟩
        rw [hu] at hv
        cases hv
        obtain ⟨k', hrest'⟩ := Task.rest_of_next? hnext
        obtain ⟨d, hW, hid, hkind', -⟩ := hs.call hmem hrest'
        obtain ⟨hdid, -⟩ := hs.found hmem hW.found
        obtain ⟨hholding', hholds'⟩ := holder_of_working hI hmem hrest' (hC u hu) hW
        have hbefore := hstep.holds_of_holds hs hC.fenced hI hts hholding hholds
        exact holds_document_unique hs hI hsplit hholding' hholds' htother hholding hbefore
          (hkind'.trans hkind.symm) (hid.trans hdid)
      · have hholding' : u.holding = true := holding_of_reply (by rw [hrest]; rfl) hholding
        exact signature_reply hubl hs hu hrest happly h
          (hJ.tasks u hmem hholding' (hown hholding') hkind) hstep rfl
  | crashed => exact hidle t (List.mem_of_mem_eraseIdx ht) rfl fun hstores => hstores
  | @idle a db now deliveries hd hj he hnow hidle' =>
      refine hidle t ht rfl fun hstores => ?_
      cases a <;> first | exact hstores | cases hidle'
  | _ => exact hidle t ht rfl fun hstores => hstores

theorem signatures_of_reachableBy {C : System → SystemAction → Prop}
    (hC : ∀ s a, C s a → Punctual s a) (hubl : ubl.ComputesCufe)
    (hs : (system ubl config).ReachableBy C s) : Signatures ubl s := by
  refine hs.invariant ?_ ?_
  · rintro s ⟨tenants, now, rfl⟩
    refine ⟨fun x hx => ?_, fun t ht => ?_⟩
    · cases hx
    · cases ht
  · intro s a s' hr hJ hc h
    have hsound : s.Sound ubl config := sound_of_reachableBy hr
    have hI := leaseInv_of_reachableBy (fun s a hc => (hC s a hc).fenced) hr
    have hstep := systemStep_inv h
    exact ⟨signatures_log hstep hsound hI (hC s a hc) hJ,
      signatures_tasks hubl hstep hsound hI (hC s a hc) hJ⟩

end Step

/-! ## One signed XML -/

/-- The document has been sent to the DIAN. -/
def Transmitted (s : System) (id : Uuid) : Prop :=
  ∃ x ∈ s.log, x.1 = id ∧ x.2.call.isTransmission = true

structure OneSignature (ubl : UblEngine) (s : System) (a : SystemAction) (s' : System) : Prop where
  /-- All calls so far went by the columns that the document has. -/
  calls : ∀ x ∈ s'.log, ∃ d ∈ s'.db.documents, d.id = x.1 ∧ GoesBy ubl d x.2.call
  /-- They were there before the call. -/
  persisted : ∀ i w, a = .work i w → ∀ t ∈ s.tasks[i]?, ∀ c ∈ t.next?,
    ∃ d ∈ s.db.documents, d.id = t.job.document_id ∧ GoesBy ubl d c
  kept : ∀ d ∈ s.db.documents, Transmitted s d.id →
    ∀ d' ∈ s'.db.documents, d'.id = d.id → d.SameSignature d'

/-- While every worker stops before its lease expires, all transmissions of a document carry the
    one signed XML that was stored before them, all its status queries the CUFE stored with it,
    and from the first transmission on neither changes, whatever the signer returns. -/
theorem one_signed_xml (ubl : UblEngine) (config : ProcessorConfig) (hubl : ubl.ComputesCufe)
    {s s' : System} {a : SystemAction} (hs : (system ubl config).ReachableBy Punctual s)
    (hC : Punctual s a) (h : (system ubl config).step s a = some s') :
    OneSignature ubl s a s' := by
  have hsound : s.Sound ubl config := sound_of_reachableBy hs
  have hI := leaseInv_of_reachableBy (fun s a hc => Punctual.fenced hc) hs
  have hJ := signatures_of_reachableBy (fun _ _ hc => hc) hubl hs
  have hstep := systemStep_inv h
  refine ⟨signatures_log hstep hsound hI hC hJ, ?_, ?_⟩
  · rintro i w rfl t ht c hc
    obtain ⟨k, hrest⟩ := Task.rest_of_next? hc
    exact goesBy_of_call hsound hI hJ (List.mem_of_getElem? ht) hrest (hC t ht)
  · rintro d hd ⟨x, hx, hid, htransmission⟩ d' hd' hd'id
    obtain ⟨e, he, hsame, hsig⟩ := hstep.signature d hd
    rw [(hstep.consistent hsound.consistent).document_eq_of_id hd' he (hd'id.trans hsame.id)]
    refine hsig.resolve_right fun hstores => ?_
    obtain ⟨e', he', heid, hgoes⟩ := hJ.log x hx
    have hde := hsound.consistent.document_eq_of_id he' hd (heid.trans hid)
    have hsigns : x.2.call.signs = true := by
      cases hcall : x.2.call <;> rw [hcall] at htransmission <;> first | rfl | cases htransmission
    exact hgoes.not_unsigned hsigns
      (unsigned_of_stores hsound hI hC hJ hstores e' he' (congrArg Document.id hde))

theorem sampleUbl_computesCufe : sampleUbl.ComputesCufe := by
  refine ⟨?_, ?_, ?_⟩ <;> simp [sampleUbl]

set_option maxRecDepth 10000 in
/-- The second attempt, which sends the invoice again. -/
theorem one_signed_xml_retry : ∃ s',
    OneSignature sampleUbl retryingSystem (workAt 1 (noAnswer 201)) s' :=
  ⟨_, one_signed_xml sampleUbl sampleConfig sampleUbl_computesCufe
    (Machine.ReachableBy.get sampleSystem_start (by decide) secondAttempt_runs) (by decide)
    (Option.some_get retryingSystem_steps).symm⟩

end DianService
