import DianService.Store.Tenants

/-
  Store: tenant isolation of `PgStore`. Step by step, a call of a tenant does to the rows of the
  tenant what it does to the tables, and leaves the rows of the others.
-/

namespace DianService

open Lib

section View

variable {db : Db} {A : Uuid}

/-! ## Lookups that name the tenant -/

theorem idempotency?_ofTenant (key : String) :
    (db.ofTenant A).idempotency? A key = db.idempotency? A key := by
  unfold Db.idempotency? Db.ofTenant
  rw [List.find?_filter]
  congr 1
  funext k
  simp

theorem replayOr_ofTenant {r : Request} (hr : r.document.tenant_id = A) (key : IdempotencyKey)
    (otherwise : Phase) : (db.ofTenant A).replayOr r key otherwise = db.replayOr r key otherwise := by
  unfold Db.replayOr Db.findIdempotency
  rw [hr, idempotency?_ofTenant]

theorem serves_tenant {range : NumberingRange} {document : NewOutboundDocument} {now : Time}
    (h : range.serves document now = true) : range.tenant_id = document.tenant_id := by
  rw [NumberingRange.serves, decide_eq_true_eq] at h
  exact h.1

theorem filter_serves {r : Request} (hr : r.document.tenant_id = A) (now : Time) :
    (db.ofTenant A).numbering_ranges.filter (fun range => range.serves r.document now) =
      db.numbering_ranges.filter fun range => range.serves r.document now := by
  unfold Db.ofTenant
  rw [List.filter_filter]
  refine List.filter_congr fun range _ => ?_
  rw [Bool.eq_iff_iff, Bool.and_eq_true, decide_eq_true_eq]
  exact ⟨fun h => h.1, fun h => ⟨h, (serves_tenant h).trans hr⟩⟩

theorem selectRange_ofTenant {r : Request} (hr : r.document.tenant_id = A) (now : Time) :
    (db.ofTenant A).selectRange r.document now = db.selectRange r.document now := by
  unfold Db.selectRange
  rw [filter_serves hr]

/-- A range looked up by its id, if it serves the tenant. -/
theorem range?_ofTenant (hl : db.Linked) {r : Request} (hr : r.document.tenant_id = A) (id : Uuid)
    (now : Time) :
    ((db.ofTenant A).range? id).filter (fun range => range.serves r.document now) =
      (db.range? id).filter fun range => range.serves r.document now := by
  have hview : ((db.ofTenant A).numbering_ranges.map NumberingRange.id).Nodup :=
    hl.numbering_ranges.sublist ((List.filter_sublist).map NumberingRange.id)
  unfold Db.range?
  rw [filter_find?_key hview, filter_find?_key hl.numbering_ranges, filter_serves hr]

theorem documentTaken_ofTenant {r : Request} (hr : r.document.tenant_id = A)
    (hnew : ∀ d ∈ db.documents, d.id ≠ r.document.id) (number : Int) :
    (db.ofTenant A).documentTaken r.document number = db.documentTaken r.document number := by
  unfold Db.documentTaken Db.ofTenant
  rw [Bool.eq_iff_iff, List.any_eq_true, List.any_eq_true]
  simp only [decide_eq_true_eq]
  constructor
  · intro htaken
    obtain ⟨d, hd, h⟩ := htaken
    exact ⟨d, List.mem_of_mem_filter hd, h⟩
  · intro htaken
    obtain ⟨d, hd, h⟩ := htaken
    cases h with
    | inl hid => exact absurd hid (hnew d hd)
    | inr hissued =>
        refine ⟨d, List.mem_filter.mpr ⟨hd, ?_⟩, .inr hissued⟩
        rw [Document.isIssued, decide_eq_true_eq] at hissued
        exact decide_eq_true (hissued.1.trans hr)

/-! ## The rows of a request -/

/-- The ids of the request are new. -/
structure Db.NewFor (db : Db) (r : Request) : Prop where
  document : ∀ d ∈ db.documents, d.id ≠ r.document.id
  job : ∀ j ∈ db.jobs, j.id ≠ r.job_id

theorem hasActiveJob_new (hl : db.Linked) {id : Uuid} (hnew : ∀ d ∈ db.documents, d.id ≠ id)
    (kind : JobKind) : db.hasActiveJob id kind = false := by
  unfold Db.hasActiveJob
  rw [List.any_eq_false]
  intro j hj hactive
  rw [decide_eq_true_eq] at hactive
  obtain ⟨d, hd, hid⟩ := hl.jobs j hj
  exact hnew d hd (hid.trans hactive.1)

/-- The first job of a new document is refused only for its number of attempts. -/
theorem insertJob_new (hl : db.Linked) {r : Request} (hnew : db.NewFor r) :
    db.insertJob r.initialJob =
      if r.max_attempts ≤ 0 then
        .error
          (refused "new row for relation \"jobs\" violates check constraint \"chk_jobs_attempts\"")
      else .ok { db with jobs := db.jobs ++ [r.initialJob.row] } := by
  unfold Db.insertJob
  have hactive : db.hasActiveJob r.initialJob.document_id r.initialJob.kind = false :=
    hasActiveJob_new hl hnew.document _
  refine if_neg ?_
  rw [hactive, List.any_eq_true]
  intro hrefused
  cases hrefused with
  | inl hid =>
      obtain ⟨j, hj, hid⟩ := hid
      exact hnew.job j hj (of_decide_eq_true hid)
  | inr htrue => exact Bool.false_ne_true htrue

theorem ofTenant_linked (hl : db.Linked) : (db.ofTenant A).Linked where
  numbering_ranges := hl.numbering_ranges.sublist ((List.filter_sublist).map NumberingRange.id)
  webhooks := hl.webhooks.sublist ((List.filter_sublist).map Webhook.id)
  jobs := by
    intro j hj
    obtain ⟨-, howns⟩ := List.mem_filter.mp hj
    rw [Db.ownsJob, List.any_eq_true] at howns
    obtain ⟨d, hd, h⟩ := howns
    rw [decide_eq_true_eq] at h
    exact ⟨d, List.mem_filter.mpr ⟨hd, decide_eq_true h.2⟩, h.1⟩
  deliveries := by
    intro r hr
    obtain ⟨-, howns⟩ := List.mem_filter.mp hr
    rw [Db.ownsDelivery, List.any_eq_true] at howns
    obtain ⟨w, hw, h⟩ := howns
    rw [decide_eq_true_eq] at h
    exact ⟨w, List.mem_filter.mpr ⟨hw, decide_eq_true h.2⟩, h.1⟩

theorem ofTenant_newFor {r : Request} (hnew : db.NewFor r) : (db.ofTenant A).NewFor r where
  document d hd := hnew.document d (List.mem_of_mem_filter hd)
  job j hj := hnew.job j (List.mem_of_mem_filter hj)

/-- A document that is added is not the document of a job there was. -/
theorem ownsJob_append (new : Document) (hl : db.Linked)
    (hnew : ∀ d ∈ db.documents, d.id ≠ new.id) (tenant_id : Uuid) {j : JobRow} (hj : j ∈ db.jobs) :
    ((db.documents ++ [new]).any fun d => d.id = j.document_id ∧ d.tenant_id = tenant_id) =
      db.ownsJob tenant_id j := by
  rw [List.any_append, List.any_cons, List.any_nil, Bool.or_false]
  have hother : decide (new.id = j.document_id ∧ new.tenant_id = tenant_id) = false := by
    obtain ⟨d, hd, hid⟩ := hl.jobs j hj
    exact decide_eq_false fun h => hnew d hd (hid.trans h.1.symm)
  rw [hother, Bool.or_false]
  rfl

theorem setCounter_tenant (id : Uuid) (number : Int) (r : NumberingRange) :
    (setCounter id number r).tenant_id = r.tenant_id := by
  unfold setCounter
  split <;> rfl

theorem filter_append_pos {ρ : Type} {rows : List ρ} {new : ρ} {p : ρ → Bool}
    (h : p new = true) : (rows ++ [new]).filter p = rows.filter p ++ [new] := by
  rw [List.filter_append, List.filter_cons_of_pos h, List.filter_nil]

theorem filter_append_neg {ρ : Type} {rows : List ρ} {new : ρ} {p : ρ → Bool}
    (h : p new = false) : (rows ++ [new]).filter p = rows.filter p := by
  rw [List.filter_append, List.filter_cons_of_neg (by simp [h]), List.filter_nil, List.append_nil]

/-- The commit of a tenant's request, among the rows of the tenant. -/
theorem commitIssue_own (hl : db.Linked) {r : Request} (hr : r.document.tenant_id = A)
    (hnew : db.NewFor r) (tx : Tx) :
    (db.ofTenant A).commitIssue r tx = (db.commitIssue r tx).ofTenant A := by
  have hranges : (db.numbering_ranges.filter fun r => r.tenant_id = A).map
        (setCounter tx.range.id tx.number) =
      (db.numbering_ranges.map (setCounter tx.range.id tx.number)).filter
        fun r => r.tenant_id = A := by
    rw [List.filter_map]
    simp only [Function.comp_def, setCounter_tenant]
  have hjobs : db.jobs.filter (fun j => db.ownsJob A j) ++ [r.initialJob.row] =
      (db.jobs ++ [r.initialJob.row]).filter ((db.commitIssue r tx).ownsJob A) := by
    have hown : (db.commitIssue r tx).ownsJob A r.initialJob.row = true := by
      rw [Db.ownsJob, List.any_eq_true]
      exact ⟨r.documentRow tx, List.mem_append_right _ List.mem_cons_self,
        decide_eq_true ⟨rfl, hr⟩⟩
    rw [filter_append_pos hown]
    congr 1
    exact List.filter_congr fun j hj =>
      (ownsJob_append (r.documentRow tx) hl hnew.document A hj).symm
  have hdocuments : db.documents.filter (fun d => d.tenant_id = A) ++ [r.documentRow tx] =
      (db.documents ++ [r.documentRow tx]).filter fun d => d.tenant_id = A :=
    (filter_append_pos (p := fun d : Document => d.tenant_id = A) (decide_eq_true hr)).symm
  have hkeys : db.idempotency_keys.filter (fun k => k.tenant_id = A) ++ r.keyRows tx =
      (db.idempotency_keys ++ r.keyRows tx).filter fun k => k.tenant_id = A := by
    rw [List.filter_append]
    congr 1
    refine (List.filter_eq_self.mpr fun k hk => ?_).symm
    unfold Request.keyRows at hk
    split at hk
    · cases hk
    · rw [List.mem_singleton] at hk
      rw [hk]
      exact decide_eq_true hr
  unfold Db.commitIssue Db.ofTenant
  dsimp only
  rw [hranges, hjobs, hdocuments, hkeys]
  rfl

/-! ## A request of the tenant -/

theorem advance_own (hl : db.Linked) {r : Request} (hr : r.document.tenant_id = A)
    (hnew : db.NewFor r) (now : Time) (p : Phase) :
    advance (db.ofTenant A) [] r now p =
      (advance db [] r now p).map fun next => (next.1.ofTenant A, next.2) := by
  cases p with
  | lookup =>
      simp only [advance]
      cases r.document.idempotency with
      | none => rfl
      | some key =>
          dsimp only
          rw [replayOr_ofTenant hr]
          rfl
  | beginTx =>
      simp only [advance]
      rw [selectRange_ofTenant hr]
      cases db.selectRange r.document now <;> rfl
  | waiting tx_now range_id =>
      simp only [advance, List.any_nil, Bool.false_eq_true, if_false]
      rw [range?_ofTenant hl hr]
      cases (db.range? range_id).filter fun range => range.serves r.document tx_now <;> rfl
  | locked tx_now range =>
      simp only [advance]
      cases nextNumber range r.document.requested_number now with
      | error e => rfl
      | ok number =>
          dsimp only
          split <;> rfl
  | numbered tx =>
      simp only [advance, List.any_nil, Bool.false_eq_true, if_false]
      rw [documentTaken_ofTenant hr hnew.document]
      split <;> rfl
  | documentInserted tx =>
      simp only [advance, List.any_nil, Bool.false_eq_true, if_false]
      rw [insertJob_new hl hnew, insertJob_new (ofTenant_linked hl) (ofTenant_newFor hnew)]
      by_cases hmax : r.max_attempts ≤ 0
      · rw [if_pos hmax, if_pos hmax]
        rfl
      · rw [if_neg hmax, if_neg hmax]
        rfl
  | jobInserted tx =>
      simp only [advance, List.any_nil, Bool.false_eq_true, if_false]
      cases r.document.idempotency with
      | none =>
          dsimp only
          rw [commitIssue_own hl hr hnew]
          rfl
      | some key =>
          dsimp only
          rw [hr, idempotency?_ofTenant]
          split <;> rfl
  | keyInserted tx =>
      simp only [advance]
      rw [commitIssue_own hl hr hnew]
      rfl
  | rolledBack =>
      simp only [advance]
      cases r.document.idempotency with
      | none => rfl
      | some key =>
          dsimp only
          rw [replayOr_ofTenant hr]
          rfl
  | done result => rfl

theorem issueCall_done (r : Request) (times : List Time) (db : Db)
    (result : Except DomainError IssueOutcome) :
    issueCall r times db (.done result) = (.issued result, db) := by
  cases times <;> rfl

/-- A request of the tenant does to its rows what it does to the tables. -/
theorem issueCall_own (hl : db.Linked) {r : Request} (hr : r.document.tenant_id = A)
    (hnew : db.NewFor r) (times : List Time) (p : Phase) :
    issueCall r times (db.ofTenant A) p =
      ((issueCall r times db p).1, (issueCall r times db p).2.ofTenant A) := by
  induction times generalizing p with
  | nil => rfl
  | cons now times ih =>
      unfold issueCall
      rw [advance_own hl hr hnew]
      cases hstep : advance db [] r now p with
      | none => rfl
      | some next =>
          obtain ⟨db', p'⟩ := next
          rw [Option.map_some]
          dsimp only
          cases (advance_inv hstep).db_eq_or_commit with
          | inl hsame =>
              rw [hsame]
              exact ih p'
          | inr hcommit =>
              obtain ⟨tx, -, -, -, -, hdone⟩ := hcommit
              rw [hdone, issueCall_done, issueCall_done]

/-! ## A request of another tenant -/

/-- The range a request has locked is a row that serves it. -/
def Locks (db : Db) (r : Request) (p : Phase) : Prop :=
  ∀ range, p.range? = some range → ∃ row ∈ db.numbering_ranges, row.id = range.id ∧
    row.tenant_id = r.document.tenant_id

theorem Locks.step {r : Request} {now : Time} {p p' : Phase} {db' : Db} (h : Locks db r p)
    (hadv : Advance db [] r now none p db' p') (hsame : db' = db) : Locks db' r p' := by
  rw [hsame]
  intro range hrange
  cases hadv with
  | locked hfree hrow hserves =>
      cases hrange
      obtain ⟨hmem, -⟩ := Db.range?_mem hrow
      exact ⟨_, hmem, rfl, serves_tenant hserves⟩
  | numbered _ _ | documentInserted _ _ | jobInserted _ _ | keyInserted _ _ _ =>
      exact h range hrange
  | _ => cases hrange

/-- The commit of a tenant's request, among the rows of another. -/
theorem commitIssue_other (hl : db.Linked) {r : Request} (hne : r.document.tenant_id ≠ A)
    (hnew : db.NewFor r) {tx : Tx}
    (hlock : ∃ row ∈ db.numbering_ranges, row.id = tx.range.id ∧
      row.tenant_id = r.document.tenant_id) :
    (db.commitIssue r tx).ofTenant A = db.ofTenant A := by
  obtain ⟨row, hrow, hid, htenant⟩ := hlock
  have hranges : (db.numbering_ranges.map (setCounter tx.range.id tx.number)).filter
        (fun r => r.tenant_id = A) = db.numbering_ranges.filter fun r => r.tenant_id = A := by
    rw [List.filter_map]
    simp only [Function.comp_def, setCounter_tenant]
    refine (List.map_congr_left fun range hrange => ?_).trans (List.map_id' _)
    obtain ⟨hmem, hA⟩ := List.mem_filter.mp hrange
    have hother : range.id ≠ tx.range.id := by
      intro heq
      have hsame : range = row := eq_of_key_eq hl.numbering_ranges hmem hrow (heq.trans hid.symm)
      rw [hsame, decide_eq_true_eq] at hA
      exact hne (htenant.symm.trans hA)
    exact if_neg hother
  have hdocuments : (db.documents ++ [r.documentRow tx]).filter (fun d => d.tenant_id = A) =
      db.documents.filter fun d => d.tenant_id = A :=
    filter_append_neg (p := fun d : Document => d.tenant_id = A) (decide_eq_false hne)
  have hjobs : (db.jobs ++ [r.initialJob.row]).filter ((db.commitIssue r tx).ownsJob A) =
      db.jobs.filter fun j => db.ownsJob A j := by
    have hnot : (db.commitIssue r tx).ownsJob A r.initialJob.row = false := by
      rw [Db.ownsJob, List.any_eq_false]
      intro d hd h
      rw [decide_eq_true_eq] at h
      cases List.mem_append.mp hd with
      | inl hold => exact hnew.document d hold h.1
      | inr hlast =>
          rw [List.mem_singleton.mp hlast] at h
          exact hne h.2
    rw [filter_append_neg hnot]
    exact List.filter_congr fun j hj =>
      ownsJob_append (r.documentRow tx) hl hnew.document A hj
  have hkeys : (db.idempotency_keys ++ r.keyRows tx).filter (fun k => k.tenant_id = A) =
      db.idempotency_keys.filter fun k => k.tenant_id = A := by
    rw [List.filter_append, List.append_right_eq_self, List.filter_eq_nil_iff]
    intro k hk
    unfold Request.keyRows at hk
    split at hk
    · cases hk
    · rw [List.mem_singleton] at hk
      rw [hk]
      simpa using hne
  unfold Db.ofTenant
  dsimp only [Db.commitIssue]
  rw [hranges, hdocuments, hkeys]
  exact congrArg (fun jobs => Db.mk _ _ _ _ _ jobs _ _ _) hjobs

theorem issueCall_other (hl : db.Linked) {r : Request} (hne : r.document.tenant_id ≠ A)
    (hnew : db.NewFor r) (times : List Time) {p : Phase} (hlock : Locks db r p) :
    (issueCall r times db p).2.ofTenant A = db.ofTenant A := by
  induction times generalizing p with
  | nil => rfl
  | cons now times ih =>
      unfold issueCall
      cases hstep : advance db [] r now p with
      | none => rfl
      | some next =>
          obtain ⟨db', p'⟩ := next
          have hadv := advance_inv hstep
          dsimp only
          cases hadv.db_eq_or_commit with
          | inl hsame =>
              have hlock' := hlock.step hadv hsame
              rw [hsame] at hlock' ⊢
              exact ih hlock'
          | inr hcommit =>
              obtain ⟨tx, htx, -, -, hdb, hdone⟩ := hcommit
              rw [hdone, issueCall_done, hdb]
              have hrange : p.range? = some tx.range := by
                cases p <;> cases htx <;> rfl
              exact commitIssue_other hl hne hnew (hlock tx.range hrange)

/-! ## A received document -/

theorem addDocument_own (new : Document) (hl : db.Linked) (htenant : new.tenant_id = A)
    (hnew : ∀ d ∈ db.documents, d.id ≠ new.id) :
    Db.ofTenant A { db with documents := db.documents ++ [new] } =
      { db.ofTenant A with documents := (db.ofTenant A).documents ++ [new] } := by
  have hdocuments : (db.documents ++ [new]).filter (fun d => d.tenant_id = A) =
      db.documents.filter (fun d => d.tenant_id = A) ++ [new] :=
    filter_append_pos (p := fun d : Document => d.tenant_id = A) (decide_eq_true htenant)
  have hjobs : db.jobs.filter (Db.ownsJob { db with documents := db.documents ++ [new] } A) =
      db.jobs.filter fun j => db.ownsJob A j :=
    List.filter_congr fun j hj => ownsJob_append _ hl hnew A hj
  show Db.mk _ _ _ _ _ _ _ _ _ = Db.mk _ _ _ _ _ _ _ _ _
  congr 1

theorem addDocument_other (hl : db.Linked) {new : Document} (hne : new.tenant_id ≠ A)
    (hnew : ∀ d ∈ db.documents, d.id ≠ new.id) :
    Db.ofTenant A { db with documents := db.documents ++ [new] } = db.ofTenant A := by
  have hdocuments : (db.documents ++ [new]).filter (fun d => d.tenant_id = A) =
      db.documents.filter fun d => d.tenant_id = A :=
    filter_append_neg (p := fun d : Document => d.tenant_id = A) (decide_eq_false hne)
  have hjobs : db.jobs.filter (Db.ownsJob { db with documents := db.documents ++ [new] } A) =
      db.jobs.filter fun j => db.ownsJob A j :=
    List.filter_congr fun j hj => ownsJob_append _ hl hnew A hj
  show Db.mk _ _ _ _ _ _ _ _ _ = Db.mk _ _ _ _ _ _ _ _ _
  congr 1

theorem any_id_eq_false {id : Uuid} (hnew : ∀ d ∈ db.documents, d.id ≠ id) :
    (db.documents.any fun d => d.id = id) = false := by
  rw [List.any_eq_false]
  intro d hd h
  exact hnew d hd (of_decide_eq_true h)

theorem isReceived_any {document : NewInboundDocument} (htenant : document.tenant_id = A) :
    ((db.ofTenant A).documents.any fun d => d.isReceived document) =
      db.documents.any fun d => d.isReceived document := by
  unfold Db.ofTenant
  rw [List.any_filter]
  congr 1
  funext d
  rw [Bool.eq_iff_iff, Bool.and_eq_true, decide_eq_true_eq]
  refine ⟨fun h => h.2, fun h => ⟨?_, h⟩⟩
  rw [Document.isReceived, decide_eq_true_eq] at h
  exact h.1.trans htenant

theorem insertInbound_own (hl : db.Linked) {document : NewInboundDocument}
    (htenant : document.tenant_id = A) (hnew : ∀ d ∈ db.documents, d.id ≠ document.id)
    (now : Time) :
    (db.ofTenant A).insertInbound document now =
      (db.insertInbound document now).map fun r => (r.1.ofTenant A, r.2) := by
  have hnew' : ∀ d ∈ (db.ofTenant A).documents, d.id ≠ document.id := fun d hd =>
    hnew d (List.mem_of_mem_filter hd)
  have hadd := addDocument_own (document.row now) hl htenant hnew
  unfold Db.insertInbound
  rw [isReceived_any htenant, any_id_eq_false hnew, any_id_eq_false hnew', ← hadd]
  simp only [Bool.false_eq_true, if_false]
  by_cases hreceived : (db.documents.any fun d => d.isReceived document) = true
  · rw [if_pos hreceived, if_pos hreceived]
    rfl
  · rw [if_neg hreceived, if_neg hreceived]
    by_cases htenants : ¬ (db.tenants.any fun t => t.id = document.tenant_id) = true
    · rw [if_pos htenants]
      exact if_pos htenants
    · rw [if_neg htenants]
      exact if_neg htenants

/-- What an accepted `insert_inbound` does. -/
theorem insertInbound_ok {document : NewInboundDocument} {now : Time} {db' : Db} {b : Bool}
    (h : db.insertInbound document now = .ok (db', b)) :
    db' = db ∨ db' = { db with documents := db.documents ++ [document.row now] } ∧
      ∀ d ∈ db.documents, d.id ≠ document.id := by
  unfold Db.insertInbound at h
  split_ifs at h with hreceived hid
  · cases h
    exact .inl rfl
  · cases h
    refine .inr ⟨rfl, fun d hd heq => hid ?_⟩
    exact List.any_eq_true.mpr ⟨d, hd, decide_eq_true heq⟩

/-! ## Webhooks -/

/-- A webhook that is added is not the webhook of a delivery there was. -/
theorem ownsDelivery_append (hl : db.Linked) {new : Webhook}
    (hnew : ∀ w ∈ db.webhooks, w.id ≠ new.id) (tenant_id : Uuid) {r : DeliveryRow}
    (hr : r ∈ db.webhook_deliveries) :
    ((db.webhooks ++ [new]).any fun w => w.id = r.webhook_id ∧ w.tenant_id = tenant_id) =
      db.ownsDelivery tenant_id r := by
  rw [List.any_append, List.any_cons, List.any_nil, Bool.or_false]
  have hother : decide (new.id = r.webhook_id ∧ new.tenant_id = tenant_id) = false := by
    obtain ⟨w, hw, hid⟩ := hl.deliveries r hr
    exact decide_eq_false fun h => hnew w hw (hid.trans h.1.symm)
  rw [hother, Bool.or_false]
  rfl

theorem createWebhook_own (hl : db.Linked) {webhook : Webhook} (htenant : webhook.tenant_id = A)
    (hnew : ∀ w ∈ db.webhooks, w.id ≠ webhook.id) :
    (db.ofTenant A).createWebhook webhook = (db.createWebhook webhook).map (Db.ofTenant A) := by
  have hfree : (db.webhooks.any fun w => w.id = webhook.id) = false := by
    rw [List.any_eq_false]
    intro w hw h
    exact hnew w hw (of_decide_eq_true h)
  have hfree' : ((db.ofTenant A).webhooks.any fun w => w.id = webhook.id) = false := by
    rw [List.any_eq_false]
    intro w hw h
    exact hnew w (List.mem_of_mem_filter hw) (of_decide_eq_true h)
  have hadd : Db.ofTenant A { db with webhooks := db.webhooks ++ [webhook] } =
      { db.ofTenant A with webhooks := (db.ofTenant A).webhooks ++ [webhook] } := by
    have hwebhooks : (db.webhooks ++ [webhook]).filter (fun w => w.tenant_id = A) =
        db.webhooks.filter (fun w => w.tenant_id = A) ++ [webhook] :=
      filter_append_pos (p := fun w : Webhook => w.tenant_id = A) (decide_eq_true htenant)
    have hdeliveries : db.webhook_deliveries.filter
          (Db.ownsDelivery { db with webhooks := db.webhooks ++ [webhook] } A) =
        db.webhook_deliveries.filter fun r => db.ownsDelivery A r :=
      List.filter_congr fun r hr => ownsDelivery_append hl hnew A hr
    show Db.mk _ _ _ _ _ _ _ _ _ = Db.mk _ _ _ _ _ _ _ _ _
    congr 1
  unfold Db.createWebhook
  rw [hfree, hfree', ← hadd]
  simp only [Bool.false_eq_true, if_false]
  by_cases htenants : ¬ (db.tenants.any fun t => t.id = webhook.tenant_id) = true
  · rw [if_pos htenants]
    exact if_pos htenants
  · rw [if_neg htenants]
    exact if_neg htenants

theorem createWebhook_other (hl : db.Linked) {webhook : Webhook} (hne : webhook.tenant_id ≠ A)
    {db' : Db} (h : db.createWebhook webhook = .ok db') : db'.ofTenant A = db.ofTenant A := by
  obtain ⟨hdb, hnew⟩ := Db.createWebhook_ok h
  have hwebhooks : (db.webhooks ++ [webhook]).filter (fun w => w.tenant_id = A) =
      db.webhooks.filter fun w => w.tenant_id = A :=
    filter_append_neg (p := fun w : Webhook => w.tenant_id = A) (decide_eq_false hne)
  have hdeliveries : db.webhook_deliveries.filter
        (Db.ownsDelivery { db with webhooks := db.webhooks ++ [webhook] } A) =
      db.webhook_deliveries.filter fun r => db.ownsDelivery A r :=
    List.filter_congr fun r hr => ownsDelivery_append hl hnew A hr
  rw [hdb]
  show Db.mk _ _ _ _ _ _ _ _ _ = Db.mk _ _ _ _ _ _ _ _ _
  congr 1

/-- The webhooks left by a deletion own the deliveries left by it. -/
theorem ownsDelivery_filter {B webhook_id : Uuid} {r : DeliveryRow}
    (h : A ≠ B ∨ r.webhook_id ≠ webhook_id) :
    ((db.webhooks.filter fun w => ¬ (w.id = webhook_id ∧ w.tenant_id = B)).any fun w =>
      w.id = r.webhook_id ∧ w.tenant_id = A) = db.ownsDelivery A r := by
  unfold Db.ownsDelivery
  rw [List.any_filter]
  congr 1
  funext w
  rw [Bool.eq_iff_iff, Bool.and_eq_true, decide_eq_true_eq, decide_eq_true_eq]
  refine ⟨fun hw => hw.2, fun hw => ⟨fun hdeleted => ?_, hw⟩⟩
  cases h with
  | inl hne => exact hne (hw.2.symm.trans hdeleted.2)
  | inr hne => exact hne (hw.1.symm.trans hdeleted.1)

theorem deleteWebhook_own (webhook_id : Uuid) :
    (db.ofTenant A).deleteWebhook A webhook_id =
      ((db.deleteWebhook A webhook_id).1.ofTenant A, (db.deleteWebhook A webhook_id).2) := by
  have hany : ((db.ofTenant A).webhooks.any fun w => w.id = webhook_id ∧ w.tenant_id = A) =
      db.webhooks.any fun w => w.id = webhook_id ∧ w.tenant_id = A := by
    unfold Db.ofTenant
    rw [List.any_filter]
    congr 1
    funext w
    simp
  have hdeliveries : (db.webhook_deliveries.filter fun r => db.ownsDelivery A r).filter
        (fun r => r.webhook_id ≠ webhook_id) =
      (db.webhook_deliveries.filter fun r => r.webhook_id ≠ webhook_id).filter fun r =>
        (db.webhooks.filter fun w => ¬ (w.id = webhook_id ∧ w.tenant_id = A)).any fun w =>
          w.id = r.webhook_id ∧ w.tenant_id = A := by
    rw [List.filter_comm, List.filter_filter, List.filter_filter]
    refine List.filter_congr fun r _ => ?_
    by_cases hid : r.webhook_id = webhook_id
    · simp [hid]
    · rw [ownsDelivery_filter (.inr hid)]
  unfold Db.deleteWebhook
  rw [hany]
  by_cases hmine : (db.webhooks.any fun w => w.id = webhook_id ∧ w.tenant_id = A) = true
  · rw [if_pos hmine, if_pos hmine]
    refine Prod.ext ?_ rfl
    show Db.mk _ _ _ _ _ _ _ _ _ = Db.mk _ _ _ _ _ _ _ _ _
    congr 1
    exact List.filter_comm _ _ _
  · rw [if_neg hmine, if_neg hmine]

theorem deleteWebhook_other (hl : db.Linked) {B : Uuid} (hne : B ≠ A) (webhook_id : Uuid) :
    (db.deleteWebhook B webhook_id).1.ofTenant A = db.ofTenant A := by
  unfold Db.deleteWebhook
  by_cases hmine : (db.webhooks.any fun w => w.id = webhook_id ∧ w.tenant_id = B) = true
  · rw [if_pos hmine]
    obtain ⟨deleted, hmem, hkey⟩ := List.any_eq_true.mp hmine
    rw [decide_eq_true_eq] at hkey
    have hwebhooks : (db.webhooks.filter fun w => ¬ (w.id = webhook_id ∧ w.tenant_id = B)).filter
          (fun w => w.tenant_id = A) = db.webhooks.filter fun w => w.tenant_id = A := by
      rw [List.filter_filter]
      refine List.filter_congr fun w _ => ?_
      by_cases hA : w.tenant_id = A
      · simp [hA, hne.symm]
      · simp [hA]
    have hdeliveries : (db.webhook_deliveries.filter fun r => r.webhook_id ≠ webhook_id).filter
          (fun r => (db.webhooks.filter fun w => ¬ (w.id = webhook_id ∧ w.tenant_id = B)).any
            fun w => w.id = r.webhook_id ∧ w.tenant_id = A) =
        db.webhook_deliveries.filter fun r => db.ownsDelivery A r := by
      rw [List.filter_filter]
      refine List.filter_congr fun r _ => ?_
      rw [ownsDelivery_filter (.inl hne.symm)]
      by_cases hid : r.webhook_id = webhook_id
      · have hnone : db.ownsDelivery A r = false := by
          rw [Db.ownsDelivery, List.any_eq_false]
          intro w hw h
          rw [decide_eq_true_eq, hid] at h
          have hsame : w = deleted := eq_of_key_eq hl.webhooks hw hmem (h.1.trans hkey.1.symm)
          rw [hsame] at h
          exact hne (hkey.2.symm.trans h.2)
        rw [hnone, Bool.false_and]
      · simp [hid]
    show Db.mk _ _ _ _ _ _ _ _ _ = Db.mk _ _ _ _ _ _ _ _ _
    congr 1
  · rw [if_neg hmine]

theorem listWebhooks_own : (db.ofTenant A).listWebhooks A = db.listWebhooks A := by
  unfold Db.listWebhooks Db.ofTenant
  rw [List.filter_filter]
  simp only [Bool.and_self]

theorem findTenantDocument_own (id : Uuid) :
    (db.ofTenant A).findTenantDocument A id = db.findTenantDocument A id := by
  unfold Db.findTenantDocument Db.ofTenant
  rw [List.find?_filter]
  congr 1
  funext d
  simp

end View

/-! ## Runs -/

/-- What a run is promised: the keys of the schema, and new ids for every call. -/
structure Db.Ready (calls : List TenantCall) (db : Db) : Prop where
  linked : db.Linked
  fresh : FreshIds calls db.takenIds

section Runs

variable {db : Db} {A : Uuid}

theorem mem_takenIds {id : Uuid} : id ∈ db.takenIds ↔ (∃ d ∈ db.documents, d.id = id) ∨
    (∃ j ∈ db.jobs, j.id = id) ∨ ∃ w ∈ db.webhooks, w.id = id := by
  simp only [Db.takenIds, List.mem_append, List.mem_map, or_assoc]

theorem Db.Ready.newFor {calls : List TenantCall} {r : Request} {now : Time} {later : List Time}
    (h : db.Ready (.issueOutbound r now later :: calls)) : db.NewFor r where
  document d hd hid := h.fresh.head r.document.id List.mem_cons_self
    (mem_takenIds.mpr (.inl ⟨d, hd, hid⟩))
  job j hj hid := h.fresh.head r.job_id (List.mem_cons_of_mem _ List.mem_cons_self)
    (mem_takenIds.mpr (.inr (.inl ⟨j, hj, hid⟩)))

theorem Db.Ready.newDocument {calls : List TenantCall} {document : NewInboundDocument}
    {now : Time} (h : db.Ready (.insertInbound document now :: calls)) :
    ∀ d ∈ db.documents, d.id ≠ document.id := fun d hd hid =>
  h.fresh.head document.id List.mem_cons_self (mem_takenIds.mpr (.inl ⟨d, hd, hid⟩))

theorem Db.Ready.newWebhook {calls : List TenantCall} {webhook : Webhook}
    (h : db.Ready (.createWebhook webhook :: calls)) : ∀ w ∈ db.webhooks, w.id ≠ webhook.id :=
  fun w hw hid =>
    h.fresh.head webhook.id List.mem_cons_self (mem_takenIds.mpr (.inr (.inr ⟨w, hw, hid⟩)))

/-- A call that is refused leaves the tables. -/
theorem answered_cases {α : Type} {f : Except DomainError α → TenantAnswer} (db : Db)
    (result : Except DomainError (Db × α)) :
    (db.answered f result).2 = db ∨ ∃ db' a, result = .ok (db', a) ∧
      (db.answered f result).2 = db' := by
  cases result with
  | error e => exact .inl rfl
  | ok r => exact .inr ⟨r.1, r.2, rfl, rfl⟩

theorem answered_own {α : Type} (f : Except DomainError α → TenantAnswer)
    (result : Except DomainError (Db × α)) :
    (db.ofTenant A).answered f (result.map fun r => (r.1.ofTenant A, r.2)) =
      ((db.answered f result).1, (db.answered f result).2.ofTenant A) := by
  cases result with
  | error e => rfl
  | ok r => rfl

/-- A call does to the rows of its tenant what it does to the tables. -/
theorem tenantCall_own {c : TenantCall} {calls : List TenantCall} (h : db.Ready (c :: calls))
    (hc : c.tenant = A) :
    tenantCall c (db.ofTenant A) = ((tenantCall c db).1, (tenantCall c db).2.ofTenant A) := by
  cases c with
  | issueOutbound r now later => exact issueCall_own h.linked hc h.newFor _ _
  | insertInbound document now =>
      unfold tenantCall
      dsimp only
      rw [insertInbound_own h.linked hc h.newDocument]
      exact answered_own _ _
  | findTenantDocument tenant_id id =>
      cases hc
      exact congrArg (fun d => (TenantAnswer.document d, db.ofTenant tenant_id))
        (findTenantDocument_own id)
  | createWebhook webhook =>
      unfold tenantCall
      dsimp only
      rw [createWebhook_own h.linked hc h.newWebhook]
      cases db.createWebhook webhook <;> rfl
  | listWebhooks tenant_id =>
      cases hc
      exact congrArg (fun ws => (TenantAnswer.webhooks ws, db.ofTenant tenant_id))
        listWebhooks_own
  | deleteWebhook tenant_id webhook_id =>
      cases hc
      exact congrArg (fun r : Db × Bool => (TenantAnswer.deleted (.ok r.2), r.1))
        (deleteWebhook_own webhook_id)

/-- A call leaves the rows of every other tenant. -/
theorem tenantCall_other {c : TenantCall} {calls : List TenantCall} (h : db.Ready (c :: calls))
    (hc : c.tenant ≠ A) : (tenantCall c db).2.ofTenant A = db.ofTenant A := by
  cases c with
  | issueOutbound r now later =>
      have hlock : Locks db r .lookup := by
        intro range hrange
        cases hrange
      exact issueCall_other h.linked hc h.newFor _ hlock
  | insertInbound document now =>
      unfold tenantCall
      dsimp only
      cases answered_cases (f := .inserted) db (db.insertInbound document now) with
      | inl hsame => rw [hsame]
      | inr hok =>
          obtain ⟨db', b, hresult, hdb⟩ := hok
          rw [hdb]
          cases insertInbound_ok hresult with
          | inl hsame => rw [hsame]
          | inr hadded =>
              rw [hadded.1]
              exact addDocument_other h.linked hc hadded.2
  | findTenantDocument tenant_id id => rfl
  | createWebhook webhook =>
      unfold tenantCall
      dsimp only
      cases hresult : db.createWebhook webhook with
      | error e => rfl
      | ok db' => exact createWebhook_other h.linked hc hresult
  | listWebhooks tenant_id => rfl
  | deleteWebhook tenant_id webhook_id => exact deleteWebhook_other h.linked hc webhook_id

/-! ### What a call leaves -/

/-- The keys still hold, and no id is taken but those the call drew. -/
structure Db.Grown (db db' : Db) (ids : List Uuid) : Prop where
  linked : db'.Linked
  taken : ∀ id ∈ db'.takenIds, id ∈ db.takenIds ∨ id ∈ ids

theorem Db.Grown.refl (hl : db.Linked) (ids : List Uuid) : db.Grown db ids :=
  ⟨hl, fun _ hid => .inl hid⟩

theorem grown_commitIssue (hl : db.Linked) (r : Request) (tx : Tx) :
    db.Grown (db.commitIssue r tx) [r.document.id, r.job_id] where
  linked := by
    refine ⟨?_, hl.webhooks, ?_, hl.deliveries⟩
    · show ((db.numbering_ranges.map (setCounter _ _)).map NumberingRange.id).Nodup
      rw [List.map_map]
      convert hl.numbering_ranges using 2
      funext range
      show (setCounter _ _ range).id = range.id
      unfold setCounter
      split <;> rfl
    · intro j hj
      cases List.mem_append.mp hj with
      | inl hold =>
          obtain ⟨d, hd, hid⟩ := hl.jobs j hold
          exact ⟨d, List.mem_append_left _ hd, hid⟩
      | inr hnew =>
          rw [List.mem_singleton.mp hnew]
          exact ⟨r.documentRow tx, List.mem_append_right _ List.mem_cons_self, rfl⟩
  taken := by
    intro id hid
    have hsplit : id ∈ db.takenIds ∨ id = r.document.id ∨ id = r.job_id := by
      simp only [Db.takenIds, Db.commitIssue, List.map_append, List.mem_append, List.map_cons,
        List.map_nil, List.mem_singleton] at hid ⊢
      obtain ((h | h) | h | h) | h := hid
      · exact .inl (.inl (.inl h))
      · exact .inr (.inl h)
      · exact .inl (.inl (.inr h))
      · exact .inr (.inr h)
      · exact .inl (.inr h)
    simpa using hsplit

theorem grown_addDocument (hl : db.Linked) (new : Document) :
    db.Grown { db with documents := db.documents ++ [new] } [new.id] where
  linked := by
    refine ⟨hl.numbering_ranges, hl.webhooks, fun j hj => ?_, hl.deliveries⟩
    obtain ⟨d, hd, hid⟩ := hl.jobs j hj
    exact ⟨d, List.mem_append_left _ hd, hid⟩
  taken := by
    intro id hid
    simp only [Db.takenIds, List.map_append, List.mem_append, List.map_cons, List.map_nil] at hid ⊢
    obtain ((h | h) | h) | h := hid
    · exact .inl (.inl (.inl h))
    · exact .inr h
    · exact .inl (.inl (.inr h))
    · exact .inl (.inr h)

theorem grown_createWebhook (hl : db.Linked) {webhook : Webhook} {db' : Db}
    (h : db.createWebhook webhook = .ok db') : db.Grown db' [webhook.id] := by
  obtain ⟨rfl, hnew⟩ := Db.createWebhook_ok h
  refine ⟨⟨hl.numbering_ranges, ?_, hl.jobs, fun r hr => ?_⟩, fun id hid => ?_⟩
  · show ((db.webhooks ++ [webhook]).map Webhook.id).Nodup
    rw [List.map_append, List.nodup_append]
    refine ⟨hl.webhooks, List.nodup_singleton _, fun a ha b hb => ?_⟩
    obtain ⟨w, hw, rfl⟩ := List.mem_map.mp ha
    rw [List.map_singleton, List.mem_singleton] at hb
    rw [hb]
    exact hnew w hw
  · obtain ⟨w, hw, hid⟩ := hl.deliveries r hr
    exact ⟨w, List.mem_append_left _ hw, hid⟩
  · simp only [Db.takenIds, List.map_append, List.mem_append, List.map_cons, List.map_nil] at hid ⊢
    obtain (h | h) | h | h := hid
    · exact .inl (.inl (.inl h))
    · exact .inl (.inl (.inr h))
    · exact .inl (.inr h)
    · exact .inr h

theorem grown_deleteWebhook (hl : db.Linked) (tenant_id webhook_id : Uuid) :
    db.Grown (db.deleteWebhook tenant_id webhook_id).1 [] := by
  unfold Db.deleteWebhook
  split
  · refine ⟨⟨hl.numbering_ranges, hl.webhooks.sublist ((List.filter_sublist).map Webhook.id),
      hl.jobs, fun r hr => ?_⟩, fun id hid => ?_⟩
    · obtain ⟨hmem, hother⟩ := List.mem_filter.mp hr
      obtain ⟨w, hw, hid⟩ := hl.deliveries r hmem
      refine ⟨w, List.mem_filter.mpr ⟨hw, decide_eq_true fun hdeleted => ?_⟩, hid⟩
      exact of_decide_eq_true hother (hid.symm.trans hdeleted.1)
    · left
      rw [mem_takenIds] at hid ⊢
      refine hid.imp_right fun h => h.imp_right fun h => ?_
      obtain ⟨w, hw, hid⟩ := h
      exact ⟨w, List.mem_of_mem_filter hw, hid⟩
  · exact .refl hl []

theorem tenantCall_grown (hl : db.Linked) (c : TenantCall) :
    db.Grown (tenantCall c db).2 c.newIds := by
  cases c with
  | issueOutbound r now later =>
      show db.Grown (issueCall r (now :: later) db .lookup).2 _
      rw [issueCall_db]
      cases issueAlone_cases (now :: later) (show FoundFree db r .lookup from .of_none rfl) with
      | inl hsame =>
          rw [hsame]
          exact .refl hl _
      | inr hcommit =>
          obtain ⟨tx, hdb, -, -⟩ := hcommit
          rw [hdb]
          exact grown_commitIssue hl r tx
  | insertInbound document now =>
      unfold tenantCall
      dsimp only
      cases answered_cases (f := .inserted) db (db.insertInbound document now) with
      | inl hsame =>
          rw [hsame]
          exact .refl hl _
      | inr hok =>
          obtain ⟨db', b, hresult, hdb⟩ := hok
          rw [hdb]
          cases insertInbound_ok hresult with
          | inl hsame =>
              rw [hsame]
              exact .refl hl _
          | inr hadded =>
              rw [hadded.1]
              exact grown_addDocument hl (document.row now)
  | findTenantDocument tenant_id id => exact .refl hl _
  | createWebhook webhook =>
      unfold tenantCall
      dsimp only
      cases hresult : db.createWebhook webhook with
      | error e => exact .refl hl _
      | ok db' => exact grown_createWebhook hl hresult
  | listWebhooks tenant_id => exact .refl hl _
  | deleteWebhook tenant_id webhook_id => exact grown_deleteWebhook hl tenant_id webhook_id

theorem pgService_separates :
    pgService.Separates Db.ofTenant Db.Ready where
  sublist hsub h := ⟨h.linked, h.fresh.sublist hsub⟩
  step {c _ _} h :=
    have hgrown := tenantCall_grown h.linked c
    ⟨hgrown.linked, h.fresh.tail hgrown.taken⟩
  own h := tenantCall_own h rfl
  other h hc := tenantCall_other h hc

end Runs

end DianService
