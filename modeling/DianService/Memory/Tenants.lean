import DianService.Memory.Atomic
import DianService.Store.Isolation

/-
  Memory: tenant isolation of `InMemoryStore`, and of both stores. The maps have their own
  lookups: by `any` and `filter` over all rows, or by a key that holds the tenant.
-/

namespace DianService.Memory

open Lib

/-! ## The calls -/

/-- What a call answers, and the state it leaves. -/
def settle {α : Type} (f : Except DomainError α → TenantAnswer) :
    EStateM.Result DomainError State α → TenantAnswer × State
  | .ok a s => (f (.ok a), s)
  | .error e s => (f (.error e), s)

def findTenantDocument (s : State) (tenant_id id : Uuid) : Option Document :=
  (s.documents.get? id).filter fun d => d.tenant_id = tenant_id

def listWebhooks (s : State) (tenant_id : Uuid) : List Webhook :=
  s.webhooks.filter fun w => w.tenant_id = tenant_id

/-- The clock is read once. -/
def tenantCall (c : TenantCall) (s : State) : TenantAnswer × State :=
  match c with
  | .issueOutbound r now _ => settle .issued (issueOutbound r.document r.initialJob now s)
  | .insertInbound document now => settle .inserted (insertInbound document now s)
  | .findTenantDocument tenant_id id => (.document (findTenantDocument s tenant_id id), s)
  | .createWebhook webhook => settle .created (createWebhook webhook s)
  | .listWebhooks tenant_id => (.webhooks (listWebhooks s tenant_id), s)
  | .deleteWebhook tenant_id webhook_id => settle .deleted (deleteWebhook tenant_id webhook_id s)

def memoryService : Lib.Service State TenantCall TenantAnswer Uuid where
  call := tenantCall
  domain := TenantCall.tenant

/-! ## What is of a tenant -/

namespace State

def ownsJob (s : State) (tenant_id : Uuid) (j : StoredJob) : Bool :=
  s.documents.rows.any fun d => d.id = j.document_id ∧ d.tenant_id = tenant_id

def ownsDelivery (s : State) (tenant_id : Uuid) (r : StoredDelivery) : Bool :=
  s.webhooks.any fun w => w.id = r.webhook_id ∧ w.tenant_id = tenant_id

/-- The documents, numbering ranges, idempotency keys, jobs, webhooks and deliveries of the
    tenant, and what none of the calls writes. -/
def ofTenant (tenant_id : Uuid) (s : State) : State :=
  { s with
    ranges := s.ranges.retain fun r => r.tenant_id = tenant_id
    documents := s.documents.retain fun d => d.tenant_id = tenant_id
    idempotency := s.idempotency.retain fun k => k.tenant_id = tenant_id
    jobs := s.jobs.retain fun j => s.ownsJob tenant_id j
    webhooks := s.webhooks.filter fun w => w.tenant_id = tenant_id
    deliveries := s.deliveries.retain fun r => s.ownsDelivery tenant_id r }

/-- One webhook of each id; the jobs are of documents and the deliveries of webhooks there are. -/
structure Linked (s : State) : Prop where
  webhooks : (s.webhooks.map Webhook.id).Nodup
  jobs : ∀ j ∈ s.jobs.rows, ∃ d ∈ s.documents.rows, d.id = j.document_id
  deliveries : ∀ r ∈ s.deliveries.rows, ∃ w ∈ s.webhooks, w.id = r.webhook_id

def takenIds (s : State) : List Uuid :=
  s.documents.rows.map Document.id ++ s.jobs.rows.map StoredJob.id ++ s.webhooks.map Webhook.id

/-- What a run is promised. -/
structure Ready (calls : List TenantCall) (s : State) : Prop where
  linked : s.Linked
  fresh : FreshIds calls s.takenIds

structure NewFor (s : State) (r : Request) : Prop where
  document : ∀ d ∈ s.documents.rows, d.id ≠ r.document.id
  job : ∀ j ∈ s.jobs.rows, j.id ≠ r.job_id

end State

section View

variable {s : State} {A : Uuid}

/-! ## `issue_outbound` -/

theorem findIdempotency_ofTenant {document : NewOutboundDocument} (h : document.tenant_id = A) :
    (s.ofTenant A).findIdempotency document = s.findIdempotency document := by
  unfold State.findIdempotency
  congr 1
  funext key
  show (s.idempotency.retain _).get? _ = _
  rw [Table.get?_retain]
  cases hrow : s.idempotency.get? (document.tenant_id, key.key) with
  | none => rfl
  | some row =>
      have hkey := (Table.mem_of_get? hrow).2
      exact Option.filter_some_pos (decide_eq_true ((congrArg Prod.fst hkey).trans h))

theorem filter_serves {document : NewOutboundDocument} (h : document.tenant_id = A) (now : Time) :
    (s.ofTenant A).ranges.rows.filter (fun r => r.serves document now) =
      s.ranges.rows.filter fun r => r.serves document now := by
  show (s.ranges.rows.filter _).filter _ = _
  rw [List.filter_filter]
  refine List.filter_congr fun r _ => ?_
  rw [Bool.eq_iff_iff, Bool.and_eq_true, decide_eq_true_eq]
  exact ⟨fun hr => hr.1, fun hr => ⟨hr, (serves_tenant hr).trans h⟩⟩

theorem hasNumber_ofTenant {document : NewOutboundDocument} (h : document.tenant_id = A)
    (number : Int) : (s.ofTenant A).hasNumber document number = s.hasNumber document number := by
  show List.any (s.documents.rows.filter _) _ = _
  rw [List.any_filter]
  unfold State.hasNumber
  congr 1
  funext d
  rw [Bool.eq_iff_iff, Bool.and_eq_true, decide_eq_true_eq]
  refine ⟨fun hd => hd.2, fun hd => ⟨?_, hd⟩⟩
  rw [decide_eq_true_eq] at hd
  exact hd.1.trans h

/-- The tenant of the request decides the number it gets. -/
theorem number_ofTenant {document : NewOutboundDocument} (h : document.tenant_id = A)
    (now : Time) : (s.ofTenant A).number document now = s.number document now := by
  unfold State.number State.findRange
  simp only [findIdempotency_ofTenant h, filter_serves h, hasNumber_ofTenant h]

/-- What a number that is given out says of the state. -/
theorem number_given {document : NewOutboundDocument} {now : Time} {range : NumberingRange}
    {number : Int} (h : s.number document now = .ok (.given range number)) :
    s.findIdempotency document = none ∧ range ∈ s.ranges.rows ∧
      range.tenant_id = document.tenant_id := by
  unfold State.number at h
  split at h
  · split at h <;> cases h
  · rename_i hnone
    split at h
    · cases h
    · rename_i found hfound
      split at h
      · cases h
      · split at h
        · cases h
        · cases h
          have hmem := mem_of_latestBy hfound
          rw [List.mem_reverse, List.mem_filter] at hmem
          exact ⟨hnone, hmem.1, serves_tenant hmem.2⟩

/-- A new document has no job. -/
theorem hasActiveJob_new (hl : s.Linked) {id : Uuid} (hnew : ∀ d ∈ s.documents.rows, d.id ≠ id)
    (kind : JobKind) : s.hasActiveJob id kind = false := by
  unfold State.hasActiveJob
  rw [List.any_eq_false]
  intro j hj hactive
  rw [decide_eq_true_eq] at hactive
  obtain ⟨d, hd, hid⟩ := hl.jobs j hj
  exact hnew d hd (hid.trans hactive.1)

/-- The state once a request has its number, its document and its job. -/
def State.queued (s : State) (r : Request) (range : NumberingRange) (number : Int) (now : Time) :
    State :=
  { s.numbered r.document range number now with
    jobs := s.jobs.insert (storedJob r.initialJob) }

/-- And its key. -/
def State.issued (s : State) (r : Request) (range : NumberingRange) (number : Int) (now : Time) :
    State :=
  (s.queued r range number now).withKey r.document number

theorem issueOutbound_new (hl : s.Linked) {r : Request} (hnew : s.NewFor r) {now : Time}
    {range : NumberingRange} {number : Int}
    (h : s.number r.document now = .ok (.given range number)) :
    issueOutbound r.document r.initialJob now s =
      .ok (.created ⟨r.document.id, number⟩) (s.issued r range number now) := by
  rw [issueOutbound_run r.document r.initialJob now range number h]
  have hfree : s.hasActiveJob r.initialJob.document_id r.initialJob.kind = false :=
    hasActiveJob_new hl hnew.document _
  rw [hfree]
  rfl

theorem issueOutbound_error {r : Request} {now : Time} {e : DomainError}
    (h : s.number r.document now = .error e) :
    issueOutbound r.document r.initialJob now s = .error e s := by
  unfold issueOutbound
  rw [get_bind_run, h]
  rfl

theorem issueOutbound_replayed {r : Request} {now : Time} {issued : IssuedDocument}
    (h : s.number r.document now = .ok (.replayed issued)) :
    issueOutbound r.document r.initialJob now s = .ok (.replayed issued) s := by
  unfold issueOutbound
  rw [get_bind_run, h]
  rfl

/-- A document that is added is not the document of a job there was. -/
theorem ownsJob_insert (new : Document) (hl : s.Linked)
    (hnew : ∀ d ∈ s.documents.rows, d.id ≠ new.id) (tenant_id : Uuid) {j : StoredJob}
    (hj : j ∈ s.jobs.rows) :
    ((s.documents.insert new).rows.any fun d => d.id = j.document_id ∧ d.tenant_id = tenant_id) =
      s.ownsJob tenant_id j := by
  rw [Table.insert_rows_of_new hnew, List.any_append, List.any_cons, List.any_nil, Bool.or_false]
  have hother : decide (new.id = j.document_id ∧ new.tenant_id = tenant_id) = false := by
    obtain ⟨d, hd, hid⟩ := hl.jobs j hj
    exact decide_eq_false fun h => hnew d hd (hid.trans h.1.symm)
  rw [hother, Bool.or_false]
  rfl

/-- The key of a request is registered for its tenant. -/
theorem withKey_ofTenant (document : NewOutboundDocument) (number : Int)
    (hfree : s.findIdempotency document = none) :
    (s.withKey document number).ofTenant A =
      if document.tenant_id = A then (s.ofTenant A).withKey document number else s.ofTenant A := by
  unfold State.withKey
  unfold State.findIdempotency at hfree
  cases hkey : document.idempotency with
  | none => exact (ite_self _).symm
  | some key =>
      rw [hkey, Option.bind_some] at hfree
      have hnew := Table.get?_eq_none.mp hfree
      dsimp only
      by_cases hA : document.tenant_id = A
      · rw [if_pos hA]
        have hkeys := Table.retain_insert_pos (p := fun k : IdempotencyRow => k.tenant_id = A)
          ⟨document.tenant_id, key.key, key.request_hash, document.id, number⟩ hnew
          (decide_eq_true hA)
        show State.mk _ _ _ _ _ _ _ _ _ _ _ = State.mk _ _ _ _ _ _ _ _ _ _ _
        congr 1
      · rw [if_neg hA]
        have hkeys := Table.retain_insert_neg (p := fun k : IdempotencyRow => k.tenant_id = A)
          ⟨document.tenant_id, key.key, key.request_hash, document.id, number⟩ hnew
          (decide_eq_false hA)
        show State.mk _ _ _ _ _ _ _ _ _ _ _ = State.mk _ _ _ _ _ _ _ _ _ _ _
        congr 1

theorem issued_own (hl : s.Linked) {r : Request} (hr : r.document.tenant_id = A)
    (hnew : s.NewFor r) (hfree : s.findIdempotency r.document = none) (range : NumberingRange)
    (number : Int) (now : Time) :
    (s.ofTenant A).issued r range number now = (s.issued r range number now).ofTenant A := by
  let row := outboundRow r.document range number now
  have hranges := Table.retain_modify (p := fun r : NumberingRange => r.tenant_id = A) s.ranges
    (k := range.id) (f := fun r => { r with current_counter := number }) (fun _ => rfl)
    fun _ => rfl
  have hdocuments := Table.retain_insert_pos (p := fun d : Document => d.tenant_id = A)
    row hnew.document (decide_eq_true hr)
  let owns : StoredJob → Bool := fun j => (s.documents.insert row).rows.any fun d =>
    d.id = j.document_id ∧ d.tenant_id = A
  have hown : owns (storedJob r.initialJob) = true :=
    List.any_eq_true.mpr ⟨row, Table.mem_insert _ _, decide_eq_true ⟨rfl, hr⟩⟩
  have hjobs := Table.retain_insert_pos _ hnew.job hown
  rw [Table.retain_congr fun j hj => ownsJob_insert row hl hnew.document A hj] at hjobs
  have hqueued : (s.queued r range number now).findIdempotency r.document = none := hfree
  unfold State.issued
  rw [withKey_ofTenant _ _ hqueued, if_pos hr]
  congr 1
  show State.mk _ _ _ _ _ _ _ _ _ _ _ = State.mk _ _ _ _ _ _ _ _ _ _ _
  congr 1
  · exact hranges.symm
  · exact hdocuments.symm
  · exact hjobs.symm

theorem issued_other (hl : s.Linked) {r : Request} (hne : r.document.tenant_id ≠ A)
    (hnew : s.NewFor r) (hfree : s.findIdempotency r.document = none) {range : NumberingRange}
    (hrange : range ∈ s.ranges.rows) (htenant : range.tenant_id = r.document.tenant_id)
    (number : Int) (now : Time) : (s.issued r range number now).ofTenant A = s.ofTenant A := by
  let row := outboundRow r.document range number now
  have hranges := Table.retain_modify_other (p := fun r : NumberingRange => r.tenant_id = A)
    s.ranges (k := range.id) (f := fun r => { r with current_counter := number })
    (fun _ => rfl) (fun _ => rfl) fun other hother hid => by
      have hsame : other = range := eq_of_key_eq s.ranges.nodup hother hrange hid
      rw [hsame, htenant]
      exact decide_eq_false hne
  have hdocuments := Table.retain_insert_neg (p := fun d : Document => d.tenant_id = A)
    row hnew.document (decide_eq_false hne)
  let owns : StoredJob → Bool := fun j => (s.documents.insert row).rows.any fun d =>
    d.id = j.document_id ∧ d.tenant_id = A
  have hown : owns (storedJob r.initialJob) = false := by
    refine List.any_eq_false.mpr fun d hd h => ?_
    rw [decide_eq_true_eq] at h
    rw [Table.insert_rows_of_new hnew.document, List.mem_append, List.mem_singleton] at hd
    cases hd with
    | inl hold => exact hnew.document d hold h.1
    | inr hlast =>
        rw [hlast] at h
        exact hne h.2
  have hjobs := Table.retain_insert_neg _ hnew.job hown
  rw [Table.retain_congr fun j hj => ownsJob_insert row hl hnew.document A hj] at hjobs
  have hqueued : (s.queued r range number now).findIdempotency r.document = none := hfree
  unfold State.issued
  rw [withKey_ofTenant _ _ hqueued, if_neg hne]
  show State.mk _ _ _ _ _ _ _ _ _ _ _ = State.mk _ _ _ _ _ _ _ _ _ _ _
  congr 1

theorem ofTenant_linked (hl : s.Linked) : (s.ofTenant A).Linked where
  webhooks := hl.webhooks.sublist ((List.filter_sublist).map Webhook.id)
  jobs := by
    intro j hj
    obtain ⟨-, howns⟩ := List.mem_filter.mp hj
    rw [State.ownsJob, List.any_eq_true] at howns
    obtain ⟨d, hd, h⟩ := howns
    rw [decide_eq_true_eq] at h
    exact ⟨d, List.mem_filter.mpr ⟨hd, decide_eq_true h.2⟩, h.1⟩
  deliveries := by
    intro r hr
    obtain ⟨-, howns⟩ := List.mem_filter.mp hr
    rw [State.ownsDelivery, List.any_eq_true] at howns
    obtain ⟨w, hw, h⟩ := howns
    rw [decide_eq_true_eq] at h
    exact ⟨w, List.mem_filter.mpr ⟨hw, decide_eq_true h.2⟩, h.1⟩

theorem ofTenant_newFor {r : Request} (hnew : s.NewFor r) : (s.ofTenant A).NewFor r where
  document d hd := hnew.document d (List.mem_of_mem_filter hd)
  job j hj := hnew.job j (List.mem_of_mem_filter hj)

theorem issue_own (hl : s.Linked) {r : Request} (hr : r.document.tenant_id = A)
    (hnew : s.NewFor r) (now : Time) :
    settle .issued (issueOutbound r.document r.initialJob now (s.ofTenant A)) =
      ((settle .issued (issueOutbound r.document r.initialJob now s)).1,
        (settle .issued (issueOutbound r.document r.initialJob now s)).2.ofTenant A) := by
  have hview := number_ofTenant (s := s) hr now
  cases hnumber : s.number r.document now with
  | error e =>
      rw [hnumber] at hview
      rw [issueOutbound_error hview, issueOutbound_error hnumber]
      rfl
  | ok numbering =>
      rw [hnumber] at hview
      cases numbering with
      | replayed issued =>
          rw [issueOutbound_replayed hview, issueOutbound_replayed hnumber]
          rfl
      | given range number =>
          obtain ⟨hfree, -, -⟩ := number_given hnumber
          rw [issueOutbound_new (ofTenant_linked hl) (ofTenant_newFor hnew) hview,
            issueOutbound_new hl hnew hnumber, issued_own hl hr hnew hfree]
          rfl

theorem issue_other (hl : s.Linked) {r : Request} (hne : r.document.tenant_id ≠ A)
    (hnew : s.NewFor r) (now : Time) :
    (settle .issued (issueOutbound r.document r.initialJob now s)).2.ofTenant A =
      s.ofTenant A := by
  cases hnumber : s.number r.document now with
  | error e =>
      rw [issueOutbound_error hnumber]
      rfl
  | ok numbering =>
      cases numbering with
      | replayed issued =>
          rw [issueOutbound_replayed hnumber]
          rfl
      | given range number =>
          obtain ⟨hfree, hrange, htenant⟩ := number_given hnumber
          rw [issueOutbound_new hl hnew hnumber]
          exact issued_other hl hne hnew hfree hrange htenant number now

/-! ## `insert_inbound` -/

theorem hasInbound_ofTenant {document : NewInboundDocument} (h : document.tenant_id = A) :
    (s.ofTenant A).hasInbound document = s.hasInbound document := by
  show List.any (s.documents.rows.filter _) _ = _
  rw [List.any_filter]
  unfold State.hasInbound
  congr 1
  funext d
  rw [Bool.eq_iff_iff, Bool.and_eq_true, decide_eq_true_eq]
  refine ⟨fun hd => hd.2, fun hd => ⟨?_, hd⟩⟩
  rw [decide_eq_true_eq] at hd
  exact hd.1.trans h

theorem insertInbound_run (document : NewInboundDocument) (now : Time) (s : State) :
    insertInbound document now s =
      if s.hasInbound document then .ok false s
      else .ok true { s with documents := s.documents.insert (inboundRow document now) } := by
  unfold insertInbound
  rw [get_bind_run]
  split <;> rfl

theorem addDocument_own (hl : s.Linked) {new : Document} (htenant : new.tenant_id = A)
    (hnew : ∀ d ∈ s.documents.rows, d.id ≠ new.id) :
    State.ofTenant A { s with documents := s.documents.insert new } =
      { s.ofTenant A with documents := (s.ofTenant A).documents.insert new } := by
  have hdocuments := Table.retain_insert_pos (p := fun d : Document => d.tenant_id = A) _ hnew
    (decide_eq_true htenant)
  have hjobs : s.jobs.retain (State.ownsJob { s with documents := s.documents.insert new } A) =
      s.jobs.retain fun j => s.ownsJob A j :=
    Table.retain_congr fun j hj => ownsJob_insert _ hl hnew A hj
  show State.mk _ _ _ _ _ _ _ _ _ _ _ = State.mk _ _ _ _ _ _ _ _ _ _ _
  congr 1

theorem addDocument_other (hl : s.Linked) {new : Document} (hne : new.tenant_id ≠ A)
    (hnew : ∀ d ∈ s.documents.rows, d.id ≠ new.id) :
    State.ofTenant A { s with documents := s.documents.insert new } = s.ofTenant A := by
  have hdocuments := Table.retain_insert_neg (p := fun d : Document => d.tenant_id = A) _ hnew
    (decide_eq_false hne)
  have hjobs : s.jobs.retain (State.ownsJob { s with documents := s.documents.insert new } A) =
      s.jobs.retain fun j => s.ownsJob A j :=
    Table.retain_congr fun j hj => ownsJob_insert _ hl hnew A hj
  show State.mk _ _ _ _ _ _ _ _ _ _ _ = State.mk _ _ _ _ _ _ _ _ _ _ _
  congr 1

theorem inbound_own (hl : s.Linked) {document : NewInboundDocument}
    (htenant : document.tenant_id = A) (hnew : ∀ d ∈ s.documents.rows, d.id ≠ document.id)
    (now : Time) :
    settle .inserted (insertInbound document now (s.ofTenant A)) =
      ((settle .inserted (insertInbound document now s)).1,
        (settle .inserted (insertInbound document now s)).2.ofTenant A) := by
  rw [insertInbound_run, insertInbound_run, hasInbound_ofTenant htenant]
  by_cases hreceived : s.hasInbound document = true
  · rw [if_pos hreceived, if_pos hreceived]
    rfl
  · rw [if_neg hreceived, if_neg hreceived]
    exact congrArg (Prod.mk _) (addDocument_own hl htenant hnew).symm

theorem inbound_other (hl : s.Linked) {document : NewInboundDocument}
    (hne : document.tenant_id ≠ A) (hnew : ∀ d ∈ s.documents.rows, d.id ≠ document.id)
    (now : Time) :
    (settle .inserted (insertInbound document now s)).2.ofTenant A = s.ofTenant A := by
  rw [insertInbound_run]
  by_cases hreceived : s.hasInbound document = true
  · rw [if_pos hreceived]
    rfl
  · rw [if_neg hreceived]
    exact addDocument_other hl hne hnew

/-! ## Webhooks -/

/-- A webhook that is added is not the webhook of a delivery there was. -/
theorem ownsDelivery_append (hl : s.Linked) {new : Webhook}
    (hnew : ∀ w ∈ s.webhooks, w.id ≠ new.id) (tenant_id : Uuid) {r : StoredDelivery}
    (hr : r ∈ s.deliveries.rows) :
    ((s.webhooks ++ [new]).any fun w => w.id = r.webhook_id ∧ w.tenant_id = tenant_id) =
      s.ownsDelivery tenant_id r := by
  rw [List.any_append, List.any_cons, List.any_nil, Bool.or_false]
  have hother : decide (new.id = r.webhook_id ∧ new.tenant_id = tenant_id) = false := by
    obtain ⟨w, hw, hid⟩ := hl.deliveries r hr
    exact decide_eq_false fun h => hnew w hw (hid.trans h.1.symm)
  rw [hother, Bool.or_false]
  rfl

theorem createWebhook_own (hl : s.Linked) {webhook : Webhook} (htenant : webhook.tenant_id = A)
    (hnew : ∀ w ∈ s.webhooks, w.id ≠ webhook.id) :
    State.ofTenant A { s with webhooks := s.webhooks ++ [webhook] } =
      { s.ofTenant A with webhooks := (s.ofTenant A).webhooks ++ [webhook] } := by
  have hwebhooks : (s.webhooks ++ [webhook]).filter (fun w => w.tenant_id = A) =
      s.webhooks.filter (fun w => w.tenant_id = A) ++ [webhook] :=
    filter_append_pos (p := fun w : Webhook => w.tenant_id = A) (decide_eq_true htenant)
  have hdeliveries : s.deliveries.retain
        (State.ownsDelivery { s with webhooks := s.webhooks ++ [webhook] } A) =
      s.deliveries.retain fun r => s.ownsDelivery A r :=
    Table.retain_congr fun r hr => ownsDelivery_append hl hnew A hr
  show State.mk _ _ _ _ _ _ _ _ _ _ _ = State.mk _ _ _ _ _ _ _ _ _ _ _
  congr 1

theorem createWebhook_other (hl : s.Linked) {webhook : Webhook} (hne : webhook.tenant_id ≠ A)
    (hnew : ∀ w ∈ s.webhooks, w.id ≠ webhook.id) :
    State.ofTenant A { s with webhooks := s.webhooks ++ [webhook] } = s.ofTenant A := by
  have hwebhooks : (s.webhooks ++ [webhook]).filter (fun w => w.tenant_id = A) =
      s.webhooks.filter fun w => w.tenant_id = A :=
    filter_append_neg (p := fun w : Webhook => w.tenant_id = A) (decide_eq_false hne)
  have hdeliveries : s.deliveries.retain
        (State.ownsDelivery { s with webhooks := s.webhooks ++ [webhook] } A) =
      s.deliveries.retain fun r => s.ownsDelivery A r :=
    Table.retain_congr fun r hr => ownsDelivery_append hl hnew A hr
  show State.mk _ _ _ _ _ _ _ _ _ _ _ = State.mk _ _ _ _ _ _ _ _ _ _ _
  congr 1

/-- The webhooks left by a deletion. -/
def State.remaining (s : State) (tenant_id webhook_id : Uuid) : List Webhook :=
  s.webhooks.filter fun w => ¬ (w.id = webhook_id ∧ w.tenant_id = tenant_id)

/-- The state once the webhook and its deliveries are gone. -/
def State.unsubscribed (s : State) (tenant_id webhook_id : Uuid) : State :=
  { s with
    webhooks := s.remaining tenant_id webhook_id
    deliveries := s.deliveries.retain fun r => r.webhook_id ≠ webhook_id }

def State.hasWebhook (s : State) (tenant_id webhook_id : Uuid) : Bool :=
  s.webhooks.any fun w => w.id = webhook_id ∧ w.tenant_id = tenant_id

/-- The length tells whether there was a webhook to delete. -/
theorem deleteWebhook_run (tenant_id webhook_id : Uuid) (s : State) :
    deleteWebhook tenant_id webhook_id s =
      if s.hasWebhook tenant_id webhook_id then
        .ok true (s.unsubscribed tenant_id webhook_id)
      else .ok false s := by
  have hlength : (s.remaining tenant_id webhook_id).length < s.webhooks.length ↔
      s.hasWebhook tenant_id webhook_id = true := by
    rw [State.remaining, List.length_filter_lt_length_iff_exists, State.hasWebhook,
      List.any_eq_true]
    simp only [decide_eq_true_eq, not_not]
  have hrun : deleteWebhook tenant_id webhook_id s =
      .ok (decide ((s.remaining tenant_id webhook_id).length < s.webhooks.length))
        { s with
          webhooks := s.remaining tenant_id webhook_id
          deliveries :=
            if (s.remaining tenant_id webhook_id).length < s.webhooks.length then
              s.deliveries.retain fun r => r.webhook_id ≠ webhook_id
            else s.deliveries } := rfl
  rw [hrun]
  by_cases hmine : s.hasWebhook tenant_id webhook_id = true
  · rw [if_pos hmine, if_pos (hlength.mpr hmine), decide_eq_true (hlength.mpr hmine)]
    rfl
  · have hsame : s.remaining tenant_id webhook_id = s.webhooks := by
      refine List.filter_eq_self.mpr fun w hw => decide_eq_true fun h => hmine ?_
      exact List.any_eq_true.mpr ⟨w, hw, decide_eq_true h⟩
    rw [if_neg hmine, if_neg fun h => hmine (hlength.mp h),
      decide_eq_false fun h => hmine (hlength.mp h), hsame]

/-- The webhooks left by a deletion own the deliveries left by it. -/
theorem ownsDelivery_remaining {B webhook_id : Uuid} {r : StoredDelivery}
    (h : A ≠ B ∨ r.webhook_id ≠ webhook_id) :
    ((s.remaining B webhook_id).any fun w => w.id = r.webhook_id ∧ w.tenant_id = A) =
      s.ownsDelivery A r := by
  unfold State.remaining State.ownsDelivery
  rw [List.any_filter]
  congr 1
  funext w
  rw [Bool.eq_iff_iff, Bool.and_eq_true, decide_eq_true_eq, decide_eq_true_eq]
  refine ⟨fun hw => hw.2, fun hw => ⟨fun hdeleted => ?_, hw⟩⟩
  cases h with
  | inl hne => exact hne (hw.2.symm.trans hdeleted.2)
  | inr hne => exact hne (hw.1.symm.trans hdeleted.1)

theorem hasWebhook_ofTenant (webhook_id : Uuid) :
    (s.ofTenant A).hasWebhook A webhook_id = s.hasWebhook A webhook_id := by
  show List.any (s.webhooks.filter _) _ = _
  rw [List.any_filter]
  unfold State.hasWebhook
  congr 1
  funext w
  simp

theorem unsubscribed_own (webhook_id : Uuid) :
    (s.ofTenant A).unsubscribed A webhook_id = (s.unsubscribed A webhook_id).ofTenant A := by
  have hdeliveries : (s.deliveries.retain fun r => s.ownsDelivery A r).retain
        (fun r => r.webhook_id ≠ webhook_id) =
      (s.deliveries.retain fun r => r.webhook_id ≠ webhook_id).retain fun r =>
        (s.remaining A webhook_id).any fun w => w.id = r.webhook_id ∧ w.tenant_id = A := by
    apply Table.ext
    show (s.deliveries.rows.filter _).filter _ = (s.deliveries.rows.filter _).filter _
    rw [List.filter_comm, List.filter_filter, List.filter_filter]
    refine List.filter_congr fun r _ => ?_
    by_cases hid : r.webhook_id = webhook_id
    · simp [hid]
    · rw [ownsDelivery_remaining (.inr hid)]
  show State.mk _ _ _ _ _ _ _ _ _ _ _ = State.mk _ _ _ _ _ _ _ _ _ _ _
  congr 1
  exact List.filter_comm _ _ _

theorem unsubscribed_other (hl : s.Linked) {B : Uuid} (hne : B ≠ A) {webhook_id : Uuid}
    (hmine : s.hasWebhook B webhook_id = true) :
    (s.unsubscribed B webhook_id).ofTenant A = s.ofTenant A := by
  obtain ⟨deleted, hmem, hkey⟩ := List.any_eq_true.mp hmine
  rw [decide_eq_true_eq] at hkey
  have hwebhooks : (s.remaining B webhook_id).filter (fun w => w.tenant_id = A) =
      s.webhooks.filter fun w => w.tenant_id = A := by
    unfold State.remaining
    rw [List.filter_filter]
    refine List.filter_congr fun w _ => ?_
    by_cases hA : w.tenant_id = A
    · simp [hA, hne.symm]
    · simp [hA]
  have hdeliveries : (s.deliveries.retain fun r => r.webhook_id ≠ webhook_id).retain
        (fun r => (s.remaining B webhook_id).any fun w =>
          w.id = r.webhook_id ∧ w.tenant_id = A) =
      s.deliveries.retain fun r => s.ownsDelivery A r := by
    apply Table.ext
    show (s.deliveries.rows.filter _).filter _ = s.deliveries.rows.filter _
    rw [List.filter_filter]
    refine List.filter_congr fun r _ => ?_
    rw [ownsDelivery_remaining (.inl hne.symm)]
    by_cases hid : r.webhook_id = webhook_id
    · have hnone : s.ownsDelivery A r = false := by
        refine List.any_eq_false.mpr fun w hw h => ?_
        rw [decide_eq_true_eq, hid] at h
        have hsame : w = deleted := eq_of_key_eq hl.webhooks hw hmem (h.1.trans hkey.1.symm)
        rw [hsame] at h
        exact hne (hkey.2.symm.trans h.2)
      rw [hnone, Bool.false_and]
    · simp [hid]
  show State.mk _ _ _ _ _ _ _ _ _ _ _ = State.mk _ _ _ _ _ _ _ _ _ _ _
  congr 1

end View

/-! ## Runs -/

section Runs

variable {s : State} {A : Uuid}

theorem mem_takenIds {id : Uuid} : id ∈ s.takenIds ↔ (∃ d ∈ s.documents.rows, d.id = id) ∨
    (∃ j ∈ s.jobs.rows, j.id = id) ∨ ∃ w ∈ s.webhooks, w.id = id := by
  simp only [State.takenIds, List.mem_append, List.mem_map, or_assoc]

theorem State.Ready.newFor {calls : List TenantCall} {r : Request} {now : Time}
    {later : List Time} (h : s.Ready (.issueOutbound r now later :: calls)) : s.NewFor r where
  document d hd hid := h.fresh.head r.document.id List.mem_cons_self
    (mem_takenIds.mpr (.inl ⟨d, hd, hid⟩))
  job j hj hid := h.fresh.head r.job_id (List.mem_cons_of_mem _ List.mem_cons_self)
    (mem_takenIds.mpr (.inr (.inl ⟨j, hj, hid⟩)))

theorem State.Ready.newDocument {calls : List TenantCall} {document : NewInboundDocument}
    {now : Time} (h : s.Ready (.insertInbound document now :: calls)) :
    ∀ d ∈ s.documents.rows, d.id ≠ document.id := fun d hd hid =>
  h.fresh.head document.id List.mem_cons_self (mem_takenIds.mpr (.inl ⟨d, hd, hid⟩))

theorem State.Ready.newWebhook {calls : List TenantCall} {webhook : Webhook}
    (h : s.Ready (.createWebhook webhook :: calls)) : ∀ w ∈ s.webhooks, w.id ≠ webhook.id :=
  fun w hw hid =>
    h.fresh.head webhook.id List.mem_cons_self (mem_takenIds.mpr (.inr (.inr ⟨w, hw, hid⟩)))

/-- A call does to what is of its tenant what it does to the state. -/
theorem tenantCall_own {c : TenantCall} {calls : List TenantCall} (h : s.Ready (c :: calls))
    (hc : c.tenant = A) :
    tenantCall c (s.ofTenant A) = ((tenantCall c s).1, (tenantCall c s).2.ofTenant A) := by
  cases c with
  | issueOutbound r now later => exact issue_own h.linked hc h.newFor now
  | insertInbound document now => exact inbound_own h.linked hc h.newDocument now
  | findTenantDocument tenant_id id =>
      cases hc
      have hfind : findTenantDocument (s.ofTenant tenant_id) tenant_id id =
          findTenantDocument s tenant_id id := by
        unfold findTenantDocument
        show ((s.documents.retain _).get? id).filter _ = _
        rw [Table.get?_retain, Option.filter_filter]
        simp only [Bool.and_self]
      exact congrArg (fun d => (TenantAnswer.document d, s.ofTenant tenant_id)) hfind
  | createWebhook webhook =>
      exact congrArg (Prod.mk _) (createWebhook_own h.linked hc h.newWebhook).symm
  | listWebhooks tenant_id =>
      cases hc
      have hlist : listWebhooks (s.ofTenant tenant_id) tenant_id = listWebhooks s tenant_id := by
        unfold listWebhooks
        show (s.webhooks.filter _).filter _ = _
        rw [List.filter_filter]
        simp only [Bool.and_self]
      exact congrArg (fun ws => (TenantAnswer.webhooks ws, s.ofTenant tenant_id)) hlist
  | deleteWebhook tenant_id webhook_id =>
      cases hc
      show settle .deleted (deleteWebhook tenant_id webhook_id (s.ofTenant tenant_id)) =
        ((settle .deleted (deleteWebhook tenant_id webhook_id s)).1,
          (settle .deleted (deleteWebhook tenant_id webhook_id s)).2.ofTenant tenant_id)
      rw [deleteWebhook_run, deleteWebhook_run, hasWebhook_ofTenant]
      by_cases hmine : s.hasWebhook tenant_id webhook_id = true
      · rw [if_pos hmine, if_pos hmine, unsubscribed_own]
        rfl
      · rw [if_neg hmine, if_neg hmine]
        rfl

/-- A call leaves what is of every other tenant. -/
theorem tenantCall_other {c : TenantCall} {calls : List TenantCall} (h : s.Ready (c :: calls))
    (hc : c.tenant ≠ A) : (tenantCall c s).2.ofTenant A = s.ofTenant A := by
  cases c with
  | issueOutbound r now later => exact issue_other h.linked hc h.newFor now
  | insertInbound document now => exact inbound_other h.linked hc h.newDocument now
  | findTenantDocument tenant_id id => rfl
  | createWebhook webhook => exact createWebhook_other h.linked hc h.newWebhook
  | listWebhooks tenant_id => rfl
  | deleteWebhook tenant_id webhook_id =>
      show (settle .deleted (deleteWebhook tenant_id webhook_id s)).2.ofTenant A = s.ofTenant A
      rw [deleteWebhook_run]
      by_cases hmine : s.hasWebhook tenant_id webhook_id = true
      · rw [if_pos hmine]
        exact unsubscribed_other h.linked hc hmine
      · rw [if_neg hmine]
        rfl

/-! ### What a call leaves -/

/-- Jobs and webhooks still have what they refer to, and no id is taken but those the call
    drew. -/
structure State.Grown (s s' : State) (ids : List Uuid) : Prop where
  linked : s'.Linked
  taken : ∀ id ∈ s'.takenIds, id ∈ s.takenIds ∨ id ∈ ids

theorem State.Grown.refl (hl : s.Linked) (ids : List Uuid) : s.Grown s ids :=
  ⟨hl, fun _ hid => .inl hid⟩

theorem grown_addDocument (new : Document) (hl : s.Linked)
    (hnew : ∀ d ∈ s.documents.rows, d.id ≠ new.id) :
    s.Grown { s with documents := s.documents.insert new } [new.id] := by
  have hrows := Table.insert_rows_of_new hnew
  refine ⟨⟨hl.webhooks, fun j hj => ?_, hl.deliveries⟩, fun id hid => ?_⟩
  · obtain ⟨d, hd, hid⟩ := hl.jobs j hj
    refine ⟨d, ?_, hid⟩
    show d ∈ (s.documents.insert new).rows
    rw [hrows]
    exact List.mem_append_left _ hd
  · rw [mem_takenIds] at hid
    rw [mem_takenIds, List.mem_singleton]
    cases hid with
    | inl hdocument =>
        obtain ⟨d, hd, hid⟩ := hdocument
        rw [show (s.documents.insert new).rows = _ from hrows, List.mem_append,
          List.mem_singleton] at hd
        cases hd with
        | inl hold => exact .inl (.inl ⟨d, hold, hid⟩)
        | inr hlast => exact .inr (hid.symm.trans (congrArg Document.id hlast))
    | inr hrest => exact .inl (.inr hrest)

theorem grown_issued (hl : s.Linked) {r : Request} (hnew : s.NewFor r) (range : NumberingRange)
    (number : Int) (now : Time) :
    s.Grown (s.issued r range number now) [r.document.id, r.job_id] := by
  let row := outboundRow r.document range number now
  have hdocuments : (s.issued r range number now).documents.rows = s.documents.rows ++ [row] := by
    have hrows : (s.documents.insert row).rows = s.documents.rows ++ [row] :=
      Table.insert_rows_of_new hnew.document
    unfold State.issued State.withKey
    cases r.document.idempotency <;> exact hrows
  have hjobs : (s.issued r range number now).jobs.rows =
      s.jobs.rows ++ [storedJob r.initialJob] := by
    have hrows : (s.jobs.insert (storedJob r.initialJob)).rows =
        s.jobs.rows ++ [storedJob r.initialJob] := Table.insert_rows_of_new hnew.job
    unfold State.issued State.withKey
    cases r.document.idempotency <;> exact hrows
  have hwebhooks : (s.issued r range number now).webhooks = s.webhooks := by
    unfold State.issued State.withKey
    cases r.document.idempotency <;> rfl
  have hdeliveries : (s.issued r range number now).deliveries = s.deliveries := by
    unfold State.issued State.withKey
    cases r.document.idempotency <;> rfl
  refine ⟨⟨?_, fun j hj => ?_, ?_⟩, fun id hid => ?_⟩
  · rw [hwebhooks]
    exact hl.webhooks
  · rw [hjobs, List.mem_append, List.mem_singleton] at hj
    rw [hdocuments]
    cases hj with
    | inl hold =>
        obtain ⟨d, hd, hid⟩ := hl.jobs j hold
        exact ⟨d, List.mem_append_left _ hd, hid⟩
    | inr hlast =>
        rw [hlast]
        exact ⟨row, List.mem_append_right _ List.mem_cons_self, rfl⟩
  · rw [hwebhooks, hdeliveries]
    exact hl.deliveries
  · rw [mem_takenIds, hdocuments, hjobs, hwebhooks] at hid
    rw [mem_takenIds]
    simp only [List.mem_append, List.mem_singleton] at hid
    obtain ⟨d, hold | hlast, hid⟩ | ⟨j, hold | hlast, hid⟩ | hwebhook := hid
    · exact .inl (.inl ⟨d, hold, hid⟩)
    · rw [← hid, hlast]
      exact .inr List.mem_cons_self
    · exact .inl (.inr (.inl ⟨j, hold, hid⟩))
    · rw [← hid, hlast]
      exact .inr (List.mem_cons_of_mem _ List.mem_cons_self)
    · exact .inl (.inr (.inr hwebhook))

theorem grown_createWebhook (hl : s.Linked) {webhook : Webhook}
    (hnew : ∀ w ∈ s.webhooks, w.id ≠ webhook.id) :
    s.Grown { s with webhooks := s.webhooks ++ [webhook] } [webhook.id] := by
  refine ⟨⟨?_, hl.jobs, fun r hr => ?_⟩, fun id hid => ?_⟩
  · show ((s.webhooks ++ [webhook]).map Webhook.id).Nodup
    rw [List.map_append, List.nodup_append]
    refine ⟨hl.webhooks, List.nodup_singleton _, fun a ha b hb => ?_⟩
    obtain ⟨w, hw, rfl⟩ := List.mem_map.mp ha
    rw [List.map_singleton, List.mem_singleton] at hb
    rw [hb]
    exact hnew w hw
  · obtain ⟨w, hw, hid⟩ := hl.deliveries r hr
    exact ⟨w, List.mem_append_left _ hw, hid⟩
  · rw [mem_takenIds] at hid
    rw [mem_takenIds, List.mem_singleton]
    simp only [List.mem_append, List.mem_singleton] at hid
    obtain hdocument | hjob | ⟨w, hold | hlast, hid⟩ := hid
    · exact .inl (.inl hdocument)
    · exact .inl (.inr (.inl hjob))
    · exact .inl (.inr (.inr ⟨w, hold, hid⟩))
    · exact .inr (hid.symm.trans (congrArg Webhook.id hlast))

theorem grown_unsubscribed (hl : s.Linked) (tenant_id webhook_id : Uuid) :
    s.Grown (s.unsubscribed tenant_id webhook_id) [] := by
  refine ⟨⟨hl.webhooks.sublist ((List.filter_sublist).map Webhook.id), hl.jobs, fun r hr => ?_⟩,
    fun id hid => .inl ?_⟩
  · obtain ⟨hmem, hother⟩ := List.mem_filter.mp hr
    obtain ⟨w, hw, hid⟩ := hl.deliveries r hmem
    refine ⟨w, List.mem_filter.mpr ⟨hw, decide_eq_true fun hdeleted => ?_⟩, hid⟩
    exact of_decide_eq_true hother (hid.symm.trans hdeleted.1)
  · rw [mem_takenIds] at hid ⊢
    refine hid.imp_right fun h => h.imp_right fun h => ?_
    obtain ⟨w, hw, hid⟩ := h
    exact ⟨w, List.mem_of_mem_filter hw, hid⟩

theorem tenantCall_grown {c : TenantCall} {calls : List TenantCall} (h : s.Ready (c :: calls)) :
    s.Grown (tenantCall c s).2 c.newIds := by
  cases c with
  | issueOutbound r now later =>
      show s.Grown (settle .issued (issueOutbound r.document r.initialJob now s)).2 _
      cases hnumber : s.number r.document now with
      | error e =>
          rw [issueOutbound_error hnumber]
          exact .refl h.linked _
      | ok numbering =>
          cases numbering with
          | replayed issued =>
              rw [issueOutbound_replayed hnumber]
              exact .refl h.linked _
          | given range number =>
              rw [issueOutbound_new h.linked h.newFor hnumber]
              exact grown_issued h.linked h.newFor range number now
  | insertInbound document now =>
      show s.Grown (settle .inserted (insertInbound document now s)).2 _
      rw [insertInbound_run]
      by_cases hreceived : s.hasInbound document = true
      · rw [if_pos hreceived]
        exact .refl h.linked _
      · rw [if_neg hreceived]
        exact grown_addDocument (inboundRow document now) h.linked h.newDocument
  | findTenantDocument tenant_id id => exact .refl h.linked _
  | createWebhook webhook => exact grown_createWebhook h.linked h.newWebhook
  | listWebhooks tenant_id => exact .refl h.linked _
  | deleteWebhook tenant_id webhook_id =>
      show s.Grown (settle .deleted (deleteWebhook tenant_id webhook_id s)).2 _
      rw [deleteWebhook_run]
      by_cases hmine : s.hasWebhook tenant_id webhook_id = true
      · rw [if_pos hmine]
        exact grown_unsubscribed h.linked tenant_id webhook_id
      · rw [if_neg hmine]
        exact .refl h.linked _

theorem memoryService_separates : memoryService.Separates State.ofTenant State.Ready where
  sublist hsub h := ⟨h.linked, h.fresh.sublist hsub⟩
  step h :=
    have hgrown := tenantCall_grown h
    ⟨hgrown.linked, h.fresh.tail hgrown.taken⟩
  own h := tenantCall_own h rfl
  other h hc := tenantCall_other h hc

/-- In both stores, a run without the calls of tenant `B` gives tenant `A` the same answers and
    ends with the same documents, numbering ranges, idempotency keys, jobs, webhooks and
    deliveries of `A`. -/
theorem tenants_isolated {B : Uuid} (hne : A ≠ B) (calls : List TenantCall) :
    (∀ db : Db, db.Ready calls →
      Lib.Service.answersTo A (pgService.run (pgService.without B calls) db).1 =
        Lib.Service.answersTo A (pgService.run calls db).1 ∧
      (pgService.run (pgService.without B calls) db).2.ofTenant A =
        (pgService.run calls db).2.ofTenant A) ∧
    ∀ s : State, s.Ready calls →
      Lib.Service.answersTo A (memoryService.run (memoryService.without B calls) s).1 =
        Lib.Service.answersTo A (memoryService.run calls s).1 ∧
      (memoryService.run (memoryService.without B calls) s).2.ofTenant A =
        (memoryService.run calls s).2.ofTenant A :=
  ⟨fun _ hdb => pgService_separates.isolated hne hdb,
    fun _ hs => memoryService_separates.isolated hne hs⟩

/-! ### Two tenants with the same prefix -/

def sharedRange (id tenant_id : Uuid) : NumberingRange :=
  ⟨id, tenant_id, .invoice, "FE", 1, 100, "key", 0, 1000, 0⟩

def sharedRequest (id tenant_id : Uuid) : Request :=
  ⟨⟨id, tenant_id, .invoice, "FE", none, .null, none⟩, id + 1, 10, 10⟩

/-- Tenant 2 issues first, with the prefix of tenant 1, and deletes its own webhook. -/
def sharedCalls : List TenantCall :=
  [.issueOutbound (sharedRequest 20 2) 10 [10, 10, 10, 10, 10, 10],
    .issueOutbound (sharedRequest 10 1) 11 [11, 11, 11, 11, 11, 11],
    .createWebhook ⟨30, 2, "https://b", "s", "*", .active⟩,
    .findTenantDocument 1 20,
    .deleteWebhook 2 30,
    .listWebhooks 1]

def sharedDb : Db :=
  { Db.fresh [⟨1, "900"⟩, ⟨2, "901"⟩] with
    numbering_ranges := [sharedRange 7 1, sharedRange 8 2] }

def sharedState : State :=
  { emptyState with
    ranges := ((Table.empty NumberingRange.id).insert (sharedRange 7 1)).insert
      (sharedRange 8 2) }

theorem sharedCalls_fresh : FreshIds sharedCalls [] := ⟨by decide, fun _ _ => List.not_mem_nil⟩

theorem sharedDb_ready : sharedDb.Ready sharedCalls :=
  ⟨⟨by decide, by decide, by decide, by decide⟩, sharedCalls_fresh⟩

theorem sharedState_ready : sharedState.Ready sharedCalls :=
  ⟨⟨by decide, by decide, by decide⟩, sharedCalls_fresh⟩

theorem shared_prefix_isolated :
    Lib.Service.answersTo 1 (pgService.run (pgService.without 2 sharedCalls) sharedDb).1 =
      Lib.Service.answersTo 1 (pgService.run sharedCalls sharedDb).1 ∧
    Lib.Service.answersTo 1
        (memoryService.run (memoryService.without 2 sharedCalls) sharedState).1 =
      Lib.Service.answersTo 1 (memoryService.run sharedCalls sharedState).1 :=
  ⟨((tenants_isolated (by decide) sharedCalls).1 sharedDb sharedDb_ready).1,
    ((tenants_isolated (by decide) sharedCalls).2 sharedState sharedState_ready).1⟩

end Runs

end DianService.Memory
