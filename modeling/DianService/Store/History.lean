import Mathlib.Data.List.Chain
import DianService.Issue.Numbers
import DianService.Store.Deliveries
import DianService.Store.Lifecycle

/-
  Store: what is left of a whole run of the operations on the tables. The statements of
  `issue_outbound` interleave one by one; each of the other operations is one transaction, which
  holds the rows it writes from its update to its commit.

  Two records are read off the tables before and after a step, whichever operation took it: the
  statuses documents came to have, with the subscriptions at that moment, and the deliveries
  added to the outbox. `Followed` couples them: the statuses of a document are a path of the state
  machine, and the deliveries of a document to a webhook are the ones its statuses call for.
-/

namespace DianService

open Lib

/-! ## The operations -/

inductive StoreOp where
  | issue (a : IssueAction)
  | applyTransition (t : Transition) (now : Time) (fresh : Nat → Uuid)
  | storeArtifacts (id : Uuid) (cufe original_xml signed_xml : String)
  | requeueContingency (limit : Nat) (max_attempts : Int) (now : Time) (fresh : Nat → Uuid)
      (skipped : List Uuid)
  | retryDeadJob (job_id : Uuid) (audit : AuditEntry) (now : Time)
  | createWebhook (webhook : Webhook)
  | deleteWebhook (tenant_id webhook_id : Uuid)

/-- The tables once a transaction has ended; one that is refused leaves nothing behind. -/
def Db.ended (db : Db) : Except DomainError Db → Db
  | .ok db' => db'
  | .error _ => db

def storeStep (s : IssueState) : StoreOp → Option IssueState
  | .issue a => issueStep s a
  | .applyTransition t now fresh =>
      some { s with db := s.db.ended ((s.db.applyTransition t now fresh).map Prod.fst) }
  | .storeArtifacts id cufe original_xml signed_xml =>
      some { s with db := s.db.ended (s.db.storeArtifacts id cufe original_xml signed_xml) }
  | .requeueContingency limit max_attempts now fresh skipped =>
      let result := s.db.requeueContingency limit max_attempts now fresh skipped
      some { s with db := s.db.ended (result.map Prod.fst) }
  | .retryDeadJob job_id audit now =>
      some { s with db := s.db.ended ((s.db.retryDeadJob job_id audit now).map Prod.fst) }
  | .createWebhook webhook => some { s with db := s.db.ended (s.db.createWebhook webhook) }
  | .deleteWebhook tenant_id webhook_id =>
      some { s with db := (s.db.deleteWebhook tenant_id webhook_id).1 }

def store : Machine IssueState StoreOp where
  start s := ∃ tenants, s = ⟨Db.fresh tenants, [], []⟩
  step := storeStep

/-! ## The history -/

/-- A document comes to have a status, while these are the webhooks. -/
structure Arrival where
  document_id : Uuid
  tenant_id : Uuid
  status : DocumentStatus
  webhooks : List Webhook

/-- The event that the webhook is to be told. -/
def Arrival.event? (a : Arrival) (webhook_id : Uuid) : Option String :=
  (eventFor a.status).filter fun event_type =>
    a.webhooks.any fun w => w.id = webhook_id ∧ w.tenant_id = a.tenant_id ∧
      w.subscription_status = .active ∧ (w.event_type = event_type ∨ w.event_type = "*")

structure StoreHistory where
  arrivals : List Arrival
  enqueued : List DeliveryRow

/-- It is a new document, or has another status than before. -/
def Db.arriving (db : Db) (d : Document) : Bool :=
  ¬ db.documents.any fun e => e.id = d.id ∧ e.status = d.status

def Db.arrival (db : Db) (d : Document) : Arrival := ⟨d.id, d.tenant_id, d.status, db.webhooks⟩

def Db.arrivals (db db' : Db) : List Arrival := (db'.documents.filter db.arriving).map db.arrival

def Db.enqueued (db db' : Db) : List DeliveryRow :=
  db'.webhook_deliveries.filter fun r => ¬ db.webhook_deliveries.any fun q => q.id = r.id

def noteStore (s : IssueState) (op : StoreOp) (h : StoreHistory) : StoreHistory :=
  match storeStep s op with
  | none => h
  | some s' => ⟨h.arrivals ++ s.db.arrivals s'.db, h.enqueued ++ s.db.enqueued s'.db⟩

/-- A run of the operations beside its history. -/
def storeObserved : Machine (IssueState × StoreHistory) StoreOp :=
  store.observed ⟨[], []⟩ noteStore

def arrivalsOf (document_id : Uuid) (arrivals : List Arrival) : List Arrival :=
  arrivals.filter fun a => a.document_id = document_id

def statusesOf (document_id : Uuid) (arrivals : List Arrival) : List DocumentStatus :=
  (arrivalsOf document_id arrivals).map Arrival.status

/-- The events of a document that a webhook is to be told, in order. -/
def dueEvents (document_id webhook_id : Uuid) (arrivals : List Arrival) : List String :=
  (arrivalsOf document_id arrivals).filterMap fun a => a.event? webhook_id

/-- The events of the deliveries of a document to a webhook, in order. -/
def enqueuedEvents (document_id webhook_id : Uuid) (rows : List DeliveryRow) : List String :=
  (rows.filter fun r => r.document_id = document_id ∧ r.webhook_id = webhook_id).map
    DeliveryRow.event_type

section History

variable {db db' : Db} {id webhook_id : Uuid}

@[simp] theorem statusesOf_append (as bs : List Arrival) :
    statusesOf id (as ++ bs) = statusesOf id as ++ statusesOf id bs := by
  simp [statusesOf, arrivalsOf]

@[simp] theorem dueEvents_append (as bs : List Arrival) :
    dueEvents id webhook_id (as ++ bs) = dueEvents id webhook_id as ++ dueEvents id webhook_id bs := by
  simp [dueEvents, arrivalsOf]

@[simp] theorem enqueuedEvents_append (rs qs : List DeliveryRow) :
    enqueuedEvents id webhook_id (rs ++ qs) =
      enqueuedEvents id webhook_id rs ++ enqueuedEvents id webhook_id qs := by
  simp [enqueuedEvents]

/-- The deliveries as what they are about. -/
theorem enqueuedEvents_notice (rows : List DeliveryRow) :
    enqueuedEvents id webhook_id rows = ((rows.map DeliveryRow.notice).filter fun n =>
      n.1 = id ∧ n.2.1 = webhook_id).map fun n => n.2.2 := by
  rw [enqueuedEvents, List.filter_map, List.map_map]
  rfl

theorem arriving_eq_false {d : Document} :
    db.arriving d = false ↔ ∃ e ∈ db.documents, e.id = d.id ∧ e.status = d.status := by
  simp [Db.arriving]

theorem arriving_eq_true {d : Document} :
    db.arriving d = true ↔ ∀ e ∈ db.documents, e.id = d.id → e.status ≠ d.status := by
  simp [Db.arriving]

/-- A step brings a document to at most one status. -/
theorem arrivalsOf_step (hids : (db'.documents.map Document.id).Nodup) (id : Uuid) :
    arrivalsOf id (db.arrivals db') =
      ((db'.document? id).toList.filter db.arriving).map db.arrival := by
  have hswap : (db'.documents.filter db.arriving).filter (fun d => d.id = id) =
      (db'.documents.filter fun d => d.id = id).filter db.arriving := by
    rw [List.filter_filter, List.filter_filter]
    exact List.filter_congr fun d _ => Bool.and_comm ..
  rw [arrivalsOf, Db.arrivals, List.filter_map, Db.document?, ← filter_key_toList hids, ← hswap]
  rfl

/-! ## What every operation keeps -/

/-- The unique keys the history rests on. -/
structure Db.Keyed (db : Db) : Prop where
  documents : (db.documents.map Document.id).Nodup
  webhooks : (db.webhooks.map Webhook.id).Nodup
  webhook_deliveries : (db.webhook_deliveries.map DeliveryRow.id).Nodup

/-- What an operation leaves in the tables, and in the history. -/
structure Db.Recorded (db db' : Db) : Prop where
  keyed : db'.Keyed
  kept : ∀ d ∈ db.documents, ∃ e ∈ db'.documents, e.id = d.id
  moves : db.Moves db'
  notices : ∀ id webhook_id,
    enqueuedEvents id webhook_id (db.enqueued db') = dueEvents id webhook_id (db.arrivals db')

/-- An operation that only makes documents `Pending` and adds no delivery. -/
theorem Db.Recorded.of_quiet (hkeyed : db'.Keyed)
    (hkept : ∀ d ∈ db.documents, ∃ e ∈ db'.documents, e.id = d.id) (hmoves : db.Moves db')
    (hpending : ∀ d ∈ db'.documents, db.arriving d = true → d.status = .pending)
    (hrows : ∀ r ∈ db'.webhook_deliveries, r ∈ db.webhook_deliveries) : db.Recorded db' := by
  refine ⟨hkeyed, hkept, hmoves, fun id webhook_id => ?_⟩
  have hnone : db.enqueued db' = [] := by
    unfold Db.enqueued
    rw [List.filter_eq_nil_iff]
    intro r hr
    simpa using ⟨r, hrows r hr, rfl⟩
  have hdue : dueEvents id webhook_id (db.arrivals db') = [] := by
    unfold dueEvents
    rw [List.filterMap_eq_nil_iff]
    intro a ha
    obtain ⟨d, hd, rfl⟩ := List.mem_map.mp (List.mem_of_mem_filter ha)
    obtain ⟨hmem, harriving⟩ := List.mem_filter.mp hd
    have hstatus : (db.arrival d).status = .pending := hpending d hmem harriving
    simp [Arrival.event?, hstatus, eventFor]
  rw [hnone, hdue]
  rfl

/-- A transaction that leaves the ranges and the ids of documents alone. -/
structure Db.Transacted (db db' : Db) : Prop extends db.Recorded db' where
  numbering_ranges : db'.numbering_ranges = db.numbering_ranges
  document_ids : db'.documents.map Document.id = db.documents.map Document.id

theorem Db.Transacted.of_map {f : Document → Document} (hkeyed : db.Keyed)
    (hranges : db'.numbering_ranges = db.numbering_ranges)
    (hdocuments : db'.documents = db.documents.map f) (hmoves : db.Moves db')
    (hf : ∀ d ∈ db.documents, (f d).id = d.id ∧
      ((f d).status = d.status ∨ (f d).status = .pending))
    (hwebhooks : (db'.webhooks.map Webhook.id).Nodup)
    (hrows : db'.webhook_deliveries.Sublist db.webhook_deliveries) : db.Transacted db' := by
  have hids : db'.documents.map Document.id = db.documents.map Document.id := by
    rw [hdocuments, List.map_map]
    exact List.map_congr_left fun d hd => (hf d hd).1
  refine ⟨.of_quiet ⟨hids ▸ hkeyed.documents, hwebhooks,
    (hrows.map _).nodup hkeyed.webhook_deliveries⟩ ?_ hmoves ?_ fun r hr => hrows.subset hr,
    hranges, hids⟩
  · intro d hd
    exact ⟨f d, hdocuments ▸ List.mem_map_of_mem hd, (hf d hd).1⟩
  · intro d' hd' harriving
    rw [hdocuments] at hd'
    obtain ⟨d, hd, rfl⟩ := List.mem_map.mp hd'
    rcases (hf d hd).2 with hstatus | hpending
    · exact absurd hstatus.symm (arriving_eq_true.mp harriving d hd (hf d hd).1.symm)
    · exact hpending

/-- A transaction on the webhooks and their deliveries. -/
theorem Db.Transacted.of_eq (hkeyed : db.Keyed)
    (hranges : db'.numbering_ranges = db.numbering_ranges)
    (hdocuments : db'.documents = db.documents)
    (hwebhooks : (db'.webhooks.map Webhook.id).Nodup)
    (hrows : db'.webhook_deliveries.Sublist db.webhook_deliveries) : db.Transacted db' :=
  .of_map (f := id) hkeyed hranges (by rw [hdocuments, List.map_id]) (.of_eq hdocuments)
    (fun _ _ => ⟨rfl, .inl rfl⟩) hwebhooks hrows

theorem Db.Transacted.refl (hkeyed : db.Keyed) : db.Transacted db :=
  .of_eq hkeyed rfl rfl hkeyed.webhooks (List.Sublist.refl _)

theorem canTransitionTo_irrefl (s : DocumentStatus) : s.canTransitionTo s = false := by
  cases s <;> rfl

/-- `notify` tells a webhook the event it is to be told. -/
theorem notified_events (hwebhooks : (db.webhooks.map Webhook.id).Nodup) (d : Document)
    (target : DocumentStatus) (id webhook_id : Uuid) :
    ((db.notified d target).filter fun n => n.1 = id ∧ n.2.1 = webhook_id).map (fun n => n.2.2) =
      if d.id = id then
        (Arrival.event? ⟨d.id, d.tenant_id, target, db.webhooks⟩ webhook_id).toList
      else [] := by
  unfold Db.notified Arrival.event?
  cases eventFor target with
  | none => simp
  | some event_type =>
      dsimp only
      rw [List.filter_map, List.map_map]
      split_ifs with hid
      · have hrows : ((db.subscribers d.tenant_id event_type).filter
            ((fun n : Uuid × Uuid × String => decide (n.1 = id ∧ n.2.1 = webhook_id)) ∘
              fun w => (d.id, w.id, event_type))) =
            db.webhooks.filter fun w => w.id = webhook_id ∧ w.tenant_id = d.tenant_id ∧
              w.subscription_status = .active ∧ (w.event_type = event_type ∨ w.event_type = "*") := by
          rw [Db.subscribers, List.filter_filter]
          refine List.filter_congr fun w _ => ?_
          simp [hid]
        rw [hrows]
        refine (map_filter_key hwebhooks webhook_id _ event_type).trans ?_
        rw [Option.filter_some]
        split_ifs <;> rfl
      · rw [List.map_eq_nil_iff, List.filter_eq_nil_iff]
        intro w _
        simp [hid]

namespace Db.Applied

variable {t : Transition} {d : Document}

theorem document_ids (h : db.Applied t d db') :
    db'.documents.map Document.id = db.documents.map Document.id := by
  rw [h.documents, List.map_map]
  refine List.map_congr_left fun e _ => ?_
  exact (Document.same_ite (Document.same_moved t.target) (fun e => e.id = d.id) e).id.symm

/-- A transition brings its document to its target, and no other to anything. -/
theorem arrivalsOf (h : db.Applied t d db') (hids : (db.documents.map Document.id).Nodup)
    (id : Uuid) : DianService.arrivalsOf id (db.arrivals db') =
      if d.id = id then [⟨d.id, d.tenant_id, t.target, db.webhooks⟩] else [] := by
  have hids' := h.document_ids ▸ hids
  rw [arrivalsOf_step hids']
  have hd := (Db.document?_mem h.found).1
  split_ifs with hid
  · have hmoved : d.moved t.target ∈ db'.documents := by
      rw [h.documents]
      exact List.mem_map.mpr ⟨d, hd, if_pos rfl⟩
    have hfind : db'.document? id = some (d.moved t.target) := by
      rw [← hid]
      exact find?_key_eq hids' hmoved
    have harriving : db.arriving (d.moved t.target) = true := by
      rw [arriving_eq_true]
      intro e he heid hstatus
      rw [eq_of_key_eq hids he hd heid] at hstatus
      have hcan := DocumentStatus.canTransitionTo_iff.mpr h.allowed
      rw [show d.status = t.target from hstatus, canTransitionTo_irrefl] at hcan
      cases hcan
    rw [hfind, Option.toList_some, List.filter_singleton, harriving]
    rfl
  · rw [List.map_eq_nil_iff, List.filter_eq_nil_iff]
    intro e he
    obtain ⟨hemem, heid⟩ := Db.document?_mem (Option.mem_toList.mp he)
    rw [h.documents] at hemem
    obtain ⟨e₀, he₀, rfl⟩ := List.mem_map.mp hemem
    rw [Bool.not_eq_true, arriving_eq_false]
    by_cases hdid : e₀.id = d.id
    · rw [if_pos hdid] at heid
      exact absurd (hdid.symm.trans heid) hid
    · rw [if_neg hdid]
      exact ⟨e₀, he₀, rfl, rfl⟩

/-- The deliveries of a transition are those its target calls for. -/
theorem transacted (h : db.Applied t d db') (hkeyed : db.Keyed) : db.Transacted db' := by
  obtain ⟨rows, hrows, -, hnodup⟩ := h.outbox
  have hkeyed' : db'.Keyed :=
    ⟨h.document_ids ▸ hkeyed.documents, h.webhooks ▸ hkeyed.webhooks,
      hnodup hkeyed.webhook_deliveries⟩
  refine ⟨⟨hkeyed', ?_, h.moves hkeyed.documents, fun id webhook_id => ?_⟩,
    h.numbering_ranges, h.document_ids⟩
  · intro e he
    have hmem : e.id ∈ db'.documents.map Document.id :=
      h.document_ids ▸ List.mem_map_of_mem he
    exact List.mem_map.mp hmem
  · have hadded : (db.enqueued db').map DeliveryRow.notice = db.notified d t.target := by
      have hnotices := h.notices
      have hkeys := hkeyed'.webhook_deliveries
      rw [hrows] at hkeys hnotices
      rw [List.map_append] at hnotices
      rw [Db.enqueued, hrows, filter_added hkeys]
      exact List.append_cancel_left hnotices
    rw [enqueuedEvents_notice, hadded, notified_events hkeyed.webhooks, dueEvents,
      h.arrivalsOf hkeyed.documents]
    split_ifs with hid
    · rw [List.filterMap_cons]
      cases Arrival.event? _ webhook_id <;> rfl
    · rfl

end Db.Applied

/-! ### Each operation -/

theorem commitIssue_recorded (hkeyed : db.Keyed) {r : Request} {tx : Tx}
    (hfresh : ∀ d ∈ db.documents, d.id ≠ r.document.id) : db.Recorded (db.commitIssue r tx) := by
  have hids : ((db.commitIssue r tx).documents.map Document.id).Nodup := by
    show ((db.documents ++ [r.documentRow tx]).map Document.id).Nodup
    rw [List.map_append, List.nodup_append]
    refine ⟨hkeyed.documents, by simp, ?_⟩
    intro a ha b hb
    obtain ⟨d, hd, rfl⟩ := List.mem_map.mp ha
    rw [List.mem_singleton.mp hb]
    exact hfresh d hd
  refine .of_quiet ⟨hids, hkeyed.webhooks, hkeyed.webhook_deliveries⟩ ?_
    (Db.commitIssue_moves hfresh) ?_ fun r hr => hr
  · exact fun d hd => ⟨d, List.mem_append_left _ hd, rfl⟩
  · intro d hd harriving
    rcases List.mem_append.mp hd with hd | hd
    · exact absurd rfl (arriving_eq_true.mp harriving d hd rfl)
    · rw [List.mem_singleton.mp hd]
      rfl

theorem applyTransition_transacted (hkeyed : db.Keyed) {t : Transition} {now : Time}
    {fresh : Nat → Uuid} {b : Bool} (h : db.applyTransition t now fresh = .ok (db', b)) :
    db.Transacted db' := by
  rcases Db.applyTransition_ok h with ⟨-, rfl, -⟩ | ⟨-, d, happlied⟩
  · exact .refl hkeyed
  · exact happlied.transacted hkeyed

theorem storeArtifacts_transacted (hkeyed : db.Keyed) {id : Uuid}
    {cufe original_xml signed_xml : String}
    (h : db.storeArtifacts id cufe original_xml signed_xml = .ok db') : db.Transacted db' := by
  rw [Db.storeArtifacts_ok h]
  refine .of_map hkeyed rfl rfl .signed ?_ hkeyed.webhooks (List.Sublist.refl _)
  intro d _
  split <;> exact ⟨rfl, .inl rfl⟩

theorem requeueContingency_transacted (hkeyed : db.Keyed) {limit n : Nat} {max_attempts : Int}
    {now : Time} {fresh : Nat → Uuid} {skipped : List Uuid}
    (h : db.requeueContingency limit max_attempts now fresh skipped = .ok (db', n)) :
    db.Transacted db' := by
  have hframe := Db.requeueContingency_frame h
  refine .of_map hkeyed ?_ (Db.requeueContingency_ok h).1
    (Db.requeueContingency_moves h hkeyed.documents) ?_ ?_ ?_
  · rw [hframe]
  · intro d _
    split
    · exact ⟨rfl, .inr rfl⟩
    · exact ⟨rfl, .inl rfl⟩
  · rw [hframe]
    exact hkeyed.webhooks
  · rw [hframe]

theorem retryDeadJob_transacted (hkeyed : db.Keyed) {job_id : Uuid} {audit : AuditEntry}
    {now : Time} {b : Bool} (h : db.retryDeadJob job_id audit now = .ok (db', b)) :
    db.Transacted db' := by
  have hframe := Db.retryDeadJob_frame h
  have hmoves := Db.retryDeadJob_moves h hkeyed.documents
  have hranges : db'.numbering_ranges = db.numbering_ranges := by rw [hframe]
  have hwebhooks : (db'.webhooks.map Webhook.id).Nodup := by
    rw [hframe]
    exact hkeyed.webhooks
  have hrows : db'.webhook_deliveries.Sublist db.webhook_deliveries := by rw [hframe]
  obtain rfl | ⟨j, d, -, -, -, -, -, -, -, -, -, hdocuments⟩ := Db.retryDeadJob_ok h
  · exact .refl hkeyed
  · split at hdocuments
    · refine .of_map hkeyed hranges hdocuments hmoves (fun e _ => ?_) hwebhooks hrows
      split
      · exact ⟨rfl, .inr rfl⟩
      · exact ⟨rfl, .inl rfl⟩
    · exact .of_eq hkeyed hranges hdocuments hwebhooks hrows

theorem createWebhook_transacted (hkeyed : db.Keyed) {webhook : Webhook}
    (h : db.createWebhook webhook = .ok db') : db.Transacted db' := by
  obtain ⟨rfl, hnew⟩ := Db.createWebhook_ok h
  refine .of_eq hkeyed rfl rfl ?_ (List.Sublist.refl _)
  show ((db.webhooks ++ [webhook]).map Webhook.id).Nodup
  rw [List.map_append, List.nodup_append]
  refine ⟨hkeyed.webhooks, by simp, ?_⟩
  intro a ha b hb
  obtain ⟨w, hw, rfl⟩ := List.mem_map.mp ha
  rw [List.mem_singleton.mp hb]
  exact hnew w hw

theorem deleteWebhook_transacted (hkeyed : db.Keyed) (tenant_id webhook_id : Uuid) :
    db.Transacted (db.deleteWebhook tenant_id webhook_id).1 := by
  unfold Db.deleteWebhook
  split
  · refine .of_eq hkeyed rfl rfl ?_ List.filter_sublist
    exact (List.filter_sublist.map _).nodup hkeyed.webhooks
  · exact .refl hkeyed

end History

/-! ## Steps -/

/-- The requests in course see of the tables only ranges and the ids of documents. -/
theorem InFlight.of_tables {s : IssueState} (hI : InFlight s) {db : Db}
    (hranges : db.numbering_ranges = s.db.numbering_ranges)
    (hids : ∀ d ∈ db.documents, ∃ e ∈ s.db.documents, e.id = d.id) :
    InFlight { s with db := db } := by
  refine ⟨fun x hx range hr => hranges ▸ hI.held x hx range hr, hI.ranges_apart, hI.number, ?_,
    hI.documents_apart⟩
  intro x hx tx htx d hd hid
  obtain ⟨e, he, heid⟩ := hids d hd
  exact hI.fresh x hx tx htx e he (heid.trans hid)

theorem issueStep_recorded {s s' : IssueState} {a : IssueAction} (hI : InFlight s)
    (hkeyed : s.db.Keyed) (h : issueStep s a = some s') : s.db.Recorded s'.db := by
  cases issueStep_inv h with
  | registered hreg =>
      obtain ⟨hdb, -, -⟩ := Db.addNumberingRange_ok (Db.registerNumberingRange_ok hreg).2
      rw [hdb]
      exact .of_quiet ⟨hkeyed.documents, hkeyed.webhooks, hkeyed.webhook_deliveries⟩
        (fun d hd => ⟨d, hd, rfl⟩) (.of_eq rfl)
        (fun d hd harriving => absurd rfl (arriving_eq_true.mp harriving d hd rfl)) fun _ hr => hr
  | refused hs' =>
      rw [hs']
      exact (Db.Transacted.refl hkeyed).toRecorded
  | submitted hs' =>
      rw [hs']
      exact (Db.Transacted.refl hkeyed).toRecorded
  | moved _ hi hadv =>
      rcases hadv.db_eq_or_commit with hdb | ⟨tx, htx, -, -, hdb, -⟩
      · rw [hdb]
        exact (Db.Transacted.refl hkeyed).toRecorded
      · rw [hdb]
        exact commitIssue_recorded hkeyed (hI.fresh _ (List.mem_of_getElem? hi) tx htx)

/-- A transaction that may be refused. -/
theorem ended_recorded {s : IssueState} (hI : InFlight s) (hkeyed : s.db.Keyed)
    {result : Except DomainError Db} (h : ∀ db', result = .ok db' → s.db.Transacted db') :
    s.db.Recorded (s.db.ended result) ∧ InFlight { s with db := s.db.ended result } := by
  cases result with
  | error e => exact ⟨(Db.Transacted.refl hkeyed).toRecorded, hI⟩
  | ok db' =>
      obtain ⟨hrecorded, hranges, hids⟩ := h db' rfl
      refine ⟨hrecorded, hI.of_tables hranges fun d hd => ?_⟩
      exact List.mem_map.mp (hids ▸ List.mem_map_of_mem hd)

/-- The tables of a transaction that answers something besides. -/
theorem ended_map_recorded {s : IssueState} (hI : InFlight s) (hkeyed : s.db.Keyed) {β : Type}
    {result : Except DomainError (Db × β)}
    (h : ∀ db' b, result = .ok (db', b) → s.db.Transacted db') :
    s.db.Recorded (s.db.ended (result.map Prod.fst)) ∧
      InFlight { s with db := s.db.ended (result.map Prod.fst) } := by
  refine ended_recorded hI hkeyed fun db' hdb' => ?_
  cases result with
  | error e => cases hdb'
  | ok p =>
      cases hdb'
      exact h p.1 p.2 rfl

theorem storeStep_recorded {s s' : IssueState} {op : StoreOp} (hI : InFlight s)
    (hkeyed : s.db.Keyed) (h : storeStep s op = some s') : s.db.Recorded s'.db ∧ InFlight s' := by
  cases op with
  | issue a => exact ⟨issueStep_recorded hI hkeyed h, inFlight_step hI h⟩
  | applyTransition t now fresh =>
      cases h
      exact ended_map_recorded hI hkeyed fun _ _ => applyTransition_transacted hkeyed
  | storeArtifacts id cufe original_xml signed_xml =>
      cases h
      exact ended_recorded hI hkeyed fun _ => storeArtifacts_transacted hkeyed
  | requeueContingency limit max_attempts now fresh skipped =>
      cases h
      exact ended_map_recorded hI hkeyed fun _ _ => requeueContingency_transacted hkeyed
  | retryDeadJob job_id audit now =>
      cases h
      exact ended_map_recorded hI hkeyed fun _ _ => retryDeadJob_transacted hkeyed
  | createWebhook webhook =>
      cases h
      exact ended_recorded hI hkeyed fun _ => createWebhook_transacted hkeyed
  | deleteWebhook tenant_id webhook_id =>
      cases h
      refine @ended_recorded s hI hkeyed (.ok _) fun db' hdb' => ?_
      cases hdb'
      exact deleteWebhook_transacted hkeyed tenant_id webhook_id

/-! ## Runs -/

/-- The history up to here, and what it says of the tables. -/
structure Followed (s : IssueState) (h : StoreHistory) : Prop where
  inFlight : InFlight s
  keyed : s.db.Keyed
  known : ∀ a ∈ h.arrivals, ∃ d ∈ s.db.documents, d.id = a.document_id
  current : ∀ d ∈ s.db.documents, (statusesOf d.id h.arrivals).getLast? = some d.status
  path : ∀ id, (statusesOf id h.arrivals).IsChain fun s t => s.canTransitionTo t = true
  notices : ∀ id webhook_id,
    enqueuedEvents id webhook_id h.enqueued = dueEvents id webhook_id h.arrivals

section Followed

variable {s s' : IssueState} {h : StoreHistory}

/-- A document nobody knows has no past. -/
theorem Followed.statusesOf_new (hF : Followed s h) {id : Uuid}
    (hnew : ∀ d ∈ s.db.documents, d.id ≠ id) : statusesOf id h.arrivals = [] := by
  rw [statusesOf, List.map_eq_nil_iff, arrivalsOf, List.filter_eq_nil_iff]
  intro a ha haid
  obtain ⟨d, hd, hdid⟩ := hF.known a ha
  exact hnew d hd (hdid.trans (of_decide_eq_true haid))

/-- The statuses of a step go on from the ones before it. -/
theorem Followed.path_step (hF : Followed s h) {db' : Db} (hr : s.db.Recorded db') (id : Uuid) :
    (statusesOf id (h.arrivals ++ s.db.arrivals db')).IsChain
      fun s t => s.canTransitionTo t = true := by
  rw [statusesOf_append]
  have hstep := @arrivalsOf_step s.db db' hr.keyed.documents id
  cases hfind : db'.document? id with
  | none =>
      rw [hfind] at hstep
      simpa [statusesOf, hstep] using hF.path id
  | some d' =>
      obtain ⟨hmem, hid⟩ := Db.document?_mem hfind
      cases harriving : s.db.arriving d' with
      | false =>
          have hnone : statusesOf id (s.db.arrivals db') = [] := by
            simp [statusesOf, hstep, hfind, harriving]
          rw [hnone, List.append_nil]
          exact hF.path id
      | true =>
          have hone : statusesOf id (s.db.arrivals db') = [d'.status] := by
            simp [statusesOf, hstep, hfind, harriving, Db.arrival]
          rw [hone]
          refine List.isChain_append.mpr ⟨hF.path id, List.isChain_singleton _, ?_⟩
          rcases hr.moves d' hmem with ⟨d, hd, hdid, hstatus⟩ | ⟨-, hnew⟩
          · have hne := arriving_eq_true.mp harriving d hd hdid
            have hlast := hF.current d hd
            rw [hdid.trans hid] at hlast
            intro x hx y hy
            rw [hlast] at hx
            cases hx
            cases hy
            exact hstatus.resolve_left (Ne.symm hne)
          · rw [hF.statusesOf_new (hid ▸ hnew)]
            simp

theorem Followed.current_step (hF : Followed s h) {db' : Db} (hr : s.db.Recorded db') :
    ∀ d ∈ db'.documents,
      (statusesOf d.id (h.arrivals ++ s.db.arrivals db')).getLast? = some d.status := by
  intro d' hd'
  have hstep := @arrivalsOf_step s.db db' hr.keyed.documents d'.id
  rw [show db'.document? d'.id = some d' from find?_key_eq hr.keyed.documents hd'] at hstep
  rw [statusesOf_append]
  cases harriving : s.db.arriving d' with
  | false =>
      obtain ⟨d, hd, hid, hstatus⟩ := arriving_eq_false.mp harriving
      have hnone : statusesOf d'.id (s.db.arrivals db') = [] := by
        simp [statusesOf, hstep, harriving]
      rw [hnone, List.append_nil, ← hid, ← hstatus]
      exact hF.current d hd
  | true =>
      have hone : statusesOf d'.id (s.db.arrivals db') = [d'.status] := by
        simp [statusesOf, hstep, harriving, Db.arrival]
      rw [hone, List.getLast?_concat]

theorem Followed.step (hF : Followed s h) {op : StoreOp} (hstep : storeStep s op = some s') :
    Followed s' (noteStore s op h) := by
  obtain ⟨hr, hI⟩ := storeStep_recorded hF.inFlight hF.keyed hstep
  have hnote : noteStore s op h =
      ⟨h.arrivals ++ s.db.arrivals s'.db, h.enqueued ++ s.db.enqueued s'.db⟩ := by
    simp [noteStore, hstep]
  rw [hnote]
  refine ⟨hI, hr.keyed, ?_, hF.current_step hr, hF.path_step hr, ?_⟩
  · intro a ha
    rcases List.mem_append.mp ha with ha | ha
    · obtain ⟨d, hd, hid⟩ := hF.known a ha
      obtain ⟨e, he, heid⟩ := hr.kept d hd
      exact ⟨e, he, heid.trans hid⟩
    · obtain ⟨d, hd, rfl⟩ := List.mem_map.mp ha
      exact ⟨d, List.mem_of_mem_filter hd, rfl⟩
  · intro id webhook_id
    rw [enqueuedEvents_append, dueEvents_append, hF.notices, hr.notices]

theorem followed (hs : storeObserved.Reachable (s, h)) : Followed s h := by
  refine Machine.ReachableBy.observed_invariant (C := fun _ _ => True) ?_ ?_ hs
  · rintro s ⟨tenants, rfl⟩
    exact ⟨⟨by simp, by simp, by simp, by simp, by simp⟩, ⟨by simp [Db.fresh], by simp [Db.fresh],
      by simp [Db.fresh]⟩, by simp, by simp [Db.fresh], fun _ => .nil, fun _ _ => rfl⟩
  · intro s g op s' _ hF _ hstep
    exact hF.step hstep

/-- A document stays where the state machine cannot leave. -/
theorem Followed.stands_step (hF : Followed s h) {op : StoreOp}
    (hstep : storeStep s op = some s') {P : DocumentStatus → Prop}
    (hP : ∀ x y : DocumentStatus, x.canTransitionTo y = true → P x → P y) {id : Uuid}
    (hd : ∃ d, s.db.document? id = some d ∧ P d.status) :
    ∃ d, s'.db.document? id = some d ∧ P d.status := by
  obtain ⟨d, hfind, hstatus⟩ := hd
  obtain ⟨hr, -⟩ := storeStep_recorded hF.inFlight hF.keyed hstep
  obtain ⟨hmem, rfl⟩ := Db.document?_mem hfind
  obtain ⟨e, he, hid⟩ := hr.kept d hmem
  have hfind' : s'.db.document? d.id = some e := hid ▸ find?_key_eq hr.keyed.documents he
  refine ⟨e, hfind', ?_⟩
  rcases hr.moves e he with ⟨d₀, hd₀, hid₀, hmove⟩ | ⟨-, hnew⟩
  · rw [eq_of_key_eq hF.keyed.documents hd₀ hmem (hid₀.trans hid)] at hmove
    rcases hmove with hsame | hcan
    · rw [hsame]
      exact hstatus
    · exact hP _ _ hcan hstatus
  · exact absurd hid.symm (hnew d hmem)

theorem stands_run {P : DocumentStatus → Prop}
    (hP : ∀ x y : DocumentStatus, x.canTransitionTo y = true → P x → P y) {id : Uuid}
    {ops : List StoreOp} (hF : Followed s h) (hrun : store.run s ops = some s')
    (hd : ∃ d, s.db.document? id = some d ∧ P d.status) :
    ∃ d, s'.db.document? id = some d ∧ P d.status := by
  induction ops generalizing s h with
  | nil =>
      cases hrun
      exact hd
  | cons op ops ih =>
      unfold Machine.run at hrun
      obtain ⟨t, hstep, hrun⟩ := Option.bind_eq_some_iff.mp hrun
      exact ih (hF.step hstep) hrun (hF.stands_step hstep hP hd)

end Followed

/-- No document of `db` leaves a terminal status until `db'`, nor goes back from `SentDian`. -/
def StatusesStand (db db' : Db) : Prop :=
  ∀ id d, db.document? id = some d → ∃ d', db'.document? id = some d' ∧
    (d.status.isTerminal = true → d'.status = d.status) ∧
    (d.status = .sentDian → d'.status ≠ .pending ∧ d'.status ≠ .contingencyPending)

theorem Followed.statusesStand {s s' : IssueState} {h : StoreHistory} (hF : Followed s h)
    {ops : List StoreOp} (hrun : store.run s ops = some s') : StatusesStand s.db s'.db := by
  intro id d hfind
  -- a terminal status has no successor, and those of `SentDian` are terminal
  have hterminal := stands_run (P := fun x => d.status.isTerminal = true → x = d.status)
    (fun x y hcan hx ht => by
      rw [hx ht, DocumentStatus.not_canTransitionTo_of_isTerminal ht] at hcan
      cases hcan) hF hrun ⟨d, hfind, fun _ => rfl⟩
  have hsent := stands_run (P := fun x => d.status = .sentDian →
      x = .sentDian ∨ x = .dianAccepted ∨ x = .dianRejected)
    (fun x y hcan hx hs => by
      rcases hx hs with rfl | rfl | rfl
      · exact .inr (DocumentStatus.canTransitionTo_of_sentDian hcan)
      · rw [DocumentStatus.not_canTransitionTo_of_isTerminal rfl] at hcan
        cases hcan
      · rw [DocumentStatus.not_canTransitionTo_of_isTerminal rfl] at hcan
        cases hcan) hF hrun ⟨d, hfind, fun hs => .inl hs⟩
  obtain ⟨d', hfind', hstays⟩ := hterminal
  obtain ⟨e, he, hback⟩ := hsent
  rw [hfind'] at he
  cases he
  refine ⟨d', hfind', hstays, fun hs => ?_⟩
  rcases hback hs with h | h | h <;> simp [h]

/-- The history of a run, and what the state it ended in has ahead. -/
structure HistoryHolds (s : IssueState) (h : StoreHistory) : Prop where
  path : ∀ id, (statusesOf id h.arrivals).IsChain fun x y => x.canTransitionTo y = true
  current : ∀ id d, s.db.document? id = some d →
    (statusesOf id h.arrivals).getLast? = some d.status
  stands : ∀ ops s', store.run s ops = some s' → StatusesStand s.db s'.db
  notices : ∀ id webhook_id,
    enqueuedEvents id webhook_id h.enqueued = dueEvents id webhook_id h.arrivals
  refused : ∀ t now fresh db', s.db.applyTransition t now fresh = .ok (db', false) → db' = s.db

theorem history_holds {s : IssueState} {h : StoreHistory} (hs : storeObserved.Reachable (s, h)) :
    HistoryHolds s h := by
  have hF := followed hs
  refine ⟨hF.path, ?_, fun ops s' hrun => hF.statusesStand hrun, hF.notices, ?_⟩
  · intro id d hfind
    obtain ⟨hmem, rfl⟩ := Db.document?_mem hfind
    exact hF.current d hmem
  · intro t now fresh db' happlied
    rcases Db.applyTransition_ok happlied with ⟨-, hdb, -⟩ | ⟨hfalse, -⟩
    · exact hdb
    · cases hfalse

/-- An invoice goes to contingency and back, and is accepted in the end. -/
def contingencyAndBack : List StoreOp :=
  [.issue (.register 7 1 sampleRange), .createWebhook ⟨20, 1, "https://erp", "secret", "*", .active⟩,
    .issue (.submit (sampleRequest 10 none none))] ++
  List.replicate 7 (.issue (.advance 0 5)) ++
  [.applyTransition ⟨10, .contingencyPending, none, some (.complete 10), none⟩ 6 (fun i => 30 + i),
    .requeueContingency 10 5 7 (fun i => 40 + i) [],
    .applyTransition ⟨10, .dianAccepted, none, none, none⟩ 8 (fun i => 50 + i)]

set_option maxRecDepth 10000 in
theorem contingencyAndBack_runs :
    (storeObserved.run (sampleStart, ⟨[], []⟩) contingencyAndBack).isSome = true := by decide

def contingencyAndBackEnd : IssueState × StoreHistory :=
  (storeObserved.run (sampleStart, ⟨[], []⟩) contingencyAndBack).get contingencyAndBack_runs

set_option maxRecDepth 10000 in
theorem history_holds_contingencyAndBack :
    statusesOf 10 contingencyAndBackEnd.2.arrivals =
        [.pending, .contingencyPending, .pending, .dianAccepted] ∧
      enqueuedEvents 10 20 contingencyAndBackEnd.2.enqueued =
        ["document.contingency", "document.accepted"] ∧
      HistoryHolds contingencyAndBackEnd.1 contingencyAndBackEnd.2 :=
  ⟨by decide, by decide, history_holds
    (Machine.Reachable.get (M := storeObserved) ⟨⟨_, rfl⟩, rfl⟩ contingencyAndBack_runs)⟩

end DianService
