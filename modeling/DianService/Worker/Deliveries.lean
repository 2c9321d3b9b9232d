import DianService.Worker.Leases

/-
  Worker: the leases of the webhook deliveries, and what the leases of jobs and deliveries come
  to. `complete_delivery`, `retry_delivery` and `bury_delivery` are as blind as the calls on jobs,
  and nothing bounds the time a delivery takes but the time limits of its HTTP request.
-/

namespace DianService

open Lib Lib.Prog

/-! ## Deliveries as leases -/

def DeliveryRow.lease? (d : DeliveryRow) : Option (Lease Int) :=
  if d.status = .running then d.locked_until.map fun lease_until => ⟨lease_until, d.attempts⟩
  else none

def deliveryLeaseOf (rows : List DeliveryRow) : Uuid → Option (Lease Int) :=
  Lease.ofRows DeliveryRow.id DeliveryRow.lease? rows

def DeliveryTask.claim (t : DeliveryTask) : Claim Uuid Int :=
  ⟨t.delivery.id, ⟨t.lease_until, t.delivery.attempts⟩⟩

/-- No outcome of a delivery is recorded under a superseded claim. -/
def FencedDeliveries (s : System) : SystemAction → Prop
  | .deliver i _ => ∀ t ∈ s.deliveries[i]?,
      ¬ t.claim.Superseded s.now (deliveryLeaseOf s.db.webhook_deliveries)
  | _ => True

instance (s : System) : ∀ a, Decidable (FencedDeliveries s a)
  | .deliver i _ => inferInstanceAs (Decidable (∀ t ∈ s.deliveries[i]?, _))
  | .tick _ | .createWebhook _ | .registerRange .. | .issueOutbound .. | .buryExpired |
    .claim .. | .work .. | .crash _ | .requeueContingency .. | .retryDeadJob .. |
    .claimDeliveries .. | .crashDelivery _ | .retryDeadDelivery .. => isTrue trivial

structure DeliveryInv (s : System) : Prop where
  leases : Lease.Inv s.now (deliveryLeaseOf s.db.webhook_deliveries)
    (s.deliveries.map DeliveryTask.claim)
  ids : (s.db.webhook_deliveries.map DeliveryRow.id).Nodup

namespace DeliveryRow

theorem lease?_eq_some {d : DeliveryRow} {l : Lease Int} :
    d.lease? = some l ↔ d.status = .running ∧ d.locked_until = some l.lease_until ∧
      d.attempts = l.stamp := by
  unfold lease?
  obtain ⟨lease_until, stamp⟩ := l
  by_cases h : d.status = .running <;> simp [h]

theorem lease?_eq_none_of_status {d : DeliveryRow} (h : d.status ≠ .running) : d.lease? = none := by
  simp [lease?, h]

theorem lease?_claimed (lease : Nat) (now : Time) (d : DeliveryRow) :
    (d.claimed lease now).lease? = some ⟨now + lease, d.attempts + 1⟩ := by
  simp [lease?, claimed]

theorem lease_until_lt_of_ready {d : DeliveryRow} {now : Time} {l : Lease Int}
    (h : d.ready now = true) (hl : d.lease? = some l) : l.lease_until < now := by
  obtain ⟨hrunning, hlocked, -⟩ := lease?_eq_some.mp hl
  simpa [ready, hrunning, hlocked] using h

end DeliveryRow

/-! ### What each statement does to the deliveries -/

section Rows

variable {db : Db} {limit lease : Nat} {now : Time} {skipped : List Uuid}

theorem mem_readyDeliveries {p : DeliveryRow × Webhook}
    (h : p ∈ db.readyDeliveries limit now skipped) :
    p.1 ∈ db.webhook_deliveries ∧ p.1.ready now = true := by
  obtain ⟨d, hd, hp⟩ := List.mem_filterMap.mp h
  obtain ⟨w, -, rfl⟩ := Option.map_eq_some_iff.mp hp
  have hd := mem_orderBy.mp (List.mem_of_mem_take hd)
  rw [List.mem_filter, decide_eq_true_eq] at hd
  exact ⟨hd.1, hd.2.1⟩

theorem filterMap_fst_sublist {α β : Type} (g : α → Option β) (l : List α) :
    ((l.filterMap fun a => (g a).map fun b => (a, b)).map Prod.fst).Sublist l := by
  induction l with
  | nil => exact List.Sublist.refl _
  | cons a l ih =>
      rw [List.filterMap_cons]
      cases g a with
      | none => exact ih.cons a
      | some b => exact ih.cons_cons a

theorem readyDeliveries_nodup (h : (db.webhook_deliveries.map DeliveryRow.id).Nodup) :
    ((db.readyDeliveries limit now skipped).map fun p => p.1.id).Nodup := by
  have hfilter := List.Nodup.sublist ((List.filter_sublist
    (p := fun d : DeliveryRow => d.ready now ∧ d.id ∉ skipped)).map DeliveryRow.id) h
  have horder := ((orderBy_perm DeliveryRow.run_at _).map DeliveryRow.id).nodup_iff.mpr hfilter
  have htake := horder.sublist ((List.take_sublist limit _).map DeliveryRow.id)
  have hpicked := htake.sublist ((filterMap_fst_sublist
    (fun d : DeliveryRow => db.webhook? d.webhook_id) _).map DeliveryRow.id)
  rw [List.map_map] at hpicked
  exact hpicked

/-- Recording an outcome updates the row of the delivery only. -/
theorem DeliveryWorld.record_deliveries (w : DeliveryWorld) (db : Db) (delivery : WebhookDelivery) :
    ∃ f : DeliveryRow → DeliveryRow, (∀ d, (f d).id = d.id) ∧
      (w.record db delivery).webhook_deliveries =
        db.webhook_deliveries.map fun d => if d.id = delivery.id then f d else d := by
  have hrecord : ∀ o : DeliveryOutcome, ∃ f : DeliveryRow → DeliveryRow, (∀ d, (f d).id = d.id) ∧
      (db.recordDelivery delivery.id o).webhook_deliveries =
        db.webhook_deliveries.map fun d => if d.id = delivery.id then f d else d := by
    intro o
    cases o with
    | delivered status_code => exact ⟨DeliveryRow.completed status_code, fun _ => rfl, rfl⟩
    | retried run_at error status_code =>
        exact ⟨DeliveryRow.retried run_at error status_code, fun _ => rfl, rfl⟩
    | dead error status_code =>
        exact ⟨DeliveryRow.buried error status_code, fun _ => rfl, rfl⟩
  unfold DeliveryWorld.record
  cases w.fault with
  | failed message => exact ⟨fun d => d, fun _ => rfl, by simp⟩
  | none => exact hrecord _
  | lost message => exact hrecord _

end Rows

theorem Effect.outbox {db db' : Db} {c : Call} (h : Effect db c db') : db.Outbox db' := by
  cases h with
  | applied h => exact h.outbox
  | _ => exact .of_eq rfl

/-! ## The invariant -/

/-- The steps of the dispatcher, and of the administrator on its queue. -/
def SystemAction.dispatches : SystemAction → Bool
  | .claimDeliveries .. | .deliver .. | .crashDelivery _ | .retryDeadDelivery .. => true
  | _ => false

/-- What a step does to the deliveries and to those who send them. -/
inductive DeliveryStep (s : System) : SystemAction → System → Prop where
  | added {a : SystemAction} {s' : System} (hout : s.db.Outbox s'.db)
      (hdeliveries : s'.deliveries = s.deliveries) (hnow : s.now ≤ s'.now)
      (hquiet : a.dispatches = false) : DeliveryStep s a s'
  | claimed {limit lease : Nat} {skipped : List Uuid} :
      DeliveryStep s (.claimDeliveries limit lease skipped)
        { s with
          db := (s.db.claimDeliveries limit lease s.now skipped).1
          deliveries := s.deliveries ++ (s.db.claimDeliveries limit lease s.now skipped).2.map
            fun delivery => ⟨delivery, s.now + lease⟩ }
  | delivered {i : Nat} {w : DeliveryWorld} {t : DeliveryTask} (ht : s.deliveries[i]? = some t) :
      DeliveryStep s (.deliver i w)
        { s with db := w.record s.db t.delivery, deliveries := s.deliveries.eraseIdx i }
  | crashed {i : Nat} :
      DeliveryStep s (.crashDelivery i) { s with deliveries := s.deliveries.eraseIdx i }
  | revived {delivery_id : Uuid} {audit : AuditEntry} :
      DeliveryStep s (.retryDeadDelivery delivery_id audit)
        { s with db := (s.db.retryDeadDelivery delivery_id audit s.now).1 }

section Deliveries

variable {ubl : UblEngine} {config : ProcessorConfig} {s s' : System} {a : SystemAction}

theorem deliveryStep_inv (h : systemStep ubl config s a = some s') : DeliveryStep s a s' := by
  have hsame : ∀ {s' : System}, s'.db.webhook_deliveries = s.db.webhook_deliveries →
      s'.deliveries = s.deliveries → s.now ≤ s'.now → a.dispatches = false → DeliveryStep s a s' :=
    fun hrows hd hnow hquiet => .added (.of_eq hrows) hd hnow hquiet
  cases a with
  | tick d =>
      cases h
      exact hsame rfl rfl (Int.le_add_of_nonneg_right (Int.natCast_nonneg d)) rfl
  | createWebhook webhook =>
      simp only [systemStep] at h
      split at h
      · cases h
        exact hsame rfl rfl (le_refl _) rfl
      · rename_i db hok
        cases h
        rw [(Db.createWebhook_ok hok).1]
        exact hsame rfl rfl (le_refl _) rfl
  | registerRange id tenant_id request =>
      simp only [systemStep] at h
      split at h
      · cases h
        exact hsame rfl rfl (le_refl _) rfl
      · rename_i db range hok
        cases h
        obtain ⟨rfl, -, -⟩ := Db.addNumberingRange_ok (Db.registerNumberingRange_ok hok).2
        exact hsame rfl rfl (le_refl _) rfl
  | issueOutbound r times =>
      cases h
      refine hsame ?_ rfl (le_refl _) rfl
      rcases issueAlone_cases times (show FoundFree s.db r .lookup from .of_none rfl) with
        hdb | ⟨tx, hdb, -⟩
      · exact congrArg Db.webhook_deliveries hdb
      · exact (congrArg Db.webhook_deliveries hdb :)
  | buryExpired =>
      cases h
      exact hsame rfl rfl (le_refl _) rfl
  | claim worker_id limit lease skipped =>
      cases h
      exact hsame rfl rfl (le_refl _) rfl
  | work i w =>
      simp only [systemStep] at h
      split at h
      · cases h
      · split at h <;> cases h
        exact .added (w.apply_answered _ _ _).effect.outbox rfl (le_refl _) rfl
  | crash i =>
      simp only [systemStep] at h
      split at h <;> cases h
      exact hsame rfl rfl (le_refl _) rfl
  | requeueContingency limit fresh skipped =>
      simp only [systemStep] at h
      split at h <;> cases h
      · exact hsame rfl rfl (le_refl _) rfl
      · have hdeliveries := congrArg Db.webhook_deliveries (Db.requeueContingency_frame ‹_›)
        exact hsame hdeliveries rfl (le_refl _) rfl
  | retryDeadJob job_id audit =>
      simp only [systemStep] at h
      split at h <;> cases h
      · exact hsame rfl rfl (le_refl _) rfl
      · have hdeliveries := congrArg Db.webhook_deliveries (Db.retryDeadJob_frame ‹_›)
        exact hsame hdeliveries rfl (le_refl _) rfl
  | claimDeliveries limit lease skipped =>
      cases h
      exact .claimed
  | deliver i w =>
      simp only [systemStep] at h
      split at h <;> cases h
      exact .delivered ‹_›
  | crashDelivery i =>
      simp only [systemStep] at h
      split at h <;> cases h
      exact .crashed
  | retryDeadDelivery delivery_id audit =>
      cases h
      exact .revived

/-- Where an update of rows changes a lease, it changes the lease of a row. -/
theorem deliveryLeaseOf_map_ne {rows : List DeliveryRow} {p : DeliveryRow → Prop}
    [DecidablePred p] {f : DeliveryRow → DeliveryRow} {id : Uuid} (hf : ∀ d, (f d).id = d.id)
    (hne : deliveryLeaseOf (rows.map fun d => if p d then f d else d) id ≠ deliveryLeaseOf rows id) :
    ∃ d ∈ rows, d.id = id ∧ deliveryLeaseOf rows id = d.lease? ∧ p d ∧
      (f d).lease? ≠ d.lease? := by
  obtain ⟨d, hd, hid, hlease, hchanged⟩ := Lease.ofRows_map_ne (by intro d; split <;> simp [hf]) hne
  by_cases hp : p d
  · rw [if_pos hp] at hchanged
    exact ⟨d, hd, hid, hlease, hp, hchanged⟩
  · simp [hp] at hchanged

theorem nodup_map_ite {rows : List DeliveryRow} {p : DeliveryRow → Prop} [DecidablePred p]
    {f : DeliveryRow → DeliveryRow} (hf : ∀ d, (f d).id = d.id)
    (h : (rows.map DeliveryRow.id).Nodup) :
    ((rows.map fun d => if p d then f d else d).map DeliveryRow.id).Nodup := by
  rw [List.map_map]
  have hid : (DeliveryRow.id ∘ fun d => if p d then f d else d) = DeliveryRow.id := by
    funext d
    simp only [Function.comp_apply]
    split
    · exact hf d
    · rfl
  rw [hid]
  exact h

theorem deliveryInv_claimed {limit lease : Nat} {skipped : List Uuid} (hI : DeliveryInv s) :
    DeliveryInv { s with
      db := (s.db.claimDeliveries limit lease s.now skipped).1
      deliveries := s.deliveries ++ (s.db.claimDeliveries limit lease s.now skipped).2.map
        fun delivery => ⟨delivery, s.now + lease⟩ } := by
  have hids := hI.ids
  have hids' : ((s.db.claimDeliveries limit lease s.now skipped).1.webhook_deliveries.map
      DeliveryRow.id).Nodup := nodup_map_ite (fun _ => rfl) hids
  have hnew : ∀ c ∈ ((s.db.claimDeliveries limit lease s.now skipped).2.map
      fun delivery => (⟨delivery, s.now + lease⟩ : DeliveryTask)).map DeliveryTask.claim,
      ∃ d ∈ s.db.webhook_deliveries, d.ready s.now = true ∧
        c = ⟨d.id, ⟨s.now + lease, d.attempts + 1⟩⟩ ∧ d.claimed lease s.now ∈
          (s.db.claimDeliveries limit lease s.now skipped).1.webhook_deliveries := by
    intro c hc
    obtain ⟨t, ht, rfl⟩ := List.mem_map.mp hc
    obtain ⟨delivery, hdelivery, rfl⟩ := List.mem_map.mp ht
    obtain ⟨p, hp, rfl⟩ := List.mem_map.mp hdelivery
    obtain ⟨hmem, hready⟩ := mem_readyDeliveries hp
    refine ⟨p.1, hmem, hready, rfl, List.mem_map.mpr ⟨p.1, hmem, ?_⟩⟩
    rw [if_pos (List.mem_map_of_mem hp)]
  refine ⟨?_, hids'⟩
  dsimp only
  rw [List.map_append]
  refine hI.leases.claim ?_ ?_ ?_ ?_ ?_
  · intro c hc l hl
    obtain ⟨d, hd, hready, rfl, -⟩ := hnew c hc
    exact DeliveryRow.lease_until_lt_of_ready hready ((Lease.ofRows_eq hids hd).symm.trans hl)
  · intro c hc
    obtain ⟨d, hd, -, rfl, hmem⟩ := hnew c hc
    exact (Lease.ofRows_eq hids' hmem).trans (d.lease?_claimed lease s.now)
  · intro c hc
    obtain ⟨d, -, -, rfl, -⟩ := hnew c hc
    exact Int.le_add_of_nonneg_right (Int.natCast_nonneg lease)
  · -- the rows picked are distinct
    have hnodup : ((s.db.readyDeliveries limit s.now skipped).map fun p => p.1.id).Nodup :=
      readyDeliveries_nodup hids
    rw [List.nodup_iff_pairwise_ne, List.pairwise_map] at hnodup
    show List.Pairwise _ ((((s.db.readyDeliveries limit s.now skipped).map _).map _).map _)
    simp only [List.pairwise_map]
    exact hnodup
  · intro k hne l hl
    obtain ⟨d, hd, rfl, hlease, hpicked, -⟩ := @deliveryLeaseOf_map_ne s.db.webhook_deliveries
      (fun d => d.id ∈ (s.db.readyDeliveries limit s.now skipped).map
        fun p : DeliveryRow × Webhook => p.1.id) _
      (DeliveryRow.claimed lease s.now) k (fun _ => rfl) hne
    obtain ⟨p, hp, hid⟩ := List.mem_map.mp hpicked
    obtain ⟨hmem, hready⟩ := mem_readyDeliveries hp
    rw [eq_of_key_eq hids hmem hd hid] at hready
    exact DeliveryRow.lease_until_lt_of_ready hready (hlease.symm.trans hl)

theorem DeliveryStep.inv (h : DeliveryStep s a s') (hC : FencedDeliveries s a)
    (hI : DeliveryInv s) : DeliveryInv s' := by
  cases h with
  | added hout hdeliveries hnow =>
      obtain ⟨rows, hrows, hqueued, hnodup⟩ := hout
      refine ⟨?_, hnodup hI.ids⟩
      rw [hdeliveries, hrows]
      have hsame : deliveryLeaseOf (s.db.webhook_deliveries ++ rows) =
          deliveryLeaseOf s.db.webhook_deliveries :=
        Lease.ofRows_append fun r hr => DeliveryRow.lease?_eq_none_of_status (by simp [(hqueued r hr).1])
      rw [hsame]
      exact hI.leases.tick hnow
  | claimed => exact deliveryInv_claimed hI
  | @delivered i w t ht =>
      obtain ⟨f, hf, hrows⟩ := w.record_deliveries s.db t.delivery
      obtain ⟨l₁, l₂, hsplit, -, herase⟩ := exists_split ht
      have hleases := hI.leases
      have hholds := hleases.holds_of_not_superseded
        (List.mem_map_of_mem (List.mem_of_getElem? ht)) (hC t ht)
      rw [hsplit, List.map_append, List.map_cons] at hleases
      refine ⟨?_, ?_⟩
      · dsimp only
        rw [herase, List.map_append, hrows]
        refine hleases.settle hholds fun k hne => ?_
        obtain ⟨d, -, rfl, -, hid, -⟩ := deliveryLeaseOf_map_ne hf hne
        exact hid
      · dsimp only
        rw [hrows]
        exact nodup_map_ite hf hI.ids
  | crashed =>
      exact ⟨hI.leases.sublist ((List.eraseIdx_sublist _ _).map _), hI.ids⟩
  | @revived delivery_id audit =>
      unfold Db.retryDeadDelivery
      split
      · refine ⟨hI.leases.change fun k hne l hl => ?_, nodup_map_ite (fun _ => rfl) hI.ids⟩
        obtain ⟨d, -, rfl, hlease, hdead, -⟩ := @deliveryLeaseOf_map_ne s.db.webhook_deliveries
          (fun d => d.id = delivery_id ∧ d.status = .dead) _ (DeliveryRow.revived s.now) k
          (fun _ => rfl) hne
        have hrunning := (DeliveryRow.lease?_eq_some.mp (hlease.symm.trans hl)).1
        rw [hdead.2] at hrunning
        cases hrunning
      · exact hI

theorem deliveryInv_of_reachableBy {C : System → SystemAction → Prop}
    (hC : ∀ s a, C s a → FencedDeliveries s a) (hs : (system ubl config).ReachableBy C s) :
    DeliveryInv s := by
  refine hs.invariant ?_ ?_
  · rintro s ⟨tenants, now, rfl⟩
    exact ⟨Lease.Inv.nil, .nil⟩
  · intro s a s' hr hI hc h
    exact (deliveryStep_inv h).inv (hC s a hc) hI

end Deliveries

/-! ## What the leases are for -/

/-- No operation is issued under a superseded claim. -/
def FencedOperations (s : System) (a : SystemAction) : Prop := Fenced s a ∧ FencedDeliveries s a

instance (s : System) (a : SystemAction) : Decidable (FencedOperations s a) :=
  inferInstanceAs (Decidable (_ ∧ _))

/-- No row has two workers with an unexpired claim on it. -/
structure Exclusive (s : System) : Prop where
  jobs : s.tasks.Pairwise fun t u => t.job.id = u.job.id → t.holding = true → u.holding = true →
    ¬ (t.claim.Unexpired s.now ∧ u.claim.Unexpired s.now)
  deliveries : s.deliveries.Pairwise fun t u => t.delivery.id = u.delivery.id →
    ¬ (t.claim.Unexpired s.now ∧ u.claim.Unexpired s.now)

/-- What an operation may change, and that what is finished stays so. -/
structure Orderly (s : System) (a : SystemAction) (s' : System) : Prop where
  /-- The call of a task changes no row but the one it holds. -/
  work : ∀ i w t, a = .work i w → s.tasks[i]? = some t → ∀ j ∈ s.db.jobs,
    j ∈ s'.db.jobs ∨ j.id = t.job.id ∧ t.claim.Holds (leaseOf s.db.jobs)
  deliver : ∀ i w t, a = .deliver i w → s.deliveries[i]? = some t → ∀ d ∈ s.db.webhook_deliveries,
    d ∈ s'.db.webhook_deliveries ∨
      d.id = t.delivery.id ∧ t.claim.Holds (deliveryLeaseOf s.db.webhook_deliveries)
  done : ∀ j ∈ s.db.jobs, j.status = .done → j ∈ s'.db.jobs
  delivered : ∀ d ∈ s.db.webhook_deliveries, d.status = .delivered → d ∈ s'.db.webhook_deliveries

section Operations

variable {ubl : UblEngine} {config : ProcessorConfig} {s s' : System} {a : SystemAction}

theorem exclusive_of_inv (hI : LeaseInv s) (hD : DeliveryInv s) : Exclusive s where
  jobs := by
    have h := Lease.Inv.unexpired_exclusive hI
    rw [claimsOf, List.pairwise_map, List.pairwise_filter] at h
    exact h.imp fun h hrow ht hu => h ht hu hrow
  deliveries := by
    have h := hD.leases.unexpired_exclusive
    rw [List.pairwise_map] at h
    exact h

/-- Recording an outcome changes no row but the one the dispatcher holds. -/
theorem delivered_own {i : Nat} {w : DeliveryWorld} {t : DeliveryTask}
    (ht : s.deliveries[i]? = some t) (hC : FencedDeliveries s (.deliver i w)) (hD : DeliveryInv s) :
    ∀ d ∈ s.db.webhook_deliveries, d ∈ (w.record s.db t.delivery).webhook_deliveries ∨
      d.id = t.delivery.id ∧ t.claim.Holds (deliveryLeaseOf s.db.webhook_deliveries) := by
  intro d hd
  obtain ⟨f, -, hrows⟩ := w.record_deliveries s.db t.delivery
  by_cases hid : d.id = t.delivery.id
  · have hclaim := List.mem_map_of_mem (f := DeliveryTask.claim) (List.mem_of_getElem? ht)
    exact .inr ⟨hid, hD.leases.holds_of_not_superseded hclaim (hC t ht)⟩
  · rw [hrows]
    exact .inl (mem_map_ite hd hid)

theorem DeliveryStep.delivered_mem (h : DeliveryStep s a s') (hC : FencedDeliveries s a)
    (hD : DeliveryInv s) :
    ∀ d ∈ s.db.webhook_deliveries, d.status = .delivered → d ∈ s'.db.webhook_deliveries := by
  intro d hd hdelivered
  cases h with
  | added hout =>
      obtain ⟨rows, hrows, -⟩ := hout
      rw [hrows]
      exact List.mem_append_left _ hd
  | claimed =>
      refine mem_map_ite hd fun hpicked => ?_
      obtain ⟨p, hp, hid⟩ := List.mem_map.mp hpicked
      obtain ⟨hmem, hready⟩ := mem_readyDeliveries hp
      rw [eq_of_key_eq hD.ids hmem hd hid] at hready
      simp [DeliveryRow.ready, hdelivered] at hready
  | delivered ht =>
      rcases delivered_own ht hC hD d hd with hmem | ⟨hid, hholds⟩
      · exact hmem
      · -- the row is held, so running
        have hlease := (Lease.ofRows_eq hD.ids hd).symm.trans ((congrArg _ hid).trans hholds)
        have hrunning := (DeliveryRow.lease?_eq_some.mp hlease).1
        rw [hdelivered] at hrunning
        cases hrunning
  | crashed => exact hd
  | revived =>
      unfold Db.retryDeadDelivery
      split
      · refine mem_map_ite hd ?_
        simp [hdelivered]
      · exact hd

theorem orderly_of_step (hs : s.Sound ubl config) (hI : LeaseInv s) (hD : DeliveryInv s)
    (hC : FencedOperations s a) (h : systemStep ubl config s a = some s') : Orderly s a s' where
  work := by
    rintro i w t rfl ht j hj
    cases systemStep_inv h with
    | idle _ hjobs =>
        rw [hjobs]
        exact .inl hj
    | @worked _ _ _ c r db k ht' hrest _ hans =>
        cases ht.symm.trans ht'
        exact worked_own hs (List.mem_of_getElem? ht) hrest (hC.1 t ht c (Task.next?_eq hrest))
          hans hI j hj
  deliver := by
    rintro i w t rfl ht d hd
    cases deliveryStep_inv h with
    | added hout =>
        obtain ⟨rows, hrows, -⟩ := hout
        rw [hrows]
        exact .inl (List.mem_append_left _ hd)
    | delivered ht' =>
        cases ht.symm.trans ht'
        exact delivered_own ht hC.2 hD d hd
  done := (systemStep_inv h).done_mem hs hC.1 hI
  delivered := (deliveryStep_inv h).delivered_mem hC.2 hD

end Operations

/-- In a run where no operation is issued under a superseded claim, no row has two workers with
    an unexpired claim on it, a worker changes only the row it holds, and a finished job or
    delivery stays as it is. -/
theorem leases_hold (ubl : UblEngine) (config : ProcessorConfig) {s : System}
    (hs : (system ubl config).ReachableBy FencedOperations s) :
    Exclusive s ∧ ∀ a s', FencedOperations s a → (system ubl config).step s a = some s' →
      Orderly s a s' := by
  have hsound := sound_of_reachableBy hs
  have hI := leaseInv_of_reachableBy (fun _ _ h => h.1) hs
  have hD := deliveryInv_of_reachableBy (fun _ _ h => h.2) hs
  exact ⟨exclusive_of_inv hI hD, fun a s' hC h => orderly_of_step hsound hI hD hC h⟩

/-! ### A slow worker -/

/-- The task `i` makes a call. -/
def workAt (i : Nat) (answer : (c : Call) → Reply c) : SystemAction :=
  .work i (sampleWorld answer)

/-- The DIAN does not answer `send_bill_sync` in time. -/
def sendTimeout : (c : Call) → Reply c
  | .sendBillSync .. => .error (.soap "timeout")
  | c => calmAnswer c

/-- A worker sends the invoice and gets no answer. Its lease expires, and another worker claims
    the job. -/
def slowWorker : List SystemAction :=
  claimedInvoice ++ List.replicate 12 (workAt 0 sendTimeout) ++
    [.tick 1000, .claim "worker-2" 1 600 []]

def laterAnswer : (c : Call) → Reply c
  | .newUuid => 100
  | c => calmAnswer c

/-- The second worker finds the invoice accepted. -/
def fastWorker : List SystemAction := List.replicate 7 (workAt 1 laterAnswer)

set_option maxRecDepth 10000 in
theorem slowWorker_runs : ((system sampleUbl sampleConfig).run sampleSystem
    (slowWorker ++ fastWorker)).isSome = true := by decide

/-- The first worker is about to put the job off, which the second one has finished. -/
def overtakenSystem : System :=
  ((system sampleUbl sampleConfig).run sampleSystem (slowWorker ++ fastWorker)).get slowWorker_runs

set_option maxRecDepth 10000 in
/-- While the slow worker keeps still, all is in order. -/
theorem leases_hold_slow : Exclusive overtakenSystem :=
  (leases_hold sampleUbl sampleConfig
    (Machine.ReachableBy.get sampleSystem_start (by decide) slowWorker_runs)).1

set_option maxRecDepth 10000 in
/-- A call under a superseded claim puts a finished job back in the queue. -/
theorem superseded_call_applies : (system sampleUbl sampleConfig).Reachable overtakenSystem ∧
    ∃ t ∈ overtakenSystem.tasks[0]?,
      t.claim.Superseded overtakenSystem.now (leaseOf overtakenSystem.db.jobs) ∧
      ∃ j ∈ overtakenSystem.db.jobs, j.id = t.job.id ∧ j.status = .done ∧
        ∃ s' ∈ (system sampleUbl sampleConfig).step overtakenSystem (workAt 0 sendTimeout),
          ∃ k ∈ s'.db.jobs, k.id = j.id ∧ k.status = .queued :=
  ⟨Machine.Reachable.get sampleSystem_start slowWorker_runs, by decide⟩

end DianService
