import DianService.Worker.Deliveries

/-
  Worker: how often a delivery is POSTed. `claim_deliveries` counts an attempt but never compares
  the count with `max_attempts`: that is done only where the dispatcher records the outcome of a
  POST. If the outcome of the last attempt is not written before the lease expires, the delivery
  is handed out again, and sent again. The queue of jobs tests `attempts < max_attempts` in its
  claim.

  A POST and the write of its outcome are one step here; where the write fails, or the dispatcher
  dies before it, the step is one with `Fault.failed`.
-/

namespace DianService

open Lib Lib.Prog

/-! ## What is counted -/

/-- The POSTs of each delivery since it was created or an administrator retried it. A delivery of
    an inactive subscription is not POSTed. -/
def notePosts (s : System) (a : SystemAction) (posts : Uuid → Nat) : Uuid → Nat :=
  match a with
  | .deliver i _ =>
      match s.deliveries[i]? with
      | none => posts
      | some t =>
          if t.delivery.active then
            Function.update posts t.delivery.id (posts t.delivery.id + 1)
          else posts
  | .retryDeadDelivery delivery_id audit =>
      if (s.db.retryDeadDelivery delivery_id audit s.now).2 then Function.update posts delivery_id 0
      else posts
  | _ => posts

/-- The system and the POSTs of its deliveries. -/
def posting (ubl : UblEngine) (config : ProcessorConfig) :
    Machine (System × (Uuid → Nat)) SystemAction :=
  (system ubl config).observed (fun _ => 0) notePosts

/-- What the README promises of deliveries: ten attempts, and then `dead`. -/
structure PostsBounded (s : System) (posts : Uuid → Nat) : Prop where
  posts : ∀ d ∈ s.db.webhook_deliveries, (posts d.id : Int) ≤ d.max_attempts
  /-- After its last attempt a delivery waits for no other. -/
  exhausted : ∀ d ∈ s.db.webhook_deliveries, d.max_attempts ≤ d.attempts → d.status ≠ .queued

/-- What a step makes of a delivery that has been attempted `max_attempts` times. -/
structure EndsDead (s : System) (a : SystemAction) (s' : System) : Prop where
  /-- Where its outcome is written and is no 2xx, it is dead. -/
  recorded : ∀ i w, a = .deliver i w → ∀ t ∈ s.deliveries[i]?,
    t.delivery.max_attempts ≤ t.delivery.attempts → (∀ message, w.fault ≠ .failed message) →
    (∀ code, w.post = .ok code → ¬ (200 ≤ code ∧ code < 300)) →
      ∀ d ∈ s'.db.webhook_deliveries, d.id = t.delivery.id → d.status = .dead
  /-- It stays dead until an administrator retries it. -/
  dead : ∀ d ∈ s.db.webhook_deliveries, d.status = .dead → d ∈ s'.db.webhook_deliveries ∨
    ∃ audit, a = .retryDeadDelivery d.id audit
  /-- It is not claimed again. -/
  claimed : ∀ limit lease skipped, a = .claimDeliveries limit lease skipped →
    ∀ p ∈ s.db.readyDeliveries limit s.now skipped, p.1.attempts < p.1.max_attempts

/-- `claim_deliveries` takes back no delivery whose lease expired on its last attempt, and no
    dispatcher acts under a claim it lost. -/
def TakesNoLastBack (s : System) : SystemAction → Prop
  | .claimDeliveries limit _ skipped => ∀ p ∈ s.db.readyDeliveries limit s.now skipped,
      p.1.status = .running → p.1.attempts < p.1.max_attempts
  | .deliver i _ => ∀ t ∈ s.deliveries[i]?,
      ¬ t.claim.Superseded s.now (deliveryLeaseOf s.db.webhook_deliveries)
  | _ => True

instance (s : System) : ∀ a, Decidable (TakesNoLastBack s a)
  | .claimDeliveries limit _ skipped =>
      inferInstanceAs (Decidable (∀ p ∈ s.db.readyDeliveries limit s.now skipped, _))
  | .deliver i _ => inferInstanceAs (Decidable (∀ t ∈ s.deliveries[i]?, _))
  | .tick _ | .createWebhook _ | .registerRange .. | .issueOutbound .. | .buryExpired |
    .claim .. | .work .. | .crash _ | .requeueContingency .. | .retryDeadJob .. |
    .crashDelivery _ | .retryDeadDelivery .. => isTrue trivial

theorem TakesNoLastBack.fenced {s : System} {a : SystemAction} (h : TakesNoLastBack s a) :
    FencedDeliveries s a := by
  cases a with
  | deliver i w => exact h
  | _ => trivial

/-! ## What a dispatcher writes -/

section Record

variable {w : DeliveryWorld} {db : Db} {delivery : WebhookDelivery}

/-- It puts a delivery back in the queue only before its last attempt. -/
theorem lt_of_deliverOutcome_retried {now : Time} {post : Except DomainError Nat} {delay : Int}
    {run_at : Time} {error : String} {status_code : Option Int}
    (h : deliverOutcome delivery now post delay = .retried run_at error status_code) :
    delivery.attempts < delivery.max_attempts := by
  by_contra hlast
  have hge : delivery.attempts ≥ delivery.max_attempts := by omega
  unfold deliverOutcome at h
  split at h
  · cases h
  · cases post with
    | error e => cases h
    | ok code =>
        dsimp only at h
        split at h <;> cases h

/-- The last attempt, if the subscriber did not confirm it. -/
theorem deliverOutcome_last {now : Time} {post : Except DomainError Nat} {delay : Int}
    (hlast : delivery.max_attempts ≤ delivery.attempts)
    (hpost : ∀ code, post = .ok code → ¬ (200 ≤ code ∧ code < 300)) :
    ∃ error status_code, deliverOutcome delivery now post delay = .dead error status_code := by
  cases ho : deliverOutcome delivery now post delay with
  | dead error status_code => exact ⟨error, status_code, rfl⟩
  | retried run_at error status_code =>
      have := lt_of_deliverOutcome_retried ho
      omega
  | delivered status_code =>
      exfalso
      unfold deliverOutcome at ho
      split at ho
      · cases ho
      · cases post with
        | error e => cases ho
        | ok code =>
            dsimp only at ho
            rw [if_neg (hpost code rfl)] at ho
            cases ho

/-- The row of the delivery is left as it is, or it runs no longer; the counts stay. -/
theorem DeliveryWorld.record_cases (w : DeliveryWorld) (db : Db) (delivery : WebhookDelivery) :
    (w.record db delivery).webhook_deliveries = db.webhook_deliveries ∨
      ∃ f : DeliveryRow → DeliveryRow,
        (w.record db delivery).webhook_deliveries =
          db.webhook_deliveries.map (fun d => if d.id = delivery.id then f d else d) ∧
        ∀ d, (f d).id = d.id ∧ (f d).max_attempts = d.max_attempts ∧
          (f d).attempts = d.attempts ∧ (f d).status ≠ .running ∧
          (delivery.max_attempts ≤ delivery.attempts → (f d).status ≠ .queued) := by
  have hrecord : ∃ f : DeliveryRow → DeliveryRow,
      (db.recordDelivery delivery.id
        (deliverOutcome delivery w.started w.post w.delay)).webhook_deliveries =
          db.webhook_deliveries.map (fun d => if d.id = delivery.id then f d else d) ∧
        ∀ d, (f d).id = d.id ∧ (f d).max_attempts = d.max_attempts ∧
          (f d).attempts = d.attempts ∧ (f d).status ≠ .running ∧
          (delivery.max_attempts ≤ delivery.attempts → (f d).status ≠ .queued) := by
    cases ho : deliverOutcome delivery w.started w.post w.delay with
    | delivered status_code =>
        exact ⟨_, rfl, fun d => ⟨rfl, rfl, rfl, nofun, fun _ => nofun⟩⟩
    | dead error status_code =>
        exact ⟨_, rfl, fun d => ⟨rfl, rfl, rfl, nofun, fun _ => nofun⟩⟩
    | retried run_at error status_code =>
        refine ⟨_, rfl, fun d => ⟨rfl, rfl, rfl, nofun, fun hlast => ?_⟩⟩
        have := lt_of_deliverOutcome_retried ho
        omega
  unfold DeliveryWorld.record
  cases w.fault with
  | failed message => exact .inl rfl
  | none => exact .inr hrecord
  | lost message => exact .inr hrecord

end Record

/-! ## The count bounds the POSTs -/

/-- The count of attempts of a delivery is within its limit, below it in the queue. -/
structure DeliveryRow.Limited (d : DeliveryRow) : Prop where
  pos : 0 < d.max_attempts
  le : d.attempts ≤ d.max_attempts
  lt : d.status = .queued → d.attempts < d.max_attempts

structure PostTally (s : System) (posts : Uuid → Nat) : Prop where
  known : ∀ id, posts id ≠ 0 → ∃ d ∈ s.db.webhook_deliveries, d.id = id
  rows : ∀ d ∈ s.db.webhook_deliveries, d.Limited ∧ (posts d.id : Int) ≤ d.attempts
  limits : ∀ t ∈ s.deliveries, ∃ d ∈ s.db.webhook_deliveries, d.id = t.delivery.id ∧
    d.max_attempts = t.delivery.max_attempts
  ahead : ∀ t ∈ s.deliveries, t.claim.Holds (deliveryLeaseOf s.db.webhook_deliveries) →
    (posts t.delivery.id : Int) < t.delivery.attempts

section Step

variable {ubl : UblEngine} {config : ProcessorConfig} {s s' : System} {a : SystemAction}
  {posts posts' : Uuid → Nat}

/-- The row of a claim that holds. -/
theorem row_of_holds {rows : List DeliveryRow} {c : Claim Uuid Int}
    (h : c.Holds (deliveryLeaseOf rows)) :
    ∃ d ∈ rows, d.id = c.row ∧ d.status = .running ∧ d.attempts = c.lease.stamp := by
  obtain ⟨d, hd, hid, hlease⟩ := Lease.exists_of_ofRows h
  obtain ⟨hrunning, -, hstamp⟩ := DeliveryRow.lease?_eq_some.mp hlease
  exact ⟨d, hd, hid, hrunning, hstamp⟩

/-- Where an update leaves a lease, it was there before. -/
theorem holds_of_map {rows : List DeliveryRow} {f : DeliveryRow → DeliveryRow} {c : Claim Uuid Int}
    (hids : (rows.map DeliveryRow.id).Nodup) (hf : ∀ d, (f d).id = d.id)
    (hleases : ∀ d ∈ rows, (f d).lease? = d.lease? ∨ (f d).lease? = none)
    (h : c.Holds (deliveryLeaseOf (rows.map f))) : c.Holds (deliveryLeaseOf rows) := by
  obtain ⟨d', hd', hid, hlease⟩ := Lease.exists_of_ofRows h
  obtain ⟨d, hd, rfl⟩ := List.mem_map.mp hd'
  have hkept : d.lease? = some c.lease := by
    rcases hleases d hd with hsame | hnone
    · exact hsame.symm.trans hlease
    · rw [hnone] at hlease
      cases hlease
  have hrow : deliveryLeaseOf rows d.id = d.lease? := Lease.ofRows_eq hids hd
  rw [← hf d, hid] at hrow
  exact hrow.trans hkept

theorem PostTally.unknown (h : PostTally s posts) {id : Uuid}
    (hfresh : ∀ d ∈ s.db.webhook_deliveries, d.id ≠ id) : posts id = 0 := by
  by_contra hne
  obtain ⟨d, hd, hid⟩ := h.known id hne
  exact hfresh d hd hid

theorem notePosts_eq (h : a.dispatches = false) : notePosts s a posts = posts := by
  unfold notePosts
  cases a <;> first | rfl | cases h

/-- New deliveries. -/
theorem postTally_added {rows : List DeliveryRow} (hT : PostTally s posts)
    (hids : (s'.db.webhook_deliveries.map DeliveryRow.id).Nodup)
    (hrows : s'.db.webhook_deliveries = s.db.webhook_deliveries ++ rows)
    (hnew : ∀ r ∈ rows, r.status = .queued ∧ r.attempts = 0 ∧
      r.max_attempts = MAX_DELIVERY_ATTEMPTS) (hdeliveries : s'.deliveries = s.deliveries) :
    PostTally s' posts := by
  have hkept : ∀ d ∈ s.db.webhook_deliveries, d ∈ s'.db.webhook_deliveries := by
    intro d hd
    rw [hrows]
    exact List.mem_append_left _ hd
  refine ⟨fun id hne => ?_, fun d hd => ?_, fun t ht => ?_, fun t ht hholds => ?_⟩
  · obtain ⟨d, hd, hid⟩ := hT.known id hne
    exact ⟨d, hkept d hd, hid⟩
  · rw [hrows] at hd hids
    rcases List.mem_append.mp hd with hd | hd
    · exact hT.rows d hd
    · obtain ⟨-, hcount, hmax⟩ := hnew d hd
      rw [List.map_append, List.nodup_append] at hids
      have hzero : posts d.id = 0 := hT.unknown fun e he =>
        hids.2.2 _ (List.mem_map_of_mem he) _ (List.mem_map_of_mem hd)
      have hlt : d.attempts < d.max_attempts := by
        rw [hcount, hmax]
        decide
      refine ⟨⟨?_, le_of_lt hlt, fun _ => hlt⟩, ?_⟩
      · rw [hmax]
        decide
      · omega
  · rw [hdeliveries] at ht
    obtain ⟨d, hd, hid⟩ := hT.limits t ht
    exact ⟨d, hkept d hd, hid⟩
  · rw [hdeliveries] at ht
    rw [hrows, show deliveryLeaseOf (s.db.webhook_deliveries ++ rows) =
      deliveryLeaseOf s.db.webhook_deliveries from Lease.ofRows_append fun r hr =>
        DeliveryRow.lease?_eq_none_of_status (by simp [(hnew r hr).1])] at hholds
    exact hT.ahead t ht hholds

/-- A claim counts its attempt first. -/
theorem postTally_claimed {limit lease : Nat} {skipped : List Uuid} (hD : DeliveryInv s)
    (hC : TakesNoLastBack s (.claimDeliveries limit lease skipped)) (hT : PostTally s posts) :
    PostTally { s with
      db := (s.db.claimDeliveries limit lease s.now skipped).1
      deliveries := s.deliveries ++ (s.db.claimDeliveries limit lease s.now skipped).2.map
        fun delivery => ⟨delivery, s.now + lease⟩ } posts := by
  have hmem : ∀ d ∈ s.db.webhook_deliveries,
      (if d.id ∈ (s.db.readyDeliveries limit s.now skipped).map (fun p => p.1.id) then
        d.claimed lease s.now else d) ∈
          (s.db.claimDeliveries limit lease s.now skipped).1.webhook_deliveries :=
    fun d hd => List.mem_map_of_mem hd
  have hclaimed : ∀ d : DeliveryRow, ∀ p : Prop, [Decidable p] →
      (if p then d.claimed lease s.now else d).id = d.id ∧
        (if p then d.claimed lease s.now else d).max_attempts = d.max_attempts := by
    intro d p _
    split <;> exact ⟨rfl, rfl⟩
  refine ⟨fun id hne => ?_, fun d' hd' => ?_, fun t ht => ?_, fun t ht hholds => ?_⟩
  · obtain ⟨d, hd, hid⟩ := hT.known id hne
    exact ⟨_, hmem d hd, (hclaimed d _).1.trans hid⟩
  · obtain ⟨d, hd, rfl⟩ := List.mem_map.mp hd'
    obtain ⟨hlimited, hle⟩ := hT.rows d hd
    split
    · rename_i hpicked
      obtain ⟨p, hp, hid⟩ := List.mem_map.mp hpicked
      obtain ⟨hpmem, hready⟩ := mem_readyDeliveries hp
      have hpd : p.1 = d := eq_of_key_eq hD.ids hpmem hd hid
      have hlt : d.attempts < d.max_attempts := by
        rw [hpd] at hready
        simp only [DeliveryRow.ready, decide_eq_true_eq] at hready
        rcases hready with ⟨hqueued, -⟩ | ⟨hrunning, -⟩
        · exact hlimited.lt hqueued
        · have hlast := hC p hp
          rw [hpd] at hlast
          exact hlast hrunning
      refine ⟨⟨hlimited.pos, ?_, fun hqueued => by cases hqueued⟩, ?_⟩
      · show d.attempts + 1 ≤ d.max_attempts
        omega
      · show (posts d.id : Int) ≤ d.attempts + 1
        omega
    · exact ⟨hlimited, hle⟩
  · rcases List.mem_append.mp ht with ht | ht
    · obtain ⟨d, hd, hid, hmax⟩ := hT.limits t ht
      exact ⟨_, hmem d hd, (hclaimed d _).1.trans hid, (hclaimed d _).2.trans hmax⟩
    · obtain ⟨delivery, hdelivery, rfl⟩ := List.mem_map.mp ht
      obtain ⟨p, hp, rfl⟩ := List.mem_map.mp hdelivery
      exact ⟨_, hmem p.1 (mem_readyDeliveries hp).1, (hclaimed p.1 _).1, (hclaimed p.1 _).2⟩
  · rcases List.mem_append.mp ht with ht | ht
    · obtain ⟨d', hd', hid, -, hstamp⟩ := row_of_holds hholds
      obtain ⟨d, hd, rfl⟩ := List.mem_map.mp hd'
      have hle := (hT.rows d hd).2
      have hid : d.id = t.delivery.id := (hclaimed d _).1.symm.trans hid
      rw [hid] at hle
      by_cases hpicked : d.id ∈ (s.db.readyDeliveries limit s.now skipped).map fun p => p.1.id
      · -- a newer claim has counted its own attempt
        rw [if_pos hpicked] at hstamp
        have hstamp : d.attempts + 1 = t.delivery.attempts := hstamp
        omega
      · refine hT.ahead t ht ?_
        by_contra hnot
        have hne : deliveryLeaseOf (s.db.claimDeliveries limit lease s.now
            skipped).1.webhook_deliveries t.claim.row ≠
              deliveryLeaseOf s.db.webhook_deliveries t.claim.row := fun heq =>
          hnot (heq.symm.trans hholds)
        obtain ⟨e, he, heid, -, hepicked, -⟩ := @deliveryLeaseOf_map_ne s.db.webhook_deliveries
          (fun d => d.id ∈ (s.db.readyDeliveries limit s.now skipped).map
            fun p : DeliveryRow × Webhook => p.1.id) _
          (DeliveryRow.claimed lease s.now) t.claim.row (fun _ => rfl) hne
        rw [eq_of_key_eq hD.ids he hd (heid.trans hid.symm)] at hepicked
        exact hpicked hepicked
    · obtain ⟨delivery, hdelivery, rfl⟩ := List.mem_map.mp ht
      obtain ⟨p, hp, rfl⟩ := List.mem_map.mp hdelivery
      have hle := (hT.rows p.1 (mem_readyDeliveries hp).1).2
      show (posts p.1.id : Int) < p.1.attempts + 1
      omega

/-- The dispatcher POSTs a delivery that it holds. -/
theorem postTally_delivered {i : Nat} {w : DeliveryWorld} {t : DeliveryTask} (hD : DeliveryInv s)
    (ht : s.deliveries[i]? = some t)
    (hheld : ¬ t.claim.Superseded s.now (deliveryLeaseOf s.db.webhook_deliveries))
    (hT : PostTally s posts) :
    PostTally { s with db := w.record s.db t.delivery, deliveries := s.deliveries.eraseIdx i }
      (Function.update posts t.delivery.id (posts t.delivery.id + 1)) := by
  obtain ⟨l₁, l₂, hsplit, -, herase⟩ := exists_split ht
  have hmem := List.mem_of_getElem? ht
  have hholds := hD.leases.holds_of_not_superseded (List.mem_map_of_mem hmem) hheld
  have hahead := hT.ahead t hmem hholds
  obtain ⟨r, hr, hrid, -, hstamp⟩ := row_of_holds hholds
  have hrid : r.id = t.delivery.id := hrid
  have hstamp : r.attempts = t.delivery.attempts := hstamp
  obtain ⟨m, hm, hmid, hmax⟩ := hT.limits t hmem
  have hlimit : r.max_attempts = t.delivery.max_attempts := by
    rw [eq_of_key_eq hD.ids hr hm (hrid.trans hmid.symm)]
    exact hmax
  -- the rows as they were count one POST more
  have hold : ∀ d ∈ s.db.webhook_deliveries, d.Limited ∧
      (Function.update posts t.delivery.id (posts t.delivery.id + 1) d.id : Int) ≤ d.attempts := by
    intro d hd
    obtain ⟨hlimited, hle⟩ := hT.rows d hd
    refine ⟨hlimited, ?_⟩
    by_cases hid : d.id = t.delivery.id
    · rw [eq_of_key_eq hD.ids hd hr (hid.trans hrid.symm), hrid, Function.update_self]
      omega
    · rwa [Function.update_of_ne hid]
  have hknown : ∀ id, Function.update posts t.delivery.id (posts t.delivery.id + 1) id ≠ 0 →
      ∃ d ∈ s.db.webhook_deliveries, d.id = id := by
    intro id hne
    by_cases hid : id = t.delivery.id
    · exact ⟨r, hr, hrid.trans hid.symm⟩
    · rw [Function.update_of_ne hid] at hne
      exact hT.known id hne
  have herased : ∀ u ∈ s.deliveries.eraseIdx i, u ∈ s.deliveries := fun u hu =>
    List.mem_of_mem_eraseIdx hu
  -- no other dispatcher holds the delivery
  have hother : ∀ u ∈ s.deliveries.eraseIdx i,
      u.claim.Holds (deliveryLeaseOf s.db.webhook_deliveries) → u.delivery.id ≠ t.delivery.id := by
    intro u hu huH hid
    have hexcl := hD.leases.exclusive
    rw [hsplit, List.map_append, List.map_cons, List.pairwise_append, List.pairwise_cons] at hexcl
    rw [herase] at hu
    rcases List.mem_append.mp hu with hu | hu
    · exact hexcl.2.2 _ (List.mem_map_of_mem hu) _ List.mem_cons_self hid ⟨huH, hholds⟩
    · exact hexcl.2.1.1 _ (List.mem_map_of_mem hu) hid.symm ⟨hholds, huH⟩
  rcases w.record_cases s.db t.delivery with hrows | ⟨f, hrows, hf⟩
  · refine ⟨?_, ?_, ?_, ?_⟩ <;> dsimp only <;> rw [hrows]
    · exact hknown
    · exact hold
    · exact fun u hu => hT.limits u (herased u hu)
    · intro u hu huH
      rw [Function.update_of_ne (hother u hu huH)]
      exact hT.ahead u (herased u hu) huH
  · have hsame : ∀ d : DeliveryRow, (if d.id = t.delivery.id then f d else d).id = d.id ∧
        (if d.id = t.delivery.id then f d else d).max_attempts = d.max_attempts := by
      intro d
      split
      · exact ⟨(hf d).1, (hf d).2.1⟩
      · exact ⟨rfl, rfl⟩
    refine ⟨?_, ?_, ?_, ?_⟩ <;> dsimp only <;> rw [hrows]
    · intro id hne
      obtain ⟨d, hd, hid⟩ := hknown id hne
      exact ⟨_, List.mem_map_of_mem hd, (hsame d).1.trans hid⟩
    · intro d' hd'
      obtain ⟨d, hd, rfl⟩ := List.mem_map.mp hd'
      obtain ⟨hlimited, hle⟩ := hold d hd
      rw [(hsame d).1]
      split
      · rename_i hid
        obtain ⟨-, hmax', hcount, -, hlast⟩ := hf d
        have hdr := eq_of_key_eq hD.ids hd hr (hid.trans hrid.symm)
        refine ⟨⟨hmax' ▸ hlimited.pos, ?_, fun hqueued => ?_⟩, hcount ▸ hle⟩
        · rw [hcount, hmax']
          exact hlimited.le
        · -- it is put back only before its last attempt
          have hnot := mt hlast fun h => h hqueued
          rw [hcount, hmax', hdr]
          omega
      · exact ⟨hlimited, hle⟩
    · intro u hu
      obtain ⟨d, hd, hid, hmax⟩ := hT.limits u (herased u hu)
      exact ⟨_, List.mem_map_of_mem hd, (hsame d).1.trans hid, (hsame d).2.trans hmax⟩
    · intro u hu huH
      have hbefore := holds_of_map hD.ids (fun d => (hsame d).1) (fun d _ => by
        split
        · exact .inr (DeliveryRow.lease?_eq_none_of_status (hf d).2.2.2.1)
        · exact .inl rfl) huH
      rw [Function.update_of_ne (hother u hu hbefore)]
      exact hT.ahead u (herased u hu) hbefore

theorem PostTally.anti (h : PostTally s posts) (hle : ∀ id, posts' id ≤ posts id) :
    PostTally s posts' where
  known := by
    intro id hne
    have := hle id
    exact h.known id (by omega)
  rows := by
    intro d hd
    have hid := hle d.id
    obtain ⟨hlimited, hcount⟩ := h.rows d hd
    exact ⟨hlimited, by omega⟩
  limits := h.limits
  ahead := by
    intro t ht hholds
    have hid := hle t.delivery.id
    have := h.ahead t ht hholds
    omega

/-- A retry starts both counts again. -/
theorem postTally_revived {delivery_id : Uuid} {audit : AuditEntry} (hD : DeliveryInv s)
    (hT : PostTally s posts) :
    PostTally { s with db := (s.db.retryDeadDelivery delivery_id audit s.now).1 }
      (notePosts s (.retryDeadDelivery delivery_id audit) posts) := by
  unfold notePosts Db.retryDeadDelivery
  dsimp only
  split
  · have hle : ∀ id, Function.update posts delivery_id 0 id ≤ posts id := by
      intro id
      by_cases hid : id = delivery_id
      · rw [hid, Function.update_self]
        exact Nat.zero_le _
      · rw [Function.update_of_ne hid]
    have hT' := hT.anti hle
    have hsame : ∀ d : DeliveryRow,
        (if d.id = delivery_id ∧ d.status = .dead then d.revived s.now else d).id = d.id ∧
          (if d.id = delivery_id ∧ d.status = .dead then d.revived s.now else d).max_attempts =
            d.max_attempts := by
      intro d
      split <;> exact ⟨rfl, rfl⟩
    rw [if_pos rfl]
    refine ⟨fun id hne => ?_, fun d' hd' => ?_, fun t ht => ?_, fun t ht hholds => ?_⟩
    · obtain ⟨d, hd, hid⟩ := hT'.known id hne
      exact ⟨_, List.mem_map_of_mem hd, (hsame d).1.trans hid⟩
    · obtain ⟨d, hd, rfl⟩ := List.mem_map.mp hd'
      obtain ⟨hlimited, hcount⟩ := hT'.rows d hd
      split
      · rename_i hdead
        refine ⟨⟨hlimited.pos, le_of_lt hlimited.pos, fun _ => hlimited.pos⟩, ?_⟩
        rw [show (d.revived s.now).id = delivery_id from hdead.1, Function.update_self]
        exact le_refl _
      · exact ⟨hlimited, hcount⟩
    · obtain ⟨d, hd, hid, hmax⟩ := hT.limits t ht
      exact ⟨_, List.mem_map_of_mem hd, (hsame d).1.trans hid, (hsame d).2.trans hmax⟩
    · refine hT'.ahead t ht (holds_of_map hD.ids (fun d => (hsame d).1) (fun d _ => ?_) hholds)
      split
      · exact .inr (DeliveryRow.lease?_eq_none_of_status nofun)
      · exact .inl rfl
  · exact hT

theorem DeliveryStep.postTally (h : DeliveryStep s a s') (hC : TakesNoLastBack s a)
    (hD : DeliveryInv s) (hT : PostTally s posts) : PostTally s' (notePosts s a posts) := by
  cases h with
  | added hout hdeliveries hnow hquiet =>
      obtain ⟨rows, hrows, hnew, hnodup⟩ := hout
      rw [notePosts_eq hquiet]
      exact postTally_added hT (hnodup hD.ids) hrows hnew hdeliveries
  | claimed => exact postTally_claimed hD hC hT
  | @delivered i w t ht =>
      have hposted := postTally_delivered (w := w) hD ht (hC t ht) hT
      unfold notePosts
      simp only [ht]
      split
      · exact hposted
      · -- the delivery of an inactive subscription is buried unsent
        refine hposted.anti fun id => ?_
        by_cases hid : id = t.delivery.id
        · rw [hid, Function.update_self]
          omega
        · rw [Function.update_of_ne hid]
  | crashed =>
      exact ⟨hT.known, hT.rows, fun t ht => hT.limits t (List.mem_of_mem_eraseIdx ht),
        fun t ht => hT.ahead t (List.mem_of_mem_eraseIdx ht)⟩
  | revived => exact postTally_revived hD hT

theorem postTally_of_reachableBy
    (hs : (posting ubl config).ReachableBy (fun p => TakesNoLastBack p.1) (s, posts)) :
    PostTally s posts := by
  refine Machine.ReachableBy.observed_invariant ?_ ?_ hs
  · rintro s ⟨tenants, now, rfl⟩
    refine ⟨fun id h => absurd rfl h, ?_, ?_, ?_⟩
    · intro d hd
      cases hd
    · intro t ht
      cases ht
    · intro t ht
      cases ht
  · intro s posts a s' hr hT hc h
    exact (deliveryStep_inv h).postTally hc (deliveryInv_of_reachableBy (fun _ _ h => h.fenced) hr)
      hT

theorem endsDead_of_step (hD : DeliveryInv s) (hC : TakesNoLastBack s a) (hT : PostTally s posts)
    (h : DeliveryStep s a s') : EndsDead s a s' where
  recorded := by
    rintro i w rfl t ht hlast hfault hpost d' hd' hid
    cases h with
    | added _ _ _ hquiet => cases hquiet
    | @delivered _ _ u hu =>
        cases ht.symm.trans hu
        obtain ⟨error, status_code, hdead⟩ := @deliverOutcome_last t.delivery w.started _ w.delay hlast hpost
        have hrecord : w.record s.db t.delivery =
            s.db.buryDelivery t.delivery.id error status_code := by
          unfold DeliveryWorld.record
          rw [hdead]
          cases hf : w.fault with
          | failed message => exact absurd hf (hfault message)
          | none => rfl
          | lost message => rfl
        dsimp only at hd'
        rw [hrecord] at hd'
        obtain ⟨d, hd, rfl⟩ := List.mem_map.mp hd'
        split
        · rfl
        · rename_i hne
          rw [if_neg hne] at hid
          exact absurd hid hne
  dead := by
    intro d hd hdead
    cases h with
    | added hout =>
        obtain ⟨rows, hrows, -⟩ := hout
        rw [hrows]
        exact .inl (List.mem_append_left _ hd)
    | claimed =>
        refine .inl (mem_map_ite hd fun hpicked => ?_)
        obtain ⟨p, hp, hid⟩ := List.mem_map.mp hpicked
        obtain ⟨hmem, hready⟩ := mem_readyDeliveries hp
        rw [eq_of_key_eq hD.ids hmem hd hid] at hready
        simp [DeliveryRow.ready, hdead] at hready
    | delivered ht =>
        rcases delivered_own ht hC.fenced hD d hd with hmem | ⟨hid, hholds⟩
        · exact .inl hmem
        · obtain ⟨r, hr, hrid, hrunning, -⟩ := row_of_holds hholds
          rw [eq_of_key_eq hD.ids hr hd (hrid.trans hid.symm), hdead] at hrunning
          cases hrunning
    | crashed => exact .inl hd
    | @revived delivery_id audit =>
        by_cases hid : d.id = delivery_id
        · exact .inr ⟨audit, by rw [hid]⟩
        · left
          unfold Db.retryDeadDelivery
          split
          · exact mem_map_ite hd fun h => hid h.1
          · exact hd
  claimed := by
    rintro limit lease skipped rfl p hp
    obtain ⟨hmem, hready⟩ := mem_readyDeliveries hp
    simp only [DeliveryRow.ready, decide_eq_true_eq] at hready
    rcases hready with ⟨hqueued, -⟩ | ⟨hrunning, -⟩
    · exact (hT.rows p.1 hmem).1.lt hqueued
    · exact hC p hp hrunning

end Step

/-- While no delivery is taken back on its last attempt and no dispatcher acts under a claim it
    lost, a delivery is POSTed at most `max_attempts` times, ends in `dead` if the last attempt
    is not confirmed, and is not claimed again. -/
theorem posts_bounded (ubl : UblEngine) (config : ProcessorConfig) {s : System}
    {posts : Uuid → Nat}
    (hs : (posting ubl config).ReachableBy (fun p => TakesNoLastBack p.1) (s, posts)) :
    PostsBounded s posts ∧ ∀ a s', TakesNoLastBack s a →
      (system ubl config).step s a = some s' → EndsDead s a s' := by
  have hT := postTally_of_reachableBy hs
  have hD := deliveryInv_of_reachableBy (fun _ _ h => h.fenced) hs.of_observed
  refine ⟨⟨fun d hd => ?_, fun d hd hlast hqueued => ?_⟩, fun a s' hC h => ?_⟩
  · obtain ⟨hlimited, hle⟩ := hT.rows d hd
    exact hle.trans hlimited.le
  · have hlt := (hT.rows d hd).1.lt hqueued
    omega
  · exact endsDead_of_step hD hC hT (deliveryStep_inv h)

/-! ### A subscriber that does not answer -/

def sampleWebhook : Webhook where
  id := 5
  tenant_id := 1
  target_url := "https://erp.example.com/hooks/dian"
  webhook_secret := "secret"
  event_type := "*"
  subscription_status := .active

/-- A request that times out; `fault` is about the write of the outcome. -/
def unanswered (fault : Fault) : DeliveryWorld := ⟨0, .error (.internal "timeout"), 0, fault⟩

/-- The delivery is claimed and sent. -/
def attempt (fault : Fault) : List SystemAction :=
  [.tick 1000, .claimDeliveries 10 600 [], .deliver 0 (unanswered fault)]

/-- The invoice is accepted, and nine attempts to notify of it fail. -/
def nineAttempts : List SystemAction :=
  .createWebhook sampleWebhook :: claimedInvoice ++ works 10 calmAnswer ++
    (List.replicate 9 (attempt .none)).flatten

set_option maxRecDepth 10000 in
theorem tenAttempts_counted : ((posting sampleUbl sampleConfig).run (sampleSystem, fun _ => 0)
    (nineAttempts ++ attempt .none)).isSome = true := by decide

def tenAttempts : System × (Uuid → Nat) :=
  ((posting sampleUbl sampleConfig).run (sampleSystem, fun _ => 0)
    (nineAttempts ++ attempt .none)).get tenAttempts_counted

set_option maxRecDepth 10000 in
theorem tenAttempts_reachable :
    (posting sampleUbl sampleConfig).ReachableBy (fun p => TakesNoLastBack p.1) tenAttempts :=
  Machine.ReachableBy.get (M := posting sampleUbl sampleConfig) ⟨sampleSystem_start, rfl⟩
    (by decide) tenAttempts_counted

theorem posts_bounded_ten : PostsBounded tenAttempts.1 tenAttempts.2 :=
  (posts_bounded sampleUbl sampleConfig tenAttempts_reachable).1

/-- The outcome of the tenth attempt is not written. -/
def unwrittenOutcome : List SystemAction :=
  nineAttempts ++ attempt (.failed "connection reset") ++ attempt .none

set_option maxRecDepth 10000 in
theorem unwrittenOutcome_counted : ((posting sampleUbl sampleConfig).run
    (sampleSystem, fun _ => 0) unwrittenOutcome).isSome = true := by decide

def elevenPosts : System × (Uuid → Nat) :=
  ((posting sampleUbl sampleConfig).run (sampleSystem, fun _ => 0) unwrittenOutcome).get
    unwrittenOutcome_counted

set_option maxRecDepth 10000 in
/-- After the lease of its tenth attempt the delivery is claimed and POSTed again. -/
theorem last_attempt_posted_again : ¬ ∀ s posts,
    (posting sampleUbl sampleConfig).Reachable (s, posts) → PostsBounded s posts := by
  intro h
  have hbounded := h elevenPosts.1 elevenPosts.2
    (Machine.Reachable.get (M := posting sampleUbl sampleConfig) ⟨sampleSystem_start, rfl⟩
      unwrittenOutcome_counted)
  have hmore : ∃ d ∈ elevenPosts.1.db.webhook_deliveries,
      d.max_attempts < (elevenPosts.2 d.id : Int) := by decide +kernel
  obtain ⟨d, hd, hlt⟩ := hmore
  have hle := hbounded.posts d hd
  omega

end DianService
