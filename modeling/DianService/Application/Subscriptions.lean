import DianService.Lib.Machine
import DianService.Store.Tenants

/-
  Application: calls of `WebhookService::register` and `delete`, one repository call at a time.

  `register` counts the subscriptions of the tenant in one statement and inserts in another. The
  count is right when it is made; the insert does not repeat it.
-/

namespace DianService

open Lib

namespace Webhooks

def EVENT_ALL : String := "*"

def EVENT_TYPES : List String :=
  ["document.accepted", "document.rejected", "document.contingency", "document.failed"]

def MAX_WEBHOOKS_PER_TENANT : Nat := 10

def isValidSubscription (event_type : String) : Bool :=
  event_type = EVENT_ALL ∨ event_type ∈ EVENT_TYPES

end Webhooks

open Webhooks

/-- The arguments of a call of `register`. -/
structure Registration where
  tenant_id : Uuid
  target_url : String
  event_type : String
  deriving DecidableEq

structure RegisteredWebhook where
  id : Uuid
  target_url : String
  event_type : String
  secret : String

inductive RegistrationPhase where
  | begun
  | counted (webhook : Webhook)
  | done (answer : Except DomainError RegisteredWebhook)

structure RegistrationCall where
  request : Registration
  phase : RegistrationPhase

namespace Registration

/-- The checks before the count; `check` is that of the destination policy. -/
def validate (request : Registration) (check : String → Except DomainError Unit) :
    Except DomainError Unit := do
  if ¬ isValidSubscription request.event_type then
    throw (.validation ("event_type debe ser '" ++ EVENT_ALL ++ "' o uno de: " ++
      ", ".intercalate EVENT_TYPES))
  check request.target_url

/-- The check of the count. -/
def checkLimit (webhooks : List Webhook) : Except DomainError Unit := do
  if MAX_WEBHOOKS_PER_TENANT ≤ webhooks.length then
    throw (.validation ("Se admiten como maximo " ++ toString MAX_WEBHOOKS_PER_TENANT ++
      " webhooks por tenant"))

/-- The new row, with its random id and secret. -/
def webhook (request : Registration) (id : Uuid) (secret : String) : Webhook where
  id := id
  tenant_id := request.tenant_id
  target_url := request.target_url
  webhook_secret := "whsec_" ++ secret
  event_type := request.event_type
  subscription_status := .active

end Registration

def RegisteredWebhook.of (webhook : Webhook) : RegisteredWebhook where
  id := webhook.id
  target_url := webhook.target_url
  event_type := webhook.event_type
  secret := webhook.webhook_secret

/-! ## The machine -/

structure SubscriptionState where
  db : Db
  calls : List RegistrationCall

inductive SubscriptionLabel where
  | register (request : Registration)
  | count (i : Nat) (id : Uuid) (secret : String)
  | create (i : Nat)
  | fail (i : Nat) (message : String)
  | lose (i : Nat) (message : String)
  | delete (tenant_id webhook_id : Uuid)

namespace SubscriptionState

def setPhase (s : SubscriptionState) (i : Nat) (phase : RegistrationPhase) : SubscriptionState :=
  { s with calls := s.calls.modify i fun call => { call with phase := phase } }

/-- `list_webhooks` and what follows up to the next call. -/
def count (s : SubscriptionState) (check : String → Except DomainError Unit)
    (request : Registration) (id : Uuid) (secret : String) : RegistrationPhase :=
  match request.validate check *> Registration.checkLimit (s.db.listWebhooks request.tenant_id) with
  | .error e => .done (.error e)
  | .ok () => .counted (request.webhook id secret)

/-- The row that a call has built and not inserted. -/
def counted? (s : SubscriptionState) (i : Nat) : Option Webhook :=
  match s.calls[i]? with
  | some ⟨_, .counted webhook⟩ => some webhook
  | _ => none

/-- `create_webhook`; the call answers `answer` if the row is inserted. -/
def create (s : SubscriptionState) (i : Nat) (webhook : Webhook)
    (answer : Except DomainError RegisteredWebhook) : SubscriptionState :=
  match s.db.createWebhook webhook with
  | .error e => s.setPhase i (.done (.error e))
  | .ok db => { s with db := db }.setPhase i (.done answer)

def step (check : String → Except DomainError Unit) (s : SubscriptionState) :
    SubscriptionLabel → Option SubscriptionState
  | .register request => some { s with calls := s.calls ++ [⟨request, .begun⟩] }
  | .count i id secret =>
      match s.calls[i]? with
      | some ⟨request, .begun⟩ => some (s.setPhase i (s.count check request id secret))
      | _ => none
  | .create i => (s.counted? i).map fun webhook => s.create i webhook (.ok (.of webhook))
  | .fail i message =>
      match s.calls[i]? with
      | some ⟨_, .done _⟩ => none
      | some _ => some (s.setPhase i (.done (.error (.database message))))
      | none => none
  | .lose i message =>
      (s.counted? i).map fun webhook => s.create i webhook (.error (.database message))
  | .delete tenant_id webhook_id =>
      some { s with db := (s.db.deleteWebhook tenant_id webhook_id).1 }

/-- No tenant has more subscriptions than the limit. -/
def Limited (s : SubscriptionState) : Prop :=
  ∀ tenant_id, (s.db.listWebhooks tenant_id).length ≤ MAX_WEBHOOKS_PER_TENANT

end SubscriptionState

def subscriptions (check : String → Except DomainError Unit) :
    Machine SubscriptionState SubscriptionLabel where
  start s := s.Limited ∧ s.calls = []
  step := SubscriptionState.step check

/-- The row that a label inserts, if its call has come that far. -/
def SubscriptionState.inserting (s : SubscriptionState) (l : SubscriptionLabel) : Option Webhook :=
  match l with
  | .create i => s.counted? i
  | .lose i _ => s.counted? i
  | _ => none

/-- A step that inserts a row is taken while the tenant has fewer rows than the limit: the check
    that `register` made when it counted would still pass. -/
def SubscriptionState.stillAdmits (s : SubscriptionState) (l : SubscriptionLabel) : Bool :=
  match s.inserting l with
  | some webhook => (s.db.listWebhooks webhook.tenant_id).length < MAX_WEBHOOKS_PER_TENANT
  | none => true

/-! ## Counts -/

section Counts

variable {db db' : Db} {tenant_id : Uuid}

theorem length_listWebhooks (db : Db) (tenant_id : Uuid) :
    (db.listWebhooks tenant_id).length = db.webhooks.countP fun w => w.tenant_id = tenant_id := by
  rw [Db.listWebhooks, (orderBy_perm _ _).length_eq, List.countP_eq_length_filter]

theorem length_createWebhook {webhook : Webhook} (h : db.createWebhook webhook = .ok db')
    (tenant_id : Uuid) :
    (db'.listWebhooks tenant_id).length =
      (db.listWebhooks tenant_id).length + if webhook.tenant_id = tenant_id then 1 else 0 := by
  obtain ⟨rfl, _⟩ := Db.createWebhook_ok h
  rw [length_listWebhooks, length_listWebhooks, List.countP_append, List.countP_singleton]
  simp only [decide_eq_true_eq]

theorem deleteWebhook_sublist (owner webhook_id : Uuid) :
    (db.deleteWebhook owner webhook_id).1.webhooks.Sublist db.webhooks := by
  unfold Db.deleteWebhook
  split
  · exact List.filter_sublist
  · exact List.Sublist.refl _

theorem length_deleteWebhook (owner webhook_id : Uuid) :
    ((db.deleteWebhook owner webhook_id).1.listWebhooks tenant_id).length ≤
      (db.listWebhooks tenant_id).length := by
  rw [length_listWebhooks, length_listWebhooks]
  exact (deleteWebhook_sublist owner webhook_id).countP_le

end Counts

/-! ## What a step can do -/

section Steps

variable {check : String → Except DomainError Unit} {s s' : SubscriptionState}
  {l : SubscriptionLabel}

theorem stillAdmits_of_inserting {webhook : Webhook} (h : s.inserting l = some webhook) :
    s.stillAdmits l =
      decide ((s.db.listWebhooks webhook.tenant_id).length < MAX_WEBHOOKS_PER_TENANT) := by
  rw [SubscriptionState.stillAdmits, h]

theorem create_db (i : Nat) (webhook : Webhook) (answer : Except DomainError RegisteredWebhook) :
    (s.create i webhook answer).db = s.db ∨
      s.db.createWebhook webhook = .ok (s.create i webhook answer).db := by
  unfold SubscriptionState.create
  cases hcreate : s.db.createWebhook webhook with
  | error e => exact .inl rfl
  | ok db => exact .inr rfl

/-- A step leaves the rows, deletes one, or inserts the one it is about. -/
theorem subscriptions_step (h : (subscriptions check).step s l = some s') :
    s'.db = s.db ∨ (∃ owner id, s'.db = (s.db.deleteWebhook owner id).1) ∨
      ∃ webhook, s.inserting l = some webhook ∧ s.db.createWebhook webhook = .ok s'.db := by
  have hcreate : ∀ {i webhook answer}, s.inserting l = some webhook →
      s.create i webhook answer = s' → s'.db = s.db ∨
        (∃ owner id, s'.db = (s.db.deleteWebhook owner id).1) ∨
        ∃ webhook, s.inserting l = some webhook ∧ s.db.createWebhook webhook = .ok s'.db := by
    intro i webhook answer hl heq
    cases create_db (s := s) i webhook answer with
    | inl hsame => exact .inl (heq ▸ hsame)
    | inr hok => exact .inr (.inr ⟨webhook, hl, heq ▸ hok⟩)
  cases l with
  | register request =>
      cases h
      exact .inl rfl
  | count i id secret =>
      simp only [subscriptions, SubscriptionState.step] at h
      split at h
      · cases h
        exact .inl rfl
      · cases h
  | create i =>
      obtain ⟨webhook, hl, heq⟩ := Option.map_eq_some_iff.mp h
      exact hcreate hl heq
  | fail i message =>
      simp only [subscriptions, SubscriptionState.step] at h
      split at h
      · cases h
      · cases h
        exact .inl rfl
      · cases h
  | lose i message =>
      obtain ⟨webhook, hl, heq⟩ := Option.map_eq_some_iff.mp h
      exact hcreate hl heq
  | delete owner id =>
      cases h
      exact .inr (.inl ⟨owner, id, rfl⟩)

theorem limited_step (hlimited : s.Limited) (hadmits : s.stillAdmits l = true)
    (h : (subscriptions check).step s l = some s') : s'.Limited := by
  intro tenant_id
  obtain hsame | ⟨owner, id, hdelete⟩ | ⟨webhook, hl, hcreate⟩ := subscriptions_step h
  · rw [hsame]
    exact hlimited tenant_id
  · rw [hdelete]
    exact (length_deleteWebhook owner id).trans (hlimited tenant_id)
  · rw [stillAdmits_of_inserting hl, decide_eq_true_eq] at hadmits
    have hbound := hlimited tenant_id
    rw [length_createWebhook hcreate]
    split
    · rename_i htenant
      rw [htenant] at hadmits
      omega
    · omega

/-- An insert that the check would no longer admit takes its tenant over the limit. -/
theorem not_limited_of_insert (hadmits : s.stillAdmits l = false)
    (h : (subscriptions check).step s l = some s')
    (hinserted : s.db.webhooks.length < s'.db.webhooks.length) : ¬ s'.Limited := by
  intro hlimited
  obtain hsame | ⟨owner, id, hdelete⟩ | ⟨webhook, hl, hcreate⟩ := subscriptions_step h
  · rw [hsame] at hinserted
    omega
  · rw [hdelete] at hinserted
    have hfewer : (s.db.deleteWebhook owner id).1.webhooks.length ≤ s.db.webhooks.length :=
      (deleteWebhook_sublist owner id).length_le
    omega
  · rw [stillAdmits_of_inserting hl, decide_eq_false_iff_not] at hadmits
    have hbound := hlimited webhook.tenant_id
    rw [length_createWebhook hcreate, if_pos rfl] at hbound
    omega

end Steps

/-- A tenant with nine subscriptions. -/
def nineWebhooks : SubscriptionState where
  db := { Db.fresh [⟨1, "900123456"⟩] with
    webhooks := (List.range 9).map fun n => ⟨n, 1, "https://erp", "whsec_0", "*", .active⟩ }
  calls := []

theorem nineWebhooks_start : (subscriptions fun _ => .ok ()).start nineWebhooks := by
  refine ⟨fun tenant_id => ?_, rfl⟩
  rw [length_listWebhooks]
  exact List.countP_le_length.trans (by decide)

/-- The second call counts after the first has inserted. -/
def registrationsInTurn : List SubscriptionLabel :=
  [.register ⟨1, "https://erp", "*"⟩, .register ⟨1, "https://crm", "*"⟩,
    .count 0 20 "a", .create 0, .count 1 21 "b", .delete 1 3]

theorem registrationsInTurn_runs : ((subscriptions fun _ => .ok ()).run nineWebhooks
    registrationsInTurn).isSome = true := by decide +kernel

/-- Both calls count nine, then both insert. -/
def registrationsRace : List SubscriptionLabel :=
  [.register ⟨1, "https://erp", "*"⟩, .register ⟨1, "https://crm", "*"⟩,
    .count 0 20 "a", .count 1 21 "b", .create 0, .create 1]

theorem registrationsRace_runs : ((subscriptions fun _ => .ok ()).run nineWebhooks
    registrationsRace).isSome = true := by decide +kernel

end DianService
