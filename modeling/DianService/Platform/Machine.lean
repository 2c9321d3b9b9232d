import DianService.Application.Engine
import DianService.Application.Radian
import DianService.Issue.Served
import DianService.Store.Isolation
import DianService.Worker.Received

/-
  Platform: the API beside the workers, over one database. Tenants issue documents, register the
  invoices they receive and send RADIAN events, all interleaved with the steps of the system. An
  insertion of a received invoice is one statement, before which nothing of the database is read;
  an event is a program whose calls interleave with everything else.

  `registrations` is history only: the insertions that `register_verified` has made.
-/

namespace DianService

open Lib Lib.Prog Lib.Checked Lib.Xml

/-- What the platform is set up with. `reader` stands for `quick_xml`. -/
structure PlatformConfig where
  issuing : IssueService
  codes : Ubl.Codes
  compress : String → String → String → Int → Except String (List UInt8 × String)
  processing : ProcessorConfig
  reader : String → EventStream Tag Leaf
  dian_signer_subject : Option String

namespace PlatformConfig

variable (c : PlatformConfig)

def ubl : UblEngine := ublEngine c.issuing.arithmetic c.codes c.issuing.floats c.compress

/-- `verify` is what the verifier replies during one call. -/
def inbound (verify : String → Except DomainError String) : InboundService where
  reader := c.reader
  verification := c.dian_signer_subject.map fun subject => ⟨verify, subject⟩

end PlatformConfig

/-- A `register_event` in course. -/
structure EventTask where
  issuer : EventIssuer
  document_id : Uuid
  request : RadianEventRequest
  history : RadianHistory
  rest : Prog RadianCall RadianReply (Except DomainError RadianEventOutcome)

/-- A row that `register_verified` has inserted. -/
structure RegisteredInvoice where
  tenant : Tenant
  attached_xml : String
  verify : String → Except DomainError String
  document : NewInboundDocument
  now : Time

def RegisteredInvoice.row (r : RegisteredInvoice) : Document := r.document.row r.now

structure Platform where
  system : System
  events : List EventTask
  registrations : List RegisteredInvoice

/-- Everything about a call of `register_event` that the code does not decide. -/
structure EventWorld where
  port : World
  answer : Except DomainError DianResponse

def EventWorld.apply (w : EventWorld) (db : Db) (now : Time) : (c : RadianCall) → Db × RadianReply c
  | .port c => w.port.apply db now c
  | .findTenantDocument tenant_id id =>
      match w.port.fault with
      | .none => (db, .ok (db.findTenantDocument tenant_id id))
      | .failed message | .lost message => (db, .error (.database message))
  | .sendEventUpdateStatus .. => (db, w.answer)

/-- The insertion, and whether the row is there because of it. -/
def Db.insertReceived (db : Db) (document : NewInboundDocument) (now : Time) (fault : Fault) :
    Db × Bool :=
  match fault with
  | .failed _ => (db, false)
  | .none | .lost _ =>
      match db.insertInbound document now with
      | .ok r => r
      | .error _ => (db, false)

inductive PlatformAction where
  | system (a : SystemAction)
  | issue (tenant_id : Uuid) (payload : Ubl.Payload) (idempotency_key : Option String) (draw : Draw)
      (times : List Time)
  | registerVerified (tenant_id : Uuid) (attached_xml : String) (id : Uuid)
      (verify : String → Except DomainError String) (fault : Fault)
  | registerUnverified (tenant_id : Uuid) (xml : String) (id : Uuid) (fault : Fault)
  | registerEvent (tenant_id : Uuid) (registration_name : String) (document_id : Uuid)
      (request : RadianEventRequest)
  | answerEvent (i : Nat) (w : EventWorld)
  | dropEvent (i : Nat)

/-- Documents are issued by `IssueService` only. -/
def SystemAction.isIssue : SystemAction → Bool
  | .issueOutbound .. => true
  | _ => false

namespace Platform

variable (c : PlatformConfig)

def inSystem (s : Platform) (system : System) : Platform := { s with system := system }

def inDb (s : Platform) (db : Db) : Platform := s.inSystem { s.system with db := db }

/-- The tenant that a caller is authenticated as. -/
def tenant? (s : Platform) (id : Uuid) : Option Tenant :=
  s.system.db.tenants.find? fun t => t.id = id

def step (s : Platform) : PlatformAction → Option Platform
  | .system a =>
      if a.isIssue then none
      else (systemStep c.ubl c.processing s.system a).map s.inSystem
  | .issue tenant_id payload idempotency_key draw times =>
      match s.tenant? tenant_id with
      | none => none
      | some tenant =>
          match (c.issuing.issuePayload tenant payload idempotency_key draw).run with
          | some (.ok r) => some (s.inDb (s.system.db.issueOutbound r times))
          | _ => some s
  | .registerVerified tenant_id attached_xml id verify fault =>
      match s.tenant? tenant_id with
      | none => none
      | some tenant =>
          match (c.inbound verify).verifiedDocument tenant id attached_xml with
          | .error _ => some s
          | .ok (document, _) =>
              let (db, inserted) := s.system.db.insertReceived document s.system.now fault
              some { s.inDb db with
                registrations := s.registrations ++
                  if inserted then [⟨tenant, attached_xml, verify, document, s.system.now⟩] else [] }
  | .registerUnverified tenant_id xml id fault =>
      match s.tenant? tenant_id with
      | none => none
      | some tenant =>
          match InboundService.unverifiedDocument tenant id xml with
          | .error _ => some s
          | .ok (document, _) =>
              some (s.inDb (s.system.db.insertReceived document s.system.now fault).1)
  | .registerEvent tenant_id registration_name document_id request =>
      match s.tenant? tenant_id with
      | none => none
      | some tenant =>
          let issuer : EventIssuer := ⟨tenant, registration_name⟩
          some { s with events := s.events ++ [⟨issuer, document_id, request, [],
            (registerEvent c.codes c.compress issuer document_id request).run⟩] }
  | .answerEvent i w =>
      match s.events[i]? with
      | none => none
      | some t =>
          match t.rest with
          | .done _ => none
          | .call asked k =>
              let (db, r) := w.apply s.system.db s.system.now asked
              some { s.inDb db with
                events := s.events.set i { t with history := t.history ++ [⟨asked, r⟩], rest := k r } }
  | .dropEvent i =>
      match s.events[i]? with
      | none => none
      | some _ => some { s with events := s.events.eraseIdx i }

end Platform

def platform (c : PlatformConfig) : Machine Platform PlatformAction where
  start s := ∃ tenants now, s = ⟨⟨Db.fresh tenants, now, [], [], []⟩, [], []⟩
  step := Platform.step c

end DianService
