import DianService.Application.Destinations
import DianService.Application.DocumentId
import DianService.Application.Engine
import DianService.Application.Failures
import DianService.Application.Inbound
import DianService.Application.Issue
import DianService.Application.Probes
import DianService.Application.Processing
import DianService.Application.ProcessingCalls
import DianService.Application.Radian
import DianService.Application.Ranges
import DianService.Application.Registration
import DianService.Application.Resilience
import DianService.Application.Stored
import DianService.Application.Subscriptions
import DianService.Application.Tags
import DianService.Application.Xml
import DianService.Canonical.Attributes
import DianService.Canonical.Conformance
import DianService.Canonical.Scopes
import DianService.Canonical.Tags
import DianService.Crypto.C14n
import DianService.Crypto.Declarations
import DianService.Crypto.Identified
import DianService.Crypto.Provider
import DianService.Crypto.Rotation
import DianService.Crypto.SeenKeys
import DianService.Crypto.Serial
import DianService.Crypto.Verify
import DianService.Crypto.Wssec
import DianService.Crypto.Xades
import DianService.Crypto.XmlUtil
import DianService.Domain.Models
import DianService.Domain.Money
import DianService.Domain.Numbering
import DianService.Domain.Text
import DianService.Issue.Alone
import DianService.Issue.FreeNumbers
import DianService.Issue.Idempotency
import DianService.Issue.Identifiers
import DianService.Issue.Numbers
import DianService.Issue.Served
import DianService.Issue.Steps
import DianService.Lib.Clash
import DianService.Lib.Isolation
import DianService.Lib.Lease
import DianService.Lib.Machine
import DianService.Lib.Prog
import DianService.Lib.Radix
import DianService.Lib.Rows
import DianService.Lib.Table
import DianService.Lib.Transaction
import DianService.Lib.Xml.Canonical
import DianService.Lib.Xml.Characters
import DianService.Lib.Xml.Filled
import DianService.Lib.Xml.Lexing
import DianService.Lib.Xml.Markup
import DianService.Lib.Xml.Namespaces
import DianService.Lib.Xml.Nesting
import DianService.Lib.Xml.Reader
import DianService.Lib.Xml.Spelled
import DianService.Lib.Xml.Tokens
import DianService.Lib.Xml.Tree
import DianService.Lib.Xml.Values
import DianService.Lib.Xml.Written
import DianService.Memory.Agreement
import DianService.Memory.Atomic
import DianService.Memory.Queue
import DianService.Memory.State
import DianService.Memory.Store
import DianService.Memory.Tenants
import DianService.Platform.Events
import DianService.Platform.Issued
import DianService.Platform.Machine
import DianService.Platform.Safe
import DianService.Reading.Accepted
import DianService.Reading.Agreement
import DianService.Reading.Canonicalized
import DianService.Reading.Contents
import DianService.Reading.Issued
import DianService.Reading.Paths
import DianService.Reading.Printed
import DianService.Reading.Tags
import DianService.Signature.SignedText
import DianService.Signature.Signer
import DianService.Signature.Structure
import DianService.Soap.Client
import DianService.Soap.Response
import DianService.Store.Activation
import DianService.Store.Admin
import DianService.Store.Audit
import DianService.Store.Consistency
import DianService.Store.Deliveries
import DianService.Store.Documents
import DianService.Store.History
import DianService.Store.Isolation
import DianService.Store.Issue
import DianService.Store.Jobs
import DianService.Store.KeyMigration
import DianService.Store.Lifecycle
import DianService.Store.QueueMigration
import DianService.Store.Tables
import DianService.Store.Tenants
import DianService.Ubl.Dates
import DianService.Ubl.Generate
import DianService.Ubl.Json
import DianService.Ubl.Outlines
import DianService.Ubl.Overflow
import DianService.Ubl.Payloads
import DianService.Ubl.Payroll
import DianService.Ubl.Rates
import DianService.Ubl.Rendered
import DianService.Ubl.Subtotals
import DianService.Ubl.Sums
import DianService.Ubl.Templates
import DianService.Ubl.Texts
import DianService.Worker.Attempts
import DianService.Worker.Breakers
import DianService.Worker.Deliveries
import DianService.Worker.Frames
import DianService.Worker.Leases
import DianService.Worker.Received
import DianService.Worker.Resends
import DianService.Worker.Settled
import DianService.Worker.Signatures
import DianService.Worker.Steps
import DianService.Worker.Stranded
import DianService.Worker.System
import DianService.Worker.Tasks
import DianService.Worker.Verdicts
import DianService.Worker.Webhooks
