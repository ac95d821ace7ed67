import ShaderCompat.Check
import ShaderCompat.Checker
import ShaderCompat.Diagnostic
import ShaderCompat.Directive
import ShaderCompat.Document
import ShaderCompat.Document.Diagnostic
import ShaderCompat.Document.Extension
import ShaderCompat.Document.Options
import ShaderCompat.Document.Text
import ShaderCompat.Event
import ShaderCompat.Extension.Behavior
import ShaderCompat.Extension.Catalog
import ShaderCompat.Extension.Id
import ShaderCompat.Extension.Pool
import ShaderCompat.Extension.Registry
import ShaderCompat.Gate.Extension
import ShaderCompat.Gate.Language
import ShaderCompat.Gate.Scalar
import ShaderCompat.Gate.Target
import ShaderCompat.Json
import ShaderCompat.Json.Format
import ShaderCompat.Json.Printer
import ShaderCompat.Json.Reader
import ShaderCompat.Location
import ShaderCompat.Options
import ShaderCompat.Preamble
import ShaderCompat.Profile
import ShaderCompat.Proofs.Extension.Interning
import ShaderCompat.Proofs.Reporting
import ShaderCompat.Proofs.Session.Effect
import ShaderCompat.Radix
import ShaderCompat.Session
import ShaderCompat.Signal
import ShaderCompat.Stage
import ShaderCompat.Target
import ShaderCompat.Yaml
import ShaderCompat.Yaml.Format
import ShaderCompat.Yaml.Reader
import ShaderCompat.Yaml.Scalar
import ShaderCompat.Yaml.Text
import ShaderCompat.Yaml.Token
import ShaderCompat.Proofs.Session.ErrorHistory
import ShaderCompat.Proofs.Extension.Implication
import ShaderCompat.Proofs.Extension.Recording
import ShaderCompat.Proofs.Session.Overflow
import ShaderCompat.Proofs.Session.Declarations
import ShaderCompat.Proofs.Retag
import ShaderCompat.Proofs.Session.Retag
import ShaderCompat.Proofs.Gate.Parts
import ShaderCompat.Proofs.Gate.Congruence
import ShaderCompat.Proofs.Gate.Relaxed
import ShaderCompat.Proofs.Session.Relaxed
import ShaderCompat.Proofs.Session.Suppressed
import ShaderCompat.Proofs.Extension.Aliasing
import ShaderCompat.Proofs.Gate.Refusal
import ShaderCompat.Proofs.Session.Refusal
import ShaderCompat.Proofs.Extension.Remarks
import ShaderCompat.Proofs.Session.CleanUnit
import ShaderCompat.Proofs.Extension.Isolation
import ShaderCompat.Proofs.Extension.Copies
import ShaderCompat.Proofs.Extension.Reports
import ShaderCompat.Proofs.Session.KnownNames
import ShaderCompat.Proofs.Session.Directive
import ShaderCompat.Proofs.Gate.ErrorCount
import ShaderCompat.Proofs.Gate.Availability
import ShaderCompat.Proofs.Session.View
import ShaderCompat.Proofs.Session.Purity
import ShaderCompat.Proofs.Gate.Entries
import ShaderCompat.Proofs.Session.Support
import ShaderCompat.Proofs.Session.Deprecation
import ShaderCompat.Proofs.Session.Tracing
import ShaderCompat.Proofs.Session.Cursors
import ShaderCompat.Proofs.Session.Includes
import ShaderCompat.Proofs.Gate.Version
import ShaderCompat.Proofs.Gate.Tolerance
import ShaderCompat.Proofs.Gate.Scalar
import ShaderCompat.Proofs.Json.Grammar
import ShaderCompat.Proofs.Json.Reading
import ShaderCompat.Proofs.Json.Printing
import ShaderCompat.Proofs.Document.Fields
import ShaderCompat.Proofs.Document.KnownFields
import ShaderCompat.Proofs.Document.Diagnostic
import ShaderCompat.Proofs.Document.Loaders
import ShaderCompat.Proofs.Preamble
import ShaderCompat.Proofs.Session.Preamble
import ShaderCompat.Proofs.Gate.Denial
import ShaderCompat.Proofs.Gate.Masks
import ShaderCompat.Proofs.Session.EventLog
