import Lifecycle.Main
import Lifecycle.Proofs.Wording
import Lifecycle.Proofs.Act
import Lifecycle.Proofs.Definition
import Lifecycle.Proofs.Equality
import Lifecycle.Session
import Lifecycle.Workspace.Tree
import Lifecycle.Proofs.Resolution
import Lifecycle.Proofs.Attachment
import Lifecycle.Proofs.Run
import Lifecycle.Proofs.Gate
import Lifecycle.Proofs.Reachability
import Lifecycle.Proofs.Staging
import Lifecycle.Proofs.Persistable
import Lifecycle.Proofs.Agreement
import Lifecycle.Proofs.Forecast
import Lifecycle.Proofs.Decision
import Lifecycle.Proofs.Interchange
import Lifecycle.Proofs.Document
import Lifecycle.Proofs.WellFormed
import Lifecycle.Proofs.RoundTrip
import Lifecycle.Proofs.Provider
import Lifecycle.Proofs.Starting
import Lifecycle.Proofs.Propagation
import Lifecycle.Proofs.Activity
import Lifecycle.Proofs.Asking
import Lifecycle.Proofs.Evaluation
import Lifecycle.Proofs.Audit
import Lifecycle.Proofs.Confined
import Lifecycle.Proofs.Isolation
import Lifecycle.Proofs.PlainData
import Lifecycle.Proofs.Inheritance
import Lifecycle.Proofs.Loading
import Lifecycle.Proofs.Printing
import Lifecycle.Proofs.Answers
import Lifecycle.Proofs.CommandLine
import Lifecycle.Proofs.CommandAgreement
import Lifecycle.Proofs.Deferral
import Lifecycle.Proofs.Labels
import Lifecycle.Proofs.FieldCheck
import Lifecycle.Proofs.Latch
import Lifecycle.Proofs.Inspection
import Lifecycle.Proofs.Registry
import Lifecycle.Proofs.Reading
import Lifecycle.Proofs.Spelling
import Lifecycle.Proofs.Identifiers
import Lifecycle.Proofs.Reordering
import Lifecycle.Proofs.Arrangement
import Lifecycle.Proofs.Tracking
import Lifecycle.Proofs.Naming
import Lifecycle.Proofs.Locating
import Lifecycle.Proofs.Opening
