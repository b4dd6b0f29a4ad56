import Stepwise.Codec.Forms
import Stepwise.Config.Document
import Stepwise.Program.Lemmas
import Stepwise.Proofs.Account
import Stepwise.Proofs.Binary64
import Stepwise.Proofs.Bridge
import Stepwise.Proofs.Calls
import Stepwise.Proofs.Channels
import Stepwise.Proofs.Composition
import Stepwise.Proofs.Concatenation
import Stepwise.Proofs.Containment
import Stepwise.Proofs.Counters
import Stepwise.Proofs.Course
import Stepwise.Proofs.Direct
import Stepwise.Proofs.Dispatch
import Stepwise.Proofs.Drafts
import Stepwise.Proofs.Drive
import Stepwise.Proofs.Emissions
import Stepwise.Proofs.EnteredSpans
import Stepwise.Proofs.Exhaustive
import Stepwise.Proofs.Failing
import Stepwise.Proofs.FirstFailure
import Stepwise.Proofs.Frame
import Stepwise.Proofs.Genuine
import Stepwise.Proofs.Grammar
import Stepwise.Proofs.History
import Stepwise.Proofs.Honesty
import Stepwise.Proofs.Interchange
import Stepwise.Proofs.Interleaving
import Stepwise.Proofs.Logbook
import Stepwise.Proofs.Malformed
import Stepwise.Proofs.MirroredRuns
import Stepwise.Proofs.Mirrors
import Stepwise.Proofs.NestedTraces
import Stepwise.Proofs.Nesting
import Stepwise.Proofs.OneShot
import Stepwise.Proofs.Outlined
import Stepwise.Proofs.OutlinedTraces
import Stepwise.Proofs.Outputs
import Stepwise.Proofs.Overrides
import Stepwise.Proofs.Passages
import Stepwise.Proofs.Performed
import Stepwise.Proofs.Performing
import Stepwise.Proofs.Plan
import Stepwise.Proofs.Position
import Stepwise.Proofs.Provenance
import Stepwise.Proofs.Recording
import Stepwise.Proofs.Regimes
import Stepwise.Proofs.Repetition
import Stepwise.Proofs.Reporting
import Stepwise.Proofs.Retained
import Stepwise.Proofs.Scripts
import Stepwise.Proofs.Sequencing
import Stepwise.Proofs.Settlements
import Stepwise.Proofs.Spans
import Stepwise.Proofs.StepMaps
import Stepwise.Proofs.Tasks
import Stepwise.Proofs.Told
import Stepwise.Proofs.TraceOfRun
import Stepwise.Proofs.Turns
import Stepwise.Proofs.Unbuilt
import Stepwise.Proofs.Unheard
import Stepwise.Proofs.Unseen
import Stepwise.Proofs.Untraced
import Stepwise.Proofs.Verdicts
import Stepwise.Proofs.Watching
import Stepwise.Proofs.WellFormed
import Stepwise.Proofs.Workshops
import Stepwise.Proofs.WrittenForms
import Stepwise.Session.OneFlow
import Stepwise.Session.OneSequence
import Stepwise.Session.OneShot
import Stepwise.Session.OneStep
import Stepwise.Value.Reader
