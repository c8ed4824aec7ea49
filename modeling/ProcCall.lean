import ProcCall.Binding.Target
import ProcCall.Json.Reader
import ProcCall.Log.Logger
import ProcCall.Slot.Grammar
import ProcCall.Token.Canonical
import ProcCall.Proofs.Outcomes
import ProcCall.Proofs.Runs
import ProcCall.Proofs.Targets
import ProcCall.Proofs.Faithful
import ProcCall.Proofs.Outputs
import ProcCall.Proofs.Reports
import ProcCall.Proofs.Lexemes
import ProcCall.Proofs.Machine
import ProcCall.Proofs.Phrases
import ProcCall.Proofs.Rendering
import ProcCall.Proofs.Arguments
import ProcCall.Proofs.Heads
import ProcCall.Proofs.Fidelity
import ProcCall.Proofs.Acceptance
import ProcCall.Proofs.Lossless
import ProcCall.Proofs.Occurrences
import ProcCall.Proofs.Walks
import ProcCall.Proofs.Splitting
import ProcCall.Proofs.Reprinting
import ProcCall.Proofs.Balance
import ProcCall.Proofs.Records
import ProcCall.Proofs.ReadBack
import ProcCall.Proofs.Confinement
import ProcCall.Proofs.Faults
import ProcCall.Proofs.Passing
import ProcCall.Proofs.Rearranging
import ProcCall.Proofs.Naming
import ProcCall.Proofs.Growing
import ProcCall.Proofs.Prefixes
import ProcCall.Proofs.Spacing
import ProcCall.Proofs.Joining
import ProcCall.Proofs.Quoting
import ProcCall.Proofs.SlotFormat
import ProcCall.Proofs.Viability
import ProcCall.Proofs.Marking
import ProcCall.Proofs.Brackets
import ProcCall.Proofs.NameSpans
import ProcCall.Proofs.Collapsing
import ProcCall.Proofs.DottedPaths
import ProcCall.Proofs.Casing
import ProcCall.Proofs.Separators
import ProcCall.Proofs.Updates
import ProcCall.Proofs.LiteralKinds
import ProcCall.Proofs.WrittenPaths
import ProcCall.Proofs.QualifiedNames
import ProcCall.Proofs.PathReading
