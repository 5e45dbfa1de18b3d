import AtomicStyle.Main
import AtomicStyle.Proofs.Css.Agreement
import AtomicStyle.Proofs.Css.CanonicalDuration
import AtomicStyle.Proofs.Css.Report
import AtomicStyle.Proofs.Digest.Separation
import AtomicStyle.Proofs.Digest.Unbounded
import AtomicStyle.Proofs.Direction.Involution
import AtomicStyle.Proofs.Direction.Modes
import AtomicStyle.Proofs.Direction.Respacing
import AtomicStyle.Proofs.Direction.Unflipped
import AtomicStyle.Proofs.Document.Lines
import AtomicStyle.Proofs.Keyframes.Grammar
import AtomicStyle.Proofs.Merging.Run
import AtomicStyle.Proofs.Namespace.ClassMap
import AtomicStyle.Proofs.Property.CamelCase
import AtomicStyle.Proofs.Property.Content
import AtomicStyle.Proofs.Rule.Body
import AtomicStyle.Proofs.Rule.Decoding
import AtomicStyle.Proofs.Rule.Naming
import AtomicStyle.Proofs.Rule.Selector
import AtomicStyle.Proofs.Rule.Shorthand
import AtomicStyle.Proofs.Sheet.Priority
import AtomicStyle.Proofs.Strictness
import AtomicStyle.Trace.Lemmas
import AtomicStyle.Proofs.Number.NormalForm
