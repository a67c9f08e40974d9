import EntityGen.Round.Expansion
import EntityGen.Round.Generation
import EntityGen.Proofs.Execution.Getting
import EntityGen.Proofs.Execution.Building
import EntityGen.Proofs.Execution.Putting
import EntityGen.Proofs.Execution.Traversal
import EntityGen.Proofs.Reading.Canonical
import EntityGen.Proofs.Reading.LastWrite
import EntityGen.Proofs.Reading.RoundTrip
import EntityGen.Proofs.Reading.Staleness
import EntityGen.Proofs.Storing.Nested
import EntityGen.Proofs.Storing.Overlay
import EntityGen.Proofs.Storing.Chains
import EntityGen.Proofs.Reading.Frame
import EntityGen.Proofs.Reading.Dependence
import EntityGen.Proofs.Reading.WriteBack
import EntityGen.Proofs.Round.References
import EntityGen.Proofs.Round.Splicing
import EntityGen.Proofs.Round.Replacing
import EntityGen.Proofs.Round.Declared
import EntityGen.Proofs.Round.InPlace
import EntityGen.Proofs.Round.Rejections
import EntityGen.Proofs.Round.Respelling
import EntityGen.Proofs.Round.Files
import EntityGen.Proofs.Round.FilesApart
import EntityGen.Proofs.Spec.Acceptance
import EntityGen.Proofs.Resolve.Classification
import EntityGen.Proofs.Resolve.Reordering
import EntityGen.Proofs.Resolve.Monotonicity
import EntityGen.Proofs.Generated.Accessors
import EntityGen.Proofs.Generated.Hygiene
import EntityGen.Proofs.Generated.Legible
import EntityGen.Proofs.Execution.Nesting
import EntityGen.Proofs.Round.Planned
import EntityGen.Proofs.Round.Expandable
import EntityGen.Proofs.Settings.Options
