import DisBackend.Instruction
import DisBackend.Text.Numeral
import DisBackend.Double.Layout
import DisBackend.Text.Quoted
import DisBackend.Text.Uppercase
import DisBackend.Module.Listing
import DisBackend.Module.Validation
import DisBackend.Module.Writer
import DisBackend.Module.Reader
import DisBackend.Json.Reader
import DisBackend.Json.Writer
import DisBackend.Ssa.Json
import DisBackend.Ssa.Builder
import DisBackend.Context
import DisBackend.Lowering
import DisBackend.Linking
import DisBackend.Path
import DisBackend.Compile
import DisBackend.Toml.Reader
import DisBackend.Main
import DisBackend.Proofs.Lowering.Emission
import DisBackend.Proofs.Context
import DisBackend.Proofs.Lowering.Layout
import DisBackend.Proofs.Lowering.Slots
import DisBackend.Proofs.Semantics.Datum
import DisBackend.Proofs.Semantics.Machine
import DisBackend.Proofs.Semantics.Program
import DisBackend.Proofs.Lowering.Moves
import DisBackend.Proofs.Lowering.Representation
import DisBackend.Proofs.Lowering.Simulation
import DisBackend.Proofs.Descriptor
import DisBackend.Proofs.Lowering.Meaning
import DisBackend.Proofs.Module.Numbers
import DisBackend.Proofs.Module.Shifts
import DisBackend.Proofs.Module.Bytes
import DisBackend.Proofs.Module.Coding
import DisBackend.Proofs.Module.Parts
import DisBackend.Proofs.Module.RoundTrip
import DisBackend.Proofs.Module.Canonical
import DisBackend.Proofs.Linking.Fragments
import DisBackend.Proofs.Linking.Assembly
import DisBackend.Proofs.Linking.Relocation
import DisBackend.Proofs.Linking.Handlers
import DisBackend.Proofs.Lowering.Lines
import DisBackend.Proofs.Lowering.Output
import DisBackend.Proofs.Collector.Scope
import DisBackend.Proofs.Collector.Site
import DisBackend.Proofs.Collector.Makers
import DisBackend.Proofs.Collector.Calls
import DisBackend.Proofs.Selection
import DisBackend.Proofs.Places
import DisBackend.Proofs.Compilation
import DisBackend.Proofs.Collector.Maps
import DisBackend.Proofs.Lowering.Sections
import DisBackend.Proofs.Control.Targets
import DisBackend.Proofs.Control.Integrity
import DisBackend.Proofs.Faults.Lowering
import DisBackend.Proofs.Faults.Linking
import DisBackend.Proofs.Calls.Image
import DisBackend.Proofs.Faults.Compilation
import DisBackend.Proofs.Calls.Local
import DisBackend.Proofs.Calls.Native
import DisBackend.Proofs.Distinct
import DisBackend.Proofs.Data.Cells
import DisBackend.Proofs.Data.Layout
import DisBackend.Proofs.Data.Sharing
import DisBackend.Proofs.Data.Tables
import DisBackend.Proofs.Module.Compiled
import DisBackend.Proofs.Reordering.Parallel
import DisBackend.Proofs.Reordering.Renaming
import DisBackend.Proofs.Reordering.Lowering
import DisBackend.Proofs.Reordering.Linking
import DisBackend.Proofs.Reordering.Compilation
import DisBackend.Proofs.Module.Truncation
import DisBackend.Proofs.Module.Extent
import DisBackend.Proofs.Module.Positions
import DisBackend.Proofs.Json.Edits
import DisBackend.Proofs.Json.Programs
import DisBackend.Proofs.Json.Faithful
import DisBackend.Proofs.Lowering.Fields
import DisBackend.Proofs.Lowering.Inference
import DisBackend.Proofs.Pointers
import DisBackend.Proofs.Faults.Redefinition
import DisBackend.Proofs.Building
