import FixtureLiterals.Document.Suites
import FixtureLiterals.Fixture
import FixtureLiterals.Proofs.Fitting.Fields
import FixtureLiterals.Proofs.Fitting.Success
import FixtureLiterals.Proofs.Schema.Memberwise
import FixtureLiterals.Proofs.Fitting.Records
import FixtureLiterals.Proofs.Binary64.Range
import FixtureLiterals.Proofs.Fitting.Acceptance
import FixtureLiterals.Proofs.Literal.WellFormed
import FixtureLiterals.Proofs.Literal.Raising
import FixtureLiterals.Proofs.Literal.Normalising
import FixtureLiterals.Proofs.Binary64.Nearest
import FixtureLiterals.Proofs.Text.Numerals
import FixtureLiterals.Proofs.Binary64.Written
import FixtureLiterals.Proofs.Emission.Names
import FixtureLiterals.Proofs.Emission.Quoted
import FixtureLiterals.Proofs.Emission.Blocks
import FixtureLiterals.Proofs.Emission.Alike
import FixtureLiterals.Proofs.Emission.Parts
import FixtureLiterals.Proofs.Emission.GoParts
import FixtureLiterals.Proofs.Emission.Go
import FixtureLiterals.Proofs.Emission.RustParts
import FixtureLiterals.Proofs.Emission.RustRecords
import FixtureLiterals.Proofs.Emission.Rust
import FixtureLiterals.Proofs.Emission.Determined
import FixtureLiterals.Proofs.Emission.Nodes
import FixtureLiterals.Proofs.Document.Declarations
import FixtureLiterals.Proofs.Fitting.Surroundings
import FixtureLiterals.Proofs.Schema.Evolution
import FixtureLiterals.Proofs.Fitting.Evolution
import FixtureLiterals.Proofs.Fitting.Routes
import FixtureLiterals.Proofs.Fitting.Failures
import FixtureLiterals.Proofs.Fitting.Localisation
import FixtureLiterals.Proofs.Binary64.Whole
import FixtureLiterals.Proofs.Document.Quoted
import FixtureLiterals.Proofs.Document.Tokens
import FixtureLiterals.Proofs.Document.Trees
import FixtureLiterals.Proofs.Document.Drafts
import FixtureLiterals.Proofs.Document.Recovery
import FixtureLiterals.Proofs.Document.Structures
import FixtureLiterals.Proofs.Document.HandleDrafts
import FixtureLiterals.Proofs.Document.ValueDrafts
import FixtureLiterals.Proofs.Document.DeclarationDrafts
import FixtureLiterals.Proofs.Document.RoundTrip
import FixtureLiterals.Proofs.Schema.Ranges
import FixtureLiterals.Proofs.Literal.Handles
import FixtureLiterals.Proofs.Fixture.Cases
import FixtureLiterals.Proofs.Fixture.Validation
import FixtureLiterals.Proofs.Fixture.Suites
import FixtureLiterals.Proofs.Fitting.Likeness
import FixtureLiterals.Proofs.Fitting.Rearrangement
import FixtureLiterals.Proofs.Emission.Signedness
import FixtureLiterals.Proofs.Emission.GoOpenings
import FixtureLiterals.Proofs.Emission.GoStrings
import FixtureLiterals.Proofs.Emission.Absence
import FixtureLiterals.Proofs.Emission.ListHeaders
import FixtureLiterals.Proofs.Emission.Translation
import FixtureLiterals.Proofs.Emission.Members
import FixtureLiterals.Proofs.Emission.Collisions
import FixtureLiterals.Proofs.Emission.ByteLayout
import FixtureLiterals.Proofs.Binary64.Rounding
import FixtureLiterals.Proofs.Emission.GoFloats
import FixtureLiterals.Proofs.Fitting.Rights
import FixtureLiterals.Proofs.Emission.Rights
import FixtureLiterals.Proofs.Emission.Strings
import FixtureLiterals.Proofs.Emission.GoSource
import FixtureLiterals.Proofs.Emission.GoLegality
import FixtureLiterals.Proofs.Fitting.Places
import FixtureLiterals.Proofs.Text.Humps
import FixtureLiterals.Proofs.Text.Scanning
import FixtureLiterals.Proofs.Text.Acronyms
import FixtureLiterals.Proofs.Emission.HandleCollections
