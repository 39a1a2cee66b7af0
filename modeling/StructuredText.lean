import StructuredText.Main
import StructuredText.Element.View
import StructuredText.Proofs.Blanking.Files
import StructuredText.Proofs.Declarations.Strings
import StructuredText.Proofs.Equality.Rendering
import StructuredText.Proofs.Layout.Strings
import StructuredText.Proofs.LineEndings.Files
import StructuredText.Proofs.Ownership.Verbatim
import StructuredText.Proofs.Precedence.Expressions
import StructuredText.Proofs.Runs.Isolation
import StructuredText.Proofs.WellFormed.Files
import StructuredText.Proofs.Text.Reindentation
import StructuredText.Proofs.Grammar.Matching
import StructuredText.Proofs.Grammar.Names
import StructuredText.Proofs.Comments.Spelling
import StructuredText.Proofs.Grammar.Quotations
import StructuredText.Proofs.Comments.Marks
import StructuredText.Proofs.Literals.Spelling
import StructuredText.Proofs.Build.Decoding
import StructuredText.Proofs.Literals.Words
import StructuredText.Proofs.Literals.Durations
import StructuredText.Proofs.Literals.Kinds
import StructuredText.Proofs.Literals.Constants
import StructuredText.Proofs.Literals.Integers
import StructuredText.Proofs.Text.Bytes
import StructuredText.Proofs.Declarations.Index
import StructuredText.Proofs.Build.Surplus
import StructuredText.Proofs.Build.Conservation
import StructuredText.Proofs.Build.Chains
import StructuredText.Proofs.Positions.Verbatim
