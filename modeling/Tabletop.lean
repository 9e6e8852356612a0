import Tabletop.Fragment
import Tabletop.Main
import Tabletop.Proofs.RoundTrip
import Tabletop.Proofs.ErrorPosition
import Tabletop.Proofs.Consistency
import Tabletop.Proofs.Limit
import Tabletop.Proofs.Batch
import Tabletop.Proofs.GroupFlag
import Tabletop.Proofs.Domination
import Tabletop.Proofs.Reordering
import Tabletop.Proofs.Parts
import Tabletop.Proofs.ErrorSpan
import Tabletop.Proofs.Trace
import Tabletop.Proofs.Leading
import Tabletop.Proofs.Refusals
import Tabletop.Proofs.Cutoff
import Tabletop.Proofs.Parenthesised
import Tabletop.Proofs.Nonnegative
import Tabletop.Proofs.Counting
import Tabletop.Proofs.Respaced
import Tabletop.Proofs.Locality
import Tabletop.Proofs.Cursor
import Tabletop.Proofs.Fragment
import Tabletop.Proofs.Overflow
import Tabletop.Proofs.Coverage
import Tabletop.Proofs.Console
import Tabletop.Proofs.Choice
import Tabletop.Proofs.Marking
import Tabletop.Proofs.Matching
import Tabletop.Proofs.Signed
import Tabletop.Proofs.Search
import Tabletop.Proofs.Extraction
import Tabletop.Proofs.Division
import Tabletop.Proofs.SafeTotal
import Tabletop.Proofs.Markup
