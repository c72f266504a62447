import Scoresheet.Command
import Scoresheet.Main
import Scoresheet.Proofs.Placing
import Scoresheet.Proofs.Lookup
import Scoresheet.Proofs.Binding
import Scoresheet.Proofs.Reading
import Scoresheet.Proofs.Agreeing
import Scoresheet.Proofs.Accepting
import Scoresheet.Proofs.Running
import Scoresheet.Proofs.Naming
import Scoresheet.Proofs.Settling
import Scoresheet.Proofs.Linting
import Scoresheet.Proofs.Strictness
import Scoresheet.Proofs.Reordering
import Scoresheet.Proofs.Calling
import Scoresheet.Proofs.Faults
import Scoresheet.Proofs.Normalizing
import Scoresheet.Proofs.Owning
import Scoresheet.Proofs.Sandboxing
import Scoresheet.Proofs.Crashing
import Scoresheet.Proofs.Counting
import Scoresheet.Proofs.Measuring
import Scoresheet.Proofs.Cycles
import Scoresheet.Proofs.History
import Scoresheet.Proofs.Deriving
import Scoresheet.Proofs.Heights
import Scoresheet.Proofs.Parsing
import Scoresheet.Proofs.Ordering
import Scoresheet.Proofs.Whole
import Scoresheet.Proofs.Canonical
import Scoresheet.Proofs.Documents
import Scoresheet.Proofs.Retaining
import Scoresheet.Proofs.Referring
import Scoresheet.Proofs.Trampolines
import Scoresheet.Proofs.Panels
import Scoresheet.Proofs.Seating
import Scoresheet.Proofs.Guards
import Scoresheet.Proofs.Positions
import Scoresheet.Proofs.Ranges
import Scoresheet.Proofs.Evaluating
import Scoresheet.Proofs.Guarding
import Scoresheet.Proofs.Releasing
import Scoresheet.Proofs.Safety
import Scoresheet.Proofs.Covering
import Scoresheet.Proofs.Reducing
import Scoresheet.Proofs.Spelling
import Scoresheet.Proofs.Rounding
import Scoresheet.Proofs.Executing
import Scoresheet.Proofs.Depending
import Scoresheet.Proofs.Restricting
import Scoresheet.Proofs.Windows
import Scoresheet.Proofs.Finite
import Scoresheet.Proofs.Standings
import Scoresheet.Proofs.Trimming
import Scoresheet.Proofs.Exact
import Scoresheet.Proofs.Extremes
import Scoresheet.Proofs.Raising
import Scoresheet.Proofs.Forgetting
import Scoresheet.Proofs.Blocking
import Scoresheet.Proofs.Picking
import Scoresheet.Proofs.Ties
import Scoresheet.Proofs.Maxima
import Scoresheet.Proofs.Halving
import Scoresheet.Proofs.Assigning
import Scoresheet.Proofs.Scanning
import Scoresheet.Proofs.Layers
