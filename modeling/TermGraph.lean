import TermGraph.EventFilter
import TermGraph.Proofs.Bounds.Anonymous
import TermGraph.Proofs.Bounds.Runs
import TermGraph.Proofs.Calls
import TermGraph.Proofs.Constraint.Canonical
import TermGraph.Proofs.Constraint.Dangling
import TermGraph.Proofs.Constraint.Plain
import TermGraph.Proofs.Expr.Congruence
import TermGraph.Proofs.Frame
import TermGraph.Proofs.Headers
import TermGraph.Proofs.Invention
import TermGraph.Proofs.Names
import TermGraph.Proofs.Types.Canonical
import TermGraph.Proofs.Types.Core
import TermGraph.Proofs.Types.Formed
import TermGraph.Proofs.Types.Qualification
import TermGraph.Proofs.Typing.Arithmetic
import TermGraph.Proofs.Typing.Runs
import TermGraph.Proofs.Value.Chains
import TermGraph.Proofs.Value.Zeroing
import TermGraph.Value.Bytes
import TermGraph.Value.Store
import TermGraph.Workspace
import TermGraph.Proofs.Value.Words
import TermGraph.Proofs.Symbols
import TermGraph.Proofs.Value.Rendering
import TermGraph.Proofs.Value.Strings
