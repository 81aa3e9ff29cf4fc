import Presolve.CommandLine.Directory
import Presolve.Main
import Presolve.Proofs.Preparation.Additions
import Presolve.Proofs.Preparation.Degeneracy
import Presolve.Proofs.Preparation.Fields
import Presolve.Proofs.Preparation.Independence
import Presolve.Proofs.Preparation.Naming
import Presolve.Proofs.Preparation.Idempotence
import Presolve.Proofs.Problem.Restatement
import Presolve.Proofs.Record.CanonicalText
import Presolve.Proofs.Record.Outline
import Presolve.Proofs.Record.RoundTrip
import Presolve.Proofs.Solver.Points
import Presolve.Proofs.Solver.RadiusLimit
import Presolve.Proofs.Solver.Answers
import Presolve.Proofs.Solver.Settled
import Presolve.Proofs.Solver.Revision
import Presolve.Proofs.Solver.Unresolved
import Presolve.Proofs.Constraint.Flags
import Presolve.Proofs.Constraint.Intervals
import Presolve.Proofs.Preparation.Verdict
import Presolve.Proofs.Transform.Expansion
import Presolve.Proofs.Transform.Successive
import Presolve.Proofs.Transform.NormalForm
import Presolve.Proofs.Transform.NearestInBox
import Presolve.Proofs.Preparation.Classification
import Presolve.Proofs.Barrier
import Presolve.Proofs.Trace.Loggers
import Presolve.Proofs.Linear.Order
import Presolve.Proofs.Linear.Symmetric
import Presolve.Proofs.Preparation.Reordering
import Presolve.Proofs.Json.Numbers
import Presolve.Proofs.Json.RoundTrip
import Presolve.Proofs.Value.Canonical
import Presolve.Proofs.Value.Conversion
import Presolve.Proofs.Value.Shape
import Presolve.Proofs.CommandLine.Inspection
import Presolve.Proofs.Solver.OptionForms
