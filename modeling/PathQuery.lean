import PathQuery.Main
import PathQuery.Files.Tree
import PathQuery.Proofs.Expression.ErrorPlaces
import PathQuery.Proofs.Expression.Precedence
import PathQuery.Proofs.Query.Equality
import PathQuery.Proofs.Query.FixedPoint
import PathQuery.Proofs.Query.Logging
import PathQuery.Proofs.Query.Places
import PathQuery.Proofs.Query.Strictness
import PathQuery.Proofs.Eval.Descent
import PathQuery.Proofs.Eval.Methods
import PathQuery.Proofs.Eval.Paths
import PathQuery.Proofs.Eval.Preorder
import PathQuery.Proofs.Eval.Slices
import PathQuery.Proofs.Eval.Positions
import PathQuery.Proofs.Eval.ExactArithmetic
import PathQuery.Proofs.Eval.Sums
import PathQuery.Proofs.Eval.Comparisons
import PathQuery.Proofs.Eval.Sets
import PathQuery.Proofs.Eval.Unique
import PathQuery.Proofs.Eval.Extremes
import PathQuery.Proofs.Template.Escaping
import PathQuery.Proofs.Template.Limits
import PathQuery.Proofs.Template.Restoring
import PathQuery.Proofs.Template.Tightening
import PathQuery.Proofs.Template.WellNested
import PathQuery.Proofs.Template.Resolution
import PathQuery.Proofs.Template.Composition
import PathQuery.Proofs.Template.Tags
