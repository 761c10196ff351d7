import WorldModel.Formula.Numbering
import WorldModel.Main
import WorldModel.Number.RoundTrip
import WorldModel.Proofs.World.Store
import WorldModel.Proofs.Formula.Term
import WorldModel.Proofs.Formula.Unfold
import WorldModel.Proofs.World.Shape
import WorldModel.Proofs.SExpr.Form
import WorldModel.Proofs.SExpr.Lexemes
import WorldModel.Proofs.SExpr.Balance
import WorldModel.Proofs.Problem.Reading
import WorldModel.Proofs.Problem.Sections
import WorldModel.Proofs.World.Contingent
import WorldModel.Proofs.World.Goal
import WorldModel.Proofs.World.Cascade
import WorldModel.Proofs.Problem.Words
import WorldModel.Proofs.Problem.Retype
import WorldModel.Proofs.Problem.Written
import WorldModel.Proofs.Problem.Reread
import WorldModel.Proofs.Problem.Reprinted
import WorldModel.Proofs.Problem.Content
import WorldModel.Proofs.World.ProblemText
import WorldModel.Proofs.World.Imported
import WorldModel.Proofs.World.FixedPoint
import WorldModel.Proofs.Formula.Forest
import WorldModel.Proofs.Formula.Builders
import WorldModel.Proofs.Formula.Paths
import WorldModel.Proofs.World.Reply
import WorldModel.Proofs.World.Atomic
import WorldModel.Proofs.World.Respelling
import WorldModel.Proofs.Problem.Alike
import WorldModel.Proofs.World.Named
import WorldModel.Proofs.World.ReadBack
import WorldModel.Proofs.World.Truth
import WorldModel.Proofs.World.Checked
import WorldModel.Proofs.World.Duplicates
import WorldModel.Proofs.World.Accounting
import WorldModel.Proofs.World.Reimport
import WorldModel.Proofs.Results
import WorldModel.Proofs.Domain.Hierarchy
import WorldModel.Proofs.Domain.Described
import WorldModel.Proofs.World.Lookup
import WorldModel.Proofs.World.Commute
import WorldModel.Proofs.World.Settling
import WorldModel.Proofs.Number.Equality
import WorldModel.Proofs.Formula.Below
import WorldModel.Proofs.Formula.Exchange
import WorldModel.Proofs.Formula.Matching
import WorldModel.Proofs.Formula.Grafting
import WorldModel.Proofs.Formula.Extraction
import WorldModel.Proofs.World.Monotone
import WorldModel.Proofs.SExpr.Comments
import WorldModel.Proofs.World.SameKnown
import WorldModel.Proofs.SExpr.Printed
import WorldModel.Proofs.Problem.Coverage
import WorldModel.Proofs.World.AtomText
import WorldModel.Proofs.Formula.Layout
import WorldModel.Proofs.Problem.ObjectList
