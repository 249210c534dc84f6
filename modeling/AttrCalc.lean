import AttrCalc.Log
import AttrCalc.Main
import AttrCalc.Proofs.Eval.Derivation
import AttrCalc.Proofs.Eval.Fault
import AttrCalc.Proofs.Grammar.Follow
import AttrCalc.Render.Tree
import AttrCalc.Proofs.Eval.Numbering
import AttrCalc.Proofs.Eval.Trace
import AttrCalc.Proofs.Eval.Division
import AttrCalc.Proofs.Eval.Substitution
import AttrCalc.Proofs.Diagnostic
import AttrCalc.Proofs.Token.Stream
import AttrCalc.Proofs.Token.Layout
import AttrCalc.Proofs.Normalization
import AttrCalc.Proofs.Table.History
import AttrCalc.Proofs.Grammar.LeftRecursion
import AttrCalc.Proofs.Session
import AttrCalc.Proofs.Table.Layout
import AttrCalc.Proofs.Program
import AttrCalc.Proofs.Margin
import AttrCalc.Proofs.Expr.Walk
import AttrCalc.Proofs.Decimal.Notation
import AttrCalc.Proofs.Token.WellFormed
import AttrCalc.Proofs.Expr.Label
import AttrCalc.Proofs.Render.Dot
import AttrCalc.Proofs.Grammar.Rounds
import AttrCalc.Proofs.Token.LongestMatch
import AttrCalc.Proofs.Token.Concatenation
import AttrCalc.Proofs.Table.Names
import AttrCalc.Proofs.Eval.Numerals
import AttrCalc.Proofs.Eval.Attributes
import AttrCalc.Proofs.Expr.Listing
import AttrCalc.Proofs.Render.TreeStore
import AttrCalc.Proofs.Expr.Levels
import AttrCalc.Proofs.Table.Line
import AttrCalc.Proofs.Session.Stream
import AttrCalc.Proofs.Eval.CallStack
