import WholeMatch.Assembly
import WholeMatch.Automaton.Basic
import WholeMatch.Automaton.Closure
import WholeMatch.Automaton.Combine
import WholeMatch.Automaton.Dump
import WholeMatch.Automaton.Edit
import WholeMatch.Automaton.Path
import WholeMatch.Automaton.Simulation
import WholeMatch.Command.Arguments
import WholeMatch.Command.Outcome
import WholeMatch.Error
import WholeMatch.Expr.Automaton
import WholeMatch.Expr.Basic
import WholeMatch.Expr.Factor
import WholeMatch.Expr.Language
import WholeMatch.Infix.Grammar
import WholeMatch.Infix.Reading
import WholeMatch.Infix.Symbol
import WholeMatch.Journal
import WholeMatch.Main
import WholeMatch.Pattern
import WholeMatch.Postorder
import WholeMatch.Text.CharClass
import WholeMatch.Text.Extender
import WholeMatch.Text.Numeral
import WholeMatch.Text.Quoted
import WholeMatch.Text.Unprintable
import WholeMatch.Token
import WholeMatch.Proofs.Closure
import WholeMatch.Proofs.Simulation
import WholeMatch.Proofs.Operand
import WholeMatch.Proofs.Reduction
import WholeMatch.Proofs.Language
import WholeMatch.Proofs.Derivation
import WholeMatch.Proofs.Matching
import WholeMatch.Proofs.Recovery
import WholeMatch.Proofs.Regrouping
import WholeMatch.Proofs.Limit
import WholeMatch.Proofs.Layout
import WholeMatch.Proofs.Counting
import WholeMatch.Proofs.Segments
import WholeMatch.Proofs.Shape
import WholeMatch.Proofs.Room
import WholeMatch.Proofs.Stopping
import WholeMatch.Proofs.Conservation
import WholeMatch.Proofs.Building
import WholeMatch.Proofs.Outcome
import WholeMatch.Proofs.Growth
import WholeMatch.Proofs.LastToken
import WholeMatch.Proofs.Parentheses
import WholeMatch.Proofs.Due
import WholeMatch.Proofs.Waiting
import WholeMatch.Proofs.Emission
import WholeMatch.Proofs.Substitution
import WholeMatch.Proofs.Rereading
import WholeMatch.Proofs.Worklist
import WholeMatch.Proofs.Unquoting
import WholeMatch.Proofs.Dump
import WholeMatch.Proofs.Persistence
