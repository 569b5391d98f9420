import StateTables.Alphabet.Literal
import StateTables.Command.Directory
import StateTables.Command.Flag
import StateTables.Command.Help
import StateTables.Command.Invocation
import StateTables.Command.Run
import StateTables.Command.Settings
import StateTables.Command.Topic
import StateTables.Encoding.Basic
import StateTables.Encoding.Layout
import StateTables.Encoding.Summary
import StateTables.Format
import StateTables.Graph.Basic
import StateTables.Graph.Build
import StateTables.Graph.Dot
import StateTables.Graph.Merge
import StateTables.Graph.Validate
import StateTables.GraphFile.Basic
import StateTables.GraphFile.Build
import StateTables.KeyExpression.Parser
import StateTables.Machine.Bindings
import StateTables.Machine.Drivers
import StateTables.Machine.Stack
import StateTables.Machine.Tables
import StateTables.Main
import StateTables.Proofs.Acceptance
import StateTables.Proofs.Backtracking
import StateTables.Proofs.CharacterTokens
import StateTables.Proofs.Chunking
import StateTables.Proofs.ComparisonSource
import StateTables.Proofs.ConditionValues
import StateTables.Proofs.Confinement
import StateTables.Proofs.CoverageCheck
import StateTables.Proofs.Declarations
import StateTables.Proofs.Dispatch
import StateTables.Proofs.Elision
import StateTables.Proofs.ErrorState
import StateTables.Proofs.FileProblems
import StateTables.Proofs.KeyArithmetic
import StateTables.Proofs.KeyCongruence
import StateTables.Proofs.KeyLists
import StateTables.Proofs.Outcomes
import StateTables.Proofs.Overlaps
import StateTables.Proofs.Pending
import StateTables.Proofs.Positions
import StateTables.Proofs.RangeClauses
import StateTables.Proofs.Realization
import StateTables.Proofs.Refusals
import StateTables.Proofs.Reproduction
import StateTables.Proofs.Spaces
import StateTables.Proofs.StorageFit
import StateTables.Proofs.TableSafety
import StateTables.Proofs.Termination
import StateTables.Proofs.Tokenizing
import StateTables.Proofs.Vetoes
import StateTables.Session.Basic
import StateTables.Session.Request
import StateTables.Source.Declaration
import StateTables.Source.Expression
import StateTables.Source.Generate
import StateTables.Table.Literal
import StateTables.Text.Folding
import StateTables.Text.Identifier
import StateTables.Text.Quoted
import StateTables.Text.Tag
import StateTables.Yaml.Shape
import StateTables.Yaml.Tokenizer
