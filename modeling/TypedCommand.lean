import TypedCommand.Main
import TypedCommand.Proofs.Arguments.Outcome
import TypedCommand.Proofs.Interpolation
import TypedCommand.Proofs.Session
import TypedCommand.Proofs.Resolution
import TypedCommand.Proofs.Arguments.Encoding
import TypedCommand.Proofs.Declaration.Token
import TypedCommand.Proofs.Declaration.Written
import TypedCommand.Proofs.Store.Resolution
import TypedCommand.Proofs.Declaration.Help
import TypedCommand.Proofs.FileTree
import TypedCommand.Proofs.Machine
import TypedCommand.Proofs.Store.Spelling
import TypedCommand.Proofs.Interpolation.Influence
import TypedCommand.Proofs.SortedMap
import TypedCommand.Proofs.Arguments.Rearrangement
import TypedCommand.Proofs.Arguments.Truth
import TypedCommand.Proofs.Store.Canonical
import TypedCommand.Proofs.Declaration.Layout
import TypedCommand.Proofs.Template.Substitution
import TypedCommand.Proofs.Value
import TypedCommand.Proofs.Usage
import TypedCommand.Proofs.Usage.Table
import TypedCommand.Proofs.Interpolation.Default
import TypedCommand.Proofs.Parameter.Outcome
import TypedCommand.Proofs.Shell.Evaluation
import TypedCommand.Proofs.NameForest
