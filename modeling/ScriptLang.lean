import ScriptLang.Main
import ScriptLang.Interface
import ScriptLang.Proofs.Grammar.Derivation
import ScriptLang.Proofs.Grammar.Outcome
import ScriptLang.Proofs.Grammar.Soundness
import ScriptLang.Proofs.Grammar.Completeness
import ScriptLang.Proofs.Grammar.Script
import ScriptLang.Proofs.Grammar.Room
import ScriptLang.Proofs.Grammar.Reading
import ScriptLang.Proofs.Grammar.Cost
import ScriptLang.Proofs.Grammar.LoopDepth
import ScriptLang.Proofs.Grammar.Locality
import ScriptLang.Proofs.Grammar.Prefix
import ScriptLang.Proofs.Grammar.Writing
import ScriptLang.Proofs.Grammar.RoundTrip
import ScriptLang.Proofs.Environment.Discipline
import ScriptLang.Proofs.Environment.Variables
import ScriptLang.Proofs.Environment.Copying
import ScriptLang.Proofs.Environment.Contents
import ScriptLang.Proofs.Environment.Linking
import ScriptLang.Proofs.Environment.Grafting
import ScriptLang.Proofs.Program.Conventions
import ScriptLang.Proofs.Grammar.WellFormed
import ScriptLang.Proofs.Evaluation.Leaves
import ScriptLang.Proofs.Evaluation.Scopes
import ScriptLang.Proofs.Evaluation.Observer
import ScriptLang.Proofs.Evaluation.Simulation
import ScriptLang.Proofs.Evaluation.Agreement
import ScriptLang.Proofs.Evaluation.Sessions
import ScriptLang.Proofs.Evaluation.Room
import ScriptLang.Proofs.Evaluation.WellFormedRuns
import ScriptLang.Proofs.Evaluation.Isolation
import ScriptLang.Proofs.Evaluation.Transparency
import ScriptLang.Proofs.Evaluation.Limits
import ScriptLang.Proofs.Evaluation.Termination
import ScriptLang.Proofs.Grammar.Juxtaposition
import ScriptLang.Proofs.Program.Nodes
import ScriptLang.Proofs.Evaluation.Errors
import ScriptLang.Proofs.Token.Terminal
import ScriptLang.Proofs.Token.LongestMatch
import ScriptLang.Proofs.Token.Tiling
import ScriptLang.Proofs.Evaluation.Concatenation
import ScriptLang.Proofs.CommandLine.Prompt
import ScriptLang.Proofs.Number.Sign
import ScriptLang.Proofs.Number.Nearest
import ScriptLang.Proofs.Value.Conversion
import ScriptLang.Proofs.Value.Literal
import ScriptLang.Proofs.Value.Reading
import ScriptLang.Proofs.Value.Echo
import ScriptLang.Proofs.Library.Registration
import ScriptLang.Proofs.Evaluation.Raising
import ScriptLang.Proofs.Evaluation.Tasks
import ScriptLang.Proofs.Evaluation.Location
import ScriptLang.Proofs.Token.Gaps
import ScriptLang.Proofs.Grammar.Layout
import ScriptLang.Proofs.Text.Lines
import ScriptLang.Proofs.Text.Colours
import ScriptLang.Proofs.Grammar.Places
import ScriptLang.Proofs.Diagnostic.Excerpts
import ScriptLang.Proofs.Program.Unparsing
import ScriptLang.Proofs.Program.Nesting
import ScriptLang.Proofs.Evaluation.Independence
import ScriptLang.Proofs.CommandLine.Items
import ScriptLang.Proofs.CommandLine.Commands
