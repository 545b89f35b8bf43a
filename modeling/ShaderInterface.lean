import ShaderInterface.Arithmetic.Evaluation
import ShaderInterface.Arithmetic.Token
import ShaderInterface.Fault
import ShaderInterface.Inclusion.Assembly
import ShaderInterface.Inclusion.Directory
import ShaderInterface.Inclusion.Fragment
import ShaderInterface.Inclusion.Path
import ShaderInterface.Inclusion.Provider
import ShaderInterface.Inclusion.Request
import ShaderInterface.Inclusion.Supplier
import ShaderInterface.Interface.Attribute
import ShaderInterface.Interface.Comment
import ShaderInterface.Interface.Compute
import ShaderInterface.Interface.Declaration
import ShaderInterface.Interface.Member
import ShaderInterface.Interface.Reflection
import ShaderInterface.Interface.Slot
import ShaderInterface.Macro.Arguments
import ShaderInterface.Macro.Table
import ShaderInterface.Macro.Value
import ShaderInterface.Number.Decimal
import ShaderInterface.Number.Magnitude
import ShaderInterface.Number.Nearest
import ShaderInterface.Number.Numeral
import ShaderInterface.Number.Positional
import ShaderInterface.Number.Truncation
import ShaderInterface.Preprocessing.Condition
import ShaderInterface.Preprocessing.Definition
import ShaderInterface.Preprocessing.Directive
import ShaderInterface.Preprocessing.Source
import ShaderInterface.Preprocessing.State
import ShaderInterface.Preprocessing.WholeWord
import ShaderInterface.Report
import ShaderInterface.Shader
import ShaderInterface.Stage
import ShaderInterface.Text.Alphabetic
import ShaderInterface.Text.Basic
import ShaderInterface.Text.Blank
import ShaderInterface.Text.Line
import ShaderInterface.Text.Numeric
import ShaderInterface.Text.Printable
import ShaderInterface.Text.Quoted
import ShaderInterface.Text.Ranges
import ShaderInterface.Text.Word
import ShaderInterface.Proofs.Arithmetic.Constants
import ShaderInterface.Proofs.Arithmetic.Environment
import ShaderInterface.Proofs.Arithmetic.Evaluation
import ShaderInterface.Proofs.Arithmetic.Expression
import ShaderInterface.Proofs.Arithmetic.Numeral
import ShaderInterface.Proofs.Arithmetic.Operators
import ShaderInterface.Proofs.Arithmetic.Reading
import ShaderInterface.Proofs.Arithmetic.Spacing
import ShaderInterface.Proofs.Arithmetic.Splitting
import ShaderInterface.Proofs.Arithmetic.Substitution
import ShaderInterface.Proofs.Arithmetic.Viability
import ShaderInterface.Proofs.Inclusion.Inlining
import ShaderInterface.Proofs.Inclusion.Moved
import ShaderInterface.Proofs.Inclusion.Path
import ShaderInterface.Proofs.Inclusion.Provenance
import ShaderInterface.Proofs.Inclusion.Resolution
import ShaderInterface.Proofs.Inclusion.Supplier
import ShaderInterface.Proofs.Inclusion.Walk
import ShaderInterface.Proofs.Interface.ArraySize
import ShaderInterface.Proofs.Interface.BlockGrammar
import ShaderInterface.Proofs.Interface.BlockSpacing
import ShaderInterface.Proofs.Interface.Comments
import ShaderInterface.Proofs.Interface.Entries
import ShaderInterface.Proofs.Interface.Extent
import ShaderInterface.Proofs.Interface.Grammar
import ShaderInterface.Proofs.Interface.LocationArray
import ShaderInterface.Proofs.Interface.MemberSize
import ShaderInterface.Proofs.Interface.Members
import ShaderInterface.Proofs.Interface.Progress
import ShaderInterface.Proofs.Interface.Recognition
import ShaderInterface.Proofs.Interface.Search
import ShaderInterface.Proofs.Interface.Stripping
import ShaderInterface.Proofs.Interface.Trivia
import ShaderInterface.Proofs.Interface.WorkGroup
import ShaderInterface.Proofs.Macro.Arguments
import ShaderInterface.Proofs.Macro.History
import ShaderInterface.Proofs.Macro.Number
import ShaderInterface.Proofs.Macro.Table
import ShaderInterface.Proofs.Notices
import ShaderInterface.Proofs.Number.Nearest
import ShaderInterface.Proofs.Number.Positional
import ShaderInterface.Proofs.Number.Sign
import ShaderInterface.Proofs.Number.Spelling
import ShaderInterface.Proofs.Outcome
import ShaderInterface.Proofs.Preprocessing.Balance
import ShaderInterface.Proofs.Preprocessing.Condition
import ShaderInterface.Proofs.Preprocessing.Continuation
import ShaderInterface.Proofs.Preprocessing.Document
import ShaderInterface.Proofs.Preprocessing.Frames
import ShaderInterface.Proofs.Preprocessing.Idempotence
import ShaderInterface.Proofs.Preprocessing.Plain
import ShaderInterface.Proofs.Preprocessing.Predefinition
import ShaderInterface.Proofs.Preprocessing.Relocation
import ShaderInterface.Proofs.Preprocessing.ReplacedArithmetic
import ShaderInterface.Proofs.Preprocessing.SplitDefinition
import ShaderInterface.Proofs.Preprocessing.Step
import ShaderInterface.Proofs.Preprocessing.Structure
import ShaderInterface.Proofs.Preprocessing.Substitution
import ShaderInterface.Proofs.Preprocessing.Term
import ShaderInterface.Proofs.Preprocessing.Unmentioned
import ShaderInterface.Proofs.Preprocessing.Visits
import ShaderInterface.Proofs.Text.Character
import ShaderInterface.Proofs.Text.Cuts
import ShaderInterface.Proofs.Text.Lines
import ShaderInterface.Proofs.Text.Pieces
