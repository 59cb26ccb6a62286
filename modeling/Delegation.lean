import Delegation.Child
import Delegation.Container
import Delegation.Derive
import Delegation.Effect
import Delegation.Effect.Stack
import Delegation.Failure
import Delegation.Field
import Delegation.Method
import Delegation.Model.Fleet
import Delegation.Model.Flight
import Delegation.Model.Script
import Delegation.Modifier
import Delegation.Options
import Delegation.Proofs.Additions
import Delegation.Proofs.Arrangement.Directive
import Delegation.Proofs.Arrangement.Field
import Delegation.Proofs.CamelCase
import Delegation.Proofs.Choice
import Delegation.Proofs.Clear
import Delegation.Proofs.Constructor
import Delegation.Proofs.Decoration
import Delegation.Proofs.Depth.Rules
import Delegation.Proofs.Eligible
import Delegation.Proofs.Fallible
import Delegation.Proofs.Faults
import Delegation.Proofs.Handover
import Delegation.Proofs.Idempotence
import Delegation.Proofs.Independence
import Delegation.Proofs.Library
import Delegation.Proofs.Mistakes
import Delegation.Proofs.Naming
import Delegation.Proofs.Places
import Delegation.Proofs.Rank
import Delegation.Proofs.Reach
import Delegation.Proofs.Reading
import Delegation.Proofs.Rendering
import Delegation.Proofs.Settling
import Delegation.Proofs.SharedReference
import Delegation.Proofs.Spared
import Delegation.Proofs.Stages
import Delegation.Proofs.StateType
import Delegation.Proofs.Together
import Delegation.Proofs.Trace
import Delegation.Proofs.Variants
import Delegation.Proofs.Written
import Delegation.Reducer
import Delegation.Store
import Delegation.Syntax.Attribute
import Delegation.Syntax.Basic
import Delegation.Syntax.Expression
import Delegation.Syntax.Generics
import Delegation.Syntax.Grammar
import Delegation.Syntax.Item
import Delegation.Syntax.Path
import Delegation.Syntax.Pattern
import Delegation.Syntax.Reader
import Delegation.Syntax.Rules
import Delegation.Syntax.Stream
import Delegation.Syntax.Struct
import Delegation.Syntax.Type
import Delegation.Text.CamelCase
import Delegation.Text.IdentChar
import Delegation.Text.Quoted
import Delegation.Token.Basic
import Delegation.Token.Lexer
import Delegation.Token.Literal
import Delegation.Token.Printer
import Delegation.VariantName
