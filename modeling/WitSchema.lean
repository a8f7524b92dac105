import WitSchema.Binding.Assembly
import WitSchema.Binding.Component
import WitSchema.Binding.Resolver
import WitSchema.Binding.Script
import WitSchema.Command.Files
import WitSchema.Command.Invocation
import WitSchema.Command.Run
import WitSchema.Conversion.Convert
import WitSchema.Conversion.State
import WitSchema.Error
import WitSchema.GraphQL.Completion
import WitSchema.GraphQL.Description
import WitSchema.GraphQL.Document
import WitSchema.GraphQL.Document.Reader
import WitSchema.GraphQL.Document.Token
import WitSchema.GraphQL.Execution
import WitSchema.GraphQL.Input
import WitSchema.GraphQL.Plan
import WitSchema.GraphQL.Schema
import WitSchema.GraphQL.Type
import WitSchema.GraphQL.Validity
import WitSchema.Json.Access
import WitSchema.Json.Basic
import WitSchema.Json.Display
import WitSchema.Json.Reader
import WitSchema.Main
import WitSchema.Name
import WitSchema.Notice
import WitSchema.Number.Double
import WitSchema.Number.Numeral
import WitSchema.Proofs.Binding.Complete
import WitSchema.Proofs.Binding.Contract
import WitSchema.Proofs.Binding.Executable
import WitSchema.Proofs.Binding.Exports
import WitSchema.Proofs.Binding.Integers
import WitSchema.Proofs.Binding.Locality
import WitSchema.Proofs.Binding.Marshalling
import WitSchema.Proofs.Binding.Purity
import WitSchema.Proofs.Binding.Refusal
import WitSchema.Proofs.Binding.Retrying
import WitSchema.Proofs.Binding.Roots
import WitSchema.Proofs.Binding.Source
import WitSchema.Proofs.Binding.Stopped
import WitSchema.Proofs.Casing
import WitSchema.Proofs.Command.Ending
import WitSchema.Proofs.Command.Stages
import WitSchema.Proofs.Conversion.Barred
import WitSchema.Proofs.Conversion.Clash
import WitSchema.Proofs.Conversion.Cycle
import WitSchema.Proofs.Conversion.Equation
import WitSchema.Proofs.Conversion.Extension
import WitSchema.Proofs.Conversion.Failure
import WitSchema.Proofs.Conversion.Frame
import WitSchema.Proofs.Conversion.History
import WitSchema.Proofs.Conversion.Identity
import WitSchema.Proofs.Conversion.Independence
import WitSchema.Proofs.Conversion.Keys
import WitSchema.Proofs.Conversion.Layers
import WitSchema.Proofs.Conversion.Memo
import WitSchema.Proofs.Conversion.Mirror
import WitSchema.Proofs.Conversion.Moves
import WitSchema.Proofs.Conversion.Naming
import WitSchema.Proofs.Conversion.Nesting
import WitSchema.Proofs.Conversion.Numbering
import WitSchema.Proofs.Conversion.Order
import WitSchema.Proofs.Conversion.Ownership
import WitSchema.Proofs.Conversion.Purity
import WitSchema.Proofs.Conversion.Reach
import WitSchema.Proofs.Conversion.Recipe
import WitSchema.Proofs.Conversion.Recursion
import WitSchema.Proofs.Conversion.Reduction
import WitSchema.Proofs.Conversion.Reported
import WitSchema.Proofs.Conversion.Run
import WitSchema.Proofs.Conversion.Shape
import WitSchema.Proofs.Conversion.Simulation
import WitSchema.Proofs.Conversion.Stack
import WitSchema.Proofs.Conversion.Stall
import WitSchema.Proofs.Conversion.Traversal
import WitSchema.Proofs.Conversion.TypeName
import WitSchema.Proofs.Conversion.Unfolding
import WitSchema.Proofs.GraphQL.Argument
import WitSchema.Proofs.GraphQL.Assembly
import WitSchema.Proofs.GraphQL.Completion
import WitSchema.Proofs.GraphQL.Execution
import WitSchema.Proofs.GraphQL.Nest
import WitSchema.Proofs.GraphQL.Plan
import WitSchema.Proofs.GraphQL.Separation
import WitSchema.Proofs.GraphQL.Turns
import WitSchema.Proofs.Insertion
import WitSchema.Proofs.Name
import WitSchema.Proofs.Text.OneLine
import WitSchema.Proofs.Wit.Acceptance
import WitSchema.Proofs.Wit.Alias
import WitSchema.Proofs.Wit.Chain
import WitSchema.Proofs.Wit.Grammar
import WitSchema.Proofs.Wit.Reading
import WitSchema.Proofs.Wit.Spelling
import WitSchema.Proofs.Wit.Walk
import WitSchema.Settings.Basic
import WitSchema.Settings.DotEnv
import WitSchema.Settings.Read
import WitSchema.Text.LetterCase
import WitSchema.Text.Quoted
import WitSchema.Wit.Graph
import WitSchema.Wit.Reader
