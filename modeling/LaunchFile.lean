import LaunchFile.Attribute
import LaunchFile.Boolean
import LaunchFile.CommandLine.Answer
import LaunchFile.CommandLine.Help
import LaunchFile.CommandLine.Settings
import LaunchFile.Condition
import LaunchFile.Decimal.Float
import LaunchFile.Decimal.Integer
import LaunchFile.Decimal.Layout
import LaunchFile.Decimal.Shortest
import LaunchFile.Declaration
import LaunchFile.Dict
import LaunchFile.Disk
import LaunchFile.Effect
import LaunchFile.Element
import LaunchFile.Error
import LaunchFile.Except
import LaunchFile.Expr.Error
import LaunchFile.Expr.Eval
import LaunchFile.Expr.Integer
import LaunchFile.Expr.Lexer
import LaunchFile.Expr.Parser
import LaunchFile.Expr.Token
import LaunchFile.Expr.Tree
import LaunchFile.Expr.Value
import LaunchFile.Files
import LaunchFile.GraphName
import LaunchFile.Include
import LaunchFile.Interpreter
import LaunchFile.Location
import LaunchFile.Machine
import LaunchFile.Main
import LaunchFile.Memo
import LaunchFile.Model.Basic
import LaunchFile.Model.Json
import LaunchFile.Namespace
import LaunchFile.Node
import LaunchFile.Options
import LaunchFile.Package
import LaunchFile.Param.Spec
import LaunchFile.Param.Type
import LaunchFile.Param.Value
import LaunchFile.Path
import LaunchFile.Proofs.Anon
import LaunchFile.Proofs.Answers.Basic
import LaunchFile.Proofs.Answers.Names
import LaunchFile.Proofs.Answers.Read
import LaunchFile.Proofs.Answers.Walk
import LaunchFile.Proofs.Binding
import LaunchFile.Proofs.Decimal
import LaunchFile.Proofs.Decimal.Layout
import LaunchFile.Proofs.Decimal.Shortest
import LaunchFile.Proofs.Dict
import LaunchFile.Proofs.Distinct
import LaunchFile.Proofs.Document
import LaunchFile.Proofs.Entering
import LaunchFile.Proofs.Expr.Accepted
import LaunchFile.Proofs.Expr.Blanks
import LaunchFile.Proofs.Expr.Booleans
import LaunchFile.Proofs.Expr.Complete
import LaunchFile.Proofs.Expr.Conjunction
import LaunchFile.Proofs.Expr.Cursor
import LaunchFile.Proofs.Expr.Extremum
import LaunchFile.Proofs.Expr.Frames
import LaunchFile.Proofs.Expr.Grammar
import LaunchFile.Proofs.Expr.Height
import LaunchFile.Proofs.Expr.Integer
import LaunchFile.Proofs.Expr.Lexer
import LaunchFile.Proofs.Expr.Number
import LaunchFile.Proofs.Expr.Places
import LaunchFile.Proofs.Expr.Progress
import LaunchFile.Proofs.Expr.Related
import LaunchFile.Proofs.Expr.Repeated
import LaunchFile.Proofs.Expr.RoundTrip
import LaunchFile.Proofs.Expr.Sound
import LaunchFile.Proofs.Expr.Spelling
import LaunchFile.Proofs.Expr.Tiles
import LaunchFile.Proofs.Expr.Variable
import LaunchFile.Proofs.Expr.Written
import LaunchFile.Proofs.Extending
import LaunchFile.Proofs.Faults.Basic
import LaunchFile.Proofs.Faults.Read
import LaunchFile.Proofs.Follow
import LaunchFile.Proofs.Gate
import LaunchFile.Proofs.GraphName.Grammar
import LaunchFile.Proofs.GraphName.Inner
import LaunchFile.Proofs.GraphName.Param
import LaunchFile.Proofs.GraphName.Reroot
import LaunchFile.Proofs.GraphName.Segments
import LaunchFile.Proofs.GraphName.WellFormed
import LaunchFile.Proofs.Keeps
import LaunchFile.Proofs.Lockstep
import LaunchFile.Proofs.Machine
import LaunchFile.Proofs.Memo
import LaunchFile.Proofs.Param.Document
import LaunchFile.Proofs.Param.Leaves
import LaunchFile.Proofs.ParamNames
import LaunchFile.Proofs.Passing
import LaunchFile.Proofs.Path
import LaunchFile.Proofs.Path.Destination
import LaunchFile.Proofs.Path.Join
import LaunchFile.Proofs.Reading
import LaunchFile.Proofs.Rebinding
import LaunchFile.Proofs.Reference
import LaunchFile.Proofs.Remaps
import LaunchFile.Proofs.Renaming.Basic
import LaunchFile.Proofs.Renaming.Include
import LaunchFile.Proofs.Renaming.Read
import LaunchFile.Proofs.Renaming.Scope
import LaunchFile.Proofs.Run.AnonNames
import LaunchFile.Proofs.Run.Caches
import LaunchFile.Proofs.Run.Chain
import LaunchFile.Proofs.Run.Cycle
import LaunchFile.Proofs.Run.Defaults
import LaunchFile.Proofs.Run.Gates
import LaunchFile.Proofs.Run.Isolation
import LaunchFile.Proofs.Run.Located
import LaunchFile.Proofs.Run.Machines
import LaunchFile.Proofs.Run.Namespace
import LaunchFile.Proofs.Run.NodeParams
import LaunchFile.Proofs.Run.Parameters
import LaunchFile.Proofs.Run.Remaps
import LaunchFile.Proofs.Run.Strict
import LaunchFile.Proofs.Run.WellNamed
import LaunchFile.Proofs.Substitution.Canonical
import LaunchFile.Proofs.Substitution.Concat
import LaunchFile.Proofs.Substitution.EvalClose
import LaunchFile.Proofs.Substitution.Naming
import LaunchFile.Proofs.Substitution.Plain
import LaunchFile.Proofs.Substitution.Splice
import LaunchFile.Proofs.Substitution.Written
import LaunchFile.Proofs.Text.Parens
import LaunchFile.Proofs.Text.Trim
import LaunchFile.Proofs.Text.Words
import LaunchFile.Proofs.Typed
import LaunchFile.Proofs.Walk.Beside
import LaunchFile.Proofs.Walk.Chain
import LaunchFile.Proofs.Walk.Course
import LaunchFile.Proofs.Walk.Ending
import LaunchFile.Proofs.Walk.Failing
import LaunchFile.Proofs.Walk.Include
import LaunchFile.Proofs.Walk.Lockstep
import LaunchFile.Proofs.Walk.Moment
import LaunchFile.Proofs.Walk.Nested
import LaunchFile.Proofs.Walk.NodeParts
import LaunchFile.Proofs.Walk.Onward
import LaunchFile.Proofs.Walk.Readings
import LaunchFile.Proofs.Walk.Rebinding
import LaunchFile.Proofs.Walk.Records
import LaunchFile.Proofs.Walk.Remaps
import LaunchFile.Proofs.Walk.Run
import LaunchFile.Proofs.Walk.Scopes
import LaunchFile.Proofs.Walk.Trail
import LaunchFile.Proofs.Walk.View
import LaunchFile.Proofs.Yaml.Keys
import LaunchFile.Rosparam
import LaunchFile.Scope.Anon
import LaunchFile.Scope.Basic
import LaunchFile.Scope.Family
import LaunchFile.Substitution.Cache
import LaunchFile.Substitution.Error
import LaunchFile.Substitution.Resolve
import LaunchFile.Substitution.Segment
import LaunchFile.Text.Blank
import LaunchFile.Text.Json
import LaunchFile.Text.Property
import LaunchFile.Text.Quoted
import LaunchFile.Text.Search
import LaunchFile.Text.Utf8
import LaunchFile.Thread
import LaunchFile.Walk
import LaunchFile.World
import LaunchFile.Xml.Char
import LaunchFile.Xml.Node
import LaunchFile.Xml.Token
import LaunchFile.Yaml.Char
import LaunchFile.Yaml.Event
import LaunchFile.Yaml.Token
import LaunchFile.Yaml.Value
