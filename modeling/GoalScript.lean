import GoalScript.Text.Case
import GoalScript.Text.Blank
import GoalScript.Text.Alphabet
import GoalScript.Number.Layout
import GoalScript.Number.Reader
import GoalScript.Calendar.Pattern
import GoalScript.Json.Reader
import GoalScript.Json.Writer
import GoalScript.Suggestion
import GoalScript.Digest
import GoalScript.Value.Json
import GoalScript.Goal.File
import GoalScript.Plan.Parser
import GoalScript.Query
import GoalScript.Capability
import GoalScript.Memory.Text
import GoalScript.Memory.Write
import GoalScript.Run.Session
import GoalScript.Pool.Json
import GoalScript.Plan.Json
import GoalScript.Memory.Json
import GoalScript.Run.Json
import GoalScript.Config.File
import GoalScript.Command.Execution
import GoalScript.Main
import GoalScript.Proofs.Restoration
import GoalScript.Proofs.Termination
import GoalScript.Proofs.Turns
import GoalScript.Proofs.Unwinding
import GoalScript.Proofs.Carefulness
import GoalScript.Proofs.Nesting
import GoalScript.Proofs.Courses
import GoalScript.Proofs.Bracketing
import GoalScript.Proofs.Containment
import GoalScript.Proofs.Conditions
import GoalScript.Proofs.Honouring
import GoalScript.Proofs.Completion
import GoalScript.Proofs.LedgerKeys
import GoalScript.Proofs.Tallying
import GoalScript.Proofs.Accounting
import GoalScript.Proofs.Members
import GoalScript.Proofs.Routes
import GoalScript.Proofs.Shrinking
import GoalScript.Proofs.Storage
import GoalScript.Proofs.Reading
import GoalScript.Proofs.ReadBack
import GoalScript.Proofs.Words
import GoalScript.Proofs.Board
import GoalScript.Proofs.Notices
import GoalScript.Proofs.Names
import GoalScript.Proofs.Stacks
import GoalScript.Proofs.Visibility
import GoalScript.Proofs.Capacity
import GoalScript.Proofs.Admission
import GoalScript.Proofs.Rootedness
import GoalScript.Proofs.Tenancy
import GoalScript.Proofs.Snapshots
import GoalScript.Proofs.Meanings
import GoalScript.Proofs.Dependence
import GoalScript.Proofs.Isolation
import GoalScript.Proofs.Placeholders
import GoalScript.Proofs.Scanning
import GoalScript.Proofs.Margins
import GoalScript.Proofs.Printing
import GoalScript.Proofs.Paths
import GoalScript.Proofs.Eviction
import GoalScript.Proofs.Removal
import GoalScript.Proofs.Numerals
import GoalScript.Proofs.Operands
import GoalScript.Proofs.Naming
import GoalScript.Proofs.Chaining
import GoalScript.Proofs.Queries
import GoalScript.Proofs.Descents
import GoalScript.Proofs.References
import GoalScript.Proofs.Interpolation
import GoalScript.Proofs.LoneReferences
import GoalScript.Proofs.Tolerance
import GoalScript.Proofs.Exits
import GoalScript.Proofs.Requests
import GoalScript.Proofs.Parameters
import GoalScript.Proofs.Lineage
import GoalScript.Proofs.Conversion
import GoalScript.Proofs.GoalFiles
import GoalScript.Proofs.Setup
import GoalScript.Proofs.Durations
import GoalScript.Proofs.Searching
import GoalScript.Proofs.Projections
import GoalScript.Proofs.QuotedKeys
import GoalScript.Proofs.Disabling
import GoalScript.Proofs.EditDistance
import GoalScript.Proofs.Suggestions
import GoalScript.Proofs.Rounds
