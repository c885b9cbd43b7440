import Milp.Main
import Milp.Log.Loggers
import Milp.Log.Calls
import Milp.Row.Calls
import Milp.Model.Workspace
import Milp.Session.Life
import Milp.Registry.Calls
import Milp.Proofs.Arg.Lists
import Milp.Proofs.Arg.Vectors
import Milp.Proofs.Arg.Positions
import Milp.Proofs.Binary64.Order
import Milp.Proofs.Binary64.Exact
import Milp.Proofs.Binary64.Whole
import Milp.Proofs.Binary64.Magnitude
import Milp.Proofs.Binary64.Between
import Milp.Proofs.Random.Draws
import Milp.Proofs.Log.Levels
import Milp.Proofs.Row.Checks
import Milp.Proofs.Row.Agreement
import Milp.Proofs.Row.Dense
import Milp.Proofs.Row.Accounting
import Milp.Proofs.Row.Signings
import Milp.Proofs.Row.Bytes
import Milp.Proofs.Batch.Pieces
import Milp.Proofs.Batch.Partition
import Milp.Proofs.Batch.Sequential
import Milp.Proofs.Model.Columns
import Milp.Proofs.Model.Calls
import Milp.Proofs.Model.Additions
import Milp.Proofs.Model.Ranges
import Milp.Proofs.Model.Reachable
import Milp.Proofs.Model.Atomic
import Milp.Proofs.Model.Sharing
import Milp.Proofs.Model.Counters
import Milp.Proofs.Model.Parts
import Milp.Proofs.Model.Alike
import Milp.Proofs.Model.Interleaving
import Milp.Proofs.Program.Feasible
import Milp.Proofs.Program.Names
import Milp.Proofs.Program.Translation
import Milp.Proofs.Program.Dense
import Milp.Proofs.Solve.Box
import Milp.Proofs.Solve.Start
import Milp.Proofs.Solve.Work
import Milp.Proofs.Solve.Numbers
import Milp.Proofs.Solve.Sentinel
import Milp.Proofs.Session.Operations
import Milp.Proofs.Session.Lifecycle
import Milp.Proofs.Session.Requests
import Milp.Proofs.Session.Alike
import Milp.Proofs.Session.Solutions
import Milp.Proofs.Registry.Sessions
import Milp.Proofs.Registry.Handles
import Milp.Proofs.Registry.Lifecycle
import Milp.Proofs.Registry.Isolation
import Milp.Proofs.Registry.Finality
import Milp.Proofs.Instance.Generated
import Milp.Proofs.Instance.Parameters
import Milp.Proofs.Instance.Edits
import Milp.Proofs.Model.Vectors
import Milp.Proofs.Model.Rebuilt
import Milp.Proofs.Session.Loading
import Milp.Proofs.Session.Modes
import Milp.Proofs.Session.Replies
import Milp.Proofs.Solve.Sides
import Milp.Proofs.CommandLine.Disposal
import Milp.Proofs.CommandLine.Reports
import Milp.Proofs.Session.Selections
