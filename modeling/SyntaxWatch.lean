import SyntaxWatch.Main
import SyntaxWatch.Session
import SyntaxWatch.Uri.Host
import SyntaxWatch.Uri.Reading
import SyntaxWatch.Proofs.Checker.Bench
import SyntaxWatch.Proofs.Checker.Reaction
import SyntaxWatch.Proofs.Checker.CurrentRun
import SyntaxWatch.Proofs.Checker.Phase
import SyntaxWatch.Proofs.Checker.Invariant
import SyntaxWatch.Proofs.Checker.Freshness
import SyntaxWatch.Proofs.Checker.Settlement
import SyntaxWatch.Proofs.Checker.Spellings
import SyntaxWatch.Proofs.Checker.Superseded
import SyntaxWatch.Proofs.Checker.Outcome
import SyntaxWatch.Proofs.Checker.Course
import SyntaxWatch.Proofs.Checker.Tale
import SyntaxWatch.Proofs.Checker.Ledger
import SyntaxWatch.Proofs.Checker.Timing
import SyntaxWatch.Proofs.Text.Pieces
import SyntaxWatch.Proofs.Finding.Stream
import SyntaxWatch.Proofs.Finding.Recognition
import SyntaxWatch.Proofs.Engine.Delivery
import SyntaxWatch.Proofs.Engine.Workshop
import SyntaxWatch.Proofs.Engine.Lockstep
import SyntaxWatch.Proofs.Engine.Disposal
import SyntaxWatch.Proofs.Engine.Clock
import SyntaxWatch.Proofs.Session.Debounce
import SyntaxWatch.Proofs.Checker.Handling
import SyntaxWatch.Proofs.Engine.Service
import SyntaxWatch.Proofs.Command.Pending
import SyntaxWatch.Proofs.Command.Attendance
import SyntaxWatch.Proofs.Uri.FileName
import SyntaxWatch.Proofs.Path.Resolution
import SyntaxWatch.Proofs.Workspace.ShownPath
import SyntaxWatch.Proofs.Results.Copying
import SyntaxWatch.Proofs.Command.Rounds
import SyntaxWatch.Proofs.Command.Visit
import SyntaxWatch.Proofs.Command.Report
import SyntaxWatch.Proofs.Engine.Roster
import SyntaxWatch.Proofs.Finding.Draining
import SyntaxWatch.Proofs.Settings.Profiles
import SyntaxWatch.Proofs.Engine.Announcing
import SyntaxWatch.Proofs.Command.Recheck
import SyntaxWatch.Proofs.Diagnostic.Placing
import SyntaxWatch.Proofs.Text.ByteOrder
import SyntaxWatch.Proofs.Collection.Showing
import SyntaxWatch.Proofs.Collection.History
import SyntaxWatch.Proofs.Path.Order
import SyntaxWatch.Proofs.Results.Listing
import SyntaxWatch.Proofs.Text.CaseTable
import SyntaxWatch.Proofs.Text.Lowercase
import SyntaxWatch.Proofs.Settings.Languages
import SyntaxWatch.Proofs.Settings.Respelling
import SyntaxWatch.Proofs.RunState.Calls
import SyntaxWatch.Proofs.Finding.Filtering
import SyntaxWatch.Proofs.Workspace.Caching
