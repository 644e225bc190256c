import BlockMaze.Main
import BlockMaze.Proofs.Chance.Winnable
import BlockMaze.Proofs.Game.Rights
import BlockMaze.Proofs.Program.Edits
import BlockMaze.Proofs.Run.Limits
import BlockMaze.Proofs.Run.Repetition
import BlockMaze.Proofs.Run.Resume
import BlockMaze.Proofs.Run.Shared
import BlockMaze.Run.Manuscript
import BlockMaze.View.Window
import BlockMaze.Proofs.Game.Quota
import BlockMaze.Proofs.Game.Replies
import BlockMaze.Proofs.Run.Results
import BlockMaze.Proofs.Game.Quiet
import BlockMaze.Proofs.Game.Account
import BlockMaze.Proofs.Game.Attempts
import BlockMaze.Proofs.Game.Overruns
import BlockMaze.Proofs.Chance.Faults
import BlockMaze.Proofs.Game.Failures
import BlockMaze.Proofs.Game.Answers
import BlockMaze.Proofs.Game.Declined
import BlockMaze.Proofs.Game.Ways
import BlockMaze.Proofs.Game.Frozen
import BlockMaze.Proofs.Program.Sift
import BlockMaze.Proofs.Board.Outlook
import BlockMaze.Proofs.Game.Accepted
import BlockMaze.Proofs.Game.Shown
import BlockMaze.Proofs.View.Buttons
import BlockMaze.Proofs.View.Listing
import BlockMaze.Proofs.Search.Connected
import BlockMaze.Proofs.Run.Beyond
import BlockMaze.Proofs.Run.OnGoal
import BlockMaze.Proofs.Run.Trace
import BlockMaze.Proofs.Program.Insertion
import BlockMaze.Proofs.Run.Guards
import BlockMaze.Proofs.Chance.Valid
import BlockMaze.Proofs.Chance.Script
import BlockMaze.Proofs.Program.Removal
import BlockMaze.Proofs.Game.Schedule
import BlockMaze.Proofs.Board.Picture
import BlockMaze.Proofs.Program.Listing
import BlockMaze.Proofs.Program.Expansion
