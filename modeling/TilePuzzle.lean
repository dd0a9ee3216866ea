import TilePuzzle.Main
import TilePuzzle.Clock
import TilePuzzle.Proofs.Engine.Carrying
import TilePuzzle.Proofs.Engine.Refinement
import TilePuzzle.Proofs.World.Occupancy
import TilePuzzle.Proofs.Engine.Visits
import TilePuzzle.Proofs.Engine.Progress
import TilePuzzle.Proofs.Engine.Termination
import TilePuzzle.Proofs.Engine.Outcome
import TilePuzzle.Proofs.Engine.Budget
import TilePuzzle.Proofs.Engine.Announcements
import TilePuzzle.Proofs.World.Crowding
import TilePuzzle.Proofs.Engine.Crowding
import TilePuzzle.Proofs.World.Image
import TilePuzzle.Proofs.Engine.Image
import TilePuzzle.Proofs.Engine.Border
import TilePuzzle.Proofs.Engine.Symmetry
import TilePuzzle.Proofs.World.Snapshot
import TilePuzzle.Proofs.Level.Rearrangement
import TilePuzzle.Proofs.Engine.Snapshot
import TilePuzzle.Proofs.Engine.Terms
import TilePuzzle.Proofs.Engine.Allowance
import TilePuzzle.Proofs.Engine.Replay
import TilePuzzle.Proofs.Engine.Time
import TilePuzzle.Proofs.Engine.Footing
import TilePuzzle.Proofs.World.Conditions
import TilePuzzle.Proofs.RoundTrip
import TilePuzzle.Proofs.CommandLine.Run
import TilePuzzle.Proofs.World.Goals
import TilePuzzle.Proofs.World.Effects
import TilePuzzle.Proofs.Engine.Extent
import TilePuzzle.Proofs.Level.Faults
import TilePuzzle.Proofs.World.Independence
import TilePuzzle.Proofs.Program.Blame
import TilePuzzle.Proofs.Program.Reindexing
import TilePuzzle.Proofs.Engine.Faults
import TilePuzzle.Proofs.World.Refusal
import TilePuzzle.Proofs.World.Reversal
import TilePuzzle.Proofs.World.Arithmetic
import TilePuzzle.Proofs.Engine.Numbers
import TilePuzzle.Proofs.Engine.TimeLimit
import TilePuzzle.Proofs.Engine.Words
import TilePuzzle.Proofs.Text.Lowercase
import TilePuzzle.Proofs.Text.Spelling
import TilePuzzle.Proofs.Catalogue.Registration
import TilePuzzle.Proofs.Catalogue.Description
import TilePuzzle.Proofs.Catalogue.Reading
import TilePuzzle.Proofs.Catalogue.Spelling
import TilePuzzle.Proofs.Program.Listing
import TilePuzzle.Proofs.Engine.Coordinates
import TilePuzzle.Proofs.Level.Drawing
import TilePuzzle.Proofs.CommandLine.Transcript
