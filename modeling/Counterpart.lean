import Counterpart.Editor
import Counterpart.Rule.Playback
import Counterpart.Proofs.Delimiter.Involution
import Counterpart.Proofs.Region.Inner
import Counterpart.Proofs.Block.Cycle
import Counterpart.Proofs.Token.Boundary
import Counterpart.Proofs.Bracket.Nesting
import Counterpart.Proofs.Block.Pairing
import Counterpart.Proofs.Delimiter.Reach
import Counterpart.Proofs.Rule
import Counterpart.Proofs.Region.Containment
import Counterpart.Proofs.Region.Ends
import Counterpart.Proofs.Token.Literal
import Counterpart.Proofs.Delimiter.Quote
import Counterpart.Proofs.Delimiter.Nesting
import Counterpart.Proofs.Delimiter.Balance
import Counterpart.Proofs.Delimiter.Confinement
import Counterpart.Proofs.Token.Terminator
import Counterpart.Proofs.Delimiter.StringRun
import Counterpart.Proofs.Delimiter.Unclosed
import Counterpart.Proofs.Motion.Failure
import Counterpart.Proofs.Item.Calls
import Counterpart.Proofs.Editor.Run
import Counterpart.Proofs.Editor.Configuration
import Counterpart.Proofs.Editor.Reselection
import Counterpart.Proofs.Motion.Guard
import Counterpart.Proofs.Motion.Count
import Counterpart.Proofs.LineBreak.Motion
import Counterpart.Proofs.Insertion.Transparency
import Counterpart.Proofs.Motion.Cursor
import Counterpart.Proofs.Motion.Share
import Counterpart.Proofs.Motion.Percentage
import Counterpart.Proofs.Editor.Prompt
import Counterpart.Proofs.Block.Walk
import Counterpart.Proofs.Block.Termination
import Counterpart.Proofs.Selection
import Counterpart.Proofs.Motion.Header
import Counterpart.Proofs.Item.Forcing
import Counterpart.Proofs.Token.Character
import Counterpart.Proofs.Document.Feeds
import Counterpart.Proofs.Document.Walk
import Counterpart.Proofs.Delimiter.Walk
import Counterpart.Proofs.Token.Scan
