import Lantern.Command.Run
import Lantern.Diagnostic.Terminal
import Lantern.Eval.Tree
import Lantern.Main
import Lantern.Syntax.Tree
import Lantern.Value.Tree
import Lantern.Proofs.Eval.Policy
import Lantern.Proofs.Value.Likeness
import Lantern.Proofs.Parse.Completeness
import Lantern.Proofs.Parse.Levels
import Lantern.Proofs.Parse.RoundTrip
import Lantern.Proofs.Parse.Stable
import Lantern.Proofs.Testing.Stray
import Lantern.Proofs.Value.Reach
import Lantern.Proofs.Eval.Confined
import Lantern.Proofs.Value.Twin
import Lantern.Proofs.Eval.Lockstep
import Lantern.Proofs.Token.Sequel
import Lantern.Proofs.Parse.Sequel
import Lantern.Proofs.Eval.Fuel
import Lantern.Proofs.Token.Blank
import Lantern.Proofs.Session.Transcript
import Lantern.Proofs.Token.Split
import Lantern.Proofs.Parse.Charge
import Lantern.Proofs.Parse.Abreast
import Lantern.Proofs.Parse.Seam
import Lantern.Proofs.Eval.Depth
import Lantern.Proofs.Testing.Verdict
import Lantern.Proofs.Parse.Grouping
import Lantern.Proofs.Eval.Growth
import Lantern.Proofs.Eval.Limit
import Lantern.Proofs.Eval.Halting
import Lantern.Proofs.Parse.Origin
import Lantern.Proofs.Parse.Recovery
import Lantern.Proofs.Value.Data
import Lantern.Proofs.Token.Enclosed
import Lantern.Proofs.Parse.Bracket
import Lantern.Proofs.Syntax.Recast
import Lantern.Proofs.Token.Spaced
import Lantern.Proofs.Value.Echo
import Lantern.Proofs.Testing.Skipped
import Lantern.Proofs.Testing.InOrder
import Lantern.Proofs.Testing.Discovered
import Lantern.Proofs.Value.Nearest
import Lantern.Proofs.Value.Sequence
import Lantern.Proofs.Value.Division
