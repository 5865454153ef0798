import Combinatory.Console.Completion
import Combinatory.File.Tree
import Combinatory.Main
import Combinatory.Proofs.Filtering
import Combinatory.Proofs.Precedence
import Combinatory.Proofs.Recording
import Combinatory.Proofs.Recursion
import Combinatory.Proofs.RoundTrip
import Combinatory.Proofs.Settling
import Combinatory.Proofs.SharedBasis
import Combinatory.Proofs.Splicing
import Combinatory.Proofs.TermStep
import Combinatory.Proofs.Tree
import Combinatory.Proofs.Unbracketing
import Combinatory.Proofs.Usability
import Combinatory.Text.Quoted
import Combinatory.Workspace
import Combinatory.Proofs.Matching
import Combinatory.Proofs.Inside
import Combinatory.Proofs.FixedPoint
import Combinatory.Proofs.Resuming
import Combinatory.Proofs.Blanks
import Combinatory.Proofs.SeveralLines
import Combinatory.Proofs.DocumentFiles
import Combinatory.Proofs.Tally
import Combinatory.Proofs.Dispatch
