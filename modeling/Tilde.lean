import Tilde.Main
import Tilde.Munch
import Tilde.Proofs.MaximalMunch
import Tilde.Proofs.Lossless
import Tilde.Proofs.Concatenation
import Tilde.Proofs.Canonical
import Tilde.Proofs.Openings
import Tilde.Proofs.FrontEnd
import Tilde.Proofs.Blanking
import Tilde.Proofs.Unpadded
import Tilde.Proofs.Padding
import Tilde.Proofs.Repair
import Tilde.Proofs.Listing
import Tilde.Proofs.Reports
import Tilde.Proofs.Recording
import Tilde.Proofs.Tracing
import Tilde.Proofs.Excerpts
import Tilde.Proofs.Progress
import Tilde.Proofs.Spans
import Tilde.Proofs.Positions
import Tilde.Proofs.Lookup
