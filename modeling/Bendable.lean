import Bendable.Score.Access
import Bendable.Score.Operator
import Bendable.Main
import Bendable.Proofs.Snapshot.RoundTrip
import Bendable.Proofs.Score.Order
import Bendable.Proofs.Score.Sameness
import Bendable.Proofs.Score.Group
import Bendable.Proofs.Score.Run
import Bendable.Proofs.Score.Shift
import Bendable.Proofs.Json.Stop
import Bendable.Proofs.Score.Overlong
import Bendable.Proofs.Command.Operands
import Bendable.Proofs.Command.Reports
import Bendable.Proofs.Snapshot.Overlong
import Bendable.Proofs.Command.Agreement
import Bendable.Proofs.Score.Guard
import Bendable.Proofs.Score.Factor
import Bendable.Proofs.Score.Steps
import Bendable.Proofs.Score.FirstFault
import Bendable.Proofs.Score.Canonical
import Bendable.Proofs.Score.Short
import Bendable.Proofs.Score.Sort
import Bendable.Proofs.Snapshot.Reordered
import Bendable.Proofs.Score.Trimmed
import Bendable.Proofs.Command.Logging
import Bendable.Proofs.Settings.Load
import Bendable.Proofs.Score.InitOnce
import Bendable.Proofs.Diagnostics
import Bendable.Proofs.Binary64.Clamp
