import Fabric.Build
import Fabric.Log
import Fabric.Report.Context
import Fabric.Proofs.Discovery
import Fabric.Proofs.Presence
import Fabric.Proofs.Views
import Fabric.Proofs.Modes
import Fabric.Proofs.GridShape
import Fabric.Proofs.GridTables
import Fabric.Proofs.Skipping
import Fabric.Proofs.TableSafety
import Fabric.Proofs.LineEnds
import Fabric.Proofs.Sessions
import Fabric.Proofs.Atomicity
import Fabric.Proofs.Quoting
import Fabric.Proofs.EchoStructure
import Fabric.Proofs.Configuring
import Fabric.Proofs.IntegerTokens
