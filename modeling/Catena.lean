import Catena.CommandLine
import Catena.Connection
import Catena.Dictionary
import Catena.Main
import Catena.Proofs.Connection
import Catena.Proofs.Evaluation.Calls
import Catena.Proofs.Evaluation.Termination
import Catena.Proofs.FrontEnds
import Catena.Proofs.Machine.Locality
import Catena.Proofs.Program.Descent
import Catena.Proofs.Program.Diagnosis
import Catena.Proofs.Request.History
import Catena.Proofs.Session.Bindings
import Catena.Proofs.Session.Display
import Catena.Proofs.Session.Exhaustion
import Catena.Proofs.Session.FreshWord
import Catena.Proofs.Session.LastState
import Catena.Proofs.Session.Limit
import Catena.Proofs.Session.Literals
import Catena.Proofs.Session.Numerals
import Catena.Proofs.Session.Quotations
import Catena.Proofs.Session.ReadBack
import Catena.Proofs.Session.Sequence
import Catena.Proofs.Value.Comparison
import Catena.Proofs.Word.Conditions
import Catena.Settings
import Catena.Proofs.Stack
import Catena.Proofs.Machine.Frames
import Catena.Proofs.Settings
import Catena.Proofs.Session.Recursion
