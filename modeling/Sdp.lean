import Sdp.Data.Json.Parser
import Sdp.Main
import Sdp.Proofs.Address.Written
import Sdp.Proofs.Attribute.Addressed
import Sdp.Proofs.Attribute.RoundTrip
import Sdp.Proofs.Attribute.Display
import Sdp.Proofs.Attribute.Grammar
import Sdp.Proofs.Attribute.Recased
import Sdp.Proofs.Attribute.Unnamed
import Sdp.Proofs.Attribute.Unsupported
import Sdp.Proofs.Attribute.Verbatim
import Sdp.Proofs.Command.Ending
import Sdp.Proofs.Command.Outcome
import Sdp.Proofs.Command.Respelled
import Sdp.Proofs.Command.Summary
import Sdp.Proofs.Log.Faithful
import Sdp.Proofs.Log.Routing
import Sdp.Proofs.Session.Accounting
import Sdp.Proofs.Session.Diagnostics
import Sdp.Proofs.Session.Ignorable
import Sdp.Proofs.Session.Keywords
import Sdp.Proofs.Session.Numbers
import Sdp.Proofs.Session.Refused
import Sdp.Proofs.Session.Retry
import Sdp.Proofs.Session.Routing
import Sdp.Proofs.Settings.Changes
import Sdp.Proofs.Settings.FilePath
import Sdp.Proofs.Settings.Precedence
import Sdp.Proofs.Settings.Sense
