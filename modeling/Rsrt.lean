import Rsrt.Core.SenderOverflow
import Rsrt.Core.ConnectionBreaks
import Rsrt.Core.SenderWireImage
import Rsrt.Core.ReceiverDropped
import Rsrt.Core.KeyedSender
import Rsrt.Core.Settling
import Rsrt.Crypto.ParserSafety
import Rsrt.Driver.Establishing
import Rsrt.Core.SenderPacing
import Rsrt.Core.SenderLateDrops
import Rsrt.Core.Clocks
import Rsrt.Core.InputRate
import Rsrt.Packet.Grammar
import Rsrt.Core.CookieGate
import Rsrt.Crypto.RetryBudget
import Rsrt.Core.NakSoundness
import Rsrt.Core.ReceiverRefinement
import Rsrt.Core.RttEstimator
import Rsrt.Core.Transparency
import Rsrt.Driver.Socket
