import Slopline.Library.Keystream
import Slopline.Library.Format
import Slopline.Library.SelfDelimiting
import Slopline.Protocol.Transaction
import Slopline.Protocol.Handshake
import Slopline.Protocol.Decoders
import Slopline.Protocol.TransferRoundTrip
import Slopline.Protocol.TrackerRoundTrip
import Slopline.Protocol.Hope
import Slopline.Net.Relogin
import Slopline.Net.CloseCall
import Slopline.Net.CryptoSwitch
import Slopline.Net.Restart
import Slopline.Net.EndToEnd
import Slopline.Net.Ciphers
import Slopline.Server.Stream
import Slopline.Server.Outcomes
import Slopline.Legacy.KeyAgreement
import Slopline.Legacy.FieldInterop
import Slopline.Legacy.Login
import Slopline.Legacy.FramingAgreement
import Slopline.Legacy.IvarReader
import Slopline.Library.HeapSort
import Slopline.Library.BinarySearch
import Slopline.Legacy.HLBlowfish
import Slopline.Legacy.DigestAgreement
import Slopline.Protocol.AccessMask
import Slopline.Protocol.PayloadCodec
import Slopline.Net.AddressPrinter
import Slopline.Net.SockAddr
import Slopline.Net.Holding
import Slopline.Net.SealedDelivery
import Slopline.Legacy.IdVarFlatten
import Slopline.Net.Descriptors
import Slopline.Library.Forest
import Slopline.Legacy.PtrTree
import Slopline.Legacy.PtrForest
import Slopline.Legacy.PtrTreeAdd
import Slopline.Legacy.PtrTreeRemove
import Slopline.Legacy.PtrTreeRead
import Slopline.Legacy.PtrTreeMap
