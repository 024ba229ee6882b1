import Tapip.Tcp.FinSequence
import Tapip.Lib.Fifo
import Tapip.Ip.Refrag
import Tapip.Net.FastPipe
import Tapip.Tcp.Deliver
import Tapip.Tcp.AnyOrder
import Tapip.Tcp.Shift
import Tapip.Net.Frames
import Tapip.Sockets.Backlog
import Tapip.Sockets.Connect
import Tapip.Tcp.Demux
import Tapip.Tcp.ReceiveWindow
import Tapip.Tcp.EndOfStream
import Tapip.Sockets.Resets
import Tapip.Net.ArpQueue
import Tapip.Udp.Slots
import Tapip.Sockets.Ident
import Tapip.Ip.Echo
import Tapip.Tcp.Wire
import Tapip.Sockets.NullPointers
import Tapip.Sockets.Receive
import Tapip.Shell.Line
import Tapip.Ip.RawCopy
import Tapip.Shell.Route
import Tapip.Udp.Receive
import Tapip.Tcp.Diagram
import Tapip.Tcp.EndToEnd
import Tapip.Tcp.Chains
