import GigabitTcp.Hw.Words
import GigabitTcp.Hw.Mem
import GigabitTcp.Hw.Machine
import GigabitTcp.Hw.Ring
import GigabitTcp.Hw.Crc
import GigabitTcp.Hw.OnesComplement
import GigabitTcp.Hw.Ledger
import GigabitTcp.Hw.Logged
import GigabitTcp.Hw.Slots
import GigabitTcp.Hw.TwoLevel
import GigabitTcp.Hw.Lru
import GigabitTcp.Hw.Stream
import GigabitTcp.Hw.Serial
import GigabitTcp.Hw.Hex
import GigabitTcp.Hw.Toggle
import GigabitTcp.Hw.Bursts
import GigabitTcp.Hw.Delimited
import GigabitTcp.Hw.LinearFifo
import GigabitTcp.Hw.Reno
import GigabitTcp.Hw.Tlv
import GigabitTcp.Hw.Inet
import GigabitTcp.Hw.EchoServer
import GigabitTcp.Hw.Decimal
import GigabitTcp.Hw.Matcher
import GigabitTcp.EthTypes
import GigabitTcp.EthUtils
import GigabitTcp.LayerMac
import GigabitTcp.LayerArp
import GigabitTcp.LayerIp
import GigabitTcp.LayerIcmp
import GigabitTcp.LayerUdp
import GigabitTcp.LayerDhcp
import GigabitTcp.LayerTcp
import GigabitTcp.LayerStats
import GigabitTcp.UdpEcho
import GigabitTcp.Mac.RxDecode
import GigabitTcp.Mac.RxIsolation
import GigabitTcp.Mac.RxForeign
import GigabitTcp.Mac.TxFraming
import GigabitTcp.Mac.TxProgress
import GigabitTcp.Mac.TxStream
import GigabitTcp.Tcp.Frame
import GigabitTcp.Tcp.Encoding
import GigabitTcp.Tcp.Runs
import GigabitTcp.Tcp.EchoQueue
import GigabitTcp.Tcp.InOrder
import GigabitTcp.Tcp.Table
import GigabitTcp.Tcp.Diagram
import GigabitTcp.Tcp.Reno
import GigabitTcp.Tcp.Options
import GigabitTcp.Tcp.Logged
import GigabitTcp.Tcp.Bounds
import GigabitTcp.Tcp.Stored
import GigabitTcp.Tcp.Payload
import GigabitTcp.Tcp.Uninit
import GigabitTcp.Tcp.Streams
import GigabitTcp.Tcp.Close
import GigabitTcp.Tcp.Fifo
import GigabitTcp.Tcp.Windows
import GigabitTcp.Tcp.Acks
import GigabitTcp.Tcp.Retransmit
import GigabitTcp.Tcp.Rto
import GigabitTcp.Tcp.Server
import GigabitTcp.Stack.Pass
import GigabitTcp.Stack.DhcpReply
import GigabitTcp.Stack.Reception
import GigabitTcp.Stack.Regions
import GigabitTcp.Stack.Arrival
import GigabitTcp.Stack.Mailbox
import GigabitTcp.Stack.InFlight
import GigabitTcp.Stack.Residue
import GigabitTcp.Stack.Staging
import GigabitTcp.UartConsole
import GigabitTcp.NetStats
import GigabitTcp.NetStatsReport
import GigabitTcp.Wrapper1g
import GigabitTcp.Wrapper1gUart
import GigabitTcp.Wrapper1gStats
import GigabitTcp.Uart.Receivers
import GigabitTcp.Uart.Output
import GigabitTcp.Uart.Commands
import GigabitTcp.Uart.Listener
import GigabitTcp.Uart.Report
import GigabitTcp.Uart.Typed
import GigabitTcp.Wrapper.RxBridge
import GigabitTcp.Wrapper.RxQueue
import GigabitTcp.Wrapper.TxBridge
import GigabitTcp.Wrapper.Demo
import GigabitTcp.Wrapper.FrameCounts
import GigabitTcp.Wrapper.Captures
import GigabitTcp.Stack.Alike
import GigabitTcp.Stack.Reset
import GigabitTcp.Stack.Timers
import GigabitTcp.Stack.Gates
import GigabitTcp.Stack.Ipv4Out
import GigabitTcp.Stack.HeaderChecks
import GigabitTcp.Stack.Senders
import GigabitTcp.Stack.StatusText
import GigabitTcp.Stack.UdpRequests
import GigabitTcp.Stack.ArpRequests
import GigabitTcp.Stack.IgmpQueries
import GigabitTcp.Stack.UdpReply
import GigabitTcp.Stack.IcmpReply
import GigabitTcp.Stack.Rest
import GigabitTcp.Stack.Hello
import GigabitTcp.Stack.Responder
import GigabitTcp.Stack.LastByte
import GigabitTcp.Stack.Segments
import GigabitTcp.Stack.Sessions
import GigabitTcp.Stack.Hosts
import GigabitTcp.Stack.Conversations
import GigabitTcp.Stack.Wire
import GigabitTcp.Wrapper1gNet
import GigabitTcp.Dhcp.Options
import GigabitTcp.Dhcp.Client
import GigabitTcp.Dhcp.RoundTrip
import GigabitTcp.Dhcp.Robust
import GigabitTcp.Arp.Cache
import GigabitTcp.Arp.Recency
import GigabitTcp.Arp.Bindings
import GigabitTcp.Wrapper.Settles
import GigabitTcp.Wrapper.Reception
