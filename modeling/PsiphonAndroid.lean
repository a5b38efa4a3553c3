import PsiphonAndroid.Addr
import PsiphonAndroid.Flow.FairQueue
import PsiphonAndroid.Flow.FairQueueInv
import PsiphonAndroid.Flow.FairQueueRecord
import PsiphonAndroid.Flow.PacketBuffer
import PsiphonAndroid.Flow.PacketBufferInv
import PsiphonAndroid.Flow.PacketProto
import PsiphonAndroid.Flow.StreamSender
import PsiphonAndroid.Lib.Base64
import PsiphonAndroid.Lib.BinTree
import PsiphonAndroid.Lib.Bytes
import PsiphonAndroid.Lib.FileLock
import PsiphonAndroid.Lib.Framing
import PsiphonAndroid.Lib.Index
import PsiphonAndroid.Lib.Json
import PsiphonAndroid.Lib.Linked
import PsiphonAndroid.Lib.Memory
import PsiphonAndroid.Lib.OnesComplement
import PsiphonAndroid.Lib.Transition
import PsiphonAndroid.Lib.Url
import PsiphonAndroid.Lib.Window
import PsiphonAndroid.Log.Delivery
import PsiphonAndroid.Log.Feedback
import PsiphonAndroid.Lwip.TcpIn
import PsiphonAndroid.Lwip.TcpInInv
import PsiphonAndroid.Net.Checksum
import PsiphonAndroid.Net.Device
import PsiphonAndroid.Net.Proto
import PsiphonAndroid.Nfc.Bump
import PsiphonAndroid.Package.TrustedSignatures
import PsiphonAndroid.Proxy.UpstreamProxySettings
import PsiphonAndroid.Socks.Client
import PsiphonAndroid.Socks.Handshake
import PsiphonAndroid.Stats.DataTransferStats
import PsiphonAndroid.Structure.AvlTable
import PsiphonAndroid.Structure.BAvl
import PsiphonAndroid.Structure.BAvlInv
import PsiphonAndroid.Structure.BAvlSearch
import PsiphonAndroid.Theorems.AvlTable
import PsiphonAndroid.Theorems.BumpPeer
import PsiphonAndroid.Theorems.BumpTransfer
import PsiphonAndroid.Theorems.ConnectedState
import PsiphonAndroid.Theorems.ConnectionTables
import PsiphonAndroid.Theorems.ConnectionTrees
import PsiphonAndroid.Theorems.DataPackage
import PsiphonAndroid.Theorems.DataTransferStats
import PsiphonAndroid.Theorems.DeviceIntake
import PsiphonAndroid.Theorems.DeviceRoundTrip
import PsiphonAndroid.Theorems.FairScheduling
import PsiphonAndroid.Theorems.FairSharing
import PsiphonAndroid.Theorems.Feedback
import PsiphonAndroid.Theorems.LogDelivery
import PsiphonAndroid.Theorems.PacketBuffer
import PsiphonAndroid.Theorems.PacketProto
import PsiphonAndroid.Theorems.PbufOwnership
import PsiphonAndroid.Theorems.PrivateAddress
import PsiphonAndroid.Theorems.ProxyRestart
import PsiphonAndroid.Theorems.ProxyUrl
import PsiphonAndroid.Theorems.Rebinding
import PsiphonAndroid.Theorems.Reconnect
import PsiphonAndroid.Theorems.ReplyDelivery
import PsiphonAndroid.Theorems.SocksHandshake
import PsiphonAndroid.Theorems.TcpLifecycle
import PsiphonAndroid.Theorems.TcpStream
import PsiphonAndroid.Theorems.TcpWindow
import PsiphonAndroid.Theorems.TrustedSignatures
import PsiphonAndroid.Theorems.TunnelCommands
import PsiphonAndroid.Theorems.UdpChecksum
import PsiphonAndroid.Theorems.UdpGwFrames
import PsiphonAndroid.Theorems.UdpGwSession
import PsiphonAndroid.Theorems.UpgradeManager
import PsiphonAndroid.Theorems.UpgradeProcesses
import PsiphonAndroid.Theorems.VpnApps
import PsiphonAndroid.Theorems.VpnAppsView
import PsiphonAndroid.Theorems.VpnManager
import PsiphonAndroid.Tun2Socks.Pbuf
import PsiphonAndroid.Tun2Socks.TcpClient
import PsiphonAndroid.UdpGw.Client
import PsiphonAndroid.UdpGw.Effects
import PsiphonAndroid.UdpGw.Frame
import PsiphonAndroid.UdpGw.Gateway
import PsiphonAndroid.UdpGw.GatewayInv
import PsiphonAndroid.UdpGw.Link
import PsiphonAndroid.UdpGw.Proto
import PsiphonAndroid.UdpGw.Session
import PsiphonAndroid.UdpGw.Tables
import PsiphonAndroid.UdpGw.Trees
import PsiphonAndroid.Upgrade.DataPackage
import PsiphonAndroid.Upgrade.Processes
import PsiphonAndroid.Upgrade.UpgradeManager
import PsiphonAndroid.Vpn.Apps
import PsiphonAndroid.Vpn.PrivateAddress
import PsiphonAndroid.Vpn.TunnelManager
import PsiphonAndroid.Vpn.VpnManager
