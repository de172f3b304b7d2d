import Scion.BigEndian
import Scion.Codec
import Scion.BitStream
import Scion.StreamBits
import Scion.StreamReplay
import Scion.OnesComplement
import Scion.Checksum
import Scion.Address
import Scion.Mapping
import Scion.Numerals
import Scion.LongestRun
import Scion.IPText
import Scion.Records
import Scion.ScionPath
import Scion.ReversePath
import Scion.Neighbours
import Scion.HopRange
import Scion.PathDigest
import Scion.Runs
import Scion.PathCache
import Scion.Callers
import Scion.PendingLookups
import Scion.LastStored
import Scion.Header
import Scion.Transport
import Scion.Decoding
import Scion.ScmpCodec
import Scion.Extension
import Scion.HeaderCache
import Scion.ParsedPacket
import Scion.PacketLayout
import Scion.WordSums
import Scion.ReceivedChecksum
import Scion.RoundTrip
import Scion.Stun
import Scion.Packager
import Scion.SentChecksum
import Scion.RemoteEndpoint
import Scion.StunRequests
import Scion.IncrementalUpdate
import Scion.ExtensionDelivery
import Scion.TcpOptions
import Scion.MptcpOptions
import Scion.AddAddr
import Scion.Tcp
import Scion.TcpCodec
import Scion.Flow
import Scion.Subflows
import Scion.PathSelection
import Scion.PassivePath
import Scion.Reservation
import Scion.SubflowPaths
import Scion.FlowTables
import Scion.Ip
import Scion.AcceptedHeaders
import Scion.PacketBuffer
import Scion.PacketParts
import Scion.Reemission
import Scion.LruStore
import Scion.PathMtu
import Scion.PacketTooBig
import Scion.Socket
import Scion.SocketMapping
import Scion.RawPathEquality
import Scion.Completion
import Scion.AsioSockets
import Scion.CompletionHandlers
import Scion.AsyncReceive
import Scion.AddressText
import Scion.HopPredicate
import Scion.PathPolicy
import Scion.PolicySet
import Scion.PolicyFiles
import Scion.StableSort
import Scion.PolicyOrder
import Scion.PathInvolution
import Scion.PathExpiry
import Scion.PathFilling
import Scion.HopMasks
import Scion.PathMirror
import Scion.Surrogates
import Scion.UdpSocket
import Scion.AddressClass
import Scion.AsnText
import Scion.HostPort
import Scion.GroupScan
import Scion.IPBounds
import Scion.IPGrammar
import Scion.StreamPositions
import Scion.IntegerLayout
import Scion.LinkedStore
import Scion.MtuIndex
import Scion.Pattern
import Scion.HopPattern
import Scion.HopSequence
import Scion.AddressPrefix
import Scion.Rebuild
import Scion.PacketPartition
import Scion.ChecksumLanes
import Scion.StunAttributes
import Scion.StunDetection
import Scion.BitFields
import Scion.IdIntOption
import Scion.IdInt
import Scion.OptionAreas
import Scion.InterposedSend
import Scion.IngressFilter
import Scion.ChecksumUpdate
import Scion.TcpChecksum
import Scion.Filling
import Scion.TcpParsing
import Scion.TcpOptionAreas
import Scion.TcpReencoding
import Scion.Egress
import Scion.EgressMtu
import Scion.EgressLengths
import Scion.Emission
import Scion.IngressHeaders
import Scion.ScionDetection
import Scion.OuterChecksum
import Scion.PingIdentity
import Scion.Sha256
import Scion.TokenHash
import Scion.FirstLeast
import Scion.LeastOverlap
import Scion.PathRenewal
import Scion.FlowStates
import Scion.FlowOwners
import Scion.FlowExport
import Scion.LeadPath
import Scion.SubflowReset
import Scion.AddressTranslation
import Scion.Peeking
import Scion.PeekLoops
import Scion.IcmpErrors
import Scion.HeaderCodecs
import Scion.SocketAddress
import Scion.NameResolution
import Scion.PathMetadata
import Scion.TextOutput
import Scion.BitPosition
import Scion.BuiltinSelector
import Scion.ZoneRegistry
import Scion.StunMapping
import Scion.ScatterGather
import Scion.PacketAssembly
import Scion.Gateways
import Scion.BufferReuse
import Scion.Relational
import Scion.TcpReuse
import Scion.TranslationReuse
import Scion.Frames
import Scion.WrittenLength
import Scion.BufferRuns
import Scion.WordMixing
import Scion.MurmurHash
import Scion.PathFailover
import Scion.MtuDiscovery
