import SessionRouter.Config.RoundTrip
import SessionRouter.Contact.Sns
import SessionRouter.Contact.SrvRecords
import SessionRouter.Dns.Cookies
import SessionRouter.Dns.Relay
import SessionRouter.Dns.ReverseLookup
import SessionRouter.Dns.SrvAnswers
import SessionRouter.Dns.TcpListener
import SessionRouter.Dns.Upstream
import SessionRouter.Handlers.ContactReplies
import SessionRouter.Handlers.InboundPaths
import SessionRouter.Handlers.NameLookup
import SessionRouter.Handlers.SessionTick
import SessionRouter.Handlers.TunPackets
import SessionRouter.Handlers.UdpPorts
import SessionRouter.Link.BuildReplies
import SessionRouter.Link.CloseEvents
import SessionRouter.Link.ContactBounds
import SessionRouter.Link.ContactStorage
import SessionRouter.Link.ControlRoundTrip
import SessionRouter.Link.DeregLinger
import SessionRouter.Link.Gossip
import SessionRouter.Link.PathRequests
import SessionRouter.Link.RelayPair
import SessionRouter.Link.SessionBounds
import SessionRouter.Link.SessionDelivery
import SessionRouter.Net.ExitPolicy
import SessionRouter.NodeDB.Bootstrap
import SessionRouter.NodeDB.Consensus
import SessionRouter.NodeDB.RcHash
import SessionRouter.NodeDB.RcLookups
import SessionRouter.NodeDB.ZrttTickets
import SessionRouter.Path.ControlCallbacks
import SessionRouter.Path.EdgeSelection
import SessionRouter.Path.PathMap
import SessionRouter.Router.Connectivity
import SessionRouter.Router.Profiling
import SessionRouter.Session.EstablishedCallbacks
import SessionRouter.Session.KeyAgreement
import SessionRouter.Session.RemoteClose
import SessionRouter.Session.TcpTunnel
import SessionRouter.Session.TunnelStream
import SessionRouter.Util.QueueSteps
