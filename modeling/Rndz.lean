import Rndz.DualStack
import Rndz.Tcp.Answers
import Rndz.Tcp.Assertion
import Rndz.Tcp.Bytes
import Rndz.Tcp.Causality
import Rndz.Tcp.Connect
import Rndz.Tcp.Deadlock
import Rndz.Tcp.DropAsync
import Rndz.Tcp.Forward
import Rndz.Tcp.Isync
import Rndz.Tcp.Lifetime
import Rndz.Tcp.NoDeadlock
import Rndz.Tcp.Ports
import Rndz.Tcp.Reconnect
import Rndz.Tcp.ReconnectAsync
import Rndz.Tcp.Requester
import Rndz.Tcp.Responses
import Rndz.Tcp.Shutdown
import Rndz.Udp.Answer
import Rndz.Udp.Connector
import Rndz.Udp.Deadline
import Rndz.Udp.Drop
import Rndz.Udp.Expiry
import Rndz.Udp.Isolation
import Rndz.Udp.Keepalive
import Rndz.Udp.LastPong
import Rndz.Udp.PollIndex
import Rndz.Udp.Ports
import Rndz.Udp.Provenance
import Rndz.Udp.Registry
import Rndz.Udp.Rendezvous
import Rndz.Udp.ReplySize
import Rndz.Udp.Requester
