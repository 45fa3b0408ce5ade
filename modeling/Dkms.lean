import Dkms.Node.Escrow
import Dkms.Node.KeyAgreement
import Dkms.Node.Distribution
import Dkms.Node.Capacity
import Dkms.E2e.OpenedOnce
import Dkms.E2e.Guardrail
import Dkms.Qkc.KeySizes
import Dkms.Qkc.PeerOut
import Dkms.Orr.Announcer
import Dkms.Orr.Establish
import Dkms.Orr.Fresh
import Dkms.Orr.Journey
import Dkms.Orr.Hitless
import Dkms.Orr.ReplayedRotation
import Dkms.Orr.Unopened
import Dkms.Sdn.SaeRequests
import Dkms.Sdn.Presence
import Dkms.Link.ActiveEpoch
import Dkms.Link.HandshakeAuth
import Dkms.Link.ResponderCache
import Dkms.Qkc.OrphanedKeys
import Dkms.Link.PendingWork
import Dkms.Node.Starvation
import Dkms.Node.TwinBuffers
import Dkms.Qkc.EncWait
import Dkms.Qkc.RateEstimator
import Dkms.Qkc.SdnLinks
import Dkms.Qkc.KmeClient
import Dkms.Node.Metering
import Dkms.Sdn.Promises
import Dkms.Node.Drain
