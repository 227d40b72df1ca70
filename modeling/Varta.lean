import Varta.Audit.SeqMonotone
import Varta.Audit.RotationLoss
import Varta.Watch.Replay
import Varta.Watch.Identity
import Varta.Watch.Recycle
import Varta.Client.NonceUniqueness
import Varta.Client.PanicNonces
import Varta.Watch.ProbeEntries
import Varta.Watch.DebounceRuns
import Varta.Exporter.RotationLoss
import Varta.Vlp.Corruption
import Varta.Watch.DeferredStalls
import Varta.Watch.Refusals
import Varta.Watch.NonceAgreement
import Varta.Watch.PollFairness
import Varta.Watch.Admission
import Varta.Ports.ReconnectWindow
import Varta.Ports.SecureNonces
import Varta.Ports.JavaOutcomes
import Varta.Ports.NodeSecureUdp
import Varta.Exporter.IpLimiterBounds
import Varta.Exporter.BearerToken
import Varta.Exporter.FileAccounting
import Varta.Client.TerminalClaims
import Varta.Watch.OutcomeBuffer
import Varta.Audit.Migration
import Varta.Vlp.CrcRemainder
import Varta.Watch.CaptureDrain
import Varta.Watch.OutstandingPartition
import Varta.Ports.Decoders
