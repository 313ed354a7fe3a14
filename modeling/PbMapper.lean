import PbMapper.App.Bookkeeping
import PbMapper.Auth.Administration
import PbMapper.Auth.Collection
import PbMapper.Auth.CredentialText
import PbMapper.Auth.Issues
import PbMapper.Auth.Keys
import PbMapper.Auth.NoLeak
import PbMapper.Auth.Replays
import PbMapper.Auth.Runtime
import PbMapper.Auth.Upkeep
import PbMapper.Auth.WalBytes
import PbMapper.Auth.Wipes
import PbMapper.Client.ControlLoop
import PbMapper.Protocol.Budgets
import PbMapper.Protocol.FailureLog
import PbMapper.Protocol.FirstFlight
import PbMapper.Protocol.MessageRoundTrip
import PbMapper.Protocol.ReadBuffer
import PbMapper.Protocol.TunnelForward
import PbMapper.Protocol.TunnelNonces
import PbMapper.Protocol.V2Integrity
import PbMapper.Relay.Accounting
import PbMapper.Relay.Identities
import PbMapper.Relay.Namespaces
import PbMapper.Relay.Pairing
import PbMapper.Relay.Progress
import PbMapper.Relay.RateBound
import PbMapper.Relay.Registrations
import PbMapper.Session.Directions
