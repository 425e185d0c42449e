import SvcAuth.InterleaveProg
import SvcAuth.InterleaveTrace
import SvcAuth.InterleaveThreads
import SvcAuth.InterleaveSolo
import SvcAuth.StandardBase64
import SvcAuth.ChaCha20Poly1305
import SvcAuth.JsonWebToken
import SvcAuth.Cookie
import SvcAuth.Phases
import SvcAuth.PhaseFollows
import SvcAuth.PhaseMoves
import SvcAuth.PhaseProjections
import SvcAuth.StoreLog
import SvcAuth.PhaseRequests
import SvcAuth.StoreRows
import SvcAuth.StoreMaps
import SvcAuth.PhaseResponses
import SvcAuth.HandedOut
import SvcAuth.SessionChain
import SvcAuth.ReplacementChains
import SvcAuth.RotationPaths
import SvcAuth.LiveSessions
import SvcAuth.RotationRetry
import SvcAuth.TransientFailures
import SvcAuth.BearerContract
import SvcAuth.WireAnchor
import SvcAuth.BearerStore
import SvcAuth.CookieJar
import SvcAuth.SilentGap
import SvcAuth.PresentedBearer
import SvcAuth.ProviderDiscovery
import SvcAuth.BearerMap
import SvcAuth.BearerForgery
import SvcAuth.LogoutRevocation
import SvcAuth.SessionIdentity
import SvcAuth.Revocation
import SvcAuth.TokenKinds
import SvcAuth.IdTokens
import SvcAuth.KeyResolution
import SvcAuth.DeclaredAlgorithms
import SvcAuth.ProviderLists
import SvcAuth.KeyRotation
import SvcAuth.TokenLifetimes
import SvcAuth.WrittenCookies
import SvcAuth.ForeignCookies
import SvcAuth.InterleaveCarried
import SvcAuth.InterleaveObserved
import SvcAuth.WholeService
import SvcAuth.VouchedSessions
import SvcAuth.OrderlyClients
import SvcAuth.BearerRegister
import SvcAuth.Exposure
import SvcAuth.Isolation
import SvcAuth.DistinctHandouts
import SvcAuth.Footprint
import SvcAuth.Numerals
import SvcAuth.Configuration
import SvcAuth.Boot
import SvcAuth.JwksOrder
import SvcAuth.JwksRefresh
import SvcAuth.TextFormats
import SvcAuth.SampleDeployment
import SvcAuth.Undisturbed
import SvcAuth.FirstFamily
import SvcAuth.RevocationLookup
import SvcAuth.RevocationExpiry
import SvcAuth.ReuseDetection
import SvcAuth.AnchorProtocol
