import SealedChannel.Http.Server
import SealedChannel.Service.Command
import SealedChannel.Service.PostFilter
import SealedChannel.Proofs.Curve.Tampering
import SealedChannel.Proofs.Deployment.Alone
import SealedChannel.Proofs.Http.FailedChange
import SealedChannel.Proofs.Http.Failures
import SealedChannel.Proofs.KeyPair.Check
import SealedChannel.Proofs.KeyServer.Armor
import SealedChannel.Proofs.KeyServer.Index
import SealedChannel.Proofs.Mode
import SealedChannel.Proofs.Service.Announcement
import SealedChannel.Proofs.Service.Latency
import SealedChannel.Proofs.Session.Announcements
import SealedChannel.Proofs.Session.BotPosts
import SealedChannel.Proofs.Session.Secrecy
import SealedChannel.Proofs.Settings.Load
import SealedChannel.Proofs.Storage.BatchLookup
import SealedChannel.Proofs.Storage.Contention
import SealedChannel.Proofs.Storage.LockedRace
import SealedChannel.Proofs.Storage.PublicKeys
import SealedChannel.Proofs.Storage.SwapOrSet
import SealedChannel.Proofs.Storage.TypedMaps
