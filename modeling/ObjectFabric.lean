import ObjectFabric.Safety.BucketLock
import ObjectFabric.Safety.LockedVersion
import ObjectFabric.Safety.UploadFinisher
import ObjectFabric.Safety.OrphanSweep
import ObjectFabric.Safety.SweepRace
import ObjectFabric.Safety.GetFrame
import ObjectFabric.Safety.AadSweep
import ObjectFabric.Safety.BackgroundPass
import ObjectFabric.ClientSdk.Convergent
import ObjectFabric.ClientSdk.EncryptedSize
import ObjectFabric.Workers.RepairQueue
import ObjectFabric.Gateway.Identity
import ObjectFabric.Auth.SignedBody
import ObjectFabric.Safety.CachedBodies
import ObjectFabric.Safety.LegalHolds
import ObjectFabric.Fleet.CellCap
import ObjectFabric.Fleet.Recovery
import ObjectFabric.Console.Revocation
import ObjectFabric.Console.FactorReplay
import ObjectFabric.Console.FactorBinding
import ObjectFabric.Safety.RoutedParts
import ObjectFabric.Fleet.DualWrite
import ObjectFabric.Fleet.Provisioner
import ObjectFabric.Fleet.Claims
import ObjectFabric.Fleet.Runners
import ObjectFabric.Gateway.PartOrder
import ObjectFabric.Gateway.RangeGrammar
import ObjectFabric.Store.ScanCursor
import ObjectFabric.Workers.StaleUploads
import ObjectFabric.Gateway.Cors
import ObjectFabric.Quota.RateLimiter
import ObjectFabric.Quota.EgressMonth
import ObjectFabric.Cache.CachedStore
import ObjectFabric.Gateway.CachedGet
import ObjectFabric.Gateway.CertifiedFetch
import ObjectFabric.Safety.WriteGates
import ObjectFabric.Workers.Promotion
