import Codohue.StaleEnvelope
import Codohue.RetentionSafety
import Codohue.LegacyGate
import Codohue.RemovalRerun
import Codohue.RepairSnapshots
import Codohue.RepairConfirm
import Codohue.StreamEntry
import Codohue.CatalogDelete
import Codohue.ReembedClosing
import Codohue.RecoverySweep
import Codohue.RankAgreement
import Codohue.NsConfigShape
import Codohue.AccessOwners
import Codohue.AccessTokens
import Codohue.Grants
import Codohue.ComputePasses
import Codohue.RepairManifest
import Codohue.RepairRows
import Codohue.EmbedVerdicts
import Codohue.CatalogUpserts
import Codohue.CatalogWalk
import Codohue.RankOnce
import Codohue.BlendOrder
import Codohue.LoginBuckets
import Codohue.NegativeCache
import Codohue.NsConfigKeys
import Codohue.RemoteIP
import Codohue.Storable
import Codohue.Trending
import Codohue.LikePrefix
import Codohue.SparseVectors
import Codohue.StrictDecode
