import Sigstore.HashTree.Basic
import Sigstore.HashTree.Levels
import Sigstore.HashTree.Consistency
import Sigstore.Merkle.Proof
import Sigstore.Merkle.Inclusion
import Sigstore.Merkle.Consistency
import Sigstore.BTreeMap
import Sigstore.Runs
import Sigstore.Types.Json
import Sigstore.Crypto.Verification
import Sigstore.Tuf.Metadata
import Sigstore.Checks
import Sigstore.Tuf.Trusted
import Sigstore.Tuf.Threshold
import Sigstore.Tuf.Invariants
import Sigstore.Tuf.Rollback
import Sigstore.Types.Encoding
import Sigstore.Types.Bundle
import Sigstore.Types.Checkpoint
import Sigstore.Crypto.Checkpoint
import Sigstore.Crypto.X509
import Sigstore.TrustRoot.TrustedRoot
import Sigstore.Tsa.Verify
import Sigstore.Bundle.Validation
import Sigstore.Rekor.Body
import Sigstore.Verify.Tlog
import Sigstore.Verify.HashedRekord
import Sigstore.Verify.Rekor
import Sigstore.Verify.Helpers
import Sigstore.Verify.Verifier
import Sigstore.Verify.Binding
import Sigstore.Verify.Transparency
import Sigstore.HashTree.Binding
import Sigstore.Merkle.Position
import Sigstore.Verify.Position
import Sigstore.Verify.Time
import Sigstore.Verify.Signatures
import Sigstore.Verify.RecordedVerifier
import Sigstore.Tuf.Monotone
import Sigstore.Tuf.Superseded
import Sigstore.Delimited
import Sigstore.Tuf.Canonical
import Sigstore.Actions
import Sigstore.Tuf.Cache
import Sigstore.Tuf.Client
import Sigstore.Tuf.Moves
import Sigstore.Tuf.Refresh
import Sigstore.Tuf.Target
import Sigstore.Tuf.Restart
import Sigstore.Tuf.Delegation
import Sigstore.Tuf.Lookup
import Sigstore.Tuf.Chain
import Sigstore.Tuf.Independence
import Sigstore.Tuf.Bootstrap
import Sigstore.Tuf.Cached
import Sigstore.Tuf.Offline
import Sigstore.Tuf.OfflineRun
import Sigstore.Verify.Authority
import Sigstore.Verify.DigestMode
import Sigstore.Verify.Windows
import Sigstore.Types.Serialize
import Sigstore.Types.BundleJson
import Sigstore.Bundle.RoundTrip
import Sigstore.DepthFirst
import Sigstore.Tuf.Preorder
import Sigstore.Tuf.RootChain
import Sigstore.Tuf.CacheKeys
import Sigstore.Rekor.Format
import Sigstore.Verify.BodyKind
import Sigstore.Verify.IntegratedTime
import Sigstore.Verify.ManagedKey
import Sigstore.Reordering
import Sigstore.Types.Lines
import Sigstore.Verify.CheckpointOrder
import Sigstore.Types.Dsse
import Sigstore.Bundle.CheckpointRoundTrip
import Sigstore.Verify.IssuerOrder
import Sigstore.Cache.Memory
import Sigstore.Bundle.Builder
import Sigstore.Cache.FileSystem
import Sigstore.Merkle.Growth
import Sigstore.Verify.EntryOrder
import Sigstore.Verify.Policy
