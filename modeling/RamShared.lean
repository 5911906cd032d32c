import RamShared.OriginCache.Coherence
import RamShared.Isolated.Authority
import RamShared.Isolated.Revocation
import RamShared.Elastic.Soundness
import RamShared.Nbd.Isolation
import RamShared.Broker.Revocation
import RamShared.N3.RestartCodec
import RamShared.N3.Scrub
import RamShared.Broker.Sessions
import RamShared.Broker.Wire
import RamShared.N3.Authority
import RamShared.Ublk.Agreement
import RamShared.Ublk.Pipeline
import RamShared.Nbd.Teardown
import RamShared.Agent.Release
import RamShared.Agent.Cleanliness
import RamShared.Driver.Requests
import RamShared.Driver.Fetch
import RamShared.Driver.Reads
import RamShared.Workload.Budget
import RamShared.Admission.Minute
import RamShared.Cascade.SwapoffFirst
import RamShared.Winsvc.Teardown
import RamShared.Winbroker.Orphan
import RamShared.Elastic.Budget
import RamShared.Elastic.Healthy
import RamShared.Sparse.Commit
import RamShared.OriginCache.Growth
import RamShared.Broker.RoundRobin
import RamShared.Broker.Bookkeeping
import RamShared.Nbd.Transparent
import RamShared.Nbd.Connection
import RamShared.Nbd.Recovery
import RamShared.Ublk.Lifecycle
import RamShared.Broker.Geometry
import RamShared.Tiering.Policies
import RamShared.Integrity.Hash
import RamShared.Integrity.Pattern
import RamShared.Block.Inflight
