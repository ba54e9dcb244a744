import StshProtocol.ShieldedPool.Recovery.Entries
import StshProtocol.ShieldedPool.Treasury.Runs
import StshProtocol.Token.Unobservable
import StshProtocol.MerkleTree.RootHistory
import StshProtocol.Staking.Passage
import StshProtocol.SmokeAlarm.Encoding
import StshProtocol.Vetkeys.Approvals
import StshProtocol.Vetkeys.Aging
import StshProtocol.ShieldedPool.PrivateSpend.Signals
import StshProtocol.ShieldedPool.Recovery.Cell
import StshProtocol.ShieldedPool.ControllerReads
import StshProtocol.ShieldedPool.Certification
import StshProtocol.ShieldedPool.Retention.Bound
import StshProtocol.MerkleTree.Batch
import StshProtocol.NullifierRegistry.Paging
import StshProtocol.FeePolicy.Split
import StshProtocol.Vesting.Curve
import StshProtocol.Vetkeys.Hints
import StshProtocol.Vetkeys.FleetCell
import StshProtocol.Verifier.WalletProof
import StshProtocol.Custody.Rates
import StshProtocol.Vetkeys.Meter
import StshProtocol.Wallet.Fees
import StshProtocol.Wallet.TransferJournal
import StshProtocol.Wallet.KeyAccess
import StshProtocol.Wallet.Balance
import StshProtocol.Wallet.TokenFormat
import StshProtocol.StoredKeys
import StshProtocol.Wallet.SpendRequest
import StshProtocol.StoredRecords
import StshProtocol.CycleMonitor.History
import StshProtocol.CycleMonitor.Fleet
import StshProtocol.Wallet.RecoveryExact
import StshProtocol.Wallet.CacheSession
import StshProtocol.ShieldedPool.Lease
import StshProtocol.Token.Debits
