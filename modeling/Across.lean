import Across.Abi
import Across.AdminCalldata
import Across.AdminMessages
import Across.AdminScope
import Across.Bitmaps
import Across.BondToken
import Across.Borsh
import Across.BundleSizes
import Across.CallExec
import Across.Callbacks
import Across.CctpAdapter
import Across.Checked
import Across.ClaimedBits
import Across.CrossChain
import Across.DepositFunds
import Across.DepositIds
import Across.DepositPulls
import Across.Erc20
import Across.Exclusivity
import Across.FillAgreement
import Across.FillFunds
import Across.FillLifecycle
import Across.FillRent
import Across.Forwarder
import Across.HubBundles
import Across.HubEquity
import Across.HubFees
import Across.HubLegs
import Across.HubMessages
import Across.HubOrder
import Across.HubPool
import Across.HubProposals
import Across.HubRate
import Across.HubReach
import Across.HubRefine
import Across.HubReserves
import Across.HubRoundTrips
import Across.HubRules
import Across.HubRun
import Across.HubSmear
import Across.HubSolvency
import Across.HubState
import Across.HubSteps
import Across.InstructionParams
import Across.Keccak
import Across.LeafBatches
import Across.LeafDomains
import Across.LineaPool
import Across.Mailbox
import Across.MerkleLib
import Across.MerkleProof
import Across.MerkleTree
import Across.MessageTranslation
import Across.MulticallHandler
import Across.OrderContract
import Across.OrderDepositor
import Across.OrderOriginData
import Across.OrderSettlers
import Across.OrderWitness
import Across.PausedFills
import Across.Permit2Depositor
import Across.Permit2Order
import Across.PooledAsset
import Across.RefundLeaves
import Across.RelayHash
import Across.Rerouting
import Across.SettlerFill
import Across.Sha256
import Across.ShareRate
import Across.SpeedUp
import Across.SpokeBooks
import Across.SpokeFunds
import Across.SpokeLedger
import Across.SpokePool
import Across.SpokeRules
import Across.SpokeState
import Across.SpokeTypes
import Across.SvmBundles
import Across.SvmCalls
import Across.SvmDeposits
import Across.SvmFills
import Across.SvmGuarantees
import Across.SvmLeaves
import Across.SvmOrders
import Across.SvmProgram
import Across.SvmRefunds
import Across.SvmSpoke
import Across.SvmState
import Across.SvmSteps
import Across.SvmTypes
import Across.SwapAndBridge
import Across.WhileLoop
import Across.WordBytes
