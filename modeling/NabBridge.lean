import NabBridge.Contract.Calls
import NabBridge.Contract.Gravity
import NabBridge.Contract.Holdings
import NabBridge.Contract.Signatures
import NabBridge.Keeper.Attestation
import NabBridge.Keeper.AttestationHandler
import NabBridge.Keeper.Bank
import NabBridge.Keeper.Batch
import NabBridge.Keeper.BatchFees
import NabBridge.Keeper.Confirm
import NabBridge.Keeper.CosmosOriginated
import NabBridge.Keeper.DelegateKeys
import NabBridge.Keeper.EndBlocker
import NabBridge.Keeper.Evidence
import NabBridge.Keeper.Genesis
import NabBridge.Keeper.LogicCall
import NabBridge.Keeper.Params
import NabBridge.Keeper.Pending
import NabBridge.Keeper.Pool
import NabBridge.Keeper.PrefixRange
import NabBridge.Keeper.Queries
import NabBridge.Keeper.RecentAttestations
import NabBridge.Keeper.Slashing
import NabBridge.Keeper.Valset
import NabBridge.Lib.Abi
import NabBridge.Lib.AbiRead
import NabBridge.Lib.Bytes
import NabBridge.Lib.Distance
import NabBridge.Lib.Fields
import NabBridge.Lib.Nonces
import NabBridge.Lib.Outcome
import NabBridge.Lib.Queue
import NabBridge.Lib.Run
import NabBridge.Lib.Settlement
import NabBridge.Lib.Store
import NabBridge.Lib.Sweep
import NabBridge.Orchestrator.BatchRelaying
import NabBridge.Orchestrator.Confirms
import NabBridge.Orchestrator.EthSigner
import NabBridge.Orchestrator.EventIndices
import NabBridge.Orchestrator.Events
import NabBridge.Orchestrator.FindLatestValset
import NabBridge.Orchestrator.OracleResync
import NabBridge.Orchestrator.PowerDiff
import NabBridge.Orchestrator.Relayer
import NabBridge.Orchestrator.Types
import NabBridge.Proof.Archive
import NabBridge.Proof.Attribution
import NabBridge.Proof.Backing
import NabBridge.Proof.BatchFees
import NabBridge.Proof.BatchRelaying
import NabBridge.Proof.BatchRequests
import NabBridge.Proof.BatchSelection
import NabBridge.Proof.BatchSlashing
import NabBridge.Proof.BatchTimeout
import NabBridge.Proof.BlockCases
import NabBridge.Proof.BridgeRun
import NabBridge.Proof.Completeness
import NabBridge.Proof.ConfirmLookups
import NabBridge.Proof.Conservation
import NabBridge.Proof.ContractRun
import NabBridge.Proof.DenomLookup
import NabBridge.Proof.Deposits
import NabBridge.Proof.Digests
import NabBridge.Proof.DoubleSpend
import NabBridge.Proof.Effects
import NabBridge.Proof.Encoders
import NabBridge.Proof.EthSigner
import NabBridge.Proof.EventDecoding
import NabBridge.Proof.EventRoundTrip
import NabBridge.Proof.Follows
import NabBridge.Proof.ForgedQuorum
import NabBridge.Proof.HonestSigner
import NabBridge.Proof.Identifiers
import NabBridge.Proof.LatestValset
import NabBridge.Proof.LogParsing
import NabBridge.Proof.LogicCallSlashing
import NabBridge.Proof.Majority
import NabBridge.Proof.NodeEffects
import NabBridge.Proof.NonSigners
import NabBridge.Proof.OracleIntegrity
import NabBridge.Proof.OracleLoop
import NabBridge.Proof.OracleProgress
import NabBridge.Proof.OracleResync
import NabBridge.Proof.OracleRounds
import NabBridge.Proof.OracleRun
import NabBridge.Proof.OracleStuck
import NabBridge.Proof.Outgoing
import NabBridge.Proof.ParamStorage
import NabBridge.Proof.PoolFiling
import NabBridge.Proof.PoolOrder
import NabBridge.Proof.PoolSends
import NabBridge.Proof.PowerDiff
import NabBridge.Proof.PowerNormalization
import NabBridge.Proof.PrefixRange
import NabBridge.Proof.Preimages
import NabBridge.Proof.RecentAttestations
import NabBridge.Proof.Refund
import NabBridge.Proof.Registrations
import NabBridge.Proof.Registry
import NabBridge.Proof.Relaying
import NabBridge.Proof.Restart
import NabBridge.Proof.SignatureConventions
import NabBridge.Proof.SignatureQuorum
import NabBridge.Proof.Signers
import NabBridge.Proof.Solvency
import NabBridge.Proof.Spelling
import NabBridge.Proof.Submission
import NabBridge.Proof.ValsetLifecycle
import NabBridge.Proof.ValsetOrder
import NabBridge.Proof.ValsetSlashing
import NabBridge.System.Blocks
import NabBridge.System.Bridge
import NabBridge.System.EthSigner
import NabBridge.System.Node
import NabBridge.System.Oracle
import NabBridge.System.OracleLoop
import NabBridge.Types.Address
import NabBridge.Types.Batch
import NabBridge.Types.ClaimHash
import NabBridge.Types.Claims
import NabBridge.Types.EthereumSigner
import NabBridge.Types.Keys
import NabBridge.Types.PowerDiff
