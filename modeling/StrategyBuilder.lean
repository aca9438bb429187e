import StrategyBuilder.Lib.Transition
import StrategyBuilder.Lib.Pool
import StrategyBuilder.Contracts.FeeRegistryCustody
import StrategyBuilder.Lib.FloorDiv
import StrategyBuilder.Contracts.GasCompensation
import StrategyBuilder.Contracts.Vault
import StrategyBuilder.Contracts.VaultSteps
import StrategyBuilder.Contracts.VaultLists
import StrategyBuilder.Contracts.ExecutionContext
import StrategyBuilder.Contracts.Keeper
import StrategyBuilder.Contracts.Conditions
import StrategyBuilder.Contracts.TriggerSchedule
import StrategyBuilder.Lib.Js
import StrategyBuilder.Lib.Search
import StrategyBuilder.Automation.Graph
import StrategyBuilder.Editor.ValidateGraph
import StrategyBuilder.Shared.Validation
import StrategyBuilder.Backend.ContextService
import StrategyBuilder.Backend.EncodingService
import StrategyBuilder.Contracts.AcyclicSteps
import StrategyBuilder.Automation.EncodedGraph
import StrategyBuilder.Editor.Store
import StrategyBuilder.Backend.SlotAllocation
import StrategyBuilder.Editor.DeployDialog
import StrategyBuilder.Backend.SeedCatalog
import StrategyBuilder.Automation.TriggerSlots
import StrategyBuilder.Backend.ContextUpdate
import StrategyBuilder.Automation.UpdateSchedule
import StrategyBuilder.Indexer.EventMapper
import StrategyBuilder.Indexer.GasCompAttribution
import StrategyBuilder.Backend.StructuralValidity
import StrategyBuilder.Backend.ContextWrites
import StrategyBuilder.Backend.SlotRace
import StrategyBuilder.Backend.VariableFields
import StrategyBuilder.Backend.AutomationService
import StrategyBuilder.Backend.AutomationAccess
import StrategyBuilder.Indexer.IndexerService
import StrategyBuilder.Indexer.History
import StrategyBuilder.Indexer.IndexerCalls
import StrategyBuilder.Indexer.BlockScan
import StrategyBuilder.Indexer.Window
import StrategyBuilder.Indexer.FlowWindow
import StrategyBuilder.Indexer.Scan
import StrategyBuilder.Indexer.Ticks
import StrategyBuilder.Indexer.ExactlyOnce
import StrategyBuilder.Indexer.LateVaults
import StrategyBuilder.Indexer.FlowCompleteness
import StrategyBuilder.Indexer.FailureIngest
import StrategyBuilder.Indexer.FailureRuns
import StrategyBuilder.Indexer.ExecutionService
import StrategyBuilder.Backend.FeeService
import StrategyBuilder.Cockpit.Performance
import StrategyBuilder.Cockpit.AaveV3Adapter
import StrategyBuilder.Cockpit.Completeness
import StrategyBuilder.Backend.ContractErrors
import StrategyBuilder.Backend.TriggerStatus
import StrategyBuilder.Backend.AutomationDeletion
import StrategyBuilder.Shared.Encodable
import StrategyBuilder.Lib.Program
import StrategyBuilder.Shared.Amount
import StrategyBuilder.Shared.StepRoles
import StrategyBuilder.Mcp.PolicyGate
import StrategyBuilder.Mcp.Confirmation
import StrategyBuilder.Mcp.SummaryDecoder
import StrategyBuilder.Mcp.IntentCheck
import StrategyBuilder.Mcp.ProposeAutomation
import StrategyBuilder.Mcp.DeployAutomation
import StrategyBuilder.Mcp.CatalogDrift
import StrategyBuilder.Lib.History
import StrategyBuilder.Editor.EditorState
import StrategyBuilder.Editor.NodeIds
import StrategyBuilder.Editor.AutoSave
import StrategyBuilder.Backend.AuthService
import StrategyBuilder.Backend.Reconciliation
import StrategyBuilder.Contracts.ExecutionPath
import StrategyBuilder.Mcp.IntentExecution
import StrategyBuilder.Contracts.AaveActions
import StrategyBuilder.Contracts.HealthFactor
import StrategyBuilder.Editor.UndoRedo
import StrategyBuilder.Editor.DeployFlow
import StrategyBuilder.Backend.VaultService
import StrategyBuilder.Mcp.CreateVault
import StrategyBuilder.Backend.ParamNumbers
import StrategyBuilder.Cockpit.LpMath
import StrategyBuilder.Contracts.PancakeSwapV3
import StrategyBuilder.Editor.Ticks
import StrategyBuilder.Backend.TriggerMirror
import StrategyBuilder.Contracts.SwapToRange
import StrategyBuilder.Contracts.TriggerCheck
import StrategyBuilder.Shared.AmountRoundTrip
import StrategyBuilder.Contracts.VaultFees
import StrategyBuilder.Indexer.VaultFeeRows
import StrategyBuilder.Editor.IsValidConnection
import StrategyBuilder.Editor.ContextLoading
import StrategyBuilder.Contracts.TwapTick
import StrategyBuilder.Mcp.MoneyMovement
import StrategyBuilder.Lib.WorkerPool
import StrategyBuilder.Cockpit.SnapshotService
import StrategyBuilder.Cockpit.ValueHistory
import StrategyBuilder.Contracts.VaultAuthority
import StrategyBuilder.Contracts.VaultFactory
import StrategyBuilder.Contracts.Allowances
import StrategyBuilder.Contracts.ProtocolActions
import StrategyBuilder.Contracts.FeeDeposit
import StrategyBuilder.Contracts.TickPrices
import StrategyBuilder.Backend.VaultOwners
import StrategyBuilder.Indexer.ExecutionsGateway
import StrategyBuilder.Indexer.ExecutionDelivery
import StrategyBuilder.Lib.Upsert
import StrategyBuilder.Cockpit.LpPosition
import StrategyBuilder.Backend.Seeding
import StrategyBuilder.Editor.DeployGate
import StrategyBuilder.Frontend.Session
