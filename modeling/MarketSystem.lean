import MarketSystem.Library.Table
import MarketSystem.Library.Json
import MarketSystem.Library.Process
import MarketSystem.Library.Sessions
import MarketSystem.Library.History
import MarketSystem.Library.Fallible
import MarketSystem.Library.Runs
import MarketSystem.Library.Loop
import MarketSystem.Library.WallClock
import MarketSystem.Library.Grid
import MarketSystem.Library.Refusal
import MarketSystem.Library.SortedView
import MarketSystem.Library.FirstCopy
import MarketSystem.Library.SlidingBudget
import MarketSystem.Core.RrContract
import MarketSystem.Core.RiskPolicy
import MarketSystem.Execution.Contracts
import MarketSystem.Data.MarketEvidence
import MarketSystem.Execution.TradeManager
import MarketSystem.Execution.PaperBroker
import MarketSystem.Execution.RiskEngine
import MarketSystem.Execution.RiskReservation
import MarketSystem.Execution.PortfolioRisk
import MarketSystem.Execution.ConflictEngine
import MarketSystem.Storage.Database
import MarketSystem.Storage.Slots
import MarketSystem.Storage.SlotLifecycle
import MarketSystem.Storage.PaperStore
import MarketSystem.Execution.PaperWriters
import MarketSystem.Execution.PaperLinks
import MarketSystem.Execution.TradeDuration
import MarketSystem.Execution.WeekendRule
import MarketSystem.Execution.EurusdPullback
import MarketSystem.Core.FxPolicy
import MarketSystem.Execution.ScaleOut
import MarketSystem.Execution.RouterEntry
import MarketSystem.Execution.RouterState
import MarketSystem.Execution.RouterRequests
import MarketSystem.Execution.RouterMoves
import MarketSystem.Execution.RouterTick
import MarketSystem.Execution.FlattenFinish
import MarketSystem.Runtime.GuardedWrite
import MarketSystem.Execution.BrokerRuns
import MarketSystem.Execution.PaperAccounting
import MarketSystem.Execution.PendingOrderGate
import MarketSystem.Execution.PendingEvaluation
import MarketSystem.Runtime.PaperCycle
import MarketSystem.Runtime.PendingGateRuns
import MarketSystem.Runtime.PaperContracts
import MarketSystem.Runtime.GateAgreement
import MarketSystem.Replay.Engine
import MarketSystem.Replay.PaperParity
import MarketSystem.Execution.RiskDeterminism
import MarketSystem.Execution.PositionCatchUp
import MarketSystem.Execution.CandidateIdentity
import MarketSystem.Execution.ConflictPath
import MarketSystem.Execution.ConflictOutcome
import MarketSystem.Execution.OppositePolicy
import MarketSystem.Execution.OppositeOutcome
import MarketSystem.Execution.OppositeRuns
import MarketSystem.Runtime.OneExposure
import MarketSystem.Runtime.ExposureRuns
import MarketSystem.Execution.AccountRegistry
import MarketSystem.Execution.EmergencyStop
import MarketSystem.Execution.DailyLossLimit
import MarketSystem.Execution.LossCheck
import MarketSystem.Execution.DailyLossSteps
import MarketSystem.Execution.LossHalts
import MarketSystem.Execution.TransferAccounting
import MarketSystem.Agents.Scouts
import MarketSystem.Agents.StructureAgent
import MarketSystem.Agents.LiquidityAgent
import MarketSystem.Agents.MacroNewsAgent
import MarketSystem.Agents.KnownItems
import MarketSystem.Agents.SetupValidator
import MarketSystem.Agents.TargetPlanner
import MarketSystem.Agents.FirstObstacle
import MarketSystem.Agents.TradePlanner
import MarketSystem.Floor.Riesgo
import MarketSystem.Floor.ApprovedPlan
import MarketSystem.Floor.Orchestrator
import MarketSystem.Agents.StructureHistory
import MarketSystem.Floor.NoLookAhead
import MarketSystem.Data.FxMacroData
import MarketSystem.Data.FinnhubMacro
import MarketSystem.Data.NewsWindow
import MarketSystem.Data.FxNewsWindow
import MarketSystem.Data.FinnhubNewsWindow
import MarketSystem.Data.ReleaseHour
import MarketSystem.Storage.EvidenceStore
import MarketSystem.Data.EvidenceIngest
import MarketSystem.Data.EvidenceStream
import MarketSystem.Library.JsonText
import MarketSystem.Storage.EconomicDigest
import MarketSystem.Library.PyJson
import MarketSystem.Runtime.RevisionReview
import MarketSystem.Runtime.ReviewGate
import MarketSystem.Execution.DemoMetrics
import MarketSystem.Execution.DemoCapital
import MarketSystem.Ui.Auth
import MarketSystem.Ui.LoginBound
import MarketSystem.Library.FallibleLoop
import MarketSystem.Backtest.Simulador
import MarketSystem.Backtest.Equity
import MarketSystem.Data.TwelveData
import MarketSystem.Data.TwelveDataCache
import MarketSystem.Library.Paging
import MarketSystem.Execution.DemoTrades
import MarketSystem.Execution.DemoTradesRead
import MarketSystem.Execution.CachedDemoTrades
import MarketSystem.Library.KeysetScan
import MarketSystem.Library.Takeover
import MarketSystem.Runtime.AlertDispatch
import MarketSystem.Storage.DailySummary
import MarketSystem.Runtime.SummaryOutbox
import MarketSystem.Runtime.SummaryOutboxRuns
import MarketSystem.Library.IsoTime
import MarketSystem.Replay.EvidenceReadiness
import MarketSystem.Execution.UndisturbedCatchUp
import MarketSystem.Runtime.CatchUpScope
import MarketSystem.Execution.CachedDemoTradesRuns
import MarketSystem.Runtime.AlertRuns
import MarketSystem.Execution.HistorialAccepted
import MarketSystem.Execution.OandaSubmit
import MarketSystem.Execution.ScaleOutUnits
import MarketSystem.Runtime.Rex
import MarketSystem.Replay.RexDecode
import MarketSystem.Runtime.HaltGate
import MarketSystem.Runtime.HaltBarrier
import MarketSystem.Library.OwnedPool
import MarketSystem.Execution.OperatorRequests
import MarketSystem.Execution.OperatorRuns
import MarketSystem.Ai.Contracts
import MarketSystem.Ai.Runtime
import MarketSystem.Ai.Agents
import MarketSystem.Ai.Orchestrator
import MarketSystem.Ai.FailClosed
import MarketSystem.Ai.ProviderHealth
import MarketSystem.Library.Records
import MarketSystem.Runtime.SystemHealth
import MarketSystem.Runtime.HealthFacts
import MarketSystem.Runtime.CandleCache
import MarketSystem.Execution.OandaClientRuns
import MarketSystem.Library.Images
import MarketSystem.Storage.Codec
import MarketSystem.Storage.CodecRoundTrip
import MarketSystem.Replay.RexOracle
import MarketSystem.Replay.RecordedState
import MarketSystem.Replay.OracleManagement
import MarketSystem.Replay.OracleFill
import MarketSystem.Replay.OracleSubmission
import MarketSystem.Replay.OracleAgreement
import MarketSystem.Replay.RexChain
