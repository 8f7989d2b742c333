import CratonBolt.CtxBinder
import CratonBolt.Decimals.Exact
import CratonBolt.GroupBy.SqlGroups
import CratonBolt.Joins.DeviceJoinCorrect
import CratonBolt.Joins.NestedLoopChunks
import CratonBolt.ModuleCache
import CratonBolt.Optimizer.ConstantFoldSchema
import CratonBolt.Optimizer.FilterIntoJoinRuns
import CratonBolt.Optimizer.JoinEnumeration
import CratonBolt.OutOfCore.PrunedSource
import CratonBolt.Reclaim
import CratonBolt.Sessions.Exclusion
import CratonBolt.SetOps
import CratonBolt.Storage.TableStatistics
import CratonBolt.Strings.LikeCorrect
import CratonBolt.Strings.RankConflicts
import CratonBolt.Transactions.Rollback
