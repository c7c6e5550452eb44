import MalloyPublisher.Connections.DestinationEquality
import MalloyPublisher.Connections.PostgresStrings
import MalloyPublisher.Incremental.MergeRefresh
import MalloyPublisher.Access.FilterSource
import MalloyPublisher.Access.FilterClause
import MalloyPublisher.Grafting.GraftedModel
import MalloyPublisher.Gates.PartitionWalk
import MalloyPublisher.Gates.GivenExpansion
import MalloyPublisher.Serving.JoinOrder
import MalloyPublisher.Serving.ShapeLadder
import MalloyPublisher.Serving.ShapeMemo
import MalloyPublisher.Dashboard.OpenedFile
import MalloyPublisher.Dashboard.FilterRescue
import MalloyPublisher.Preaggregation.TakesEffect
import MalloyPublisher.Preaggregation.CompanionModel
import MalloyPublisher.Materialization.TableReclaim
import MalloyPublisher.Environments.GetEnvironment
import MalloyPublisher.PackageLoad.OneJob
import MalloyPublisher.Materialization.FreezeRefusals
import MalloyPublisher.Connections.StorageDestinations
import MalloyPublisher.Connections.Revealed
import MalloyPublisher.Connections.InStep
import MalloyPublisher.Environments.Restart
import MalloyPublisher.Serving.LoadPaths
import MalloyPublisher.Serving.PublicColumns
import MalloyPublisher.Duckdb.ExpiredCredentials
import MalloyPublisher.Duckdb.AttachedDatabases
import MalloyPublisher.Materialization.Scheduler
import MalloyPublisher.Materialization.RunBooks
import MalloyPublisher.Givens.GivensState
import MalloyPublisher.Connections.GenerationReleased
import MalloyPublisher.Incremental.BoundOrder
import MalloyPublisher.Incremental.BoundLag
import MalloyPublisher.Materialization.CollisionWarnings
import MalloyPublisher.Materialization.Redaction
import MalloyPublisher.Materialization.ReferenceSeed
import MalloyPublisher.Connections.SecretStatements
import MalloyPublisher.Materialization.StorageBuild
import MalloyPublisher.Dashboard.Layout
import MalloyPublisher.Dashboard.LineDiff
import MalloyPublisher.Dashboard.Controls
import MalloyPublisher.Duckdb.CloudDirectories
import MalloyPublisher.Environments.Downloads
import MalloyPublisher.Environments.SaveModelFile
import MalloyPublisher.Context.CollapsedFields
import MalloyPublisher.Context.Listing
import MalloyPublisher.Context.KeptAnswers
