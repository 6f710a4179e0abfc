import Zigopt.Lib.Interleaving
import Zigopt.Lib.Raising
import Zigopt.Lib.CursorTraversal
import Zigopt.Lib.Trace
import Zigopt.Lib.LastWrite
import Zigopt.Lib.Ranking
import Zigopt.Lib.Grid
import Zigopt.Lib.RoundRobin
import Zigopt.Lib.Json
import Zigopt.Lib.Registry
import Zigopt.Pagination.FieldValue
import Zigopt.Pagination.Paging
import Zigopt.Pagination.PagerTraversal
import Zigopt.Pagination.Query
import Zigopt.Pagination.QueryAgreement
import Zigopt.Suggestion.Broker
import Zigopt.Suggestion.ServeOnce
import Zigopt.Handlers.ValidateDict
import Zigopt.Experiment.Names
import Zigopt.Experiment.Meta
import Zigopt.Experiment.FromJson
import Zigopt.Experiment.Update
import Zigopt.Experiment.Revision
import Zigopt.Experiment.ParameterNames
import Zigopt.Experiment.CategoricalValues
import Zigopt.Observations.Data
import Zigopt.Observations.Values
import Zigopt.Observations.Handlers
import Zigopt.Observations.WellFormed
import Zigopt.Progress.Query
import Zigopt.Progress.BestObservation
import Zigopt.Assignments.Validate
import Zigopt.GridSearch.Sampler
import Zigopt.GridSearch.Coverage
import Zigopt.Tokens.Model
import Zigopt.Tokens.Service
import Zigopt.Tokens.Expiration
import Zigopt.Experiment.Conditionals
import Zigopt.Assignments.Render
import Zigopt.Experiment.Identity
import Zigopt.Assignments.RoundTrip
import Zigopt.Billing.Counter
import Zigopt.Billing.CountAgreement
import Zigopt.Lib.Process
import Zigopt.TrainingRuns.Data
import Zigopt.TrainingRuns.Update
import Zigopt.TrainingRuns.Alone
import Zigopt.TrainingRuns.Reported
import Zigopt.TrainingRuns.Rejection
import Zigopt.TrainingRuns.Create
import Zigopt.Lib.Following
import Zigopt.TrainingRuns.Links
import Zigopt.TrainingRuns.DeletedFlag
import Zigopt.TrainingRuns.ObservedOnce
import Zigopt.Lib.Commit
import Zigopt.Organizations.Data
import Zigopt.Organizations.Services
import Zigopt.Organizations.Statements
import Zigopt.Organizations.Merge
import Zigopt.Organizations.Access
import Zigopt.Organizations.AccessKept
import Zigopt.Pagination.EmptyPage
import Zigopt.GridSearch.Indexing
import Zigopt.Lib.Drawing
import Zigopt.Suggestion.CategoricalSampler
import Zigopt.Experiment.TwoValues
import Zigopt.Suggestion.UnseenCombination
import Zigopt.Organizations.Privacy
import Zigopt.Lib.RedisTable
import Zigopt.Suggestion.RedisStore
import Zigopt.Queue.Optimize
import Zigopt.Queue.NothingLost
import Zigopt.Experiment.Segmenter
import Zigopt.Experiment.SegmentsRight
import Zigopt.Suggestion.LatinHypercube
import Zigopt.TrainingRuns.Documents
import Zigopt.TrainingRuns.FinishedAlike
import Zigopt.Lib.Comparison
import Zigopt.Lib.Protobuf
import Zigopt.Lib.Sql
import Zigopt.Db.Column
import Zigopt.Db.FollowedPaths
import Zigopt.Db.ColumnAgreement
import Zigopt.Lib.ExpiringCounters
import Zigopt.RateLimit.Service
import Zigopt.RateLimit.WindowLimit
import Zigopt.Tokens.Sessions
import Zigopt.Experiment.Metrics
import Zigopt.Observations.Reportable
import Zigopt.BestAssignments.Service
import Zigopt.Lib.Pareto
import Zigopt.BestAssignments.Correct
import Zigopt.Db.JsonPath
import Zigopt.Db.DescriptorJson
import Zigopt.Authorization.Model
import Zigopt.Authorization.Restriction
import Zigopt.Lib.DottedText
import Zigopt.TrainingRuns.DefinedFields
import Zigopt.TrainingRuns.StoredLeaves
import Zigopt.TrainingRuns.DefinedFieldCounts
import Zigopt.Experiment.Constraints
import Zigopt.Experiment.ConstraintMeaning
import Zigopt.Assignments.Unconditioned
import Zigopt.Assignments.UnconditionedView
import Zigopt.Web.Dimensions
import Zigopt.Web.ExhaustivePaging
import Zigopt.Web.Poller
import Zigopt.Web.DimensionTypes
import Zigopt.Web.DimensionsFaithful
import Zigopt.Web.DimensionsSlice
import Zigopt.Lib.RedisKeys
import Zigopt.Redis.Service
import Zigopt.Redis.RetriedOnce
import Zigopt.Api.CleanBody
import Zigopt.Api.LoggedAlike
import Zigopt.Web.Pageable
import Zigopt.Web.PageableRight
import Zigopt.Observations.SentBack
import Zigopt.Experiment.TypedParameters
import Zigopt.SigoptCompute.Adapter
import Zigopt.SigoptCompute.ColumnsAgree
import Zigopt.Optimize.Hyperparameters
import Zigopt.Optimize.HyperparametersKept
import Zigopt.Lib.UrlOrigin
import Zigopt.Web.AssignmentsInput
import Zigopt.Lib.PythonLiteral
import Zigopt.Web.ContinueHref
import Zigopt.Web.CodeGenerator
import Zigopt.Web.CodeGeneratorRight
import Zigopt.Lib.Base64
import Zigopt.Api.PagingMarker
import Zigopt.Lib.WireFormat
import Zigopt.Api.PagingRoundTrip
import Zigopt.Lib.RecursiveMerge
import Zigopt.TrainingRuns.MergedLeaves
import Zigopt.TrainingRuns.Collections
import Zigopt.Experiment.ConsistencyKept
import Zigopt.Suggestion.Feasible
import Zigopt.Suggestion.SampledPoints
import Zigopt.Suggestion.ServedFeasible
import Zigopt.Lib.DecimalNumerals
