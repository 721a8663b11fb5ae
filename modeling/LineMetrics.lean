import LineMetrics.Arrangement
import LineMetrics.Attribute
import LineMetrics.AttributeForm
import LineMetrics.Batch
import LineMetrics.Batch.Assembly
import LineMetrics.Binary64
import LineMetrics.Binary64.Order
import LineMetrics.Binary64.Rounding
import LineMetrics.Binary64.Text
import LineMetrics.Buckets
import LineMetrics.Calendar
import LineMetrics.CommandLine
import LineMetrics.Decimal
import LineMetrics.Decimal.Reader
import LineMetrics.Decimal.Shortest
import LineMetrics.Dictionary
import LineMetrics.DistributionPoints
import LineMetrics.Doubles
import LineMetrics.Error
import LineMetrics.Export
import LineMetrics.FieldValue
import LineMetrics.Grouping
import LineMetrics.Instant
import LineMetrics.Intake
import LineMetrics.Json
import LineMetrics.Json.Grammar
import LineMetrics.Json.Number
import LineMetrics.Json.Printer
import LineMetrics.Json.Reader
import LineMetrics.Json.Record
import LineMetrics.Json.Text
import LineMetrics.KeyOrder
import LineMetrics.Main
import LineMetrics.MetricKind
import LineMetrics.MetricTree
import LineMetrics.Number
import LineMetrics.Observation
import LineMetrics.Outline
import LineMetrics.Placement
import LineMetrics.Point
import LineMetrics.Point.Json
import LineMetrics.PointWriter
import LineMetrics.Proofs.Acceptance
import LineMetrics.Proofs.AcceptedSlices
import LineMetrics.Proofs.ArrangedArrivals
import LineMetrics.Proofs.ArrangedExport
import LineMetrics.Proofs.Arranging
import LineMetrics.Proofs.ArrivalOrder
import LineMetrics.Proofs.AssembledMetrics
import LineMetrics.Proofs.Assembling
import LineMetrics.Proofs.ChainedCommands
import LineMetrics.Proofs.Computations
import LineMetrics.Proofs.Contributions
import LineMetrics.Proofs.CounterExport
import LineMetrics.Proofs.CountsInPlace
import LineMetrics.Proofs.Dates
import LineMetrics.Proofs.DistributionContent
import LineMetrics.Proofs.DroppedLines
import LineMetrics.Proofs.ExactCounts
import LineMetrics.Proofs.ExportWalk
import LineMetrics.Proofs.ExpressibleMetrics
import LineMetrics.Proofs.FieldPoints
import LineMetrics.Proofs.FiniteNumbers
import LineMetrics.Proofs.Gathering
import LineMetrics.Proofs.Groups
import LineMetrics.Proofs.HistogramShape
import LineMetrics.Proofs.InferredTypes
import LineMetrics.Proofs.InfiniteBuckets
import LineMetrics.Proofs.InfiniteFields
import LineMetrics.Proofs.InstantText
import LineMetrics.Proofs.JsonGrammar
import LineMetrics.Proofs.JsonLeaves
import LineMetrics.Proofs.LastSlices
import LineMetrics.Proofs.LatestBuckets
import LineMetrics.Proofs.LineEndings
import LineMetrics.Proofs.MetricGroups
import LineMetrics.Proofs.NearestNumbers
import LineMetrics.Proofs.NestedTags
import LineMetrics.Proofs.NumberRecords
import LineMetrics.Proofs.NumberText
import LineMetrics.Proofs.NumericOrder
import LineMetrics.Proofs.PlaceKeys
import LineMetrics.Proofs.ReadSymbols
import LineMetrics.Proofs.Reassembling
import LineMetrics.Proofs.Refinement
import LineMetrics.Proofs.Refusal
import LineMetrics.Proofs.Regrouping
import LineMetrics.Proofs.RequestForm
import LineMetrics.Proofs.RequestLeaves
import LineMetrics.Proofs.RereadNumbers
import LineMetrics.Proofs.RereadPoints
import LineMetrics.Proofs.RestatedCounts
import LineMetrics.Proofs.Rewriting
import LineMetrics.Proofs.Rounding
import LineMetrics.Proofs.RoundingErrors
import LineMetrics.Proofs.RunningTotals
import LineMetrics.Proofs.SchemaConversion
import LineMetrics.Proofs.SecondExport
import LineMetrics.Proofs.SeriesPoints
import LineMetrics.Proofs.ShortDecimals
import LineMetrics.Proofs.SignificandText
import LineMetrics.Proofs.SlicedContributions
import LineMetrics.Proofs.SlicedConversion
import LineMetrics.Proofs.SlicedPoints
import LineMetrics.Proofs.SlicedReadings
import LineMetrics.Proofs.SlicedRoundTrip
import LineMetrics.Proofs.StableArrangement
import LineMetrics.Proofs.StableSorting
import LineMetrics.Proofs.StartTimes
import LineMetrics.Proofs.StatedDistributions
import LineMetrics.Proofs.StatedValues
import LineMetrics.Proofs.SummaryShape
import LineMetrics.Proofs.TagPrecedence
import LineMetrics.Proofs.TagRoundTrip
import LineMetrics.Proofs.Tags
import LineMetrics.Proofs.TotalLines
import LineMetrics.Proofs.WellFormed
import LineMetrics.Proofs.WholeAndSliced
import LineMetrics.Proofs.WholeContributions
import LineMetrics.Proofs.WholeDistributions
import LineMetrics.Proofs.WholeGrammar
import LineMetrics.Proofs.WholePoints
import LineMetrics.Proofs.WholeReadings
import LineMetrics.Proofs.WholeRoundTrip
import LineMetrics.Proofs.WritableTrees
import LineMetrics.Proofs.WritingAgain
import LineMetrics.Proofs.WrittenJson
import LineMetrics.Proofs.WrittenMetrics
import LineMetrics.Proofs.WrittenNumbers
import LineMetrics.Proofs.WrittenText
import LineMetrics.Proofs.WrittenTrees
import LineMetrics.Records
import LineMetrics.Reordering
import LineMetrics.Request.Printer
import LineMetrics.Request.Reader
import LineMetrics.Rereading
import LineMetrics.ReservedName
import LineMetrics.Restating
import LineMetrics.Restoring
import LineMetrics.Schema
import LineMetrics.Session
import LineMetrics.Sliced.Observations
import LineMetrics.Sliced.Points
import LineMetrics.Sorting
import LineMetrics.Table
import LineMetrics.TagLevels
import LineMetrics.Text.Base64
import LineMetrics.Text.Blank
import LineMetrics.Text.Integer
import LineMetrics.Text.Lines
import LineMetrics.Text.Quoted
import LineMetrics.Text.Symbols
import LineMetrics.Text.Visible
import LineMetrics.Whole.FieldPoints
import LineMetrics.Whole.Observations
import LineMetrics.Whole.Points
import LineMetrics.Whole.Restoring
