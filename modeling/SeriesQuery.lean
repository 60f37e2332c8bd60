import SeriesQuery.Main
import SeriesQuery.Proofs.Column.InPlace
import SeriesQuery.Proofs.Command.ExpandedRange
import SeriesQuery.Proofs.Command.PrintedWidth
import SeriesQuery.Proofs.Config.Usable
import SeriesQuery.Proofs.Engine.Delivery
import SeriesQuery.Proofs.Expansion.IllFormed
import SeriesQuery.Proofs.Expansion.Joined
import SeriesQuery.Proofs.Expansion.Literals
import SeriesQuery.Proofs.FanOut.Agreement
import SeriesQuery.Proofs.FanOut.Cancellation
import SeriesQuery.Proofs.FanOut.Deadline
import SeriesQuery.Proofs.Frame.Apart
import SeriesQuery.Proofs.Frame.BucketRows
import SeriesQuery.Proofs.Frame.Divided
import SeriesQuery.Proofs.Frame.Assembled
import SeriesQuery.Proofs.Frame.GapFilled
import SeriesQuery.Proofs.Frame.KeptRows
import SeriesQuery.Proofs.Frame.Long
import SeriesQuery.Proofs.Frame.OneLabel
import SeriesQuery.Proofs.Frame.OutOfOrder
import SeriesQuery.Proofs.Frame.Refilled
import SeriesQuery.Proofs.Frame.Reordered
import SeriesQuery.Proofs.Frame.RowAligned
import SeriesQuery.Proofs.Frame.Shape
import SeriesQuery.Proofs.Frame.Sought
import SeriesQuery.Proofs.Frame.Spread
import SeriesQuery.Proofs.Frame.SpreadRows
import SeriesQuery.Proofs.Frame.Words
import SeriesQuery.Proofs.Query.Containment
import SeriesQuery.Proofs.Query.Interval
import SeriesQuery.Proofs.Query.Tag
import SeriesQuery.Proofs.Query.Width
import SeriesQuery.Proofs.Result.Reading
import SeriesQuery.Proofs.Result.IntegerTexts
import SeriesQuery.Proofs.Result.Refusal
import SeriesQuery.Proofs.Service.Health
