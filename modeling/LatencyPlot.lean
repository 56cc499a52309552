/-
  LatencyPlot

  Box-and-whisker plots of latency percentiles: reading tables of runs, laying
  them out, and writing the plot as a page and a drawing.
-/
import LatencyPlot.Archive.Bits
import LatencyPlot.Archive.Crc
import LatencyPlot.Archive.Gzip
import LatencyPlot.Archive.Inflate
import LatencyPlot.Archive.Prefixes
import LatencyPlot.Axis.Bounds
import LatencyPlot.Axis.Ticks
import LatencyPlot.Command.Arguments
import LatencyPlot.Command.Help
import LatencyPlot.Command.Line
import LatencyPlot.Duration
import LatencyPlot.Main
import LatencyPlot.Markup.Escape
import LatencyPlot.Markup.Legal
import LatencyPlot.Markup.Token
import LatencyPlot.Number.Binary
import LatencyPlot.Number.Decade
import LatencyPlot.Number.Exact
import LatencyPlot.Number.Reader
import LatencyPlot.Number.Rounding
import LatencyPlot.Number.Scalar
import LatencyPlot.Number.Shortest
import LatencyPlot.Number.Text
import LatencyPlot.Page
import LatencyPlot.Path
import LatencyPlot.Plot.Box
import LatencyPlot.Plot.Drawing
import LatencyPlot.Plot.Frame
import LatencyPlot.Plot.Portable
import LatencyPlot.Proofs.Archive.Members
import LatencyPlot.Proofs.Archive.Packing
import LatencyPlot.Proofs.Archive.Stopping
import LatencyPlot.Proofs.Axis.Agree
import LatencyPlot.Proofs.Axis.Finite
import LatencyPlot.Proofs.Axis.Inside
import LatencyPlot.Proofs.Axis.Join
import LatencyPlot.Proofs.Axis.Nice
import LatencyPlot.Proofs.Axis.Reach
import LatencyPlot.Proofs.Axis.TickText
import LatencyPlot.Proofs.Axis.TickValue
import LatencyPlot.Proofs.Command.Groups
import LatencyPlot.Proofs.Command.Wording
import LatencyPlot.Proofs.Markup.Elements
import LatencyPlot.Proofs.Markup.Legal
import LatencyPlot.Proofs.Markup.Reader
import LatencyPlot.Proofs.Markup.Reading
import LatencyPlot.Proofs.Markup.References
import LatencyPlot.Proofs.Number.Agree
import LatencyPlot.Proofs.Number.Decade
import LatencyPlot.Proofs.Number.Extremes
import LatencyPlot.Proofs.Number.Fraction
import LatencyPlot.Proofs.Number.Integral
import LatencyPlot.Proofs.Number.Magnitude
import LatencyPlot.Proofs.Number.Numeral
import LatencyPlot.Proofs.Number.Operations
import LatencyPlot.Proofs.Number.Reading
import LatencyPlot.Proofs.Number.Rounded
import LatencyPlot.Proofs.Number.Sign
import LatencyPlot.Proofs.Number.TotalOrder
import LatencyPlot.Proofs.Number.Value
import LatencyPlot.Proofs.Number.Written
import LatencyPlot.Proofs.Page.AxisText
import LatencyPlot.Proofs.Page.Structure
import LatencyPlot.Proofs.Page.Warned
import LatencyPlot.Proofs.Path.DefaultPage
import LatencyPlot.Proofs.Path.Stem
import LatencyPlot.Proofs.Plot.Coordinates
import LatencyPlot.Proofs.Plot.Edges
import LatencyPlot.Proofs.Plot.Grid
import LatencyPlot.Proofs.Plot.Heights
import LatencyPlot.Proofs.Plot.Legal
import LatencyPlot.Proofs.Plot.Mapping
import LatencyPlot.Proofs.Plot.Parts
import LatencyPlot.Proofs.Plot.Reach
import LatencyPlot.Proofs.Plot.Shapes
import LatencyPlot.Proofs.Plot.Slots
import LatencyPlot.Proofs.Plot.Structure
import LatencyPlot.Proofs.Record.Arrangement
import LatencyPlot.Proofs.Record.Sorting
import LatencyPlot.Proofs.Run.Agreement
import LatencyPlot.Proofs.Run.CleanPrefix
import LatencyPlot.Proofs.Run.Ends
import LatencyPlot.Proofs.Run.Input
import LatencyPlot.Proofs.Run.Log
import LatencyPlot.Proofs.Run.SortOrder
import LatencyPlot.Proofs.Run.Stages
import LatencyPlot.Proofs.Run.Statistics
import LatencyPlot.Proofs.Source
import LatencyPlot.Proofs.Storage.Names
import LatencyPlot.Proofs.Storage.Shape
import LatencyPlot.Proofs.Storage.Write
import LatencyPlot.Proofs.Table.Append
import LatencyPlot.Proofs.Table.Blanks
import LatencyPlot.Proofs.Table.Cells
import LatencyPlot.Proofs.Table.FirstError
import LatencyPlot.Proofs.Table.Header
import LatencyPlot.Proofs.Table.LeftOut
import LatencyPlot.Proofs.Table.LineEnds
import LatencyPlot.Proofs.Table.Origin
import LatencyPlot.Proofs.Table.Outcome
import LatencyPlot.Proofs.Table.Padding
import LatencyPlot.Proofs.Table.Torn
import LatencyPlot.Proofs.Table.Tuple
import LatencyPlot.Proofs.Table.Writing
import LatencyPlot.Proofs.Text.Bytes
import LatencyPlot.Proofs.Text.Quoted
import LatencyPlot.Proofs.Text.Trim
import LatencyPlot.Record
import LatencyPlot.Record.Order
import LatencyPlot.Record.Warning
import LatencyPlot.Run.Failure
import LatencyPlot.Run.Host
import LatencyPlot.Run.Notice
import LatencyPlot.Run.Session
import LatencyPlot.Source
import LatencyPlot.Storage.Store
import LatencyPlot.Table.Field
import LatencyPlot.Table.Reader
import LatencyPlot.Table.Row
import LatencyPlot.Text.Blank
import LatencyPlot.Text.Invisible
import LatencyPlot.Text.Line
import LatencyPlot.Text.Position
import LatencyPlot.Text.Quoted
