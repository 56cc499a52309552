/-
  LatencyPlot.Page

  The page around a plot: a heading, a line about the source, the drawing as
  it is, and a table of the records. The row of a record that is out of order
  is marked.
-/
import LatencyPlot.Axis.Bounds
import LatencyPlot.Axis.Ticks
import LatencyPlot.Markup.Token

namespace LatencyPlot

open Markup

/-- What a page shows. -/
structure Page where
  title : String
  source : String
  /-- The text of the drawing. -/
  plot : String
  records : List (Record Float)
  bounds : Bounds Float

namespace Page

/-! ## Head -/

/-- The style sheet. -/
def styleSheet : List String := [
  "body\x7bfont-family:Arial,Helvetica,sans-serif;margin:20px;color:#222;background:#fff;\x7d",
  "h1\x7bmargin:0 0 8px 0;font-size:22px;\x7d",
  ".meta\x7bcolor:#555;font-size:13px;margin-bottom:16px;\x7d",
  ".plot\x7bmargin:8px 0 16px 0;\x7d",
  "svg\x7bborder:1px solid #e5e5e5;\x7d",
  ".table\x7bborder-collapse:collapse;max-width:1000px;font-size:12px;\x7d",
  ".table th,.table td\x7bborder:1px solid #ddd;padding:4px 8px;text-align:right;\x7d",
  ".table th:first-child,.table td:first-child\x7btext-align:left;\x7d",
  ".odd\x7bcolor:#c00000;\x7d"]

/-- The head of the page. -/
def head (p : Page) : List Token :=
  line [.opening "head" []] ++
  emptyLine "meta" [⟨"charset", "utf-8"⟩] ++
  emptyLine "meta" [⟨"name", "viewport"⟩,
    ⟨"content", "width=device-width, initial-scale=1"⟩] ++
  textLine "title" [] p.title ++
  line [.opening "style" []] ++
  styleSheet.flatMap (fun rule => line [.verbatim rule]) ++
  line [.closing "style"] ++
  line [.closing "head"]

/-! ## Table -/

/-- A cell of the table. -/
def cell (content : String) : List Token := [.opening "td" [], .text content, .closing "td"]

/-- A cell of the heading of the table. -/
def headingCell (content : String) : List Token := [.opening "th" [], .text content, .closing "th"]

/-- The row of a record: its label, then its boundaries with four places. -/
def row (r : Record Float) : List Token :=
  line (.opening "tr" (if r.isMonotonic then [] else [⟨"class", "odd"⟩]) ::
    (cell r.label ++ r.bounds.flatMap (fun v => cell (Number.fixed 4 v)) ++ [.closing "tr"]))

/-- The heading of the table. -/
def tableHeading : List Token :=
  line (.opening "tr" [] ::
    (["Run", "Min", "25%", "Median", "75%", "Max"].flatMap headingCell ++ [.closing "tr"]))

/-- The table of the records. -/
def table (records : List (Record Float)) : List Token :=
  line [.opening "table" [⟨"class", "table"⟩]] ++ tableHeading ++ records.flatMap row ++
    line [.closing "table"]

/-! ## Body -/

/-- The line about the source, the number of runs and the bounds of the latency axis. -/
def summary (p : Page) : List Token :=
  line [.opening "div" [⟨"class", "meta"⟩],
    .text "Source: ", .text p.source, .verbatim " &middot; ",
    .text (toString p.records.length), .text " runs", .verbatim " &middot; ",
    .text "y-axis ", .text (tickText p.bounds.min), .text " to ", .text (tickText p.bounds.max),
    .closing "div"]

/-- The drawing, as it is. -/
def figure (p : Page) : List Token :=
  line [.opening "div" [⟨"class", "plot"⟩]] ++ [.verbatim p.plot] ++ line [.closing "div"]

/-- The body of the page. -/
def body (p : Page) : List Token :=
  line [.opening "body" []] ++ textLine "h1" [] p.title ++ p.summary ++ p.figure ++
    table p.records ++ line [.closing "body"]

/-- The page as tokens. -/
def tokens (p : Page) : List Token :=
  line [.verbatim "<!DOCTYPE html>"] ++ line [.opening "html" [⟨"lang", "en"⟩]] ++
    p.head ++ p.body ++ line [.closing "html"]

/-- The text of the page. -/
def render (p : Page) : String := Markup.render p.tokens

end Page

end LatencyPlot
