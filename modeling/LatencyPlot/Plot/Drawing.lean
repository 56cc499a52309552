/-
  LatencyPlot.Plot.Drawing

  The plot as a drawing: canvas and plot area, title, latency axis with its
  grid, titles of the axes, one group with the boxes, clipped to the plot
  area, and the labels of the boxes below it.
-/
import LatencyPlot.Markup.Token
import LatencyPlot.Plot.Box

namespace LatencyPlot

open Markup

namespace Drawing

/-! ## Parts -/

/-- A numeric attribute. -/
def coordinate (name : String) (x : Float) : Attribute := ⟨name, Number.plain x⟩

/-- The place of a rectangle. -/
def rectangle (x y width height : Float) : List Attribute :=
  [coordinate "x" x, coordinate "y" y, coordinate "width" width, coordinate "height" height]

/-- The ends of a line. -/
def segment (x1 y1 x2 y2 : Float) : List Attribute :=
  [coordinate "x1" x1, coordinate "y1" y1, coordinate "x2" x2, coordinate "y2" y2]

/-- The place of a text. -/
def place (x y : Float) : List Attribute := [coordinate "x" x, coordinate "y" y]

/-- A turn by an angle around a point. -/
def turned (angle : String) (x y : Float) : Attribute :=
  ⟨"transform", "rotate(" ++ angle ++ " " ++ Number.plain x ++ " " ++ Number.plain y ++ ")"⟩

/-- The size and the colour of a text, and which end of it stands at its place. -/
def font (size colour anchor : String) : List Attribute :=
  [⟨"font-size", size⟩, ⟨"fill", colour⟩, ⟨"text-anchor", anchor⟩]

/-- Tokens that are there only for a text that is not empty. -/
def unlessEmpty (text : String) (tokens : List Token) : List Token :=
  if text.isEmpty then [] else tokens

/-! ## Canvas -/

/-- The tag of the whole drawing. -/
def root (style : Style Float) : List Token :=
  line [.opening "svg" [
    ⟨"xmlns", "http://www.w3.org/2000/svg"⟩,
    coordinate "width" style.width, coordinate "height" style.height,
    ⟨"viewBox", "0 0 " ++ Number.plain style.width ++ " " ++ Number.plain style.height⟩,
    ⟨"font-family", "Arial,Helvetica,sans-serif"⟩]]

/-- The plot area as a shape that the boxes are clipped to. -/
def clip (f : Frame Float) : List Token :=
  line [.opening "defs" [], .opening "clipPath" [⟨"id", "plot-area"⟩],
    .empty "rect" (rectangle f.left f.top f.width f.height),
    .closing "clipPath", .closing "defs"]

/-- The canvas, and the plot area on it. -/
def background (style : Style Float) (f : Frame Float) : List Token :=
  emptyLine "rect" [coordinate "width" style.width, coordinate "height" style.height,
    ⟨"fill", "#fff"⟩] ++
  emptyLine "rect" (rectangle f.left f.top f.width f.height ++
    [⟨"fill", "#fafafa"⟩, ⟨"stroke", "#ccc"⟩])

/-- The title above the plot area. -/
def title (style : Style Float) : List Token :=
  unlessEmpty style.title <|
    textLine "text" (place (style.width / 2.0) 24.0 ++ font "15" "#222" "middle") style.title

/-! ## Axes -/

/-- A grid line and the text of its tick. -/
def gridLine (f : Frame Float) (v : Float) : List Token :=
  emptyLine "line" (segment f.left (f.y v) (f.left + f.width) (f.y v) ++ [⟨"stroke", "#e5e5e5"⟩]) ++
  textLine "text" (place (f.left - 5.0) (f.y v) ++ font "11" "#555" "end" ++
    [⟨"dominant-baseline", "middle"⟩]) (tickText v)

/-- The grid with its ticks. -/
def grid (f : Frame Float) : List Token := f.ticks.flatMap (gridLine f)

/-- The title of the latency axis, upright beside it. -/
def yTitle (style : Style Float) (f : Frame Float) : List Token :=
  let x := f.left - 44.0
  let y := f.top + f.height / 2.0
  unlessEmpty style.yLabel <|
    textLine "text" (place x y ++ font "12" "#444" "middle" ++ [turned "-90" x y]) style.yLabel

/-- The title of the run axis, below the labels. -/
def xTitle (style : Style Float) (f : Frame Float) : List Token :=
  unlessEmpty style.xLabel <|
    textLine "text" (⟨"class", "x-title"⟩ :: place (f.left + f.width / 2.0) (style.height - 12.0) ++
      font "12" "#444" "middle") style.xLabel

/-! ## Boxes -/

/-- A whisker and its cap. -/
def whisker (b : Box Float) (w : Whisker Float) : List Token :=
  let stroke : List Attribute := [⟨"stroke", "#333"⟩, ⟨"stroke-width", "1"⟩]
  emptyLine "line"
    (⟨"class", "whisker"⟩ :: segment b.centre w.edge b.centre w.extreme ++ stroke) ++
  emptyLine "line"
    (⟨"class", "cap"⟩ :: segment b.capLeft w.extreme b.capRight w.extreme ++ stroke)

/-- The marks of one record. -/
def box (b : Box Float) : List Token :=
  b.whiskers.flatMap (whisker b) ++
  emptyLine "rect" (⟨"class", "box"⟩ :: rectangle b.left b.top b.width b.height ++
    [⟨"fill", "#cfe0f3"⟩, ⟨"stroke", "#335"⟩]) ++
  emptyLine "line" (⟨"class", "median"⟩ :: segment b.left b.yMedian b.right b.yMedian ++
    [⟨"stroke", "#e8710a"⟩, ⟨"stroke-width", "1.6"⟩])

/-- The label of the record in the slot with number `i` of `n`. -/
def label (f : Frame Float) (n i : Nat) (r : Record Float) : List Token :=
  let x := f.centre n i
  let y := f.top + f.height + 16.0
  let attributes := ⟨"class", "label"⟩ :: place x y ++
    if isRotated n then font "11" "#444" "end" ++ [turned "-40" x y]
    else font "11" "#444" "middle"
  textLine "text" attributes r.label

/-- The group of all boxes. -/
def boxGroup (f : Frame Float) (records : List (Record Float)) : List Token :=
  line [.opening "g" [⟨"clip-path", "url(#plot-area)"⟩]] ++
  (boxes f records).flatMap box ++
  line [.closing "g"]

/-- The labels of all boxes. -/
def labels (f : Frame Float) (records : List (Record Float)) : List Token :=
  (records.mapIdx fun i r => label f records.length i r).flatten

end Drawing

/-! ## The whole drawing -/

/-- The plot of some records, as tokens. -/
def drawing (records : List (Record Float)) (bounds : Bounds Float) (style : Style Float) :
    List Token :=
  let f := Frame.ofStyle style records.length bounds
  Drawing.root style ++ Drawing.clip f ++ Drawing.background style f ++ Drawing.title style ++
    Drawing.grid f ++ Drawing.yTitle style f ++ Drawing.xTitle style f ++
    Drawing.boxGroup f records ++ Drawing.labels f records ++ line [.closing "svg"]

/-- The plot of some records, as the text of a stand-alone drawing. -/
def renderPlot (records : List (Record Float)) (bounds : Bounds Float) (style : Style Float) :
    String :=
  render (drawing records bounds style)

end LatencyPlot
