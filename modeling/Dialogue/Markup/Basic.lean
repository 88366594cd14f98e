import Dialogue.Table

set_option autoImplicit false

namespace Dialogue

inductive WrapperKind where
  | standard
  | custom
  deriving DecidableEq, Repr

inductive PropertyValue where
  | flag (value : Bool)
  | number (value : Float)
  | text (value : String)
  deriving BEq

structure Wrapper where
  name : String
  kind : WrapperKind
  properties : Table PropertyValue
  deriving BEq

/-- The characters from `start` up to `stop`, or a marker at `start`. -/
structure Segment where
  start : Nat
  stop : Nat
  wrappers : List Wrapper
  marker : Bool
  deriving BEq

/-- A text with segments, each of which gives a range of characters its wrappers, outermost first,
or marks a place between two characters. -/
structure Markup where
  text : String
  segments : List Segment
  deriving BEq

namespace WrapperKind

/-- The names of the conventional inline styles. -/
def standardNames : List String :=
  ["b", "em", "small", "strong", "sub", "sup", "ins", "del", "mark", "br"]

def ofName (name : String) : WrapperKind :=
  if standardNames.contains name then standard else custom

end WrapperKind

namespace Wrapper

def named (name : String) (properties : Table PropertyValue) : Wrapper :=
  ⟨name, .ofName name, properties⟩

end Wrapper

namespace Segment

/-- A run of characters that the same wrappers cover. -/
def run (start stop : Nat) (wrappers : List Wrapper) : Segment :=
  ⟨start, stop, wrappers, false⟩

def markerAt (position : Nat) (wrappers : List Wrapper) : Segment :=
  ⟨position, position, wrappers, true⟩

def isEmpty (s : Segment) : Bool :=
  s.start == s.stop

def covers (s : Segment) (index : Nat) : Bool :=
  !s.marker && s.start ≤ index && index < s.stop

/-- The order of segments: by start, then by end. -/
def le (a b : Segment) : Bool :=
  a.start < b.start || (a.start == b.start && a.stop ≤ b.stop)

/-- Whether a run may be continued by another. -/
def joins (a b : Segment) : Bool :=
  !b.marker && !a.marker && a.stop == b.start && a.wrappers == b.wrappers

/-- The segments with every run continued as far as it goes, where `last` precedes them. -/
def coalesceAfter (last : Segment) : List Segment → List Segment
  | [] => [last]
  | next :: rest =>
      if last.joins next then coalesceAfter { last with stop := next.stop } rest
      else last :: coalesceAfter next rest

def coalesce : List Segment → List Segment
  | [] => []
  | first :: rest => coalesceAfter first rest

/-- Sorts segments, drops empty runs and joins runs that touch. A text that is not empty has at
least one segment. -/
def merge (segments : List Segment) (length : Nat) : List Segment :=
  let merged := coalesce ((segments.mergeSort le).filter fun s => s.marker || !s.isEmpty)
  if merged.isEmpty && 0 < length then [run 0 length []] else merged

end Segment

namespace Markup

/-- Text without formatting. -/
def plain (text : String) : Markup :=
  ⟨text, Segment.merge [] text.length⟩

def hasFormatting (m : Markup) : Bool :=
  m.segments.any fun s => s.marker || !s.wrappers.isEmpty

/-- The markup, if it says more than its text. -/
def normalized (m : Markup) : Option Markup :=
  if m.hasFormatting then some m else none

/-- The wrappers of a character: those of the first run that covers it. -/
def wrappersAt (m : Markup) (index : Nat) : List Wrapper :=
  ((m.segments.find? fun s => s.covers index).map Segment.wrappers).getD []

def markersAt (m : Markup) (index : Nat) : List Segment :=
  m.segments.filter fun s => s.marker && s.start == index

/-- What is left of a segment between two positions, counted from the first. -/
def clip (start stop : Nat) (s : Segment) : Option Segment :=
  if s.marker then
    if start ≤ s.start && s.start ≤ stop then some (.markerAt (s.start - start) s.wrappers)
    else none
  else
    let low := max s.start start
    let high := min s.stop stop
    if high ≤ low then none else some (.run (low - start) (high - start) s.wrappers)

/-- The characters from `start` up to `stop`, with their formatting. Bounds beyond the text are
moved to its end, and a range that ends before it starts is empty. -/
def slice (m : Markup) (start : Nat) (stop : Option Nat) : Markup :=
  let chars := m.text.toList
  let first := min start chars.length
  let last := match stop with
    | some stop => max first (min stop chars.length)
    | none => chars.length
  ⟨String.ofList ((chars.drop first).take (last - first)),
    Segment.merge (m.segments.filterMap (clip first last)) (last - first)⟩

end Markup

end Dialogue
