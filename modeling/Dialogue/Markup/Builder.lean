import Dialogue.Markup.Basic

set_option autoImplicit false

namespace Dialogue.Markup

/-- Formatted text under construction. One run is kept open while the wrappers stay the same; a
marker or other wrappers close it. -/
structure Builder where
  text : List Char
  /-- The closed segments, in order. -/
  done : List Segment
  current : Option Segment

namespace Builder

def empty : Builder :=
  ⟨[], [], none⟩

/-- The number of characters so far. -/
def length (b : Builder) : Nat :=
  b.text.length

/-- Closes the open run. -/
def flush (b : Builder) : Builder :=
  { b with done := b.done ++ b.current.toList, current := none }

def pushChar (b : Builder) (wrappers : List Wrapper) (c : Char) : Builder :=
  let index := b.length
  let grown (b : Builder) (current : Segment) : Builder :=
    { b with text := b.text ++ [c], current := some current }
  match b.current with
  | some run =>
      if run.stop == index && run.wrappers == wrappers then grown b { run with stop := index + 1 }
      else grown b.flush (.run index (index + 1) wrappers)
  | none => grown b (.run index (index + 1) wrappers)

def pushText (b : Builder) (wrappers : List Wrapper) (text : List Char) : Builder :=
  text.foldl (fun b c => b.pushChar wrappers c) b

/-- Puts a marker at the current position. -/
def marker (b : Builder) (wrapper : Wrapper) : Builder :=
  let b := b.flush
  { b with done := b.done ++ [.markerAt b.length [wrapper]] }

def finish (b : Builder) : Markup :=
  ⟨String.ofList b.text, Segment.merge b.flush.done b.length⟩

end Builder

end Dialogue.Markup
