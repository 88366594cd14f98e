import Dialogue.Markup.Basic
import Dialogue.Terminal.Style

set_option autoImplicit false

namespace Dialogue

namespace Wrapper

/-- The style with what a wrapper adds to it. Unknown wrappers add nothing. -/
def addTo (w : Wrapper) (s : Terminal.Style) : Terminal.Style :=
  if w.name = "b" || w.name = "strong" then { s with bold := true }
  else if w.name = "em" || w.name = "i" then { s with italic := true }
  else if w.name = "ins" || w.name = "u" then { s with underline := true }
  else if w.name = "del" || w.name = "s" then { s with strikethrough := true }
  else if w.name = "small" || w.name = "sub" || w.name = "sup" then { s with dimmed := true }
  else if w.name = "mark" then { s with reversed := true }
  else if w.name = "color" then
    match w.properties.get? "color" with
    | some (.text name) => { s with foreground := some (Terminal.Color.ofName name) }
    | _ => s
  else s

end Wrapper

namespace Terminal

namespace Style

/-- The style of a text inside wrappers, which are listed from the outside in. -/
def ofWrappers (wrappers : List Wrapper) : Style :=
  wrappers.foldl (fun s w => w.addTo s) plain

end Style

/-- Characters that follow each other under the same wrappers with no marker between them, or a
break of the line. -/
inductive Stretch where
  | lineBreak
  | run (wrappers : List Wrapper) (text : List Char)

namespace Stretch

/-- A stretch as it is shown. -/
def render (colored : Bool) : Stretch → List Char
  | lineBreak => ['\n']
  | run wrappers text => (Style.ofWrappers wrappers).paint colored text

end Stretch

end Terminal

namespace Markup

open Dialogue.Terminal

/-- Whether a marker at a position asks for a line break. -/
def breaksAt (m : Markup) (index : Nat) : Bool :=
  (m.markersAt index).any fun s => s.wrappers.any fun w => w.name = "br"

/-- How many of the characters from a position on continue a run under the given wrappers. -/
def runLength (m : Markup) (wrappers : List Wrapper) (index : Nat) : List Char → Nat
  | [] => 0
  | _ :: cs =>
      if m.wrappersAt index == wrappers && (m.markersAt index).isEmpty then
        m.runLength wrappers (index + 1) cs + 1
      else 0

/-- The stretches of the characters from a position on. -/
def stretchesFrom (m : Markup) (index : Nat) (cs : List Char) : List Stretch :=
  let breaks := if m.breaksAt index then [Stretch.lineBreak] else []
  match cs with
  | [] => breaks
  | c :: cs =>
      let wrappers := m.wrappersAt index
      let count := m.runLength wrappers (index + 1) cs
      breaks ++ .run wrappers (c :: cs.take count) ::
        m.stretchesFrom (index + 1 + count) (cs.drop count)
termination_by cs.length
decreasing_by
  simp only [List.length_drop, List.length_cons]
  omega

def stretches (m : Markup) : List Stretch :=
  m.stretchesFrom 0 m.text.toList

/-- A formatted text as it is shown. -/
def render (colored : Bool) (m : Markup) : String :=
  String.ofList (m.stretches.flatMap (Stretch.render colored))

end Markup

end Dialogue
