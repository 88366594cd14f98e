import Dialogue.Text.Blank
import Dialogue.Text.Hex
import Dialogue.Text.Lower

set_option autoImplicit false

namespace Dialogue.Terminal

inductive Color where
  /-- One of the terminal's own colours, by its code. -/
  | basic (code : Nat)
  | rgb (red green blue : Nat)
  deriving DecidableEq, Repr

namespace Color

def codes : Color → List Nat
  | basic code => [code]
  | rgb red green blue => [38, 2, red, green, blue]

/-- The colours that have names, with their codes. -/
def names : List (String × Nat) :=
  [("black", 30), ("red", 31), ("green", 32), ("yellow", 33), ("blue", 34), ("magenta", 35),
   ("purple", 35), ("cyan", 36), ("white", 37), ("bright black", 90), ("bright red", 91),
   ("bright green", 92), ("bright yellow", 93), ("bright blue", 94), ("bright magenta", 95),
   ("bright cyan", 96), ("bright white", 97)]

/-- A channel in two digits, the first of which may be a plus sign. -/
def channel? (high low : Char) : Option Nat :=
  if high = '+' then Text.hexDigit? low else Text.numeral? 16 [high, low]

/-- A colour in one or two hexadecimal digits for each of its three channels. -/
def ofDigits? : List Char → Option Color
  | [r, g, b] => do
      let red ← Text.hexDigit? r
      let green ← Text.hexDigit? g
      let blue ← Text.hexDigit? b
      return rgb (17 * red) (17 * green) (17 * blue)
  | [r, r', g, g', b, b'] => do
      let red ← channel? r r'
      let green ← channel? g g'
      let blue ← channel? b b'
      return rgb red green blue
  | _ => none

/-- The colour of a name in any letter case. Unknown names are white. -/
def ofName (name : String) : Color :=
  let lowered := (Text.lower name).toList
  let named := (names.find? fun entry => entry.1.toList = lowered).map fun entry => basic entry.2
  let found := match lowered with
    | '#' :: digits => ofDigits? digits
    | _ => named
  found.getD (basic 37)

end Color

structure Style where
  bold : Bool := false
  dimmed : Bool := false
  underline : Bool := false
  reversed : Bool := false
  italic : Bool := false
  strikethrough : Bool := false
  foreground : Option Color := none
  deriving DecidableEq, Repr

namespace Style

/-- A text as it is. -/
def plain : Style :=
  {}

/-- The codes that switch a style on. -/
def codes (s : Style) : List Nat :=
  (if s.bold then [1] else []) ++ (if s.dimmed then [2] else []) ++
    (if s.underline then [4] else []) ++ (if s.reversed then [7] else []) ++
    (if s.italic then [3] else []) ++ (if s.strikethrough then [9] else []) ++
    ((s.foreground.map Color.codes).getD [])

/-- The sequence that switches a style on. -/
def opening (s : Style) : List Char :=
  let shown := Text.join ";" (s.codes.map fun code => toString code)
  '\x1b' :: '[' :: shown.toList ++ ['m']

/-- The sequence that switches every style off. -/
def reset : List Char :=
  ['\x1b', '[', '0', 'm']

/-- A text in which `mark` follows every reset. -/
def reopen (mark : List Char) : List Char → List Char
  | '\x1b' :: '[' :: '0' :: 'm' :: cs => reset ++ mark ++ reopen mark cs
  | c :: cs => c :: reopen mark cs
  | [] => []

/-- A text in a style, if styles are shown at all. -/
def paint (colored : Bool) (s : Style) (text : List Char) : List Char :=
  if !colored || s.codes.isEmpty then text
  else s.opening ++ reopen s.opening text ++ reset

end Style

end Dialogue.Terminal
