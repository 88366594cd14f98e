import Dialogue.Terminal.Style

set_option autoImplicit false

namespace Dialogue.Terminal

/-- A part of what a player shows. -/
inductive Role where
  | speaker
  | line
  /-- The number of an option. -/
  | number
  | option
  | command
  | scene
  | tag
  | failure
  | farewell
  | banner
  deriving DecidableEq, Repr

namespace Role

def style : Role → Style
  | speaker => { bold := true, foreground := some (.rgb 13 130 60) }
  | line => .plain
  | number => { foreground := some (.rgb 220 180 40) }
  | option => { foreground := some (.rgb 220 180 40) }
  | command => { italic := true, foreground := some (.rgb 75 80 75) }
  | scene => { underline := true, foreground := some (.rgb 223 77 10) }
  | tag => { dimmed := true, foreground := some (.rgb 80 80 230) }
  | failure => { foreground := some (.rgb 230 30 30) }
  | farewell => { italic := true, foreground := some (.rgb 102 208 250) }
  | banner => { underline := true, foreground := some (.basic 93) }

/-- What stands around a text in its role: a number is in brackets. -/
def frame (role : Role) (text : List Char) : List Char :=
  match role with
  | number => '[' :: text ++ [']']
  | _ => text

/-- A text in its role. -/
def paint (role : Role) (colored : Bool) (text : String) : String :=
  String.ofList (role.style.paint colored (role.frame text.toList))

end Role

end Dialogue.Terminal
