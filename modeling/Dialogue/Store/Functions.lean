import Dialogue.Store.Basic
import Dialogue.Value.Number

set_option autoImplicit false

namespace Dialogue.Store

/-- The number that an argument counts as; a missing one counts as no number. -/
def numberArg (args : List Value) (index : Nat) : Float :=
  ((args[index]?).bind Value.asNumber).getD Value.noNumber

/-- The text of an argument; a missing one is empty. -/
def textArg (args : List Value) (index : Nat) : String :=
  ((args[index]?).map Value.toText).getD ""

def numeric (f : Float → Float) : Function := fun _ args =>
  .ok (.number (f (numberArg args 0)))

def numeric2 (f : Float → Float → Float) : Function := fun _ args =>
  .ok (.number (f (numberArg args 0) (numberArg args 1)))

/-- A number between the two bounds, which may come in either order. -/
def randomRange : Function := fun access args =>
  let a := numberArg args 0
  let b := numberArg args 1
  let low := Number.smaller a b
  .ok (.number (low + access.draw 0 * (Number.larger a b - low)))

/-- A side of a die with at least one side. -/
def dice : Function := fun access args =>
  let sides := (numberArg args 0).floor
  let sides := if sides.isNaN then 1.0 else Number.larger sides 1.0
  .ok (.number ((access.draw 0 * sides).floor + 1.0))

def builtins : Table Function :=
  .ofList
    [("string", fun _ args => .ok (.text (textArg args 0))),
     ("number", numeric id),
     ("bool", fun _ args => .ok (.bool (args.head?.any Value.truthy))),
     ("visited", fun access args => .ok (.bool (0 < access.visits (textArg args 0)))),
     ("visited_count", fun access args =>
        .ok (.number (Float.ofNat (access.visits (textArg args 0))))),
     ("format_invariant", fun _ args =>
        let x := numberArg args 0
        .ok (.text (if x.isFinite then Value.formatNumber x else "0"))),
     ("random", fun access _ => .ok (.number (access.draw 0))),
     ("random_range", randomRange),
     ("dice", dice),
     ("min", numeric2 Number.smaller),
     ("max", numeric2 Number.larger),
     ("round", numeric Number.roundHalfUp),
     ("round_places", numeric2 Number.roundPlaces),
     ("floor", numeric Float.floor),
     ("ceil", numeric Float.ceil),
     ("inc", numeric Number.increment),
     ("dec", numeric Number.decrement),
     ("decimal", numeric fun x => (x - Number.truncate x).abs),
     ("int", numeric Number.truncate)]

/-- A store without variables, and with no function that asks it. -/
def withEnums (enums : EnumTable) : Store where
  vars := .empty
  smart := .empty
  enums := enums
  functions := builtins
  visits := .empty
  calls := 0
  chance := fun _ _ => 0.5
  turn := 0

end Dialogue.Store
