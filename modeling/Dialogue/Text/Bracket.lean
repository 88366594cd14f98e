set_option autoImplicit false

namespace Dialogue.Text

/-- The entries up to a closing bracket with commas between them, and the text behind the bracket.
`skip` drops what may stand around an entry, and `trailing` allows a comma behind the last one. The
number bounds how many entries there are. -/
def entries? {α : Type} (skip : List Char → List Char) (trailing : Bool)
    (entry : List Char → Option (α × List Char)) (closing : Char) :
    Nat → List Char → Option (List α × List Char)
  | 0, _ => none
  | fuel + 1, cs =>
      match skip cs with
      | [] => none
      | c :: rest =>
          if c = closing then some ([], rest)
          else do
            let (first, after) ← entry (c :: rest)
            match skip after with
            | ',' :: after =>
                if !trailing && (skip after).head? = some closing then none
                else do
                  let (others, rest) ← entries? skip trailing entry closing fuel after
                  some (first :: others, rest)
            | d :: after => if d = closing then some ([first], after) else none
            | [] => none

end Dialogue.Text
