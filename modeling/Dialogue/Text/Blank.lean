set_option autoImplicit false

namespace Dialogue.Text

/-- The code points of the property White_Space. -/
def isBlank (c : Char) : Bool :=
  let n := c.toNat
  (9 ≤ n && n ≤ 13) || n == 0x20 || n == 0x85 || n == 0xA0 || n == 0x1680 ||
    (0x2000 ≤ n && n ≤ 0x200A) || n == 0x2028 || n == 0x2029 || n == 0x202F ||
    n == 0x205F || n == 0x3000

def trimStart (cs : List Char) : List Char :=
  cs.dropWhile isBlank

def trimEnd (cs : List Char) : List Char :=
  (cs.reverse.dropWhile isBlank).reverse

def trim (cs : List Char) : List Char :=
  trimEnd (trimStart cs)

/-- A text without its outer white space. -/
def trimmed (s : String) : String :=
  String.ofList (trim s.toList)

def isBlankText (s : String) : Bool :=
  s.toList.all isBlank

theorem dropWhile_length_le (p : Char → Bool) (cs : List Char) :
    (cs.dropWhile p).length ≤ cs.length := by
  induction cs with
  | nil => simp
  | cons c cs ih =>
      simp only [List.dropWhile_cons]
      split
      · exact Nat.le_succ_of_le ih
      · exact Nat.le_refl _

theorem trimStart_length_le (cs : List Char) : (trimStart cs).length ≤ cs.length :=
  dropWhile_length_le isBlank cs

/-- The text behind a leading literal, if the text starts with it. -/
def after? : List Char → List Char → Option (List Char)
  | [], cs => some cs
  | _ :: _, [] => none
  | p :: ps, c :: cs => if p = c then after? ps cs else none

/-- The text before and after the first `sep`, if there is one. -/
def splitOnce (sep : Char) : List Char → Option (List Char × List Char)
  | [] => none
  | c :: cs =>
      if c = sep then some ([], cs)
      else (splitOnce sep cs).map fun (before, after) => (c :: before, after)

theorem splitOnce_length {sep : Char} {cs before after : List Char}
    (found : splitOnce sep cs = some (before, after)) : after.length < cs.length := by
  induction cs generalizing before with
  | nil => simp [splitOnce] at found
  | cons c cs ih =>
      simp only [splitOnce] at found
      split at found
      · simp only [Option.some.injEq, Prod.mk.injEq] at found
        obtain ⟨-, rfl⟩ := found
        simp
      · simp only [Option.map_eq_some_iff, Prod.mk.injEq, Prod.exists] at found
        obtain ⟨rest, after, found, -, rfl⟩ := found
        exact Nat.lt_succ_of_lt (ih found)

/-- The parts of a text between the separators, at least one. -/
def splitAll (sep : Char) : List Char → List (List Char)
  | [] => [[]]
  | c :: cs =>
      if c = sep then [] :: splitAll sep cs
      else match splitAll sep cs with
        | [] => [[c]]
        | part :: parts => (c :: part) :: parts

/-- The maximal runs of characters other than white space. -/
def words (cs : List Char) : List (List Char) :=
  go cs []
where
  go : List Char → List Char → List (List Char)
    | [], run => close run
    | c :: cs, run => if isBlank c then close run ++ go cs [] else go cs (c :: run)
  close (run : List Char) : List (List Char) :=
    if run.isEmpty then [] else [run.reverse]

/-- Texts joined with a separator between neighbours. -/
def join (sep : String) : List String → String
  | [] => ""
  | [s] => s
  | s :: t :: rest => s ++ sep ++ join sep (t :: rest)

end Dialogue.Text
