import Dialogue.Decimal.Read
import Dialogue.Markup.Basic
import Dialogue.Text.Lower
import Dialogue.Text.Name

set_option autoImplicit false

namespace Dialogue.Markup

open Dialogue.Text

inductive TagKind where
  | opening
  | closing
  | marker
  deriving DecidableEq, Repr

/-- What stands between brackets: `[name]` opens a wrapper, `[/name]` closes it and `[name/]` is a
marker. Properties follow as `key=value` or as a bare `key`; `[name=value]` gives the tag a property
of its own name. -/
structure Tag where
  kind : TagKind
  name : String
  properties : Table PropertyValue

/-- The tags that never wrap text. -/
def markerNames : List String :=
  ["br"]

def isTagNameChar (c : Char) : Bool :=
  isNameChar c || c = '-'

/-- A name at the start of a text, and the text behind it. -/
def identifier? : List Char → Option (List Char × List Char)
  | [] => none
  | c :: cs =>
      if isNameStart c then some (c :: cs.takeWhile isTagNameChar, cs.dropWhile isTagNameChar)
      else none

/-- Digits with an optional sign and an optional fraction. -/
def isPlainNumber (cs : List Char) : Bool :=
  let unsigned := match cs with
    | '+' :: rest => rest
    | '-' :: rest => rest
    | rest => rest
  match splitOnce '.' unsigned with
  | some (whole, fraction) => Decimal.allDigits whole && Decimal.allDigits fraction
  | none => Decimal.allDigits unsigned

/-- The value that a property's text spells. -/
def propertyValue (raw : List Char) : PropertyValue :=
  let text := trim raw
  let word := String.ofList (text.map Char.toLower)
  if word = "true" then .flag true
  else if word = "false" then .flag false
  else if isPlainNumber text then
    match Decimal.read? text with
    | some x => .number x
    | none => .text (String.ofList text)
  else .text (String.ofList text)

def endsBareValue (c : Char) : Bool :=
  isBlank c || c = '"' || c = '\''

/-- `= value` at the start of a text, quoted or bare, and the text behind it. -/
def assignment? (cs : List Char) : Option (PropertyValue × List Char) :=
  match trimStart cs with
  | '=' :: rest =>
      match trimStart rest with
      | [] => none
      | c :: inner =>
          if c = '"' || c = '\'' then
            (splitOnce c inner).map fun (value, after) => (propertyValue value, after)
          else
            let value := inner.takeWhile fun d => !endsBareValue d
            some (propertyValue (c :: value), inner.dropWhile fun d => !endsBareValue d)
  | _ => none

theorem identifier?_length {cs name rest : List Char} (found : identifier? cs = some (name, rest)) :
    rest.length < cs.length := by
  cases cs with
  | nil => simp [identifier?] at found
  | cons c cs =>
      simp only [identifier?] at found
      split at found
      · simp only [Option.some.injEq, Prod.mk.injEq] at found
        obtain ⟨-, rfl⟩ := found
        exact Nat.lt_succ_of_le (dropWhile_length_le _ cs)
      · contradiction

theorem assignment?_length {cs rest : List Char} {value : PropertyValue}
    (found : assignment? cs = some (value, rest)) : rest.length < cs.length := by
  have outer := trimStart_length_le cs
  unfold assignment? at found
  split at found
  · rename_i tail shape
    rw [shape, List.length_cons] at outer
    have inside := trimStart_length_le tail
    split at found
    · contradiction
    · rename_i c inner shape
      rw [shape, List.length_cons] at inside
      split at found
      · simp only [Option.map_eq_some_iff, Prod.mk.injEq, Prod.exists] at found
        obtain ⟨_, _, found, -, rfl⟩ := found
        have := splitOnce_length found
        omega
      · simp only [Option.some.injEq, Prod.mk.injEq] at found
        obtain ⟨-, rfl⟩ := found
        have := dropWhile_length_le (fun d => !endsBareValue d) inner
        omega
  · contradiction

/-- The properties that a text lists, up to the first character that starts none. -/
def propertyList (cs : List Char) : List (String × PropertyValue) :=
  match _named : identifier? cs with
  | none => []
  | some (key, rest) =>
      let key := lower (String.ofList key)
      match _assigned : assignment? rest with
      | some (value, after) => (key, value) :: propertyList (trimStart after)
      | none => (key, .flag true) :: propertyList (trimStart rest)
termination_by cs.length
decreasing_by
  · have := identifier?_length _named
    have := assignment?_length _assigned
    have := trimStart_length_le after
    omega
  · have := identifier?_length _named
    have := trimStart_length_le rest
    omega

namespace Tag

/-- The tag with this name and these properties, if the text has a name. -/
def ofBody? (kind : TagKind) (body : List Char) : Option Tag :=
  (identifier? body).map fun (name, rest) =>
    let name := lower (String.ofList name)
    let rest := trimStart rest
    let listed := match assignment? rest with
      | some (value, after) => (name, value) :: propertyList (trimStart after)
      | none => propertyList rest
    ⟨if markerNames.contains name then .marker else kind, name, .ofList listed⟩

/-- The tag that the text between two brackets spells. -/
def ofContent? (content : List Char) : Option Tag :=
  match trim content with
  | [] => none
  | '/' :: rest =>
      let name := lower (String.ofList (trim rest))
      if name.isEmpty then none else some ⟨.closing, name, .empty⟩
  | text =>
      match text.reverse with
      | '/' :: body => ofBody? .marker (trimEnd body.reverse)
      | _ => ofBody? .opening text

def wrapper (t : Tag) : Wrapper :=
  .named t.name t.properties

end Tag

end Dialogue.Markup
