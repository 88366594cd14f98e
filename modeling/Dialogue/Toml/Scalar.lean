import Dialogue.Decimal.Read
import Dialogue.Text.Hex
import Dialogue.Toml.Basic

set_option autoImplicit false

namespace Dialogue.Toml

open Dialogue.Text

/-- What may stand in a comment or between quotes: everything but control characters. -/
def isPlain (c : Char) : Bool :=
  c = '\t' || (0x20 ≤ c.toNat && c.toNat ≠ 0x7F)

def isSpace (c : Char) : Bool :=
  c = ' ' || c = '\t'

/-- A character given by so many hexadecimal digits. -/
def coded? (digits : Nat) (cs : List Char) : Option (Char × List Char) :=
  if cs.length < digits then none
  else do
    let n ← numeral? 16 (cs.take digits)
    let c ← charOfCode? n
    some (c, cs.drop digits)

/-- The character that a backslash sequence spells, and the text behind it. -/
def escape? : List Char → Option (Char × List Char)
  | 'b' :: cs => some ('\x08', cs)
  | 't' :: cs => some ('\t', cs)
  | 'n' :: cs => some ('\n', cs)
  | 'f' :: cs => some ('\x0c', cs)
  | 'r' :: cs => some ('\r', cs)
  | '"' :: cs => some ('"', cs)
  | '\\' :: cs => some ('\\', cs)
  | 'u' :: cs => coded? 4 cs
  | 'U' :: cs => coded? 8 cs
  | _ => none

/-- The inside of a text on one line and the text behind its closing quote. The number bounds how
many characters are read. -/
def quoted? (quote : Char) (escapes : Bool) : Nat → List Char → Option (List Char × List Char)
  | 0, _ => none
  | _, [] => none
  | fuel + 1, c :: cs =>
      if c = quote then some ([], cs)
      else if escapes && c = '\\' then do
        let (d, rest) ← escape? cs
        let (inner, rest) ← quoted? quote escapes fuel rest
        some (d :: inner, rest)
      else if isPlain c then do
        let (inner, rest) ← quoted? quote escapes fuel cs
        some (c :: inner, rest)
      else none

/-- The text behind a line break that a backslash takes back, with the blanks around it. -/
def afterBreak? (cs : List Char) : Option (List Char) :=
  match cs.dropWhile isSpace with
  | '\n' :: rest => some (rest.dropWhile fun c => isSpace c || c = '\n')
  | _ => none

/-- The inside of a text over several lines and the text behind its closing quotes. Three quotes
close it; one or two more right before them belong to it. The number bounds how many characters
are read. -/
def block? (quote : Char) (escapes : Bool) : Nat → List Char → Option (List Char × List Char)
  | 0, _ => none
  | _, [] => none
  | fuel + 1, c :: cs =>
      if c = quote then
        let run := c :: cs.takeWhile (· = quote)
        let rest := cs.dropWhile (· = quote)
        if run.length < 3 then
          (block? quote escapes fuel rest).map fun (inner, rest) => (run ++ inner, rest)
        else if run.length < 6 then some (run.drop 3, rest)
        else none
      else if escapes && c = '\\' then
        match afterBreak? cs with
        | some rest => block? quote escapes fuel rest
        | none => do
            let (d, rest) ← escape? cs
            let (inner, rest) ← block? quote escapes fuel rest
            some (d :: inner, rest)
      else if c = '\n' || isPlain c then do
        let (inner, rest) ← block? quote escapes fuel cs
        some (c :: inner, rest)
      else none

/-- A text in quotes of one of the two kinds. -/
def textIn? (quote : Char) (escapes : Bool) (cs : List Char) : Option (String × List Char) :=
  match after? [quote, quote, quote] cs with
  | some inner =>
      let inner := (after? ['\n'] inner).getD inner
      (block? quote escapes (inner.length + 1) inner).map fun (shown, rest) =>
        (String.ofList shown, rest)
  | none => do
      let inner ← after? [quote] cs
      let (shown, rest) ← quoted? quote escapes (inner.length + 1) inner
      some (String.ofList shown, rest)

def isBare (c : Char) : Bool :=
  c.isAlphanum || c = '_' || c = '-'

/-- One name: bare, or a text on one line. -/
def name? (cs : List Char) : Option (String × List Char) :=
  match cs with
  | '"' :: inner => (quoted? '"' true (inner.length + 1) inner).map fun (shown, rest) =>
      (String.ofList shown, rest)
  | '\'' :: inner => (quoted? '\'' false (inner.length + 1) inner).map fun (shown, rest) =>
      (String.ofList shown, rest)
  | c :: _ =>
      if isBare c then some (String.ofList (cs.takeWhile isBare), cs.dropWhile isBare) else none
  | [] => none

/-- Names with points between them and blanks around them. The number bounds how many there
are. -/
def key? : Nat → List Char → Option (Key × List Char)
  | 0, _ => none
  | room + 1, cs => do
      let (name, rest) ← name? (cs.dropWhile isSpace)
      match rest.dropWhile isSpace with
      | '.' :: rest => (key? room rest).map fun (others, rest) => (name :: others, rest)
      | rest => some ([name], rest)

/-- Digits, where single underscores may stand between two of them. -/
def grouped? (isDigit : Char → Bool) : List Char → Option (List Char)
  | [] => none
  | [c] => if isDigit c then some [c] else none
  | c :: d :: rest =>
      if !isDigit c then none
      else if d = '_' then (grouped? isDigit rest).map (c :: ·)
      else (grouped? isDigit (d :: rest)).map (c :: ·)

/-- Digits that do not start with a needless zero. -/
def whole? (cs : List Char) : Option (List Char) := do
  let digits ← grouped? Char.isDigit cs
  if digits.head? = some '0' && 1 < digits.length then none else some digits

/-- A whole number that fits in 64 bits with its sign. -/
def signed? (negative : Bool) (n : Nat) : Option Float :=
  if n = 0 then some 0.0
  else if negative then if n ≤ Nat.pow 2 63 then some (-Decimal.scaled n 0) else none
  else if n < Nat.pow 2 63 then some (Decimal.scaled n 0) else none

def isHexDigit (c : Char) : Bool :=
  (hexDigit? c).isSome

/-- A whole number in another base. -/
def based? (base : Nat) (cs : List Char) : Option Float := do
  let digits ← grouped? isHexDigit cs
  let n ← numeral? base digits
  signed? false n

/-- The exponent of a number, without underscores. -/
def power? : List Char → Option (List Char)
  | [] => some []
  | e :: cs =>
      if e = 'e' || e = 'E' then
        match cs with
        | '+' :: digits => (grouped? Char.isDigit digits).map (['e', '+'] ++ ·)
        | '-' :: digits => (grouped? Char.isDigit digits).map (['e', '-'] ++ ·)
        | digits => (grouped? Char.isDigit digits).map ('e' :: ·)
      else none

def isGroupChar (c : Char) : Bool :=
  c.isDigit || c = '_'

/-- The size of a number with a fraction or an exponent. -/
def decimal? (cs : List Char) : Option Float := do
  let whole ← whole? (cs.takeWhile isGroupChar)
  match cs.dropWhile isGroupChar with
  | '.' :: rest => do
      let fraction ← grouped? Char.isDigit (rest.takeWhile isGroupChar)
      let power ← power? (rest.dropWhile isGroupChar)
      Decimal.unsigned? (whole ++ '.' :: fraction ++ power)
  | rest => do
      let power ← power? rest
      Decimal.unsigned? (whole ++ power)

/-- A number behind its sign. Only below zero may it be too large. -/
def sized? (negative : Bool) (cs : List Char) : Option Float :=
  if cs = "inf".toList then some (if negative then -(1.0 / 0.0) else 1.0 / 0.0)
  else if cs = "nan".toList then some (0.0 / 0.0)
  else
    match whole? cs with
    | some digits => signed? negative (Decimal.digitsValue digits)
    | none => do
        let x ← decimal? cs
        if negative then some (-x) else if x.isInf then none else some x

def number? : List Char → Option Float
  | '0' :: 'x' :: cs => based? 16 cs
  | '0' :: 'o' :: cs => based? 8 cs
  | '0' :: 'b' :: cs => based? 2 cs
  | '+' :: cs => sized? false cs
  | '-' :: cs => sized? true cs
  | cs => sized? false cs

/-- A number of so many digits within bounds, and the text behind it. -/
def field? (digits low high : Nat) (cs : List Char) : Option (List Char × List Char) :=
  let shown := cs.take digits
  if shown.length = digits && shown.all Char.isDigit &&
      low ≤ Decimal.digitsValue shown && Decimal.digitsValue shown ≤ high then
    some (shown, cs.drop digits)
  else none

def isLeap (year : Nat) : Bool :=
  year % 4 = 0 && (year % 100 ≠ 0 || year % 400 = 0)

def daysIn (year month : Nat) : Nat :=
  if month = 2 then if isLeap year then 29 else 28
  else if month = 4 || month = 6 || month = 9 || month = 11 then 30
  else 31

def day? (cs : List Char) : Option (List Char × List Char) := do
  let (year, rest) ← field? 4 0 9999 cs
  let rest ← after? ['-'] rest
  let (month, rest) ← field? 2 1 12 rest
  let rest ← after? ['-'] rest
  let last := daysIn (Decimal.digitsValue year) (Decimal.digitsValue month)
  let (day, rest) ← field? 2 1 last rest
  some (year ++ '-' :: month ++ '-' :: day, rest)

/-- The fraction of a second, to nine places and without trailing zeros. -/
def subsecond? : List Char → Option (List Char × List Char)
  | '.' :: cs =>
      let digits := cs.takeWhile Char.isDigit
      let kept := ((digits.take 9).reverse.dropWhile (· = '0')).reverse
      if digits.isEmpty then none
      else some (if kept.isEmpty then [] else '.' :: kept, cs.dropWhile Char.isDigit)
  | cs => some ([], cs)

def clock? (cs : List Char) : Option (List Char × List Char) := do
  let (hour, rest) ← field? 2 0 23 cs
  let rest ← after? [':'] rest
  let (minute, rest) ← field? 2 0 59 rest
  let rest ← after? [':'] rest
  let (second, rest) ← field? 2 0 60 rest
  let (fraction, rest) ← subsecond? rest
  some (hour ++ ':' :: minute ++ ':' :: second ++ fraction, rest)

/-- A distance from universal time; no distance at all is shown as one ahead. -/
def offset? : List Char → Option (List Char)
  | [] => some []
  | ['Z'] => some ['Z']
  | ['z'] => some ['Z']
  | sign :: cs =>
      if sign = '+' || sign = '-' then do
        let (hour, rest) ← field? 2 0 23 cs
        let rest ← after? [':'] rest
        let (minute, rest) ← field? 2 0 59 rest
        let here := Decimal.digitsValue hour = 0 && Decimal.digitsValue minute = 0
        let sign := if here then '+' else sign
        if rest.isEmpty then some (sign :: hour ++ ':' :: minute) else none
      else none

/-- A time with an optional offset, as the whole of a text. -/
def zoned? (cs : List Char) : Option (List Char) := do
  let (clock, rest) ← clock? cs
  let offset ← offset? rest
  some (clock ++ offset)

/-- A date, a time, or a date and a time. -/
def date? (cs : List Char) : Option (List Char) :=
  match day? cs with
  | some (day, []) => some day
  | some (day, mark :: rest) =>
      if mark = 'T' || mark = 't' || mark = ' ' then
        (zoned? rest).map fun time => day ++ 'T' :: time
      else none
  | none =>
      match clock? cs with
      | some (clock, []) => some clock
      | _ => none

def isWordChar (c : Char) : Bool :=
  c.isAlphanum || c = '_' || c = '-' || c = '+' || c = '.' || c = ':'

/-- The value that a word spells. -/
def word? (cs : List Char) : Option Toml :=
  if cs = "true".toList then some (.bool true)
  else if cs = "false".toList then some (.bool false)
  else match date? cs with
    | some shown => some (.date (String.ofList shown))
    | none => (number? cs).map .number

/-- A date and a time with a blank between them. -/
def spacedDate? (word rest : List Char) : Option (Toml × List Char) :=
  match rest with
  | ' ' :: rest => do
      let (_, left) ← day? word
      if !left.isEmpty then none
      else do
        let shown ← date? (word ++ ' ' :: rest.takeWhile isWordChar)
        some (.date (String.ofList shown), rest.dropWhile isWordChar)
  | _ => none

/-- A value that is neither in quotes nor in brackets. -/
def bare? (cs : List Char) : Option (Toml × List Char) :=
  let word := cs.takeWhile isWordChar
  let rest := cs.dropWhile isWordChar
  match spacedDate? word rest with
  | some found => some found
  | none => (word? word).map fun value => (value, rest)

end Dialogue.Toml
