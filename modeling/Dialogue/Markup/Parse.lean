import Dialogue.Markup.Builder
import Dialogue.Markup.Tag

set_option autoImplicit false

namespace Dialogue.Markup

open Dialogue.Text

/-- A unit of markup source. -/
inductive Piece where
  | literal (c : Char)
  /-- Bracketed text that is a tag or nothing. -/
  | bracketed (content : List Char)

def isEscapable (c : Char) : Bool :=
  c = '[' || c = ']' || c = '\\'

/-- The text up to the next closing bracket that no backslash escapes, and the text behind it;
`escaped` says whether an odd number of backslashes comes before. -/
def closeBracket (escaped : Bool) : List Char → Option (List Char × List Char)
  | [] => none
  | c :: cs =>
      if c = ']' && !escaped then some ([], cs)
      else (closeBracket (c = '\\' && !escaped) cs).map fun (content, rest) => (c :: content, rest)

theorem closeBracket_length {escaped : Bool} {cs content rest : List Char}
    (found : closeBracket escaped cs = some (content, rest)) : rest.length < cs.length := by
  induction cs generalizing escaped content with
  | nil => simp [closeBracket] at found
  | cons c cs ih =>
      simp only [closeBracket] at found
      split at found
      · simp only [Option.some.injEq, Prod.mk.injEq] at found
        obtain ⟨-, rfl⟩ := found
        simp
      · simp only [Option.map_eq_some_iff, Prod.mk.injEq, Prod.exists] at found
        obtain ⟨_, _, found, -, rfl⟩ := found
        exact Nat.lt_succ_of_lt (ih found)

/-- The units of a source text. -/
def pieces : List Char → List Piece
  | [] => []
  | [c] => [.literal c]
  | c :: d :: cs =>
      if c = '\\' && isEscapable d then .literal d :: pieces cs
      else if c = '[' then
        match _closed : closeBracket false (d :: cs) with
        | some (content, rest) => .bracketed content :: pieces rest
        | none => .literal c :: pieces (d :: cs)
      else .literal c :: pieces (d :: cs)
termination_by cs => cs.length
decreasing_by
  all_goals simp only [List.length_cons]
  · omega
  · have := closeBracket_length _closed
    simp only [List.length_cons] at this
    omega
  · omega
  · omega

/-- A tag that is open. -/
structure OpenTag where
  wrapper : Wrapper
  source : List Char
  /-- How many segments were closed when it was opened. -/
  before : Nat

structure Reader where
  out : Builder
  /-- The open tags, outermost first. -/
  opened : List OpenTag
  /-- How deep the text stands in sections whose tags are text. -/
  muted : Nat

namespace Reader

def initial : Reader :=
  ⟨.empty, [], 0⟩

def wrappers (r : Reader) : List Wrapper :=
  r.opened.map OpenTag.wrapper

def push (r : Reader) (text : List Char) : Reader :=
  { r with out := r.out.pushText r.wrappers text }

/-- The name of the tag that turns tags into text. -/
def muteName : String :=
  "nomarkup"

/-- Takes a tag, given the text that spells it. -/
def takeTag (r : Reader) (tag : Tag) (source : List Char) : Reader :=
  if tag.name = muteName then
    match tag.kind with
    | .opening => { r with muted := r.muted + 1 }
    | .closing => { r with muted := r.muted - 1 }
    | .marker => r
  else if 0 < r.muted then r.push source
  else
    match tag.kind with
    | .opening =>
        let out := r.out.flush
        { r with out := out, opened := r.opened ++ [⟨tag.wrapper, source, out.done.length⟩] }
    | .marker => { r with out := r.out.marker tag.wrapper }
    | .closing =>
        if (r.opened.getLast?.any fun tagged => tagged.wrapper.name = tag.name) then
          { r with out := r.out.flush, opened := r.opened.dropLast }
        else if markerNames.contains tag.name then r
        else r.push source

def take (r : Reader) : Piece → Reader
  | .literal c => r.push [c]
  | .bracketed content =>
      let source := '[' :: content ++ [']']
      match Tag.ofContent? content with
      | some tag => r.takeTag tag source
      | none => r.push source

end Reader

/-- Text with segments that do not reach beyond it. -/
structure Draft where
  text : List Char
  segments : List Segment

namespace Draft

def append (d : Draft) (text : List Char) (wrappers : List Wrapper) : Draft :=
  ⟨d.text ++ text, d.segments ++ [.run d.text.length (d.text.length + text.length) wrappers]⟩

/-- Appends a segment of another text, without its outermost `dropped` wrappers. -/
def copy (d : Draft) (chars : List Char) (dropped : Nat) (s : Segment) : Draft :=
  if s.marker then { d with segments := d.segments ++ [.markerAt d.text.length s.wrappers] }
  else d.append ((chars.drop s.start).take (s.stop - s.start)) (s.wrappers.drop dropped)

end Draft

/-- Copies segments, the first of which has number `index`, and puts the source of each open tag
back before the first segment that was begun after it. Open tags are the outermost wrappers of what
follows them; `dropped` of them have been put back. -/
def restore (chars : List Char) (index dropped : Nat) (opened : List OpenTag) (d : Draft) :
    List Segment → Draft
  | [] => opened.foldl (fun d tag => d.append tag.source []) d
  | s :: rest =>
      let due := opened.takeWhile fun tag => tag.before ≤ index
      let later := opened.dropWhile fun tag => tag.before ≤ index
      let d := due.foldl (fun d tag => d.append tag.source []) d
      restore chars (index + 1) (dropped + due.length) later (d.copy chars (dropped + due.length) s)
        rest

/-- The markup, in which tags that were never closed are text. -/
def Reader.finish (r : Reader) : Markup :=
  if r.opened.isEmpty then r.out.finish
  else
    let d := restore r.out.text 0 0 r.opened ⟨[], []⟩ r.out.flush.done
    ⟨String.ofList d.text, Segment.merge d.segments d.text.length⟩

/-- Reads inline markup. -/
def parse (source : String) : Markup :=
  ((pieces source.toList).foldl Reader.take .initial).finish

end Dialogue.Markup
