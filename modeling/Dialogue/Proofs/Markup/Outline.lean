import Dialogue.Markup.Parse
import Dialogue.Proofs.Markup.Content

set_option autoImplicit false

namespace Dialogue.Markup

open Segment

inductive Action where
  /-- Text from here on stands so deep in sections whose tags are text. -/
  | mute (depth : Nat)
  | text (chars : List Char)
  | opening (wrapper : Wrapper) (source : List Char)
  | marker (wrapper : Wrapper)
  | closing (name : String) (source : List Char)

def Tag.action (muted : Nat) (tag : Tag) (source : List Char) : Action :=
  if tag.name = Reader.muteName then
    match tag.kind with
    | .opening => .mute (muted + 1)
    | .closing => .mute (muted - 1)
    | .marker => .mute muted
  else if 0 < muted then .text source
  else
    match tag.kind with
    | .opening => .opening tag.wrapper source
    | .marker => .marker tag.wrapper
    | .closing => .closing tag.name source

def Piece.action (muted : Nat) : Piece → Action
  | .literal c => .text [c]
  | .bracketed content =>
      match Tag.ofContent? content with
      | some tag => tag.action muted ('[' :: content ++ [']'])
      | none => .text ('[' :: content ++ [']'])

theorem Piece.action_bracketed {content : List Char} {tag : Tag}
    (read : Tag.ofContent? content = some tag) (muted : Nat) :
    (Piece.bracketed content).action muted = tag.action muted ('[' :: content ++ [']']) := by
  simp only [Piece.action, read]

/-- Outside the sections whose tags are text, a tag does what its kind says. -/
theorem Tag.action_of_loud {tag : Tag} (heard : tag.name ≠ Reader.muteName) (source : List Char) :
    tag.action 0 source =
      match tag.kind with
      | .opening => .opening tag.wrapper source
      | .marker => .marker tag.wrapper
      | .closing => .closing tag.name source := by
  rw [Tag.action, if_neg heard, if_neg (Nat.lt_irrefl 0)]

/-- Only bracketed text opens a tag. -/
theorem Piece.source_of_opening {muted : Nat} {p : Piece} {wrapper : Wrapper} {source : List Char}
    (opens : p.action muted = .opening wrapper source) :
    ∃ content, p = .bracketed content ∧ source = '[' :: content ++ [']'] := by
  cases p with
  | literal c => cases opens
  | bracketed content =>
      refine ⟨content, rfl, ?_⟩
      cases read : Tag.ofContent? content with
      | none =>
          simp only [Piece.action, read] at opens
          cases opens
      | some tag =>
          rw [Piece.action_bracketed read, Tag.action] at opens
          split at opens
          · split at opens <;> cases opens
          · split at opens
            · cases opens
            · split at opens
              · exact (Action.opening.inj opens).2.symm
              · cases opens
              · cases opens

namespace Reader

def perform (r : Reader) : Action → Reader
  | .mute depth => { r with muted := depth }
  | .text chars => r.push chars
  | .opening wrapper source =>
      { r with
        out := r.out.flush, opened := r.opened ++ [⟨wrapper, source, r.out.flush.done.length⟩] }
  | .marker wrapper => { r with out := r.out.marker wrapper }
  | .closing name source =>
      if (r.opened.getLast?.any fun tagged => tagged.wrapper.name = name) then
        { r with out := r.out.flush, opened := r.opened.dropLast }
      else if markerNames.contains name then r
      else r.push source

theorem take_eq_perform (r : Reader) (p : Piece) : r.take p = r.perform (p.action r.muted) := by
  cases p with
  | literal c => rfl
  | bracketed content =>
      cases read : Tag.ofContent? content with
      | none => simp only [take, Piece.action, read, perform]
      | some tag =>
          simp only [take, read, Piece.action_bracketed read]
          obtain ⟨kind, name, properties⟩ := tag
          unfold takeTag Tag.action
          split
          · cases kind <;> rfl
          · split
            · rfl
            · cases kind <;> rfl

end Reader

/-- An open tag and what was read inside it. -/
structure Frame where
  wrapper : Wrapper
  source : List Char
  content : List Item

structure Outline where
  /-- What was read outside all open tags. -/
  base : List Item
  /-- The open tags, innermost first. -/
  frames : List Frame
  muted : Nat

namespace Outline

def initial : Outline :=
  ⟨[], [], 0⟩

/-- Adds items inside the innermost open tag. -/
def add (o : Outline) (items : List Item) : Outline :=
  match o.frames with
  | [] => { o with base := o.base ++ items }
  | f :: frames => { o with frames := { f with content := f.content ++ items } :: frames }

def push (o : Outline) (text : List Char) : Outline :=
  o.add (Item.literal [] text)

/-- Takes a closing tag with the given name. -/
def close (o : Outline) (name : String) (source : List Char) : Outline :=
  match o.frames with
  | f :: frames =>
      if f.wrapper.name = name then
        { o with frames := frames }.add (f.content.map (Item.under [f.wrapper]))
      else if markerNames.contains name then o
      else o.push source
  | [] => if markerNames.contains name then o else o.push source

def perform (o : Outline) : Action → Outline
  | .mute depth => { o with muted := depth }
  | .text chars => o.push chars
  | .opening wrapper source => { o with frames := ⟨wrapper, source, []⟩ :: o.frames }
  | .marker wrapper => o.add [.marker wrapper]
  | .closing name source => o.close name source

def take (o : Outline) (p : Piece) : Outline :=
  o.perform (p.action o.muted)

/-- The items of open tags, outermost first; each tag is text in front of its content. -/
def flatten (base : List Item) : List Frame → List Item
  | [] => base
  | f :: frames => flatten base frames ++ Item.literal [] f.source ++ f.content

def items (o : Outline) : List Item :=
  flatten o.base o.frames

section

variable {o : Outline} {f : Frame} {frames : List Frame} {name : String}

theorem close_of_matched (shape : o.frames = f :: frames) (named : f.wrapper.name = name)
    (source : List Char) :
    o.close name source =
      { o with frames := frames }.add (f.content.map (Item.under [f.wrapper])) := by
  rw [close, shape]
  simp only [if_pos named]

/-- A closing tag that does not match the innermost open tag is skipped or text. -/
theorem close_of_unmatched (other : ∀ f ∈ o.frames.head?, f.wrapper.name ≠ name)
    (source : List Char) :
    o.close name source = if markerNames.contains name then o else o.push source := by
  unfold close
  split
  · rename_i f frames shape
    have differ : f.wrapper.name ≠ name := other f (by rw [shape]; rfl)
    rw [if_neg differ]
  · rfl

end

theorem add_nil (o : Outline) : o.add [] = o := by
  obtain ⟨base, frames, muted⟩ := o
  cases frames <;> simp [add]

theorem add_add (o : Outline) (items more : List Item) :
    (o.add items).add more = o.add (items ++ more) := by
  obtain ⟨base, frames, muted⟩ := o
  cases frames <;> simp [add]

theorem take_literals (o : Outline) (cs : List Char) :
    (cs.map Piece.literal).foldl take o = o.add (Item.literal [] cs) := by
  induction cs generalizing o with
  | nil => exact (add_nil o).symm
  | cons c cs ih =>
      have step : o.take (.literal c) = o.add (Item.literal [] [c]) := rfl
      rw [List.map_cons, List.foldl_cons, ih, step, add_add]
      rfl

end Outline

theorem takeWhile_snoc {α : Type} {p : α → Bool} {x : α} (fails : p x = false) (xs : List α) :
    (xs ++ [x]).takeWhile p = xs.takeWhile p ∧ (xs ++ [x]).dropWhile p = xs.dropWhile p ++ [x] := by
  induction xs with
  | nil => simp [fails]
  | cons y xs ih =>
      by_cases holds : p y = true
      · simp [holds, ih]
      · simp [holds]

/-- The tags that are due come before a segment. -/
def due (index : Nat) (tag : OpenTag) : Bool :=
  tag.before ≤ index

def putBack (d : Draft) (tags : List OpenTag) : Draft :=
  tags.foldl (fun d tag => d.append tag.source []) d

theorem restore_cons (chars : List Char) (index dropped : Nat) (opened : List OpenTag) (d : Draft)
    (s : Segment) (rest : List Segment) :
    restore chars index dropped opened d (s :: rest) =
      restore chars (index + 1) (dropped + (opened.takeWhile (due index)).length)
        (opened.dropWhile (due index))
        ((putBack d (opened.takeWhile (due index))).copy chars
          (dropped + (opened.takeWhile (due index)).length) s) rest := rfl

theorem restore_nil (chars : List Char) (index dropped : Nat) (d : Draft) (group : List Segment) :
    restore chars index dropped [] d group = group.foldl (fun d s => d.copy chars dropped s) d := by
  induction group generalizing index d with
  | nil => rfl
  | cons s group ih => exact ih (index + 1) (d.copy chars dropped s)

/-- The last open tag is put back in front of the segments that were begun after it. -/
theorem restore_snoc (chars : List Char) (index dropped : Nat) {opened : List OpenTag}
    {tag : OpenTag} (d : Draft) {below : List Segment} (group : List Segment)
    (early : ∀ t ∈ opened, t.before ≤ index + below.length)
    (next : tag.before = index + below.length) :
    restore chars index dropped (opened ++ [tag]) d (below ++ group) =
      group.foldl (fun d s => d.copy chars (dropped + opened.length + 1) s)
        ((restore chars index dropped opened d below).append tag.source []) := by
  induction below generalizing index dropped opened d with
  | nil =>
      have all : ∀ t ∈ opened ++ [tag], due index t = true := by
        intro t member
        rw [due, decide_eq_true_iff]
        rcases List.mem_append.mp member with inside | last
        · exact early t inside
        · rw [List.mem_singleton.mp last, next]
          exact Nat.le_refl _
      have done : (restore chars index dropped opened d []).append tag.source [] =
          putBack d (opened ++ [tag]) := by
        rw [putBack, List.foldl_append]
        rfl
      rw [done, List.nil_append]
      cases group with
      | nil => rfl
      | cons s group =>
          rw [restore_cons, List.takeWhile_eq_self_iff.mpr all, List.dropWhile_eq_nil_iff.mpr all,
            restore_nil, List.length_append, List.length_singleton, ← Nat.add_assoc]
          rfl
  | cons s below ih =>
      rw [List.length_cons] at early next
      have late : due index tag = false := by
        rw [due, decide_eq_false_iff_not]
        omega
      obtain ⟨taken, left⟩ := takeWhile_snoc late opened
      have counted : (opened.takeWhile (due index)).length +
          (opened.dropWhile (due index)).length = opened.length := by
        rw [← List.length_append, List.takeWhile_append_dropWhile]
      rw [List.cons_append, restore_cons, taken, left, ih (index + 1), restore_cons, ← counted,
        ← Nat.add_assoc]
      · intro t member
        have := early t (List.dropWhile_subset _ member)
        omega
      · omega

namespace Draft

variable {d : Draft} {items : List Item}

structure Displays (d : Draft) (items : List Item) : Prop where
  text : d.text = Item.text items
  shown : Shows 0 d.segments items d.text.length

theorem Displays.append_run (displays : d.Displays items) {c : Char} {wrappers : List Wrapper}
    {more : List Item} (same : ∀ item ∈ more, item.continues wrappers = true) :
    (d.append (c :: Item.text more) wrappers).Displays (items ++ .char c wrappers :: more) := by
  refine ⟨?_, ?_⟩
  · rw [append, displays.text, Item.text_append]
    rfl
  · have alone : Shows (d.text.length + 1 + more.length) [] [] (d.text.length + 1 + more.length) :=
      .nil
    have shown := displays.shown.append (.run (c := c) same alone)
    have size : (c :: Item.text more).length = 1 + more.length := by
      rw [List.length_cons, Item.text_length_of_continues same, Nat.add_comm]
    rw [append, List.length_append, size, ← Nat.add_assoc]
    rw [List.append_nil] at shown
    exact shown

/-- Text without wrappers is put into a draft. -/
theorem Displays.append_literal (displays : d.Displays items) {source : List Char}
    (spelled : source ≠ []) :
    (d.append source []).Displays (items ++ Item.literal [] source) := by
  cases source with
  | nil => exact absurd rfl spelled
  | cons c cs =>
      have whole := displays.append_run (c := c) (Item.literal_continues cs)
      rw [Item.text_literal] at whole
      exact whole

theorem Displays.copy_marker (displays : d.Displays items) (chars : List Char)
    (dropped position : Nat) (wrapper : Wrapper) :
    (d.copy chars dropped (.markerAt position [wrapper])).Displays
      (items ++ [.marker wrapper]) := by
  refine ⟨?_, ?_⟩
  · rw [Item.text_append, ← displays.text]
    exact (List.append_nil _).symm
  · exact displays.shown.append (.marker .nil)

/-- Copying segments strips the wrappers of the tags that are put back. -/
theorem Displays.copies {chars after : List Char} {outer : List Wrapper} {start stop : Nat}
    {group : List Segment} {content shown : List Item} (showing : Shows start group shown stop)
    (wrapped : shown = content.map (Item.under outer))
    (text : chars.drop start = Item.text content ++ after) (displays : d.Displays items) :
    (group.foldl (fun d s => d.copy chars outer.length s) d).Displays (items ++ content) := by
  induction showing generalizing content d items with
  | nil =>
      obtain rfl := List.map_eq_nil_iff.mp wrapped.symm
      rw [List.append_nil]
      exact displays
  | @run start stop wrappers c more rest shown same next ih =>
      obtain ⟨first, others, rfl, head, tail⟩ := List.map_eq_cons_iff.mp wrapped.symm
      obtain ⟨more, content, rfl, rfl, rfl⟩ := List.map_eq_append_iff.mp tail
      cases first with
      | marker wrapper => cases head
      | char c' own =>
          obtain ⟨rfl, rfl⟩ := Item.char.inj head
          have inner : ∀ item ∈ more, item.continues own = true := by
            intro item member
            have equal := same _ (List.mem_map_of_mem member)
            cases item with
            | char e inside => exact beq_of_append_beq equal
            | marker wrapper => cases equal
          have width : (c' :: Item.text more).length = 1 + more.length := by
            rw [List.length_cons, Item.text_length_of_continues inner, Nat.add_comm]
          rw [Item.text, Item.text_append, ← List.cons_append, List.append_assoc] at text
          rw [List.length_map] at next ih ⊢
          -- The segment holds the run's characters, and what follows starts behind them.
          have cut : (chars.drop start).take (start + 1 + more.length - start) =
              c' :: Item.text more := by
            rw [text]
            apply List.take_left'
            omega
          have later : chars.drop (start + 1 + more.length) = Item.text content ++ after := by
            rw [Nat.add_assoc, ← List.drop_drop, text]
            apply List.drop_left'
            exact width
          have stepped : d.copy chars outer.length
              (.run start (start + 1 + more.length) (outer ++ own)) =
                d.append (c' :: Item.text more) own := by
            have stripped : (outer ++ own).drop outer.length = own := List.drop_left
            exact congr (congrArg d.append cut) stripped
          have copied := ih rfl later (displays.append_run (c := c') inner)
          rw [List.append_assoc, List.cons_append] at copied
          rw [List.foldl_cons, stepped]
          exact copied
  | @marker start stop wrapper rest shown next ih =>
      obtain ⟨first, content, rfl, head, tail⟩ := List.map_eq_cons_iff.mp wrapped.symm
      cases first with
      | char c own => cases head
      | marker own =>
          obtain rfl := Item.marker.inj head
          have copied := ih tail.symm text (displays.copy_marker chars outer.length start own)
          rw [List.append_assoc] at copied
          exact copied

end Draft

open Outline

/-- The segments of a reader, in groups: what was read outside all tags, then what was read inside
each open tag, with the wrappers of the tags around it. -/
inductive Mirrors : List OpenTag → List Segment → Outline → List Char → Prop
  | base {segments : List Segment} {base : List Item} {muted : Nat}
      (shown : Shows 0 segments base (Item.text base).length) :
      Mirrors [] segments ⟨base, [], muted⟩ (Item.text base)
  | frame {opened : List OpenTag} {segments group : List Segment} {base : List Item}
      {frames : List Frame} {muted : Nat} {text : List Char} {f : Frame}
      (below : Mirrors opened segments ⟨base, frames, muted⟩ text) (spelled : f.source ≠ [])
      (shown : Shows text.length group
        (f.content.map (Item.under (opened.map OpenTag.wrapper ++ [f.wrapper])))
        (text ++ Item.text f.content).length) :
      Mirrors (opened ++ [⟨f.wrapper, f.source, segments.length⟩]) (segments ++ group)
        ⟨base, f :: frames, muted⟩ (text ++ Item.text f.content)

namespace Mirrors

variable {opened : List OpenTag} {segments : List Segment} {o : Outline} {text chars : List Char}

theorem before (mirrors : Mirrors opened segments o text) :
    ∀ t ∈ opened, t.before ≤ segments.length := by
  induction mirrors with
  | base shown => exact fun _ member => (nomatch member)
  | frame below spelled shown ih =>
      intro t member
      rw [List.length_append]
      rcases List.mem_append.mp member with inside | last
      · have := ih t inside
        omega
      · rw [List.mem_singleton.mp last]
        exact Nat.le_add_right ..

/-- Putting back the open tags shows the outline. -/
theorem restored (mirrors : Mirrors opened segments o text) {after : List Char}
    (whole : chars = text ++ after) :
    (restore chars 0 0 opened ⟨[], []⟩ segments).Displays o.items := by
  have nothing : Draft.Displays ⟨[], []⟩ [] := ⟨rfl, .nil⟩
  induction mirrors generalizing after with
  | @base segments base muted shown =>
      rw [restore_nil]
      exact nothing.copies shown (Item.under_nil base).symm whole
  | @frame opened segments group base frames muted text f below spelled shown ih =>
      rw [List.append_assoc] at whole
      rw [restore_snoc chars 0 0 _ group (by simpa using below.before) (Nat.zero_add _).symm]
      have lower := (ih whole).append_literal spelled
      have text : chars.drop text.length = Item.text f.content ++ after := by
        rw [whole, List.drop_left]
      have depth : 0 + opened.length + 1 = (opened.map OpenTag.wrapper ++ [f.wrapper]).length := by
        simp
      rw [depth]
      exact lower.copies shown rfl text

/-- Further segments belong to the innermost open tag. -/
theorem behind (mirrors : Mirrors opened segments o text) {group : List Segment}
    {items : List Item}
    (shown : Shows text.length group (items.map (Item.under (opened.map OpenTag.wrapper)))
      (text ++ Item.text items).length) :
    Mirrors opened (segments ++ group) (o.add items) (text ++ Item.text items) := by
  cases mirrors with
  | @base segments base muted first =>
      rw [List.map_nil, Item.under_nil] at shown
      have both := first.append shown
      rw [← Item.text_append] at both ⊢
      exact .base both
  | @frame opened segments inner base frames muted text f below spelled first =>
      have both := first.append shown
      rw [List.map_append, List.map_singleton, ← List.map_append, List.append_assoc,
        ← Item.text_append] at both
      rw [List.append_assoc, List.append_assoc, ← Item.text_append]
      exact .frame (f := { f with content := f.content ++ items }) below spelled both

/-- A builder adds to the innermost open tag. -/
theorem grown {b b' : Builder} {items : List Item}
    (mirrors : Mirrors opened (b.done ++ b.current.toList) o b.text)
    (plain : ∀ s ∈ b.current, s.marker = false) (early : ∀ t ∈ opened, t.before ≤ b.done.length)
    (grows : b.Grows b' (items.map (Item.under (opened.map OpenTag.wrapper)))) :
    Mirrors opened (b'.done ++ b'.current.toList) (o.add items) b'.text ∧
      (∀ s ∈ b'.current, s.marker = false) ∧ b.done.length ≤ b'.done.length := by
  obtain ⟨closed, done, ends⟩ := grows.segments
  have text : b'.text = b.text ++ Item.text items := by rw [grows.text, Item.text_under]
  have longer : b.done.length ≤ b'.done.length := by
    rw [done, List.length_append]
    exact Nat.le_add_right ..
  generalize shape : b.done ++ b.current.toList = segments at mirrors
  generalize content : b.text = chars at mirrors text
  cases mirrors with
  | @base segments base muted shown =>
      have size : b.length = (Item.text base).length := congrArg List.length content
      have first : b.Ends 0 b.done base := ⟨plain, by rw [shape, size]; exact shown⟩
      have last := ends first
      rw [List.map_nil, Item.under_nil] at last
      refine ⟨?_, last.plain, longer⟩
      have whole := last.shown
      rw [Builder.length, text, ← Item.text_append, ← done] at whole
      rw [text, ← Item.text_append]
      exact .base whole
  | @frame opened segments inner base frames muted before f below spelled shown =>
      -- The open run was begun after the tag.
      have cut : segments.length ≤ b.done.length :=
        early ⟨f.wrapper, f.source, segments.length⟩
          (List.mem_append_right _ (List.mem_singleton_self _))
      obtain ⟨front, parts⟩ : segments <+: b.done :=
        List.prefix_of_prefix_length_le ⟨inner, shape.symm⟩ (List.prefix_append ..) cut
      have rest : inner = front ++ b.current.toList := by
        rw [← parts, List.append_assoc] at shape
        exact (List.append_cancel_left shape).symm
      have size : b.length = (before ++ Item.text f.content).length := congrArg List.length content
      have first : b.Ends before.length front
          (f.content.map (Item.under (opened.map OpenTag.wrapper ++ [f.wrapper]))) :=
        ⟨plain, by rw [← rest, size]; exact shown⟩
      have last := ends first
      refine ⟨?_, last.plain, longer⟩
      have whole := last.shown
      rw [List.map_append, List.map_singleton, ← List.map_append, Builder.length, text,
        List.append_assoc before, ← Item.text_append] at whole
      rw [text, done, ← parts, List.append_assoc before, List.append_assoc segments,
        List.append_assoc segments, ← Item.text_append]
      exact .frame (f := { f with content := f.content ++ items }) below spelled whole

/-- A closed tag's content belongs to the tag around it, with the tag's wrapper. -/
theorem closed {tags : List OpenTag} {tag : OpenTag} {base : List Item} {f : Frame}
    {frames : List Frame} {muted : Nat}
    (mirrors : Mirrors (tags ++ [tag]) segments ⟨base, f :: frames, muted⟩ text) :
    Mirrors tags segments
      (Outline.add ⟨base, frames, muted⟩ (f.content.map (Item.under [f.wrapper]))) text := by
  generalize last : tags ++ [tag] = opened at mirrors
  cases mirrors with
  | frame below spelled shown =>
      obtain ⟨rfl, -⟩ := List.append_inj' last rfl
      rw [← Item.text_under [f.wrapper] f.content]
      apply below.behind
      rw [Item.under_under, Item.text_under]
      exact shown

theorem unframed {base : List Item} {muted : Nat}
    (mirrors : Mirrors opened segments ⟨base, [], muted⟩ text) :
    opened = [] ∧ text = Item.text base ∧ Shows 0 segments base text.length := by
  cases mirrors with
  | base shown => exact ⟨rfl, rfl, shown⟩

theorem framed {base : List Item} {f : Frame} {frames : List Frame} {muted : Nat}
    (mirrors : Mirrors opened segments ⟨base, f :: frames, muted⟩ text) :
    ∃ tags tag, opened = tags ++ [tag] ∧ tag.wrapper = f.wrapper := by
  cases mirrors with
  | frame below spelled shown => exact ⟨_, _, rfl, rfl⟩

theorem remuted (mirrors : Mirrors opened segments o text) (muted : Nat) :
    Mirrors opened segments { o with muted := muted } text := by
  induction mirrors with
  | base shown => exact .base shown
  | frame below spelled shown ih => exact .frame ih spelled shown

end Mirrors

namespace Reader

variable {r : Reader} {o : Outline}

/-- A reader and an outline that have read the same. -/
structure Follows (r : Reader) (o : Outline) : Prop where
  muted : r.muted = o.muted
  plain : ∀ s ∈ r.out.current, s.marker = false
  early : ∀ t ∈ r.opened, t.before ≤ r.out.done.length
  mirrors : Mirrors r.opened (r.out.done ++ r.out.current.toList) o r.out.text

theorem follows_initial : initial.Follows Outline.initial where
  muted := rfl
  plain _ member := nomatch member
  early _ member := nomatch member
  mirrors := .base .nil

theorem muted_add (o : Outline) (items : List Item) : (o.add items).muted = o.muted := by
  unfold Outline.add
  split <;> rfl

theorem Follows.add (follows : r.Follows o) {out : Builder} {items : List Item}
    (grows : r.out.Grows out (items.map (Item.under r.wrappers))) :
    Follows { r with out := out } (o.add items) := by
  obtain ⟨mirrors, plain, longer⟩ := follows.mirrors.grown follows.plain follows.early grows
  refine ⟨?_, plain, ?_, mirrors⟩
  · rw [muted_add]
    exact follows.muted
  · intro t member
    exact Nat.le_trans (follows.early t member) longer

theorem Follows.push (follows : r.Follows o) (text : List Char) :
    (r.push text).Follows (o.push text) := by
  apply follows.add
  rw [Item.literal_under, List.append_nil]
  exact Builder.grows_pushText r.out r.wrappers text

theorem Follows.marker (follows : r.Follows o) (wrapper : Wrapper) :
    Follows { r with out := r.out.marker wrapper } (o.add [.marker wrapper]) :=
  follows.add (Builder.grows_marker r.out wrapper)

theorem Follows.flush (follows : r.Follows o) : Follows { r with out := r.out.flush } o := by
  have flushed : Follows { r with out := r.out.flush } (o.add []) :=
    follows.add (Builder.grows_flush r.out)
  rw [Outline.add_nil] at flushed
  exact flushed

theorem Follows.opening (follows : r.Follows o) (wrapper : Wrapper) {source : List Char}
    (spelled : source ≠ []) :
    Follows { r with
        out := r.out.flush, opened := r.opened ++ [⟨wrapper, source, r.out.flush.done.length⟩] }
      { o with frames := ⟨wrapper, source, []⟩ :: o.frames } := by
  have flushed := follows.flush
  refine ⟨flushed.muted, flushed.plain, ?_, ?_⟩
  · intro t member
    rcases List.mem_append.mp member with inside | last
    · exact flushed.early t inside
    · rw [List.mem_singleton.mp last]
  · have nothing : Shows r.out.flush.text.length []
        (List.map (Item.under (r.opened.map OpenTag.wrapper ++ [wrapper])) [])
        (r.out.flush.text ++ Item.text []).length := by
      rw [Item.text, List.append_nil]
      exact .nil
    have framed := Mirrors.frame (f := ⟨wrapper, source, []⟩) flushed.mirrors spelled nothing
    rw [Item.text, List.append_nil, List.append_nil] at framed
    simpa [Builder.flush] using framed

theorem Follows.closing (follows : r.Follows o) (name : String) {source : List Char} :
    Follows
      (if (r.opened.getLast?.any fun tagged => tagged.wrapper.name = name) then
        { r with out := r.out.flush, opened := r.opened.dropLast }
      else if markerNames.contains name then r
      else r.push source)
      (o.close name source) := by
  have mirrors := follows.mirrors
  obtain ⟨base, frames, muted⟩ := o
  cases frames with
  | nil =>
      rw [mirrors.unframed.1]
      simp only [List.getLast?_nil, Option.any_none, Bool.false_eq_true, ↓reduceIte, Outline.close]
      split
      · exact follows
      · exact follows.push source
  | cons f frames =>
      obtain ⟨tags, tag, shape, named⟩ := mirrors.framed
      have last : (r.opened.getLast?.any fun tagged => tagged.wrapper.name = name) =
          decide (f.wrapper.name = name) := by
        rw [shape, List.getLast?_concat, Option.any_some, named]
      rw [last, Outline.close]
      simp only [decide_eq_true_eq]
      split
      · have flushed := follows.flush
        have inner := flushed.mirrors
        have early := flushed.early
        simp only [shape] at inner early
        refine ⟨?_, flushed.plain, ?_, ?_⟩
        · rw [muted_add]
          exact flushed.muted
        · intro t member
          simp only [shape, List.dropLast_concat] at member
          exact early t (List.mem_append_left _ member)
        · simp only [shape, List.dropLast_concat]
          exact inner.closed
      · split
        · exact follows
        · exact follows.push source

theorem Follows.remuted (follows : r.Follows o) (muted : Nat) :
    Follows { r with muted := muted } { o with muted := muted } :=
  ⟨rfl, follows.plain, follows.early, follows.mirrors.remuted muted⟩

theorem Follows.take (follows : r.Follows o) (piece : Piece) :
    (r.take piece).Follows (o.take piece) := by
  rw [Reader.take_eq_perform, Outline.take, follows.muted]
  cases action : piece.action o.muted with
  | mute depth => exact follows.remuted depth
  | text chars => exact follows.push chars
  | opening wrapper source =>
      apply follows.opening
      obtain ⟨content, -, rfl⟩ := Piece.source_of_opening action
      exact List.cons_ne_nil _ _
  | marker wrapper => exact follows.marker wrapper
  | closing name source => exact follows.closing name

theorem Follows.foldl (follows : r.Follows o) (pieces : List Piece) :
    (pieces.foldl Reader.take r).Follows (pieces.foldl Outline.take o) := by
  induction pieces generalizing r o with
  | nil => exact follows
  | cons piece pieces ih => exact ih (follows.take piece)

/-- A reader's markup shows the items of its outline. -/
theorem Follows.finish (follows : r.Follows o) : r.finish = ofItems o.items := by
  have mirrors := follows.mirrors
  unfold Reader.finish
  split
  · rename_i none
    obtain ⟨base, frames, muted⟩ := o
    cases frames with
    | nil =>
        obtain ⟨-, text, shown⟩ := mirrors.unframed
        have merged := merge_of_shows shown
        rw [← text] at merged
        exact merged
    | cons f frames =>
        obtain ⟨tags, tag, shape, -⟩ := mirrors.framed
        simp [shape] at none
  · have restored := mirrors.restored (List.append_nil r.out.text).symm
    have merged := merge_of_shows restored.shown
    rw [← restored.text] at merged
    exact merged

end Reader

/-- The outline of a source. -/
def outline (source : List Char) : Outline :=
  (pieces source).foldl Outline.take .initial

theorem parse_eq_ofItems (source : String) : parse source = ofItems (outline source.toList).items :=
  (Reader.follows_initial.foldl (pieces source.toList)).finish

end Dialogue.Markup
