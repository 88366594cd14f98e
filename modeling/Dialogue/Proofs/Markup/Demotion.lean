import Dialogue.Proofs.Markup.Outline
import Dialogue.Proofs.Markup.Pieces

set_option autoImplicit false

namespace Dialogue.Markup

/-- The numbers of the units that opened the tags which are open in the end, outermost first; `next`
is the number of the next unit, and `marks` are the numbers for the tags that are open now. -/
def Reader.trail (r : Reader) (marks : List Nat) (next : Nat) : List Piece → List Nat
  | [] => marks
  | p :: ps =>
      (r.take p).trail ((marks ++ [next]).take (r.take p).opened.length) (next + 1) ps

/-- The numbers of the units that open tags which are never closed. -/
def unclosed (source : List Char) : List Nat :=
  Reader.initial.trail [] 0 (pieces source)

/-- The source, with the tags that are never closed escaped. -/
def escapeUnclosed (source : List Char) : List Char :=
  (lexemes source).zipIdx.flatMap fun x =>
    if x.2 ∈ unclosed source then escape x.1.source else x.1.source

theorem lexemes_source (cs : List Char) : (lexemes cs).flatMap Lexeme.source = cs := by
  induction cs using lexemes_induction with
  | nil => rw [lexemes_nil, List.flatMap_nil]
  | escaped c rest escapable ih => rw [lexemes_escaped escapable, List.flatMap_cons, ih]; rfl
  | bracketed cs content rest closed ih =>
      rw [lexemes_bracketed closed, List.flatMap_cons, ih, (closeBracket_append closed).1]
      simp
  | unclosed rest missing ih => rw [lexemes_unclosed missing, List.flatMap_cons, ih]; rfl
  | backslash rest follows ih => rw [lexemes_backslash follows, List.flatMap_cons, ih]; rfl
  | plain c rest notOpening notBackslash ih =>
      rw [lexemes_plain notOpening notBackslash, List.flatMap_cons, ih]
      rfl

/-- Bracketed text is spelled with its brackets. -/
def Lexeme.Faithful (l : Lexeme) : Prop :=
  l.source ≠ [] ∧ ∀ content, l.piece = .bracketed content → l.source = '[' :: content ++ [']']

theorem lexemes_faithful (cs : List Char) : ∀ l ∈ lexemes cs, l.Faithful := by
  have literal (source : List Char) (c : Char) (spelled : source ≠ []) :
      Lexeme.Faithful ⟨source, .literal c⟩ := ⟨spelled, fun content wrong => (nomatch wrong)⟩
  induction cs using lexemes_induction with
  | nil => rw [lexemes_nil]; exact fun l member => (nomatch member)
  | escaped c rest escapable ih =>
      rw [lexemes_escaped escapable]
      exact List.forall_mem_cons.mpr ⟨literal _ _ (List.cons_ne_nil _ _), ih⟩
  | bracketed cs content rest closed ih =>
      rw [lexemes_bracketed closed]
      refine List.forall_mem_cons.mpr ⟨⟨List.cons_ne_nil _ _, ?_⟩, ih⟩
      intro content' same
      rw [Piece.bracketed.inj same]
  | unclosed rest missing ih =>
      rw [lexemes_unclosed missing]
      exact List.forall_mem_cons.mpr ⟨literal _ _ (List.cons_ne_nil _ _), ih⟩
  | backslash rest follows ih =>
      rw [lexemes_backslash follows]
      exact List.forall_mem_cons.mpr ⟨literal _ _ (List.cons_ne_nil _ _), ih⟩
  | plain c rest notOpening notBackslash ih =>
      rw [lexemes_plain notOpening notBackslash]
      exact List.forall_mem_cons.mpr ⟨literal _ _ (List.cons_ne_nil _ _), ih⟩

/-- Where no bracket closes, nothing is bracketed. A backslash that escapes nothing changes what the
search for the bracket takes for escaped, but not before a bracket. -/
theorem unbracketed_of_closeBracket_eq_none {escaped : Bool} {cs : List Char}
    (missing : closeBracket escaped cs = none)
    (follows : escaped = true → ∀ d ∈ cs.head?, isEscapable d = false) :
    ∀ l ∈ lexemes cs, ∀ content, l.piece ≠ .bracketed content := by
  induction cs using lexemes_induction generalizing escaped with
  | nil => rw [lexemes_nil]; exact List.forall_mem_nil _
  | escaped c rest escapable ih =>
      cases escaped with
      | true => cases follows rfl '\\' rfl
      | false =>
          rw [lexemes_escaped escapable]
          refine List.forall_mem_cons.mpr ⟨(fun content wrong => by cases wrong), ?_⟩
          have next : closeBracket false rest = none := by simpa [closeBracket] using missing
          exact ih next (fun wrong => by cases wrong)
  | bracketed cs content rest closed ih =>
      have found : closeBracket escaped ('[' :: cs) = some ('[' :: content, rest) := by
        simp [closeBracket, closed]
      rw [found] at missing
      cases missing
  | unclosed rest none ih =>
      rw [lexemes_unclosed none]
      refine List.forall_mem_cons.mpr ⟨(fun content wrong => by cases wrong), ?_⟩
      exact ih none (fun wrong => by cases wrong)
  | backslash rest plain ih =>
      cases escaped with
      | true => cases follows rfl '\\' rfl
      | false =>
          rw [lexemes_backslash plain]
          refine List.forall_mem_cons.mpr ⟨(fun content wrong => by cases wrong), ?_⟩
          have next : closeBracket true rest = none := by simpa [closeBracket] using missing
          exact ih next (fun _ => plain)
  | plain c rest notOpening notBackslash ih =>
      rw [lexemes_plain notOpening notBackslash]
      refine List.forall_mem_cons.mpr ⟨(fun content wrong => by cases wrong), ?_⟩
      have open' : ¬(c = ']' && !escaped) = true := by
        intro closing
        rw [closeBracket, if_pos closing] at missing
        cases missing
      have next : closeBracket false rest = none := by
        rw [closeBracket, if_neg open'] at missing
        simpa [notBackslash] using missing
      exact ih next (fun wrong => by cases wrong)

/-- The text of a unit, escaped if it is marked. -/
def written : Lexeme × Bool → List Char
  | (l, true) => escape l.source
  | (l, false) => l.source

/-- The units that the text of a unit is read as. -/
def units : Lexeme × Bool → List Piece
  | (l, true) => l.source.map .literal
  | (l, false) => [l.piece]

/-- Only bracketed text is marked. -/
def BracketsOnly (marked : List (Lexeme × Bool)) : Prop :=
  ∀ l, (l, true) ∈ marked → ∃ content, l.piece = .bracketed content

theorem unmarked_of_literal {l : Lexeme} {mark : Bool} {marked : List (Lexeme × Bool)} {c : Char}
    (only : BracketsOnly ((l, mark) :: marked)) (plain : l.piece = .literal c) : mark = false := by
  cases mark with
  | false => rfl
  | true =>
      obtain ⟨content, bracketed⟩ := only l List.mem_cons_self
      rw [plain] at bracketed
      cases bracketed

theorem BracketsOnly.tail {x : Lexeme × Bool} {marked : List (Lexeme × Bool)}
    (only : BracketsOnly (x :: marked)) : BracketsOnly marked :=
  fun l member => only l (List.mem_cons_of_mem _ member)

theorem written_of_unbracketed {marked : List (Lexeme × Bool)} (only : BracketsOnly marked)
    (plain : ∀ l ∈ marked.map Prod.fst, ∀ content, l.piece ≠ .bracketed content) :
    marked.flatMap written = (marked.map Prod.fst).flatMap Lexeme.source := by
  induction marked with
  | nil => rfl
  | cons x marked ih =>
      obtain ⟨l, mark⟩ := x
      obtain ⟨first, others⟩ := List.forall_mem_cons.mp plain
      cases mark with
      | true =>
          obtain ⟨content, bracketed⟩ := only l List.mem_cons_self
          exact absurd bracketed (first content)
      | false =>
          rw [List.flatMap_cons, ih only.tail others]
          rfl

/-- A text that does not start with a bracket or a backslash keeps its first character. -/
theorem head?_written {cs : List Char} {marked : List (Lexeme × Bool)} (only : BracketsOnly marked)
    (listed : marked.map Prod.fst = lexemes cs) (plain : ∀ d ∈ cs.head?, isEscapable d = false) :
    (marked.flatMap written).head? = cs.head? := by
  have faithful := lexemes_faithful cs
  have whole := lexemes_source cs
  rw [← listed] at faithful whole
  cases marked with
  | nil => rw [← whole]; rfl
  | cons x marked =>
      obtain ⟨l, mark⟩ := x
      obtain ⟨spelled, shape⟩ := faithful l List.mem_cons_self
      obtain ⟨c, source, start⟩ := List.exists_cons_of_ne_nil spelled
      rw [List.map_cons, List.flatMap_cons, start, List.cons_append] at whole
      cases mark with
      | true =>
          obtain ⟨content, bracketed⟩ := only l List.mem_cons_self
          rw [shape content bracketed] at start
          obtain ⟨rfl, -⟩ := List.cons.inj start
          rw [← whole] at plain
          cases plain '[' rfl
      | false =>
          rw [← whole, List.flatMap_cons, written, start]
          rfl

/-- Escaping bracketed text makes it literal and leaves the other units as they are. -/
theorem pieces_written {cs : List Char} {marked : List (Lexeme × Bool)} (only : BracketsOnly marked)
    (listed : marked.map Prod.fst = lexemes cs) :
    pieces (marked.flatMap written) = marked.flatMap units := by
  induction cs using lexemes_induction generalizing marked with
  | nil =>
      rw [lexemes_nil, List.map_eq_nil_iff] at listed
      rw [listed, List.flatMap_nil, List.flatMap_nil, pieces_nil]
  | escaped c rest escapable ih =>
      rw [lexemes_escaped escapable] at listed
      obtain ⟨⟨l, mark⟩, marked, rfl, rfl, later⟩ := List.map_eq_cons_iff.mp listed
      obtain rfl := unmarked_of_literal only rfl
      rw [List.flatMap_cons, List.flatMap_cons, ← ih only.tail later]
      exact pieces_escaped escapable _
  | bracketed cs content rest closed ih =>
      rw [lexemes_bracketed closed] at listed
      obtain ⟨⟨l, mark⟩, marked, rfl, rfl, later⟩ := List.map_eq_cons_iff.mp listed
      rw [List.flatMap_cons, List.flatMap_cons, ← ih only.tail later]
      cases mark with
      | true => exact pieces_escape _ _
      | false =>
          have again := (closeBracket_append closed).2 (marked.flatMap written)
          have shape : written (⟨'[' :: content ++ [']'], .bracketed content⟩, false) ++
              marked.flatMap written = '[' :: (content ++ ']' :: marked.flatMap written) := by
            simp [written]
          rw [shape]
          exact pieces_bracketed again
  | unclosed rest missing ih =>
      rw [lexemes_unclosed missing] at listed
      obtain ⟨⟨l, mark⟩, marked, rfl, rfl, later⟩ := List.map_eq_cons_iff.mp listed
      obtain rfl := unmarked_of_literal only rfl
      -- Nothing behind the bracket is marked, so that it stays unclosed.
      have same : marked.flatMap written = rest := by
        rw [written_of_unbracketed only.tail, later, lexemes_source]
        rw [later]
        exact unbracketed_of_closeBracket_eq_none missing (fun wrong => (nomatch wrong))
      have units := ih only.tail later
      rw [List.flatMap_cons, List.flatMap_cons, ← units, same]
      exact pieces_unclosed missing
  | backslash rest follows ih =>
      rw [lexemes_backslash follows] at listed
      obtain ⟨⟨l, mark⟩, marked, rfl, rfl, later⟩ := List.map_eq_cons_iff.mp listed
      obtain rfl := unmarked_of_literal only rfl
      have unchanged : ∀ d ∈ (marked.flatMap written).head?, isEscapable d = false := by
        rw [head?_written only.tail later follows]
        exact follows
      rw [List.flatMap_cons, List.flatMap_cons, ← ih only.tail later]
      exact pieces_backslash unchanged
  | plain c rest notOpening notBackslash ih =>
      rw [lexemes_plain notOpening notBackslash] at listed
      obtain ⟨⟨l, mark⟩, marked, rfl, rfl, later⟩ := List.map_eq_cons_iff.mp listed
      obtain rfl := unmarked_of_literal only rfl
      rw [List.flatMap_cons, List.flatMap_cons, ← ih only.tail later]
      exact pieces_plain notOpening notBackslash _

namespace Outline

variable {o o' : Outline} {k : Nat}

/-- The number of open tags. -/
def height (o : Outline) : Nat :=
  o.frames.length

/-- The fewest tags that are open at a time, from now to the end of the units. -/
def lowest (o : Outline) : List Piece → Nat
  | [] => o.height
  | p :: ps => min o.height ((o.take p).lowest ps)

/-- The second outline is the first with its outermost `k` tags as text. -/
structure Demotes (k : Nat) (o o' : Outline) : Prop where
  muted : o'.muted = o.muted
  split : ∃ bottom, bottom.length = k ∧ o.frames = o'.frames ++ bottom ∧
    o'.base = flatten o.base bottom

theorem demotes_zero (o : Outline) : Demotes 0 o o :=
  ⟨rfl, [], rfl, (List.append_nil _).symm, rfl⟩

theorem flatten_append (base : List Item) (top bottom : List Frame) :
    flatten base (top ++ bottom) = flatten (flatten base bottom) top := by
  induction top with
  | nil => rfl
  | cons f top ih => rw [List.cons_append, flatten, flatten, ih]

theorem Demotes.items (demotes : Demotes k o o') : o'.items = o.items := by
  obtain ⟨bottom, -, frames, base⟩ := demotes.split
  rw [Outline.items, Outline.items, frames, base, flatten_append]

theorem height_add (o : Outline) (items : List Item) : (o.add items).height = o.height := by
  unfold add
  split
  · rfl
  · rename_i f frames shape
    rw [height, height, shape]
    rfl

theorem Demotes.add (demotes : Demotes k o o') (items : List Item) :
    Demotes k (o.add items) (o'.add items) := by
  obtain ⟨muted, bottom, size, frames, base⟩ := demotes
  obtain ⟨base₁, frames₁, muted₁⟩ := o
  obtain ⟨base₂, frames₂, muted₂⟩ := o'
  simp only at muted frames base
  subst muted frames base
  cases frames₂ with
  | cons f top => exact ⟨rfl, bottom, size, rfl, rfl⟩
  | nil =>
      cases bottom with
      | nil => exact ⟨rfl, [], size, rfl, rfl⟩
      | cons f bottom =>
          refine ⟨rfl, { f with content := f.content ++ items } :: bottom, size, rfl, ?_⟩
          exact List.append_assoc ..

theorem Demotes.push (demotes : Demotes k o o') (text : List Char) :
    Demotes k (o.push text) (o'.push text) :=
  demotes.add _

theorem Demotes.opening (demotes : Demotes k o o') (wrapper : Wrapper) (source : List Char) :
    Demotes k { o with frames := ⟨wrapper, source, []⟩ :: o.frames }
      { o' with frames := ⟨wrapper, source, []⟩ :: o'.frames } := by
  obtain ⟨muted, bottom, size, frames, base⟩ := demotes
  exact ⟨muted, bottom, size, congrArg _ frames, base⟩

/-- A tag that is opened outside all tags but the outermost ones may count as one of them. -/
theorem Demotes.opening_text (demotes : Demotes k o o') (all : o.height = k) (wrapper : Wrapper)
    (source : List Char) :
    Demotes (k + 1) { o with frames := ⟨wrapper, source, []⟩ :: o.frames } (o'.push source) := by
  obtain ⟨muted, bottom, size, frames, base⟩ := demotes
  have none : o'.frames = [] := by
    rw [height, frames, List.length_append] at all
    exact List.length_eq_zero_iff.mp (by omega)
  rw [none, List.nil_append] at frames
  refine ⟨?_, ⟨wrapper, source, []⟩ :: bottom, congrArg Nat.succ size, ?_, ?_⟩
  · rw [Outline.push, Reader.muted_add, muted]
  · rw [Outline.push, Outline.add, none]
    exact congrArg _ frames
  · rw [Outline.push, Outline.add, none, flatten, List.append_nil, ← base]

/-- A closing tag that leaves the outermost tags open does not see them. -/
theorem Demotes.close (demotes : Demotes k o o') {name : String} {source : List Char}
    (high : k ≤ (o.close name source).height) :
    Demotes k (o.close name source) (o'.close name source) := by
  have whole := demotes
  obtain ⟨muted, bottom, size, frames, base⟩ := demotes
  by_cases matched : ∃ f rest, o.frames = f :: rest ∧ f.wrapper.name = name
  · obtain ⟨f, rest, shape, named⟩ := matched
    rw [close_of_matched shape named] at high ⊢
    cases top : o'.frames with
    | nil =>
        -- The tag would close one of the outermost tags.
        rw [top, List.nil_append, shape] at frames
        rw [height_add, height] at high
        rw [← frames, List.length_cons] at size
        simp only at high
        omega
    | cons g inner =>
        rw [top, List.cons_append, shape] at frames
        obtain ⟨rfl, rfl⟩ := List.cons.inj frames
        rw [close_of_matched top named]
        have below : Demotes k { o with frames := inner ++ bottom } { o' with frames := inner } :=
          ⟨muted, bottom, size, rfl, base⟩
        exact below.add _
  · have other : ∀ f ∈ o.frames.head?, f.wrapper.name ≠ name := by
      intro f first named
      obtain ⟨rest, shape⟩ := List.head?_eq_some_iff.mp first
      exact matched ⟨f, rest, shape, named⟩
    have other' : ∀ f ∈ o'.frames.head?, f.wrapper.name ≠ name := by
      intro f first
      apply other
      rw [frames, List.head?_append, first]
      rfl
    rw [close_of_unmatched other, close_of_unmatched other']
    split
    · exact whole
    · exact whole.push source

theorem Demotes.take (demotes : Demotes k o o') {piece : Piece}
    (high : k ≤ (o.take piece).height) : Demotes k (o.take piece) (o'.take piece) := by
  unfold Outline.take at high ⊢
  rw [demotes.muted]
  cases action : piece.action o.muted with
  | mute depth => exact ⟨rfl, demotes.split⟩
  | text chars => exact demotes.push chars
  | opening wrapper source => exact demotes.opening wrapper source
  | marker wrapper => exact demotes.add _
  | closing name source =>
      rw [action] at high
      exact demotes.close high

theorem height_close_le (o : Outline) (name : String) (source : List Char) :
    (o.close name source).height ≤ o.height := by
  unfold close
  split
  · rename_i f frames shape
    split
    · rw [height_add, height, height, shape]
      exact Nat.le_succ _
    · split
      · exact Nat.le_refl _
      · exact Nat.le_of_eq (height_add ..)
  · split
    · exact Nat.le_refl _
    · exact Nat.le_of_eq (height_add ..)

/-- Only a tag that is opened adds to the open tags. -/
theorem take_of_taller {piece : Piece} (taller : o.height < (o.take piece).height) :
    ∃ content wrapper, piece = .bracketed content ∧
      o.take piece = { o with frames := ⟨wrapper, '[' :: content ++ [']'], []⟩ :: o.frames } := by
  unfold take at taller ⊢
  cases action : piece.action o.muted with
  | mute depth =>
      rw [action] at taller
      exact absurd taller (Nat.lt_irrefl _)
  | text chars =>
      rw [action, perform, push, height_add] at taller
      omega
  | opening wrapper source =>
      obtain ⟨content, rfl, rfl⟩ := Piece.source_of_opening action
      exact ⟨content, wrapper, rfl, rfl⟩
  | marker wrapper =>
      rw [action, perform, height_add] at taller
      omega
  | closing name source =>
      have lower := height_close_le o name source
      rw [action, perform] at taller
      omega

theorem height_take_le (o : Outline) (piece : Piece) : (o.take piece).height ≤ o.height + 1 := by
  by_cases taller : o.height < (o.take piece).height
  · obtain ⟨content, wrapper, -, opened⟩ := take_of_taller taller
    rw [opened]
    exact Nat.le_refl _
  · omega

theorem lowest_le (o : Outline) (ps : List Piece) : o.lowest ps ≤ o.height := by
  cases ps with
  | nil => exact Nat.le_refl _
  | cons p ps => exact Nat.min_le_left ..

/-- The units, with a mark on those that open a tag which is never closed: from there on the tags
that were open before and this one stay open. -/
def marked (o : Outline) : List Lexeme → List (Lexeme × Bool)
  | [] => []
  | l :: ls =>
      (l, decide (o.height < (o.take l.piece).lowest (ls.map Lexeme.piece))) ::
        (o.take l.piece).marked ls

theorem map_marked (o : Outline) (ls : List Lexeme) : (o.marked ls).map Prod.fst = ls := by
  induction ls generalizing o with
  | nil => rfl
  | cons l ls ih => rw [marked, List.map_cons, ih]

theorem bracketsOnly_marked (o : Outline) (ls : List Lexeme) : BracketsOnly (o.marked ls) := by
  induction ls generalizing o with
  | nil => exact fun l member => (nomatch member)
  | cons l ls ih =>
      intro l' member
      rcases List.mem_cons.mp member with first | later
      · obtain ⟨rfl, mark⟩ := Prod.mk.inj first
        have stays := of_decide_eq_true mark.symm
        have bound := lowest_le (o.take l'.piece) (ls.map Lexeme.piece)
        obtain ⟨content, wrapper, shape, -⟩ := take_of_taller (Nat.lt_of_lt_of_le stays bound)
        exact ⟨content, shape⟩
      · exact ih (o.take l.piece) l' later

/-- Reading the units with the marked ones as text keeps demoting the tags that stay open. -/
theorem Demotes.foldl {ls : List Lexeme} (faithful : ∀ l ∈ ls, l.Faithful)
    (demotes : Demotes (o.lowest (ls.map Lexeme.piece)) o o') :
    (((o.marked ls).flatMap units).foldl Outline.take o').items =
      ((ls.map Lexeme.piece).foldl Outline.take o).items := by
  induction ls generalizing o o' with
  | nil => exact demotes.items
  | cons l ls ih =>
      obtain ⟨first, others⟩ := List.forall_mem_cons.mp faithful
      have bound := lowest_le (o.take l.piece) (ls.map Lexeme.piece)
      rw [List.map_cons, lowest] at demotes
      rw [marked, List.flatMap_cons, List.foldl_append, List.map_cons, List.foldl_cons]
      apply ih others
      by_cases stays : o.height < (o.take l.piece).lowest (ls.map Lexeme.piece)
      · obtain ⟨content, wrapper, shape, opened⟩ := take_of_taller (Nat.lt_of_lt_of_le stays bound)
        have next := height_take_le o l.piece
        have all : min o.height ((o.take l.piece).lowest (ls.map Lexeme.piece)) = o.height := by
          omega
        have up : (o.take l.piece).lowest (ls.map Lexeme.piece) = o.height + 1 := by omega
        rw [all] at demotes
        have literal : (units (l, true)).foldl Outline.take o' = o'.push l.source :=
          take_literals o' l.source
        rw [decide_eq_true stays, up, literal, opened, first.2 content shape]
        exact demotes.opening_text rfl wrapper _
      · have kept : min o.height ((o.take l.piece).lowest (ls.map Lexeme.piece)) =
            (o.take l.piece).lowest (ls.map Lexeme.piece) := by omega
        rw [kept] at demotes
        rw [decide_eq_false stays]
        exact demotes.take bound

end Outline

theorem Mirrors.height {opened : List OpenTag} {segments : List Segment} {o : Outline}
    {text : List Char} (mirrors : Mirrors opened segments o text) : opened.length = o.height := by
  induction mirrors with
  | base shown => rfl
  | frame below spelled shown ih =>
      rw [List.length_append, ih]
      rfl

namespace Reader

variable {r : Reader} {o : Outline} {marks : List Nat}

theorem Follows.height (follows : r.Follows o) : r.opened.length = o.height :=
  follows.mirrors.height

theorem Follows.counted_take (follows : r.Follows o) (counted : marks.length = o.height)
    (next : Nat) (p : Piece) :
    ((marks ++ [next]).take (r.take p).opened.length).length = (o.take p).height := by
  have limit := Outline.height_take_le o p
  rw [List.length_take, List.length_append, List.length_singleton, (follows.take p).height, counted]
  omega

/-- Of the tags that are open now, those below the lowest height stay open; what opens tags later
has a later number. -/
theorem Follows.trail (follows : r.Follows o) (counted : marks.length = o.height) (next : Nat)
    (ps : List Piece) :
    ∃ later, (∀ m ∈ later, next ≤ m) ∧
      r.trail marks next ps = marks.take (o.lowest ps) ++ later := by
  induction ps generalizing r o marks next with
  | nil =>
      refine ⟨[], fun m member => (nomatch member), ?_⟩
      rw [Outline.lowest, ← counted, List.take_length, List.append_nil]
      rfl
  | cons p ps ih =>
      have step := follows.take p
      have bound := Outline.lowest_le (o.take p) ps
      have limit := Outline.height_take_le o p
      have sized := follows.counted_take counted next p
      obtain ⟨later, late, trailed⟩ := ih step sized (next + 1)
      rw [List.take_take, step.height, Nat.min_eq_left bound] at trailed
      rw [Reader.trail, step.height, trailed, Outline.lowest]
      by_cases stays : o.height < (o.take p).lowest ps
      · -- This unit opens a tag that stays.
        have all : (marks ++ [next]).take ((o.take p).lowest ps) = marks ++ [next] := by
          apply List.take_of_length_le
          rw [List.length_append, List.length_singleton]
          omega
        refine ⟨next :: later, ?_, ?_⟩
        · refine List.forall_mem_cons.mpr ⟨Nat.le_refl _, fun m member => ?_⟩
          have := late m member
          omega
        · rw [all, Nat.min_eq_left (Nat.le_of_lt stays), ← counted, List.take_length,
            List.append_assoc]
          rfl
      · refine ⟨later, fun m member => ?_, ?_⟩
        · have := late m member
          omega
        · rw [Nat.min_eq_right (by omega), List.take_append_of_le_length (by omega)]

/-- A unit has its number in the end if and only if it is marked. -/
theorem Follows.marked (follows : r.Follows o) (counted : marks.length = o.height) {next : Nat}
    (early : ∀ m ∈ marks, m < next) (ls : List Lexeme) :
    ((ls.zipIdx next).map fun x =>
        (x.1, decide (x.2 ∈ r.trail marks next (ls.map Lexeme.piece)))) = o.marked ls := by
  induction ls generalizing r o marks next with
  | nil => rfl
  | cons l ls ih =>
      have step := follows.take l.piece
      have sized := follows.counted_take counted next l.piece
      have earlier : ∀ m ∈ (marks ++ [next]).take (r.take l.piece).opened.length, m < next + 1 := by
        intro m member
        rcases List.mem_append.mp (List.mem_of_mem_take member) with before | here
        · have := early m before
          omega
        · rw [List.mem_singleton.mp here]
          exact Nat.lt_succ_self _
      rw [List.zipIdx_cons, List.map_cons, List.map_cons, Outline.marked, Reader.trail,
        ih step sized earlier]
      congr 2
      apply decide_eq_decide.mpr
      obtain ⟨later, late, trailed⟩ := step.trail sized (next + 1) (ls.map Lexeme.piece)
      have bound := Outline.lowest_le (o.take l.piece) (ls.map Lexeme.piece)
      rw [List.take_take, step.height, Nat.min_eq_left bound] at trailed
      rw [step.height, trailed, List.mem_append]
      refine ⟨?_, ?_⟩
      · rintro (now | after)
        · by_contra closes
          rw [List.take_append_of_le_length (by omega)] at now
          exact Nat.lt_irrefl _ (early next (List.mem_of_mem_take now))
        · exact absurd (late next after) (Nat.not_succ_le_self next)
      · intro stays
        refine .inl ?_
        rw [List.take_of_length_le]
        · exact List.mem_append_right _ (List.mem_singleton_self next)
        · rw [List.length_append, List.length_singleton]
          omega

/-- After a unit, the open tags are a part of those before and the tag that the unit spells. -/
theorem opened_take (r : Reader) {l : Lexeme} (faithful : l.Faithful) :
    (r.take l.piece).opened.map OpenTag.source =
      (r.opened.map OpenTag.source ++ [l.source]).take (r.take l.piece).opened.length := by
  have kept (opened : List OpenTag) (same : opened = r.opened) : opened.map OpenTag.source =
      (r.opened.map OpenTag.source ++ [l.source]).take opened.length := by
    rw [same, List.take_left' (List.length_map _)]
  rw [take_eq_perform]
  cases action : l.piece.action r.muted with
  | mute depth => exact kept _ rfl
  | text chars => exact kept _ rfl
  | marker wrapper => exact kept _ rfl
  | opening wrapper source =>
      obtain ⟨content, shape, spelled⟩ := Piece.source_of_opening action
      rw [faithful.2 content shape, ← spelled]
      simp [perform]
  | closing name source =>
      unfold perform
      simp only
      split
      · rw [List.length_dropLast, List.take_append_of_le_length (by simp), List.dropLast_eq_take,
          List.map_take]
      · split
        · exact kept _ rfl
        · exact kept _ rfl

theorem trail_sources {source : Nat → Option (List Char)} {r : Reader} {marks : List Nat}
    {next : Nat} {ls : List Lexeme} (faithful : ∀ l ∈ ls, l.Faithful)
    (numbered : ∀ x ∈ ls.zipIdx next, source x.2 = some x.1.source)
    (same : marks.map source = r.opened.map fun t => some t.source) :
    (r.trail marks next (ls.map Lexeme.piece)).map source =
      ((ls.map Lexeme.piece).foldl Reader.take r).opened.map fun t => some t.source := by
  induction ls generalizing r marks next with
  | nil => exact same
  | cons l ls ih =>
      obtain ⟨first, others⟩ := List.forall_mem_cons.mp faithful
      rw [List.zipIdx_cons] at numbered
      obtain ⟨here, later⟩ := List.forall_mem_cons.mp numbered
      apply ih others later
      have opened := congrArg (List.map some) (opened_take r first)
      simp only [List.map_map, List.map_take, List.map_append, List.map_singleton] at opened
      rw [List.map_take, List.map_append, same, List.map_singleton, here]
      exact opened.symm

end Reader

theorem escapeUnclosed_eq (source : List Char) :
    escapeUnclosed source = (Outline.initial.marked (lexemes source)).flatMap written := by
  have early : ∀ m ∈ ([] : List Nat), m < 0 := fun m member => (nomatch member)
  have marked := Reader.follows_initial.marked rfl early (lexemes source)
  rw [← marked, List.flatMap_map, escapeUnclosed, unclosed, pieces_eq_lexemes]
  congr 1
  funext x
  by_cases stays : x.2 ∈ Reader.initial.trail [] 0 ((lexemes source).map Lexeme.piece)
  · rw [if_pos stays, decide_eq_true stays, written]
  · rw [if_neg stays, decide_eq_false stays, written]

/-- The units spell the source, and the numbered ones spell the tags that are open in the end.
Reading the source is reading it with a backslash before each bracket and each backslash of
those. -/
theorem parse_escapeUnclosed (source : String) :
    (lexemes source.toList).flatMap Lexeme.source = source.toList ∧
      ((unclosed source.toList).map fun n => (lexemes source.toList)[n]?.map Lexeme.source) =
        ((pieces source.toList).foldl Reader.take .initial).opened.map (fun t => some t.source) ∧
      parse source = parse (String.ofList (escapeUnclosed source.toList)) := by
  have faithful := lexemes_faithful source.toList
  refine ⟨lexemes_source _, ?_, ?_⟩
  · rw [unclosed, pieces_eq_lexemes]
    apply Reader.trail_sources faithful
    · intro x member
      rw [List.mem_zipIdx_iff_getElem?] at member
      rw [member]
      rfl
    · rfl
  · have listed := Outline.map_marked .initial (lexemes source.toList)
    have brackets := Outline.bracketsOnly_marked .initial (lexemes source.toList)
    have lowest : Outline.initial.lowest ((lexemes source.toList).map Lexeme.piece) = 0 :=
      Nat.le_zero.mp (Outline.lowest_le ..)
    have demotes : Outline.Demotes
        (Outline.initial.lowest ((lexemes source.toList).map Lexeme.piece)) .initial .initial := by
      rw [lowest]
      exact Outline.demotes_zero _
    rw [parse_eq_ofItems, parse_eq_ofItems, String.toList_ofList, escapeUnclosed_eq, outline,
      outline, pieces_written brackets listed, demotes.foldl faithful, pieces_eq_lexemes]

-- The outer tag stays open; the inner one is closed and stays a tag.
example : escapeUnclosed "[b]x[i]y[/i]".toList = "\\[b\\]x[i]y[/i]".toList := by
  cbv

end Dialogue.Markup
