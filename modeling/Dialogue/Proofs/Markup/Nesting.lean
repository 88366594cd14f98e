import Dialogue.Proofs.Markup.Outline
import Dialogue.Proofs.Markup.Tree

set_option autoImplicit false

namespace Dialogue.Markup

section

variable {o : Outline}

open Outline

variable {h : Head}

theorem take_opening (valid : h.WellFormed) (heard : h.name ≠ Reader.muteName)
    (wraps : h.name ≠ "br") (loud : o.muted = 0) :
    o.take (.bracketed h.text) =
      { o with frames := ⟨h.wrapper, '[' :: h.text ++ [']'], []⟩ :: o.frames } := by
  have opening : markerNames.contains h.name = false := by simp [markerNames, wraps]
  have read := valid.ofContent?_opening
  rw [opening] at read
  have action : (Piece.bracketed h.text).action o.muted =
      .opening h.wrapper ('[' :: h.text ++ [']']) := by
    rw [loud, Piece.action_bracketed read, Tag.action_of_loud heard]
    rfl
  rw [take, action]
  rfl

theorem take_marker (valid : h.WellFormed) (heard : h.name ≠ Reader.muteName) (loud : o.muted = 0) :
    o.take (.bracketed (h.text ++ ['/'])) = o.add [.marker h.wrapper] := by
  rw [take, loud, Piece.action_bracketed valid.ofContent?_marker, Tag.action_of_loud heard]
  rfl

/-- A closing tag wraps what was read since the tag was opened. -/
theorem take_closing (valid : h.WellFormed) (heard : h.name ≠ Reader.muteName) (loud : o.muted = 0)
    (source : List Char) (content : List Item) :
    Outline.take { o with frames := ⟨h.wrapper, source, content⟩ :: o.frames }
        (.bracketed ('/' :: h.name.toList)) =
      o.add (content.map (Item.under [h.wrapper])) := by
  have matching : h.wrapper.name = h.name := rfl
  have action : (Piece.bracketed ('/' :: h.name.toList)).action o.muted =
      .closing h.name ('[' :: '/' :: h.name.toList ++ [']']) := by
    rw [loud, Piece.action_bracketed (Head.ofContent?_closing valid.name), Tag.action_of_loud heard]
  rw [take, action, perform, close_of_matched rfl matching]

end

mutual

theorem Tree.items_under (outer around : List Wrapper) (tree : Tree) :
    (tree.items around).map (Item.under outer) = tree.items (outer ++ around) := by
  cases tree with
  | text content => exact Item.literal_under ..
  | element head children =>
      rw [Tree.items, forestItems_under, ← List.append_assoc]
      rfl
  | marker head => rfl

theorem forestItems_under (outer around : List Wrapper) (forest : List Tree) :
    (forestItems around forest).map (Item.under outer) = forestItems (outer ++ around) forest := by
  cases forest with
  | nil => rfl
  | cons tree forest =>
      rw [forestItems, List.map_append, Tree.items_under, forestItems_under]
      rfl

end

mutual

/-- Reading a tree adds its items, whatever was open before. -/
theorem read_tree (tree : Tree) (valid : tree.WellFormed) {o : Outline} (loud : o.muted = 0)
    (rest : List Char) :
    (pieces (tree.render ++ rest)).foldl Outline.take o =
      (pieces rest).foldl Outline.take (o.add (tree.items [])) := by
  cases tree with
  | text content =>
      rw [Tree.render, pieces_escape, List.foldl_append, Outline.take_literals]
      rfl
  | element head children =>
      obtain ⟨headValid, heard, wraps, inside⟩ := valid
      have closing : ∀ c ∈ '/' :: head.name.toList, c ≠ ']' ∧ c ≠ '\\' := by
        refine List.forall_mem_cons.mpr ⟨by decide, fun c member => ?_⟩
        exact headValid.text_bare c (List.mem_append_left _ member)
      -- The tag, what it is around and the tag that closes it, each in front of the rest.
      have shape : (Tree.element head children).render ++ rest =
          '[' :: (head.text ++ ']' :: (renderForest children ++
            '[' :: (('/' :: head.name.toList) ++ ']' :: rest))) := by
        simp [Tree.render]
      rw [shape, pieces_bracketed (closeBracket_of_bare headValid.text_bare _), List.foldl_cons,
        take_opening headValid heard wraps loud]
      rw [read_forest children inside (by exact loud),
        pieces_bracketed (closeBracket_of_bare closing _), List.foldl_cons]
      have content : (forestItems [] children).map (Item.under [head.wrapper]) =
          forestItems [head.wrapper] children := by
        rw [forestItems_under, List.append_nil]
      have closed := take_closing headValid heard loud ('[' :: head.text ++ [']'])
        (forestItems [] children)
      rw [content] at closed
      exact congrArg ((pieces rest).foldl Outline.take) closed
  | marker head =>
      obtain ⟨headValid, heard⟩ := valid
      have bare : ∀ c ∈ head.text ++ ['/'], c ≠ ']' ∧ c ≠ '\\' :=
        List.forall_mem_append.mpr ⟨headValid.text_bare, by simp⟩
      have shape : (Tree.marker head).render ++ rest =
          '[' :: ((head.text ++ ['/']) ++ ']' :: rest) := by
        simp [Tree.render]
      rw [shape, pieces_bracketed (closeBracket_of_bare bare _), List.foldl_cons,
        take_marker headValid heard loud]
      rfl

theorem read_forest (forest : List Tree) (valid : WellFormedForest forest) {o : Outline}
    (loud : o.muted = 0) (rest : List Char) :
    (pieces (renderForest forest ++ rest)).foldl Outline.take o =
      (pieces rest).foldl Outline.take (o.add (forestItems [] forest)) := by
  cases forest with
  | nil =>
      rw [forestItems, Outline.add_nil]
      rfl
  | cons tree forest =>
      obtain ⟨first, others⟩ := valid
      have still : (o.add (tree.items [])).muted = 0 := by rw [Reader.muted_add, loud]
      rw [renderForest, List.append_assoc, read_tree tree first loud,
        read_forest forest others still, Outline.add_add]
      rfl

end

theorem parse_forest {forest : List Tree} (valid : WellFormedForest forest) :
    parse (String.ofList (renderForest forest)) = ofItems (forestItems [] forest) := by
  have read := read_forest forest valid (o := .initial) rfl []
  rw [List.append_nil, pieces_nil, List.foldl_nil] at read
  rw [parse_eq_ofItems, String.toList_ofList, outline, read]
  rfl

/-- A wrapper all of whose properties are texts. -/
def TextOnly (w : Wrapper) : Prop :=
  ∀ e ∈ w.properties.entries, ∃ text, e.2 = .text text

theorem Head.textOnly (h : Head) : TextOnly h.wrapper := by
  intro e member
  obtain ⟨p, -, rfl⟩ := List.mem_map.mp (Table.mem_of_mem_ofList member)
  exact ⟨p.2, rfl⟩

/-- Wrappers whose properties are texts are compared exactly. -/
theorem TextOnly.eq_of_beq {v w : Wrapper} (texts : TextOnly v) (same : (v == w) = true) :
    v = w := by
  have listed : ∀ entries others : List (String × PropertyValue),
      (∀ e ∈ entries, ∃ text, e.2 = .text text) →
        Table.beqWith.go (· == ·) entries others = true → entries = others := by
    intro entries
    induction entries with
    | nil =>
        intro others _ equal
        cases others with
        | nil => rfl
        | cons e others => cases equal
    | cons e entries ih =>
        intro others texts equal
        cases others with
        | nil => cases equal
        | cons f others =>
            obtain ⟨⟨text, shape⟩, later⟩ := List.forall_mem_cons.mp texts
            simp only [Table.beqWith.go, Bool.and_eq_true, beq_iff_eq] at equal
            obtain ⟨⟨names, values⟩, rest⟩ := equal
            have value : e.2 = f.2 := by
              rw [shape] at values ⊢
              rcases PropertyValue.beq_iff.mp values with
                ⟨x, wrong, -⟩ | ⟨s, left, right⟩ | ⟨x, y, wrong, -⟩
              · cases wrong
              · rw [left, right]
              · cases wrong
            rw [ih others later rest, Prod.ext names value]
  obtain ⟨name, kind, properties⟩ := (Wrapper.beq_iff v w).mp same
  have tables : v.properties = w.properties := Table.ext (listed _ _ texts properties)
  cases v
  cases w
  cases name
  cases kind
  cases tables
  rfl

theorem eq_of_beq_textOnly {ws vs : List Wrapper} (texts : ∀ w ∈ ws, TextOnly w)
    (same : (ws == vs) = true) : ws = vs := by
  induction ws generalizing vs with
  | nil =>
      cases vs with
      | nil => rfl
      | cons v vs => cases same
  | cons w ws ih =>
      cases vs with
      | nil => cases same
      | cons v vs =>
          obtain ⟨first, others⟩ := List.forall_mem_cons.mp texts
          rw [List.cons_beq_cons, Bool.and_eq_true] at same
          rw [first.eq_of_beq same.1, ih others same.2]

mutual

theorem Tree.layers_textOnly (tree : Tree) {around : List Wrapper}
    (texts : ∀ w ∈ around, TextOnly w) :
    ∀ ws ∈ Item.layers (tree.items around), ∀ w ∈ ws, TextOnly w := by
  cases tree with
  | text content =>
      intro ws member
      rw [Tree.items, Item.layers_literal] at member
      rw [List.eq_of_mem_replicate member]
      exact texts
  | element head children =>
      apply forest_layers_textOnly
      intro w member
      rcases List.mem_append.mp member with outside | own
      · exact texts w outside
      · rw [List.mem_singleton.mp own]
        exact head.textOnly
  | marker head => exact fun ws member => (nomatch member)

theorem forest_layers_textOnly (forest : List Tree) {around : List Wrapper}
    (texts : ∀ w ∈ around, TextOnly w) :
    ∀ ws ∈ Item.layers (forestItems around forest), ∀ w ∈ ws, TextOnly w := by
  cases forest with
  | nil => exact fun ws member => (nomatch member)
  | cons tree forest =>
      intro ws member
      rw [forestItems, Item.layers_append] at member
      rcases List.mem_append.mp member with first | later
      · exact tree.layers_textOnly texts ws first
      · exact forest_layers_textOnly forest texts ws later

end

mutual

theorem Tree.text_items (around : List Wrapper) (tree : Tree) :
    Item.text (tree.items around) = tree.leaves.flatMap String.toList := by
  cases tree with
  | text content => simp [Tree.items, Tree.leaves]
  | element head children => exact text_forestItems _ children
  | marker head => rfl

theorem text_forestItems (around : List Wrapper) (forest : List Tree) :
    Item.text (forestItems around forest) = (forestLeaves forest).flatMap String.toList := by
  cases forest with
  | nil => rfl
  | cons tree forest =>
      rw [forestItems, Item.text_append, tree.text_items, text_forestItems, ← List.flatMap_append]
      rfl

end

/-- A markup is what a forest shows. -/
structure Presents (m : Markup) (forest : List Tree) : Prop where
  text : m.text = String.join (forestLeaves forest)
  /-- Each character has the wrappers of the elements around it, outermost first. -/
  wrappers : (List.range m.text.length).map m.wrappersAt = Item.layers (forestItems [] forest)
  /-- Each marker stands at its place in the text, with its own wrapper only. -/
  markers : (m.segments.filter fun s => s.marker) = Item.markers 0 (forestItems [] forest)

theorem presents_ofItems (forest : List Tree) :
    Presents (ofItems (forestItems [] forest)) forest := by
  have text : (ofItems (forestItems [] forest)).text = String.join (forestLeaves forest) := by
    rw [ofItems, text_forestItems, ← String.toList_join, String.ofList_toList]
  have size : (ofItems (forestItems [] forest)).text.length =
      (Item.layers (forestItems [] forest)).length := by
    rw [ofItems, String.length_ofList, Item.length_layers]
  refine ⟨text, ?_, markers_ofItems _⟩
  apply List.ext_getElem
  · rw [List.length_map, List.length_range, size]
  · intro index _ inside
    have here := List.getElem?_eq_getElem inside
    have outside : ∀ w ∈ ([] : List Wrapper), TextOnly w := List.forall_mem_nil _
    have texts := forest_layers_textOnly forest outside _ (List.getElem_mem inside)
    rw [List.getElem_map, List.getElem_range]
    rcases wrappersAt_ofItems here with same | alike
    · exact same
    · exact (eq_of_beq_textOnly texts (BEq.symm alike)).symm

theorem merge_nil (length : Nat) :
    Segment.merge [] length = if 0 < length then [.run 0 length []] else [] := by
  simp [Segment.merge, Segment.coalesce]

theorem ofItems_literal (text : String) : ofItems (Item.literal [] text.toList) = plain text := by
  have whole : String.ofList (Item.text (Item.literal [] text.toList)) = text := by
    rw [Item.text_literal, String.ofList_toList]
  rw [plain, merge_nil, ofItems, whole]
  congr 1
  cases shape : text.toList with
  | nil =>
      have size : text.length = 0 := by rw [← String.length_toList, shape, List.length_nil]
      rw [size]
      rfl
  | cons c cs =>
      have size : 0 + 1 + (Item.literal [] cs).length = text.length := by
        rw [← String.length_toList, shape, Item.literal, List.length_map, List.length_cons]
        omega
      have alike := Item.alike_atoms (Item.literal_continues cs) 0 (0 + 1)
      rw [size] at alike
      rw [if_pos (by omega)]
      exact alike.coalesce

/-- A written forest is read as what it shows, and escaped text as itself. -/
theorem presents_parse_forest :
    (∀ forest : List Tree, WellFormedForest forest →
      Presents (parse (String.ofList (renderForest forest))) forest) ∧
    ∀ text : String, parse (String.ofList (escape text.toList)) = plain text := by
  refine ⟨?_, ?_⟩
  · intro forest valid
    rw [parse_forest valid]
    exact presents_ofItems forest
  · intro text
    have leaf : WellFormedForest [.text text] := ⟨trivial, trivial⟩
    have read := parse_forest leaf
    simp only [renderForest, Tree.render, forestItems, Tree.items, List.append_nil] at read
    rw [read, ofItems_literal]

/-- Elements inside each other, one of them twice, with markers and brackets in the text. -/
def sampleForest : List Tree :=
  [.text "[Hi] ", .element ⟨"b", [("tone", "warm red")]⟩
    [.text "all", .marker ⟨"br", []⟩, .element ⟨"b", []⟩ [.text "!"], .element ⟨"wave", []⟩ []],
    .marker ⟨"pause", [("for-all", "a while")]⟩]

theorem presents_parse_sample :
    WellFormedForest sampleForest ∧
      Presents (parse (String.ofList (renderForest sampleForest))) sampleForest ∧
      renderForest sampleForest =
        ("\\[Hi\\] [b tone=\"warm red\"]all[br/][b]![/b][wave][/wave][/b]".toList ++
          "[pause for-all=\"a while\"/]".toList) := by
  have valid : WellFormedForest sampleForest := by
    simp only [sampleForest, WellFormedForest, Tree.WellFormed]
    decide
  exact ⟨valid, presents_parse_forest.1 _ valid, by decide⟩

end Dialogue.Markup
