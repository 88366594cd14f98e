import Dialogue.Proofs.Interpolation.Rebuild

set_option autoImplicit false

namespace Dialogue

namespace Markup

namespace WellFormed

variable {m : Markup}

/-- Runs are disjoint, so only one covers a character. -/
theorem wrappersAt_eq (formed : m.WellFormed) {run : Segment} (member : run ∈ m.segments)
    {index : Nat} (covers : run.covers index = true) : m.wrappersAt index = run.wrappers := by
  obtain ⟨first, found⟩ := Option.isSome_iff_exists.mp
    (List.find?_isSome.mpr ⟨run, member, covers⟩ :
      (m.segments.find? fun s => s.covers index).isSome)
  have reached : first.covers index = true := by simpa using List.find?_some found
  have here := (Segment.covers_iff ..).mp reached
  have there := (Segment.covers_iff ..).mp covers
  have apart : (m.segments.filter fun s => !s.marker).Pairwise
      fun a b => a.stop ≤ b.start ∨ b.stop ≤ a.start := formed.apart.imp .inl
  have same : first = run := by
    by_contra different
    have runs {s : Segment} (inside : s ∈ m.segments) (plain : s.marker = false) :
        s ∈ m.segments.filter fun s => !s.marker :=
      List.mem_filter.mpr ⟨inside, by rw [plain]; rfl⟩
    have either : Std.Symm fun a b : Segment => a.stop ≤ b.start ∨ b.stop ≤ a.start :=
      ⟨fun _ _ => Or.symm⟩
    have := apart.forall (runs (List.mem_of_find?_eq_some found) here.1) (runs member there.1)
      different
    omega
  rw [wrappersAt, found, same]
  rfl

theorem hasFormatting_iff (formed : m.WellFormed) :
    m.hasFormatting = true ↔
      (∃ s ∈ m.segments, s.marker = true) ∨ ∃ index, m.wrappersAt index ≠ [] := by
  simp only [hasFormatting, List.any_eq_true, Bool.or_eq_true, Bool.not_eq_true',
    List.isEmpty_eq_false_iff]
  constructor
  · rintro ⟨s, member, marked | wrapped⟩
    · exact .inl ⟨s, member, marked⟩
    · cases marked : s.marker with
      | true => exact .inl ⟨s, member, marked⟩
      | false =>
          have first : s.covers s.start = true :=
            (Segment.covers_iff ..).mpr ⟨marked, Nat.le_refl _, formed.filled s member marked⟩
          refine .inr ⟨s.start, ?_⟩
          rw [formed.wrappersAt_eq member first]
          exact wrapped
  · rintro (⟨s, member, marked⟩ | ⟨index, wrapped⟩)
    · exact ⟨s, member, .inl marked⟩
    · rw [wrappersAt] at wrapped
      cases found : m.segments.find? fun s => s.covers index with
      | none =>
          rw [found] at wrapped
          exact absurd rfl wrapped
      | some s =>
          rw [found] at wrapped
          exact ⟨s, List.mem_of_find?_eq_some found, .inr wrapped⟩

theorem lt_of_wrapped (formed : m.WellFormed) {index : Nat} (wrapped : m.wrappersAt index ≠ []) :
    index < m.text.length := by
  rw [← formed.covered, ← List.find?_isSome]
  by_contra missing
  rw [Bool.not_eq_true, Option.isSome_eq_false_iff, Option.isNone_iff_eq_none] at missing
  rw [wrappersAt, missing] at wrapped
  exact wrapped rfl

end WellFormed

end Markup

namespace Interpolation

open Markup

/-- For each character that is shown, the place where the cell it stands for begins. -/
def origins (s : Store) (start : Nat) : List Cell → List Nat
  | [] => []
  | cell :: cells =>
      List.replicate (cell.filled s start).length start ++
        origins s (start + cell.source.length) cells

/-- The place of a position once the text is filled in from `start` on: before what its cell stands
for. -/
def carried (s : Store) (start : Nat) : List Cell → Nat → Nat
  | [], _ => 0
  | cell :: cells, position =>
      if position < start + cell.source.length then 0
      else (cell.filled s start).length + carried s (start + cell.source.length) cells position

/-- Formatting that has moved along with the text when its placeholders were filled in. -/
structure Realigned (s : Store) (m : Markup) (cells : List Cell) (shown : Markup) : Prop where
  text : shown.text.toList = spread (Cell.filled s) 0 cells
  formed : shown.WellFormed
  /-- A character has the wrappers of the place that it comes from. -/
  layers : ∀ {index origin : Nat}, (origins s 0 cells)[index]? = some origin →
    Agree (shown.wrappersAt index) (m.wrappersAt origin)
  /-- Every marker is there once, in order. -/
  markers : (shown.segments.filter fun k => k.marker) =
    (m.segments.filter fun k => k.marker).map fun k =>
      .markerAt (carried s 0 cells k.start) k.wrappers

theorem length_origins (s : Store) (start : Nat) (cells : List Cell) :
    (origins s start cells).length = (spread (Cell.filled s) start cells).length := by
  induction cells generalizing start with
  | nil => rfl
  | cons cell cells ih =>
      simp only [origins, spread, List.length_append, List.length_replicate, ih]

theorem mem_origins (s : Store) {start origin : Nat} {cells : List Cell}
    (member : origin ∈ origins s start cells) :
    start ≤ origin ∧ origin < start + (cells.flatMap Cell.source).length := by
  induction cells generalizing start with
  | nil => cases member
  | cons cell cells ih =>
      have filled : 0 < cell.source.length := by cases cell <;> simp
      rw [List.flatMap_cons, List.length_append]
      rcases List.mem_append.mp member with here | later
      · have := List.eq_of_mem_replicate here
        omega
      · have := ih later
        omega

theorem Realigned.hasFormatting_iff {s : Store} {m shown : Markup} {cells : List Cell}
    (realigned : Realigned s m cells shown) :
    shown.hasFormatting = true ↔
      (∃ k ∈ m.segments, k.marker = true) ∨
        ∃ origin ∈ origins s 0 cells, m.wrappersAt origin ≠ [] := by
  have marked : (∃ k ∈ shown.segments, k.marker = true) ↔ ∃ k ∈ m.segments, k.marker = true := by
    have same := congrArg (· = []) realigned.markers
    simp only [List.map_eq_nil_iff, List.filter_eq_nil_iff, eq_iff_iff] at same
    simpa using not_congr same
  have wrapped : (∃ index, shown.wrappersAt index ≠ []) ↔
      ∃ origin ∈ origins s 0 cells, m.wrappersAt origin ≠ [] := by
    constructor
    · rintro ⟨index, around⟩
      have inside := realigned.formed.lt_of_wrapped around
      rw [← String.length_toList, realigned.text, ← length_origins s 0] at inside
      have place := List.getElem?_eq_getElem inside
      exact ⟨_, List.getElem_mem inside, mt (realigned.layers place).nil_iff.mpr around⟩
    · rintro ⟨origin, member, around⟩
      obtain ⟨index, place⟩ := List.mem_iff_getElem?.mp member
      exact ⟨index, mt (realigned.layers place).nil_iff.mp around⟩
  rw [realigned.formed.hasFormatting_iff, marked, wrapped]

theorem layers_markerItems (m : Markup) (low high : Nat) :
    Item.layers (markerItems m low high) = [] := by
  rw [← List.length_eq_zero_iff, Item.length_layers, text_markerItems, List.length_nil]

theorem layers_cellItems (s : Store) (m : Markup) (start : Nat) (cells : List Cell) :
    Item.layers (cellItems s m start cells) = (origins s start cells).map (wrappersNear m) := by
  induction cells generalizing start with
  | nil => rfl
  | cons cell cells ih =>
      rw [cellItems, Item.layers_append, Item.layers_append, layers_markerItems, Item.layers_literal,
        ih, origins, List.map_append, List.map_replicate, List.nil_append]

/-- The markers that stand from `low` up to `high`. -/
def marked (m : Markup) (low high : Nat) : List Segment :=
  m.segments.filter fun s => s.marker && low ≤ s.start && s.start < high

theorem mem_marked {m : Markup} {low high : Nat} {k : Segment} :
    k ∈ marked m low high ↔
      k ∈ m.segments ∧ k.marker = true ∧ low ≤ k.start ∧ k.start < high := by
  simp [marked, and_assoc]

theorem marked_append {m : Markup} (sorted : m.segments.Pairwise fun a b => a.start ≤ b.start)
    {low mid high : Nat} (lower : low ≤ mid) (upper : mid ≤ high) :
    marked m low mid ++ marked m mid high = marked m low high := by
  unfold marked
  generalize m.segments = segments at sorted
  induction segments with
  | nil => rfl
  | cons k segments ih =>
      obtain ⟨behind, sorted⟩ := List.pairwise_cons.mp sorted
      by_cases early : k.start < mid
      · have first : (k.marker && decide (low ≤ k.start) && decide (k.start < high)) =
            (k.marker && decide (low ≤ k.start) && decide (k.start < mid)) := by
          simp only [early, Nat.lt_of_lt_of_le early upper]
        have second : ¬(k.marker && decide (mid ≤ k.start) && decide (k.start < high)) = true := by
          simp only [Bool.and_eq_true, decide_eq_true_eq]
          omega
        rw [List.filter_cons, List.filter_cons, List.filter_cons, first, if_neg second, ← ih sorted]
        split <;> rfl
      · -- Nothing from here on stands before `mid`.
        have late : ∀ a ∈ k :: segments, mid ≤ a.start := by
          refine List.forall_mem_cons.mpr ⟨by omega, fun a member => ?_⟩
          have := behind a member
          omega
        rw [List.filter_eq_nil_iff.mpr, List.nil_append]
        · refine List.filter_congr fun a member => ?_
          have reached := late a member
          simp only [reached, Nat.le_trans lower reached]
        · intro a member
          have := late a member
          simp only [Bool.and_eq_true, decide_eq_true_eq]
          omega

theorem markers_markerItems {m : Markup} (formed : m.WellFormed) (position low high : Nat)
    (items : List Markup.Item) :
    Item.markers position (markerItems m low high ++ items) =
      (marked m low high).map (fun k => .markerAt position k.wrappers) ++
        Item.markers position items := by
  have single : ∀ k ∈ marked m low high, k.wrappers.length = 1 := fun k member =>
    (formed.anchored k (mem_marked.mp member).1 (mem_marked.mp member).2.1).2.2
  have shape : markerItems m low high =
      (marked m low high).flatMap fun k => k.wrappers.map Item.marker := rfl
  rw [shape]
  generalize marked m low high = segments at single
  induction segments with
  | nil => rfl
  | cons k segments ih =>
      obtain ⟨first, others⟩ := List.forall_mem_cons.mp single
      obtain ⟨wrapper, own⟩ := List.length_eq_one_iff.mp first
      have next := ih others
      rw [List.flatMap_cons, List.map_cons, own]
      exact congrArg (Segment.markerAt position [wrapper] :: ·) next

theorem markers_cellItems (s : Store) {m : Markup} (formed : m.WellFormed) (position : Nat)
    {start stop : Nat} {cells : List Cell}
    (length : start + (cells.flatMap Cell.source).length = stop) :
    Item.markers position (cellItems s m start cells ++ markerItems m stop (stop + 1)) =
      (marked m start (stop + 1)).map fun k =>
        .markerAt (position + carried s start cells k.start) k.wrappers := by
  induction cells generalizing position start with
  | nil =>
      obtain rfl : start = stop := length
      have tail := markers_markerItems formed position start (start + 1) []
      rw [List.append_nil] at tail
      rw [cellItems, List.nil_append, tail]
      exact List.append_nil _
  | cons cell cells ih =>
      rw [List.flatMap_cons, List.length_append, ← Nat.add_assoc] at length
      have sorted : m.segments.Pairwise fun a b => a.start ≤ b.start :=
        formed.sorted.imp fun order => by omega
      have split : marked m start (start + cell.source.length) ++
          marked m (start + cell.source.length) (stop + 1) = marked m start (stop + 1) :=
        marked_append sorted (Nat.le_add_right ..) (by omega)
      rw [cellItems, List.append_assoc, List.append_assoc, markers_markerItems formed,
        Item.markers_literal, ih _ length, ← split, List.map_append]
      congr 1
      · refine List.map_congr_left fun k member => ?_
        have inside := mem_marked.mp member
        rw [carried, if_pos (by omega), Nat.add_zero]
      · refine List.map_congr_left fun k member => ?_
        have beyond := mem_marked.mp member
        rw [carried, if_neg (by omega), Nat.add_assoc]

theorem marked_all {m : Markup} (formed : m.WellFormed) :
    marked m 0 (m.text.length + 1) = m.segments.filter fun k => k.marker := by
  refine List.filter_congr fun k member => ?_
  cases anchored : k.marker with
  | false => rfl
  | true =>
      have := formed.anchored k member anchored
      simp only [Bool.true_and, Bool.and_eq_true, decide_eq_true_eq]
      omega

/-- What is put together from a text's cells has the formatting of the text. -/
theorem realigned_filled (s : Store) {m : Markup} (formed : m.WellFormed) {cells : List Cell}
    (divides : Divides m.text.toList cells) :
    Realigned s m cells (ofItems (filledItems s m.text m)) where
  text := by rw [ofItems, String.toList_ofList, text_filledItems s m divides]
  formed := (ofItems_tiled _).wellFormed
  layers {index origin} place := by
    have inside := (mem_origins s (List.mem_of_getElem? place)).2
    rw [divides.source_eq, Nat.zero_add, String.length_toList] at inside
    have here : (Item.layers (filledItems s m.text m))[index]? = some (m.wrappersAt origin) := by
      rw [filledItems_eq s m divides, Item.layers_append, layers_markerItems, List.append_nil,
        layers_cellItems, List.getElem?_map, place, Option.map_some,
        wrappersNear_of_covered ((formed.covered origin).mpr inside)]
    exact wrappersAt_ofItems here
  markers := by
    have length : 0 + (cells.flatMap Cell.source).length = m.text.toList.length := by
      rw [divides.source_eq, Nat.zero_add]
    rw [markers_ofItems, filledItems_eq s m divides, markers_cellItems s formed 0 length,
      String.length_toList, marked_all formed]
    simp only [Nat.zero_add]

theorem origins_literal (s : Store) (start : Nat) (cs : List Char) :
    origins s start (cs.map .literal) = List.range' start cs.length := by
  induction cs generalizing start with
  | nil => rfl
  | cons c cs ih =>
      rw [List.map_cons, origins, Cell.length_source_literal, ih]
      rfl

theorem carried_literal (s : Store) {cs : List Char} {start position : Nat}
    (behind : start ≤ position) (inside : position ≤ start + cs.length) :
    carried s start (cs.map .literal) position = position - start := by
  induction cs generalizing start with
  | nil =>
      rw [List.length_nil] at inside
      rw [List.map_nil, carried]
      omega
  | cons c cs ih =>
      rw [List.length_cons] at inside
      have one : (Cell.filled s start (.literal c)).length = 1 := rfl
      rw [List.map_cons, carried, Cell.length_source_literal, one]
      split
      · omega
      · rw [ih (by omega) (by omega)]
        omega

/-- Without placeholders, the formatting is aligned as it is. -/
theorem realigned_self (s : Store) {m : Markup} (formed : m.WellFormed) :
    Realigned s m (m.text.toList.map .literal) m where
  text := (spread_literal s 0 m.text.toList).symm
  formed := formed
  layers {index origin} place := by
    rw [origins_literal] at place
    obtain ⟨_, rfl⟩ := List.getElem?_eq_some_iff.mp place
    exact .inl (by rw [List.getElem_range', Nat.one_mul, Nat.zero_add])
  markers := by
    refine (List.map_id _).symm.trans (List.map_congr_left fun k member => ?_)
    obtain ⟨inside, anchored⟩ := List.mem_filter.mp member
    obtain ⟨anchor, room, -⟩ := formed.anchored k inside anchored
    rw [carried_literal s (Nat.zero_le _) (by rw [String.length_toList]; omega)]
    obtain ⟨start, stop, wrappers, marker⟩ := k
    obtain rfl : start = stop := anchor
    obtain rfl : marker = true := anchored
    rfl

/-- Filling in placeholders gives realigned formatting, which is dropped if nothing is left of
it. -/
theorem exists_realigned (s : Store) {m : Markup} (formed : m.WellFormed)
    (formatted : m.hasFormatting = true) {cells : List Cell}
    (divides : Divides m.text.toList cells) :
    ∃ shown, Realigned s m cells shown ∧
      interpolate s m.text (some m) = (shown.text, shown.normalized) := by
  by_cases brace : m.text.toList.contains '\x7b' = true
  · exact ⟨_, realigned_filled s formed divides, interpolate_of_brace s m brace⟩
  · obtain rfl := divides.eq_literal_of_no_brace (by simpa using brace)
    refine ⟨m, realigned_self s formed, ?_⟩
    rw [interpolate_of_no_brace s (some m) (by simpa using brace), normalized, if_pos formatted]

/-- Filling in the placeholders of a text keeps its formatting aligned. The text is what its cells
stand for, with markup as without. No markup is left exactly if the text has no markers and nothing
that is shown has wrappers. A text without placeholders gets its markup back if that can be told
from its characters and markers one by one. -/
theorem interpolate_aligned (s : Store) {m : Markup} (formed : m.WellFormed)
    (formatted : m.hasFormatting = true) :
    ∃ cells, Divides m.text.toList cells ∧
      (interpolate s m.text (some m)).1.toList = spread (Cell.filled s) 0 cells ∧
      (interpolate s m.text (some m)).1 = (interpolate s m.text none).1 ∧
      (∀ shown, (interpolate s m.text (some m)).2 = some shown →
        shown.text = (interpolate s m.text (some m)).1 ∧ Realigned s m cells shown) ∧
      ((interpolate s m.text (some m)).2 = none ↔
        (∀ k ∈ m.segments, k.marker = false) ∧
          ∀ origin ∈ origins s 0 cells, m.wrappersAt origin = []) ∧
      ('\x7b' ∈ m.text.toList →
        (∀ before rest, m.text.toList = before ++ '\x7b' :: rest → '\x7d' ∉ rest) →
          (interpolate s m.text (some m) = (m.text, some m) ↔ m.Solid)) := by
  obtain ⟨cells, divides⟩ := exists_divides m.text.toList
  obtain ⟨shown, realigned, result⟩ := exists_realigned s formed formatted divides
  refine ⟨cells, divides, ?_, ?_, ?_, ?_, ?_⟩
  · rw [result, realigned.text]
  · apply String.toList_injective
    rw [result, realigned.text, interpolate_plain s divides]
  · intro kept same
    rw [result] at same ⊢
    obtain rfl := eq_of_normalized same
    exact ⟨rfl, realigned⟩
  · have gone : shown.normalized = none ↔ ¬shown.hasFormatting = true := by simp [normalized]
    rw [result, gone, realigned.hasFormatting_iff]
    simp
  · intro brace unclosed
    rw [divides.eq_literal unclosed] at divides
    rw [← rebuilt_iff s formed divides, interpolate_of_brace s m (by simpa using brace)]
    constructor
    · intro same
      exact (eq_of_normalized (Prod.mk.inj same).2).symm
    · intro same
      rw [same, normalized, if_pos formatted]

/-- Bold text that ends inside a placeholder, where a marker stands. -/
def signature : Markup :=
  ofItems (Item.literal [.named "b" ∅] "Dear \x7b$na".toList ++ .marker (.named "br" ∅) ::
    Item.literal [] "me\x7d!".toList)

theorem signature_aligned :
    signature.WellFormed ∧ signature.hasFormatting = true ∧
      ∃ shown, (interpolate (.withEnums ∅) signature.text (some signature)).2 = some shown ∧
        shown.text = (interpolate (.withEnums ∅) signature.text none).1 ∧
        (shown.segments.filter fun k => k.marker).length = 1 := by
  have formed : signature.WellFormed := (ofItems_tiled _).wellFormed
  have marked : ∃ k ∈ signature.segments, k.marker = true := by decide
  have formatted : signature.hasFormatting = true := formed.hasFormatting_iff.mpr (.inl marked)
  obtain ⟨cells, -, -, plain, aligned, dropped, -⟩ :=
    interpolate_aligned (.withEnums ∅) formed formatted
  refine ⟨formed, formatted, ?_⟩
  cases result : (interpolate (.withEnums ∅) signature.text (some signature)).2 with
  | none =>
      obtain ⟨k, member, isMarker⟩ := marked
      rw [(dropped.mp result).1 k member] at isMarker
      cases isMarker
  | some shown =>
      obtain ⟨text, realigned⟩ := aligned shown result
      refine ⟨shown, rfl, text.trans plain, ?_⟩
      rw [realigned.markers, List.length_map]
      decide

/-- A run with a marker inside it, in a text with a brace that is never closed. -/
def interrupted : Markup :=
  ⟨"a\x7b", [.run 0 2 [.named "b" ∅], .markerAt 1 [.named "br" ∅]]⟩

theorem interrupted_wellFormed : interrupted.WellFormed where
  filled := by decide
  apart := by decide
  covered index := by
    have size : interrupted.text.length = 2 := rfl
    rw [size]
    simp [interrupted, Segment.covers_run]
  anchored := by decide
  sorted := by decide
  maximal := by decide
  empty blank := absurd blank (by decide)

/-- The marker ends the run that it stands in, so the markup that is put together has another run
behind it. -/
theorem interrupted_changes :
    interrupted.WellFormed ∧ interrupted.hasFormatting = true ∧
      '\x7b' ∈ interrupted.text.toList ∧
      (∀ before rest, interrupted.text.toList = before ++ '\x7b' :: rest → '\x7d' ∉ rest) ∧
      ∀ s, interpolate s interrupted.text (some interrupted) ≠
        (interrupted.text, some interrupted) := by
  have brace : '\x7b' ∈ interrupted.text.toList := by decide
  have unclosed : ∀ before rest, interrupted.text.toList = before ++ '\x7b' :: rest →
      '\x7d' ∉ rest := by
    intro before rest shape closed
    have inside : '\x7d' ∈ interrupted.text.toList := by simp [shape, closed]
    exact absurd inside (by decide)
  refine ⟨interrupted_wellFormed, rfl, brace, unclosed, ?_⟩
  intro s same
  obtain ⟨cells, divides⟩ := exists_divides interrupted.text.toList
  rw [divides.eq_literal unclosed] at divides
  have rebuilt := rebuilt_iff s interrupted_wellFormed divides
  rw [interpolate_of_brace s interrupted (by simpa using brace)] at same
  have solid := rebuilt.mp (eq_of_normalized (Prod.mk.inj same).2).symm
  exact absurd solid.apart (by decide)

end Interpolation

end Dialogue
