import Dialogue.Proofs.Markup.Layout
import Dialogue.Proofs.Markup.Nesting
import Dialogue.Proofs.Markup.Representation

set_option autoImplicit false

namespace Dialogue

open Markup

namespace Segment

variable {last next : Segment} {rest segments : List Segment}

theorem joins_iff (a b : Segment) :
    a.joins b = true ↔ a.marker = false ∧ b.marker = false ∧ a.stop = b.start ∧
      (a.wrappers == b.wrappers) = true := by
  simp only [joins, Bool.and_eq_true, Bool.not_eq_true', beq_iff_eq]
  tauto

/-- Whether merging keeps a segment. -/
def kept (s : Segment) : Bool :=
  s.marker || !s.isEmpty

/-- The segment does not end before it starts, and a run holds a character. -/
structure Held (s : Segment) : Prop where
  valid : s.start ≤ s.stop
  filled : s.marker = false → s.start < s.stop

theorem held_of_kept {s : Segment} (valid : s.start ≤ s.stop) (kept : s.kept = true) : s.Held where
  valid := valid
  filled plain := by
    simp only [Segment.kept, plain, isEmpty, Bool.false_or, Bool.not_eq_true', beq_eq_false_iff_ne,
      ne_eq] at kept
    omega

theorem Held.kept {s : Segment} (held : s.Held) : s.kept = true := by
  cases marked : s.marker with
  | true => simp [Segment.kept, marked]
  | false =>
      have filled := held.filled marked
      simp [Segment.kept, marked, isEmpty]
      omega

theorem Held.joined (first : last.Held) (second : next.Held) (joins : last.joins next = true) :
    Held { last with stop := next.stop } := by
  obtain ⟨plain, plain', touch, -⟩ := (joins_iff last next).mp joins
  have filled := first.filled plain
  have filled' := second.filled plain'
  exact ⟨by dsimp only; omega, fun _ => by dsimp only; omega⟩

/-- Every segment that comes out starts where one of the given ones does, and may be longer. -/
theorem coalesceAfter_grown (held : ∀ s ∈ last :: rest, s.Held) {t : Segment}
    (member : t ∈ coalesceAfter last rest) :
    ∃ s ∈ last :: rest, t.start = s.start ∧ s.stop ≤ t.stop ∧ t.marker = s.marker := by
  induction rest generalizing last with
  | nil =>
      obtain rfl := List.mem_singleton.mp member
      exact ⟨t, List.mem_cons_self, rfl, Nat.le_refl _, rfl⟩
  | cons next rest ih =>
      obtain ⟨first, others⟩ := List.forall_mem_cons.mp held
      by_cases joins : last.joins next = true
      · obtain ⟨second, holds⟩ := List.forall_mem_cons.mp others
        obtain ⟨plain, plain', touch, -⟩ := (joins_iff last next).mp joins
        have filled' := second.filled plain'
        rw [coalesceAfter_joins joins] at member
        obtain ⟨s, inside, start, stop, marker⟩ :=
          ih (List.forall_mem_cons.mpr ⟨first.joined second joins, holds⟩) member
        rcases List.mem_cons.mp inside with rfl | later
        · refine ⟨last, List.mem_cons_self, start, ?_, marker⟩
          dsimp only at stop
          omega
        · exact ⟨s, List.mem_cons_of_mem _ (List.mem_cons_of_mem _ later), start, stop, marker⟩
      · rw [coalesceAfter_parts (by simpa using joins)] at member
        rcases List.mem_cons.mp member with rfl | later
        · exact ⟨t, List.mem_cons_self, rfl, Nat.le_refl _, rfl⟩
        · obtain ⟨s, inside, grown⟩ := ih others later
          exact ⟨s, List.mem_cons_of_mem _ inside, grown⟩

theorem coalesceAfter_held (held : ∀ s ∈ last :: rest, s.Held) :
    ∀ t ∈ coalesceAfter last rest, t.Held := by
  intro t member
  obtain ⟨s, inside, start, stop, marker⟩ := coalesceAfter_grown held member
  obtain ⟨valid, filled⟩ := held s inside
  refine ⟨by omega, fun plain => ?_⟩
  have := filled (marker.symm.trans plain)
  omega

/-- A run that grows stays in order: whatever is behind the part that it takes in starts behind its
own start. -/
theorem coalesceAfter_sorted (held : ∀ s ∈ last :: rest, s.Held)
    (sorted : (last :: rest).Pairwise fun a b => a.le b = true) :
    (coalesceAfter last rest).Pairwise fun a b => a.le b = true := by
  induction rest generalizing last with
  | nil => exact sorted
  | cons next rest ih =>
      obtain ⟨first, others⟩ := List.forall_mem_cons.mp held
      obtain ⟨before, sorted'⟩ := List.pairwise_cons.mp sorted
      by_cases joins : last.joins next = true
      · obtain ⟨second, holds⟩ := List.forall_mem_cons.mp others
        obtain ⟨plain, -, touch, -⟩ := (joins_iff last next).mp joins
        have filled := first.filled plain
        obtain ⟨behind, sorted''⟩ := List.pairwise_cons.mp sorted'
        rw [coalesceAfter_joins joins]
        refine ih (List.forall_mem_cons.mpr ⟨first.joined second joins, holds⟩) (.cons ?_ sorted'')
        intro s member
        have follows := (le_iff next s).mp (behind s member)
        rw [le_iff]
        dsimp only
        omega
      · rw [coalesceAfter_parts (by simpa using joins)]
        refine .cons ?_ (ih others sorted')
        intro t member
        obtain ⟨s, inside, start, stop, -⟩ := coalesceAfter_grown others member
        have follows := (le_iff last s).mp (before s inside)
        rw [le_iff]
        omega

/-- The number of runs over a character whose wrappers are of a kind. -/
def layers (segments : List Segment) (index : Nat) (kind : List Wrapper → Bool) : Nat :=
  segments.countP fun s => s.covers index && kind s.wrappers

/-- The kind does not tell equal wrappers apart. -/
def Respects (kind : List Wrapper → Bool) : Prop :=
  ∀ a b, (a == b) = true → kind a = kind b

theorem respects_beq (wrappers : List Wrapper) : Respects (· == wrappers) :=
  fun _ _ same => Agree.beq_congr (.inr same) (.inl rfl)

/-- A joined run covers each character as often as its two parts do. -/
theorem coalesceAfter_layers (held : ∀ s ∈ last :: rest, s.Held) (index : Nat)
    {kind : List Wrapper → Bool} (respects : Respects kind) :
    layers (coalesceAfter last rest) index kind = layers (last :: rest) index kind := by
  unfold layers
  induction rest generalizing last with
  | nil => rfl
  | cons next rest ih =>
      obtain ⟨first, others⟩ := List.forall_mem_cons.mp held
      by_cases joins : last.joins next = true
      · obtain ⟨second, holds⟩ := List.forall_mem_cons.mp others
        obtain ⟨plain, plain', touch, same⟩ := (joins_iff last next).mp joins
        have filled := first.filled plain
        have filled' := second.filled plain'
        rw [coalesceAfter_joins joins,
          ih (List.forall_mem_cons.mpr ⟨first.joined second joins, holds⟩)]
        simp only [List.countP_cons, covers, plain, plain', ← respects _ _ same, Bool.not_false,
          Bool.true_and]
        cases kind last.wrappers with
        | false => simp
        | true =>
            simp only [Bool.and_true, Bool.and_eq_true, decide_eq_true_eq]
            split <;> split <;> split <;> omega
      · rw [coalesceAfter_parts (by simpa using joins), List.countP_cons, List.countP_cons,
          ih others]

/-- The second list has the segments of the first in order. Those with the same start and end stay
as they were among themselves. -/
structure Sorts (segments sorted : List Segment) : Prop where
  ordered : sorted.Pairwise fun a b => a.le b = true
  perm : sorted.Perm segments
  stable : ∀ start stop, (sorted.filter fun s => s.start == start && s.stop == stop) =
    segments.filter fun s => s.start == start && s.stop == stop

/-- What merging makes of segments. -/
structure NormalForm (segments : List Segment) (length : Nat) (merged : List Segment) : Prop where
  idempotent : merge merged length = merged
  markers : Sorts (segments.filter marker) (merged.filter marker)
  filled : ∀ s ∈ merged, s.marker = false → s.start < s.stop
  layers : (∃ s ∈ segments, s.kept = true) ∨ length = 0 → ∀ index wrappers,
    (merged.countP fun s => s.covers index && s.wrappers == wrappers) =
      segments.countP fun s => s.covers index && s.wrappers == wrappers
  /-- The same holds for any other way to tell wrappers apart that respects equality. -/
  kinds : (∃ s ∈ segments, s.kept = true) ∨ length = 0 → ∀ index kind, Respects kind →
    Segment.layers merged index kind = Segment.layers segments index kind
  bare : (∀ s ∈ segments, s.kept = false) → 0 < length → merged = [run 0 length []]

/-- The segments that merging keeps, in order. -/
def sortedKept (segments : List Segment) : List Segment :=
  (segments.mergeSort le).filter kept

theorem mem_sortedKept {s : Segment} :
    s ∈ sortedKept segments ↔ s ∈ segments ∧ s.kept = true := by
  simp [sortedKept]

theorem sortedKept_sorted (segments : List Segment) :
    (sortedKept segments).Pairwise fun a b => a.le b = true :=
  (List.pairwise_mergeSort le_trans le_total segments).filter _

theorem sortedKept_held (valid : ∀ s ∈ segments, s.start ≤ s.stop) :
    ∀ s ∈ sortedKept segments, s.Held := by
  intro s member
  obtain ⟨inside, kept⟩ := mem_sortedKept.mp member
  exact held_of_kept (valid s inside) kept

theorem merge_eq (segments : List Segment) (length : Nat) :
    merge segments length =
      if (coalesce (sortedKept segments)).isEmpty && 0 < length then [run 0 length []]
      else coalesce (sortedKept segments) := rfl

/-- Segments that are in order, and of which none is dropped and no two touch alike, stay. -/
theorem merge_of_sorted {length : Nat}
    (sorted : segments.Pairwise fun a b => a.le b = true) (held : ∀ s ∈ segments, s.Held)
    (unjoined : segments.IsChain fun a b => a.joins b = false)
    (some : segments ≠ [] ∨ length = 0) : merge segments length = segments := by
  have all : sortedKept segments = segments := by
    rw [sortedKept, List.mergeSort_of_pairwise sorted,
      List.filter_eq_self.mpr fun s member => (held s member).kept]
  rw [merge_eq, all, coalesce_of_unjoined unjoined, if_neg]
  rcases some with nonempty | rfl
  · simp [nonempty]
  · simp

section Joined

variable (valid : ∀ s ∈ segments, s.start ≤ s.stop)

include valid

theorem joined_held : ∀ s ∈ coalesce (sortedKept segments), s.Held := by
  have held := sortedKept_held valid
  cases sorted : sortedKept segments with
  | nil => simp [coalesce]
  | cons first rest =>
      rw [sorted] at held
      exact coalesceAfter_held held

theorem joined_sorted :
    (coalesce (sortedKept segments)).Pairwise fun a b => a.le b = true := by
  have held := sortedKept_held valid
  have ordered := sortedKept_sorted segments
  cases sorted : sortedKept segments with
  | nil => exact .nil
  | cons first rest =>
      rw [sorted] at held ordered
      exact coalesceAfter_sorted held ordered

theorem joined_layers (index : Nat) {kind : List Wrapper → Bool} (respects : Respects kind) :
    layers (coalesce (sortedKept segments)) index kind = layers segments index kind := by
  have same : layers (coalesce (sortedKept segments)) index kind =
      layers (sortedKept segments) index kind := by
    have held := sortedKept_held valid
    cases sorted : sortedKept segments with
    | nil => rfl
    | cons first rest =>
        rw [sorted] at held
        exact coalesceAfter_layers held index respects
  have dropped : ∀ s : Segment, (s.covers index && kind s.wrappers) = true → s.kept = true := by
    intro s covered
    simp only [covers, Bool.and_eq_true, decide_eq_true_eq, Bool.not_eq_true'] at covered
    simp only [kept, isEmpty, Bool.or_eq_true, Bool.not_eq_true', beq_eq_false_iff_ne, ne_eq]
    omega
  rw [same, layers, layers, sortedKept, List.countP_filter]
  refine Eq.trans ?_ ((List.mergeSort_perm segments le).countP_eq _)
  congr 1
  funext s
  cases covered : s.covers index && kind s.wrappers with
  | false => rfl
  | true => exact dropped s covered

omit valid in
theorem joined_markers (segments : List Segment) :
    Sorts (segments.filter marker) ((coalesce (sortedKept segments)).filter marker) := by
  have alone : (coalesce (sortedKept segments)).filter marker =
      (segments.mergeSort le).filter marker := by
    have blind : ∀ s : Segment, s.marker = false → (Option.guard marker s) = none := by
      intro s plain
      simp [Option.guard, plain]
    rw [← List.filterMap_eq_filter, coalesce_markers blind, List.filterMap_eq_filter, sortedKept,
      List.filter_filter]
    congr 1
    funext s
    cases marked : s.marker <;> simp [kept, marked]
  rw [alone]
  refine ⟨(List.pairwise_mergeSort le_trans le_total segments).filter _,
    (List.mergeSort_perm segments le).filter _, ?_⟩
  intro start stop
  rw [List.filter_filter, List.filter_filter]
  -- Segments with the same start and end are in order among themselves, whatever their order is.
  refine filter_mergeSort (List.Pairwise.imp_of_mem ?_ (List.pairwise_of_forall fun _ _ => trivial))
  intro a b first second _
  have same : ∀ s ∈ segments.filter fun s => (s.start == start && s.stop == stop) && s.marker,
      s.start = start ∧ s.stop = stop := by
    intro s member
    have holds := (List.mem_filter.mp member).2
    simp only [Bool.and_eq_true, beq_iff_eq] at holds
    exact holds.1
  obtain ⟨rfl, rfl⟩ := same a first
  obtain ⟨start, stop⟩ := same b second
  rw [le_iff]
  omega

end Joined

theorem coalesce_sortedKept_eq_nil (segments : List Segment) :
    coalesce (sortedKept segments) = [] ↔ ∀ s ∈ segments, s.kept = false := by
  rw [coalesce_eq_nil, List.eq_nil_iff_forall_not_mem]
  simp only [mem_sortedKept, not_and, Bool.not_eq_true]

/-- Merging brings segments into normal form, in whatever order they are given and however they
overlap. -/
theorem merge_normalForm {segments : List Segment} (valid : ∀ s ∈ segments, s.start ≤ s.stop)
    (length : Nat) : NormalForm segments length (merge segments length) := by
  have held := joined_held valid
  have nothing := coalesce_sortedKept_eq_nil segments
  by_cases empty : (∀ s ∈ segments, s.kept = false) ∧ 0 < length
  · obtain ⟨none, positive⟩ := empty
    have merged : merge segments length = [run 0 length []] := by
      rw [merge_eq, nothing.mpr none]
      simp [positive]
    have markers := joined_markers segments
    rw [nothing.mpr none] at markers
    have something : ¬((∃ s ∈ segments, s.kept = true) ∨ length = 0) := by
      rintro (⟨s, member, kept⟩ | rfl)
      · rw [none s member] at kept
        cases kept
      · exact Nat.lt_irrefl 0 positive
    rw [merged]
    refine ⟨?_, markers, ?_, fun other => absurd other something,
      fun other => absurd other something, fun _ _ => rfl⟩
    · refine merge_of_sorted (List.pairwise_singleton _ _) ?_ (.singleton _) (.inl (by simp))
      rw [List.forall_mem_singleton]
      exact ⟨Nat.zero_le _, fun _ => positive⟩
    · rw [List.forall_mem_singleton]
      exact fun _ => positive
  · have merged : merge segments length = coalesce (sortedKept segments) := by
      rw [merge_eq, if_neg]
      intro both
      rw [Bool.and_eq_true, List.isEmpty_iff, nothing, decide_eq_true_eq] at both
      exact empty both
    have layered := fun index (kind : List Wrapper → Bool) (respects : Respects kind) =>
      joined_layers valid index respects
    rw [merged]
    refine ⟨?_, joined_markers segments, fun s member => (held s member).filled,
      fun _ index wrappers => layered index (· == wrappers) (respects_beq wrappers),
      fun _ => layered, fun none positive => absurd ⟨none, positive⟩ empty⟩
    refine merge_of_sorted (joined_sorted valid) held (coalesce_unjoined _) ?_
    rcases Nat.eq_zero_or_pos length with zero | positive
    · exact .inr zero
    · exact .inl fun none => empty ⟨nothing.mp none, positive⟩

/-- Runs that overlap and are out of order, one of which is empty, and a marker that is as wide as
a run. -/
def patchwork : List Segment :=
  let bold : List Wrapper := [.named "b" .empty]
  [.run 2 4 bold, .run 1 3 [], ⟨2, 3, [.named "br" .empty], true⟩, .run 3 3 bold, .run 0 2 bold]

theorem patchwork_normalForm :
    (∀ s ∈ patchwork, s.start ≤ s.stop) ∧ NormalForm patchwork 4 (merge patchwork 4) :=
  have valid : ∀ s ∈ patchwork, s.start ≤ s.stop := by decide
  ⟨valid, merge_normalForm valid 4⟩

end Segment

namespace Markup.Builder

/-- An operation as operations that add one character or marker each. -/
def Op.split : Op → List Op
  | .pushText wrappers text => text.map (.pushChar wrappers)
  | .flush => []
  | .pushChar wrappers c => [.pushChar wrappers c]
  | .marker wrapper => [.marker wrapper]

/-- The characters that operations push, each with the wrappers that it is given. -/
def pushes : List Op → List (Char × List Wrapper)
  | [] => []
  | .pushChar wrappers c :: ops => (c, wrappers) :: pushes ops
  | .pushText wrappers text :: ops => text.map (·, wrappers) ++ pushes ops
  | .marker _ :: ops => pushes ops
  | .flush :: ops => pushes ops

/-- The markers that operations put, each with the number of characters pushed before it. -/
def puts (count : Nat) : List Op → List (Nat × Wrapper)
  | [] => []
  | .pushChar _ _ :: ops => puts (count + 1) ops
  | .pushText _ text :: ops => puts (count + text.length) ops
  | .marker wrapper :: ops => (count, wrapper) :: puts count ops
  | .flush :: ops => puts count ops

/-- The markup has the characters and markers that the operations give, and nothing else. -/
structure Records (ops : List Op) (m : Markup) : Prop where
  text : m.text.toList = (pushes ops).map (·.1)
  wrappers : ∀ index c wrappers, (pushes ops)[index]? = some (c, wrappers) →
    Agree (m.wrappersAt index) wrappers
  markers : (m.segments.filter fun s => s.marker) =
    (puts 0 ops).map fun mark => .markerAt mark.1 [mark.2]

theorem Op.items_split (op : Op) : op.split.flatMap Op.items = op.items := by
  cases op with
  | pushText wrappers text =>
      rw [Op.split, List.flatMap_map, Op.items, Item.literal, List.map_eq_flatMap]
      rfl
  | _ => rfl

theorem items_split (ops : List Op) :
    (ops.flatMap Op.split).flatMap Op.items = ops.flatMap Op.items := by
  rw [List.flatMap_assoc]
  congr 1
  funext op
  exact op.items_split

theorem text_items (ops : List Op) :
    Item.text (ops.flatMap Op.items) = (pushes ops).map (·.1) := by
  induction ops with
  | nil => rfl
  | cons op ops ih =>
      rw [List.flatMap_cons, Item.text_append, ih]
      cases op with
      | pushText wrappers text => simp [Op.items, pushes, Function.comp_def]
      | _ => rfl

theorem layers_items (ops : List Op) :
    Item.layers (ops.flatMap Op.items) = (pushes ops).map (·.2) := by
  induction ops with
  | nil => rfl
  | cons op ops ih =>
      rw [List.flatMap_cons, Item.layers_append, ih]
      cases op with
      | pushText wrappers text =>
          simp [Op.items, Item.layers_literal, pushes, Function.comp_def]
      | _ => rfl

theorem markers_items (count : Nat) (ops : List Op) :
    Item.markers count (ops.flatMap Op.items) =
      (puts count ops).map fun mark => .markerAt mark.1 [mark.2] := by
  induction ops generalizing count with
  | nil => rfl
  | cons op ops ih =>
      rw [List.flatMap_cons]
      cases op with
      | pushText wrappers text =>
          rw [Op.items, Item.markers_literal]
          exact ih (count + text.length)
      | pushChar wrappers c => exact ih (count + 1)
      | marker wrapper => exact congrArg _ (ih count)
      | flush => exact ih count

theorem build_records (ops : List Op) : Records ops (build ops) := by
  rw [build_eq_ofItems]
  refine ⟨?_, ?_, ?_⟩
  · rw [ofItems, String.toList_ofList, text_items]
  · intro index c wrappers given
    refine wrappersAt_ofItems ?_
    rw [layers_items, List.getElem?_map, given]
    rfl
  · rw [markers_ofItems, markers_items]

/-- How characters are divided among operations and where runs are closed in between makes no
difference to the result, which has what the operations give. -/
theorem build_of_split {ops ops' : List Op} (same : ops.flatMap Op.split = ops'.flatMap Op.split) :
    build ops = build ops' ∧ Records ops (build ops) := by
  refine ⟨?_, build_records ops⟩
  rw [build_eq_ofItems, build_eq_ofItems, ← items_split, same, items_split]

/-- Two ways to build a bold text with a marker in it. -/
theorem build_of_split_bold :
    let bold : List Wrapper := [.named "b" .empty]
    let br : Wrapper := .named "br" .empty
    let whole : List Op := [.pushText bold ['a', 'b', 'c'], .marker br, .pushText [] ['d']]
    let parts : List Op := [.flush, .pushChar bold 'a', .flush, .pushText bold [],
      .pushText bold ['b', 'c'], .marker br, .flush, .pushChar [] 'd', .flush]
    whole.flatMap Op.split = parts.flatMap Op.split ∧ build whole = build parts ∧
      Records whole (build whole) := by
  intro bold br whole parts
  have same : whole.flatMap Op.split = parts.flatMap Op.split := rfl
  exact ⟨same, build_of_split same⟩

end Markup.Builder

end Dialogue
