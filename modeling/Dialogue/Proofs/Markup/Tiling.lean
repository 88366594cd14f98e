import Dialogue.Markup.Basic
import Mathlib.Data.List.Chain

set_option autoImplicit false

namespace Dialogue

namespace Segment

variable {start mid stop : Nat} {segments more : List Segment}

/-- The segments fill the text from `start` to `stop`. -/
inductive Tiles : Nat → List Segment → Nat → Prop
  | nil {start : Nat} : Tiles start [] start
  | run {start mid stop : Nat} {wrappers : List Wrapper} {rest : List Segment}
      (filled : start < mid) (tiles : Tiles mid rest stop) :
      Tiles start (.run start mid wrappers :: rest) stop
  | marker {start stop : Nat} {wrapper : Wrapper} {rest : List Segment}
      (tiles : Tiles start rest stop) :
      Tiles start (.markerAt start [wrapper] :: rest) stop

theorem covers_iff (s : Segment) (index : Nat) :
    s.covers index = true ↔ s.marker = false ∧ s.start ≤ index ∧ index < s.stop := by
  simp [covers, and_assoc]

theorem covers_run (start stop index : Nat) (wrappers : List Wrapper) :
    (Segment.run start stop wrappers).covers index = true ↔ start ≤ index ∧ index < stop := by
  have shape : (Segment.run start stop wrappers).covers index =
      (decide (start ≤ index) && decide (index < stop)) := rfl
  rw [shape, Bool.and_eq_true, decide_eq_true_iff, decide_eq_true_iff]

@[simp] theorem covers_markerAt (position index : Nat) (wrappers : List Wrapper) :
    (Segment.markerAt position wrappers).covers index = false := rfl

namespace Tiles

theorem le (tiles : Tiles start segments stop) : start ≤ stop := by
  induction tiles with
  | nil => exact Nat.le_refl _
  | run filled _ ih => omega
  | marker _ ih => exact ih

theorem bounds (tiles : Tiles start segments stop) {s : Segment} (member : s ∈ segments) :
    start ≤ s.start ∧ s.start ≤ s.stop ∧ s.stop ≤ stop := by
  induction tiles with
  | nil => cases member
  | @run start mid stop wrappers rest filled tiles ih =>
      have room := tiles.le
      rcases List.mem_cons.mp member with rfl | inside
      · exact ⟨Nat.le_refl _, Nat.le_of_lt filled, room⟩
      · have := ih inside
        omega
  | marker tiles ih =>
      rcases List.mem_cons.mp member with rfl | inside
      · exact ⟨Nat.le_refl _, Nat.le_refl _, tiles.le⟩
      · exact ih inside

theorem filled (tiles : Tiles start segments stop) {s : Segment} (member : s ∈ segments)
    (plain : s.marker = false) : s.start < s.stop := by
  induction tiles with
  | nil => cases member
  | run filled _ ih =>
      rcases List.mem_cons.mp member with rfl | inside
      · exact filled
      · exact ih inside
  | marker _ ih =>
      rcases List.mem_cons.mp member with rfl | inside
      · cases plain
      · exact ih inside

theorem anchored (tiles : Tiles start segments stop) {s : Segment} (member : s ∈ segments)
    (marked : s.marker = true) : s.start = s.stop ∧ s.wrappers.length = 1 := by
  induction tiles with
  | nil => cases member
  | run _ _ ih =>
      rcases List.mem_cons.mp member with rfl | inside
      · cases marked
      · exact ih inside
  | marker _ ih =>
      rcases List.mem_cons.mp member with rfl | inside
      · exact ⟨rfl, rfl⟩
      · exact ih inside

/-- Every segment ends where a later one starts, or before. -/
theorem apart (tiles : Tiles start segments stop) :
    segments.Pairwise fun a b => a.stop ≤ b.start := by
  induction tiles with
  | nil => exact .nil
  | run _ tiles ih => exact .cons (fun s member => (tiles.bounds member).1) ih
  | marker tiles ih => exact .cons (fun s member => (tiles.bounds member).1) ih

theorem sorted (tiles : Tiles start segments stop) :
    segments.Pairwise fun a b => a.start < b.start ∨ a.start = b.start ∧ a.stop ≤ b.stop := by
  refine tiles.apart.imp_of_mem ?_
  intro a b first second apart
  have := tiles.bounds first
  have := tiles.bounds second
  omega

/-- A position is covered exactly if it lies in the tiled part. -/
theorem covered (tiles : Tiles start segments stop) (index : Nat) :
    (∃ s ∈ segments, s.covers index = true) ↔ start ≤ index ∧ index < stop := by
  induction tiles with
  | nil =>
      simp only [List.not_mem_nil, false_and, exists_false, false_iff]
      omega
  | @run start mid stop wrappers rest filled tiles ih =>
      have room := tiles.le
      simp only [List.mem_cons, exists_eq_or_imp, covers_run, ih]
      omega
  | @marker start stop wrapper rest tiles ih =>
      simp only [List.mem_cons, exists_eq_or_imp, covers_markerAt, ih]
      simp

end Tiles

theorem coalesceAfter_joins {last next : Segment} (joins : last.joins next = true)
    (rest : List Segment) :
    coalesceAfter last (next :: rest) = coalesceAfter { last with stop := next.stop } rest := by
  rw [coalesceAfter, if_pos joins]

theorem coalesceAfter_parts {last next : Segment} (parts : last.joins next = false)
    (rest : List Segment) :
    coalesceAfter last (next :: rest) = last :: coalesceAfter next rest := by
  rw [coalesceAfter, if_neg (by simp [parts])]

@[simp] theorem joins_run_run (first mid next last : Nat) (above below : List Wrapper) :
    (Segment.run first mid above).joins (.run next last below) =
      (mid == next && above == below) := rfl

@[simp] theorem joins_marker (s : Segment) (position : Nat) (wrappers : List Wrapper) :
    s.joins (.markerAt position wrappers) = false := rfl

@[simp] theorem marker_joins (s : Segment) (position : Nat) (wrappers : List Wrapper) :
    (Segment.markerAt position wrappers).joins s = false := by
  simp [joins, markerAt]

/-- Joining keeps the start and the wrappers of the first segment. -/
theorem coalesceAfter_head (last : Segment) (rest : List Segment) :
    ∃ stop more, coalesceAfter last rest = { last with stop := stop } :: more := by
  induction rest generalizing last with
  | nil => exact ⟨last.stop, [], rfl⟩
  | cons next rest ih =>
      by_cases joins : last.joins next = true
      · rw [coalesceAfter_joins joins]
        exact ih { last with stop := next.stop }
      · rw [coalesceAfter_parts (by simpa using joins)]
        exact ⟨last.stop, coalesceAfter next rest, rfl⟩

theorem coalesceAfter_unjoined (last : Segment) (rest : List Segment) :
    (coalesceAfter last rest).IsChain fun a b => a.joins b = false := by
  induction rest generalizing last with
  | nil => exact .singleton last
  | cons next rest ih =>
      by_cases joins : last.joins next = true
      · rw [coalesceAfter_joins joins]
        exact ih { last with stop := next.stop }
      · have parts : last.joins next = false := by simpa using joins
        have chain := ih next
        rw [coalesceAfter_parts parts]
        obtain ⟨stop, more, shape⟩ := coalesceAfter_head next rest
        rw [shape] at chain ⊢
        exact .cons_cons parts chain

theorem coalesceAfter_tiles {last : Segment} (tiles : Tiles start (last :: segments) stop) :
    Tiles start (coalesceAfter last segments) stop := by
  induction segments generalizing start last with
  | nil => exact tiles
  | cons next rest ih =>
      by_cases joins : last.joins next = true
      · -- Only two runs join, and the longer run starts where the first one does.
        rw [coalesceAfter_joins joins]
        cases tiles with
        | marker tiles => simp at joins
        | run filled tiles =>
            cases tiles with
            | marker tiles => simp at joins
            | run longer tiles => exact ih (.run (Nat.lt_trans filled longer) tiles)
      · rw [coalesceAfter_parts (by simpa using joins)]
        cases tiles with
        | run filled tiles => exact .run filled (ih tiles)
        | marker tiles => exact .marker (ih tiles)

theorem coalesce_tiles (tiles : Tiles start segments stop) :
    Tiles start (coalesce segments) stop := by
  cases segments with
  | nil => exact tiles
  | cons first rest => exact coalesceAfter_tiles tiles

theorem coalesce_unjoined (segments : List Segment) :
    (coalesce segments).IsChain fun a b => a.joins b = false := by
  cases segments with
  | nil => exact .nil
  | cons first rest => exact coalesceAfter_unjoined first rest

theorem coalesceAfter_of_unjoined {last : Segment} {rest : List Segment}
    (unjoined : (last :: rest).IsChain fun a b => a.joins b = false) :
    coalesceAfter last rest = last :: rest := by
  induction rest generalizing last with
  | nil => rfl
  | cons next rest ih =>
      obtain ⟨parts, unjoined⟩ := List.isChain_cons_cons.mp unjoined
      rw [coalesceAfter_parts parts, ih unjoined]

theorem coalesce_of_unjoined {segments : List Segment}
    (unjoined : segments.IsChain fun a b => a.joins b = false) : coalesce segments = segments := by
  cases segments with
  | nil => rfl
  | cons first rest => exact coalesceAfter_of_unjoined unjoined

theorem coalesce_eq_nil (segments : List Segment) : coalesce segments = [] ↔ segments = [] := by
  cases segments with
  | nil => simp [coalesce]
  | cons first rest =>
      obtain ⟨stop, more, shape⟩ := coalesceAfter_head first rest
      simp [coalesce, shape]

/-- A tiling is in order and has no empty runs, so that only runs that touch are joined. -/
theorem Tiles.merge {length : Nat} (tiles : Tiles 0 segments length) :
    merge segments length = coalesce segments := by
  have ordered : segments.mergeSort Segment.le = segments := by
    apply List.mergeSort_of_pairwise
    refine tiles.sorted.imp ?_
    intro a b order
    simpa [Segment.le] using order
  have kept : (segments.filter fun s => s.marker || !s.isEmpty) = segments := by
    rw [List.filter_eq_self]
    intro s member
    by_cases marked : s.marker = true
    · simp [marked]
    · have := tiles.filled member (by simpa using marked)
      simp only [isEmpty, Bool.or_eq_true, Bool.not_eq_true', beq_eq_false_iff_ne]
      omega
  unfold Segment.merge
  rw [ordered, kept]
  cases tiles with
  | nil => simp [coalesce]
  | run filled tiles => simp [coalesce_eq_nil]
  | marker tiles => simp [coalesce_eq_nil]

/-- Two runs of a tiling that stand together without being joined differ in their wrappers. -/
theorem Tiles.maximal (tiles : Tiles start segments stop)
    (unjoined : segments.IsChain fun a b => a.joins b = false) :
    segments.IsChain fun a b =>
      a.marker = false → b.marker = false → (a.wrappers == b.wrappers) = false := by
  induction tiles with
  | nil => exact .nil
  | run filled tiles ih =>
      cases tiles with
      | nil => exact .singleton _
      | marker tiles =>
          refine .cons_cons ?_ (ih (List.isChain_cons_cons.mp unjoined).2)
          intro _ marked
          cases marked
      | run longer tiles =>
          obtain ⟨parts, unjoined⟩ := List.isChain_cons_cons.mp unjoined
          refine .cons_cons ?_ (ih unjoined)
          intro _ _
          rw [joins_run_run, beq_self_eq_true, Bool.true_and] at parts
          exact parts
  | @marker start stop wrapper rest tiles ih =>
      cases rest with
      | nil => exact .singleton _
      | cons next rest =>
          refine .cons_cons ?_ (ih (List.isChain_cons_cons.mp unjoined).2)
          intro marked _
          cases marked

end Segment

namespace Markup

open Segment

/-- The place of a position among those from `first` to `last`. -/
def place (first last index : Nat) : Nat :=
  min (max index first) last - first

theorem clip_markerAt (first last position : Nat) (wrappers : List Wrapper) :
    clip first last (.markerAt position wrappers) =
      if first ≤ position && position ≤ last then some (.markerAt (position - first) wrappers)
      else none := rfl

theorem clip_run (first last start stop : Nat) (wrappers : List Wrapper) :
    clip first last (.run start stop wrappers) =
      if min stop last ≤ max start first then none
      else some (.run (max start first - first) (min stop last - first) wrappers) := rfl

theorem clip_tiles {first last start stop : Nat} {segments : List Segment}
    (range : first ≤ last) (tiles : Tiles start segments stop) :
    Tiles (place first last start) (segments.filterMap (clip first last))
      (place first last stop) := by
  induction tiles with
  | nil => exact .nil
  | @run start mid stop wrappers rest filled tiles ih =>
      by_cases outside : min mid last ≤ max start first
      · have gone : clip first last (.run start mid wrappers) = none := by
          rw [clip_run, if_pos outside]
        have still : place first last start = place first last mid := by
          unfold place
          omega
        rw [List.filterMap_cons_none gone, still]
        exact ih
      · have low : max start first - first = place first last start := by
          unfold place
          omega
        have high : min mid last - first = place first last mid := by
          unfold place
          omega
        have left : clip first last (.run start mid wrappers) =
            some (.run (place first last start) (place first last mid) wrappers) := by
          rw [clip_run, if_neg outside, low, high]
        rw [List.filterMap_cons_some left]
        refine .run ?_ ih
        omega
  | @marker start stop wrapper rest tiles ih =>
      by_cases inside : first ≤ start ∧ start ≤ last
      · have here : start - first = place first last start := by
          unfold place
          omega
        have left : clip first last (.markerAt start [wrapper]) =
            some (.markerAt (place first last start) [wrapper]) := by
          rw [clip_markerAt, if_pos (by simpa using inside), here]
        rw [List.filterMap_cons_some left]
        exact .marker ih
      · have gone : clip first last (.markerAt start [wrapper]) = none := by
          rw [clip_markerAt, if_neg (by simpa using inside)]
        rw [List.filterMap_cons_none gone]
        exact ih

/-- The segments tile the text, and no run goes on in the next one. -/
structure Tiled (m : Markup) : Prop where
  tiles : Tiles 0 m.segments m.text.length
  unjoined : m.segments.IsChain fun a b => a.joins b = false

/-- Merging the segments of a tiling gives a tiled markup. -/
theorem tiled_merge {text : List Char} {segments : List Segment}
    (tiles : Tiles 0 segments text.length) :
    Tiled ⟨String.ofList text, Segment.merge segments text.length⟩ := by
  rw [tiles.merge]
  refine ⟨?_, coalesce_unjoined segments⟩
  rw [String.length_ofList]
  exact coalesce_tiles tiles

theorem Tiled.slice {m : Markup} (tiled : m.Tiled) (start : Nat) (stop : Option Nat) :
    (m.slice start stop).Tiled := by
  have tiles := tiled.tiles
  rw [← String.length_toList] at tiles
  unfold Markup.slice
  extract_lets chars first last
  have lower : first ≤ chars.length := Nat.min_le_right ..
  have range : first ≤ last := by
    cases stop with
    | none => exact lower
    | some stop => exact Nat.le_max_left ..
  have upper : last ≤ chars.length := by
    cases stop with
    | none => exact Nat.le_refl _
    | some stop =>
        have : last = max first (min stop chars.length) := rfl
        omega
  have cut := clip_tiles range tiles
  have origin : place first last 0 = 0 := by
    unfold place
    omega
  have size : place first last chars.length = last - first := by
    unfold place
    omega
  rw [origin, size] at cut
  have taken : ((chars.drop first).take (last - first)).length = last - first := by
    rw [List.length_take, List.length_drop]
    omega
  rw [← taken] at cut
  have merged := tiled_merge cut
  rw [taken] at merged
  exact merged

/-- What every markup that is made satisfies: runs of text and markers in order. -/
structure WellFormed (m : Markup) : Prop where
  /-- A run holds a character. -/
  filled : ∀ s ∈ m.segments, s.marker = false → s.start < s.stop
  /-- Runs are disjoint and in increasing order. -/
  apart : (m.segments.filter fun s => !s.marker).Pairwise fun a b => a.stop ≤ b.start
  /-- The runs together cover the characters of the text and nothing else. -/
  covered : ∀ index, (∃ s ∈ m.segments, s.covers index = true) ↔ index < m.text.length
  /-- A marker stands at a place of the text and has one wrapper. -/
  anchored : ∀ s ∈ m.segments, s.marker = true →
    s.start = s.stop ∧ s.stop ≤ m.text.length ∧ s.wrappers.length = 1
  sorted : m.segments.Pairwise fun a b =>
    a.start < b.start ∨ a.start = b.start ∧ a.stop ≤ b.stop
  /-- Runs that follow one another differ in their wrappers. -/
  maximal : m.segments.IsChain fun a b =>
    a.marker = false → b.marker = false → (a.wrappers == b.wrappers) = false
  /-- An empty text has markers only. -/
  empty : m.text = "" → ∀ s ∈ m.segments, s.marker = true

theorem Tiled.wellFormed {m : Markup} (tiled : m.Tiled) : m.WellFormed where
  filled _ member plain := tiled.tiles.filled member plain
  apart := tiled.tiles.apart.filter _
  covered index := by
    rw [tiled.tiles.covered]
    omega
  anchored s member marked := by
    obtain ⟨anchor, single⟩ := tiled.tiles.anchored member marked
    exact ⟨anchor, (tiled.tiles.bounds member).2.2, single⟩
  sorted := tiled.tiles.sorted
  maximal := tiled.tiles.maximal tiled.unjoined
  empty blank s member := by
    by_contra plain
    have inside := tiled.tiles.filled member (by simpa using plain)
    have room := (tiled.tiles.bounds member).2.2
    rw [blank, String.length_empty] at room
    omega

end Markup

end Dialogue
