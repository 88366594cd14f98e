import Dialogue.Proofs.Markup.Content

set_option autoImplicit false

namespace Dialogue

namespace Segment

open Markup

/-- A run that holds a character, or a marker. -/
inductive Shaped : Segment → Prop
  | run {start stop : Nat} {wrappers : List Wrapper} (filled : start < stop) :
      Shaped (.run start stop wrappers)
  | marker (position : Nat) (wrappers : List Wrapper) : Shaped (.markerAt position wrappers)

theorem le_iff (a b : Segment) :
    a.le b = true ↔ a.start < b.start ∨ a.start = b.start ∧ a.stop ≤ b.stop := by
  simp [Segment.le]

/-- The first segment may stand before the second: in order, and runs do not overlap. -/
structure Precedes (a b : Segment) : Prop where
  le : a.le b = true
  apart : a.marker = false → b.marker = false → a.stop ≤ b.start

theorem precedes_iff (a b : Segment) :
    a.Precedes b ↔ (a.start < b.start ∨ a.start = b.start ∧ a.stop ≤ b.stop) ∧
      (a.marker = false → b.marker = false → a.stop ≤ b.start) := by
  rw [← le_iff]
  exact ⟨fun precedes => ⟨precedes.le, precedes.apart⟩, fun ⟨le, apart⟩ => ⟨le, apart⟩⟩

theorem le_trans (a b c : Segment) (first : a.le b = true) (second : b.le c = true) :
    a.le c = true := by
  rw [le_iff] at first second ⊢
  omega

theorem le_total (a b : Segment) : (a.le b || b.le a) = true := by
  rw [Bool.or_eq_true, le_iff, le_iff]
  omega

theorem shaped_iff (s : Segment) :
    s.Shaped ↔ (s.marker = false → s.start < s.stop) ∧ (s.marker = true → s.start = s.stop) := by
  constructor
  · intro shaped
    cases shaped with
    | run filled => exact ⟨fun _ => filled, by rintro ⟨⟩⟩
    | marker position wrappers => exact ⟨by rintro ⟨⟩, fun _ => rfl⟩
  · obtain ⟨start, stop, wrappers, marker⟩ := s
    rintro ⟨filled, anchored⟩
    cases marker with
    | false => exact .run (filled rfl)
    | true =>
        obtain rfl : start = stop := anchored rfl
        exact .marker start wrappers

/-- The wrappers of the first run that covers a character. -/
def layer? (segments : List Segment) (index : Nat) : Option (List Wrapper) :=
  (segments.find? fun s => s.covers index).map Segment.wrappers

theorem layer?_cons (s : Segment) (segments : List Segment) (index : Nat) :
    layer? (s :: segments) index =
      if s.covers index then some s.wrappers else layer? segments index := by
  unfold layer?
  rw [List.find?_cons]
  cases s.covers index <;> rfl

/-- Segments in order that leave out none of the first `length` characters. -/
structure Laid (segments : List Segment) (length : Nat) : Prop where
  shaped : ∀ s ∈ segments, s.Shaped
  ordered : segments.Pairwise Precedes
  covered : ∀ index < length, (layer? segments index).isSome = true

/-- Of a run and a marker, one comes first. -/
theorem marker_eq_of_le {a b : Segment} (first : a.Shaped) (second : b.Shaped)
    (before : a.le b = true) (behind : b.le a = true) : a.marker = b.marker := by
  rw [le_iff] at before behind
  rw [shaped_iff] at first second
  cases marked : a.marker with
  | true =>
      have anchored := first.2 marked
      cases other : b.marker with
      | true => rfl
      | false =>
          have filled := second.1 other
          omega
  | false =>
      have filled := first.1 marked
      cases other : b.marker with
      | true =>
          have anchored := second.2 other
          omega
      | false => rfl

/-- Sorted segments are known from the order of their markers and that of their runs. -/
theorem eq_of_sorted {xs ys : List Segment} (first : xs.Pairwise fun a b => a.le b = true)
    (second : ys.Pairwise fun a b => a.le b = true) (shaped : ∀ s ∈ xs, s.Shaped)
    (markers : xs.filter Segment.marker = ys.filter Segment.marker)
    (runs : (xs.filter fun s => !s.marker) = ys.filter fun s => !s.marker) : xs = ys := by
  have perm : xs.Perm ys := by
    refine (List.filter_append_perm Segment.marker xs).symm.trans ?_
    rw [markers, runs]
    exact List.filter_append_perm Segment.marker ys
  induction xs generalizing ys with
  | nil => exact perm.nil_eq
  | cons a xs ih =>
      cases ys with
      | nil => exact absurd perm.eq_nil (List.cons_ne_nil a xs)
      | cons b ys =>
          obtain ⟨lowest, sorted⟩ := List.pairwise_cons.mp first
          obtain ⟨lowest', sorted'⟩ := List.pairwise_cons.mp second
          have kind : a.marker = b.marker := by
            rcases List.mem_cons.mp (perm.mem_iff.mp List.mem_cons_self) with same | behind
            · rw [same]
            · rcases List.mem_cons.mp (perm.mem_iff.mpr List.mem_cons_self) with same | before
              · rw [same]
              · exact marker_eq_of_le (shaped a List.mem_cons_self)
                  (shaped b (List.mem_cons_of_mem _ before)) (lowest b before) (lowest' a behind)
          have same : a = b ∧ xs.filter Segment.marker = ys.filter Segment.marker ∧
              (xs.filter fun s => !s.marker) = ys.filter fun s => !s.marker := by
            rw [List.filter_cons, List.filter_cons, ← kind] at markers runs
            cases marked : a.marker with
            | true =>
                simp only [marked, ↓reduceIte, Bool.not_true, Bool.false_eq_true] at markers runs
                obtain ⟨head, rest⟩ := List.cons.inj markers
                exact ⟨head, rest, runs⟩
            | false =>
                simp only [marked, ↓reduceIte, Bool.not_false, Bool.false_eq_true] at markers runs
                obtain ⟨head, rest⟩ := List.cons.inj runs
                exact ⟨head, markers, rest⟩
          obtain ⟨rfl, markers, runs⟩ := same
          exact congrArg (a :: ·) (ih sorted sorted'
            (fun s inside => shaped s (List.mem_cons_of_mem _ inside)) markers runs perm.cons_inv)

/-- Sorting keeps the order of segments that are in order among themselves. -/
theorem filter_mergeSort {p : Segment → Bool} {xs : List Segment}
    (sorted : (xs.filter p).Pairwise fun a b => a.le b = true) :
    (xs.mergeSort Segment.le).filter p = xs.filter p := by
  have kept : (xs.filter p).Sublist (xs.mergeSort Segment.le) :=
    List.sublist_mergeSort le_trans le_total sorted List.filter_sublist
  have inside : (xs.filter p).Sublist ((xs.mergeSort Segment.le).filter p) := by
    simpa using kept.filter p
  have size := ((List.mergeSort_perm xs Segment.le).filter p).length_eq
  exact (inside.eq_of_length size.symm).symm

/-- A marker that stands right where the range starts. -/
def atEdge (first : Nat) (s : Segment) : Bool :=
  s.marker && s.start == first

/-- What the range cuts out of a marker at its edge. -/
def edge (first last : Nat) (s : Segment) : Option Segment :=
  if s.atEdge first then clip first last s else none

/-- What the range cuts out of any other segment. -/
def inner (first last : Nat) (s : Segment) : Option Segment :=
  if s.atEdge first then none else clip first last s

section Cut

variable {first last : Nat}

@[simp] theorem edge_run (start stop : Nat) (wrappers : List Wrapper) :
    edge first last (.run start stop wrappers) = none := rfl

theorem edge_markerAt (position : Nat) (wrappers : List Wrapper) :
    edge first last (.markerAt position wrappers) =
      if position = first ∧ first ≤ last then some (.markerAt 0 wrappers) else none := by
  have here : (markerAt position wrappers).atEdge first = decide (position = first) := rfl
  rw [edge, here, clip_markerAt]
  grind

theorem inner_run (start stop : Nat) (wrappers : List Wrapper) :
    inner first last (.run start stop wrappers) =
      if min stop last ≤ max start first then none
      else some (.run (max start first - first) (min stop last - first) wrappers) := rfl

theorem inner_markerAt (position : Nat) (wrappers : List Wrapper) :
    inner first last (.markerAt position wrappers) =
      if first < position ∧ position ≤ last then some (.markerAt (position - first) wrappers)
      else none := by
  have here : (markerAt position wrappers).atEdge first = decide (position = first) := rfl
  rw [inner, here, clip_markerAt]
  grind

/-- What is left of a segment that is not at the edge. -/
theorem inner_cases {s t : Segment} (shaped : s.Shaped) (cut : inner first last s = some t) :
    (∃ position wrappers, s = .markerAt position wrappers ∧
      t = .markerAt (position - first) wrappers ∧ first < position ∧ position ≤ last) ∨
    ∃ start stop wrappers, s = .run start stop wrappers ∧ start < stop ∧
      t = .run (max start first - first) (min stop last - first) wrappers ∧
      max start first < min stop last := by
  cases shaped with
  | marker position wrappers =>
      rw [inner_markerAt, Option.ite_none_right_eq_some] at cut
      exact .inl ⟨position, wrappers, rfl, (Option.some.inj cut.2).symm, cut.1⟩
  | @run start stop wrappers filled =>
      rw [inner_run, Option.ite_none_left_eq_some] at cut
      exact .inr ⟨start, stop, wrappers, rfl, filled, (Option.some.inj cut.2).symm,
        Nat.lt_of_not_le cut.1⟩

theorem inner_shaped {s t : Segment} (shaped : s.Shaped) (cut : inner first last s = some t) :
    t.Shaped := by
  rcases inner_cases shaped cut with ⟨position, wrappers, -, rfl, -⟩ | ⟨_, _, _, -, -, rfl, room⟩
  · exact .marker _ _
  · exact .run (by omega)

/-- Segments in order stay in order, but for the markers at the edge. -/
theorem inner_precedes {a b a' b' : Segment} (shaped : a.Shaped) (shaped' : b.Shaped)
    (precedes : a.Precedes b) (cut : inner first last a = some a')
    (cut' : inner first last b = some b') : a'.Precedes b' := by
  rw [precedes_iff] at precedes ⊢
  rcases inner_cases shaped cut with ⟨_, _, rfl, rfl, _⟩ | ⟨_, _, _, rfl, _, rfl, _⟩ <;>
    rcases inner_cases shaped' cut' with ⟨_, _, rfl, rfl, _⟩ | ⟨_, _, _, rfl, _, rfl, _⟩ <;>
    simp [run, markerAt] at precedes ⊢ <;> omega

variable {segments : List Segment}

theorem mem_edges (shaped : ∀ s ∈ segments, s.Shaped) {t : Segment}
    (member : t ∈ segments.filterMap (edge first last)) : ∃ wrappers, t = .markerAt 0 wrappers := by
  obtain ⟨s, inside, cut⟩ := List.mem_filterMap.mp member
  cases shaped s inside with
  | run filled => cases cut
  | marker position wrappers =>
      rw [edge_markerAt, Option.ite_none_right_eq_some] at cut
      exact ⟨wrappers, (Option.some.inj cut.2).symm⟩

theorem edges_markers (shaped : ∀ s ∈ segments, s.Shaped) :
    (segments.filterMap (edge first last)).filter Segment.marker =
      segments.filterMap (edge first last) := by
  rw [List.filter_eq_self]
  intro t member
  obtain ⟨wrappers, rfl⟩ := mem_edges shaped member
  rfl

theorem mem_inner (shaped : ∀ s ∈ segments, s.Shaped) {t : Segment}
    (member : t ∈ segments.filterMap (inner first last)) : t.Shaped := by
  obtain ⟨s, inside, cut⟩ := List.mem_filterMap.mp member
  exact inner_shaped (shaped s inside) cut

theorem inner_ordered (shaped : ∀ s ∈ segments, s.Shaped) (ordered : segments.Pairwise Precedes) :
    (segments.filterMap (inner first last)).Pairwise Precedes := by
  rw [List.pairwise_filterMap]
  refine ordered.imp_of_mem ?_
  intro a b inside inside' precedes a' cut b' cut'
  exact inner_precedes (shaped a inside) (shaped b inside') precedes cut cut'

/-- Markers at the very start may stand before segments in order. -/
theorem edges_ordered {more : List Segment} (shaped : ∀ s ∈ segments, s.Shaped)
    (ordered : more.Pairwise Precedes) (shaped' : ∀ s ∈ more, s.Shaped) :
    (segments.filterMap (edge first last) ++ more).Pairwise Precedes := by
  have before (wrappers : List Wrapper) {s : Segment} (shape : s.Shaped) :
      (markerAt 0 wrappers).Precedes s := by
    rw [precedes_iff]
    cases shape <;> simp [markerAt, run] <;> omega
  rw [List.pairwise_append]
  refine ⟨List.pairwise_of_forall_mem_list ?_, ordered, ?_⟩
  · intro a first b second
    obtain ⟨wrappers, rfl⟩ := mem_edges shaped first
    obtain ⟨others, rfl⟩ := mem_edges shaped second
    exact before wrappers (.marker 0 others)
  · intro a first b second
    obtain ⟨wrappers, rfl⟩ := mem_edges shaped first
    exact before wrappers (shaped' b second)

theorem clip_marker {s t : Segment} (cut : clip first last s = some t) : t.marker = s.marker := by
  unfold clip at cut
  split at cut
  · rename_i marked
    rw [Option.ite_none_right_eq_some] at cut
    rw [← Option.some.inj cut.2, marked]
    rfl
  · rename_i plain
    rw [Option.ite_none_left_eq_some] at cut
    rw [← Option.some.inj cut.2, Bool.eq_false_iff.mpr plain]
    rfl

theorem clip_runs (segments : List Segment) :
    ((segments.filterMap (clip first last)).filter fun s => !s.marker) =
      (segments.filterMap (inner first last)).filter fun s => !s.marker := by
  rw [List.filter_filterMap, List.filter_filterMap]
  refine List.filterMap_congr fun s _ => ?_
  unfold inner
  split
  · rename_i here
    have marked : s.marker = true := (Bool.and_eq_true_iff.mp here).1
    cases cut : clip first last s with
    | none => rfl
    | some t => simp [clip_marker cut, marked]
  · rfl

theorem clip_shaped {s t : Segment} (shaped : s.Shaped) (cut : clip first last s = some t) :
    t.Shaped := by
  cases shaped with
  | run filled => exact inner_shaped (.run filled) cut
  | marker position wrappers =>
      rw [clip_markerAt, Option.ite_none_right_eq_some] at cut
      rw [← Option.some.inj cut.2]
      exact .marker _ _

/-- Of segments in order, the markers at the edge come before the other markers. -/
theorem clip_markers (shaped : ∀ s ∈ segments, s.Shaped) (ordered : segments.Pairwise Precedes) :
    (segments.filterMap (clip first last)).filter Segment.marker =
      segments.filterMap (edge first last) ++
        (segments.filterMap (inner first last)).filter Segment.marker := by
  induction segments with
  | nil => rfl
  | cons s segments ih =>
      obtain ⟨shape, shapes⟩ := List.forall_mem_cons.mp shaped
      obtain ⟨behind, sorted⟩ := List.pairwise_cons.mp ordered
      have rest := ih shapes sorted
      rw [List.filterMap_cons, List.filterMap_cons, List.filterMap_cons]
      cases here : s.atEdge first with
      | true =>
          have marked : s.marker = true := (Bool.and_eq_true_iff.mp here).1
          simp only [edge, inner, here, ↓reduceIte]
          cases cut : clip first last s with
          | none => exact rest
          | some t =>
              rw [List.filter_cons_of_pos (by rw [clip_marker cut, marked]), List.cons_append]
              exact congrArg (t :: ·) rest
      | false =>
          simp only [edge, inner, here, Bool.false_eq_true, ↓reduceIte]
          cases cut : clip first last s with
          | none => exact rest
          | some t =>
              cases marked : s.marker with
              | false =>
                  have plain : ¬t.marker = true := by simp [clip_marker cut, marked]
                  rw [List.filter_cons_of_neg plain, List.filter_cons_of_neg plain]
                  exact rest
              | true =>
                  -- This marker stands behind the edge, and so does all that follows.
                  have late : first < s.start := by
                    have other : s.start ≠ first := by simpa [atEdge, marked] using here
                    unfold clip at cut
                    rw [if_pos marked, Option.ite_none_right_eq_some, Bool.and_eq_true,
                      decide_eq_true_eq] at cut
                    omega
                  have gone : segments.filterMap (edge first last) = [] := by
                    rw [List.filterMap_eq_nil_iff]
                    intro t member
                    have order := (le_iff ..).mp (behind t member).le
                    have elsewhere : t.atEdge first = false := by
                      rw [atEdge, beq_false_of_ne (by omega), Bool.and_false]
                    rw [edge, elsewhere]
                    rfl
                  rw [List.filter_cons_of_pos (by rw [clip_marker cut, marked]),
                    List.filter_cons_of_pos (by rw [clip_marker cut, marked]), rest, gone]
                  rfl

/-- Sorting moves the markers at the edge to the front. -/
theorem sort_clip (shaped : ∀ s ∈ segments, s.Shaped) (ordered : segments.Pairwise Precedes) :
    (segments.filterMap (clip first last)).mergeSort Segment.le =
      segments.filterMap (edge first last) ++ segments.filterMap (inner first last) := by
  have sorted : (segments.filterMap (edge first last) ++
      segments.filterMap (inner first last)).Pairwise fun a b => a.le b = true :=
    (edges_ordered shaped (inner_ordered shaped ordered) fun s member =>
      mem_inner shaped member).imp Precedes.le
  have markers : (segments.filterMap (clip first last)).filter Segment.marker =
      segments.filterMap (edge first last) ++
        (segments.filterMap (inner first last)).filter Segment.marker :=
    clip_markers shaped ordered
  have bare : (segments.filterMap (edge first last)).filter (fun s => !s.marker) = [] := by
    rw [List.filter_eq_nil_iff]
    intro t member
    obtain ⟨wrappers, rfl⟩ := mem_edges shaped member
    simp [markerAt]
  refine eq_of_sorted (List.pairwise_mergeSort le_trans le_total _) sorted ?_ ?_ ?_
  · intro t member
    obtain ⟨s, inside, cut⟩ := List.mem_filterMap.mp (List.mem_mergeSort.mp member)
    exact clip_shaped (shaped s inside) cut
  · rw [filter_mergeSort, markers, List.filter_append, edges_markers shaped]
    rw [markers]
    exact sorted.sublist (List.filter_sublist.append_left _)
  · rw [filter_mergeSort, clip_runs, List.filter_append, bare, List.nil_append]
    rw [clip_runs]
    exact sorted.sublist (List.filter_sublist.trans (List.sublist_append_right ..))

end Cut

section Join

variable {last next : Segment} {rest segments : List Segment}

/-- Segments that join are runs that touch and have equal wrappers. -/
theorem joins_cases (first : last.Shaped) (second : next.Shaped) (joins : last.joins next = true) :
    ∃ start mid stop above below, last = .run start mid above ∧ next = .run mid stop below ∧
      start < mid ∧ mid < stop ∧ (above == below) = true := by
  cases second with
  | marker position wrappers => simp at joins
  | @run mid stop below filled' =>
      cases first with
      | marker position wrappers => simp at joins
      | @run start mid' above filled =>
          rw [joins_run_run, Bool.and_eq_true, beq_iff_eq] at joins
          obtain ⟨rfl, same⟩ := joins
          exact ⟨start, mid', stop, above, below, rfl, rfl, filled, filled', same⟩

/-- Every joined run is one of the given segments, made longer. -/
theorem coalesceAfter_source (shaped : ∀ s ∈ last :: rest, s.Shaped) {t : Segment}
    (member : t ∈ coalesceAfter last rest) :
    ∃ s ∈ last :: rest, s.stop ≤ t.stop ∧ t = { s with stop := t.stop } := by
  induction rest generalizing last with
  | nil =>
      obtain rfl := List.mem_singleton.mp member
      exact ⟨t, List.mem_cons_self, Nat.le_refl _, rfl⟩
  | cons next rest ih =>
      obtain ⟨first, second, shapes⟩ : last.Shaped ∧ next.Shaped ∧ ∀ s ∈ rest, s.Shaped := by
        simpa using shaped
      by_cases joins : last.joins next = true
      · obtain ⟨start, mid, stop, above, below, rfl, rfl, filled, filled', -⟩ :=
          joins_cases first second joins
        rw [coalesceAfter_joins joins] at member
        have longer : (Segment.run start stop above).Shaped := .run (Nat.lt_trans filled filled')
        obtain ⟨s, inside, grown, same⟩ :=
          ih (List.forall_mem_cons.mpr ⟨longer, shapes⟩) member
        rcases List.mem_cons.mp inside with rfl | later
        · exact ⟨.run start mid above, List.mem_cons_self,
            Nat.le_trans (Nat.le_of_lt filled') grown, same⟩
        · exact ⟨s, List.mem_cons_of_mem _ (List.mem_cons_of_mem _ later), grown, same⟩
      · rw [coalesceAfter_parts (by simpa using joins)] at member
        rcases List.mem_cons.mp member with rfl | later
        · exact ⟨t, List.mem_cons_self, Nat.le_refl _, rfl⟩
        · obtain ⟨s, inside, grown, same⟩ :=
            ih (List.forall_mem_cons.mpr ⟨second, shapes⟩) later
          exact ⟨s, List.mem_cons_of_mem _ inside, grown, same⟩

theorem coalesceAfter_ordered (shaped : ∀ s ∈ last :: rest, s.Shaped)
    (ordered : (last :: rest).Pairwise Precedes) :
    (∀ s ∈ coalesceAfter last rest, s.Shaped) ∧ (coalesceAfter last rest).Pairwise Precedes := by
  induction rest generalizing last with
  | nil => exact ⟨shaped, ordered⟩
  | cons next rest ih =>
      obtain ⟨first, second, shapes⟩ : last.Shaped ∧ next.Shaped ∧ ∀ s ∈ rest, s.Shaped := by
        simpa using shaped
      obtain ⟨before, others⟩ := List.pairwise_cons.mp ordered
      by_cases joins : last.joins next = true
      · obtain ⟨start, mid, stop, above, below, rfl, rfl, filled, filled', -⟩ :=
          joins_cases first second joins
        obtain ⟨behind, sorted⟩ := List.pairwise_cons.mp others
        rw [coalesceAfter_joins joins]
        have longer : (Segment.run start stop above).Shaped := .run (Nat.lt_trans filled filled')
        refine ih (List.forall_mem_cons.mpr ⟨longer, shapes⟩) (.cons ?_ sorted)
        intro s member
        have precedes := (precedes_iff ..).mp (before s (List.mem_cons_of_mem _ member))
        have follows := (precedes_iff ..).mp (behind s member)
        rw [precedes_iff]
        cases shapes s member <;> simp [run, markerAt] at precedes follows ⊢ <;> omega
      · rw [coalesceAfter_parts (by simpa using joins)]
        have shapes' := List.forall_mem_cons.mpr ⟨second, shapes⟩
        obtain ⟨formed, sorted⟩ := ih shapes' others
        refine ⟨List.forall_mem_cons.mpr ⟨first, formed⟩, .cons ?_ sorted⟩
        intro t member
        obtain ⟨s, inside, grown, same⟩ := coalesceAfter_source shapes' member
        have precedes := (precedes_iff ..).mp (before s inside)
        rw [precedes_iff, same]
        refine ⟨?_, precedes.2⟩
        have order := precedes.1
        dsimp only
        omega

theorem coalesce_ordered (shaped : ∀ s ∈ segments, s.Shaped)
    (ordered : segments.Pairwise Precedes) :
    (∀ s ∈ coalesce segments, s.Shaped) ∧ (coalesce segments).Pairwise Precedes := by
  cases segments with
  | nil => exact ⟨shaped, ordered⟩
  | cons first rest => exact coalesceAfter_ordered shaped ordered

/-- Joining runs leaves markers alone. -/
theorem coalesceAfter_markers {α : Type} {f : Segment → Option α}
    (blind : ∀ s : Segment, s.marker = false → f s = none) (last : Segment)
    (rest : List Segment) :
    (coalesceAfter last rest).filterMap f = (last :: rest).filterMap f := by
  induction rest generalizing last with
  | nil => rfl
  | cons next rest ih =>
      by_cases joins : last.joins next = true
      · have plain : last.marker = false ∧ next.marker = false := by
          simp only [Segment.joins, Bool.and_eq_true, Bool.not_eq_true'] at joins
          exact ⟨joins.1.1.2, joins.1.1.1⟩
        rw [coalesceAfter_joins joins, ih, List.filterMap_cons_none (blind last plain.1),
          List.filterMap_cons_none (blind next plain.2), List.filterMap_cons_none]
        exact blind _ plain.1
      · rw [coalesceAfter_parts (by simpa using joins), List.filterMap_cons, List.filterMap_cons,
          ih]

theorem coalesce_markers {α : Type} {f : Segment → Option α}
    (blind : ∀ s : Segment, s.marker = false → f s = none) (segments : List Segment) :
    (coalesce segments).filterMap f = segments.filterMap f := by
  cases segments with
  | nil => rfl
  | cons first rest => exact coalesceAfter_markers blind first rest

theorem agree_refl (layer : Option (List Wrapper)) : Option.Rel Agree layer layer := by
  cases layer with
  | none => exact .none
  | some wrappers => exact .some (.inl rfl)

theorem agree_isSome {a b : Option (List Wrapper)} (agree : Option.Rel Agree a b) :
    a.isSome = b.isSome := by
  cases agree <;> rfl

theorem agree_trans {a b c : Option (List Wrapper)} (first : Option.Rel Agree a b)
    (second : Option.Rel Agree b c) : Option.Rel Agree a c := by
  cases first with
  | none => exact second
  | some front =>
      cases second with
      | some back => exact .some (front.trans back)

/-- Joining runs leaves each character its wrappers, or gives it others that count as equal. -/
theorem coalesceAfter_layer (shaped : ∀ s ∈ last :: rest, s.Shaped) (index : Nat) :
    Option.Rel Agree (layer? (coalesceAfter last rest) index) (layer? (last :: rest) index) := by
  induction rest generalizing last with
  | nil => exact agree_refl _
  | cons next rest ih =>
      obtain ⟨first, second, shapes⟩ : last.Shaped ∧ next.Shaped ∧ ∀ s ∈ rest, s.Shaped := by
        simpa using shaped
      by_cases joins : last.joins next = true
      · obtain ⟨start, mid, stop, above, below, rfl, rfl, filled, filled', same⟩ :=
          joins_cases first second joins
        rw [coalesceAfter_joins joins]
        have longer : (Segment.run start stop above).Shaped := .run (Nat.lt_trans filled filled')
        have whole := ih (List.forall_mem_cons.mpr ⟨longer, shapes⟩)
        refine agree_trans whole ?_
        have cut : Option.Rel Agree (layer? (.run start stop above :: rest) index)
            (layer? (.run start mid above :: .run mid stop below :: rest) index) := by
          rw [layer?_cons, layer?_cons, layer?_cons]
          simp only [covers_run]
          by_cases left : start ≤ index ∧ index < mid
          · rw [if_pos (by omega), if_pos left]
            exact .some (.inl rfl)
          · rw [if_neg left]
            by_cases right : mid ≤ index ∧ index < stop
            · rw [if_pos (by omega), if_pos right]
              exact .some (.inr same)
            · rw [if_neg (by omega), if_neg right]
              exact agree_refl _
        exact cut
      · rw [coalesceAfter_parts (by simpa using joins), layer?_cons, layer?_cons]
        split
        · exact .some (.inl rfl)
        · exact ih (List.forall_mem_cons.mpr ⟨second, shapes⟩)

theorem coalesce_layer (shaped : ∀ s ∈ segments, s.Shaped) (index : Nat) :
    Option.Rel Agree (layer? (coalesce segments) index) (layer? segments index) := by
  cases segments with
  | nil => exact agree_refl _
  | cons first rest => exact coalesceAfter_layer shaped index

end Join

/-- The segments that a range cuts out: the markers at its edge, then the others, joined. -/
def cut (first last : Nat) (segments : List Segment) : List Segment :=
  segments.filterMap (edge first last) ++ coalesce (segments.filterMap (inner first last))

section Cut

variable {first last length : Nat} {segments : List Segment}

theorem coalesce_edges (shaped : ∀ s ∈ segments, s.Shaped) (more : List Segment) :
    coalesce (segments.filterMap (edge first last) ++ more) =
      segments.filterMap (edge first last) ++ coalesce more := by
  have marked : ∀ t ∈ segments.filterMap (edge first last), ∃ wrappers, t = .markerAt 0 wrappers :=
    fun _ => mem_edges shaped
  generalize segments.filterMap (edge first last) = edges at marked
  induction edges with
  | nil => rfl
  | cons t edges ih =>
      obtain ⟨wrappers, rfl⟩ := marked t List.mem_cons_self
      have rest := ih fun t member => marked t (List.mem_cons_of_mem _ member)
      rw [List.cons_append, coalesce, coalesceAfter_marker, rest, List.cons_append]

theorem inner_covers {s : Segment} {index : Nat} (shaped : s.Shaped)
    (inside : first + index < last) :
    (inner first last s).any (fun t => t.covers index) = s.covers (first + index) := by
  cases shaped with
  | marker position wrappers =>
      rw [inner_markerAt]
      split <;> rfl
  | @run start stop wrappers filled =>
      rw [inner_run, Bool.eq_iff_iff, covers_run]
      split
      · simp only [Option.any_none, Bool.false_eq_true, false_iff]
        omega
      · rw [Option.any_some, covers_run]
        omega

/-- A character of the range has the wrappers that it has in the text. -/
theorem inner_layer (shaped : ∀ s ∈ segments, s.Shaped) {index : Nat}
    (inside : first + index < last) :
    layer? (segments.filterMap (inner first last)) index = layer? segments (first + index) := by
  induction segments with
  | nil => rfl
  | cons s segments ih =>
      obtain ⟨shape, shapes⟩ := List.forall_mem_cons.mp shaped
      have here := inner_covers shape inside
      rw [layer?_cons, List.filterMap_cons, ← ih shapes]
      cases left : inner first last s with
      | none =>
          rw [left, Option.any_none] at here
          simp [← here]
      | some t =>
          rw [left, Option.any_some] at here
          have same : t.wrappers = s.wrappers := by
            rcases inner_cases shape left with
              ⟨_, _, rfl, rfl, -⟩ | ⟨_, _, _, rfl, -, rfl, -⟩ <;> rfl
          rw [layer?_cons, here, same]

theorem edges_layer (shaped : ∀ s ∈ segments, s.Shaped) (more : List Segment) (index : Nat) :
    layer? (segments.filterMap (edge first last) ++ more) index = layer? more index := by
  have bare : (segments.filterMap (edge first last)).find? (fun s => s.covers index) = none := by
    rw [List.find?_eq_none]
    intro t member
    obtain ⟨wrappers, rfl⟩ := mem_edges shaped member
    simp
  rw [layer?, List.find?_append, bare]
  rfl

theorem cut_layer (shaped : ∀ s ∈ segments, s.Shaped) {index : Nat}
    (inside : first + index < last) :
    Option.Rel Agree (layer? (cut first last segments) index)
      (layer? segments (first + index)) := by
  rw [cut, edges_layer shaped, ← inner_layer shaped inside]
  exact coalesce_layer (fun s member => mem_inner shaped member) index

/-- Nothing is cut out behind the end of the range. -/
theorem cut_layer_beyond (shaped : ∀ s ∈ segments, s.Shaped) {index : Nat}
    (beyond : last ≤ first + index) : layer? (cut first last segments) index = none := by
  have bare : layer? (segments.filterMap (inner first last)) index = none := by
    rw [layer?, Option.map_eq_none_iff, List.find?_eq_none]
    intro t member
    obtain ⟨s, inside, left⟩ := List.mem_filterMap.mp member
    rcases inner_cases (shaped s inside) left with ⟨_, _, -, rfl, -⟩ | ⟨_, _, _, -, -, rfl, -⟩
    · simp
    · rw [covers_run]
      omega
  have shapes : ∀ t ∈ segments.filterMap (inner first last), t.Shaped :=
    fun _ => mem_inner shaped
  have same := agree_isSome (coalesce_layer shapes index)
  rw [bare] at same
  rw [cut, edges_layer shaped]
  exact Option.isNone_iff_eq_none.mp (by simpa using same)

/-- The markers that a range cuts out at one of its places. -/
theorem cut_markers (shaped : ∀ s ∈ segments, s.Shaped) (ordered : segments.Pairwise Precedes)
    (index : Nat) :
    ((cut first last segments).filter fun s => s.marker && s.start == index) =
      if first + index ≤ last then
        (segments.filter fun s => s.marker && s.start == first + index).map fun s =>
          .markerAt index s.wrappers
      else [] := by
  have joined : ((coalesce (segments.filterMap (inner first last))).filter
      fun s => s.marker && s.start == index) =
      (segments.filterMap (inner first last)).filter fun s => s.marker && s.start == index := by
    rw [← List.filterMap_eq_filter, coalesce_markers, List.filterMap_eq_filter]
    intro s plain
    simp [Option.guard, plain]
  have marked (xs : List Segment) : (xs.filter fun s => s.marker && s.start == index) =
      (xs.filter Segment.marker).filter fun s => s.start == index := by
    rw [List.filter_filter]
    simp only [Bool.and_comm]
  have whole : ((cut first last segments).filter fun s => s.marker && s.start == index) =
      (segments.filterMap (clip first last)).filter fun s => s.marker && s.start == index := by
    rw [cut, List.filter_append, joined, marked, marked, marked, clip_markers shaped ordered,
      List.filter_append, edges_markers shaped]
  have kept (s : Segment) (shape : s.Shaped) :
      (clip first last s).filter (fun t => t.marker && t.start == index) =
        if s.marker && s.start == first + index then
          if first + index ≤ last then some (.markerAt index s.wrappers) else none
        else none := by
    cases shape with
    | run filled =>
        rw [clip_run]
        split <;> rfl
    | marker position wrappers =>
        rw [clip_markerAt]
        by_cases here : position = first + index
        · subst here
          by_cases inside : first + index ≤ last <;> simp [markerAt, inside]
        · have elsewhere : (position == first + index) = false := beq_false_of_ne here
          by_cases inside : first ≤ position ∧ position ≤ last
          · have moved : ¬position - first = index := by omega
            simp [markerAt, inside, elsewhere, moved]
          · simp [markerAt, inside, elsewhere]
  rw [whole, List.filter_filterMap, List.filterMap_congr fun s member => kept s (shaped s member),
    ← List.filterMap_filter]
  by_cases inside : first + index ≤ last
  · simp only [inside, ↓reduceIte]
    exact congrFun List.filterMap_eq_map _
  · simp only [inside, ↓reduceIte]
    exact List.filterMap_eq_nil_iff.mpr fun _ _ => rfl

/-- What a range cuts out of segments in order is in order. -/
theorem Laid.cut (laid : Laid segments length) (inside : last ≤ length) :
    Laid (cut first last segments) (last - first) := by
  have sorted : (segments.filterMap (inner first last)).Pairwise Precedes :=
    inner_ordered laid.shaped laid.ordered
  obtain ⟨formed, ordered⟩ := coalesce_ordered (fun _ => mem_inner laid.shaped) sorted
  refine ⟨?_, edges_ordered laid.shaped ordered formed, ?_⟩
  · intro t member
    rcases List.mem_append.mp member with early | late
    · obtain ⟨wrappers, rfl⟩ := mem_edges laid.shaped early
      exact .marker 0 wrappers
    · exact formed t late
  · intro index within
    have around := laid.covered (first + index) (by omega)
    rw [agree_isSome (cut_layer laid.shaped (by omega))]
    exact around

/-- Merging what is left of the segments gives what the range cuts out. -/
theorem Laid.merge_clip (laid : Laid segments length) (inside : last ≤ length) :
    merge (segments.filterMap (clip first last)) (last - first) =
      Segment.cut first last segments := by
  have kept : (segments.filterMap (edge first last) ++ segments.filterMap (inner first last)).filter
      (fun s => s.marker || !s.isEmpty) =
      segments.filterMap (edge first last) ++ segments.filterMap (inner first last) := by
    rw [List.filter_eq_self]
    intro t member
    have shape : t.Shaped := by
      rcases List.mem_append.mp member with early | late
      · obtain ⟨wrappers, rfl⟩ := mem_edges laid.shaped early
        exact .marker 0 wrappers
      · exact mem_inner laid.shaped late
    cases shape with
    | marker position wrappers => rfl
    | run filled => simp [run, isEmpty, Nat.ne_of_lt filled]
  have merged : merge (segments.filterMap (clip first last)) (last - first) =
      if (Segment.cut first last segments).isEmpty && decide (0 < last - first) then
        [run 0 (last - first) []] else Segment.cut first last segments := by
    unfold merge
    rw [sort_clip laid.shaped laid.ordered, kept, coalesce_edges laid.shaped]
    rfl
  rw [merged, if_neg]
  intro bare
  rw [Bool.and_eq_true, List.isEmpty_iff, decide_eq_true_eq] at bare
  have part : Laid (Segment.cut first last segments) (last - first) := laid.cut inside
  have around := part.covered 0 bare.2
  rw [bare.1] at around
  cases around

end Cut

end Segment

end Dialogue
