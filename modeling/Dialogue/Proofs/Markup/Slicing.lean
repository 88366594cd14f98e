import Dialogue.Proofs.Markup.Layout

set_option autoImplicit false

namespace Dialogue

namespace Segment

open Markup

/-- The same place, with wrappers that are alike. -/
structure Matches (same : List Wrapper → List Wrapper → Prop) (a b : Segment) : Prop where
  start_eq : a.start = b.start
  stop_eq : a.stop = b.stop
  marker_eq : a.marker = b.marker
  wrappers : same a.wrappers b.wrappers

/-- Behind any segment, both come to matching segments when runs are joined. -/
def Resembles (xs ys : List Segment) : Prop :=
  ∀ last, List.Forall₂ (Matches Agree) (coalesceAfter last xs) (coalesceAfter last ys)

theorem Matches.refl (s : Segment) : Matches Agree s s :=
  ⟨rfl, rfl, rfl, .inl rfl⟩

theorem forall₂_matches_refl (xs : List Segment) : List.Forall₂ (Matches Agree) xs xs :=
  List.forall₂_same.mpr fun s _ => .refl s

theorem Matches.trans {a b c : Segment} (first : Matches Agree a b) (second : Matches Agree b c) :
    Matches Agree a c :=
  ⟨first.start_eq.trans second.start_eq, first.stop_eq.trans second.stop_eq,
    first.marker_eq.trans second.marker_eq, first.wrappers.trans second.wrappers⟩

theorem forall₂_matches_trans {xs ys zs : List Segment}
    (first : List.Forall₂ (Matches Agree) xs ys) (second : List.Forall₂ (Matches Agree) ys zs) :
    List.Forall₂ (Matches Agree) xs zs := by
  induction first generalizing zs with
  | nil => exact second
  | cons front _ ih =>
      cases second with
      | cons front' rest' => exact .cons (front.trans front') (ih rest')

theorem coalesceAfter_congr {a b : Segment} {xs ys : List Segment} (head : Matches Agree a b)
    (tail : List.Forall₂ (Matches Agree) xs ys) :
    List.Forall₂ (Matches Agree) (coalesceAfter a xs) (coalesceAfter b ys) := by
  induction tail generalizing a b with
  | nil => exact .cons head .nil
  | @cons x y xs ys next tail ih =>
      have joins : a.joins x = b.joins y := by
        unfold Segment.joins
        rw [next.marker_eq, head.marker_eq, head.stop_eq, next.start_eq,
          head.wrappers.beq_congr next.wrappers]
      by_cases joined : b.joins y = true
      · rw [coalesceAfter_joins joined, coalesceAfter_joins (joins.trans joined)]
        exact ih ⟨head.start_eq, next.stop_eq, head.marker_eq, head.wrappers⟩
      · have parts : b.joins y = false := by simpa using joined
        rw [coalesceAfter_parts parts, coalesceAfter_parts (joins.trans parts)]
        exact .cons head (ih next)

namespace Resembles

variable {xs ys zs : List Segment}

theorem of_alike (alike : Alike xs ys) : Resembles xs ys := by
  intro last
  rw [alike last]
  exact forall₂_matches_refl _

theorem of_forall₂ (matched : List.Forall₂ (Matches Agree) xs ys) : Resembles xs ys :=
  fun last => coalesceAfter_congr (.refl last) matched

theorem trans (first : Resembles xs ys) (second : Resembles ys zs) : Resembles xs zs :=
  fun last => forall₂_matches_trans (first last) (second last)

theorem cons (s : Segment) (resembles : Resembles xs ys) : Resembles (s :: xs) (s :: ys) := by
  intro last
  by_cases joins : last.joins s = true
  · rw [coalesceAfter_joins joins, coalesceAfter_joins joins]
    exact resembles _
  · have parts : last.joins s = false := by simpa using joins
    rw [coalesceAfter_parts parts, coalesceAfter_parts parts]
    exact .cons (.refl last) (resembles s)

theorem coalesce (resembles : Resembles xs ys) :
    List.Forall₂ (Matches Agree) (coalesce xs) (coalesce ys) := by
  have whole := resembles (.markerAt 0 [])
  rw [coalesceAfter_marker, coalesceAfter_marker] at whole
  exact (List.forall₂_cons.mp whole).2

end Resembles

section Cut

variable {first last low high : Nat} {segments : List Segment}

/-- It makes no difference to a range whether two runs are joined before it is cut out. -/
theorem resembles_join {start mid stop : Nat} {above below : List Wrapper} (filled : start < mid)
    (filled' : mid < stop) (same : (above == below) = true) (rest : List Segment) :
    Resembles ((.run start stop above :: rest).filterMap (inner first last))
      ((.run start mid above :: .run mid stop below :: rest).filterMap (inner first last)) := by
  rw [List.filterMap_cons, List.filterMap_cons, List.filterMap_cons, inner_run, inner_run,
    inner_run]
  generalize rest.filterMap (inner first last) = others
  by_cases left : min mid last ≤ max start first
  · rw [if_pos left]
    by_cases right : min stop last ≤ max mid first
    · rw [if_pos right, if_pos (by omega)]
      exact .of_alike (.refl others)
    · -- What is left belongs to the second run, with the wrappers of the first.
      rw [if_neg right, if_neg (by omega)]
      have low : max start first = max mid first := by omega
      rw [low]
      exact .of_forall₂ (.cons ⟨rfl, rfl, rfl, .inr same⟩ (forall₂_matches_refl others))
  · rw [if_neg left]
    by_cases right : min stop last ≤ max mid first
    · rw [if_pos right, if_neg (by omega)]
      have high : min stop last = min mid last := by omega
      rw [high]
      exact .of_alike (.refl _)
    · rw [if_neg right, if_neg (by omega)]
      have touch : max mid first - first = min mid last - first := by omega
      rw [touch]
      exact .of_alike ((alike_cut same).append (.refl others))

theorem resembles_coalesceAfter {head : Segment} {rest : List Segment}
    (shaped : ∀ s ∈ head :: rest, s.Shaped) :
    Resembles ((coalesceAfter head rest).filterMap (inner first last))
      ((head :: rest).filterMap (inner first last)) := by
  induction rest generalizing head with
  | nil => exact .of_alike (.refl _)
  | cons next rest ih =>
      obtain ⟨shape, shape', shapes⟩ : head.Shaped ∧ next.Shaped ∧ ∀ s ∈ rest, s.Shaped := by
        simpa using shaped
      by_cases joins : head.joins next = true
      · obtain ⟨start, mid, stop, above, below, rfl, rfl, filled, filled', same⟩ :=
          joins_cases shape shape' joins
        rw [coalesceAfter_joins joins]
        have longer : (Segment.run start stop above).Shaped := .run (Nat.lt_trans filled filled')
        exact (ih (List.forall_mem_cons.mpr ⟨longer, shapes⟩)).trans
          (resembles_join filled filled' same rest)
      · have later := ih (List.forall_mem_cons.mpr ⟨shape', shapes⟩)
        rw [coalesceAfter_parts (by simpa using joins), List.filterMap_cons,
          List.filterMap_cons]
        cases inner first last head with
        | none => exact later
        | some s => exact later.cons s

theorem resembles_coalesce (shaped : ∀ s ∈ segments, s.Shaped) :
    Resembles ((coalesce segments).filterMap (inner first last))
      (segments.filterMap (inner first last)) := by
  cases segments with
  | nil => exact .of_alike (.refl _)
  | cons head rest => exact resembles_coalesceAfter shaped

end Cut

section Again

variable {first last low high length : Nat} {segments : List Segment}

/-- A marker that is at the edge now was there before, or has come to the edge. -/
theorem edge_again (shaped : ∀ s ∈ segments, s.Shaped) (range : first ≤ last) (order : low ≤ high)
    (inside : high ≤ last - first) :
    (segments.filterMap (edge first last)).filterMap (edge low high) ++
        (segments.filterMap (inner first last)).filterMap (edge low high) =
      segments.filterMap (edge (first + low) (first + high)) := by
  rw [List.filterMap_filterMap, List.filterMap_filterMap]
  by_cases still : low = 0
  · have gone : segments.filterMap (fun s => (inner first last s).bind (edge low high)) = [] := by
      rw [List.filterMap_eq_nil_iff]
      intro s member
      cases cut : inner first last s with
      | none => rfl
      | some t =>
          rcases inner_cases (shaped s member) cut with
            ⟨_, _, -, rfl, _⟩ | ⟨_, _, _, -, -, rfl, -⟩
          · rw [Option.bind_some, edge_markerAt, if_neg (by omega)]
          · rfl
    rw [gone, List.append_nil]
    refine List.filterMap_congr fun s member => ?_
    cases shaped s member with
    | run filled => rfl
    | marker position wrappers =>
        rw [edge_markerAt, edge_markerAt, still, Nat.add_zero]
        by_cases here : position = first
        · rw [if_pos ⟨here, range⟩, if_pos (by omega), Option.bind_some, edge_markerAt,
            if_pos (by omega)]
        · rw [if_neg (by omega), if_neg (by omega)]
          rfl
  · have gone : segments.filterMap (fun s => (edge first last s).bind (edge low high)) = [] := by
      rw [List.filterMap_eq_nil_iff]
      intro s member
      cases shaped s member with
      | run filled => rfl
      | marker position wrappers =>
          rw [edge_markerAt]
          split
          · rw [Option.bind_some, edge_markerAt, if_neg (by omega)]
          · rfl
    rw [gone, List.nil_append]
    refine List.filterMap_congr fun s member => ?_
    cases shaped s member with
    | @run start stop wrappers filled =>
        rw [inner_run, edge_run]
        split <;> rfl
    | marker position wrappers =>
        rw [inner_markerAt, edge_markerAt]
        by_cases here : position = first + low
        · rw [if_pos (by omega), if_pos (by omega), Option.bind_some, edge_markerAt,
            if_pos (by omega)]
        · have elsewhere : ¬(position = first + low ∧ first + low ≤ first + high) :=
            fun both => here both.1
          rw [if_neg elsewhere]
          split
          · rw [Option.bind_some, edge_markerAt, if_neg (by omega)]
          · rfl

theorem inner_again {s : Segment} (shaped : s.Shaped) (inside : high ≤ last - first) :
    (inner first last s).bind (inner low high) = inner (first + low) (first + high) s := by
  cases shaped with
  | marker position wrappers =>
      rw [inner_markerAt, inner_markerAt]
      by_cases here : first < position ∧ position ≤ last
      · rw [if_pos here, Option.bind_some, inner_markerAt]
        by_cases within : first + low < position ∧ position ≤ first + high
        · have same : position - first - low = position - (first + low) := by omega
          rw [if_pos within, if_pos (by omega), same]
        · rw [if_neg within, if_neg (by omega)]
      · rw [if_neg here, if_neg (by omega)]
        rfl
  | @run start stop wrappers filled =>
      rw [inner_run, inner_run]
      by_cases here : min stop last ≤ max start first
      · rw [if_pos here, if_pos (by omega)]
        rfl
      · rw [if_neg here, Option.bind_some, inner_run]
        by_cases within : min stop (first + high) ≤ max start (first + low)
        · rw [if_pos within, if_pos (by omega)]
        · have lower : max (max start first - first) low - low =
              max start (first + low) - (first + low) := by omega
          have upper : min (min stop last - first) high - low =
              min stop (first + high) - (first + low) := by omega
          rw [if_neg within, if_neg (by omega), lower, upper]

/-- The markers at the edge of the first range are not within the second one. -/
theorem edges_gone (shaped : ∀ s ∈ segments, s.Shaped) :
    (segments.filterMap (edge first last)).filterMap (inner low high) = [] := by
  rw [List.filterMap_eq_nil_iff]
  intro t member
  obtain ⟨wrappers, rfl⟩ := mem_edges shaped member
  rw [inner_markerAt, if_neg (by omega)]

/-- A range of what a range cuts out matches the range with moved bounds. -/
theorem cut_cut (shaped : ∀ s ∈ segments, s.Shaped) (range : first ≤ last) (order : low ≤ high)
    (inside : high ≤ last - first) :
    List.Forall₂ (Matches Agree) (cut low high (cut first last segments))
      (cut (first + low) (first + high) segments) := by
  have blind : ∀ s : Segment, s.marker = false → edge low high s = none := by
    intro s plain
    rw [edge, atEdge, plain]
    rfl
  have shapes : ∀ t ∈ segments.filterMap (inner first last), t.Shaped :=
    fun _ => mem_inner shaped
  have joined : Resembles ((coalesce (segments.filterMap (inner first last))).filterMap
      (inner low high)) ((segments.filterMap (inner first last)).filterMap (inner low high)) :=
    resembles_coalesce shapes
  have moved : (segments.filterMap (inner first last)).filterMap (inner low high) =
      segments.filterMap (inner (first + low) (first + high)) := by
    rw [List.filterMap_filterMap]
    exact List.filterMap_congr fun s member => inner_again (shaped s member) inside
  rw [moved] at joined
  have edges : (cut first last segments).filterMap (edge low high) =
      segments.filterMap (edge (first + low) (first + high)) := by
    rw [cut, List.filterMap_append, coalesce_markers blind, edge_again shaped range order inside]
  have others : (cut first last segments).filterMap (inner low high) =
      (coalesce (segments.filterMap (inner first last))).filterMap (inner low high) := by
    rw [cut, List.filterMap_append, edges_gone shaped, List.nil_append]
  have whole : cut low high (cut first last segments) =
      segments.filterMap (edge (first + low) (first + high)) ++
        coalesce ((coalesce (segments.filterMap (inner first last))).filterMap
          (inner low high)) := by
    rw [← edges, ← others]
    rfl
  rw [whole]
  exact List.rel_append (forall₂_matches_refl _) joined.coalesce

end Again

section Tiling

variable {start stop first last low high : Nat} {segments : List Segment}

theorem Tiles.shaped (tiles : Tiles start segments stop) : ∀ s ∈ segments, s.Shaped := by
  intro s member
  exact (shaped_iff s).mpr ⟨tiles.filled member, fun marked => (tiles.anchored member marked).1⟩

/-- A run that is cut out starts where the tiling does, or later, and before the range ends. -/
theorem Tiles.inner_start (tiles : Tiles start segments stop) {t : Segment}
    (member : t ∈ segments.filterMap (inner first last)) (plain : t.marker = false) :
    start ≤ first + t.start ∧ first + t.start < last := by
  obtain ⟨s, inside, left⟩ := List.mem_filterMap.mp member
  have bounds := tiles.bounds inside
  rcases inner_cases (tiles.shaped s inside) left with
    ⟨_, _, -, rfl, -⟩ | ⟨_, _, _, rfl, -, rfl, room⟩
  · cases plain
  · obtain ⟨here, -, -⟩ := bounds
    dsimp only [Segment.run] at here ⊢
    omega

/-- No range of a tiling brings together runs that join: between two runs that join there is a
marker, and the range keeps it. -/
theorem Tiles.inner_unjoined (tiles : Tiles start segments stop)
    (unjoined : segments.IsChain fun a b => a.joins b = false) :
    ((segments.filterMap (inner first last)).IsChain fun a b => a.joins b = false) ∧
      ∀ t ∈ (segments.filterMap (inner first last)).head?, t.marker = false → first < start →
        first + t.start = start →
        ∃ stop, segments.head? = some (.run start stop t.wrappers) := by
  induction tiles with
  | nil => exact ⟨.nil, nofun⟩
  | @run start mid stop wrappers rest filled tiles ih =>
      obtain ⟨parted, begins⟩ := ih unjoined.tail
      rw [List.filterMap_cons]
      cases left : inner first last (.run start mid wrappers) with
      | none =>
          refine ⟨parted, ?_⟩
          intro t head plain inside here
          have late := (tiles.inner_start (List.mem_of_mem_head? head) plain).1
          omega
      | some t =>
          rw [inner_run, Option.ite_none_left_eq_some] at left
          obtain ⟨room, shape⟩ := left
          obtain rfl := Option.some.inj shape
          constructor
          · rw [List.isChain_cons]
            refine ⟨?_, parted⟩
            intro t head
            cases marked : t.marker with
            | true => simp [Segment.joins, marked]
            | false =>
                rw [← Bool.not_eq_true]
                intro joins
                obtain ⟨late, early⟩ := tiles.inner_start (List.mem_of_mem_head? head) marked
                simp only [Segment.joins, Bool.and_eq_true, beq_iff_eq] at joins
                obtain ⟨⟨-, touch⟩, same⟩ := joins
                dsimp only [Segment.run] at touch same
                obtain ⟨stop', next⟩ := begins t head marked (by omega) (by omega)
                have parts := (List.isChain_cons.mp unjoined).1 _ next
                rw [joins_run_run, same, beq_self_eq_true] at parts
                cases parts
          · intro t head plain inside here
            obtain rfl := Option.some.inj head
            exact ⟨mid, rfl⟩
  | @marker start stop wrapper rest tiles ih =>
      obtain ⟨parted, -⟩ := ih unjoined.tail
      rw [List.filterMap_cons, inner_markerAt]
      by_cases kept : first < start ∧ start ≤ last
      · rw [if_pos kept]
        refine ⟨List.isChain_cons.mpr ⟨fun t _ => by simp [Segment.joins, markerAt], parted⟩, ?_⟩
        intro t head plain
        obtain rfl := Option.some.inj head
        cases plain
      · rw [if_neg kept]
        refine ⟨parted, ?_⟩
        intro t head plain inside here
        have early := (tiles.inner_start (List.mem_of_mem_head? head) plain).2
        omega

theorem Tiles.coalesce_inner (tiles : Tiles start segments stop)
    (unjoined : segments.IsChain fun a b => a.joins b = false) (first last : Nat) :
    coalesce (segments.filterMap (inner first last)) = segments.filterMap (inner first last) :=
  coalesce_of_unjoined (tiles.inner_unjoined unjoined).1

/-- In a tiling, a character of the range has exactly the wrappers that it has in the text. -/
theorem Tiles.cut_layer (tiles : Tiles start segments stop)
    (unjoined : segments.IsChain fun a b => a.joins b = false) {index : Nat}
    (inside : first + index < last) :
    layer? (cut first last segments) index = layer? segments (first + index) := by
  rw [cut, edges_layer tiles.shaped, tiles.coalesce_inner unjoined, inner_layer tiles.shaped inside]

theorem Tiles.cut_cut (tiles : Tiles start segments stop)
    (unjoined : segments.IsChain fun a b => a.joins b = false) (range : first ≤ last)
    (order : low ≤ high) (inside : high ≤ last - first) :
    cut low high (cut first last segments) = cut (first + low) (first + high) segments := by
  have moved : (segments.filterMap (inner first last)).filterMap (inner low high) =
      segments.filterMap (inner (first + low) (first + high)) := by
    rw [List.filterMap_filterMap]
    exact List.filterMap_congr fun s member => inner_again (tiles.shaped s member) inside
  rw [cut, cut, cut, tiles.coalesce_inner unjoined, List.filterMap_append, List.filterMap_append,
    edge_again tiles.shaped range order inside, edges_gone tiles.shaped, List.nil_append, moved]

end Tiling

end Segment

namespace Markup

open Segment

variable {m : Markup}

/-- Where a range starts, in the text at the latest. -/
def cutStart (m : Markup) (start : Nat) : Nat :=
  min start m.text.length

/-- Where a range ends: in the text, and not before it starts. -/
def cutStop (m : Markup) (start : Nat) (stop : Option Nat) : Nat :=
  match stop with
  | some stop => max (m.cutStart start) (min stop m.text.length)
  | none => m.text.length

theorem cutStart_le_cutStop (m : Markup) (start : Nat) (stop : Option Nat) :
    m.cutStart start ≤ m.cutStop start stop := by
  cases stop with
  | none => exact Nat.min_le_right ..
  | some stop => exact Nat.le_max_left ..

theorem cutStop_le (m : Markup) (start : Nat) (stop : Option Nat) :
    m.cutStop start stop ≤ m.text.length := by
  cases stop with
  | none => exact Nat.le_refl _
  | some stop => exact Nat.max_le.mpr ⟨Nat.min_le_right .., Nat.min_le_right ..⟩

theorem slice_eq (m : Markup) (start : Nat) (stop : Option Nat) :
    m.slice start stop =
      ⟨String.ofList
          ((m.text.toList.drop (m.cutStart start)).take (m.cutStop start stop - m.cutStart start)),
        Segment.merge (m.segments.filterMap (clip (m.cutStart start) (m.cutStop start stop)))
          (m.cutStop start stop - m.cutStart start)⟩ := by
  simp only [slice, String.length_toList]
  cases stop <;> rfl

theorem slice_text (m : Markup) (start : Nat) (stop : Option Nat) :
    (m.slice start stop).text.toList =
      (m.text.toList.drop (m.cutStart start)).take (m.cutStop start stop - m.cutStart start) := by
  rw [slice_eq, String.toList_ofList]

theorem slice_length (m : Markup) (start : Nat) (stop : Option Nat) :
    (m.slice start stop).text.length = m.cutStop start stop - m.cutStart start := by
  have room := m.cutStop_le start stop
  rw [← String.length_toList, slice_text, List.length_take, List.length_drop, String.length_toList]
  omega

theorem WellFormed.laid (formed : m.WellFormed) : Laid m.segments m.text.length where
  shaped s member := (shaped_iff s).mpr
    ⟨formed.filled s member, fun marked => (formed.anchored s member marked).1⟩
  ordered := by
    have apart := List.pairwise_filter.mp formed.apart
    refine (formed.sorted.and apart).imp ?_
    intro a b both
    rw [precedes_iff]
    exact ⟨both.1, fun first second => both.2 (by simp [first]) (by simp [second])⟩
  covered index inside := by
    have around := (formed.covered index).mpr inside
    rw [layer?, Option.isSome_map, List.find?_isSome]
    exact around

theorem slice_segments (laid : Laid m.segments m.text.length) (start : Nat) (stop : Option Nat) :
    (m.slice start stop).segments =
      cut (m.cutStart start) (m.cutStop start stop) m.segments := by
  rw [slice_eq]
  exact laid.merge_clip (m.cutStop_le start stop)

/-- The second text is the first from one character up to another, with its formatting. -/
structure Excerpt (same : List Wrapper → List Wrapper → Prop) (m : Markup) (first last : Nat)
    (part : Markup) : Prop where
  text : part.text.toList = (m.text.toList.drop first).take (last - first)
  wrappers : ∀ index, first + index < last →
    same (part.wrappersAt index) (m.wrappersAt (first + index))
  markers : ∀ index, first + index ≤ last →
    part.markersAt index = (m.markersAt (first + index)).map fun s => .markerAt index s.wrappers
  /-- There is nothing behind the end. -/
  bare : ∀ index, last ≤ first + index → part.wrappersAt index = []
  unmarked : ∀ index, last < first + index → part.markersAt index = []

theorem wrappersAt_eq_layer (m : Markup) (index : Nat) :
    m.wrappersAt index = (layer? m.segments index).getD [] := rfl

theorem agree_getD {a b : Option (List Wrapper)} (agree : Option.Rel Agree a b) :
    Agree (a.getD []) (b.getD []) := by
  cases agree with
  | none => exact .inl rfl
  | some same => exact same

theorem slice_excerpt (formed : m.WellFormed) (start : Nat) (stop : Option Nat) :
    Excerpt Agree m (m.cutStart start) (m.cutStop start stop) (m.slice start stop) := by
  have shaped := formed.laid.shaped
  have ordered := formed.laid.ordered
  have cutOut := slice_segments formed.laid start stop
  refine ⟨m.slice_text start stop, ?_, ?_, ?_, ?_⟩
  · intro index inside
    rw [wrappersAt_eq_layer, wrappersAt_eq_layer, cutOut]
    exact agree_getD (cut_layer shaped inside)
  · intro index inside
    rw [markersAt, cutOut, cut_markers shaped ordered, if_pos inside]
    rfl
  · intro index beyond
    rw [wrappersAt_eq_layer, cutOut, cut_layer_beyond shaped beyond]
    rfl
  · intro index beyond
    rw [markersAt, cutOut, cut_markers shaped ordered, if_neg (by omega)]

theorem WellFormed.clip_self (formed : m.WellFormed) {s : Segment} (member : s ∈ m.segments) :
    clip 0 m.text.length s = some s := by
  cases formed.laid.shaped s member with
  | marker position wrappers =>
      have inside := (formed.anchored _ member rfl).2.1
      have within : (decide (0 ≤ position) && decide (position ≤ m.text.length)) = true := by
        simpa [markerAt] using inside
      rw [clip_markerAt, if_pos within]
      rfl
  | @run start stop wrappers filled =>
      have inside : stop - 1 < m.text.length :=
        (formed.covered _).mp ⟨_, member, (covers_run ..).mpr (by omega)⟩
      have low : max start 0 - 0 = start := by omega
      have high : min stop m.text.length - 0 = stop := by omega
      rw [clip_run, if_neg (by omega), low, high]

theorem WellFormed.unjoined (formed : m.WellFormed) :
    m.segments.IsChain fun a b => a.joins b = false := by
  refine formed.maximal.imp ?_
  intro a b differ
  rw [← Bool.not_eq_true]
  intro joins
  simp only [Segment.joins, Bool.and_eq_true, Bool.not_eq_true'] at joins
  rw [differ joins.1.1.2 joins.1.1.1] at joins
  cases joins.2

/-- The segments of a text are in the form that merging gives them. -/
theorem WellFormed.merge_self (formed : m.WellFormed) :
    Segment.merge m.segments m.text.length = m.segments := by
  have sorted : m.segments.Pairwise fun a b => a.le b = true :=
    formed.laid.ordered.imp Precedes.le
  have kept : m.segments.filter (fun s => s.marker || !s.isEmpty) = m.segments := by
    rw [List.filter_eq_self]
    intro s member
    cases formed.laid.shaped s member with
    | marker position wrappers => rfl
    | run filled => simp [run, isEmpty, Nat.ne_of_lt filled]
  have merged : Segment.merge m.segments m.text.length =
      if m.segments.isEmpty && decide (0 < m.text.length) then [run 0 m.text.length []]
      else m.segments := by
    unfold Segment.merge
    rw [List.mergeSort_of_pairwise sorted, kept, coalesce_of_unjoined formed.unjoined]
  rw [merged, if_neg]
  intro bare
  rw [Bool.and_eq_true, List.isEmpty_iff, decide_eq_true_eq] at bare
  have around := formed.laid.covered 0 bare.2
  rw [bare.1] at around
  cases around

/-- The range that leaves out no character is the text itself. -/
theorem slice_whole (formed : m.WellFormed) {start : Nat} {stop : Option Nat}
    (first : m.cutStart start = 0) (last : m.cutStop start stop = m.text.length) :
    m.slice start stop = m := by
  have kept : m.segments.filterMap (clip 0 m.text.length) = m.segments := by
    rw [List.filterMap_congr fun s member => formed.clip_self member, List.filterMap_some]
  rw [slice_eq, first, last, Nat.sub_zero, kept, formed.merge_self, List.drop_zero,
    ← String.length_toList, List.take_length, String.ofList_toList]

/-- The same text, with segments that match one by one. -/
structure Matches (same : List Wrapper → List Wrapper → Prop) (m n : Markup) : Prop where
  text : m.text = n.text
  segments : List.Forall₂ (Segment.Matches same) m.segments n.segments

theorem cutStart_add (m : Markup) (start : Nat) (stop : Option Nat) {low : Nat}
    (inside : low ≤ m.cutStop start stop - m.cutStart start) :
    m.cutStart (m.cutStart start + low) = m.cutStart start + low := by
  have room := m.cutStop_le start stop
  have order := m.cutStart_le_cutStop start stop
  rw [cutStart]
  omega

theorem cutStop_add (m : Markup) (start : Nat) (stop : Option Nat) {low high : Nat}
    (order : low ≤ high) (inside : high ≤ m.cutStop start stop - m.cutStart start) :
    m.cutStop (m.cutStart start + low) (some (m.cutStart start + high)) =
      m.cutStart start + high := by
  have room := m.cutStop_le start stop
  have range := m.cutStart_le_cutStop start stop
  rw [cutStop, m.cutStart_add start stop (Nat.le_trans order inside)]
  omega

/-- The characters of a range of a range. -/
theorem slice_slice_text (m : Markup) (start start' : Nat) (stop stop' : Option Nat) :
    ((m.slice start stop).slice start' stop').text =
      (m.slice (m.cutStart start + (m.slice start stop).cutStart start')
        (some (m.cutStart start + (m.slice start stop).cutStop start' stop'))).text := by
  have order := (m.slice start stop).cutStart_le_cutStop start' stop'
  have inside := (m.slice start stop).cutStop_le start' stop'
  rw [slice_length] at inside
  rw [← String.toList_inj, slice_text, slice_text, slice_text,
    m.cutStart_add start stop (Nat.le_trans order inside), m.cutStop_add start stop order inside,
    Nat.add_sub_add_left, List.drop_take, List.take_take, List.drop_drop]
  congr 1
  omega

theorem slice_laid (laid : Laid m.segments m.text.length) (start : Nat) (stop : Option Nat) :
    Laid (m.slice start stop).segments (m.slice start stop).text.length := by
  rw [slice_segments laid, slice_length]
  exact laid.cut (m.cutStop_le start stop)

theorem slice_slice_segments (laid : Laid m.segments m.text.length) (start start' : Nat)
    (stop stop' : Option Nat) :
    ((m.slice start stop).slice start' stop').segments =
        cut ((m.slice start stop).cutStart start') ((m.slice start stop).cutStop start' stop')
          (cut (m.cutStart start) (m.cutStop start stop) m.segments) ∧
      (m.slice (m.cutStart start + (m.slice start stop).cutStart start')
        (some (m.cutStart start + (m.slice start stop).cutStop start' stop'))).segments =
        cut (m.cutStart start + (m.slice start stop).cutStart start')
          (m.cutStart start + (m.slice start stop).cutStop start' stop') m.segments := by
  have order := (m.slice start stop).cutStart_le_cutStop start' stop'
  have inside := (m.slice start stop).cutStop_le start' stop'
  rw [slice_length] at inside
  constructor
  · rw [slice_segments (slice_laid laid start stop), slice_segments laid]
  · rw [slice_segments laid, m.cutStart_add start stop (Nat.le_trans order inside),
      m.cutStop_add start stop order inside]

/-- A range of a range is a range of the text. -/
theorem slice_slice (laid : Laid m.segments m.text.length) (start start' : Nat)
    (stop stop' : Option Nat) :
    Matches Agree ((m.slice start stop).slice start' stop')
      (m.slice (m.cutStart start + (m.slice start stop).cutStart start')
        (some (m.cutStart start + (m.slice start stop).cutStop start' stop'))) := by
  have inside := (m.slice start stop).cutStop_le start' stop'
  rw [slice_length] at inside
  obtain ⟨inner, outer⟩ := slice_slice_segments laid start start' stop stop'
  refine ⟨m.slice_slice_text start start' stop stop', ?_⟩
  rw [inner, outer]
  exact cut_cut laid.shaped (m.cutStart_le_cutStop start stop)
    ((m.slice start stop).cutStart_le_cutStop start' stop') inside

/-- With the very same wrappers, markups match only if they are the same. -/
theorem matches_eq_iff {m n : Markup} : Matches Eq m n ↔ m = n := by
  constructor
  · intro matched
    have equal : List.Forall₂ (· = ·) m.segments n.segments := by
      refine matched.segments.imp ?_
      rintro ⟨start, stop, wrappers, marker⟩ ⟨_, _, _, _⟩ ⟨rfl, rfl, rfl, rfl⟩
      rfl
    rw [List.forall₂_eq_eq_eq] at equal
    cases m
    cases n
    exact congrArg₂ Markup.mk matched.text equal
  · rintro rfl
    exact ⟨rfl, List.forall₂_same.mpr fun s _ => ⟨rfl, rfl, rfl, rfl⟩⟩

/-- What ranges of a text are, for any bounds. -/
structure SlicingLaws (same : List Wrapper → List Wrapper → Prop) (m : Markup) : Prop where
  excerpt : ∀ start stop,
    Excerpt same m (m.cutStart start) (m.cutStop start stop) (m.slice start stop)
  whole : ∀ start stop, m.cutStart start = 0 → m.cutStop start stop = m.text.length →
    m.slice start stop = m
  again : ∀ start stop start' stop',
    Matches same ((m.slice start stop).slice start' stop')
      (m.slice (m.cutStart start + (m.slice start stop).cutStart start')
        (some (m.cutStart start + (m.slice start stop).cutStop start' stop')))

theorem slicingLaws_agree (formed : m.WellFormed) : SlicingLaws Agree m where
  excerpt start stop := slice_excerpt formed start stop
  whole _ _ first last := slice_whole formed first last
  again start stop start' stop' := slice_slice formed.laid start start' stop stop'

theorem slicingLaws_eq (tiled : m.Tiled) : SlicingLaws Eq m where
  excerpt start stop := by
    obtain ⟨text, -, markers, bare, unmarked⟩ := slice_excerpt tiled.wellFormed start stop
    refine ⟨text, ?_, markers, bare, unmarked⟩
    intro index inside
    rw [wrappersAt_eq_layer, wrappersAt_eq_layer, slice_segments tiled.wellFormed.laid,
      tiled.tiles.cut_layer tiled.unjoined inside]
  whole _ _ first last := slice_whole tiled.wellFormed first last
  again start stop start' stop' := by
    have inside := (m.slice start stop).cutStop_le start' stop'
    rw [slice_length] at inside
    obtain ⟨inner, outer⟩ := slice_slice_segments tiled.wellFormed.laid start start' stop stop'
    have same := tiled.tiles.cut_cut tiled.unjoined (m.cutStart_le_cutStop start stop)
      ((m.slice start stop).cutStart_le_cutStop start' stop') inside
    rw [matches_eq_iff, Markup.mk.injEq]
    exact ⟨m.slice_slice_text start start' stop stop', by rw [inner, outer, same]⟩

/-- A range of a text has the characters, wrappers and markers of its part of the text, the whole
range is the text, and a range of a range is a range. Where a marker stands inside a run, wrappers
may be replaced by others that count as equal. -/
theorem slicing_laws (formed : m.WellFormed) :
    SlicingLaws Agree m ∧ (m.Tiled → SlicingLaws Eq m) :=
  ⟨slicingLaws_agree formed, slicingLaws_eq⟩

/-- Bold text and a break, then text without formatting. -/
def banner : Markup :=
  ofItems (Item.literal [.named "b" ∅] "Hello".toList ++ .marker (.named "br" ∅) ::
    Item.literal [] "there".toList)

theorem banner_slices :
    banner.WellFormed ∧ banner.Tiled ∧ banner.slice 0 (some 99) = banner ∧
      (banner.slice 3 (some 8)).slice 1 none = banner.slice 4 (some 8) := by
  have tiled : banner.Tiled := ofItems_tiled _
  have laws := (slicing_laws tiled.wellFormed).2 tiled
  have part := matches_eq_iff.mp (laws.again 3 (some 8) 1 none)
  exact ⟨tiled.wellFormed, tiled, laws.whole 0 (some 99) (by decide) (by decide), part⟩

end Markup

end Dialogue
