import Dialogue.Proofs.Interpolation.Cells

set_option autoImplicit false

namespace Dialogue

namespace Segment

/-- Segments that follow one another and leave nothing out are a tiling. -/
theorem tiles_of_apart {start stop : Nat} {segments : List Segment} (room : start ≤ stop)
    (after : ∀ s ∈ segments, start ≤ s.start)
    (filled : ∀ s ∈ segments, s.marker = false → s.start < s.stop)
    (anchored : ∀ s ∈ segments, s.marker = true →
      s.start = s.stop ∧ s.stop ≤ stop ∧ s.wrappers.length = 1)
    (covered : ∀ index, start ≤ index →
      ((∃ s ∈ segments, s.covers index = true) ↔ index < stop))
    (apart : segments.Pairwise fun a b => a.stop ≤ b.start) : Tiles start segments stop := by
  induction segments generalizing start with
  | nil =>
      have reached : ¬start < stop := fun inside => by
        simpa using (covered start (Nat.le_refl _)).mpr inside
      obtain rfl : start = stop := by omega
      exact .nil
  | cons first rest ih =>
      obtain ⟨behind, apart⟩ := List.pairwise_cons.mp apart
      have lower := after first List.mem_cons_self
      have upper : first.start ≤ first.stop ∧ first.stop ≤ stop := by
        cases marked : first.marker with
        | true =>
            obtain ⟨anchor, inside, -⟩ := anchored first List.mem_cons_self marked
            omega
        | false =>
            have holds := filled first List.mem_cons_self marked
            have last := (covered (first.stop - 1) (by omega)).mp
              ⟨first, List.mem_cons_self, (covers_iff ..).mpr ⟨marked, by omega, by omega⟩⟩
            omega
      -- Nothing behind the first segment reaches back to `start`.
      have begins : first.start = start := by
        by_contra gap
        obtain ⟨s, member, covers⟩ := (covered start (Nat.le_refl _)).mpr (by omega)
        have inside := (covers_iff ..).mp covers
        rcases List.mem_cons.mp member with rfl | later
        · omega
        · have := behind s later
          omega
      have tiles : Tiles first.stop rest stop := by
        refine ih upper.2 behind (fun s member => filled s (List.mem_cons_of_mem _ member))
          (fun s member => anchored s (List.mem_cons_of_mem _ member)) ?_ apart
        intro index beyond
        have missed : ¬first.covers index = true := by
          rw [covers_iff]
          omega
        rw [← covered index (by omega)]
        simp [missed]
      obtain ⟨low, high, wrappers, marker⟩ := first
      obtain rfl : low = start := begins
      cases marker with
      | true =>
          obtain ⟨anchor, -, single⟩ := anchored _ List.mem_cons_self rfl
          obtain ⟨wrapper, rfl⟩ := List.length_eq_one_iff.mp single
          obtain rfl : low = high := anchor
          exact .marker tiles
      | false => exact .run (filled _ List.mem_cons_self rfl) tiles

end Segment

namespace Markup

open Segment

/-- Markup that can be told from its characters and markers one by one. -/
structure Solid (m : Markup) : Prop where
  /-- No marker stands inside a run. -/
  apart : m.segments.Pairwise fun a b => a.stop ≤ b.start
  /-- The wrappers of a run with several characters equal themselves. -/
  uniform : ∀ s ∈ m.segments, s.marker = false → s.start + 1 < s.stop →
    (s.wrappers == s.wrappers) = true

theorem Solid.tiled {m : Markup} (solid : m.Solid) (formed : m.WellFormed) : m.Tiled where
  tiles := by
    refine tiles_of_apart (Nat.zero_le _) (fun _ _ => Nat.zero_le _) formed.filled formed.anchored
      (fun index _ => formed.covered index) solid.apart
  unjoined := by
    refine formed.maximal.imp ?_
    intro a b differ
    rw [Bool.eq_false_iff]
    intro joined
    simp only [joins, Bool.and_eq_true, Bool.not_eq_true'] at joined
    obtain ⟨⟨⟨second, first⟩, -⟩, equal⟩ := joined
    rw [differ first second] at equal
    cases equal

/-- A run that shows several characters has wrappers that equal those of the others, and so
themselves. -/
theorem Shows.uniform {start stop : Nat} {segments : List Segment} {items : List Item}
    (shown : Shows start segments items stop) {s : Segment} (member : s ∈ segments)
    (plain : s.marker = false) (several : s.start + 1 < s.stop) :
    (s.wrappers == s.wrappers) = true := by
  induction shown with
  | nil => cases member
  | @run start stop wrappers c more rest items same next ih =>
      rcases List.mem_cons.mp member with rfl | inside
      · have another : 0 < more.length := by
          have width : start + 1 < start + 1 + more.length := several
          omega
        have equal := same _ (List.getElem_mem another)
        cases shape : more[0] with
        | char d own =>
            rw [shape] at equal
            exact BEq.trans equal (BEq.symm equal)
        | marker wrapper =>
            rw [shape] at equal
            cases equal
      · exact ih inside
  | marker _ ih =>
      rcases List.mem_cons.mp member with rfl | inside
      · cases plain
      · exact ih inside

theorem solid_ofItems (items : List Item) : (ofItems items).Solid :=
  ⟨(ofItems_tiled items).tiles.apart, fun _ member => (shows_ofItems items).uniform member⟩

end Markup

namespace Interpolation

open Markup

variable {text : String} {segments rest : List Segment}

/-- At a covered position there is nothing nearer than the position itself. -/
theorem wrappersNear_of_covered {m : Markup} {index : Nat}
    (covered : ∃ s ∈ m.segments, s.covers index = true) :
    wrappersNear m index = m.wrappersAt index := by
  obtain ⟨s, found⟩ := Option.isSome_iff_exists.mp
    (List.find?_isSome.mpr covered : (m.segments.find? fun s => s.covers index).isSome)
  have nearest : (List.range (index + 1)).reverse.findSome?
      (fun i => m.segments.find? fun s => s.covers i) = some s := by
    rw [List.range_succ, List.reverse_append, List.reverse_singleton, List.singleton_append,
      List.findSome?_cons, found]
  rw [wrappersAt, found]
  simp only [wrappersNear, nearest]
  rfl

theorem wrappersNear_marker (position index : Nat) (wrappers : List Wrapper) :
    wrappersNear ⟨text, .markerAt position wrappers :: rest⟩ index =
      wrappersNear ⟨text, rest⟩ index := rfl

theorem markerItems_run (start stop low high : Nat) (wrappers : List Wrapper) :
    markerItems ⟨text, .run start stop wrappers :: rest⟩ low high =
      markerItems ⟨text, rest⟩ low high := rfl

theorem markerItems_inside {position low high : Nat} (lower : low ≤ position)
    (upper : position < high) (wrapper : Wrapper) :
    markerItems ⟨text, .markerAt position [wrapper] :: rest⟩ low high =
      .marker wrapper :: markerItems ⟨text, rest⟩ low high := by
  unfold markerItems
  rw [List.filter_cons_of_pos (by simp [Segment.markerAt, lower, upper])]
  rfl

theorem markerItems_before {position low high : Nat} (earlier : position < low)
    (wrappers : List Wrapper) :
    markerItems ⟨text, .markerAt position wrappers :: rest⟩ low high =
      markerItems ⟨text, rest⟩ low high := by
  unfold markerItems
  rw [List.filter_cons_of_neg]
  rw [Bool.and_eq_true, Bool.and_eq_true, decide_eq_true_eq, decide_eq_true_eq]
  exact fun inside => absurd inside.1.2 (Nat.not_le_of_lt earlier)

theorem markerItems_beyond {m : Markup} {low high : Nat}
    (beyond : ∀ s ∈ m.segments, high ≤ s.start) : markerItems m low high = [] := by
  unfold markerItems
  rw [List.filter_eq_nil_iff.mpr, List.flatMap_nil]
  intro s member
  have := beyond s member
  simp only [Bool.and_eq_true, decide_eq_true_eq]
  omega

/-- Literal text with equal formatting from some place on shows the same from there on. -/
theorem literalItems_congr {m n : Markup} {index : Nat} {cs : List Char}
    (marked : ∀ i, index ≤ i → markerItems m i (i + 1) = markerItems n i (i + 1))
    (around : ∀ i, index ≤ i → i < index + cs.length → wrappersNear m i = wrappersNear n i) :
    literalItems m index cs = literalItems n index cs := by
  induction cs generalizing index with
  | nil => rfl
  | cons c cs ih =>
      rw [List.length_cons] at around
      rw [literalItems, literalItems, marked index (Nat.le_refl _),
        around index (Nat.le_refl _) (by omega), ih (fun i later => marked i (by omega))
          (fun i later inside => around i (by omega) (by omega))]

/-- Literal text inside a run. -/
theorem literalItems_unmarked {m : Markup} {index : Nat} {cs : List Char} {wrappers : List Wrapper}
    (unmarked : ∀ i, index ≤ i → i < index + cs.length → markerItems m i (i + 1) = [])
    (around : ∀ i, index ≤ i → i < index + cs.length → wrappersNear m i = wrappers) :
    literalItems m index cs = Markup.Item.literal wrappers cs := by
  induction cs generalizing index with
  | nil => rfl
  | cons c cs ih =>
      rw [List.length_cons] at unmarked around
      rw [literalItems, unmarked index (Nat.le_refl _) (by omega),
        around index (Nat.le_refl _) (by omega),
        ih (fun i later inside => unmarked i (by omega) (by omega))
          (fun i later inside => around i (by omega) (by omega))]
      rfl

/-- What literal text from `index` on shows, with the markers at its end. -/
def spelled (m : Markup) (index : Nat) (cs : List Char) : List Markup.Item :=
  literalItems m index cs ++ markerItems m (index + cs.length) (index + cs.length + 1)

theorem spelled_marker (start : Nat) (wrapper : Wrapper) (cs : List Char) :
    spelled ⟨text, .markerAt start [wrapper] :: rest⟩ start cs =
      .marker wrapper :: spelled ⟨text, rest⟩ start cs := by
  cases cs with
  | nil =>
      unfold spelled
      rw [markerItems_inside (by simp) (by simp)]
      rfl
  | cons c cs =>
      have later : literalItems ⟨text, .markerAt start [wrapper] :: rest⟩ (start + 1) cs =
          literalItems ⟨text, rest⟩ (start + 1) cs :=
        literalItems_congr (fun i behind => markerItems_before behind [wrapper]) (fun _ _ _ => rfl)
      unfold spelled
      rw [literalItems, literalItems, later, wrappersNear_marker,
        markerItems_inside (Nat.le_refl _) (Nat.lt_succ_self _),
        markerItems_before (by simp)]
      rfl

theorem spelled_run {start mid stop : Nat} (tiles : Segment.Tiles mid rest stop)
    (wrappers : List Wrapper) {front back : List Char} (width : start + front.length = mid)
    (length : mid + back.length = stop) :
    spelled ⟨text, .run start mid wrappers :: rest⟩ start (front ++ back) =
      Markup.Item.literal wrappers front ++ spelled ⟨text, rest⟩ mid back := by
  have inside : literalItems ⟨text, .run start mid wrappers :: rest⟩ start front =
      Markup.Item.literal wrappers front := by
    refine literalItems_unmarked ?_ ?_
    · intro i _ upper
      rw [markerItems_run]
      refine markerItems_beyond fun s member => ?_
      have := tiles.bounds member
      omega
    · intro i lower upper
      have covers : (Segment.run start mid wrappers).covers i = true :=
        (Segment.covers_run ..).mpr (by omega)
      rw [wrappersNear_of_covered ⟨_, List.mem_cons_self, covers⟩, wrappersAt,
        List.find?_cons_of_pos (by exact covers)]
      rfl
  have behind : literalItems ⟨text, .run start mid wrappers :: rest⟩ mid back =
      literalItems ⟨text, rest⟩ mid back := by
    refine literalItems_congr (fun _ _ => markerItems_run ..) ?_
    intro i lower upper
    have covered := (tiles.covered i).mpr (by omega)
    have beyond : ¬(Segment.run start mid wrappers).covers i = true := by
      rw [Segment.covers_run]
      omega
    obtain ⟨s, member, covers⟩ := covered
    rw [wrappersNear_of_covered ⟨s, List.mem_cons_of_mem _ member, covers⟩,
      wrappersNear_of_covered ⟨s, member, covers⟩, wrappersAt, wrappersAt,
      List.find?_cons_of_neg (by exact beyond)]
  unfold spelled
  rw [literalItems_append, inside, width, behind, List.length_append, ← Nat.add_assoc, width,
    markerItems_run, List.append_assoc]

/-- The segments of a tiling show what is spelled out from them. -/
theorem shows_spelled {start stop : Nat} (tiles : Segment.Tiles start segments stop)
    (uniform : ∀ s ∈ segments, s.marker = false → s.start + 1 < s.stop →
      (s.wrappers == s.wrappers) = true)
    {cs : List Char} (length : start + cs.length = stop) :
    Shows start segments (spelled ⟨text, segments⟩ start cs) stop := by
  induction tiles generalizing cs with
  | @nil start =>
      obtain rfl : cs = [] := List.length_eq_zero_iff.mp (by omega)
      exact .nil
  | @run start mid stop wrappers rest filled tiles ih =>
      have room := tiles.le
      obtain ⟨own, others⟩ := List.forall_mem_cons.mp uniform
      obtain ⟨c, cs, rfl⟩ := List.exists_cons_of_length_pos (show 0 < cs.length by omega)
      -- The first character and `more` belong to the run.
      obtain ⟨more, back, rfl, width⟩ : ∃ more back, cs = more ++ back ∧
          start + 1 + more.length = mid := by
        rw [List.length_cons] at length
        refine ⟨cs.take (mid - start - 1), cs.drop (mid - start - 1),
          (List.take_append_drop ..).symm, ?_⟩
        rw [List.length_take]
        omega
      subst width
      simp only [List.length_cons, List.length_append] at length
      have split : spelled ⟨text, .run start (start + 1 + more.length) wrappers :: rest⟩ start
          (c :: (more ++ back)) = Markup.Item.literal wrappers (c :: more) ++
            spelled ⟨text, rest⟩ (start + 1 + more.length) back := by
        rw [← List.cons_append]
        exact spelled_run tiles wrappers (by simp; omega) (by omega)
      rw [split]
      have same : ∀ item ∈ Markup.Item.literal wrappers more, item.continues wrappers = true := by
        intro item member
        obtain ⟨d, inside, rfl⟩ := List.mem_map.mp member
        have := List.length_pos_of_mem inside
        exact own rfl (by simp [Segment.run]; omega)
      have next := @ih others back (by omega)
      have size : (Markup.Item.literal wrappers more).length = more.length := List.length_map ..
      rw [← size] at next ⊢
      exact .run same next
  | marker tiles ih =>
      rw [spelled_marker]
      exact .marker (ih (List.forall_mem_cons.mp uniform).2 length)

theorem cellItems_literal (s : Store) (m : Markup) (start : Nat) (cs : List Char) :
    cellItems s m start (cs.map .literal) = literalItems m start cs := by
  induction cs generalizing start with
  | nil => rfl
  | cons c cs ih =>
      rw [List.map_cons, cellItems, Cell.length_source_literal, ih, literalItems, List.append_assoc]
      rfl

/-- Text without placeholders gets its markup back exactly if that can be told from its characters
and markers one by one. -/
theorem rebuilt_iff (s : Store) {m : Markup} (formed : m.WellFormed)
    (divides : Divides m.text.toList (m.text.toList.map .literal)) :
    ofItems (filledItems s m.text m) = m ↔ m.Solid := by
  constructor
  · intro same
    rw [← same]
    exact solid_ofItems _
  · intro solid
    have tiled := solid.tiled formed
    have spells : filledItems s m.text m = spelled m 0 m.text.toList := by
      rw [filledItems_eq s m divides, cellItems_literal, spelled, Nat.zero_add]
    have shown : Shows 0 m.segments (spelled m 0 m.text.toList) m.text.length :=
      shows_spelled tiled.tiles solid.uniform (by rw [Nat.zero_add, String.length_toList])
    have characters : Item.text (filledItems s m.text m) = m.text.toList := by
      rw [text_filledItems s m divides, spread_literal]
    rw [ofItems, characters, String.ofList_toList, spells, ← shown.alike.coalesce,
      Segment.coalesce_of_unjoined tiled.unjoined]

end Interpolation

end Dialogue
