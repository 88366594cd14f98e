import Dialogue.Markup.Builder
import Dialogue.Proofs.Markup.Tiling
import Mathlib

set_option autoImplicit false

namespace Dialogue

theorem PropertyValue.beq_iff {a b : PropertyValue} :
    (a == b) = true ↔
      (∃ x, a = .flag x ∧ b = .flag x) ∨ (∃ s, a = .text s ∧ b = .text s) ∨
        ∃ x y, a = .number x ∧ b = .number y ∧ (x == y) = true := by
  constructor
  · intro same
    cases a with
    | flag x =>
        cases b with
        | flag y =>
            obtain rfl : x = y := beq_iff_eq.mp same
            exact .inl ⟨x, rfl, rfl⟩
        | number y => cases same
        | text t => cases same
    | number x =>
        cases b with
        | flag y => cases same
        | number y => exact .inr (.inr ⟨x, y, rfl, rfl, same⟩)
        | text t => cases same
    | text s =>
        cases b with
        | flag y => cases same
        | number y => cases same
        | text t =>
            obtain rfl : s = t := beq_iff_eq.mp same
            exact .inr (.inl ⟨s, rfl, rfl⟩)
  · rintro (⟨x, rfl, rfl⟩ | ⟨s, rfl, rfl⟩ | ⟨x, y, rfl, rfl, same⟩)
    · exact beq_self_eq_true x
    · exact beq_self_eq_true s
    · exact same

instance : PartialEquivBEq PropertyValue where
  symm {a b} same := by
    rw [PropertyValue.beq_iff] at same ⊢
    rcases same with ⟨x, rfl, rfl⟩ | ⟨s, rfl, rfl⟩ | ⟨x, y, rfl, rfl, same⟩
    · exact .inl ⟨x, rfl, rfl⟩
    · exact .inr (.inl ⟨s, rfl, rfl⟩)
    · exact .inr (.inr ⟨y, x, rfl, rfl, BEq.symm same⟩)
  trans {a b c} first second := by
    rw [PropertyValue.beq_iff] at first
    rcases first with ⟨x, rfl, rfl⟩ | ⟨s, rfl, rfl⟩ | ⟨x, y, rfl, rfl, same⟩
    · exact second
    · exact second
    · rw [PropertyValue.beq_iff] at second ⊢
      rcases second with ⟨_, other, _⟩ | ⟨_, other, _⟩ | ⟨_, z, shape, rfl, next⟩
      · cases other
      · cases other
      · obtain rfl := PropertyValue.number.inj shape
        exact .inr (.inr ⟨x, z, rfl, rfl, BEq.trans same next⟩)

namespace Table

variable {α : Type} [BEq α] [PartialEquivBEq α] {a b c : List (String × α)}

theorem go_symm (same : beqWith.go (· == ·) a b = true) : beqWith.go (· == ·) b a = true := by
  induction a generalizing b with
  | nil =>
      cases b with
      | nil => rfl
      | cons entry rest => cases same
  | cons entry rest ih =>
      cases b with
      | nil => cases same
      | cons other others =>
          simp only [beqWith.go, Bool.and_eq_true, beq_iff_eq] at same ⊢
          exact ⟨⟨same.1.1.symm, BEq.symm same.1.2⟩, ih same.2⟩

theorem go_trans (first : beqWith.go (· == ·) a b = true)
    (second : beqWith.go (· == ·) b c = true) : beqWith.go (· == ·) a c = true := by
  induction a generalizing b c with
  | nil =>
      cases b with
      | nil => exact second
      | cons entry rest => cases first
  | cons entry rest ih =>
      cases b with
      | nil => cases first
      | cons other others =>
          cases c with
          | nil => cases second
          | cons third thirds =>
              simp only [beqWith.go, Bool.and_eq_true, beq_iff_eq] at first second ⊢
              exact ⟨⟨first.1.1.trans second.1.1, BEq.trans first.1.2 second.1.2⟩,
                ih first.2 second.2⟩

instance : PartialEquivBEq (Table α) where
  symm same := go_symm same
  trans first second := go_trans first second

end Table

theorem Wrapper.beq_iff (a b : Wrapper) :
    (a == b) = true ↔
      a.name = b.name ∧ a.kind = b.kind ∧ (a.properties == b.properties) = true := by
  have shape : (a == b) =
      (a.name == b.name && (a.kind == b.kind && a.properties == b.properties)) := rfl
  rw [shape, Bool.and_eq_true, Bool.and_eq_true, beq_iff_eq, beq_iff_eq]

instance : PartialEquivBEq Wrapper where
  symm {a b} same := by
    rw [Wrapper.beq_iff] at same ⊢
    exact ⟨same.1.symm, same.2.1.symm, BEq.symm same.2.2⟩
  trans {a b c} first second := by
    rw [Wrapper.beq_iff] at first second ⊢
    exact ⟨first.1.trans second.1, first.2.1.trans second.2.1, BEq.trans first.2.2 second.2.2⟩

instance partialEquivBEqList {α : Type} [BEq α] [PartialEquivBEq α] :
    PartialEquivBEq (List α) where
  symm {a b} same := by
    induction a generalizing b with
    | nil =>
        cases b with
        | nil => rfl
        | cons y b => cases same
    | cons x a ih =>
        cases b with
        | nil => cases same
        | cons y b =>
            rw [List.cons_beq_cons, Bool.and_eq_true] at same ⊢
            exact ⟨BEq.symm same.1, ih same.2⟩
  trans {a b c} first second := by
    induction a generalizing b c with
    | nil =>
        cases b with
        | nil => exact second
        | cons y b => cases first
    | cons x a ih =>
        cases b with
        | nil => cases first
        | cons y b =>
            cases c with
            | nil => cases second
            | cons z c =>
                rw [List.cons_beq_cons, Bool.and_eq_true] at first second ⊢
                exact ⟨BEq.trans first.1 second.1, ih first.2 second.2⟩

/-- Equal lists stay equal without a common front. -/
theorem beq_of_append_beq {α : Type} [BEq α] {front a b : List α}
    (same : (front ++ a == front ++ b) = true) : (a == b) = true := by
  induction front with
  | nil => exact same
  | cons x front ih =>
      rw [List.cons_append, List.cons_append, List.cons_beq_cons, Bool.and_eq_true] at same
      exact ih same.2

namespace Markup

/-- The same wrappers, or others that count as equal. -/
def Agree (a b : List Wrapper) : Prop :=
  a = b ∨ (a == b) = true

theorem Agree.nil_iff {a b : List Wrapper} (agree : Agree a b) : a = [] ↔ b = [] := by
  rcases agree with rfl | equal
  · rfl
  · cases a with
    | nil =>
        cases b with
        | nil => rfl
        | cons _ _ => cases equal
    | cons _ _ =>
        cases b with
        | nil => cases equal
        | cons _ _ => simp

namespace Agree

variable {a b c a' b' : List Wrapper}

theorem symm (agree : Agree a b) : Agree b a :=
  agree.imp Eq.symm BEq.symm

theorem trans (first : Agree a b) (second : Agree b c) : Agree a c := by
  rcases first with rfl | first
  · exact second
  · rcases second with rfl | second
    · exact .inr first
    · exact .inr (BEq.trans first second)

/-- Wrappers that agree equal the same others. -/
theorem beq_congr (first : Agree a a') (second : Agree b b') : (a == b) = (a' == b') := by
  have equal {x y x' y' : List Wrapper} (front : Agree x x') (back : Agree y y')
      (same : (x == y) = true) : (x' == y') = true := by
    have right : (x == y') = true := by
      rcases back with rfl | back
      · exact same
      · exact BEq.trans same back
    rcases front with rfl | front
    · exact right
    · exact BEq.trans (BEq.symm front) right
  rw [Bool.eq_iff_iff]
  exact ⟨equal first second, equal first.symm second.symm⟩

end Agree

end Markup

namespace Segment

variable {xs ys zs xs' ys' : List Segment}

/-- The segments behind the last one are joined to the end of what is joined before them. -/
theorem coalesceAfter_append (last : Segment) (xs : List Segment) :
    ∃ front final, coalesceAfter last xs = front ++ [final] ∧
      ∀ ys, coalesceAfter last (xs ++ ys) = front ++ coalesceAfter final ys := by
  induction xs generalizing last with
  | nil => exact ⟨[], last, rfl, fun _ => rfl⟩
  | cons next xs ih =>
      by_cases joins : last.joins next = true
      · obtain ⟨front, final, shape, more⟩ := ih { last with stop := next.stop }
        refine ⟨front, final, ?_, fun ys => ?_⟩
        · rw [coalesceAfter_joins joins, shape]
        · rw [List.cons_append, coalesceAfter_joins joins, more]
      · have parts : last.joins next = false := by simpa using joins
        obtain ⟨front, final, shape, more⟩ := ih next
        refine ⟨last :: front, final, ?_, fun ys => ?_⟩
        · rw [coalesceAfter_parts parts, shape, List.cons_append]
        · rw [List.cons_append, coalesceAfter_parts parts, more, List.cons_append]

/-- No run is joined to a marker. -/
theorem coalesceAfter_marker (position : Nat) (wrappers : List Wrapper) (xs : List Segment) :
    coalesceAfter (.markerAt position wrappers) xs =
      .markerAt position wrappers :: coalesce xs := by
  cases xs with
  | nil => rfl
  | cons first rest => exact coalesceAfter_parts (marker_joins first position wrappers) rest

/-- Behind any segment, both give the same when runs are joined. -/
def Alike (xs ys : List Segment) : Prop :=
  ∀ last, coalesceAfter last xs = coalesceAfter last ys

namespace Alike

theorem refl (xs : List Segment) : Alike xs xs := fun _ => rfl

theorem symm (alike : Alike xs ys) : Alike ys xs := fun last => (alike last).symm

theorem trans (first : Alike xs ys) (second : Alike ys zs) : Alike xs zs :=
  fun last => (first last).trans (second last)

theorem append (first : Alike xs xs') (second : Alike ys ys') : Alike (xs ++ ys) (xs' ++ ys') := by
  intro last
  obtain ⟨front, final, shape, more⟩ := coalesceAfter_append last xs
  obtain ⟨front', final', shape', more'⟩ := coalesceAfter_append last xs'
  have same : front ++ [final] = front' ++ [final'] := by rw [← shape, ← shape', first last]
  obtain ⟨rfl, last'⟩ := List.append_inj' same rfl
  obtain rfl := List.singleton_inj.mp last'
  rw [more, more', second final]

theorem coalesce (alike : Alike xs ys) : coalesce xs = coalesce ys := by
  have same := alike (.markerAt 0 [])
  rw [coalesceAfter_marker, coalesceAfter_marker] at same
  exact (List.cons.inj same).2

end Alike

/-- A run may be cut in two, and the second part may have any wrappers equal to those of the
first. -/
theorem alike_cut {start mid stop : Nat} {above below : List Wrapper}
    (same : (above == below) = true) :
    Alike [.run start stop above] [.run start mid above, .run mid stop below] := by
  intro last
  by_cases joins : last.joins (.run start mid above) = true
  · have whole : last.joins (.run start stop above) = true := joins
    have again : Segment.joins { last with stop := mid } (.run mid stop below) = true := by
      simp only [Segment.joins, Segment.run, Bool.not_false, Bool.true_and, Bool.and_eq_true,
        beq_self_eq_true, and_true] at joins ⊢
      exact ⟨joins.1.1, BEq.trans joins.2 same⟩
    rw [coalesceAfter_joins whole, coalesceAfter_joins joins]
    exact (coalesceAfter_joins again []).symm
  · have parts : last.joins (.run start mid above) = false := by simpa using joins
    have whole : last.joins (.run start stop above) = false := parts
    have again : (Segment.run start mid above).joins (.run mid stop below) = true := by
      simp [same]
    rw [coalesceAfter_parts whole, coalesceAfter_parts parts, coalesceAfter_joins again]
    rfl

end Segment

namespace Markup

open Segment

inductive Item where
  | char (c : Char) (wrappers : List Wrapper)
  | marker (wrapper : Wrapper)

namespace Item

/-- An item inside further wrappers. -/
def under (outer : List Wrapper) : Item → Item
  | char c wrappers => char c (outer ++ wrappers)
  | marker wrapper => marker wrapper

/-- Characters with the same wrappers. -/
def literal (wrappers : List Wrapper) (text : List Char) : List Item :=
  text.map fun c => char c wrappers

def text : List Item → List Char
  | [] => []
  | char c _ :: items => c :: text items
  | marker _ :: items => text items

/-- The wrappers of each character. -/
def layers : List Item → List (List Wrapper)
  | [] => []
  | char _ wrappers :: items => wrappers :: layers items
  | marker _ :: items => layers items

/-- The markers, each behind the characters before it. -/
def markers (position : Nat) : List Item → List Segment
  | [] => []
  | char _ _ :: items => markers (position + 1) items
  | marker wrapper :: items => .markerAt position [wrapper] :: markers position items

/-- A segment for each item. -/
def atoms (position : Nat) : List Item → List Segment
  | [] => []
  | char _ wrappers :: items => .run position (position + 1) wrappers :: atoms (position + 1) items
  | marker wrapper :: items => .markerAt position [wrapper] :: atoms position items

/-- Whether an item goes on with a run that has the given wrappers. -/
def continues (above : List Wrapper) : Item → Bool
  | char _ wrappers => above == wrappers
  | marker _ => false

@[simp] theorem text_append (items more : List Item) :
    text (items ++ more) = text items ++ text more := by
  induction items with
  | nil => rfl
  | cons item items ih => cases item <;> simp [text, ih]

@[simp] theorem text_literal (wrappers : List Wrapper) (cs : List Char) :
    text (literal wrappers cs) = cs := by
  induction cs with
  | nil => rfl
  | cons c cs ih => exact congrArg (c :: ·) ih

theorem layers_literal (wrappers : List Wrapper) (cs : List Char) :
    layers (literal wrappers cs) = List.replicate cs.length wrappers := by
  induction cs with
  | nil => rfl
  | cons c cs ih => exact congrArg (wrappers :: ·) ih

theorem markers_literal (position : Nat) (wrappers : List Wrapper) (cs : List Char)
    (items : List Item) :
    markers position (literal wrappers cs ++ items) = markers (position + cs.length) items := by
  induction cs generalizing position with
  | nil => rfl
  | cons c cs ih =>
      rw [List.length_cons, Nat.add_comm cs.length, ← Nat.add_assoc]
      exact ih (position + 1)

@[simp] theorem text_under (outer : List Wrapper) (items : List Item) :
    text (items.map (under outer)) = text items := by
  induction items with
  | nil => rfl
  | cons item items ih => cases item <;> simp [text, under, ih]

@[simp] theorem literal_under (outer wrappers : List Wrapper) (cs : List Char) :
    (literal wrappers cs).map (under outer) = literal (outer ++ wrappers) cs := by
  rw [literal, List.map_map]
  rfl

theorem under_under (outer inner : List Wrapper) (items : List Item) :
    (items.map (under inner)).map (under outer) = items.map (under (outer ++ inner)) := by
  rw [List.map_map]
  congr 1
  funext item
  cases item <;> simp [under]

@[simp] theorem under_nil (items : List Item) : items.map (under []) = items := by
  have same : under [] = id := by
    funext item
    cases item <;> rfl
  rw [same, List.map_id]

theorem literal_continues (text : List Char) :
    ∀ item ∈ literal [] text, item.continues [] = true := by
  intro item member
  obtain ⟨c, -, rfl⟩ := List.mem_map.mp member
  rfl

theorem length_layers (items : List Item) : (layers items).length = (text items).length := by
  induction items with
  | nil => rfl
  | cons item items ih => cases item <;> simp [text, layers, ih]

theorem layers_append (items more : List Item) :
    layers (items ++ more) = layers items ++ layers more := by
  induction items with
  | nil => rfl
  | cons item items ih => cases item <;> simp [layers, ih]

theorem atoms_append (position : Nat) (items more : List Item) :
    atoms position (items ++ more) =
      atoms position items ++ atoms (position + (text items).length) more := by
  induction items generalizing position with
  | nil => rfl
  | cons item items ih =>
      cases item with
      | char c wrappers =>
          simp only [List.cons_append, atoms, ih, text, List.length_cons]
          rw [Nat.add_right_comm, Nat.add_assoc]
      | marker wrapper => simp only [List.cons_append, atoms, ih, text]

section

variable {above : List Wrapper} {more : List Item}

theorem text_length_of_continues (same : ∀ item ∈ more, item.continues above = true) :
    (text more).length = more.length := by
  induction more with
  | nil => rfl
  | cons item more ih =>
      obtain ⟨first, rest⟩ := List.forall_mem_cons.mp same
      cases item with
      | char c wrappers => simp [text, ih rest]
      | marker wrapper => cases first

theorem mem_layers_of_continues (same : ∀ item ∈ more, item.continues above = true)
    {wrappers : List Wrapper} (member : wrappers ∈ layers more) : (above == wrappers) = true := by
  induction more with
  | nil => cases member
  | cons item more ih =>
      obtain ⟨first, rest⟩ := List.forall_mem_cons.mp same
      cases item with
      | char c own =>
          rcases List.mem_cons.mp member with rfl | inside
          · exact first
          · exact ih rest inside
      | marker wrapper => cases first

theorem markers_of_continues (same : ∀ item ∈ more, item.continues above = true) (position : Nat)
    (items : List Item) :
    markers position (more ++ items) = markers (position + more.length) items := by
  induction more generalizing position with
  | nil => rfl
  | cons item more ih =>
      obtain ⟨first, rest⟩ := List.forall_mem_cons.mp same
      cases item with
      | char c own =>
          rw [List.cons_append, markers, ih rest, List.length_cons, Nat.add_right_comm,
            Nat.add_assoc]
      | marker wrapper => cases first

/-- A run is joined like its characters one by one. -/
theorem alike_atoms (same : ∀ item ∈ more, item.continues above = true) (start mid : Nat) :
    Alike (.run start mid above :: atoms mid more) [.run start (mid + more.length) above] := by
  induction more generalizing mid with
  | nil => exact .refl _
  | cons item more ih =>
      obtain ⟨first, rest⟩ := List.forall_mem_cons.mp same
      cases item with
      | marker wrapper => cases first
      | char c own =>
          have cut : Alike [.run start (mid + 1) above]
              [.run start mid above, .run mid (mid + 1) own] := alike_cut first
          have grown := ih rest (mid + 1)
          rw [List.length_cons, ← Nat.add_assoc, Nat.add_right_comm]
          exact (cut.symm.append (.refl (atoms (mid + 1) more))).trans grown

end

end Item

/-- The segments from `start` to `stop` stand for the items. -/
inductive Shows : Nat → List Segment → List Item → Nat → Prop
  | nil {start : Nat} : Shows start [] [] start
  | run {start stop : Nat} {wrappers : List Wrapper} {c : Char} {more : List Item}
      {rest : List Segment} {items : List Item}
      (same : ∀ item ∈ more, item.continues wrappers = true)
      (next : Shows (start + 1 + more.length) rest items stop) :
      Shows start (.run start (start + 1 + more.length) wrappers :: rest)
        (.char c wrappers :: (more ++ items)) stop
  | marker {start stop : Nat} {wrapper : Wrapper} {rest : List Segment} {items : List Item}
      (next : Shows start rest items stop) :
      Shows start (.markerAt start [wrapper] :: rest) (.marker wrapper :: items) stop

namespace Shows

variable {start mid stop : Nat} {segments rest : List Segment} {items more : List Item}

theorem append (first : Shows start segments items mid) (second : Shows mid rest more stop) :
    Shows start (segments ++ rest) (items ++ more) stop := by
  induction first with
  | nil => exact second
  | run same _ ih =>
      rw [List.cons_append, List.cons_append, List.append_assoc]
      exact .run same (ih second)
  | marker _ ih => exact .marker (ih second)

theorem split (whole : Shows start (segments ++ rest) items stop) :
    ∃ mid front back, items = front ++ back ∧ Shows start segments front mid ∧
      Shows mid rest back stop := by
  induction segments generalizing start items with
  | nil => exact ⟨start, [], items, rfl, .nil, whole⟩
  | cons s segments ih =>
      cases whole with
      | @run _ _ wrappers c more _ items same next =>
          obtain ⟨mid, front, back, rfl, first, second⟩ := ih next
          refine ⟨mid, .char c wrappers :: (more ++ front), back, ?_, .run same first, second⟩
          rw [List.cons_append, List.append_assoc]
      | @marker _ _ wrapper _ items next =>
          obtain ⟨mid, front, back, rfl, first, second⟩ := ih next
          exact ⟨mid, .marker wrapper :: front, back, rfl, .marker first, second⟩

theorem tiles (shown : Shows start segments items stop) : Tiles start segments stop := by
  induction shown with
  | nil => exact .nil
  | run _ _ ih => exact .run (by omega) ih
  | marker _ ih => exact .marker ih

theorem alike (shown : Shows start segments items stop) :
    Alike segments (Item.atoms start items) := by
  induction shown with
  | nil => exact .refl _
  | @run start stop wrappers c more rest items same next ih =>
      have whole : Alike (.run start (start + 1) wrappers :: Item.atoms (start + 1) more)
          [.run start (start + 1 + more.length) wrappers] :=
        Item.alike_atoms same start (start + 1)
      rw [Item.atoms, Item.atoms_append, Item.text_length_of_continues same, ← List.cons_append]
      exact whole.symm.append ih
  | @marker start stop wrapper rest items next ih =>
      exact (Alike.refl [.markerAt start [wrapper]]).append ih

theorem markers (shown : Shows start segments items stop) :
    (segments.filter fun s => s.marker) = Item.markers start items := by
  induction shown with
  | nil => rfl
  | @run start stop wrappers c more rest items same next ih =>
      rw [Item.markers, Item.markers_of_continues same, ← ih]
      exact List.filter_cons_of_neg (by simp [Segment.run])
  | @marker start stop wrapper rest items next ih =>
      rw [Item.markers, ← ih]
      exact List.filter_cons_of_pos rfl

/-- The run that covers a character has wrappers equal to the character's. -/
theorem layer (shown : Shows start segments items stop) {index : Nat} {wrappers : List Wrapper}
    (here : (Item.layers items)[index]? = some wrappers) :
    ∃ s, (segments.find? fun s => s.covers (start + index)) = some s ∧
      (s.wrappers = wrappers ∨ (s.wrappers == wrappers) = true) := by
  induction shown generalizing index with
  | nil => cases here
  | @run start stop above c more rest items same next ih =>
      rw [Item.layers, Item.layers_append] at here
      have size : (Item.layers more).length = more.length := by
        rw [Item.length_layers, Item.text_length_of_continues same]
      by_cases inside : index < 1 + more.length
      · refine ⟨.run start (start + 1 + more.length) above, ?_, ?_⟩
        · exact List.find?_cons_of_pos ((covers_run ..).mpr (by omega))
        · cases index with
          | zero => exact .inl (Option.some.inj here)
          | succ index =>
              rw [List.getElem?_cons_succ, List.getElem?_append_left (by omega)] at here
              exact .inr (Item.mem_layers_of_continues same (List.mem_of_getElem? here))
      · obtain ⟨offset, rfl⟩ : ∃ offset, index = 1 + more.length + offset :=
          ⟨index - (1 + more.length), by omega⟩
        have beyond : ¬(Segment.run start (start + 1 + more.length) above).covers
            (start + (1 + more.length + offset)) = true := by
          rw [covers_run]
          omega
        have later : (Item.layers items)[offset]? = some wrappers := by
          rw [show 1 + more.length + offset = more.length + offset + 1 by omega,
            List.getElem?_cons_succ, List.getElem?_append_right (by omega), size,
            Nat.add_sub_cancel_left] at here
          exact here
        have found := ih later
        rw [show start + 1 + more.length + offset = start + (1 + more.length + offset) by omega]
          at found
        rw [List.find?_cons_of_neg (by exact beyond)]
        exact found
  | @marker start stop wrapper rest items next ih =>
      rw [List.find?_cons_of_neg (by simp)]
      exact ih here

theorem coalesceAfter {last : Segment} (shown : Shows start (last :: segments) items stop) :
    Shows start (Segment.coalesceAfter last segments) items stop := by
  induction segments generalizing start last items with
  | nil => exact shown
  | cons next rest ih =>
      by_cases joins : last.joins next = true
      · rw [coalesceAfter_joins joins]
        cases shown with
        | marker shown => simp at joins
        | @run _ _ above c more _ _ same shown =>
            cases shown with
            | marker shown => simp at joins
            | @run _ _ below d others _ items again shown =>
                rw [joins_run_run, Bool.and_eq_true] at joins
                -- The joined run has the characters of both.
                have both : ∀ item ∈ more ++ .char d below :: others,
                    item.continues above = true := by
                  intro item member
                  rcases List.mem_append.mp member with early | late
                  · exact same item early
                  · rcases List.mem_cons.mp late with rfl | late
                    · exact joins.2
                    · have equal := again item late
                      cases item with
                      | char e own => exact BEq.trans joins.2 equal
                      | marker wrapper => cases equal
                have width : start + 1 + more.length + 1 + others.length =
                    start + 1 + (more ++ Item.char d below :: others).length := by
                  rw [List.length_append, List.length_cons]
                  omega
                apply ih
                rw [width] at shown
                have joined := Shows.run (c := c) both shown
                rw [List.append_assoc, ← width] at joined
                exact joined
      · rw [coalesceAfter_parts (by simpa using joins)]
        cases shown with
        | run same shown => exact .run same (ih shown)
        | marker shown => exact .marker (ih shown)

theorem coalesce (shown : Shows start segments items stop) :
    Shows start (Segment.coalesce segments) items stop := by
  cases segments with
  | nil => exact shown
  | cons first rest => exact coalesceAfter shown

end Shows

theorem shows_atoms (start : Nat) (items : List Item) :
    Shows start (Item.atoms start items) items (start + (Item.text items).length) := by
  induction items generalizing start with
  | nil => exact .nil
  | cons item items ih =>
      cases item with
      | char c wrappers =>
          have alone : ∀ item ∈ ([] : List Item), item.continues wrappers = true :=
            List.forall_mem_nil _
          have next := ih (start + 1)
          rw [Nat.add_assoc, Nat.add_comm 1] at next
          exact .run alone next
      | marker wrapper => exact .marker (ih start)

/-- The markup that shows the items, with runs as long as they can be. -/
def ofItems (items : List Item) : Markup :=
  ⟨String.ofList (Item.text items), Segment.coalesce (Item.atoms 0 items)⟩

/-- Merging depends only on the items that the segments show. -/
theorem merge_of_shows {segments : List Segment} {items : List Item} {length : Nat}
    (shown : Shows 0 segments items length) :
    (⟨String.ofList (Item.text items), Segment.merge segments length⟩ : Markup) =
      ofItems items := by
  rw [shown.tiles.merge, shown.alike.coalesce]
  rfl

theorem shows_ofItems (items : List Item) :
    Shows 0 (ofItems items).segments items (Item.text items).length := by
  have shown := (shows_atoms 0 items).coalesce
  rw [Nat.zero_add] at shown
  exact shown

theorem ofItems_tiled (items : List Item) : (ofItems items).Tiled := by
  refine ⟨?_, coalesce_unjoined _⟩
  have tiles := (shows_ofItems items).tiles
  rw [ofItems, String.length_ofList]
  exact tiles

theorem markers_ofItems (items : List Item) :
    ((ofItems items).segments.filter fun s => s.marker) = Item.markers 0 items :=
  (shows_ofItems items).markers

/-- The wrappers at a character are those given with it, or others that count as equal. -/
theorem wrappersAt_ofItems {items : List Item} {index : Nat} {wrappers : List Wrapper}
    (here : (Item.layers items)[index]? = some wrappers) :
    (ofItems items).wrappersAt index = wrappers ∨
      ((ofItems items).wrappersAt index == wrappers) = true := by
  obtain ⟨s, found, same⟩ := (shows_ofItems items).layer here
  rw [Nat.zero_add] at found
  rw [wrappersAt, found]
  exact same

namespace Builder

variable {b b' b'' : Builder} {items more : List Item}

/-- The open run, which is no marker, ends a stretch of segments that shows the items. -/
structure Ends (b : Builder) (start : Nat) (before : List Segment) (items : List Item) : Prop where
  plain : ∀ s ∈ b.current, s.marker = false
  shown : Shows start (before ++ b.current.toList) items b.length

/-- The second builder is the first one with further items. Closed segments stay as they are. -/
structure Grows (b b' : Builder) (items : List Item) : Prop where
  text : b'.text = b.text ++ Item.text items
  segments : ∃ closed, b'.done = b.done ++ closed ∧
    ∀ {start : Nat} {before : List Segment} {shown : List Item},
      b.Ends start before shown → b'.Ends start (before ++ closed) (shown ++ items)

theorem Grows.refl (b : Builder) : b.Grows b [] := by
  refine ⟨(List.append_nil _).symm, [], (List.append_nil _).symm, ?_⟩
  intro start before shown ends
  rw [List.append_nil, List.append_nil]
  exact ends

theorem Grows.trans (first : b.Grows b' items) (second : b'.Grows b'' more) :
    b.Grows b'' (items ++ more) := by
  obtain ⟨closed, done, ends⟩ := first.segments
  obtain ⟨closed', done', ends'⟩ := second.segments
  refine ⟨?_, closed ++ closed', ?_, ?_⟩
  · rw [second.text, first.text, Item.text_append, List.append_assoc]
  · rw [done', done, List.append_assoc]
  · intro start before shown holds
    rw [← List.append_assoc, ← List.append_assoc]
    exact ends' (ends holds)

theorem grows_flush (b : Builder) : b.Grows b.flush [] := by
  refine ⟨(List.append_nil _).symm, b.current.toList, rfl, ?_⟩
  intro start before shown ends
  refine ⟨fun s member => (nomatch member), ?_⟩
  rw [List.append_nil]
  simpa [flush, length] using ends.shown

theorem grows_marker (b : Builder) (wrapper : Wrapper) :
    b.Grows (b.marker wrapper) [.marker wrapper] := by
  refine ⟨(List.append_nil _).symm, b.current.toList ++ [.markerAt b.length [wrapper]], ?_, ?_⟩
  · simp [marker, flush, length]
  · intro start before shown ends
    refine ⟨fun s member => (nomatch member), ?_⟩
    have mark : Shows b.length [.markerAt b.length [wrapper]] [.marker wrapper] b.length :=
      .marker .nil
    simpa [marker, flush, length] using ends.shown.append mark

/-- A run that ends at the end of the text and has equal wrappers takes a character. -/
theorem Ends.extend {start : Nat} {before : List Segment} {shown : List Item} {run : Segment}
    {wrappers : List Wrapper} (ends : b.Ends start before shown) (opened : b.current = some run)
    (same : (run.wrappers == wrappers) = true) (c : Char) :
    Shows start (before ++ [{ run with stop := b.length + 1 }]) (shown ++ [.char c wrappers])
      (b.length + 1) := by
  have plain := ends.plain run opened
  have whole := ends.shown
  rw [opened, Option.toList_some] at whole
  obtain ⟨mid, front, back, rfl, first, second⟩ := whole.split
  rw [List.append_assoc]
  refine first.append ?_
  generalize b.length = size at second ⊢
  cases second with
  | marker next => cases plain
  | @run _ _ above d more _ _ again next =>
      cases next with
      | nil =>
          have longer : ∀ item ∈ more ++ [.char c wrappers], item.continues above = true := by
            intro item member
            rcases List.mem_append.mp member with early | late
            · exact again item early
            · obtain rfl := List.mem_singleton.mp late
              exact same
          have grown : Shows mid
              [.run mid (mid + 1 + (more ++ [Item.char c wrappers]).length) above]
              (.char d above :: (more ++ [.char c wrappers] ++ []))
              (mid + 1 + (more ++ [Item.char c wrappers]).length) := .run longer .nil
          rw [List.append_nil, List.length_append, List.length_singleton, ← Nat.add_assoc] at grown
          rw [List.append_nil, List.cons_append]
          exact grown

theorem grows_pushChar (b : Builder) (wrappers : List Wrapper) (c : Char) :
    b.Grows (b.pushChar wrappers c) [.char c wrappers] := by
  cases opened : b.current with
  | none =>
      have shape : b.pushChar wrappers c =
          ⟨b.text ++ [c], b.done, some (.run b.length (b.length + 1) wrappers)⟩ := by
        simp only [pushChar, opened]
      rw [shape]
      refine ⟨rfl, [], (List.append_nil _).symm, ?_⟩
      intro start before shown ends
      refine ⟨fun s member => ?_, ?_⟩
      · obtain rfl := Option.some.inj member
        rfl
      · have fresh : Shows b.length [.run b.length (b.length + 1) wrappers] [.char c wrappers]
            (b.length + 1) := shows_atoms b.length [.char c wrappers]
        have whole := ends.shown
        rw [opened, Option.toList_none, List.append_nil] at whole
        simpa [length] using whole.append fresh
  | some run =>
      by_cases fits : (run.stop == b.length && run.wrappers == wrappers) = true
      · have shape : b.pushChar wrappers c =
            ⟨b.text ++ [c], b.done, some { run with stop := b.length + 1 }⟩ := by
          simp only [pushChar, opened, fits, ↓reduceIte]
        rw [shape]
        refine ⟨rfl, [], (List.append_nil _).symm, ?_⟩
        intro start before shown ends
        refine ⟨fun s member => ?_, ?_⟩
        · obtain rfl := Option.some.inj member
          exact ends.plain run opened
        · rw [Bool.and_eq_true] at fits
          simpa [length] using ends.extend opened fits.2 c
      · have shape : b.pushChar wrappers c =
            ⟨b.text ++ [c], b.done ++ [run], some (.run b.length (b.length + 1) wrappers)⟩ := by
          simp only [pushChar, opened, fits, Bool.false_eq_true, ↓reduceIte, flush,
            Option.toList_some]
        rw [shape]
        refine ⟨rfl, [run], rfl, ?_⟩
        intro start before shown ends
        refine ⟨fun s member => ?_, ?_⟩
        · obtain rfl := Option.some.inj member
          rfl
        · have fresh : Shows b.length [.run b.length (b.length + 1) wrappers] [.char c wrappers]
              (b.length + 1) := shows_atoms b.length [.char c wrappers]
          have whole := ends.shown
          rw [opened, Option.toList_some] at whole
          simpa [length] using whole.append fresh

theorem grows_pushText (b : Builder) (wrappers : List Wrapper) (text : List Char) :
    b.Grows (b.pushText wrappers text) (Item.literal wrappers text) := by
  induction text generalizing b with
  | nil => exact .refl b
  | cons c text ih => exact (grows_pushChar b wrappers c).trans (ih (b.pushChar wrappers c))

theorem ends_empty : empty.Ends 0 [] [] :=
  ⟨fun _ member => (nomatch member), .nil⟩

/-- A builder's result shows the items that were added. -/
theorem Grows.finish (grows : empty.Grows b items) : b.finish = ofItems items := by
  obtain ⟨closed, done, ends⟩ := grows.segments
  have shown := (ends ends_empty).shown
  have text : b.text = Item.text items := grows.text
  rw [List.nil_append, List.nil_append] at shown
  have whole : b.flush.done = closed ++ b.current.toList := by rw [flush, done]; rfl
  unfold Builder.finish
  rw [whole, text]
  exact merge_of_shows shown

end Builder

end Markup

end Dialogue
