import Dialogue.Proofs.Text.Literal
import Dialogue.Ron.Basic
import Dialogue.Ron.Read

set_option autoImplicit false

namespace Dialogue.Ron

open Dialogue.Text

/-- A text that starts an entry of a bracket: with neither a blank nor a comment, and with no
closing bracket. -/
def Begins (cs : List Char) : Prop :=
  ∃ c rest, cs = c :: rest ∧ isGap c = false ∧ c ∉ ['/', ')', ']', '\x7d']

theorem mem_marks {c : Char} (mark : c ∈ [',', ')', ']', '\x7d']) :
    c = ',' ∨ c = ')' ∨ c = ']' ∨ c = '\x7d' := by
  simpa using mark

/-- What may follow an entry. -/
def Ends (rest : List Char) : Prop :=
  ∀ c ∈ rest.head?, c ∈ [',', ')', ']', '\x7d']

theorem Begins.append {cs : List Char} (begins : Begins cs) (more : List Char) :
    Begins (cs ++ more) := by
  obtain ⟨c, rest, rfl, solid, opens⟩ := begins
  exact ⟨c, rest ++ more, rfl, solid, opens⟩

theorem skip_gap {c : Char} (blank : isGap c = true) (cs : List Char) :
    skip (c :: cs) = skip cs := by
  cases cs with
  | nil => simp [skip, blank]
  | cons d cs => rw [skip, if_pos blank]

theorem skip_solid {c : Char} (solid : isGap c = false) (comment : c ≠ '/') (cs : List Char) :
    skip (c :: cs) = c :: cs := by
  cases cs with
  | nil => simp [skip, solid]
  | cons d cs => simp [skip, solid, comment]

/-- Blanks are passed over up to the first character that is none. -/
theorem skip_append {gap : List Char} (blank : ∀ c ∈ gap, isGap c = true) (cs : List Char) :
    skip (gap ++ cs) = skip cs := by
  induction gap with
  | nil => rfl
  | cons c gap ih =>
      obtain ⟨first, others⟩ := List.forall_mem_cons.mp blank
      rw [List.cons_append, skip_gap first, ih others]

theorem Begins.skip_append {gap cs : List Char} (begins : Begins cs)
    (blank : ∀ c ∈ gap, isGap c = true) (more : List Char) :
    skip (gap ++ (cs ++ more)) = cs ++ more := by
  obtain ⟨c, rest, rfl, solid, opens⟩ := begins
  rw [Ron.skip_append blank]
  exact skip_solid solid (fun same => opens (same ▸ List.mem_cons_self ..)) _

theorem ends_nil : Ends [] := by
  rintro c ⟨⟩

theorem ends_cons {c : Char} (mark : c ∈ [',', ')', ']', '\x7d']) (rest : List Char) :
    Ends (c :: rest) := by
  intro d first
  rw [← Option.some.inj first]
  exact mark

/-- A mark that ends an entry is no blank. -/
theorem Ends.skip {rest : List Char} (ends : Ends rest) : Ron.skip rest = rest := by
  cases rest with
  | nil => rw [Ron.skip]
  | cons c rest =>
      have mark := ends c rfl
      rcases mem_marks mark with rfl | rfl | rfl | rfl
      · exact skip_solid (by decide) (by decide) rest
      · exact skip_solid (by decide) (by decide) rest
      · exact skip_solid (by decide) (by decide) rest
      · exact skip_solid (by decide) (by decide) rest

section Entries

variable {α : Type} {entry : List Char → Option (α × List Char)} {closing : Char}
  {gap text more rest : List Char} {a : α}

theorem entries?_closing (closes : closing ∈ [')', ']', '\x7d'])
    (blank : ∀ c ∈ gap, isGap c = true) (fuel : Nat) (rest : List Char) :
    entries? skip true entry closing (fuel + 1) (gap ++ closing :: rest) = some ([], rest) := by
  have mark : closing ∈ [',', ')', ']', '\x7d'] := List.mem_cons_of_mem _ closes
  rw [entries?, skip_append blank, (ends_cons mark rest).skip]
  simp

theorem entries?_comma (closes : closing ∈ [')', ']', '\x7d'])
    (blank : ∀ c ∈ gap, isGap c = true) (begins : Begins text)
    (reads : entry (text ++ ',' :: more) = some (a, ',' :: more)) (fuel : Nat) :
    entries? skip true entry closing (fuel + 1) (gap ++ (text ++ ',' :: more)) =
      (entries? skip true entry closing fuel more).map fun (others, rest) =>
        (a :: others, rest) := by
  have comma : skip (',' :: more) = ',' :: more := (ends_cons (by decide) more).skip
  rw [entries?, begins.skip_append blank]
  obtain ⟨c, tail, rfl, -, opens⟩ := begins
  have other : c ≠ closing := by
    rintro rfl
    exact opens (List.mem_cons_of_mem _ closes)
  rw [List.cons_append] at reads ⊢
  dsimp only
  rw [if_neg other, reads]
  simp only [Option.bind_eq_bind, Option.bind_some, comma, Bool.not_true, Bool.false_and,
    Bool.false_eq_true, if_false]
  cases entries? skip true entry closing fuel more <;> rfl

theorem entries?_last (closes : closing ∈ [')', ']', '\x7d'])
    (blank : ∀ c ∈ gap, isGap c = true) (begins : Begins text)
    (reads : entry (text ++ closing :: rest) = some (a, closing :: rest)) (fuel : Nat) :
    entries? skip true entry closing (fuel + 1) (gap ++ (text ++ closing :: rest)) =
      some ([a], rest) := by
  have mark : closing ∈ [',', ')', ']', '\x7d'] := List.mem_cons_of_mem _ closes
  have final : skip (closing :: rest) = closing :: rest := (ends_cons mark rest).skip
  have comma : closing ≠ ',' := by
    rintro rfl
    exact absurd closes (by decide)
  rw [entries?, begins.skip_append blank]
  obtain ⟨c, tail, rfl, -, opens⟩ := begins
  have other : c ≠ closing := by
    rintro rfl
    exact opens (List.mem_cons_of_mem _ closes)
  rw [List.cons_append] at reads ⊢
  dsimp only
  rw [if_neg other, reads]
  simp [final]

end Entries

namespace Layout

theorem isGap_newline (layout : Layout) : ∀ c ∈ layout.newline, isGap c = true := by
  cases layout with
  | compact => exact fun c listed => (nomatch listed)
  | lines depth => exact List.forall_mem_cons.mpr ⟨by decide, fun c listed => (nomatch listed)⟩

theorem isGap_replicate (count : Nat) : ∀ c ∈ List.replicate count ' ', isGap c = true := by
  intro c listed
  rw [List.eq_of_mem_replicate listed]
  decide

theorem isGap_indent (layout : Layout) : ∀ c ∈ layout.indent, isGap c = true := by
  cases layout with
  | compact => exact fun c listed => (nomatch listed)
  | lines depth => exact isGap_replicate _

theorem isGap_outdent (layout : Layout) : ∀ c ∈ layout.outdent, isGap c = true := by
  cases layout with
  | compact => exact fun c listed => (nomatch listed)
  | lines depth => exact isGap_replicate _

theorem separator_false (layout : Layout) : layout.separator false = ',' :: layout.newline := by
  cases layout <;> rfl

theorem length_body (layout : Layout) (entries : List (List Char)) :
    entries.length ≤ (enclose.body layout entries).length + 1 ∧
      ∀ entry ∈ entries, entry.length ≤ (enclose.body layout entries).length := by
  fun_induction enclose.body layout entries with
  | case1 => exact ⟨Nat.zero_le _, fun entry listed => (nomatch listed)⟩
  | case2 only =>
      refine ⟨by simp, ?_⟩
      intro entry listed
      rw [List.mem_singleton.mp listed]
      simp only [List.length_append]
      omega
  | case3 first rest _ ih =>
      obtain ⟨count, longest⟩ := ih
      simp only [separator_false, List.length_append, List.length_cons]
      refine ⟨by omega, ?_⟩
      intro entry listed
      rcases List.mem_cons.mp listed with rfl | later
      · omega
      · have := longest entry later
        omega

/-- The brackets are longer than each entry, and there are more characters than entries. -/
theorem length_enclose (layout : Layout) (opening closing : Char) (entries : List (List Char)) :
    entries.length < (layout.enclose opening closing entries).length ∧
      ∀ entry ∈ entries, entry.length < (layout.enclose opening closing entries).length := by
  cases entries with
  | nil => exact ⟨Nat.zero_lt_succ _, fun entry listed => (nomatch listed)⟩
  | cons first rest =>
      obtain ⟨count, longest⟩ := length_body layout (first :: rest)
      rw [enclose, if_neg (by simp)]
      simp only [List.length_append, List.length_cons, List.length_nil]
      refine ⟨by simp only [List.length_cons] at count; omega, ?_⟩
      intro entry listed
      have := longest entry listed
      omega

/-- The first entry stands behind blanks. -/
theorem enclose_cons (layout : Layout) (opening closing : Char) (first : List Char)
    (rest : List (List Char)) : ∃ gap more, (∀ c ∈ gap, isGap c = true) ∧
      layout.enclose opening closing (first :: rest) = opening :: (gap ++ (first ++ more)) := by
  have blank := List.forall_mem_append.mpr ⟨isGap_newline layout, isGap_indent layout⟩
  cases rest with
  | nil =>
      refine ⟨_, layout.separator true ++ (layout.outdent ++ [closing]), blank, ?_⟩
      simp [enclose, enclose.body]
  | cons second rest =>
      refine ⟨_, layout.separator false ++ (enclose.body layout (second :: rest) ++
        (layout.outdent ++ [closing])), blank, ?_⟩
      simp [enclose, enclose.body]

section Back

variable {α : Type} {entry : List Char → Option (α × List Char)} {closing : Char}
  {written : α → List Char} {items : List α}

/-- By induction on the entries; what is left behind one of them is again entries behind blanks. -/
theorem entries?_body (closes : closing ∈ [')', ']', '\x7d'])
    (begins : ∀ item ∈ items, Begins (written item))
    (reads : ∀ item ∈ items, ∀ rest, Ends rest → entry (written item ++ rest) = some (item, rest))
    (layout : Layout) {gap : List Char} (blank : ∀ c ∈ gap, isGap c = true) {fuel : Nat}
    (room : items.length < fuel) (rest : List Char) :
    entries? skip true entry closing fuel
      (gap ++ (enclose.body layout (items.map written) ++ (layout.outdent ++ closing :: rest))) =
        some (items, rest) := by
  obtain ⟨fuel, rfl⟩ : ∃ less, fuel = less + 1 := ⟨fuel - 1, by omega⟩
  induction items generalizing gap fuel with
  | nil =>
      have blanks := List.forall_mem_append.mpr ⟨blank, isGap_outdent layout⟩
      rw [List.map_nil, enclose.body, List.nil_append, ← List.append_assoc]
      exact entries?_closing closes blanks fuel rest
  | cons item items ih =>
      obtain ⟨begin, begins⟩ := List.forall_mem_cons.mp begins
      obtain ⟨read, reads⟩ := List.forall_mem_cons.mp reads
      have blanks := List.forall_mem_append.mpr ⟨blank, isGap_indent layout⟩
      -- A comma leaves the remaining entries behind a line break, if there is one.
      have comma : ∀ text,
          (gap ++ layout.indent) ++ (written item ++ ',' :: (layout.newline ++ text)) =
            gap ++ ((layout.indent ++ written item ++ layout.separator false) ++ text) := by
        intro text
        rw [separator_false]
        simp only [List.append_assoc, List.cons_append]
      have next : ∀ text, entry (written item ++ ',' :: text) = some (item, ',' :: text) :=
        fun text => read _ (ends_cons (by decide) text)
      cases items with
      | nil =>
          cases layout with
          | compact =>
              have final := read (closing :: rest)
                (ends_cons (List.mem_cons_of_mem _ closes) rest)
              simp only [List.map_cons, List.map_nil, enclose.body, indent, outdent, separator,
                if_true, List.nil_append, List.append_nil]
              exact entries?_last closes blank begin final fuel
          | lines depth =>
              obtain ⟨fuel, rfl⟩ : ∃ less, fuel = less + 1 := by
                simp only [List.length_cons] at room
                exact ⟨fuel - 1, by omega⟩
              have same : (lines depth).separator true = (lines depth).separator false := rfl
              have later := ih begins reads (isGap_newline (lines depth)) fuel (by simp)
              rw [List.map_nil, enclose.body, List.nil_append] at later
              rw [List.map_cons, List.map_nil, enclose.body, same, ← comma,
                entries?_comma closes blanks begin (next _), later]
              rfl
      | cons second items =>
          obtain ⟨fuel, rfl⟩ : ∃ less, fuel = less + 1 := by
            simp only [List.length_cons] at room
            exact ⟨fuel - 1, by omega⟩
          have less : (second :: items).length < fuel + 1 := by
            simp only [List.length_cons] at room ⊢
            omega
          have later := ih begins reads (isGap_newline layout) fuel less
          have shape : enclose.body layout ((item :: second :: items).map written) =
              (layout.indent ++ written item ++ layout.separator false) ++
                enclose.body layout ((second :: items).map written) := rfl
          rw [shape, List.append_assoc, ← comma, entries?_comma closes blanks begin (next _), later]
          rfl

/-- Brackets are read back with a bound that exceeds their length. -/
theorem entries?_enclose (closes : closing ∈ [')', ']', '\x7d'])
    (begins : ∀ item ∈ items, Begins (written item)) {fuel : Nat}
    (reads : ∀ item ∈ items, ∀ rest, Ends rest → (written item).length < fuel →
      entry (written item ++ rest) = some (item, rest))
    (layout : Layout) (opening : Char)
    (room : (layout.enclose opening closing (items.map written)).length ≤ fuel) :
    ∃ inner, layout.enclose opening closing (items.map written) = opening :: inner ∧
      ∀ rest, entries? skip true entry closing (fuel + 1) (inner ++ rest) = some (items, rest) := by
  obtain ⟨count, longest⟩ := length_enclose layout opening closing (items.map written)
  rw [List.length_map] at count
  have reads : ∀ item ∈ items, ∀ rest, Ends rest →
      entry (written item ++ rest) = some (item, rest) := by
    intro item listed rest ends
    have short := longest _ (List.mem_map_of_mem listed)
    exact reads item listed rest ends (by omega)
  cases items with
  | nil =>
      refine ⟨[closing], rfl, ?_⟩
      intro rest
      exact entries?_closing closes (fun c (listed : c ∈ []) => (nomatch listed)) fuel rest
  | cons item items =>
      refine ⟨layout.newline ++ enclose.body layout ((item :: items).map written) ++
        layout.outdent ++ [closing], rfl, ?_⟩
      intro rest
      have fits : (item :: items).length < fuel + 1 := by omega
      have back := entries?_body closes begins reads layout (isGap_newline layout) fits rest
      simpa only [List.append_assoc, List.singleton_append] using back

end Back

end Layout

end Dialogue.Ron
