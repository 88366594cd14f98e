import Dialogue.Text.Blank
import Mathlib.Data.List.DropRight

set_option autoImplicit false

namespace Dialogue.Text

variable {c : Char} {cs ds : List Char}

theorem trimStart_eq_self_iff : trimStart cs = cs ↔ ∀ c ∈ cs.head?, isBlank c = false := by
  unfold trimStart
  rw [List.dropWhile_eq_self_iff]
  cases cs <;> simp

theorem trimEnd_eq_self_iff : trimEnd cs = cs ↔ ∀ c ∈ cs.getLast?, isBlank c = false := by
  have mirrored : trimEnd cs = cs ↔ trimStart cs.reverse = cs.reverse := by
    unfold trimEnd trimStart
    rw [List.reverse_eq_iff]
  rw [mirrored, trimStart_eq_self_iff, List.head?_reverse]

theorem trimStart_trimStart (cs : List Char) : trimStart (trimStart cs) = trimStart cs :=
  List.dropWhile_idempotent isBlank cs

theorem trimEnd_trimEnd (cs : List Char) : trimEnd (trimEnd cs) = trimEnd cs :=
  List.rdropWhile_idempotent isBlank cs

/-- What is cut at the end leaves the first character as it is. -/
theorem trimStart_trimEnd (start : trimStart cs = cs) : trimStart (trimEnd cs) = trimEnd cs := by
  obtain ⟨cut, parts⟩ : trimEnd cs <+: cs := List.rdropWhile_prefix isBlank cs
  rw [trimStart_eq_self_iff] at start ⊢
  intro c first
  refine start c ?_
  rw [← parts, List.head?_append, first]
  rfl

theorem trim_trim (cs : List Char) : trim (trim cs) = trim cs := by
  unfold trim
  rw [trimStart_trimEnd (trimStart_trimStart cs), trimEnd_trimEnd]

/-- Neither the first nor the last character is blank. -/
def Trimmed (cs : List Char) : Prop :=
  (∀ c ∈ cs.head?, isBlank c = false) ∧ ∀ c ∈ cs.getLast?, isBlank c = false

instance (cs : List Char) : Decidable (Trimmed cs) :=
  @instDecidableAnd _ _ (Option.decidableForallMem cs.head?) (Option.decidableForallMem cs.getLast?)

theorem Trimmed.trimStart (trimmed : Trimmed cs) : trimStart cs = cs :=
  trimStart_eq_self_iff.mpr trimmed.1

theorem Trimmed.trimEnd (trimmed : Trimmed cs) : trimEnd cs = cs :=
  trimEnd_eq_self_iff.mpr trimmed.2

theorem Trimmed.trim (trimmed : Trimmed cs) : trim cs = cs := by
  unfold Text.trim
  rw [trimmed.trimStart, trimmed.trimEnd]

/-- A text that starts with no blank and ends as a trimmed text does. -/
theorem trimmed_append {front back : List Char} (start : ∀ c ∈ front.head?, isBlank c = false)
    (trimmed : Trimmed back) (filled : back ≠ []) : Trimmed (front ++ back) := by
  obtain ⟨last, ends⟩ := List.getLast?_isSome.mpr filled |> Option.isSome_iff_exists.mp
  constructor
  · cases front with
    | nil => exact trimmed.1
    | cons c front => exact start
  · rw [List.getLast?_append, ends]
    exact fun c same => trimmed.2 c (ends.trans same)

/-- White space around a trimmed text is cut off. -/
theorem trim_surrounded {lead tail : List Char} (trimmed : Trimmed cs) (filled : cs ≠ [])
    (blank : ∀ c ∈ lead ++ tail, isBlank c = true) : trim (lead ++ cs ++ tail) = cs := by
  rw [List.forall_mem_append] at blank
  have front : trimStart (lead ++ cs ++ tail) = cs ++ tail := by
    have solid : trimStart (cs ++ tail) = cs ++ tail := by
      rw [trimStart_eq_self_iff, List.head?_append_of_ne_nil _ filled]
      exact trimmed.1
    rw [List.append_assoc, trimStart, List.dropWhile_append_of_pos blank.1]
    exact solid
  have back : trimEnd (cs ++ tail) = cs := by
    rw [trimEnd, List.reverse_append, List.dropWhile_append_of_pos]
    · exact trimmed.trimEnd
    · intro c member
      exact blank.2 c (List.mem_reverse.mp member)
  rw [trim, front, back]

end Dialogue.Text
