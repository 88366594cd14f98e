import Dialogue.Proofs.Text.Trim

set_option autoImplicit false

namespace Dialogue.Text

@[simp] theorem after?_append (literal rest : List Char) :
    after? literal (literal ++ rest) = some rest := by
  induction literal with
  | nil => rfl
  | cons c literal ih => rw [List.cons_append, after?, if_pos rfl, ih]

theorem eq_append_of_after? {literal cs rest : List Char} (found : after? literal cs = some rest) :
    cs = literal ++ rest := by
  induction literal generalizing cs with
  | nil => exact Option.some.inj found
  | cons p literal ih =>
      cases cs with
      | nil => simp [after?] at found
      | cons c cs =>
          simp only [after?] at found
          split at found
          · rename_i same
            rw [same, ih found, List.cons_append]
          · cases found

/-- A literal that a text does not start with does not reach over its end, if what follows starts
with another character. -/
theorem after?_append_eq_none {literal cs more : List Char} (absent : after? literal cs = none)
    (apart : ∀ c ∈ more.head?, c ∉ literal) : after? literal (cs ++ more) = none := by
  induction literal generalizing cs with
  | nil => cases absent
  | cons p literal ih =>
      cases cs with
      | nil =>
          cases more with
          | nil => rfl
          | cons c more =>
              have other : p ≠ c := by
                rintro rfl
                exact apart p rfl (List.mem_cons_self ..)
              rw [List.nil_append, after?, if_neg other]
      | cons c cs =>
          rw [after?] at absent
          rw [List.cons_append, after?]
          split at absent
          · rename_i same
            rw [if_pos same]
            exact ih absent fun d first inside => apart d first (List.mem_cons_of_mem _ inside)
          · rename_i other
            rw [if_neg other]

theorem after?_eq_none_of_head? {literal cs : List Char} (named : literal ≠ [])
    (differ : cs.head? ≠ literal.head?) : after? literal cs = none := by
  cases literal with
  | nil => exact absurd rfl named
  | cons p literal =>
      cases cs with
      | nil => rfl
      | cons c cs => rw [after?, if_neg fun same => differ (congrArg some same.symm)]

theorem splitOnce_append {sep : Char} {before : List Char} (absent : sep ∉ before)
    (rest : List Char) : splitOnce sep (before ++ sep :: rest) = some (before, rest) := by
  induction before with
  | nil => simp [splitOnce]
  | cons c before ih =>
      obtain ⟨other, absent⟩ := not_or.mp (mt List.mem_cons.mpr absent)
      rw [List.cons_append, splitOnce, if_neg (Ne.symm other), ih absent]
      rfl

theorem splitOnce_eq_none {sep : Char} {cs : List Char} (absent : sep ∉ cs) :
    splitOnce sep cs = none := by
  induction cs with
  | nil => rfl
  | cons c cs ih =>
      obtain ⟨other, absent⟩ := not_or.mp (mt List.mem_cons.mpr absent)
      rw [splitOnce, if_neg (Ne.symm other), ih absent]
      rfl

theorem splitAll_eq_singleton {sep : Char} {part : List Char} (absent : sep ∉ part) :
    splitAll sep part = [part] := by
  induction part with
  | nil => rfl
  | cons c part ih =>
      obtain ⟨other, absent⟩ := not_or.mp (mt List.mem_cons.mpr absent)
      rw [splitAll, if_neg (Ne.symm other), ih absent]

theorem splitAll_append {sep : Char} {part : List Char} (absent : sep ∉ part) (rest : List Char) :
    splitAll sep (part ++ sep :: rest) = part :: splitAll sep rest := by
  induction part with
  | nil => rw [List.nil_append, splitAll, if_pos rfl]
  | cons c part ih =>
      obtain ⟨other, absent⟩ := not_or.mp (mt List.mem_cons.mpr absent)
      rw [List.cons_append, splitAll, if_neg (Ne.symm other), ih absent]

/-- Lines joined by a separator that none of them holds are found again. -/
theorem splitAll_join {sep : Char} {line : String} {lines : List String}
    (absent : ∀ part ∈ line :: lines, sep ∉ part.toList) :
    splitAll sep (join (String.singleton sep) (line :: lines)).toList =
      (line :: lines).map String.toList := by
  induction lines generalizing line with
  | nil =>
      exact splitAll_eq_singleton (absent line (List.mem_cons_self ..))
  | cons next lines ih =>
      obtain ⟨first, others⟩ := List.forall_mem_cons.mp absent
      rw [join, String.toList_append, String.toList_append, String.toList_singleton,
        List.append_assoc, List.singleton_append, splitAll_append first, ih others]
      rfl

/-- A run of characters of one kind ends where another character follows. -/
theorem span_append {p : Char → Bool} {run rest : List Char} (inside : ∀ c ∈ run, p c = true)
    (ends : ∀ c ∈ rest.head?, p c = false) :
    (run ++ rest).takeWhile p = run ∧ (run ++ rest).dropWhile p = rest := by
  rw [List.takeWhile_append_of_pos inside, List.dropWhile_append_of_pos inside]
  cases rest with
  | nil => exact ⟨List.append_nil run, rfl⟩
  | cons c rest => simp [ends c rfl]

theorem toNat_ne {c d : Char} (differ : c.toNat ≠ d.toNat) : c ≠ d :=
  fun same => differ (congrArg Char.toNat same)

theorem isUpper_iff (c : Char) : c.isUpper = true ↔ 65 ≤ c.toNat ∧ c.toNat ≤ 90 := by
  have shape : c.isUpper = decide (c.val ≥ 'A'.val ∧ c.val ≤ 'Z'.val) := rfl
  simp only [shape, decide_eq_true_eq, ge_iff_le, UInt32.le_iff_toNat_le]
  exact Iff.rfl

theorem isLower_iff (c : Char) : c.isLower = true ↔ 97 ≤ c.toNat ∧ c.toNat ≤ 122 := by
  have shape : c.isLower = (decide (c.val ≥ 'a'.val) && decide (c.val ≤ 'z'.val)) := rfl
  simp only [shape, Bool.and_eq_true, decide_eq_true_eq, ge_iff_le, UInt32.le_iff_toNat_le]
  exact Iff.rfl

theorem isDigit_iff (c : Char) : c.isDigit = true ↔ 48 ≤ c.toNat ∧ c.toNat ≤ 57 := by
  simp only [Char.isDigit, Bool.and_eq_true, decide_eq_true_eq, ge_iff_le, UInt32.le_iff_toNat_le]
  exact Iff.rfl

end Dialogue.Text
