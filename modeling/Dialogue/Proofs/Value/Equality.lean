import Dialogue.Proofs.Text.Literal
import Dialogue.Value.Basic

set_option autoImplicit false

namespace Dialogue

namespace Value

variable {enum other case otherCase : String}

theorem looseEq_enumCase_iff :
    (enumCase enum case).looseEq (enumCase other otherCase) = true ↔
      case = otherCase ∧ (enum = "" ∨ other = "" ∨ enum = other) := by
  simp only [looseEq, Bool.and_eq_true, Bool.or_eq_true, beq_iff_eq, String.isEmpty_iff, or_assoc]

/-- The spelling of a case falls apart at the dot behind its enumeration, whatever dots the case
itself has. -/
theorem splitOnce_toText (plain : '.' ∉ enum.toList) (case : String) :
    Text.splitOnce '.' (enumCase enum case).toText.toList = some (enum.toList, case.toList) := by
  have spelled : (enumCase enum case).toText.toList = enum.toList ++ '.' :: case.toList := by
    simp [toText, String.toList_append]
  rw [spelled, Text.splitOnce_append plain]

/-- A spelling without an enumeration is that case of any enumeration; a case without one has no
spelling but its own. -/
theorem spells_toText_iff (plain : '.' ∉ other.toList) :
    spells (enumCase other otherCase).toText enum case = true ↔
      case = otherCase ∧ (other = "" ∨ other = enum) := by
  have empty : other.toList.isEmpty = true ↔ other = "" := by
    rw [List.isEmpty_iff, String.toList_eq_nil_iff]
  unfold spells
  rw [splitOnce_toText plain]
  simp only [String.ofList_toList, Bool.and_eq_true, Bool.or_eq_true, beq_iff_eq, empty]
  rw [eq_comm]

/-- A case and the spelling of another one, compared in both orders. -/
theorem looseEq_spelling (enum case otherCase : String) (plain : '.' ∉ other.toList) :
    let tag := enumCase enum case
    let named := enumCase other otherCase
    tag.looseEq named = named.looseEq tag ∧
    tag.looseEq (text named.toText) = (text named.toText).looseEq tag ∧
    (tag.looseEq (text named.toText) = true ↔ case = otherCase ∧ (other = "" ∨ other = enum)) ∧
    (tag.looseEq (text named.toText) = tag.looseEq named ↔
      ¬(enum = "" ∧ other ≠ "" ∧ case = otherCase)) := by
  intro tag named
  have spelled : tag.looseEq (text named.toText) = true ↔
      case = otherCase ∧ (other = "" ∨ other = enum) := spells_toText_iff plain
  have compared : tag.looseEq named = true ↔
      case = otherCase ∧ (enum = "" ∨ other = "" ∨ enum = other) := looseEq_enumCase_iff
  refine ⟨?_, rfl, spelled, ?_⟩
  · rw [Bool.eq_iff_iff, compared, looseEq_enumCase_iff]
    grind
  · rw [Bool.eq_iff_iff, spelled, compared]
    grind

/-- Cases with dots in them, one of which is written without its enumeration. -/
theorem looseEq_spelling_dotted :
    '.' ∉ "Sky".toList ∧
      (enumCase "Sky" "Rain.Late").looseEq (text (enumCase "Sky" "Rain.Late").toText) = true ∧
      '.' ∉ "".toList ∧
      (text (enumCase "" "Rain.Late").toText).looseEq (enumCase "Sky" "Rain.Late") = true := by
  have named : '.' ∉ "Sky".toList := by decide
  have bare : '.' ∉ "".toList := by decide
  obtain ⟨-, -, same, -⟩ := looseEq_spelling "Sky" "Rain.Late" "Rain.Late" named
  obtain ⟨-, swapped, free, -⟩ := looseEq_spelling "Sky" "Rain.Late" "Rain.Late" bare
  exact ⟨named, same.mpr ⟨rfl, .inr rfl⟩, bare, swapped ▸ free.mpr ⟨rfl, .inl rfl⟩⟩

/-- A case without an enumeration equals the case that another names, but not its spelling. -/
theorem bare_case_ne_spelling :
    '.' ∉ "".toList ∧ '.' ∉ "Mood".toList ∧
      (enumCase "" "Calm").looseEq (enumCase "Mood" "Calm") = true ∧
      (enumCase "" "Calm").looseEq (text (enumCase "Mood" "Calm").toText) = false := by
  decide

end Value

end Dialogue
