import Dialogue.Text.Cursor

set_option autoImplicit false

namespace Dialogue.Text

open String (ofList)

theorem singleton_append_ofList (c : Char) (cs : List Char) :
    String.singleton c ++ ofList cs = ofList (c :: cs) := by
  rw [← String.toList_inj]
  simp

section Positions

variable {text : String} {p q : text.Pos} {before middle after : List Char} {mark : Char}

/-- What is cut out between two positions are the characters between them. -/
theorem extract_eq_ofList (starts : p.Splits (ofList before) (ofList (middle ++ after)))
    (ends : q.Splits (ofList (before ++ middle)) (ofList after)) :
    String.extract p q = ofList middle := by
  rw [String.ofList_append] at starts ends
  obtain ⟨ordered, cut⟩ := String.copy_slice_eq_iff_splits.mpr ⟨_, _, starts, ends⟩
  rw [String.extract_eq_copy_slice p q ordered, cut]

/-- A search stops at the first occurrence. -/
theorem exists_find?_eq_some (here : p.Splits (ofList before) (ofList (middle ++ mark :: after)))
    (absent : mark ∉ middle) :
    ∃ found, p.find? mark = some found ∧
      found.Splits (ofList (before ++ middle)) (ofList (mark :: after)) := by
  have shape : text = ofList (before ++ middle) ++ ofList (mark :: after) := by
    rw [here.eq_append, ← String.ofList_append, ← String.ofList_append, List.append_assoc]
  have splits := String.Pos.splits_ofEqAppend shape
  refine ⟨_, (String.Pos.find?_char_eq_some_iff_splits here).mpr
    ⟨ofList middle, ofList after, ?_, by simpa using absent⟩, splits⟩
  rw [singleton_append_ofList, ← String.ofList_append]
  exact splits

theorem find?_eq_none (here : p.Splits (ofList before) (ofList after)) (absent : mark ∉ after) :
    p.find? mark = none :=
  (String.Pos.find?_char_eq_none_iff_not_mem_of_splits here).mpr (by simpa using absent)

end Positions

namespace Cursor

variable {text : String} {c : Cursor text} {before after : List Char}

/-- The characters before a cursor, which it has counted, and those after it. -/
structure Between (c : Cursor text) (before after : List Char) : Prop where
  splits : c.pos.Splits (ofList before) (ofList after)
  index : c.index = before.length

theorem between_start (text : String) : (start text).Between [] text.toList where
  splits := by
    rw [String.ofList_toList]
    exact String.splits_startPos text
  index := rfl

namespace Between

theorem next?_eq_none (here : c.Between before []) : c.next? = none := by
  have ended : c.pos = text.endPos := here.splits.eq_endPos_iff.mpr rfl
  rw [next?, dif_pos ended]

theorem exists_next? {ch : Char} (here : c.Between before (ch :: after)) :
    ∃ next, c.next? = some (ch, next) ∧ next.Between (before ++ [ch]) after := by
  have splits := here.splits
  rw [← singleton_append_ofList] at splits
  have stepped := splits.next
  have inside := splits.ne_endPos_of_singleton
  refine ⟨_, by rw [next?, dif_neg inside, stepped.get_eq_of_singleton], ?_, ?_⟩
  · rw [String.ofList_append]
    exact stepped
  · rw [here.index, List.length_append, List.length_singleton]

theorem skip {front : List Char} (here : c.Between before (front ++ after)) :
    (c.skip front.length).Between (before ++ front) after := by
  induction front generalizing c before with
  | nil =>
      rw [List.append_nil]
      exact here
  | cons ch front ih =>
      obtain ⟨next, stepped, there⟩ := exists_next? here
      rw [List.length_cons, Cursor.skip, stepped, List.append_cons]
      exact ih there

end Between

end Cursor

end Dialogue.Text
