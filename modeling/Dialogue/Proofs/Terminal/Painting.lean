import Dialogue.Proofs.Markup.Content
import Dialogue.Terminal.Stretch

set_option autoImplicit false

namespace Dialogue

namespace Terminal

/-- The characters between the start of a sequence and its end. -/
def isCodeChar (c : Char) : Bool :=
  c.isDigit || c = ';'

/-- A sequence that switches styles on or off. -/
def IsSequence (mark : List Char) : Prop :=
  ∃ codes : List Char, mark = '\x1b' :: '[' :: codes ++ ['m'] ∧ ∀ c ∈ codes, isCodeChar c = true

/-- A text, and the text with sequences put into it. -/
inductive Dressed : List Char → List Char → Prop
  | nil : Dressed [] []
  | char (c : Char) {text shown : List Char} (rest : Dressed text shown) :
      Dressed (c :: text) (c :: shown)
  | sequence {mark text shown : List Char} (switch : IsSequence mark)
      (rest : Dressed text shown) : Dressed text (mark ++ shown)

namespace Dressed

variable {text shown more others : List Char}

theorem refl (text : List Char) : Dressed text text := by
  induction text with
  | nil => exact .nil
  | cons c text ih => exact .char c ih

theorem append (first : Dressed text shown) (second : Dressed more others) :
    Dressed (text ++ more) (shown ++ others) := by
  induction first with
  | nil => exact second
  | char c _ ih => exact .char c ih
  | sequence switch _ ih =>
      rw [List.append_assoc]
      exact .sequence switch ih

end Dressed

/-- What follows a sequence at the start of a text. -/
def behindSequence? : List Char → Option (List Char)
  | '\x1b' :: '[' :: cs =>
      match cs.dropWhile isCodeChar with
      | 'm' :: rest => some rest
      | _ => none
  | _ => none

theorem length_behindSequence? {cs rest : List Char} (behind : behindSequence? cs = some rest) :
    rest.length < cs.length := by
  unfold behindSequence? at behind
  split at behind
  · rename_i codes
    split at behind
    · rename_i later shape
      obtain rfl := Option.some.inj behind
      have shorter := (List.dropWhile_suffix isCodeChar (l := codes)).length_le
      rw [shape, List.length_cons] at shorter
      simp only [List.length_cons]
      omega
    · cases behind
  · cases behind

/-- A text without the sequences in it. -/
def undressed (cs : List Char) : List Char :=
  match cs with
  | [] => []
  | c :: cs =>
      match _behind : behindSequence? (c :: cs) with
      | some rest => undressed rest
      | none => c :: undressed cs
termination_by cs.length
decreasing_by
  · exact length_behindSequence? _behind
  · exact Nat.lt_succ_self _

theorem behindSequence?_of_sequence {mark : List Char} (switch : IsSequence mark)
    (rest : List Char) : behindSequence? (mark ++ rest) = some rest := by
  obtain ⟨codes, rfl, plain⟩ := switch
  have dropped : (codes ++ 'm' :: rest).dropWhile isCodeChar = 'm' :: rest := by
    rw [List.dropWhile_append_of_pos plain]
    rfl
  simp [behindSequence?, dropped]

theorem Dressed.undressed_eq {text shown : List Char} (dressed : Dressed text shown)
    (free : '\x1b' ∉ text) : undressed shown = text := by
  induction dressed with
  | nil => rw [undressed]
  | @char c text shown rest ih =>
      obtain ⟨other, later⟩ := not_or.mp (mt List.mem_cons.mpr free)
      -- No character of the text starts a sequence, so what is taken out was put in.
      have none : behindSequence? (c :: shown) = none := by
        unfold behindSequence?
        split
        · rename_i same
          exact absurd (List.cons.inj same).1.symm other
        · rfl
      rw [undressed]
      split
      · rename_i found
        rw [none] at found
        cases found
      · rw [ih later]
  | @sequence mark text shown switch rest ih =>
      have behind := behindSequence?_of_sequence switch shown
      obtain ⟨codes, rfl, -⟩ := switch
      rw [List.cons_append, List.cons_append] at behind ⊢
      rw [undressed]
      split
      · rename_i found
        rw [behind] at found
        rw [← Option.some.inj found, ih free]
      · rename_i found
        rw [behind] at found
        cases found

namespace Style

theorem isCodeChar_of_mem_join {codes : List Nat} {c : Char}
    (listed : c ∈ (Text.join ";" (codes.map fun code => toString code)).toList) :
    isCodeChar c = true := by
  have number (code : Nat) (digit : c ∈ (toString code).toList) : isCodeChar c = true := by
    have listed : c ∈ Nat.toDigits 10 code := by simpa [Nat.repr] using digit
    rw [isCodeChar, Nat.isDigit_of_mem_toDigits (by decide) (by decide) listed, Bool.true_or]
  induction codes with
  | nil => cases listed
  | cons code codes ih =>
      cases codes with
      | nil => exact number code listed
      | cons next codes =>
          simp only [List.map_cons, Text.join, String.toList_append, List.mem_append] at listed
          rcases listed with (digit | mark) | later
          · exact number code digit
          · obtain rfl : c = ';' := by simpa using mark
            rfl
          · exact ih later

theorem opening_isSequence (s : Style) : IsSequence s.opening :=
  ⟨_, rfl, fun _ listed => isCodeChar_of_mem_join listed⟩

theorem reset_isSequence : IsSequence reset :=
  ⟨['0'], rfl, List.forall_mem_singleton.mpr rfl⟩

theorem reopen_dressed {mark : List Char} (switch : IsSequence mark) (text : List Char) :
    Dressed text (reopen mark text) := by
  fun_induction reopen mark text with
  | case1 cs ih =>
      rw [List.append_assoc]
      exact (Dressed.refl reset).append (.sequence switch ih)
  | case2 c cs _ ih => exact .char c ih
  | case3 => exact .nil

theorem paint_dressed (colored : Bool) (s : Style) (text : List Char) :
    Dressed text (s.paint colored text) := by
  unfold paint
  split
  · exact .refl text
  · have styled := (reopen_dressed s.opening_isSequence text).append
      (.sequence reset_isSequence .nil)
    rw [List.append_nil, List.append_nil] at styled
    rw [List.append_assoc]
    exact .sequence s.opening_isSequence styled

end Style

end Terminal

namespace Table

variable {α : Type} [BEq α]

theorem lookup_beq {entries others : List (String × α)}
    (same : beqWith.go (· == ·) entries others = true) (name : String) :
    (lookup name entries == lookup name others) = true := by
  induction entries generalizing others with
  | nil =>
      cases others with
      | nil => rfl
      | cons entry others => cases same
  | cons entry entries ih =>
      cases others with
      | nil => cases same
      | cons other others =>
          simp only [beqWith.go, Bool.and_eq_true, beq_iff_eq] at same
          obtain ⟨⟨names, values⟩, rest⟩ := same
          simp only [lookup, names]
          split
          · exact values
          · exact ih rest

end Table

theorem Wrapper.addTo_of_beq {v w : Wrapper} (same : (v == w) = true) (s : Terminal.Style) :
    v.addTo s = w.addTo s := by
  obtain ⟨name, -, properties⟩ := (Wrapper.beq_iff v w).mp same
  have color : (v.properties.get? "color" == w.properties.get? "color") = true :=
    Table.lookup_beq properties "color"
  unfold addTo
  rw [name]
  generalize v.properties.get? "color" = a at color ⊢
  generalize w.properties.get? "color" = b at color ⊢
  have alike : a = b ∨ ∃ x y, a = some (.number x) ∧ b = some (.number y) := by
    cases a with
    | none =>
        cases b with
        | none => exact .inl rfl
        | some b => cases color
    | some a =>
        cases b with
        | none => cases color
        | some b =>
            rcases PropertyValue.beq_iff.mp color with
              ⟨x, rfl, rfl⟩ | ⟨text, rfl, rfl⟩ | ⟨x, y, rfl, rfl, -⟩
            · exact .inl rfl
            · exact .inl rfl
            · exact .inr ⟨x, y, rfl, rfl⟩
  rcases alike with rfl | ⟨x, y, rfl, rfl⟩
  · rfl
  · rfl

theorem Terminal.Style.ofWrappers_of_agree {a b : List Wrapper} (agree : Markup.Agree a b) :
    ofWrappers a = ofWrappers b := by
  rcases agree with rfl | same
  · rfl
  · unfold ofWrappers
    generalize plain = s
    induction a generalizing b s with
    | nil =>
        cases b with
        | nil => rfl
        | cons w b => cases same
    | cons v a ih =>
        cases b with
        | nil => cases same
        | cons w b =>
            rw [List.cons_beq_cons, Bool.and_eq_true] at same
            rw [List.foldl_cons, List.foldl_cons, Wrapper.addTo_of_beq same.1, ih same.2]

end Dialogue
