import Dialogue.Decimal.Shortest
import Dialogue.Proofs.Text.Digits
import Dialogue.Proofs.Text.Literal
import Dialogue.Ron.Read

set_option autoImplicit false

namespace Dialogue.Ron

open Dialogue.Text

theorem charOfCode?_toNat (c : Char) : charOfCode? c.toNat = some c := by
  have known : c.toNat.isValidChar := c.valid
  unfold charOfCode?
  rw [if_pos known, Char.ofNat_toNat]

theorem codeEscape?_toDigits (c : Char) (rest : List Char) :
    codeEscape? ('\x7b' :: Nat.toDigits 16 c.toNat ++ '\x7d' :: rest) = some (c, rest) := by
  have brace : '\x7d' ∉ Nat.toDigits 16 c.toNat := by
    intro listed
    have digit := isSome_hexDigit?_of_mem_toDigits (by decide) (by decide) listed
    exact absurd digit (by decide)
  have code : c.toNat < 16 ^ 6 := by
    rcases c.valid with low | ⟨-, high⟩
    · exact lt_trans low (by decide)
    · exact lt_trans high (by decide)
  have short : ¬6 < (Nat.toDigits 16 c.toNat).length := by
    have short := (Nat.length_toDigits_le_iff (by decide) (by decide)).mpr code
    omega
  have spelled : numeral? 16 (Nat.toDigits 16 c.toNat) = some c.toNat :=
    numeral?_toDigits (by decide) (by decide) c.toNat
  rw [List.cons_append, codeEscape?, splitOnce_append brace]
  simp [short, spelled, charOfCode?_toNat]

/-- A character stands in a quoted text for itself, or behind a backslash. -/
theorem escapeChar_cases (c : Char) :
    (escapeChar c = [c] ∧ c ≠ '"' ∧ c ≠ '\\') ∨
      ∃ body, escapeChar c = '\\' :: body ∧
        ∀ bytes rest, escape? bytes (body ++ rest) = some (c, rest) := by
  by_cases zero : c = '\x00'
  · subst zero
    exact .inr ⟨['0'], rfl, fun bytes rest => rfl⟩
  by_cases tab : c = '\t'
  · subst tab
    exact .inr ⟨['t'], rfl, fun bytes rest => rfl⟩
  by_cases carriage : c = '\r'
  · subst carriage
    exact .inr ⟨['r'], rfl, fun bytes rest => rfl⟩
  by_cases newline : c = '\n'
  · subst newline
    exact .inr ⟨['n'], rfl, fun bytes rest => rfl⟩
  by_cases mark : c = '"' ∨ c = '\'' ∨ c = '\\'
  · rcases mark with rfl | rfl | rfl
    · exact .inr ⟨['"'], rfl, fun bytes rest => rfl⟩
    · exact .inr ⟨['\''], rfl, fun bytes rest => rfl⟩
    · exact .inr ⟨['\\'], rfl, fun bytes rest => rfl⟩
  obtain ⟨quote, apostrophe, backslash⟩ := by simpa only [not_or] using mark
  have shape : escapeChar c =
      if isHidden c then '\\' :: 'u' :: '\x7b' :: Nat.toDigits 16 c.toNat ++ ['\x7d'] else [c] := by
    simp [escapeChar, zero, tab, carriage, newline, quote, apostrophe, backslash]
  by_cases hidden : isHidden c
  · rw [if_pos hidden] at shape
    refine .inr ⟨_, shape, ?_⟩
    intro bytes rest
    simpa [escape?] using codeEscape?_toDigits c rest
  · rw [if_neg hidden] at shape
    exact .inl ⟨shape, quote, backslash⟩

/-- What quotes are read as. -/
def inQuotes? : Nat → List Char → Option (List Char × List Char) :=
  quoted? (fun c => [c]) fun cs => (escape? 4 cs).map fun (c, rest) => ([c], rest)

theorem inQuotes?_plain {c : Char} (quote : c ≠ '"') (mark : c ≠ '\\') (fuel : Nat)
    (cs : List Char) : inQuotes? (fuel + 1) (c :: cs) =
      (inQuotes? fuel cs).map fun (inner, rest) => (c :: inner, rest) := by
  unfold inQuotes?
  rw [quoted?.eq_5 _ _ _ _ _ quote mark]
  cases quoted? _ _ fuel cs <;> rfl

theorem inQuotes?_escaped {cs rest : List Char} {c : Char} (escaped : escape? 4 cs = some (c, rest))
    (fuel : Nat) : inQuotes? (fuel + 1) ('\\' :: cs) =
      (inQuotes? fuel rest).map fun (inner, rest) => (c :: inner, rest) := by
  unfold inQuotes?
  rw [quoted?.eq_4, escaped]
  show (quoted? _ _ fuel rest).bind _ = _
  cases quoted? _ _ fuel rest <;> rfl

/-- By induction on the text; every character takes up at least one. -/
theorem inQuotes?_flatMap (cs rest : List Char) {fuel : Nat}
    (room : (cs.flatMap escapeChar).length < fuel) :
    inQuotes? fuel (cs.flatMap escapeChar ++ '"' :: rest) = some (cs, rest) := by
  induction cs generalizing fuel with
  | nil =>
      obtain ⟨fuel, rfl⟩ : ∃ less, fuel = less + 1 := ⟨fuel - 1, by omega⟩
      rfl
  | cons c cs ih =>
      rw [List.flatMap_cons, List.length_append] at room
      rw [List.flatMap_cons, List.append_assoc]
      obtain ⟨fuel, rfl⟩ : ∃ less, fuel = less + 1 := ⟨fuel - 1, by omega⟩
      rcases escapeChar_cases c with ⟨plain, quote, mark⟩ | ⟨body, escaped, back⟩
      · rw [plain, List.length_singleton] at room
        have inner : (cs.flatMap escapeChar).length < fuel := by omega
        rw [plain, List.singleton_append, inQuotes?_plain quote mark, ih inner]
        rfl
      · rw [escaped, List.length_cons] at room
        have inner : (cs.flatMap escapeChar).length < fuel := by omega
        rw [escaped, List.cons_append, inQuotes?_escaped (back 4 _), ih inner]
        rfl

theorem text?_quote (cs rest : List Char) : text? (quote cs ++ rest) = some (cs, rest) := by
  have shape : quote cs ++ rest = '"' :: (cs.flatMap escapeChar ++ '"' :: rest) := by
    simp [quote]
  rw [shape]
  apply inQuotes?_flatMap
  rw [List.length_append, List.length_cons]
  omega

theorem isDigit_of_mem_toDigits {n : Nat} {c : Char} (listed : c ∈ Nat.toDigits 10 n) :
    c.isDigit = true :=
  Nat.isDigit_of_mem_toDigits (by decide) (by decide) listed

theorem splitSign_of_digits {cs : List Char} (digits : ∀ c ∈ cs, c.isDigit = true) :
    splitSign cs = (false, cs) := by
  unfold splitSign
  split
  · exact absurd (digits '-' (List.mem_cons_self ..)) (by decide)
  · exact absurd (digits '+' (List.mem_cons_self ..)) (by decide)
  · rfl

theorem splitBase_of_digits {cs : List Char} (digits : ∀ c ∈ cs, c.isDigit = true) :
    splitBase cs = (10, cs) := by
  unfold splitBase
  split
  · exact absurd (digits 'x' (by simp)) (by decide)
  · exact absurd (digits 'o' (by simp)) (by decide)
  · exact absurd (digits 'b' (by simp)) (by decide)
  · rfl

theorem whole?_toDigits {n : Nat} (small : n < Nat.pow 2 64) :
    whole? (Nat.toDigits 10 n) = some (.whole n []) := by
  have digits : ∀ c ∈ Nat.toDigits 10 n, c.isDigit = true := fun c => isDigit_of_mem_toDigits
  have spelled : numeral? 10 (Nat.toDigits 10 n) = some n :=
    numeral?_toDigits (by decide) (by decide) n
  have whole : ∀ c ∈ Nat.toDigits 10 n, isWholeChar c = true := by
    intro c listed
    simp [isWholeChar, isSome_hexDigit?_of_numeral? spelled c listed]
  have nonempty : (Nat.toDigits 10 n).isEmpty = false :=
    List.isEmpty_eq_false_iff.mpr Nat.toDigits_ne_nil
  have bare : ∀ c ∈ Nat.toDigits 10 n, c ≠ '_' := by
    rintro c listed rfl
    exact absurd (digits '_' listed) (by decide)
  have start : (Nat.toDigits 10 n).head? ≠ some '_' := fun first =>
    bare '_' (List.mem_of_head? first) rfl
  have digits_first : ¬((Nat.toDigits 10 n).isEmpty ||
      decide ((Nat.toDigits 10 n).head? = some '_')) = true := by
    rw [nonempty, decide_eq_false start]
    decide
  have kept : (Nat.toDigits 10 n).filter (fun c => decide (c ≠ '_')) = Nat.toDigits 10 n :=
    List.filter_eq_self.mpr fun c listed => decide_eq_true (bare c listed)
  have run := span_append whole fun c (first : c ∈ [].head?) => (nomatch first)
  rw [List.append_nil] at run
  have limits : bounds? [] = some (-9223372036854775808, 18446744073709551615) := rfl
  have within : (decide (-9223372036854775808 ≤ (n : Int)) &&
      decide ((n : Int) ≤ 18446744073709551615)) = true := by
    have limit : Nat.pow 2 64 = 18446744073709551616 := rfl
    rw [Bool.and_eq_true, decide_eq_true_eq, decide_eq_true_eq]
    omega
  unfold whole?
  rw [splitSign_of_digits digits]
  dsimp only
  rw [splitBase_of_digits digits]
  dsimp only
  rw [run.1, run.2, if_neg digits_first, if_neg (by decide), kept, spelled, limits]
  exact if_pos within

/-- A natural number is read back from its digits. -/
theorem number?_toDigits {n : Nat} (small : n < Nat.pow 2 64) :
    (number? (Nat.toDigits 10 n)).bind Number.toNat? = some n := by
  unfold number?
  rw [whole?_toDigits small]
  simp [Number.toNat?]

/-- The shape of a number in digits. -/
structure InDigits (literal : List Char) : Prop where
  starts : literal.head?.any startsNumber = true
  inside : ∀ c ∈ literal, isNumberChar c = true

theorem isNumberChar_of_isDigit {c : Char} (digit : c.isDigit = true) : isNumberChar c = true := by
  simp [isNumberChar, Char.isAlphanum, digit]

theorem InDigits.append {literal more : List Char} (shape : InDigits literal)
    (inside : ∀ c ∈ more, isNumberChar c = true) : InDigits (literal ++ more) where
  starts := by
    cases literal with
    | nil => exact absurd shape.starts (by decide)
    | cons c cs => exact shape.starts
  inside := List.forall_mem_append.mpr ⟨shape.inside, inside⟩

theorem InDigits.minus {cs : List Char} (inside : ∀ c ∈ cs, isNumberChar c = true) :
    InDigits ('-' :: cs) where
  starts := rfl
  inside := List.forall_mem_cons.mpr ⟨rfl, inside⟩

theorem inDigits_of_isDigit {digits : List Char} (nonempty : digits ≠ [])
    (all : ∀ c ∈ digits, c.isDigit = true) : InDigits digits where
  starts := by
    obtain ⟨c, cs, rfl⟩ := List.exists_cons_of_ne_nil nonempty
    simp [startsNumber, all c (List.mem_cons_self ..)]
  inside c listed := isNumberChar_of_isDigit (all c listed)

theorem inDigits_positional (digits : Nat) (exponent : Int) :
    InDigits (Decimal.positional digits exponent).toList := by
  unfold Decimal.positional
  have all : ∀ c ∈ Nat.toDigits 10 digits, c.isDigit = true := fun c => isDigit_of_mem_toDigits
  have zeros : ∀ count, ∀ c ∈ List.replicate count '0', c.isDigit = true := by
    intro count c listed
    rw [List.eq_of_mem_replicate listed]
    rfl
  dsimp only
  split
  · rw [String.toList_ofList]
    apply InDigits.append (inDigits_of_isDigit Nat.toDigits_ne_nil all)
    intro c listed
    exact isNumberChar_of_isDigit (zeros _ c listed)
  · rename_i negative
    generalize places_eq : (-exponent).toNat = places
    generalize padded_eq : List.replicate (places + 1 - (Nat.toDigits 10 digits).length) '0' ++
      Nat.toDigits 10 digits = padded
    have within : ∀ c ∈ padded, c.isDigit = true := by
      rw [← padded_eq]
      exact List.forall_mem_append.mpr ⟨zeros _, all⟩
    have long : places < padded.length := by
      rw [← padded_eq, List.length_append, List.length_replicate]
      omega
    rw [String.toList_ofList]
    apply InDigits.append
    · -- At least one digit stands before the point.
      apply inDigits_of_isDigit
      · intro empty
        have none_left := congrArg List.length empty
        rw [List.length_take, List.length_nil] at none_left
        omega
      · exact fun c listed => within c (List.mem_of_mem_take listed)
    · intro c listed
      split at listed
      · cases listed
      · rcases List.mem_cons.mp listed with rfl | listed
        · rfl
        · apply isNumberChar_of_isDigit
          apply within
          rw [List.mem_reverse] at listed
          have dropped := (List.dropWhile_suffix _).subset listed
          exact List.mem_of_mem_drop (List.mem_reverse.mp dropped)

/-- A number is shown in digits, or by a name. -/
theorem render_cases (x : Float) :
    (Decimal.render x).toList = "inf".toList ∨ (Decimal.render x).toList = "NaN".toList ∨
      InDigits (Decimal.render x).toList := by
  unfold Decimal.render
  split
  · exact .inr (.inl rfl)
  · dsimp only
    generalize sign_eq : (if x.toBits.toNat / Nat.pow 2 63 = 1 then "-" else "") = sign
    have signs : sign = "-" ∨ sign = "" := by
      rw [← sign_eq]
      split
      · exact .inl rfl
      · exact .inr rfl
    have signed : ∀ shown : String, InDigits shown.toList → InDigits (sign ++ shown).toList := by
      intro shown shape
      rw [String.toList_append]
      rcases signs with rfl | rfl
      · exact .minus shape.inside
      · exact shape
    by_cases infinite : x.isInf = true
    · rw [if_pos infinite]
      rcases signs with rfl | rfl
      · exact .inr (.inr (.minus (List.all_eq_true.mp (by decide))))
      · exact .inl rfl
    · rw [if_neg infinite]
      refine .inr (.inr ?_)
      split
      · exact signed "0" ⟨by decide, List.all_eq_true.mp (by decide)⟩
      · exact signed _ (inDigits_positional _ _)

end Dialogue.Ron
