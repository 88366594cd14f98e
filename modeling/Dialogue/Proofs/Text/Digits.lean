import Dialogue.Text.Hex
import Mathlib.Data.List.Induction

set_option autoImplicit false

namespace Dialogue.Text

variable {base : Nat}

theorem hexDigit?_digitChar {d : Nat} (small : d < 16) : hexDigit? (Nat.digitChar d) = some d := by
  have table : ∀ d < 16, hexDigit? (Nat.digitChar d) = some d := by decide
  exact table d small

theorem numeral?_concat (base : Nat) (digits : List Char) (c : Char) :
    numeral? base (digits ++ [c]) = (numeral? base digits).bind fun n =>
      (hexDigit? c).bind fun d => if d < base then some (base * n + d) else none := by
  unfold numeral?
  rw [List.foldl_append]
  rfl

/-- Nothing but digits spells a number. -/
theorem isSome_hexDigit?_of_numeral? {digits : List Char} {n : Nat}
    (spelled : numeral? base digits = some n) : ∀ c ∈ digits, (hexDigit? c).isSome := by
  induction digits using List.reverseRecOn generalizing n with
  | nil => exact fun c listed => (nomatch listed)
  | append_singleton digits last ih =>
      rw [numeral?_concat] at spelled
      obtain ⟨front, fronts, spelled⟩ := Option.bind_eq_some_iff.mp spelled
      obtain ⟨d, digit, -⟩ := Option.bind_eq_some_iff.mp spelled
      intro c listed
      rcases List.mem_append.mp listed with early | final
      · exact ih fronts c early
      · rw [List.mem_singleton.mp final, digit]
        rfl

/-- By induction on the number, whose last digit is its remainder. -/
theorem numeral?_toDigits (several : 1 < base) (known : base ≤ 16) (n : Nat) :
    numeral? base (Nat.toDigits base n) = some n := by
  induction n using Nat.strongRecOn with
  | ind n ih =>
      rw [Nat.toDigits_eq_if several]
      by_cases last : n < base
      · have digit : hexDigit? (Nat.digitChar n) = some n := hexDigit?_digitChar (by omega)
        rw [if_pos last, ← List.nil_append [_], numeral?_concat, digit]
        simp [numeral?, last]
      · have less : n % base < base := Nat.mod_lt n (by omega)
        have digit : hexDigit? (Nat.digitChar (n % base)) = some (n % base) :=
          hexDigit?_digitChar (by omega)
        have front := ih (n / base) (Nat.div_lt_self (by omega) several)
        rw [if_neg last, numeral?_concat, front, digit]
        simp [less, Nat.div_add_mod]

theorem toDigits_inj (several : 1 < base) (known : base ≤ 16) {m n : Nat}
    (same : Nat.toDigits base m = Nat.toDigits base n) : m = n := by
  have numbers := congrArg (numeral? base) same
  rw [numeral?_toDigits several known, numeral?_toDigits several known] at numbers
  exact Option.some.inj numbers

theorem isSome_hexDigit?_of_mem_toDigits (several : 1 < base) (known : base ≤ 16) {n : Nat}
    {c : Char} (listed : c ∈ Nat.toDigits base n) : (hexDigit? c).isSome :=
  isSome_hexDigit?_of_numeral? (numeral?_toDigits several known n) c listed

end Dialogue.Text
