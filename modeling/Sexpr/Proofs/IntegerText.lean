import Mathlib.Data.List.TakeWhile
import Sexpr.Json.Numeral

/-!
# Integers in writing

An integer is written in decimal, with a minus sign if it is negative and no
zeros in front. Both texts that a value has rest on this. In the canonical text
an integer is a word like any other, made of digits and the sign; in a document
it is a numeral, and read as one it is the integer again.
-/

namespace Sexpr

theorem toList_toString_int (n : Int) :
    (toString n).toList = (if n < 0 then ['-'] else []) ++ Nat.toDigits 10 n.natAbs := by
  show n.repr.toList = _
  rw [Int.repr_eq_if]
  by_cases h : 0 ≤ n
  · rw [if_pos h, if_neg (by omega), Nat.repr_eq_ofList_toDigits, String.toList_ofList,
      show n.toNat = n.natAbs by omega]
    rfl
  · rw [if_neg h, if_pos (by omega), String.toList_append, Nat.repr_eq_ofList_toDigits,
      String.toList_ofList, String.toList_ofList, show (-n).toNat = n.natAbs by omega]

theorem isDigit_of_mem_toDigits {c : Char} {n : Nat} (h : c ∈ Nat.toDigits 10 n) :
    c.isDigit = true :=
  Nat.isDigit_of_mem_toDigits (by decide) (by decide) h

theorem mem_toString_int {c : Char} {n : Int} (h : c ∈ (toString n).toList) :
    c = '-' ∨ c.isDigit = true := by
  rw [toList_toString_int] at h
  rcases List.mem_append.1 h with hsign | hdigit
  · split at hsign
    · exact .inl (List.mem_singleton.1 hsign)
    · cases hsign
  · exact .inr (isDigit_of_mem_toDigits hdigit)

theorem toString_int_ne_nil (n : Int) : (toString n).toList ≠ [] := by
  rw [toList_toString_int]
  simp [Nat.toDigits_ne_nil]

/-- The digits of a number begin with a zero only if it is zero. -/
theorem eq_zero_of_head?_toDigits {n : Nat} (h : (Nat.toDigits 10 n).head? = some '0') :
    n = 0 := by
  induction n using Nat.strongRecOn with
  | ind n ih =>
      by_cases hsmall : n < 10
      · rw [Nat.toDigits_of_lt_base hsmall] at h
        simpa [Nat.digitChar_eq_zero] using h
      · -- The first digit is that of a tenth of the number.
        rw [Nat.toDigits_of_base_le (by decide) (by omega), List.head?_append] at h
        have htenth : (Nat.toDigits 10 (n / 10)).head? = some '0' := by
          cases hdigits : Nat.toDigits 10 (n / 10) with
          | nil => exact absurd hdigits Nat.toDigits_ne_nil
          | cons digit rest => simpa [hdigits] using h
        have := ih (n / 10) (by omega) htenth
        omega

/-! ## Read as numerals -/

namespace Numeral

theorem natural_toDigits (n : Nat) : natural (Nat.toDigits 10 n) = n := by
  have h := Nat.ofDigitChars_ten_toDigits (n := n)
  rw [Nat.ofDigitChars_eq_foldl] at h
  exact h

/-- The numeral of an integer. -/
def ofInt (n : Int) : Numeral :=
  ⟨decide (n < 0), Nat.toDigits 10 n.natAbs, none, none⟩

theorem integer?_ofInt (n : Int) : (ofInt n).integer? = some n := by
  simp only [integer?, ofInt, natural_toDigits]
  by_cases h : n < 0
  · have hne : n.natAbs ≠ 0 := by omega
    have habs : (n.natAbs : Int) = -n := by omega
    rw [decide_eq_true h, if_pos rfl, if_neg hne, habs, Int.neg_neg]
  · have habs : (n.natAbs : Int) = n := by omega
    rw [decide_eq_false h, if_neg (by decide), habs]

theorem scanDigits?_toDigits (n : Nat) :
    scanDigits? (Nat.toDigits 10 n) = some (Nat.toDigits 10 n, []) := by
  have hall : ∀ c ∈ Nat.toDigits 10 n, c.isDigit = true := fun c => isDigit_of_mem_toDigits
  have htake : (Nat.toDigits 10 n).takeWhile Char.isDigit = Nat.toDigits 10 n :=
    List.takeWhile_eq_self_iff.2 hall
  have hdrop : (Nat.toDigits 10 n).dropWhile Char.isDigit = [] :=
    List.dropWhile_eq_nil_iff.2 hall
  simp [scanDigits?, htake, hdrop, Nat.toDigits_ne_nil]

theorem scanMinus_toString (n : Int) :
    scanMinus (toString n).toList = (decide (n < 0), Nat.toDigits 10 n.natAbs) := by
  rw [toList_toString_int]
  by_cases h : n < 0
  · simp [h, scanMinus]
  · rw [if_neg h, List.nil_append, decide_eq_false h]
    cases hdigits : Nat.toDigits 10 n.natAbs with
    | nil => rfl
    | cons c rest =>
        have hdigit : c.isDigit = true :=
          isDigit_of_mem_toDigits (n := n.natAbs) (by simp [hdigits])
        rw [scanMinus]
        intro _ heq
        rw [(List.cons.inj heq).1] at hdigit
        exact absurd hdigit (by decide)

theorem ofLiteral?_toString (n : Int) : ofLiteral? (toString n) = some (ofInt n) := by
  have hzero : ¬ ((Nat.toDigits 10 n.natAbs).head? = some '0' ∧
      (Nat.toDigits 10 n.natAbs).length ≠ 1) := by
    rintro ⟨hhead, hlength⟩
    rw [eq_zero_of_head?_toDigits hhead] at hlength
    exact hlength rfl
  have hscan : scan? (toString n).toList = some (ofInt n, []) := by
    simp only [scan?, scanMinus_toString, bind, Option.bind, scanDigits?_toDigits, if_neg hzero]
    rfl
  rw [ofLiteral?, hscan]

end Numeral

/-- Integers that are written alike read alike. -/
theorem toString_int_inj {m n : Int} (h : toString m = toString n) : m = n := by
  have hnumeral : Numeral.ofInt m = Numeral.ofInt n :=
    Option.some.inj (by rw [← Numeral.ofLiteral?_toString, h, Numeral.ofLiteral?_toString])
  exact Option.some.inj (by rw [← Numeral.integer?_ofInt, hnumeral, Numeral.integer?_ofInt])

end Sexpr
