import Mathlib.Data.Nat.Basic

/-! Decimal numerals of a bounded type. The reader checks every product and every sum on
its way; that comes to one check of the value at the end. -/
namespace SvcAuth.Numerals

/-- The value of the digits behind a value read before. It is given up as soon as a product
or a sum reaches the bound. -/
def readDigits (bound : ℕ) : List Char → ℕ → Option ℕ
  | [], n => some n
  | c :: cs, n =>
    if c.isDigit then
      if n * 10 < bound then
        let m := n * 10 + (c.toNat - '0'.toNat)
        if m < bound then readDigits bound cs m else none
      else none
    else none

/-- What stands behind a plus sign, if there is one. -/
def unsigned : List Char → List Char
  | '+' :: cs => cs
  | cs => cs

/-- An unsigned number has one digit at least. -/
def readUnsigned (bound : ℕ) (s : String) : Option ℕ :=
  let cs := unsigned s.toList
  if cs.isEmpty then none else readDigits bound cs 0

variable {bound n m : ℕ} {cs : List Char} {s : String}

theorem le_ofDigitChars (cs : List Char) (n : ℕ) : n ≤ Nat.ofDigitChars 10 cs n := by
  induction cs generalizing n with
  | nil => simp
  | cons c cs ih =>
    rw [Nat.ofDigitChars_cons]
    have hrest := ih (10 * n + (c.toNat - '0'.toNat))
    omega

/-- No partial value is larger than the last one, so one check at the end is enough. -/
theorem readDigits_iff (hn : n < bound) : readDigits bound cs n = some m ↔
    (∀ c ∈ cs, c.isDigit = true) ∧ Nat.ofDigitChars 10 cs n = m ∧ m < bound := by
  induction cs generalizing n with
  | nil =>
    simp only [readDigits, Option.some.injEq, List.not_mem_nil, false_imp_iff, implies_true,
      Nat.ofDigitChars_nil, true_and]
    constructor
    · rintro rfl
      exact ⟨rfl, hn⟩
    · exact fun h => h.1
  | cons c cs ih =>
    have hle := le_ofDigitChars cs (10 * n + (c.toNat - '0'.toNat))
    rw [readDigits, Nat.ofDigitChars_cons, List.forall_mem_cons, Nat.mul_comm n 10]
    by_cases hc : c.isDigit = true
    · rw [if_pos hc]
      by_cases hsum : 10 * n + (c.toNat - '0'.toNat) < bound
      · have hproduct : 10 * n < bound := by omega
        simp only [if_pos hproduct, if_pos hsum, ih hsum, hc, true_and]
      · have hnone : (if 10 * n < bound then
            if 10 * n + (c.toNat - '0'.toNat) < bound then
              readDigits bound cs (10 * n + (c.toNat - '0'.toNat)) else none
            else none) = none := by
          simp only [if_neg hsum, ite_self]
        simp only [hnone, reduceCtorEq, false_iff]
        rintro ⟨-, rfl, hlt⟩
        omega
    · simp [hc]

theorem readUnsigned_iff : readUnsigned bound s = some m ↔ unsigned s.toList ≠ [] ∧
    (∀ c ∈ unsigned s.toList, c.isDigit = true) ∧
    Nat.ofDigitChars 10 (unsigned s.toList) 0 = m ∧ m < bound := by
  rw [readUnsigned]
  cases hcs : unsigned s.toList with
  | nil => simp
  | cons c cs =>
    simp only [List.isEmpty_cons, Bool.false_eq_true, if_false, ne_eq, reduceCtorEq,
      not_false_eq_true, true_and]
    by_cases hbound : 0 < bound
    · exact readDigits_iff hbound
    · have hnone : readDigits bound (c :: cs) 0 = none := by simp [readDigits, hbound]
      simp only [hnone, reduceCtorEq, false_iff]
      rintro ⟨-, -, hlt⟩
      omega

theorem unsigned_digits (h : ∀ c ∈ cs, c.isDigit = true) : unsigned cs = cs := by
  unfold unsigned
  split
  · exact absurd (h '+' (.head _)) (by decide)
  · rfl

theorem readUnsigned_toString (h : m < bound) : readUnsigned bound (toString m) = some m := by
  have hlist : (toString m).toList = Nat.toDigits 10 m := Nat.toList_repr
  have hdigits : ∀ c ∈ Nat.toDigits 10 m, c.isDigit = true :=
    fun c hc => Nat.isDigit_of_mem_toDigits (by decide) (by decide) hc
  rw [readUnsigned_iff, hlist, unsigned_digits hdigits]
  exact ⟨Nat.toDigits_ne_nil, hdigits, Nat.ofDigitChars_ten_toDigits, h⟩

example : readUnsigned (2 ^ 16) "+08002" = some 8002 ∧ readUnsigned (2 ^ 16) "65536" = none := by
  decide

end SvcAuth.Numerals
