import Mathlib.Algebra.Order.Field.Rat
import Mathlib.Tactic.FieldSimp
import Mathlib.Tactic.Ring
import AitpVerifier.Json
import AitpVerifier.JsonGrammar

/-!
# Decimal numerals and what they denote

A numeral is digits with or without a fraction, with or without a signed power of ten.
Whatever its form, its value is `0.d × 10 ^ n` for its digits `d` and the place `n` of the
point before them; zeros on the left move that point, zeros on the right do not.
-/
namespace DecimalText

open PyText JsonGrammar AitpVerifier.Json

/-! ### Values -/

/-- Digits, with or without a fraction, and the value they write. -/
inductive Positional : Text → ℚ → Prop
  | whole {w} : Digits w → Positional w (digitsValue w)
  | fraction {w f} : Digits w → Digits f → Positional (w ++ 0x2E :: f) (digitsValue w + digitsValue f / 10 ^ f.length)

/-- A numeral and the value it denotes. -/
inductive Denotes : Text → ℚ → Prop
  | positional {t q} : Positional t q → Denotes t q
  | positive {t q e} : Positional t q → Digits e → Denotes (t ++ 0x65 :: 0x2B :: e) (q * 10 ^ digitsValue e)
  | negative {t q e} : Positional t q → Digits e → Denotes (t ++ 0x65 :: 0x2D :: e) (q / 10 ^ digitsValue e)

/-- `0.d × 10 ^ n`. -/
def pointed (d : Text) (n : Int) : ℚ := digitsValue d / 10 ^ d.length * 10 ^ n

/-- No digit can be dropped at either end. -/
def Significant (d : Text) : Prop := Digits d ∧ d.head? ≠ some 0x30 ∧ d.getLast? ≠ some 0x30

/-- A numeral without an exponent, and without a zero too many before or after. -/
inductive Plain : Text → Prop
  | whole {w} : Whole w → Plain w
  | fraction {w f} : Whole w → Digits f → f.getLast? ≠ some 0x30 → Plain (w ++ 0x2E :: f)

/-- One digit that is not zero, a fraction where there are more, and an exponent with its
sign and without a zero too many. -/
inductive Scientific : Text → Prop
  | make {c f sign e} : IsDigit c → c ≠ 0x30 → f = [] ∨ (∃ d, f = 0x2E :: d ∧ Digits d ∧ d.getLast? ≠ some 0x30) →
      sign = 0x2B ∨ sign = 0x2D → Digits e → e.head? ≠ some 0x30 → Scientific (c :: f ++ 0x65 :: sign :: e)

/-! ### Digits -/

theorem digitsValue_append (s t : Text) : digitsValue (s ++ t) = digitsValue s * 10 ^ t.length + digitsValue t := by
  induction t using List.reverseRecOn with
  | nil => simp [digitsValue]
  | append_singleton t c ih =>
    have hconcat (u : Text) : digitsValue (u ++ [c]) = 10 * digitsValue u + digitValue c := by
      rw [digitsValue, List.foldl_append]
      rfl
    rw [← List.append_assoc, hconcat, ih, hconcat, List.length_append, List.length_singleton, Nat.pow_succ]
    ring

theorem digitsValue_zeros (k : Nat) : digitsValue (List.replicate k 0x30) = 0 := by
  induction k with
  | zero => rfl
  | succ k ih =>
    rw [List.replicate_succ', digitsValue_append, ih]
    rfl

theorem not_mem_digits {s : Text} (h : ∀ c ∈ s, IsDigit c) {c : CodePoint} (hc : c.val < 0x30 ∨ 0x39 < c.val) : c ∉ s := by
  intro hmem
  have hdigit := h c hmem
  rw [IsDigit] at hdigit
  omega

/-! ### The place of the point -/

theorem pointed_zeros_append (k : Nat) (d : Text) (n : Int) : pointed (List.replicate k 0x30 ++ d) n = pointed d (n - k) := by
  rw [pointed, pointed, digitsValue_append, digitsValue_zeros, Nat.zero_mul, Nat.zero_add, List.length_append,
    List.length_replicate, pow_add, zpow_sub₀ (by norm_num), zpow_natCast]
  field_simp

theorem pointed_append_zeros (d : Text) (k : Nat) (n : Int) : pointed (d ++ List.replicate k 0x30) n = pointed d n := by
  rw [pointed, pointed, digitsValue_append, digitsValue_zeros, Nat.add_zero, List.length_append, List.length_replicate,
    pow_add, Nat.cast_mul, Nat.cast_pow, Nat.cast_ofNat]
  field_simp

theorem pointed_mul_pow (d : Text) (n : Int) (e : Nat) : pointed d n * 10 ^ e = pointed d (n + e) := by
  rw [pointed, pointed, zpow_add₀ (by norm_num), zpow_natCast, mul_assoc]

theorem pointed_div_pow (d : Text) (n : Int) (e : Nat) : pointed d n / 10 ^ e = pointed d (n - e) := by
  rw [pointed, pointed, zpow_sub₀ (by norm_num), zpow_natCast, mul_div_assoc]

/-- Digits alone have their point at the end. -/
theorem pointed_length (w : Text) : pointed w w.length = digitsValue w := by
  rw [pointed, zpow_natCast]
  field_simp

/-- A fraction moves the point to its start. -/
theorem pointed_fraction (w f : Text) : pointed (w ++ f) w.length = digitsValue w + digitsValue f / 10 ^ f.length := by
  rw [pointed, digitsValue_append, List.length_append, zpow_natCast, pow_add]
  push_cast
  field_simp

/-- The parts of a numeral without an exponent. -/
theorem Positional.parts {t : Text} {q : ℚ} (h : Positional t q) : ∃ w f, (partition 0x2E t).1 = w ∧ (partition 0x2E t).2.2 = f ∧
    Digits w ∧ (∀ c ∈ f, IsDigit c) ∧ q = pointed (w ++ f) w.length ∧ (0x65 : CodePoint) ∉ t := by
  cases h with
  | whole hw =>
    have hpoint : (0x2E : CodePoint) ∉ t := not_mem_digits hw.2 (.inl (by decide))
    refine ⟨t, [], by rw [partition_of_not_mem hpoint], by rw [partition_of_not_mem hpoint], hw, by simp, ?_, ?_⟩
    · rw [List.append_nil, pointed_length]
    · exact not_mem_digits hw.2 (.inr (by decide))
  | @fraction w f hw hf =>
    have hpoint : (0x2E : CodePoint) ∉ w := not_mem_digits hw.2 (.inl (by decide))
    refine ⟨w, f, by rw [partition_append hpoint], by rw [partition_append hpoint], hw, hf.2, (pointed_fraction w f).symm, ?_⟩
    rw [List.mem_append, List.mem_cons, not_or, not_or]
    exact ⟨not_mem_digits hw.2 (.inr (by decide)), by decide, not_mem_digits hf.2 (.inr (by decide))⟩

/-! ### The forms of one value -/

theorem positional_integer {d : Text} (hd : Digits d) (k : Nat) :
    Positional (d ++ List.replicate k 0x30) (pointed d (d.length + k)) := by
  have h := Positional.whole (digits_append hd fun c => zeros_digits (n := k))
  rwa [← pointed_length, List.length_append, List.length_replicate, Nat.cast_add, pointed_append_zeros] at h

/-- An integer, with a zero behind its point. -/
theorem positional_integral {d : Text} (hd : Digits d) (k : Nat) :
    Positional (d ++ List.replicate k 0x30 ++ [0x2E, 0x30]) (pointed d (d.length + k)) := by
  have hzero : Digits [0x30] := ⟨List.cons_ne_nil _ _, fun c => zeros_digits (n := 1)⟩
  have h := Positional.fraction (digits_append hd fun c => zeros_digits (n := k)) hzero
  have hzeros : d ++ List.replicate k 0x30 ++ [0x30] = d ++ List.replicate (k + 1) 0x30 := by
    rw [List.append_assoc, ← List.replicate_succ']
  rwa [← pointed_fraction, hzeros, pointed_append_zeros, List.length_append, List.length_replicate, Nat.cast_add] at h

/-- The point among the digits. -/
theorem positional_among {d : Text} (hd : Digits d) {i : Nat} (hpos : 0 < i) (hlt : i < d.length) :
    Positional (d.take i ++ 0x2E :: d.drop i) (pointed d i) := by
  have h := Positional.fraction (digits_take hd hpos) (digits_drop hd hlt)
  rwa [← pointed_fraction, List.take_append_drop, List.length_take_of_le hlt.le] at h

/-- The point before the digits and their zeros. -/
theorem positional_below {d : Text} (hd : Digits d) (k : Nat) :
    Positional (0x30 :: 0x2E :: (List.replicate k 0x30 ++ d)) (pointed d (-k)) := by
  have hzero : Digits [0x30] := ⟨List.cons_ne_nil _ _, fun c => zeros_digits (n := 1)⟩
  have h := Positional.fraction hzero (zeros_append_digits hd k)
  have hzeros : [0x30] ++ (List.replicate k 0x30 ++ d) = List.replicate (k + 1) 0x30 ++ d := rfl
  have hplace : (([0x30] : Text).length : Int) - (k + 1 : Nat) = -k := by
    rw [List.length_singleton]
    omega
  rwa [← pointed_fraction, hzeros, pointed_zeros_append, hplace] at h

/-- One digit before the point, and a fraction where there are more. -/
theorem positional_leading {d : Text} (hd : Digits d) :
    Positional (d.take 1 ++ if d.length = 1 then [] else 0x2E :: d.drop 1) (pointed d 1) := by
  by_cases hone : d.length = 1
  · have h := Positional.whole hd
    rw [← pointed_length, hone, Nat.cast_one] at h
    rwa [if_pos hone, List.append_nil, List.take_of_length_le hone.le]
  · have hlong : 1 < d.length := by
      have := List.length_pos_iff.mpr hd.1
      omega
    rw [if_neg hone]
    exact positional_among hd Nat.one_pos hlong

theorem denotes_positive {t d e : Text} {n : Int} (h : Positional t (pointed d n)) (he : Digits e) :
    Denotes (t ++ 0x65 :: 0x2B :: e) (pointed d (n + digitsValue e)) := by
  rw [← pointed_mul_pow]
  exact .positive h he

theorem denotes_negative {t d e : Text} {n : Int} (h : Positional t (pointed d n)) (he : Digits e) :
    Denotes (t ++ 0x65 :: 0x2D :: e) (pointed d (n - digitsValue e)) := by
  rw [← pointed_div_pow]
  exact .negative h he

end DecimalText
