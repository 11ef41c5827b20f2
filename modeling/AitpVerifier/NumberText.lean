import AitpVerifier.DecimalText
import AitpVerifier.ReadBack

/-!
# The text of a number keeps its value

The digits and the place of the point are read off a numeral without changing what it
denotes, and each of the formatting bands writes the same value again: plainly when the
point is near the digits, with one leading digit and an exponent when it is not.
-/
namespace AitpVerifier.Jcs

open PyText Checked JsonGrammar DecimalText

/-! ### Reading the digits off a numeral -/

/-- The parts that the reading splits a numeral into. -/
theorem denotes_parts {t : Text} {q : ℚ} (h : Denotes t q) : ∃ w f, (partition 0x2E (splitExponent t).1).1 = w ∧
    (partition 0x2E (splitExponent t).1).2.2 = f ∧ Digits w ∧ (∀ c ∈ f, IsDigit c) ∧
    q = pointed (w ++ f) (w.length + (splitExponent t).2) := by
  cases h with
  | positional h =>
    obtain ⟨w, f, hwhole, hfraction, hw, hf, hq, hmark⟩ := h.parts
    rw [splitExponent, partition_of_not_mem hmark]
    exact ⟨w, f, hwhole, hfraction, hw, hf, by rw [hq]; exact congrArg _ (Int.add_zero _).symm⟩
  | @positive t q e h he =>
    obtain ⟨w, f, hwhole, hfraction, hw, hf, hq, hmark⟩ := h.parts
    rw [splitExponent, partition_append hmark]
    refine ⟨w, f, hwhole, hfraction, hw, hf, ?_⟩
    rw [hq, pointed_mul_pow]
    rfl
  | @negative t q e h he =>
    obtain ⟨w, f, hwhole, hfraction, hw, hf, hq, hmark⟩ := h.parts
    rw [splitExponent, partition_append hmark]
    refine ⟨w, f, hwhole, hfraction, hw, hf, ?_⟩
    rw [hq, pointed_div_pow]
    rfl

/-- A numeral denotes one value. -/
theorem denotes_unique {t : Text} {q q' : ℚ} (h : Denotes t q) (h' : Denotes t q') : q = q' := by
  obtain ⟨w, f, rfl, rfl, _, _, hq⟩ := denotes_parts h
  obtain ⟨w', f', rfl, rfl, _, _, hq'⟩ := denotes_parts h'
  exact hq.trans hq'.symm

/-- What is stripped of its leading zeros is its end. -/
theorem dropWhile_zeros_append (s : Text) : s = List.replicate (s.length - (s.dropWhile (· == 0x30)).length) 0x30 ++
    s.dropWhile (· == 0x30) := by
  induction s with
  | nil => rfl
  | cons c s ih =>
    by_cases hc : c = 0x30
    · have hle : (s.dropWhile (· == 0x30)).length ≤ s.length := (List.dropWhile_suffix _).length_le
      rw [List.dropWhile_cons_of_pos (by simpa using hc), List.length_cons, Nat.succ_sub hle, List.replicate_succ,
        List.cons_append, ← ih, hc]
    · rw [List.dropWhile_cons_of_neg (by simpa using hc), Nat.sub_self]
      rfl

theorem dropWhile_zeros_head (s : Text) : (s.dropWhile (· == 0x30)).head? ≠ some 0x30 := by
  intro h
  have hne := List.head?_dropWhile_not (· == 0x30) s
  rw [h] at hne
  simp at hne

theorem stripTrailingZeros_last (s : Text) : (stripTrailingZeros s).getLast? ≠ some 0x30 := by
  rw [stripTrailingZeros, List.getLast?_reverse]
  exact dropWhile_zeros_head s.reverse

/-- What is left of digits once the zeros at both ends are gone. -/
theorem stripped_significant {s : Text} (hs : ∀ c ∈ s, IsDigit c) (hne : stripTrailingZeros (s.dropWhile (· == 0x30)) ≠ []) :
    Significant (stripTrailingZeros (s.dropWhile (· == 0x30))) := by
  obtain ⟨k, hk⟩ := stripTrailingZeros_append (s.dropWhile (· == 0x30))
  refine ⟨⟨hne, fun c hc => hs c ?_⟩, ?_, stripTrailingZeros_last _⟩
  · apply List.dropWhile_subset
    rw [hk]
    exact List.mem_append_left _ hc
  · intro hhead
    refine dropWhile_zeros_head s ?_
    rw [hk, List.head?_append, hhead]
    rfl

theorem pointed_stripped (s : Text) (n : Int) : pointed s n =
    pointed (stripTrailingZeros (s.dropWhile (· == 0x30))) (n - (s.length - (s.dropWhile (· == 0x30)).length : Nat)) := by
  obtain ⟨k, hk⟩ := stripTrailingZeros_append (s.dropWhile (· == 0x30))
  have htail (m : Int) : pointed (s.dropWhile (· == 0x30)) m = pointed (stripTrailingZeros (s.dropWhile (· == 0x30))) m := by
    conv_lhs => rw [hk, pointed_append_zeros]
  rw [← htail, ← pointed_zeros_append, ← dropWhile_zeros_append]

/-- The digits of a positive numeral have no zeros at their ends, and with the place of the
point they make up its value. -/
theorem shortestDigits_value {t : Text} {q : ℚ} (h : Denotes t q) (hq : 0 < q) :
    ∃ digits n, shortestDigits t = .ok (digits, n) ∧ Significant digits ∧ pointed digits n = q := by
  obtain ⟨w, f, hwhole, hfraction, hw, hf, hvalue⟩ := denotes_parts h
  have hall := (digits_append hw hf).2
  have hne : stripTrailingZeros ((w ++ f).dropWhile (· == 0x30)) ≠ [] := by
    intro hnil
    rw [pointed_stripped, hnil] at hvalue
    rw [hvalue, pointed] at hq
    simp [Json.digitsValue] at hq
  refine ⟨_, _, ?_, stripped_significant hall hne, ((pointed_stripped _ _).symm.trans hvalue.symm)⟩
  rw [shortestDigits]
  dsimp only
  rw [hwhole, hfraction, List.isEmpty_eq_false_iff.mpr hne]
  rfl

/-! ### Writing the digits again -/

variable {d : Text}

theorem txt_point : txt "." = [0x2E] := by decide

theorem txt_zeroPoint : txt "0." = [0x30, 0x2E] := by decide

theorem significant_whole (hd : Significant d) {k : Nat} : Whole (d ++ List.replicate k 0x30) := by
  refine .inr ⟨digits_append hd.1 fun c => zeros_digits, ?_⟩
  intro hhead
  rw [List.head?_append_of_ne_nil _ hd.1.1] at hhead
  exact hd.2.1 hhead

/-- The digits and zeros up to the point. -/
theorem numberBody_integer (hd : Significant d) {n : Int} (hlow : d.length ≤ n) (hhigh : n ≤ 21) :
    Denotes (numberBody d n) (pointed d n) ∧ Plain (numberBody d n) := by
  rw [numberBody, if_pos ⟨hlow, hhigh⟩, zeros]
  refine ⟨.positional ?_, .whole (significant_whole hd)⟩
  have h := positional_integer hd.1 (n - d.length).toNat
  rwa [Int.toNat_of_nonneg (by omega), add_sub_cancel] at h

/-- The point among the digits. -/
theorem numberBody_among (hd : Significant d) {n : Int} (hlow : 0 < n) (hlt : n < d.length) (hhigh : n ≤ 21) :
    Denotes (numberBody d n) (pointed d n) ∧ Plain (numberBody d n) := by
  have hpos : 0 < n.toNat := by omega
  have hwithin : n.toNat < d.length := by omega
  have hshape : numberBody d n = d.take n.toNat ++ 0x2E :: d.drop n.toNat := by
    rw [numberBody, if_neg (by omega), if_pos ⟨hlow, hhigh⟩, txt_point, List.append_assoc]
    rfl
  rw [hshape]
  have h := positional_among hd.1 hpos hwithin
  rw [Int.toNat_of_nonneg hlow.le] at h
  refine ⟨.positional h, .fraction (.inr ⟨digits_take hd.1 hpos, ?_⟩) (digits_drop hd.1 hwithin) ?_⟩
  · rw [List.head?_take, if_neg hpos.ne']
    exact hd.2.1
  · rw [List.getLast?_drop, if_neg (by omega)]
    exact hd.2.2

/-- The point before the digits and zeros. -/
theorem numberBody_below (hd : Significant d) {n : Int} (hlow : -6 < n) (hhigh : n ≤ 0) :
    Denotes (numberBody d n) (pointed d n) ∧ Plain (numberBody d n) := by
  have hlength : 0 < d.length := List.length_pos_iff.mpr hd.1.1
  have hshape : numberBody d n = 0x30 :: 0x2E :: (List.replicate (-n).toNat 0x30 ++ d) := by
    rw [numberBody, if_neg (by omega), if_neg (by omega), if_pos ⟨hlow, hhigh⟩, txt_zeroPoint, zeros, List.append_assoc]
    rfl
  rw [hshape]
  have h := positional_below hd.1 (-n).toNat
  rw [Int.toNat_of_nonneg (by omega), neg_neg] at h
  refine ⟨.positional h, .fraction (w := [0x30]) (.inl rfl) (zeros_append_digits hd.1 _) ?_⟩
  rw [List.getLast?_append_of_ne_nil _ hd.1.1]
  exact hd.2.2

/-- One leading digit, the rest behind the point, and an exponent. -/
theorem leading_scientific (hd : Significant d) {sign : CodePoint} (hsign : sign = 0x2B ∨ sign = 0x2D) {m : Nat} (hm : 0 < m) :
    Scientific (d.take 1 ++ (if d.length = 1 then [] else 0x2E :: d.drop 1) ++ 0x65 :: sign :: decimal m) := by
  obtain ⟨c, rest, hcons⟩ := List.exists_cons_of_ne_nil hd.1.1
  have hhead : c ≠ 0x30 := by
    have h := hd.2.1
    rw [hcons] at h
    simpa using h
  have hfraction : (if d.length = 1 then [] else 0x2E :: d.drop 1) = [] ∨
      ∃ f, (if d.length = 1 then [] else 0x2E :: d.drop 1) = 0x2E :: f ∧ Digits f ∧ f.getLast? ≠ some 0x30 := by
    by_cases hone : d.length = 1
    · exact .inl (if_pos hone)
    · have hlong : 1 < d.length := by
        have := List.length_pos_iff.mpr hd.1.1
        omega
      refine .inr ⟨d.drop 1, if_neg hone, digits_drop hd.1 hlong, ?_⟩
      rw [List.getLast?_drop, if_neg (by omega)]
      exact hd.2.2
  obtain ⟨x, tail, hx, hne⟩ := decimal_head hm
  have htake : d.take 1 = [c] := by
    rw [hcons]
    rfl
  rw [htake]
  refine .make (hd.1.2 c ?_) hhead hfraction hsign (decimal_digits m) ?_
  · rw [hcons]
    exact List.mem_cons_self
  · rw [hx]
    simpa using hne

theorem txt_exponent : txt "e+" = [0x65, 0x2B] ∧ txt "e-" = [0x65, 0x2D] := by decide

/-- Away from the digits the point needs an exponent. -/
theorem numberBody_scientific (hd : Significant d) {n : Int} (hout : ¬ (-6 < n ∧ n ≤ 21)) :
    Denotes (numberBody d n) (pointed d n) ∧ Scientific (numberBody d n) := by
  have hlength : 0 < d.length := List.length_pos_iff.mpr hd.1.1
  obtain ⟨hplus, hminus⟩ := txt_exponent
  have hshape : numberBody d n = d.take 1 ++ (if d.length = 1 then [] else 0x2E :: d.drop 1) ++
      (if 0 ≤ n - 1 then txt "e+" ++ decimal (n - 1).toNat else txt "e-" ++ decimal (-(n - 1)).toNat) := by
    rw [numberBody, if_neg (by omega), if_neg (by omega), if_neg (by omega)]
    dsimp only
    by_cases hone : d.length = 1
    · have hcast : (d.length : Int) = 1 := by omega
      rw [if_pos hcast, if_pos hone, List.append_nil, List.take_of_length_le hone.le]
    · have hcast : ¬ (d.length : Int) = 1 := by omega
      rw [if_neg hcast, if_neg hone, txt_point]
      simp only [List.append_assoc, List.cons_append, List.nil_append]
  rw [hshape]
  have hlead := positional_leading hd.1
  by_cases hlarge : 21 < n
  · have hsign : 0 ≤ n - 1 := by omega
    rw [if_pos hsign, hplus]
    have h := denotes_positive hlead (decimal_digits (n - 1).toNat)
    have hplace : 1 + ((Json.digitsValue (decimal (n - 1).toNat) : Nat) : Int) = n := by
      rw [digitsValue_decimal]
      omega
    rw [hplace] at h
    exact ⟨h, leading_scientific hd (.inl rfl) (by omega)⟩
  · have hsign : ¬ 0 ≤ n - 1 := by omega
    rw [if_neg hsign, hminus]
    have h := denotes_negative hlead (decimal_digits (-(n - 1)).toNat)
    have hplace : 1 - ((Json.digitsValue (decimal (-(n - 1)).toNat) : Nat) : Int) = n := by
      rw [digitsValue_decimal]
      omega
    rw [hplace] at h
    exact ⟨h, leading_scientific hd (.inr rfl) (by omega)⟩

/-- Every band writes the value that its digits and point make up. -/
theorem numberBody_denotes (hd : Significant d) (n : Int) : Denotes (numberBody d n) (pointed d n) ∧
    (-6 < n ∧ n ≤ 21 → Plain (numberBody d n)) ∧ (¬ (-6 < n ∧ n ≤ 21) → Scientific (numberBody d n)) := by
  by_cases hnear : -6 < n ∧ n ≤ 21
  · have hplain : Denotes (numberBody d n) (pointed d n) ∧ Plain (numberBody d n) := by
      by_cases hbefore : n ≤ 0
      · exact numberBody_below hd hnear.1 hbefore
      · by_cases hamong : n < d.length
        · exact numberBody_among hd (by omega) hamong hnear.2
        · exact numberBody_integer hd (by omega) hnear.2
    exact ⟨hplain.1, fun _ => hplain.2, fun hout => absurd hnear hout⟩
  · obtain ⟨hvalue, hform⟩ := numberBody_scientific hd hnear
    exact ⟨hvalue, fun hin => absurd hin hnear, fun _ => hform⟩

/-- The bands change at the edges. -/
example : numberBody [0x31] 22 = txt "1e+21" ∧ numberBody [0x31, 0x35] 1 = txt "1.5" ∧ numberBody [0x31] (-5) = txt "0.000001" ∧
    numberBody [0x31, 0x35] (-6) = txt "1.5e-7" := by
  decide

/-! ### The `repr` of a double -/

theorem pointed_decimal (value : Nat) (exponent : Int) :
    pointed (decimal value) (exponent + (decimal value).length) = value * 10 ^ exponent := by
  rw [pointed, digitsValue_decimal, zpow_add₀ (by norm_num), zpow_natCast]
  field_simp

/-- The `repr` of a positive magnitude denotes its shortest decimal. -/
theorem reprMagnitude_denotes (mantissa scale : Nat) : Denotes (Binary64.reprMagnitude mantissa scale)
    ((Binary64.shortest mantissa scale).1 * 10 ^ (Binary64.shortest mantissa scale).2) := by
  have hdef : Binary64.reprMagnitude = Binary64.reprMagnitude := rfl
  conv at hdef => rhs; delta Binary64.reprMagnitude
  rw [hdef]
  beta_reduce
  generalize Binary64.shortest mantissa scale = found
  obtain ⟨value, exponent⟩ := found
  dsimp only
  have hd := decimal_digits value
  rw [← pointed_decimal]
  generalize hpoint : exponent + ((decimal value).length : Int) = point
  obtain ⟨hplus, hminus⟩ := txt_exponent
  split
  · split
    · have h := positional_below hd (-point).toNat
      rw [Int.toNat_of_nonneg (by omega), neg_neg] at h
      rw [txt_zeroPoint, List.append_assoc]
      exact .positional h
    · split
      · have htail : txt ".0" = [0x2E, 0x30] := by decide
        have h := positional_integral hd (point - (decimal value).length).toNat
        rw [Int.toNat_of_nonneg (by omega), add_sub_cancel] at h
        rw [htail]
        exact .positional h
      · have h := positional_among hd (i := point.toNat) (by omega) (by omega)
        rw [Int.toNat_of_nonneg (by omega)] at h
        rw [txt_point, List.append_assoc]
        exact .positional h
  · have hpadded := zeros_append_digits (decimal_digits (point - 1).natAbs) (2 - (decimal (point - 1).natAbs).length)
    have hvalue : Json.digitsValue (List.replicate (2 - (decimal (point - 1).natAbs).length) 0x30 ++
        decimal (point - 1).natAbs) = (point - 1).natAbs := by
      rw [digitsValue_append, digitsValue_zeros, Nat.zero_mul, Nat.zero_add, digitsValue_decimal]
    have hlead := positional_leading hd
    rw [txt_point, List.singleton_append]
    by_cases hsign : point - 1 < 0
    · have h := denotes_negative hlead hpadded
      have hplace : 1 - (((point - 1).natAbs : Nat) : Int) = point := by omega
      rw [hvalue, hplace] at h
      rw [if_pos hsign, hminus]
      simpa only [List.append_assoc, List.cons_append, List.nil_append] using h
    · have h := denotes_positive hlead hpadded
      have hplace : 1 + (((point - 1).natAbs : Nat) : Int) = point := by omega
      rw [hvalue, hplace] at h
      rw [if_neg hsign, hplus]
      simpa only [List.append_assoc, List.cons_append, List.nil_append] using h

theorem formatFloat_of_digits {negative : Bool} {mantissa scale : Nat} {canonical : Canonical64 mantissa scale} {digits : Text}
    {n : Int} (hm : 0 < mantissa) (h : shortestDigits (Binary64.reprMagnitude mantissa scale) = .ok (digits, n)) :
    formatFloat (.finite negative mantissa scale canonical) = .ok ((if negative then txt "-" else []) ++ numberBody digits n) := by
  have hdef : formatFloat = formatFloat := rfl
  conv at hdef => rhs; delta formatFloat
  rw [hdef]
  dsimp only
  rw [if_neg hm.ne', h, ok_bind]

/-- The digits of a positive numeral make up its value, and so does the text formatted from
them, in the form that the place of the point calls for. The `repr` of a positive double
is such a numeral, and the text of its negative has a sign in front. -/
theorem formatNumber_preserves :
    (∀ t q, Denotes t q → 0 < q → ∃ digits n, shortestDigits t = .ok (digits, n) ∧ Significant digits ∧ pointed digits n = q ∧
      (∀ q', Denotes (numberBody digits n) q' ↔ q' = q) ∧ (-6 < n ∧ n ≤ 21 → Plain (numberBody digits n)) ∧
      (¬ (-6 < n ∧ n ≤ 21) → Scientific (numberBody digits n))) ∧
    ∀ mantissa scale (canonical : Canonical64 mantissa scale), 0 < mantissa → ∃ q digits n, 0 < q ∧
      Denotes (Binary64.reprMagnitude mantissa scale) q ∧
      shortestDigits (Binary64.reprMagnitude mantissa scale) = .ok (digits, n) ∧
      formatFloat (.finite false mantissa scale canonical) = .ok (numberBody digits n) ∧
      formatFloat (.finite true mantissa scale canonical) = .ok (txt "-" ++ numberBody digits n) := by
  refine ⟨fun t q h hq => ?_, fun mantissa scale canonical hm => ?_⟩
  · obtain ⟨digits, n, hread, hsignificant, hvalue⟩ := shortestDigits_value h hq
    obtain ⟨hdenotes, hform⟩ := numberBody_denotes hsignificant n
    rw [hvalue] at hdenotes
    refine ⟨digits, n, hread, hsignificant, hvalue, fun q' => ?_, hform⟩
    constructor
    · exact fun h' => denotes_unique h' hdenotes
    · intro hsame
      rw [hsame]
      exact hdenotes
  · have h := reprMagnitude_denotes mantissa scale
    have hq : (0 : ℚ) < (Binary64.shortest mantissa scale).1 * 10 ^ (Binary64.shortest mantissa scale).2 :=
      mul_pos (Nat.cast_pos.mpr (Binary64.shortest_pos hm)) (zpow_pos (by norm_num) _)
    obtain ⟨digits, n, hread, _⟩ := shortestDigits_value h hq
    exact ⟨_, digits, n, hq, h, hread, formatFloat_of_digits hm hread, formatFloat_of_digits hm hread⟩

end AitpVerifier.Jcs
