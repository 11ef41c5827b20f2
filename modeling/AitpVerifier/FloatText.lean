import AitpVerifier.IntegerText
import AitpVerifier.JsonGrammar

/-!
# The `repr` of a finite double is a JSON number

Its digits start with one that is not zero, so no integer part starts with a zero
too many.
-/
namespace Binary64

open PyText

/-! ### The digits are not zero -/

/-- Zero reads back as no positive double. -/
theorem readsBack_pos {mantissa scale digits : Nat} {exponent : Int} (hm : 0 < mantissa)
    (h : readsBack mantissa scale digits exponent = true) : 0 < digits := by
  rcases Nat.eq_zero_or_pos digits with rfl | hd
  · exfalso
    have hbound : 0 < (roundingBounds mantissa scale).1 := by
      rw [roundingBounds]
      split
      · exact Nat.mul_pos (by omega) (Nat.pow_pos (by decide))
      · exact Nat.mul_pos (by omega) (Nat.pow_pos (by decide))
    have hlower : 0 < (roundingBounds mantissa scale).1 * 10 ^ (-exponent).toNat :=
      Nat.mul_pos hbound (Nat.pow_pos (by decide))
    simp only [readsBack, Nat.zero_mul, Nat.mul_zero] at h
    split at h
    · have := (of_decide_eq_true h).1
      omega
    · have := (of_decide_eq_true h).1
      omega
  · exact hd

theorem nearest_pos {a d : Nat} (hd : 0 < d) (h : d ≤ a) : 0 < nearest a d := by
  have hquotient : 0 < a / d := Nat.div_pos h hd
  rw [nearest]
  split
  · exact hquotient
  · split
    · omega
    · omega

/-- The point stands no further right than the value reaches. -/
theorem decimalPoint_le {units : Nat} (hu : 0 < units) {count : Nat} (hc : 1 ≤ count) :
    unit * 10 ^ (decimalPoint units - count).toNat ≤ units * 10 ^ (count - decimalPoint units).toNat := by
  have hunit := unit_pos
  rw [decimalPoint]
  by_cases hle : unit ≤ units
  · rw [if_pos hle]
    have hq : units / unit ≠ 0 := (Nat.div_pos hle hunit).ne'
    have hlen : 0 < (Nat.digits 10 (units / unit)).length :=
      List.length_pos_iff.mpr (Nat.digits_ne_nil_iff_ne_zero.mpr hq)
    have hpow : 10 ^ ((Nat.digits 10 (units / unit)).length - 1) ≤ units / unit := by
      have hbase := Nat.base_pow_length_digits_le 10 (units / unit) (by decide) hq
      have hsplit : 10 ^ (Nat.digits 10 (units / unit)).length =
          10 * 10 ^ ((Nat.digits 10 (units / unit)).length - 1) := by
        rw [← Nat.pow_succ', Nat.succ_eq_add_one, Nat.sub_add_cancel hlen]
      omega
    generalize (Nat.digits 10 (units / unit)).length = n at hlen hpow ⊢
    calc unit * 10 ^ ((n : Int) - count).toNat ≤ unit * 10 ^ (n - 1) :=
          Nat.mul_le_mul_left _ (Nat.pow_le_pow_right (by decide) (by omega))
      _ ≤ unit * (units / unit) := Nat.mul_le_mul_left _ hpow
      _ ≤ units := Nat.mul_div_le units unit
      _ ≤ units * 10 ^ ((count : Int) - n).toNat := Nat.le_mul_of_pos_right _ (Nat.pow_pos (by decide))
  · rw [if_neg hle]
    have hlt : (unit - 1) / units < 10 ^ (Nat.digits 10 ((unit - 1) / units)).length :=
      Nat.lt_base_pow_length_digits (by decide)
    generalize (Nat.digits 10 ((unit - 1) / units)).length = n at hlt ⊢
    have hreach : unit ≤ units * 10 ^ n := by
      have hmul := Nat.lt_mul_of_div_lt hlt hu
      rw [Nat.mul_comm] at hmul
      omega
    have hzero : ((1 : Int) - n - count).toNat = 0 := by omega
    rw [hzero, Nat.pow_zero, Nat.mul_one]
    calc unit ≤ units * 10 ^ n := hreach
      _ ≤ units * 10 ^ ((count : Int) - (1 - n)).toNat :=
        Nat.mul_le_mul_left _ (Nat.pow_le_pow_right (by decide) (by omega))

theorem searchDigits_pos {mantissa scale : Nat} (hm : 0 < mantissa) (fuel count : Nat) (hc : 1 ≤ count) :
    0 < (searchDigits mantissa scale (decimalPoint (mantissa * 2 ^ scale)) fuel count).1 := by
  induction fuel generalizing count with
  | zero =>
    have hu : 0 < mantissa * 2 ^ scale := Nat.mul_pos hm (Nat.pow_pos (by decide))
    rw [searchDigits]
    exact nearest_pos (Nat.mul_pos unit_pos (Nat.pow_pos (by decide))) (decimalPoint_le hu hc)
  | succ fuel ih =>
    rw [searchDigits]
    split
    · rename_i digits hfind
      have hback := List.find?_some hfind
      exact readsBack_pos hm hback
    · exact ih (count + 1) (by omega)

theorem shortest_pos {mantissa scale : Nat} (hm : 0 < mantissa) : 0 < (shortest mantissa scale).1 := by
  have hpos := @searchDigits_pos mantissa scale hm 16 1 (by omega)
  rw [shortest]
  generalize searchDigits mantissa scale (decimalPoint (mantissa * 2 ^ scale)) 16 1 = found at hpos
  obtain ⟨digits, exponent⟩ := found
  dsimp only at hpos ⊢
  split
  · change 0 < digits / 10
    omega
  · exact hpos

end Binary64

namespace AitpVerifier

open PyText JsonGrammar

theorem decimal_digits (n : Nat) : Digits (decimal n) := ⟨decimal_ne_nil n, fun _ => mem_decimal⟩

/-- An optional sign, then the text of a magnitude. -/
theorem Number.signed {negative : Bool} {t : Text} (h : ∃ whole fraction exponent, Whole whole ∧ Fraction fraction ∧
    Exponent exponent ∧ t = whole ++ fraction ++ exponent) : Number ((if negative then txt "-" else []) ++ t) := by
  obtain ⟨whole, fraction, exponent, hw, hf, he, rfl⟩ := h
  have hsign : (if negative then txt "-" else []) = [] ∨ (if negative then txt "-" else []) = ([0x2D] : Text) := by
    cases negative with
    | true => exact .inr (by decide)
    | false => exact .inl rfl
  have hnumber := Number.make hsign hw hf he
  rwa [List.append_assoc, List.append_assoc, ← List.append_assoc whole] at hnumber

theorem reprMagnitude_number {mantissa scale : Nat} (hm : 0 < mantissa) :
    ∃ whole fraction exponent, Whole whole ∧ Fraction fraction ∧ Exponent exponent ∧
      Binary64.reprMagnitude mantissa scale = whole ++ fraction ++ exponent := by
  have hdef : Binary64.reprMagnitude = Binary64.reprMagnitude := rfl
  conv at hdef => rhs; delta Binary64.reprMagnitude
  rw [hdef]
  beta_reduce
  have hpos := @Binary64.shortest_pos mantissa scale hm
  generalize Binary64.shortest mantissa scale = found at hpos
  obtain ⟨value, exponent⟩ := found
  dsimp only at hpos ⊢
  obtain ⟨c, rest, hdigits, hc⟩ := decimal_head hpos
  have hall : ∀ d ∈ decimal value, IsDigit d := (decimal_digits value).2
  split
  · split
    · -- below one: a zero, the point, and zeros before the digits
      refine ⟨[0x30], 0x2E :: (List.replicate (-(exponent + (decimal value).length)).toNat 0x30 ++ decimal value), [],
        .inl rfl, .point (zeros_append_digits (decimal_digits value) _), .absent, ?_⟩
      have hpre : txt "0." = ([0x30, 0x2E] : Text) := by decide
      rw [hpre]
      simp
    · split
      · -- an integer, spelled out with its zeros
        refine ⟨decimal value ++ List.replicate (exponent + (decimal value).length - (decimal value).length).toNat 0x30,
          0x2E :: [0x30], [], .inr ⟨digits_append (decimal_digits value) fun d => zeros_digits, by simpa [hdigits] using hc⟩,
          .point ⟨by simp, ?_⟩, .absent, ?_⟩
        · intro d hd
          rw [List.mem_singleton.mp hd]
          exact ⟨by decide, by decide⟩
        · have htail : txt ".0" = ([0x2E, 0x30] : Text) := by decide
          rw [htail, List.append_nil]
      · rename_i hpoint hwithin
        -- the point falls among the digits
        have htake : 0 < (exponent + (decimal value).length).toNat := by omega
        have hdrop : (exponent + (decimal value).length).toNat < (decimal value).length := by omega
        generalize (exponent + (decimal value).length).toNat = n at htake hdrop
        refine ⟨(decimal value).take n, 0x2E :: (decimal value).drop n, [], .inr ⟨digits_take (decimal_digits value) htake, ?_⟩,
          .point (digits_drop (decimal_digits value) hdrop), .absent, ?_⟩
        · rw [hdigits, List.take_cons htake, List.head?_cons]
          simpa using hc
        · have hdot : txt "." = ([0x2E] : Text) := by decide
          rw [hdot]
          simp
  · -- one digit, a fraction where there are more, and the exponent
    have hone : (decimal value).take 1 = [c] := by rw [hdigits]; rfl
    have hcdigit : IsDigit c := hall c (by simp [hdigits])
    have hexp : ∃ sign : Text, (sign = [] ∨ sign = [0x2B] ∨ sign = [0x2D]) ∧
        (if exponent + (decimal value).length - 1 < 0 then txt "e-" else txt "e+") = 0x65 :: sign := by
      split
      · exact ⟨[0x2D], .inr (.inr rfl), by decide⟩
      · exact ⟨[0x2B], .inr (.inl rfl), by decide⟩
    obtain ⟨sign, hsign, hmark⟩ := hexp
    have hpadded := zeros_append_digits (decimal_digits (exponent + (decimal value).length - 1).natAbs)
      (2 - (decimal (exponent + (decimal value).length - 1).natAbs).length)
    have hfraction : Fraction (if (decimal value).length = 1 then [] else txt "." ++ (decimal value).drop 1) := by
      split
      · exact .absent
      · rename_i hmore
        have hdot : txt "." = ([0x2E] : Text) := by decide
        rw [hdot]
        refine .point ⟨?_, fun d hd => hall d (List.mem_of_mem_drop hd)⟩
        rw [hdigits] at hmore ⊢
        simpa using hmore
    refine ⟨[c], _, _, .inr ⟨⟨by simp, by simpa using hcdigit⟩, by simpa using hc⟩, hfraction,
      .mark (.inl rfl) hsign hpadded, ?_⟩
    rw [hone, hmark]
    simp

/-- A finite double's `repr` is a number of the grammar. -/
theorem repr_number {f : Binary64} (h : f.isFinite = true) : Number f.repr := by
  cases f with
  | nan => cases h
  | inf negative => cases h
  | finite negative mantissa scale hc =>
    rw [Binary64.repr]
    by_cases hm : mantissa = 0
    · rw [if_pos hm]
      have hzero : txt "0.0" = ([0x30] : Text) ++ [0x2E, 0x30] ++ [] := by decide
      apply Number.signed
      refine ⟨[0x30], [0x2E, 0x30], [], .inl rfl, .point ⟨by simp, ?_⟩, .absent, hzero⟩
      intro d hd
      rw [List.mem_singleton.mp hd]
      exact ⟨by decide, by decide⟩
    · rw [if_neg hm]
      exact Number.signed (reprMagnitude_number (Nat.pos_of_ne_zero hm))

end AitpVerifier

namespace AitpVerifier.Jcs

open PyText

/-! ### The digits of a `repr` -/

theorem mem_dropWhile_zeros {s : Text} {c : CodePoint} (hc : c ∈ s) (hne : c ≠ 0x30) : c ∈ s.dropWhile (· == 0x30) := by
  have hsplit : c ∈ s.takeWhile (· == 0x30) ++ s.dropWhile (· == 0x30) := by rwa [List.takeWhile_append_dropWhile]
  rcases List.mem_append.mp hsplit with h | h
  · have hzero : (c == 0x30) = true := List.all_eq_true.mp List.all_takeWhile c h
    exact absurd (beq_iff_eq.mp hzero) hne
  · exact h

theorem mem_stripTrailingZeros {s : Text} {c : CodePoint} (hc : c ∈ s) (hne : c ≠ 0x30) : c ∈ stripTrailingZeros s := by
  rw [stripTrailingZeros, List.mem_reverse]
  exact mem_dropWhile_zeros (List.mem_reverse.mpr hc) hne

theorem splitExponent_fst (text : Text) : (splitExponent text).1 = (partition 0x65 text).1 := by
  rw [splitExponent]
  by_cases h : (0x65 : CodePoint) ∈ text
  · obtain ⟨before, after, rfl, hbefore⟩ := List.eq_append_cons_of_mem h
    rw [partition_append hbefore]
    rfl
  · rw [partition_of_not_mem h]
    rfl

/-- A text has digits when one before its exponent is not zero. -/
theorem shortestDigits_isOk {before : Text} (after : Text) {c : CodePoint} (hexponent : (0x65 : CodePoint) ∉ before)
    (hc : c ∈ before) (hpoint : c ≠ 0x2E) (hzero : c ≠ 0x30) : (shortestDigits (before ++ after)).isOk = true := by
  have hmantissa : c ∈ (splitExponent (before ++ after)).1 := by
    rw [splitExponent_fst]
    exact mem_partition_fst hexponent hc
  have hdigit := mem_stripTrailingZeros (mem_dropWhile_zeros (mem_partition hmantissa hpoint) hzero) hzero
  have hsome := List.isEmpty_eq_false_iff.mpr (List.ne_nil_of_mem hdigit)
  rw [shortestDigits]
  dsimp only
  rw [hsome]
  rfl

/-- The `repr` of a positive magnitude has a digit that is not zero before its exponent. -/
theorem reprMagnitude_digit {mantissa scale : Nat} (hm : 0 < mantissa) :
    ∃ before after c, Binary64.reprMagnitude mantissa scale = before ++ after ∧ (0x65 : CodePoint) ∉ before ∧
      c ∈ before ∧ c ≠ 0x2E ∧ c ≠ 0x30 := by
  have hdef : Binary64.reprMagnitude = Binary64.reprMagnitude := rfl
  conv at hdef => rhs; delta Binary64.reprMagnitude
  rw [hdef]
  beta_reduce
  have hpos := @Binary64.shortest_pos mantissa scale hm
  generalize Binary64.shortest mantissa scale = found at hpos
  obtain ⟨value, exponent⟩ := found
  dsimp only at hpos ⊢
  obtain ⟨c, rest, hdigits, hc⟩ := decimal_head hpos
  have hmark : (0x65 : CodePoint) ∉ decimal value := not_mem_decimal (.inr (by decide))
  have hmem : c ∈ decimal value := by rw [hdigits]; exact List.mem_cons_self
  have hpoint : c ≠ 0x2E := by
    rintro rfl
    exact not_mem_decimal (.inl (by decide)) hmem
  have htake {n : Nat} (hn : 0 < n) : (0x65 : CodePoint) ∉ (decimal value).take n ∧ c ∈ (decimal value).take n := by
    refine ⟨fun h => hmark (List.mem_of_mem_take h), ?_⟩
    rw [hdigits, List.take_cons hn]
    exact List.mem_cons_self
  split
  · split
    · refine ⟨_, [], c, (List.append_nil _).symm, ?_, List.mem_append_right _ hmem, hpoint, hc⟩
      have hzero : (0x65 : CodePoint) ∉ txt "0." := by decide
      simp only [List.mem_append, List.mem_replicate, not_or]
      exact ⟨⟨hzero, by simp⟩, hmark⟩
    · split
      · exact ⟨_, _, c, List.append_assoc _ _ _, hmark, hmem, hpoint, hc⟩
      · obtain ⟨hno, hin⟩ := htake (n := (exponent + (decimal value).length).toNat) (by omega)
        exact ⟨_, _, c, List.append_assoc _ _ _, hno, hin, hpoint, hc⟩
  · obtain ⟨hno, hin⟩ := htake Nat.one_pos
    simp only [List.append_assoc]
    exact ⟨_, _, c, rfl, hno, hin, hpoint, hc⟩

/-- Every finite double has a spelling. -/
theorem formatFloat_isOk {f : Binary64} : (formatFloat f).isOk = f.isFinite := by
  have hdef : formatFloat = formatFloat := rfl
  conv at hdef => rhs; delta formatFloat
  rw [hdef]
  cases f with
  | nan => rfl
  | inf negative => rfl
  | finite negative mantissa scale hc =>
    dsimp only
    split
    · rfl
    · rename_i hm
      obtain ⟨before, after, c, htext, hno, hin, hpoint, hzero⟩ := @reprMagnitude_digit mantissa scale (Nat.pos_of_ne_zero hm)
      have hok := shortestDigits_isOk after hno hin hpoint hzero
      rw [← htext] at hok
      exact (Checked.map_isOk _ _).trans hok

end AitpVerifier.Jcs
