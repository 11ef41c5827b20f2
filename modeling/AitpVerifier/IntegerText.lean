import AitpVerifier.Jcs

/-!
# The canonical text of an integer

An integer of magnitude up to `2 ^ 53` is a double, the shortest decimal of that
double is the integer's own numeral without its trailing zeros, and the formatting
bands put those zeros back.
-/
open PyText

namespace PyText

/-! ### Numerals -/

def digitChar (d : Nat) : CodePoint := Fin.ofNat _ (0x30 + d)

theorem decimal_zero : decimal 0 = [0x30] := by decide

theorem decimal_of_pos {n : Nat} (h : 0 < n) : decimal n = (Nat.digits 10 n).reverse.map digitChar := by
  rw [decimal, if_neg (by omega)]
  rfl

theorem digitChar_val {d : Nat} (h : d < 10) : (digitChar d).val = 0x30 + d := by
  rw [digitChar, Fin.val_ofNat]
  omega

theorem decimal_length {n : Nat} (h : 0 < n) : (decimal n).length = (Nat.digits 10 n).length := by
  rw [decimal_of_pos h, List.length_map, List.length_reverse]

theorem decimal_ne_nil (n : Nat) : decimal n ≠ [] := by
  rcases Nat.eq_zero_or_pos n with rfl | h
  · decide
  · rw [decimal_of_pos h]
    simpa using Nat.digits_ne_nil_iff_ne_zero.mpr (by omega)

/-- Every character of a numeral is a digit. -/
theorem mem_decimal {n : Nat} {c : CodePoint} (h : c ∈ decimal n) : 0x30 ≤ c.val ∧ c.val ≤ 0x39 := by
  rcases Nat.eq_zero_or_pos n with rfl | hn
  · rw [decimal_zero] at h
    rw [List.mem_singleton.mp h]
    decide
  · rw [decimal_of_pos hn] at h
    obtain ⟨d, hd, rfl⟩ := List.mem_map.mp h
    have hlt : d < 10 := Nat.digits_lt_base (by decide) (List.mem_reverse.mp hd)
    rw [digitChar_val hlt]
    omega

/-- A positive numeral does not start with zero. -/
theorem decimal_head {n : Nat} (h : 0 < n) : ∃ c rest, decimal n = c :: rest ∧ c ≠ 0x30 := by
  have hne : Nat.digits 10 n ≠ [] := Nat.digits_ne_nil_iff_ne_zero.mpr (by omega)
  have hlast := Nat.getLast_digit_ne_zero 10 (m := n) (by omega)
  have hlt : (Nat.digits 10 n).getLast hne < 10 := Nat.digits_lt_base (by decide) (List.getLast_mem hne)
  obtain ⟨init, hinit⟩ : ∃ init, Nat.digits 10 n = init ++ [(Nat.digits 10 n).getLast hne] :=
    ⟨_, (List.dropLast_append_getLast hne).symm⟩
  refine ⟨digitChar ((Nat.digits 10 n).getLast hne), init.reverse.map digitChar, ?_, ?_⟩
  · rw [decimal_of_pos h]
    conv_lhs => rw [hinit]
    rw [List.reverse_append, List.reverse_singleton, List.map_append]
    rfl
  · intro hc
    have := congrArg Fin.val hc
    rw [digitChar_val hlt] at this
    have : (Nat.digits 10 n).getLast hne = 0 := by
      have h30 : ((0x30 : CodePoint) : Nat) = 0x30 := rfl
      omega
    exact hlast this

/-- Multiplying by a power of ten appends zeros. -/
theorem decimal_mul_pow {n : Nat} (h : 0 < n) (e : Nat) :
    decimal (n * 10 ^ e) = decimal n ++ List.replicate e 0x30 := by
  have hpos : 0 < n * 10 ^ e := Nat.mul_pos h (Nat.pow_pos (by decide))
  rw [decimal_of_pos hpos, decimal_of_pos h, Nat.mul_comm, Nat.digits_base_pow_mul (by decide) h,
    List.reverse_append, List.reverse_replicate, List.map_append, List.map_replicate]
  rfl

end PyText

namespace Binary64

/-! ### Integers below `2 ^ 53` as doubles -/

theorem unit_pos : 0 < unit := by
  rw [unit_eq]
  positivity

/-- The unit's exponent under a name, so that no step evaluates the power. -/
theorem unit_pow : ∃ k, k = 1074 ∧ unit = 2 ^ k := ⟨1074, rfl, unit_eq⟩

theorem nearest_mul (q : Nat) {d : Nat} (h : 0 < d) : nearest (q * d) d = q := by
  rw [nearest, Nat.mul_div_cancel q h, Nat.mul_mod_left]
  exact if_pos h

/-- The mantissa and scale of an integer's double. -/
structure Represents (n mantissa scale : Nat) : Prop where
  units : mantissa * 2 ^ scale = n * unit
  ulp : 2 ^ scale ≤ unit
  positive : 0 < mantissa

/-- Shifted to 53 bits, an integer below `2 ^ 53` is a normal mantissa. -/
theorem shifted_bounds {n : Nat} (hpos : 0 < n) (hlt : n < 2 ^ 53) :
    Nat.log2 n ≤ 52 ∧ 2 ^ 52 ≤ n * 2 ^ (52 - Nat.log2 n) ∧ n * 2 ^ (52 - Nat.log2 n) < 2 ^ 53 := by
  have hlow : 2 ^ Nat.log2 n ≤ n := Nat.log2_self_le (by omega)
  have hhigh : n < 2 ^ (Nat.log2 n + 1) := Nat.lt_log2_self
  have hlog : Nat.log2 n ≤ 52 := by
    by_contra hc
    have : 2 ^ 53 ≤ 2 ^ Nat.log2 n := Nat.pow_le_pow_right (by decide) (by omega)
    omega
  refine ⟨hlog, ?_, ?_⟩
  · calc 2 ^ 52 = 2 ^ Nat.log2 n * 2 ^ (52 - Nat.log2 n) := by rw [← Nat.pow_add, Nat.add_sub_cancel' hlog]
      _ ≤ n * 2 ^ (52 - Nat.log2 n) := Nat.mul_le_mul_right _ hlow
  · calc n * 2 ^ (52 - Nat.log2 n) < 2 ^ (Nat.log2 n + 1) * 2 ^ (52 - Nat.log2 n) :=
          Nat.mul_lt_mul_of_pos_right hhigh (Nat.pow_pos (by decide))
      _ = 2 ^ 53 := by rw [← Nat.pow_add, show Nat.log2 n + 1 + (52 - Nat.log2 n) = 53 by omega]

theorem log2_mul_unit {n : Nat} (hpos : 0 < n) : Nat.log2 (n * unit) = Nat.log2 n + 1074 := by
  have hlow : 2 ^ Nat.log2 n ≤ n := Nat.log2_self_le (by omega)
  have hhigh : n < 2 ^ (Nat.log2 n + 1) := Nat.lt_log2_self
  obtain ⟨k, hk, hunit⟩ := unit_pow
  rw [← hk]
  refine (Nat.log2_eq_iff (Nat.mul_pos hpos unit_pos).ne').mpr ⟨?_, ?_⟩
  · rw [Nat.pow_add, ← hunit]
    exact Nat.mul_le_mul_right unit hlow
  · rw [show Nat.log2 n + k + 1 = Nat.log2 n + 1 + k by omega, Nat.pow_add, ← hunit]
    exact Nat.mul_lt_mul_of_pos_right hhigh unit_pos

/-- An integer below `2 ^ 53` is rounded to itself. -/
theorem nearestPair_nat {n : Nat} (hpos : 0 < n) (hlt : n < 2 ^ 53) :
    ∃ mantissa scale, nearestPair n 1 = (mantissa, scale) ∧ Canonical64 mantissa scale ∧
      Represents n mantissa scale := by
  obtain ⟨k, hk, hunit⟩ := unit_pow
  obtain ⟨hlog, hlow, hhigh⟩ := shifted_bounds hpos hlt
  have hscale : Nat.log2 (n * unit / 1) - 52 = Nat.log2 n + 1022 := by
    rw [Nat.div_one, log2_mul_unit hpos]
    omega
  have hunits : n * 2 ^ (52 - Nat.log2 n) * 2 ^ (Nat.log2 n + 1022) = n * unit := by
    rw [Nat.mul_assoc, ← Nat.pow_add, show 52 - Nat.log2 n + (Nat.log2 n + 1022) = k by omega, ← hunit]
  have hnearest : nearest (n * unit) (1 * 2 ^ (Nat.log2 n + 1022)) = n * 2 ^ (52 - Nat.log2 n) := by
    rw [Nat.one_mul, ← hunits]
    exact nearest_mul _ (Nat.pow_pos (by decide))
  refine ⟨n * 2 ^ (52 - Nat.log2 n), Nat.log2 n + 1022, ?_, ⟨hhigh, by omega, .inl hlow⟩, hunits, ?_, by omega⟩
  · unfold nearestPair
    simp only [hscale, hnearest]
    rw [if_neg (by omega)]
  · rw [hunit]
    exact Nat.pow_le_pow_right (by decide) (by omega)

/- Below, a definition that matches on a double's pieces is unfolded as a constant
first: comparing it with its unfolding at stuck arguments would make the kernel
evaluate the powers of two inside. -/

theorem round_def : round = fun negative a d =>
    match nearestPair a d with
    | (mantissa, scale) =>
      if h : Canonical64 mantissa scale then .finite negative mantissa scale h else .inf negative := by
  delta round
  rfl

theorem round_eq_finite {negative : Bool} {a d mantissa scale : Nat} (hp : nearestPair a d = (mantissa, scale))
    (hc : Canonical64 mantissa scale) : round negative a d = .finite negative mantissa scale hc := by
  rw [round_def]
  beta_reduce
  rw [hp]
  exact dif_pos hc

theorem ofInt?_of_round {i : Int} {negative : Bool} {mantissa scale : Nat} {hc : Canonical64 mantissa scale}
    (h : round (decide (i < 0)) i.natAbs 1 = .finite negative mantissa scale hc) :
    ofInt? i = some (.finite negative mantissa scale hc) := by
  have hdef : ofInt? = ofInt? := rfl
  conv at hdef => rhs; delta ofInt?
  rw [hdef]
  beta_reduce
  rw [h]

/-- An integer below `2 ^ 53` is a double. -/
theorem ofInt?_eq_some {i : Int} (hpos : 0 < i.natAbs) (hlt : i.natAbs < 2 ^ 53) :
    ∃ mantissa scale h, ofInt? i = some (.finite (decide (i < 0)) mantissa scale h) ∧
      Represents i.natAbs mantissa scale := by
  obtain ⟨mantissa, scale, hpair, hcanonical, hrep⟩ := nearestPair_nat hpos hlt
  exact ⟨mantissa, scale, hcanonical, ofInt?_of_round (round_eq_finite hpair hcanonical), hrep⟩

/-! ### The shortest decimal of an integer's double -/

section Shortest

variable {n mantissa scale : Nat}

/-- The rounding interval is no wider than the gap between neighbouring halves. -/
theorem readsBack_bounds {digits e : Nat} (hr : readsBack mantissa scale digits (e : Int)) :
    (4 * mantissa - 2) * 2 ^ scale ≤ 4 * (digits * 10 ^ e * unit) ∧
      4 * (digits * 10 ^ e * unit) ≤ (4 * mantissa + 2) * 2 ^ scale := by
  have hlower : (4 * mantissa - 2) * 2 ^ scale ≤ (roundingBounds mantissa scale).1 := by
    rw [roundingBounds]
    split
    · exact Nat.mul_le_mul_right _ (by omega)
    · exact le_rfl
  have hneg : (-(e : Int)).toNat = 0 := by omega
  simp only [readsBack, Int.toNat_natCast, hneg, Nat.pow_zero, Nat.mul_one] at hr
  split at hr
  · obtain ⟨hl, hu⟩ := of_decide_eq_true hr
    exact ⟨hlower.trans hl, hu⟩
  · obtain ⟨hl, hu⟩ := of_decide_eq_true hr
    exact ⟨hlower.trans hl.le, hu.le⟩

/-- A decimal without a fraction reads back only as the integer it denotes. -/
theorem readsBack_nat (h : Represents n mantissa scale) {digits e : Nat}
    (hr : readsBack mantissa scale digits (e : Int)) : digits * 10 ^ e = n := by
  obtain ⟨hl, hu⟩ := readsBack_bounds hr
  generalize digits * 10 ^ e = value at hl hu ⊢
  have hunit := unit_pos
  have hlow : 4 * n * unit ≤ (4 * value + 2) * unit := by
    calc 4 * n * unit = 4 * mantissa * 2 ^ scale := by rw [Nat.mul_assoc, ← h.units, Nat.mul_assoc]
      _ ≤ (4 * mantissa - 2) * 2 ^ scale + 2 * 2 ^ scale := by
        rw [← Nat.add_mul]
        exact Nat.mul_le_mul_right _ (by omega)
      _ ≤ 4 * (value * unit) + 2 * unit := Nat.add_le_add hl (Nat.mul_le_mul_left 2 h.ulp)
      _ = (4 * value + 2) * unit := by rw [Nat.add_mul, Nat.mul_assoc]
  have hhigh : 4 * value * unit ≤ (4 * n + 2) * unit := by
    calc 4 * value * unit = 4 * (value * unit) := Nat.mul_assoc 4 value unit
      _ ≤ 4 * mantissa * 2 ^ scale + 2 * 2 ^ scale := by rwa [← Nat.add_mul]
      _ ≤ 4 * (n * unit) + 2 * unit := by
        rw [Nat.mul_assoc, h.units]
        exact Nat.add_le_add_left (Nat.mul_le_mul_left 2 h.ulp) _
      _ = (4 * n + 2) * unit := by rw [Nat.add_mul, Nat.mul_assoc]
  have h1 := Nat.le_of_mul_le_mul_right hlow hunit
  have h2 := Nat.le_of_mul_le_mul_right hhigh hunit
  omega

theorem readsBack_self (h : Represents n mantissa scale) : readsBack mantissa scale n ((0 : Nat) : Int) := by
  have hm := h.positive
  have hp : 0 < 2 ^ scale := Nat.pow_pos (by decide)
  have hvalue : 4 * (n * unit) = 4 * mantissa * 2 ^ scale := by rw [← h.units, Nat.mul_assoc]
  have hlower : (roundingBounds mantissa scale).1 < 4 * mantissa * 2 ^ scale := by
    rw [roundingBounds]
    split
    · exact Nat.mul_lt_mul_of_pos_right (by omega) hp
    · exact Nat.mul_lt_mul_of_pos_right (by omega) hp
  have hupper : 4 * mantissa * 2 ^ scale < (roundingBounds mantissa scale).2 :=
    Nat.mul_lt_mul_of_pos_right (by omega) hp
  simp only [readsBack, Nat.cast_zero, neg_zero, Int.toNat_zero, Nat.pow_zero, Nat.mul_one, hvalue]
  split
  · exact decide_eq_true ⟨hlower.le, hupper.le⟩
  · exact decide_eq_true ⟨hlower, hupper⟩

theorem candidates_zero (h : Represents n mantissa scale) :
    candidates (mantissa * 2 ^ scale) ((0 : Nat) : Int) = [n, n + 1] := by
  have hdiv : n * unit / unit = n := Nat.mul_div_cancel n unit_pos
  simp only [candidates, Nat.cast_zero, neg_zero, Int.toNat_zero, Nat.pow_zero, Nat.mul_one, h.units, hdiv,
    nearest_mul n unit_pos, if_true]

/-- Some count of digits up to the integer's own length is enough. -/
theorem searchDigits_nat (h : Represents n mantissa scale) (point : Nat) :
    ∀ fuel count, count ≤ point → point < count + fuel →
      ∃ digits e : Nat, searchDigits mantissa scale point fuel count = (digits, (e : Int)) ∧ digits * 10 ^ e = n := by
  intro fuel
  induction fuel with
  | zero =>
    intro count hle hlt
    omega
  | succ fuel ih =>
    intro count hle hlt
    have hexp : (point : Int) - count = ((point - count : Nat) : Int) := by omega
    rw [searchDigits, hexp]
    cases hfind : (candidates (mantissa * 2 ^ scale) ((point - count : Nat) : Int)).find?
        (fun digits => readsBack mantissa scale digits ((point - count : Nat) : Int)) with
    | some digits =>
      exact ⟨digits, point - count, rfl, readsBack_nat h (by simpa using List.find?_some hfind)⟩
    | none =>
      -- with no digit left to give, the integer itself is a candidate
      have hne : count ≠ point := by
        rintro rfl
        rw [Nat.sub_self, candidates_zero h] at hfind
        exact List.find?_eq_none.mp hfind n List.mem_cons_self (readsBack_self h)
      exact ih (count + 1) (by omega) (by omega)

theorem decimalPoint_nat (hpos : 0 < n) : decimalPoint (n * unit) = ((Nat.digits 10 n).length : Nat) := by
  rw [decimalPoint, if_pos (Nat.le_mul_of_pos_left unit hpos), Nat.mul_div_cancel n unit_pos]

theorem shortest_nat (h : Represents n mantissa scale) (hpos : 0 < n) (hlen : (Nat.digits 10 n).length ≤ 16) :
    ∃ digits e : Nat, shortest mantissa scale = (digits, (e : Int)) ∧ digits * 10 ^ e = n := by
  have hone : 1 ≤ (Nat.digits 10 n).length :=
    List.length_pos_iff.mpr (Nat.digits_ne_nil_iff_ne_zero.mpr (by omega))
  obtain ⟨digits, e, hs, hd⟩ := searchDigits_nat h _ 16 1 hone (by omega)
  rw [shortest, h.units, decimalPoint_nat hpos, hs]
  by_cases hz : digits % 10 = 0
  · refine ⟨digits / 10, e + 1, by simp [hz], ?_⟩
    rw [← hd, Nat.pow_succ, Nat.mul_comm (10 ^ e), ← Nat.mul_assoc, Nat.div_mul_cancel (Nat.dvd_of_mod_eq_zero hz)]
  · exact ⟨digits, e, by simp [hz], hd⟩

end Shortest

end Binary64

namespace AitpVerifier.Jcs

/-! ### The formatted integer -/

/-- The numeral of an integer. -/
def integerText (i : Int) : Text := (if i < 0 then txt "-" else []) ++ decimal i.natAbs

theorem reprMagnitude_of_shortest {mantissa scale digits e : Nat}
    (hs : Binary64.shortest mantissa scale = (digits, (e : Int))) (hlen : (decimal digits).length + e ≤ 16) :
    Binary64.reprMagnitude mantissa scale = decimal digits ++ List.replicate e 0x30 ++ txt ".0" := by
  have hne := List.length_pos_iff.mpr (decimal_ne_nil digits)
  have hdef : Binary64.reprMagnitude = Binary64.reprMagnitude := rfl
  conv at hdef => rhs; delta Binary64.reprMagnitude
  rw [hdef]
  beta_reduce
  rw [hs]
  dsimp only
  rw [if_pos (by omega), if_neg (by omega), if_pos (by omega),
    show ((e : Int) + (decimal digits).length - (decimal digits).length).toNat = e by omega]

/-- `repr` writes an integer's double as the numeral and `.0`. -/
theorem reprMagnitude_nat {n mantissa scale : Nat} (h : Binary64.Represents n mantissa scale) (hpos : 0 < n)
    (hlen : (decimal n).length ≤ 16) : Binary64.reprMagnitude mantissa scale = decimal n ++ txt ".0" := by
  obtain ⟨digits, e, hs, hd⟩ := Binary64.shortest_nat h hpos (decimal_length hpos ▸ hlen)
  have hdpos : 0 < digits := by
    rcases Nat.eq_zero_or_pos digits with rfl | hd0
    · omega
    · exact hd0
  have hdecimal : decimal n = decimal digits ++ List.replicate e 0x30 := by rw [← hd, decimal_mul_pow hdpos]
  rw [hdecimal, List.length_append, List.length_replicate] at hlen
  rw [reprMagnitude_of_shortest hs hlen, hdecimal]

/-- What is stripped of its trailing zeros is its start. -/
theorem stripTrailingZeros_append (s : Text) :
    ∃ k, s = stripTrailingZeros s ++ List.replicate k 0x30 := by
  refine ⟨(s.reverse.takeWhile (· == 0x30)).length, ?_⟩
  have hzeros : s.reverse.takeWhile (· == 0x30) =
      List.replicate (s.reverse.takeWhile (· == 0x30)).length 0x30 := by
    refine List.eq_replicate_iff.mpr ⟨rfl, ?_⟩
    intro c hc
    exact beq_iff_eq.mp (List.all_eq_true.mp List.all_takeWhile c hc)
  have hsplit := List.takeWhile_append_dropWhile (p := (· == (0x30 : CodePoint))) (l := s.reverse)
  calc s = s.reverse.reverse := (List.reverse_reverse s).symm
    _ = (s.reverse.takeWhile (· == 0x30) ++ s.reverse.dropWhile (· == 0x30)).reverse := by rw [hsplit]
    _ = stripTrailingZeros s ++ (s.reverse.takeWhile (· == 0x30)).reverse := List.reverse_append
    _ = stripTrailingZeros s ++ List.replicate (s.reverse.takeWhile (· == 0x30)).length 0x30 := by
      conv_lhs => rw [hzeros]
      rw [List.reverse_replicate]

theorem stripTrailingZeros_zero (s : Text) : stripTrailingZeros (s ++ [0x30]) = stripTrailingZeros s := by
  rw [stripTrailingZeros, List.reverse_append, List.reverse_singleton, List.singleton_append,
    List.dropWhile_cons_of_pos (by rfl), stripTrailingZeros]

theorem not_mem_decimal {n : Nat} {c : CodePoint} (h : c.val < 0x30 ∨ 0x39 < c.val) : c ∉ decimal n := by
  intro hc
  have := mem_decimal hc
  omega

/-- The digits of an integer's `repr`, with the point after its last digit. -/
theorem shortestDigits_nat {n : Nat} (hpos : 0 < n) :
    ∃ digits k, shortestDigits (decimal n ++ txt ".0") = .ok (digits, ((digits.length + k : Nat) : Int)) ∧
      decimal n = digits ++ List.replicate k 0x30 := by
  obtain ⟨c, rest, hc, hne⟩ := decimal_head hpos
  obtain ⟨k, hk⟩ := stripTrailingZeros_append (decimal n)
  have hnoE : (0x65 : CodePoint) ∉ decimal n ++ txt ".0" := by
    rw [List.mem_append, not_or]
    exact ⟨not_mem_decimal (.inr (by decide)), by decide⟩
  have hpoint : partition 0x2E (decimal n ++ txt ".0") = (decimal n, true, [0x30]) :=
    partition_append (not_mem_decimal (.inl (by decide)))
  have hhead : (decimal n ++ [0x30]).dropWhile (· == 0x30) = decimal n ++ [0x30] := by
    rw [hc, List.cons_append, List.dropWhile_cons_of_neg (by simpa using hne)]
  have hdigits : stripTrailingZeros (decimal n) ≠ [] := by
    intro hnil
    rw [hnil, List.nil_append, hc] at hk
    cases k with
    | zero => exact List.cons_ne_nil _ _ hk
    | succ k => exact hne (List.cons.inj hk).1
  have hempty : (stripTrailingZeros (decimal n)).isEmpty = false := by
    rw [List.isEmpty_eq_false_iff]
    exact hdigits
  refine ⟨stripTrailingZeros (decimal n), k, ?_, hk⟩
  have hlength : (decimal n).length = (stripTrailingZeros (decimal n)).length + k := by
    conv_lhs => rw [hk]
    rw [List.length_append, List.length_replicate]
  simp only [shortestDigits, splitExponent, partition_of_not_mem hnoE, Bool.false_eq_true, if_false, hpoint, hhead,
    stripTrailingZeros_zero, hempty, Checked.raiseIf, Nat.sub_self, Nat.cast_zero, hlength,
    add_zero, sub_zero]
  rfl

/-- The plain band writes the zeros out again. -/
theorem numberBody_nat {digits : Text} {k : Nat} (h : digits.length + k ≤ 21) :
    numberBody digits ((digits.length + k : Nat) : Int) = digits ++ List.replicate k 0x30 := by
  rw [numberBody, if_pos (by omega), zeros]
  congr 2
  omega

theorem formatFloat_nat {negative : Bool} {n mantissa scale : Nat} {hc : Canonical64 mantissa scale}
    (h : Binary64.Represents n mantissa scale) (hpos : 0 < n) (hlen : (decimal n).length ≤ 16) :
    formatFloat (.finite negative mantissa scale hc) = .ok ((if negative then txt "-" else []) ++ decimal n) := by
  obtain ⟨digits, k, hs, hd⟩ := shortestDigits_nat hpos
  have hm := h.positive
  have hlength : digits.length + k ≤ 21 := by
    rw [hd, List.length_append, List.length_replicate] at hlen
    omega
  have hdef : formatFloat = formatFloat := rfl
  conv at hdef => rhs; delta formatFloat
  rw [hdef]
  dsimp only
  rw [if_neg (by omega), reprMagnitude_nat h hpos hlen, hs]
  change Except.ok (_ ++ numberBody digits _) = _
  rw [numberBody_nat hlength, hd]

theorem ofInt?_formatInt {i : Int} {f : Binary64} (h : Binary64.ofInt? i = some f) : formatInt i = formatFloat f := by
  have hdef : formatInt = formatInt := rfl
  conv at hdef => rhs; delta formatInt
  rw [hdef]
  beta_reduce
  rw [h]

/-- An integer of magnitude up to `2 ^ 53` is formatted as its numeral. -/
theorem formatInt_eq {i : Int} (h : i.natAbs ≤ 2 ^ 53) : formatInt i = .ok (integerText i) := by
  rcases Nat.eq_zero_or_pos i.natAbs with hzero | hpos
  · obtain rfl : i = 0 := Int.natAbs_eq_zero.mp hzero
    decide +kernel
  · rcases Nat.lt_or_eq_of_le h with hlt | heq
    · obtain ⟨mantissa, scale, hc, hof, hrep⟩ := Binary64.ofInt?_eq_some hpos hlt
      have hlen : (decimal i.natAbs).length ≤ 16 := by
        rw [decimal_length hpos]
        exact (Nat.digits_length_le_iff (by decide) _).mpr (hlt.trans (by decide))
      rw [ofInt?_formatInt hof, formatFloat_nat hrep hpos hlen, integerText]
      simp only [decide_eq_true_eq]
    · rcases Int.natAbs_eq i with hi | hi
      · rw [hi, heq]
        decide +kernel
      · rw [hi, heq]
        decide +kernel

end AitpVerifier.Jcs
