import AitpVerifier.NumberText

/-!
# The shortest decimal of a double is its own

Seventeen digits always read back, so the search ends with a decimal that does, and a
decimal reads back as one double only. The text formatted from a double therefore gives
the double away, but for the sign of a zero.
-/
namespace Binary64

open PyText

/-! ### The decimals that read back -/

/-- The rational lies where reading rounds to `mantissa * 2 ^ scale`. -/
def ReadsAs (mantissa scale : Nat) (q : ℚ) : Prop :=
  if mantissa % 2 = 0 then
    ((roundingBounds mantissa scale).1 : ℚ) ≤ 4 * (q * unit) ∧ 4 * (q * unit) ≤ (roundingBounds mantissa scale).2
  else
    ((roundingBounds mantissa scale).1 : ℚ) < 4 * (q * unit) ∧ 4 * (q * unit) < (roundingBounds mantissa scale).2

/-- A power of ten cleared of its negative exponent. -/
theorem mul_pow_toNat (digits : ℚ) (exponent : Int) :
    digits * 10 ^ exponent * 10 ^ (-exponent).toNat = digits * 10 ^ exponent.toNat := by
  have hten : (10 : ℚ) ≠ 0 := by norm_num
  rw [mul_assoc, ← zpow_natCast, ← zpow_natCast, ← zpow_add₀ hten]
  congr 2
  omega

theorem readsBack_iff {mantissa scale digits : Nat} {exponent : Int} :
    readsBack mantissa scale digits exponent = true ↔ ReadsAs mantissa scale (digits * 10 ^ exponent) := by
  have hpos : (0 : ℚ) < 10 ^ (-exponent).toNat := by positivity
  have hvalue : 4 * ((digits : ℚ) * 10 ^ exponent * unit) * 10 ^ (-exponent).toNat =
      4 * (digits * 10 ^ exponent.toNat * unit) := by
    rw [mul_assoc 4, mul_right_comm _ (unit : ℚ), mul_pow_toNat]
  have hlower (bound : Nat) : (bound * 10 ^ (-exponent).toNat ≤ 4 * (digits * 10 ^ exponent.toNat * unit) ↔
      (bound : ℚ) ≤ 4 * (digits * 10 ^ exponent * unit)) ∧
      (bound * 10 ^ (-exponent).toNat < 4 * (digits * 10 ^ exponent.toNat * unit) ↔
        (bound : ℚ) < 4 * (digits * 10 ^ exponent * unit)) := by
    rw [← mul_le_mul_iff_left₀ hpos, ← mul_lt_mul_iff_left₀ hpos, hvalue]
    exact ⟨by exact_mod_cast Iff.rfl, by exact_mod_cast Iff.rfl⟩
  have hupper (bound : Nat) : (4 * (digits * 10 ^ exponent.toNat * unit) ≤ bound * 10 ^ (-exponent).toNat ↔
      4 * ((digits : ℚ) * 10 ^ exponent * unit) ≤ bound) ∧
      (4 * (digits * 10 ^ exponent.toNat * unit) < bound * 10 ^ (-exponent).toNat ↔
        4 * ((digits : ℚ) * 10 ^ exponent * unit) < bound) := by
    rw [← mul_le_mul_iff_left₀ hpos, ← mul_lt_mul_iff_left₀ hpos, hvalue]
    exact ⟨by exact_mod_cast Iff.rfl, by exact_mod_cast Iff.rfl⟩
  rw [readsBack, ReadsAs]
  split
  · rw [decide_eq_true_eq, (hlower _).1, (hupper _).1]
  · rw [decide_eq_true_eq, (hlower _).2, (hupper _).2]

/-! ### Seventeen digits -/

theorem nearest_bounds (a : Nat) {d : Nat} (hd : 0 < d) :
    2 * a ≤ 2 * (nearest a d * d) + d ∧ 2 * (nearest a d * d) ≤ 2 * a + d := by
  have hdiv := Nat.div_add_mod a d
  have hmod := Nat.mod_lt a hd
  have hcomm : a / d * d = d * (a / d) := Nat.mul_comm _ _
  rw [nearest]
  split
  · omega
  · split
    · rw [Nat.add_mul, Nat.one_mul]
      omega
    · rcases Nat.mod_two_eq_zero_or_one (a / d) with h | h
      · rw [h, Nat.add_zero]
        omega
      · rw [h, Nat.add_mul, Nat.one_mul]
        omega

/-- Seventeen digits stand closer than half the gap to the next double. -/
theorem readsBack_seventeen {mantissa scale : Nat} (hm : 0 < mantissa) (hlt : mantissa < 2 ^ 53) :
    readsBack mantissa scale
      (nearest (mantissa * 2 ^ scale * 10 ^ ((17 : Nat) - decimalPoint (mantissa * 2 ^ scale)).toNat)
        (unit * 10 ^ (decimalPoint (mantissa * 2 ^ scale) - (17 : Nat)).toNat))
      (decimalPoint (mantissa * 2 ^ scale) - (17 : Nat)) = true := by
  have hp : 0 < 2 ^ scale := Nat.pow_pos (by decide)
  have hu : 0 < mantissa * 2 ^ scale := Nat.mul_pos hm hp
  have hpoint := @decimalPoint_le _ hu 1 le_rfl
  generalize decimalPoint (mantissa * 2 ^ scale) = point at hpoint ⊢
  have hneg : (-(point - (17 : Nat))).toNat = ((17 : Nat) - point).toNat := by omega
  -- the value reaches sixteen digits past the last one
  have hroom : unit * 10 ^ (point - (17 : Nat)).toNat * 10 ^ 16 ≤ mantissa * 2 ^ scale * 10 ^ ((17 : Nat) - point).toNat := by
    have hsplit (k : Nat) (h : (point - (1 : Nat)).toNat + k = (point - (17 : Nat)).toNat + 16)
        (h' : ((1 : Nat) - point).toNat + k = ((17 : Nat) - point).toNat) :
        unit * 10 ^ (point - (17 : Nat)).toNat * 10 ^ 16 ≤ mantissa * 2 ^ scale * 10 ^ ((17 : Nat) - point).toNat := by
      rw [Nat.mul_assoc, ← Nat.pow_add, ← h, ← h', Nat.pow_add, Nat.pow_add, ← Nat.mul_assoc, ← Nat.mul_assoc]
      exact Nat.mul_le_mul_right _ hpoint
    by_cases hhigh : (17 : Int) ≤ point
    · exact hsplit 0 (by omega) (by omega)
    · by_cases hlow : (1 : Int) ≤ point
      · exact hsplit (17 - point.toNat) (by omega) (by omega)
      · exact hsplit 16 (by omega) (by omega)
  have hd : 0 < unit * 10 ^ (point - (17 : Nat)).toNat := Nat.mul_pos unit_pos (Nat.pow_pos (by decide))
  obtain ⟨hbelow, habove⟩ := nearest_bounds (mantissa * 2 ^ scale * 10 ^ ((17 : Nat) - point).toNat) hd
  have hten : 0 < 10 ^ ((17 : Nat) - point).toNat := Nat.pow_pos (by decide)
  have hvalue (digits : Nat) : 4 * (digits * 10 ^ (point - (17 : Nat)).toNat * unit) =
      4 * (digits * (unit * 10 ^ (point - (17 : Nat)).toNat)) := by ring
  rw [readsBack]
  rw [hneg, hvalue]
  generalize nearest (mantissa * 2 ^ scale * 10 ^ ((17 : Nat) - point).toNat) (unit * 10 ^ (point - (17 : Nat)).toNat) *
    (unit * 10 ^ (point - (17 : Nat)).toNat) = found at hbelow habove ⊢
  generalize unit * 10 ^ (point - (17 : Nat)).toNat = d at hroom hd hbelow habove
  generalize 10 ^ ((17 : Nat) - point).toNat = ten at hroom hbelow habove hten ⊢
  have hgap : 0 < 2 ^ scale * ten := Nat.mul_pos hp hten
  have hupper : (roundingBounds mantissa scale).2 * ten = 4 * (mantissa * 2 ^ scale * ten) + 2 * (2 ^ scale * ten) := by
    rw [roundingBounds]
    ring
  have hproduct : mantissa * 2 ^ scale * ten = mantissa * (2 ^ scale * ten) := Nat.mul_assoc _ _ _
  have hlower : (roundingBounds mantissa scale).1 * ten < 4 * found := by
    rw [roundingBounds]
    split
    · rename_i hsmall
      have hsub : (4 * mantissa - 1) * 2 ^ scale * ten = 4 * (mantissa * 2 ^ scale * ten) - 2 ^ scale * ten := by
        rw [Nat.mul_assoc, Nat.sub_mul, hproduct]
        ring_nf
      rw [hsub]
      rw [hproduct, hsmall.1] at hroom hbelow ⊢
      omega
    · have hsub : (4 * mantissa - 2) * 2 ^ scale * ten = 4 * (mantissa * 2 ^ scale * ten) - 2 * (2 ^ scale * ten) := by
        rw [Nat.mul_assoc, Nat.sub_mul, hproduct]
        ring_nf
      rw [hsub]
      have hstep : mantissa * (2 ^ scale * ten) < 2 ^ 53 * (2 ^ scale * ten) := Nat.mul_lt_mul_of_pos_right hlt hgap
      rw [hproduct] at hroom hbelow ⊢
      omega
  have hbound : 4 * found < (roundingBounds mantissa scale).2 * ten := by
    rw [hupper]
    have hstep : mantissa * (2 ^ scale * ten) < 2 ^ 53 * (2 ^ scale * ten) := Nat.mul_lt_mul_of_pos_right hlt hgap
    rw [hproduct] at hroom habove ⊢
    omega
  split
  · exact decide_eq_true ⟨hlower.le, hbound.le⟩
  · exact decide_eq_true ⟨hlower, hbound⟩

/-- Whatever the search finds reads back. -/
theorem searchDigits_readsBack {mantissa scale : Nat} (hm : 0 < mantissa) (hlt : mantissa < 2 ^ 53) :
    ∀ fuel count, count + fuel = 17 →
      readsBack mantissa scale (searchDigits mantissa scale (decimalPoint (mantissa * 2 ^ scale)) fuel count).1
        (searchDigits mantissa scale (decimalPoint (mantissa * 2 ^ scale)) fuel count).2 = true := by
  intro fuel
  induction fuel with
  | zero =>
    intro count hcount
    obtain rfl : count = 17 := by omega
    rw [searchDigits]
    exact readsBack_seventeen hm hlt
  | succ fuel ih =>
    intro count hcount
    rw [searchDigits]
    split
    · rename_i digits hfind
      have hback := List.find?_some hfind
      exact hback
    · exact ih (count + 1) (by omega)

/-- The shortest decimal reads back. -/
theorem shortest_readsAs {mantissa scale : Nat} (hm : 0 < mantissa) (hlt : mantissa < 2 ^ 53) :
    ReadsAs mantissa scale ((shortest mantissa scale).1 * 10 ^ (shortest mantissa scale).2) := by
  have hback := @searchDigits_readsBack mantissa scale hm hlt 16 1 rfl
  rw [shortest]
  generalize searchDigits mantissa scale (decimalPoint (mantissa * 2 ^ scale)) 16 1 = found at hback
  obtain ⟨digits, exponent⟩ := found
  dsimp only at hback ⊢
  rw [readsBack_iff] at hback
  split
  · rename_i hzero
    have hdrop : ((digits / 10 : Nat) : ℚ) * 10 ^ (exponent + 1) = digits * 10 ^ exponent := by
      have hdigits : ((digits / 10 : Nat) : ℚ) * 10 = digits := by
        exact_mod_cast Nat.div_mul_cancel (Nat.dvd_of_mod_eq_zero hzero)
      rw [zpow_add₀ (by norm_num), zpow_one, mul_comm (10 ^ exponent : ℚ) 10, ← mul_assoc, hdigits]
    rw [hdrop]
    exact hback
  · exact hback

/-! ### One double for each decimal -/

theorem nearest_eq {a d m : Nat} (hd : 0 < d) (hlow : 2 * (m * d) ≤ 2 * a + d) (hhigh : 2 * a ≤ 2 * (m * d) + d)
    (htie : 2 * (m * d) = 2 * a + d ∨ 2 * a = 2 * (m * d) + d → m % 2 = 0) : nearest a d = m := by
  have hdiv := Nat.div_add_mod a d
  have hmod := Nat.mod_lt a hd
  rw [nearest]
  generalize a / d = q at hdiv
  generalize a % d = r at hdiv hmod
  rw [Nat.mul_comm d q] at hdiv
  rcases Nat.lt_trichotomy m q with hlt | rfl | hgt
  · exfalso
    have hstep : (m + 1) * d ≤ q * d := Nat.mul_le_mul_right d hlt
    rw [Nat.add_mul] at hstep
    omega
  · split
    · rfl
    · split
      · omega
      · have := htie (by omega)
        omega
  · have hnext : m = q + 1 := by
      by_contra hne
      have hstep : (q + 2) * d ≤ m * d := Nat.mul_le_mul_right d (by omega)
      rw [Nat.add_mul] at hstep
      omega
    subst hnext
    rw [Nat.add_mul, Nat.one_mul] at hlow hhigh htie
    split
    · omega
    · split
      · rfl
      · have := htie (by omega)
        omega

/-- The interval in whole numbers: what `ReadsAs` says of a fraction. -/
theorem ReadsAs.bounds {mantissa scale a d : Nat} (hd : 0 < d) (h : ReadsAs mantissa scale (a / d)) :
    (roundingBounds mantissa scale).1 * d ≤ 4 * (a * unit) ∧ 4 * (a * unit) ≤ (roundingBounds mantissa scale).2 * d ∧
      (mantissa % 2 ≠ 0 → (roundingBounds mantissa scale).1 * d < 4 * (a * unit) ∧
        4 * (a * unit) < (roundingBounds mantissa scale).2 * d) := by
  have hpos : (0 : ℚ) < d := Nat.cast_pos.mpr hd
  have hvalue : 4 * ((a : ℚ) / d * unit) = 4 * (a * unit) / d := by ring
  rw [ReadsAs, hvalue] at h
  split at h
  · rename_i heven
    rw [le_div_iff₀ hpos, div_le_iff₀ hpos] at h
    exact ⟨by exact_mod_cast h.1, by exact_mod_cast h.2, fun hodd => absurd heven hodd⟩
  · rw [lt_div_iff₀ hpos, div_lt_iff₀ hpos] at h
    have hlow : (roundingBounds mantissa scale).1 * d < 4 * (a * unit) := by exact_mod_cast h.1
    have hhigh : 4 * (a * unit) < (roundingBounds mantissa scale).2 * d := by exact_mod_cast h.2
    exact ⟨hlow.le, hhigh.le, fun _ => ⟨hlow, hhigh⟩⟩

theorem log2_between {n k : Nat} (hlow : 2 ^ k ≤ n) (hhigh : n < 2 ^ (k + 1)) : Nat.log2 n = k :=
  (Nat.log2_eq_iff (Nat.pos_of_ne_zero fun h => by
    rw [h] at hlow
    exact absurd (Nat.pow_pos (by decide : 0 < 2)) (Nat.not_lt.mpr hlow)).ne').mpr ⟨hlow, hhigh⟩

/-- Where the interval starts. -/
theorem roundingBounds_cases (mantissa scale d : Nat) :
    (mantissa = 2 ^ 52 ∧ 0 < scale ∧ (roundingBounds mantissa scale).1 * d = (2 ^ 54 - 1) * (2 ^ scale * d)) ∨
      ¬ (mantissa = 2 ^ 52 ∧ 0 < scale) ∧
        (roundingBounds mantissa scale).1 * d = 4 * (mantissa * (2 ^ scale * d)) - 2 * (2 ^ scale * d) := by
  by_cases h : mantissa = 2 ^ 52 ∧ 0 < scale
  · refine .inl ⟨h.1, h.2, ?_⟩
    rw [roundingBounds, if_pos h, h.1, Nat.mul_assoc, show 4 * 2 ^ 52 - 1 = 2 ^ 54 - 1 by norm_num]
  · refine .inr ⟨h, ?_⟩
    rw [roundingBounds, if_neg h, Nat.mul_assoc, Nat.sub_mul, Nat.mul_assoc]

/-- A fraction in the rounding interval of a double is rounded to it. -/
theorem nearestPair_of_readsAs {mantissa scale a d : Nat} (hc : Canonical64 mantissa scale) (hd : 0 < d)
    (h : ReadsAs mantissa scale (a / d)) : nearestPair a d = (mantissa, scale) := by
  obtain ⟨hlow, hhigh, hodd⟩ := h.bounds hd
  obtain ⟨hlt, _, hnormal⟩ := hc
  have hlower := roundingBounds_cases mantissa scale d
  have hupper : (roundingBounds mantissa scale).2 * d = 4 * (mantissa * (2 ^ scale * d)) + 2 * (2 ^ scale * d) := by
    rw [roundingBounds]
    ring
  rw [hupper] at hhigh hodd
  generalize (roundingBounds mantissa scale).1 * d = lower at hlow hodd hlower
  unfold nearestPair
  generalize a * unit = units at hlow hhigh hodd ⊢
  have hp : 0 < 2 ^ scale * d := Nat.mul_pos (Nat.pow_pos (by decide)) hd
  have hmost : mantissa * (2 ^ scale * d) ≤ (2 ^ 53 - 1) * (2 ^ scale * d) := Nat.mul_le_mul_right _ (by omega)
  by_cases hsame : scale = 0 ∨ 2 ^ 52 * (2 ^ scale * d) ≤ units
  · -- the fraction lies in the binade of the double, and the mantissa is the nearest
    have hfloor : units / d < 2 ^ (scale + 53) := by
      rw [Nat.div_lt_iff_lt_mul hd, Nat.pow_add, Nat.mul_right_comm]
      omega
    have hscale : Nat.log2 (units / d) - 52 = scale := by
      by_cases hzero : units / d = 0
      · rcases hsame with rfl | hreach
        · rw [hzero]
          rfl
        · have : 1 ≤ units / d := by
            rw [Nat.le_div_iff_mul_le hd]
            have : 1 * d ≤ 2 ^ scale * d := Nat.mul_le_mul_right d (Nat.pow_pos (by decide))
            omega
          omega
      · have hlog : Nat.log2 (units / d) < scale + 53 := (Nat.log2_lt hzero).mpr hfloor
        rcases hsame with rfl | hreach
        · omega
        · have hleast : scale + 52 ≤ Nat.log2 (units / d) := by
            rw [Nat.le_log2 hzero, Nat.le_div_iff_mul_le hd, Nat.pow_add, Nat.mul_right_comm]
            omega
          omega
    have hnearest : nearest units (d * 2 ^ scale) = mantissa := by
      rw [Nat.mul_comm d]
      refine nearest_eq hp ?_ (by omega) fun htie => ?_
      · rcases hlower with ⟨rfl, _, rfl⟩ | ⟨_, rfl⟩
        · omega
        · omega
      · by_contra hne
        obtain ⟨hstrict, hstrict'⟩ := hodd (by omega)
        rcases hlower with ⟨rfl, _, rfl⟩ | ⟨_, rfl⟩
        · omega
        · omega
    simp only [hscale, hnearest]
    rw [if_neg (by omega)]
  · -- just below the binade: the mantissa is rounded up to the power of two
    obtain ⟨hscale0, hbelow⟩ := not_or.mp hsame
    obtain ⟨k, rfl⟩ := Nat.exists_eq_succ_of_ne_zero hscale0
    have hpow : 2 ^ (k + 1) * d = 2 * (2 ^ k * d) := by rw [Nat.pow_succ]; ring
    rw [Nat.succ_eq_add_one, hpow] at hlower hhigh hbelow hmost hp
    have hleast : 2 ^ 52 ≤ mantissa := by omega
    have hreach : 2 ^ 52 * (2 * (2 ^ k * d)) ≤ mantissa * (2 * (2 ^ k * d)) := Nat.mul_le_mul_right _ hleast
    have hmantissa : mantissa = 2 ^ 52 := by
      by_contra hne
      have hmore : (2 ^ 52 + 1) * (2 * (2 ^ k * d)) ≤ mantissa * (2 * (2 ^ k * d)) := Nat.mul_le_mul_right _ (by omega)
      rcases hlower with ⟨heq, _⟩ | ⟨_, rfl⟩
      · exact hne heq
      · omega
    subst hmantissa
    have hstart : lower = (2 ^ 54 - 1) * (2 * (2 ^ k * d)) := by
      rcases hlower with ⟨_, _, heq⟩ | ⟨hnot, _⟩
      · exact heq
      · exact absurd ⟨rfl, Nat.succ_pos k⟩ hnot
    rw [hstart] at hlow
    have hfound : Nat.log2 (units / d) - 52 = k := by
      have hlog : Nat.log2 (units / d) = k + 52 := by
        refine log2_between ?_ ?_
        · rw [Nat.le_div_iff_mul_le hd, Nat.pow_add, Nat.mul_right_comm]
          omega
        · rw [Nat.div_lt_iff_lt_mul hd, show k + 52 + 1 = k + 53 by omega, Nat.pow_add, Nat.mul_right_comm]
          omega
      omega
    have hnearest : nearest units (d * 2 ^ k) = 2 ^ 53 := by
      rw [Nat.mul_comm d]
      exact nearest_eq (by omega) (by omega) (by omega) fun _ => rfl
    simp only [hfound, hnearest]
    exact if_pos trivial

/-- A decimal is read as one double. -/
theorem readsAs_unique {mantissa scale mantissa' scale' : Nat} (hc : Canonical64 mantissa scale)
    (hc' : Canonical64 mantissa' scale') {q : ℚ} (hq : 0 ≤ q) (h : ReadsAs mantissa scale q)
    (h' : ReadsAs mantissa' scale' q) : mantissa = mantissa' ∧ scale = scale' := by
  have hfraction : q = (q.num.toNat : ℚ) / q.den := by
    conv_lhs => rw [← Rat.num_div_den q]
    congr 1
    exact_mod_cast (Int.toNat_of_nonneg (Rat.num_nonneg.mpr hq)).symm
  rw [hfraction] at h h'
  have heq := (nearestPair_of_readsAs hc q.den_pos h).symm.trans (nearestPair_of_readsAs hc' q.den_pos h')
  exact Prod.mk.inj heq

/-- A decimal in the rounding interval of a double is read as it. -/
theorem ofDecimal_of_readsAs {negative : Bool} {mantissa scale digits : Nat} {exponent : Int} (hc : Canonical64 mantissa scale)
    (h : ReadsAs mantissa scale (digits * 10 ^ exponent)) : ofDecimal negative digits exponent = .finite negative mantissa scale hc := by
  have hpos : (0 : ℚ) < 10 ^ (-exponent).toNat := by positivity
  have hfraction : (digits : ℚ) * 10 ^ exponent = (digits * 10 ^ exponent.toNat : Nat) / (10 ^ (-exponent).toNat : Nat) := by
    push_cast
    rw [eq_div_iff hpos.ne', mul_pow_toNat]
  rw [hfraction] at h
  exact round_eq_finite (nearestPair_of_readsAs hc (Nat.pow_pos (by decide)) h) hc

/-- A double lies in its own interval. -/
theorem readsAs_self (mantissa scale : Nat) : ReadsAs mantissa scale ((mantissa * 2 ^ scale : Nat) / (unit : Nat)) := by
  have hunit : ((unit : Nat) : ℚ) ≠ 0 := Nat.cast_ne_zero.mpr unit_pos.ne'
  have hp : 0 < 2 ^ scale := Nat.pow_pos (by decide)
  have hlow : (roundingBounds mantissa scale).1 ≤ 4 * (mantissa * 2 ^ scale) ∧
      (mantissa % 2 ≠ 0 → (roundingBounds mantissa scale).1 < 4 * (mantissa * 2 ^ scale)) := by
    rw [← Nat.mul_assoc, roundingBounds]
    split
    · exact ⟨Nat.mul_le_mul_right _ (by omega), fun _ => Nat.mul_lt_mul_of_pos_right (by omega) hp⟩
    · exact ⟨Nat.mul_le_mul_right _ (by omega), fun _ => Nat.mul_lt_mul_of_pos_right (by omega) hp⟩
  have hhigh : 4 * (mantissa * 2 ^ scale) < (roundingBounds mantissa scale).2 := by
    rw [← Nat.mul_assoc, roundingBounds]
    exact Nat.mul_lt_mul_of_pos_right (by omega) hp
  rw [ReadsAs, div_mul_cancel₀ _ hunit]
  split
  · exact ⟨by exact_mod_cast hlow.1, by exact_mod_cast hhigh.le⟩
  · rename_i hodd
    exact ⟨by exact_mod_cast hlow.2 hodd, by exact_mod_cast hhigh⟩

/-- A magnitude has one mantissa and one scale. -/
theorem canonical64_unique {mantissa scale mantissa' scale' : Nat} (hc : Canonical64 mantissa scale)
    (hc' : Canonical64 mantissa' scale') (h : mantissa * 2 ^ scale = mantissa' * 2 ^ scale') :
    mantissa = mantissa' ∧ scale = scale' :=
  readsAs_unique hc hc' (by positivity) (readsAs_self mantissa scale) (by rw [h]; exact readsAs_self mantissa' scale')

end Binary64

namespace AitpVerifier.Jcs

open PyText Checked JsonGrammar DecimalText

/-! ### The text of a double -/

section

variable {negative : Bool} {mantissa scale : Nat}

/-- The shortest decimal of a magnitude. -/
def shortestValue (mantissa scale : Nat) : ℚ := (Binary64.shortest mantissa scale).1 * 10 ^ (Binary64.shortest mantissa scale).2

theorem shortestValue_pos (hm : 0 < mantissa) : 0 < shortestValue mantissa scale :=
  mul_pos (Nat.cast_pos.mpr (Binary64.shortest_pos hm)) (zpow_pos (by norm_num) _)

/-- The text of a double is its sign and a numeral for its shortest decimal. -/
theorem formatFloat_denotes (hm : 0 < mantissa) (hc : Canonical64 mantissa scale) : ∃ body,
    formatFloat (.finite negative mantissa scale hc) = .ok ((if negative then txt "-" else []) ++ body) ∧
      Denotes body (shortestValue mantissa scale) ∧ (Plain body ∨ Scientific body) := by
  obtain ⟨digits, n, hread, hsignificant, hvalue⟩ :=
    shortestDigits_value (reprMagnitude_denotes mantissa scale) (shortestValue_pos hm)
  obtain ⟨hdenotes, hplain, hscientific⟩ := numberBody_denotes hsignificant n
  rw [hvalue] at hdenotes
  refine ⟨_, formatFloat_of_digits hm hread, hdenotes, ?_⟩
  by_cases hband : -6 < n ∧ n ≤ 21
  · exact .inl (hplain hband)
  · exact .inr (hscientific hband)

end

end AitpVerifier.Jcs
