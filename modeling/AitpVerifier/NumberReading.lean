import AitpVerifier.JsonReading
import AitpVerifier.ShortestDecimal

/-!
# Numbers written and read

The text of a double, from `repr` or in canonical form, is read as that double: as the
double itself or, where the text is that of an integer, as one that converts to it.
-/
namespace AitpVerifier

open PyText Checked JsonGrammar DecimalText

/-- The double a number stands for. -/
def JsonValue.double? : JsonValue → Option Binary64
  | .int i => Binary64.ofInt? i
  | .float f => some f
  | _ => none

namespace Json

/-! ### Numerals of the grammar -/

/-- Digits at the start of a number are its whole part. -/
theorem whole_of_number {w more : Text} (h : Number (w ++ more)) (hw : Digits w) (hmore : ∀ c ∈ more.head?, isDigit c = false) :
    Whole w := by
  generalize htext : w ++ more = t at h
  cases h with
  | @make sign whole fraction exponent hsign hwhole hfraction hexponent =>
    have hdigits : Digits whole := by
      rcases hwhole with rfl | hdigits
      · exact ⟨List.cons_ne_nil _ _, List.forall_mem_singleton.mpr ⟨by decide, by decide⟩⟩
      · exact hdigits.1
    have hplain : sign = [] := by
      rcases hsign with rfl | rfl
      · rfl
      · cases w with
        | nil => exact absurd rfl hw.1
        | cons c tail =>
          have hc := (hw.2 c List.mem_cons_self).1
          rw [(List.cons.inj htext).1] at hc
          exact absurd hc (by decide)
    have hstop : ∀ c ∈ (fraction ++ exponent).head?, isDigit c = false := by
      intro c hc
      cases hfraction with
      | point =>
        obtain rfl := Option.some.inj hc
        decide
      | absent =>
        cases hexponent with
        | absent => cases hc
        | mark hmark =>
          obtain rfl := Option.some.inj hc
          rcases hmark with rfl | rfl <;> decide
    have htake := (takeWhile_digits hw hmore).1
    rw [htext, hplain, List.nil_append, List.append_assoc, (takeWhile_digits hdigits hstop).1] at htake
    exact htake ▸ hwhole

theorem positional_head {f : Text} : ∀ c ∈ (0x2E :: f : Text).head?, isDigit c = false := by
  intro c hc
  obtain rfl := Option.some.inj hc
  decide

/-- The decimal a positional numeral makes up. -/
theorem fraction_decimal (w f : Text) (power : Int) :
    ((digitsValue (w ++ f) : Nat) : ℚ) * 10 ^ (power - f.length) = (digitsValue w + digitsValue f / 10 ^ f.length) * 10 ^ power := by
  rw [digitsValue_append, zpow_sub₀ (by norm_num), zpow_natCast]
  push_cast
  field_simp

theorem exponent_means {sign e : Text} (hsign : sign = [0x2B] ∨ sign = [0x2D]) (he : Digits e) :
    ExponentMeans (0x65 :: (sign ++ e)) (signed (sign == [0x2D]) (digitsValue e)) :=
  .mark (.inl rfl) (.inr hsign) he

/-- Digits with or without a fraction, then an exponent: the double of the product. -/
theorem Positional.float_means {t : Text} {q : ℚ} (h : Positional t q) {exponent : Text} {power : Int} (hn : Number (t ++ exponent))
    (hexponent : ExponentMeans exponent power) (hne : ¬ (Digits t ∧ exponent = [])) (negative : Bool) :
    ∃ (digits : Nat) (place : Int), q * 10 ^ power = digits * 10 ^ place ∧
      NumberMeans (minus negative ++ (t ++ exponent)) (.float (.ofDecimal negative digits place)) := by
  cases h with
  | whole hw =>
    have hpresent : exponent ≠ [] := fun hnil => hne ⟨hw, hnil⟩
    have hhead : ∀ c ∈ exponent.head?, isDigit c = false := by
      have hfollow := exponent_head hexponent stops_nil
      rw [List.append_nil] at hfollow
      exact fun c hc => (hfollow c hc).1
    have hmeans := @NumberMeans.float negative _ _ _ _ _ (whole_of_number hn hw hhead) .absent hexponent (by rwa [List.nil_append])
    simp only [List.append_nil, List.length_nil, Nat.cast_zero, sub_zero, List.append_assoc] at hmeans
    exact ⟨_, _, rfl, hmeans⟩
  | @fraction w f hw hf =>
    rw [List.append_assoc, List.cons_append] at hn
    have hmeans := @NumberMeans.float negative _ _ _ _ _ (whole_of_number hn hw positional_head) (.point hf) hexponent
      (List.append_ne_nil_of_left_ne_nil (List.cons_ne_nil _ _) _)
    refine ⟨_, _, (fraction_decimal w f power).symm, ?_⟩
    rw [List.append_assoc, List.append_assoc] at hmeans
    rwa [List.append_assoc]

/-- What a numeral of the grammar means: the integer it denotes, when it is digits alone, and the double read from its
decimal otherwise. -/
theorem denotes_means {t : Text} {q : ℚ} (h : Denotes t q) (hn : Number t) (negative : Bool) :
    (Digits t ∧ ∃ n : Nat, q = n ∧ NumberMeans (minus negative ++ t) (.int (signed negative n))) ∨
      ¬ Digits t ∧ ∃ (digits : Nat) (place : Int), q = digits * 10 ^ place ∧
        NumberMeans (minus negative ++ t) (.float (.ofDecimal negative digits place)) := by
  have hmark {t e : Text} {sign : CodePoint} : ¬ Digits (t ++ 0x65 :: sign :: e) := by
    intro hdigits
    have hlow := (hdigits.2 0x65 (by simp)).2
    exact absurd hlow (by decide)
  cases h with
  | positional hp =>
    by_cases hdigits : Digits t
    · left
      cases hp with
      | whole hw =>
        rw [← List.append_nil t] at hn
        exact ⟨hdigits, _, rfl, .int (whole_of_number hn hw nofun)⟩
      | fraction hw hf =>
        have hlow := (hdigits.2 0x2E (by simp)).1
        exact absurd hlow (by decide)
    · right
      rw [← List.append_nil t] at hn
      obtain ⟨digits, place, hvalue, hmeans⟩ := Positional.float_means hp hn .absent (fun hboth => hdigits hboth.1) negative
      rw [zpow_zero, mul_one] at hvalue
      rw [List.append_nil] at hmeans
      exact ⟨hdigits, digits, place, hvalue, hmeans⟩
  | @positive t q e hp he =>
    right
    obtain ⟨digits, place, hvalue, hmeans⟩ := Positional.float_means hp hn (exponent_means (.inl rfl) he)
      (fun hboth => List.cons_ne_nil _ _ hboth.2) negative
    refine ⟨hmark, digits, place, ?_, hmeans⟩
    rw [← hvalue, signed]
    simp
  | @negative t q e hp he =>
    right
    obtain ⟨digits, place, hvalue, hmeans⟩ := Positional.float_means hp hn (exponent_means (.inr rfl) he)
      (fun hboth => List.cons_ne_nil _ _ hboth.2) negative
    refine ⟨hmark, digits, place, ?_, hmeans⟩
    rw [← hvalue, signed]
    simp [zpow_neg, div_eq_mul_inv]

/-! ### `repr` -/

theorem reprMagnitude_not_digits (mantissa scale : Nat) : ¬ Digits (Binary64.reprMagnitude mantissa scale) := by
  have hpoint {t : Text} (h : (0x2E : CodePoint) ∈ t) : ¬ Digits t := fun hdigits => absurd (hdigits.2 _ h).1 (by decide)
  have hmark {t : Text} (h : (0x65 : CodePoint) ∈ t) : ¬ Digits t := fun hdigits => absurd (hdigits.2 _ h).2 (by decide)
  have hdef : Binary64.reprMagnitude = Binary64.reprMagnitude := rfl
  conv at hdef => rhs; delta Binary64.reprMagnitude
  rw [hdef]
  beta_reduce
  generalize Binary64.shortest mantissa scale = found
  obtain ⟨value, exponent⟩ := found
  dsimp only
  have hzero : txt "0." = [0x30, 0x2E] ∧ txt ".0" = [0x2E, 0x30] ∧ txt "." = [0x2E] := by decide
  have hexponent : txt "e-" = [0x65, 0x2D] ∧ txt "e+" = [0x65, 0x2B] := by decide
  rw [hzero.1, hzero.2.1, hzero.2.2, hexponent.1, hexponent.2]
  split
  · split
    · exact hpoint (by simp)
    · split
      · exact hpoint (by simp)
      · exact hpoint (by simp)
  · have hin : (0x65 : CodePoint) ∈ if exponent + ((decimal value).length : Int) - 1 < 0 then [0x65, 0x2D] else ([0x65, 0x2B] : Text) := by
      split <;> exact List.mem_cons_self
    refine hmark ?_
    rw [List.mem_append, List.mem_append, List.mem_append]
    exact .inl (.inl (.inr hin))

theorem unsigned_number {t : Text} (h : ∃ whole fraction exponent, Whole whole ∧ Fraction fraction ∧ Exponent exponent ∧
    t = whole ++ fraction ++ exponent) : Number t := by
  obtain ⟨whole, fraction, exponent, hw, hf, he, rfl⟩ := h
  exact Number.make (.inl rfl) hw hf he

theorem txt_minus (negative : Bool) : (if negative then txt "-" else []) = minus negative := by cases negative <;> decide

/-- The `repr` of a double is read as the double. -/
theorem repr_means {negative : Bool} {mantissa scale : Nat} (hc : Canonical64 mantissa scale) :
    NumberMeans (Binary64.finite negative mantissa scale hc).repr (.float (.finite negative mantissa scale hc)) := by
  rw [Binary64.repr, txt_minus]
  by_cases hm : mantissa = 0
  · subst hm
    have hscale : scale = 0 := hc.2.2.resolve_left (by decide)
    subst hscale
    have hzero : txt "0.0" = [0x30] ++ ([0x2E, 0x30] ++ []) := by decide
    have hdigits : Digits [0x30] := ⟨List.cons_ne_nil _ _, List.forall_mem_singleton.mpr ⟨by decide, by decide⟩⟩
    have hmeans := @NumberMeans.float negative _ _ _ _ _ (.inl rfl) (.point hdigits) .absent (by simp)
    have hvalue : Binary64.ofDecimal negative (digitsValue ([0x30] ++ [0x30])) (0 - ([0x30] : Text).length) = .finite negative 0 0 hc := by
      refine Binary64.ofDecimal_of_readsAs hc ?_
      have hself := Binary64.readsAs_self 0 0
      simpa [digitsValue, digitValue] using hself
    rw [hvalue, List.append_assoc, List.append_assoc] at hmeans
    rw [if_pos rfl, hzero]
    exact hmeans
  · have hpos := Nat.pos_of_ne_zero hm
    have hnumber := unsigned_number (@reprMagnitude_number _ scale hpos)
    rw [if_neg hm]
    rcases denotes_means (Jcs.reprMagnitude_denotes mantissa scale) hnumber negative with ⟨hdigits, _⟩ | ⟨_, digits, place, hvalue, hmeans⟩
    · exact absurd hdigits (reprMagnitude_not_digits mantissa scale)
    · have hreads := @Binary64.shortest_readsAs _ scale hpos hc.1
      rw [hvalue] at hreads
      rwa [Binary64.ofDecimal_of_readsAs hc hreads] at hmeans

/-! ### The canonical form -/

theorem digit_whole {c : CodePoint} (hc : IsDigit c) (hzero : c ≠ 0x30) : Whole [c] :=
  .inr ⟨⟨List.cons_ne_nil _ _, List.forall_mem_singleton.mpr hc⟩, fun h => hzero (Option.some.inj h)⟩

theorem body_number {t : Text} (h : Plain t ∨ Scientific t) : Number t := by
  rcases h with h | h
  · cases h with
    | whole hw => exact unsigned_number ⟨_, [], [], hw, .absent, .absent, by simp⟩
    | fraction hw hf _ => exact unsigned_number ⟨_, _, [], hw, .point hf, .absent, by simp⟩
  · cases h with
    | @make c f sign e hc hzero hf hsign he _ =>
      have hfraction : Fraction f := by
        rcases hf with rfl | ⟨d, rfl, hd, _⟩
        · exact .absent
        · exact .point hd
      have hmark : [sign] = [] ∨ [sign] = [0x2B] ∨ [sign] = [0x2D] := by
        rcases hsign with rfl | rfl <;> simp
      exact unsigned_number ⟨[c], f, _, digit_whole hc hzero, hfraction, .mark (.inl rfl) hmark he, by simp⟩

/-- An integer in the interval of a double converts to it. -/
theorem ofInt?_of_readsAs {negative : Bool} {mantissa scale n : Nat} (hn : 0 < n) (hc : Canonical64 mantissa scale)
    (h : Binary64.ReadsAs mantissa scale n) : Binary64.ofInt? (signed negative n) = some (.finite negative mantissa scale hc) := by
  have hpair : Binary64.nearestPair n 1 = (mantissa, scale) := by
    refine Binary64.nearestPair_of_readsAs hc Nat.one_pos ?_
    rwa [Nat.cast_one, div_one]
  have hsign : decide (signed negative n < 0) = negative := by
    cases negative with
    | true => exact decide_eq_true (by simpa [signed] using hn)
    | false => exact decide_eq_false (by simp [signed])
  have habs : (signed negative n).natAbs = n := by cases negative <;> simp [signed]
  refine Binary64.ofInt?_of_round ?_
  rw [hsign, habs]
  exact Binary64.round_eq_finite hpair hc

theorem short_of_readsAs {negative : Bool} {mantissa scale n : Nat} (hc : Canonical64 mantissa scale)
    (h : Binary64.ReadsAs mantissa scale n) : (JsonValue.int (signed negative n)).Short := by
  have habs : (signed negative n).natAbs = n := by cases negative <;> simp [signed]
  refine .int ?_
  rw [habs]
  refine decimal_length_le (by decide) ?_
  obtain ⟨_, hhigh, _⟩ := @Binary64.ReadsAs.bounds _ _ n 1 Nat.one_pos (by rwa [Nat.cast_one, div_one])
  obtain ⟨hlt, hscale, _⟩ := hc
  have hupper : (Binary64.roundingBounds mantissa scale).2 ≤ 2 ^ 55 * 2 ^ 2045 := by
    rw [Binary64.roundingBounds]
    refine Nat.mul_le_mul ?_ (pow_le_pow_right₀ one_le_two hscale)
    omega
  have hplaces (base : Nat) : base ^ 53 * base ^ 2045 = base ^ 1024 * base ^ 1074 := by ring
  have hbound : n * 2 ^ 1074 ≤ 2 ^ 53 * 2 ^ 2045 := by
    rw [← Binary64.unit_eq]
    generalize 2 ^ 2045 = top at hupper
    omega
  rw [hplaces] at hbound
  calc n ≤ 2 ^ 1024 := le_of_mul_le_mul_right hbound (pow_pos two_pos 1074)
    _ ≤ 10 ^ 1024 := pow_le_pow_left₀ (by decide) (by decide) 1024
    _ < 10 ^ maxIntDigits := pow_lt_pow_right₀ (by decide) (by decide)

/-- A number of the same value, up to the sign of a zero. -/
def SameNumber (f g : Binary64) : Prop := f.isFinite = true ∧ g.isFinite = true ∧ f.signedUnits = g.signedUnits

theorem formatFloat_means {f : Binary64} {text : Text} (h : Jcs.formatFloat f = .ok text) :
    ∃ v, NumberMeans text v ∧ v.Short ∧ ∃ g, v.double? = some g ∧ SameNumber f g := by
  cases f with
  | nan => cases h
  | inf negative => cases h
  | finite negative mantissa scale hc =>
    by_cases hm : mantissa = 0
    · subst hm
      have hscale : scale = 0 := hc.2.2.resolve_left (by decide)
      subst hscale
      have hzero : txt "0" = minus false ++ [0x30] := by decide
      have htext : text = txt "0" := (Except.ok.inj h).symm
      have hreads : Binary64.ReadsAs 0 0 (0 : Nat) := by
        have hself := Binary64.readsAs_self 0 0
        simpa using hself
      have hint : NumberMeans (minus false ++ [0x30]) (.int (signed false (digitsValue [0x30]))) := .int (.inl rfl)
      have hdouble : Binary64.ofInt? 0 = some (.finite false 0 0 hc) := by
        refine Binary64.ofInt?_of_round ?_
        refine Binary64.round_eq_finite (Binary64.nearestPair_of_readsAs hc Nat.one_pos ?_) hc
        simpa using hreads
      rw [htext, hzero]
      refine ⟨_, hint, .int (by decide), _, hdouble, rfl, rfl, ?_⟩
      cases negative <;> simp [Binary64.signedUnits, Binary64.isNegative, Binary64.units]
    · have hpos := Nat.pos_of_ne_zero hm
      obtain ⟨body, hbody, hdenotes, hform⟩ := @Jcs.formatFloat_denotes negative _ _ hpos hc
      obtain rfl : (if negative then txt "-" else []) ++ body = text := Except.ok.inj (hbody.symm.trans h)
      have hreads := @Binary64.shortest_readsAs _ scale hpos hc.1
      have hvalue := @Jcs.shortestValue_pos _ scale hpos
      rw [txt_minus]
      rcases denotes_means hdenotes (body_number hform) negative with ⟨_, n, hn, hmeans⟩ | ⟨_, digits, place, hq, hmeans⟩
      · have hreads' : Binary64.ReadsAs mantissa scale n := by
          rw [← hn]
          exact hreads
        have hn0 : 0 < n := by
          rw [hn] at hvalue
          exact_mod_cast hvalue
        exact ⟨_, hmeans, short_of_readsAs hc hreads', _, ofInt?_of_readsAs hn0 hc hreads', rfl, rfl, rfl⟩
      · have hreads' : Binary64.ReadsAs mantissa scale (digits * 10 ^ place) := by
          rw [← hq]
          exact hreads
        rw [Binary64.ofDecimal_of_readsAs hc hreads'] at hmeans
        exact ⟨_, hmeans, .float, _, rfl, rfl, rfl, rfl⟩

end Json

end AitpVerifier
