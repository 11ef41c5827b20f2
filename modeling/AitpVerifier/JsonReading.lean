import AitpVerifier.DecimalText
import AitpVerifier.JsonMeaning

/-!
# The scanner reads what a text means

What it reads is a text and its value, and every text is read, whatever follows that may
follow a value. A document is thus refused only for a name it repeats, an integer too long
or a nesting too deep.
-/
namespace AitpVerifier.Json

open PyText Checked JsonGrammar Jcs

/-! ### Escapes -/

theorem hexValue?_eq_some {c : CodePoint} {n : Nat} : hexValue? c = some n ↔ HexMeans c n := by
  constructor
  · intro h
    rw [hexValue?] at h
    split_ifs at h with hdigit hlower hupper
    · rw [← Option.some.inj h]
      exact .digit hdigit.1 hdigit.2
    · rw [← Option.some.inj h, show c.val - 0x57 = c.val - 0x61 + 10 by omega]
      exact .lower hlower.1 hlower.2
    · rw [← Option.some.inj h, show c.val - 0x37 = c.val - 0x41 + 10 by omega]
      exact .upper hupper.1 hupper.2
  · intro h
    rw [hexValue?]
    cases h with
    | digit hl hu => rw [if_pos ⟨hl, hu⟩]
    | lower hl hu =>
      rw [if_neg (by omega), if_pos ⟨hl, hu⟩]
      exact congrArg some (by omega)
    | upper hl hu =>
      rw [if_neg (by omega), if_neg (by omega), if_pos ⟨hl, hu⟩]
      exact congrArg some (by omega)

theorem hex4?_eq_some {s rest : Text} {unit : Nat} : hex4? s = some (unit, rest) ↔
    ∃ escape, UnitMeans escape unit ∧ 0x5C :: 0x75 :: s = escape ++ rest := by
  constructor
  · intro h
    unfold hex4? at h
    split at h
    · simp only [Option.bind_eq_bind, Option.bind_eq_some_iff, Option.some.injEq, Prod.mk.injEq, hexValue?_eq_some] at h
      obtain ⟨va, ha, vb, hb, vc, hc, vd, hd, rfl, rfl⟩ := h
      exact ⟨_, .make ha hb hc hd, rfl⟩
    · cases h
  · rintro ⟨escape, hunit, heq⟩
    cases hunit with
    | make ha hb hc hd =>
      simp only [List.cons_append, List.nil_append, List.cons.injEq, true_and] at heq
      simp only [heq, hex4?, hexValue?_eq_some.mpr ha, hexValue?_eq_some.mpr hb, hexValue?_eq_some.mpr hc,
        hexValue?_eq_some.mpr hd, Option.bind_eq_bind, Option.bind_some]

theorem namedEscape?_eq_some {e c : CodePoint} : namedEscape? e = some c ↔ (e, c) ∈ escapes := by
  constructor
  · intro h
    unfold namedEscape? at h
    split_ifs at h with h22 h5C h2F h62 h66 h6E h72 h74
    all_goals
      obtain rfl := Option.some.inj h
      subst e
      decide
  · intro h
    simp only [escapes, List.mem_cons, Prod.mk.injEq, List.not_mem_nil, or_false] at h
    rcases h with ⟨rfl, rfl⟩ | ⟨rfl, rfl⟩ | ⟨rfl, rfl⟩ | ⟨rfl, rfl⟩ | ⟨rfl, rfl⟩ | ⟨rfl, rfl⟩ | ⟨rfl, rfl⟩ | ⟨rfl, rfl⟩ <;> rfl

/-- The character of a surrogate pair. -/
def paired (high low : Nat) : CodePoint := Fin.ofNat _ (0x10000 + (high - 0xD800) * 0x400 + (low - 0xDC00))

/-- The escape of a low surrogate, and more after it. -/
def FollowedLow (after : Text) : Prop := ∃ escape low more, UnitMeans escape low ∧ Low low ∧ after = escape ++ more ∧ more ≠ []

/-- An escape is read alone, or with the low surrogate after a high one. -/
theorem unicodeEscape_ok {start s rest : Text} {point : CodePoint} (h : unicodeEscape start s = .ok (point, rest)) :
    ∃ escape unit after, UnitMeans escape unit ∧ 0x5C :: 0x75 :: s = escape ++ after ∧
      (point = Fin.ofNat _ unit ∧ rest = after ∧ ¬ (High unit ∧ FollowedLow after) ∨
        High unit ∧ ∃ escape' low, UnitMeans escape' low ∧ Low low ∧ after = escape' ++ rest ∧ point = paired unit low) := by
  unfold unicodeEscape at h
  split at h
  · cases h
  · rename_i unit after hunit
    obtain ⟨escape, hescape, hsplit⟩ := hex4?_eq_some.mp hunit
    refine ⟨escape, unit, after, hescape, hsplit, ?_⟩
    have halone (hnot : ¬ (High unit ∧ FollowedLow after)) (heq : (.ok (Fin.ofNat _ unit, after) : Scan (CodePoint × Text)) = .ok (point, rest)) :
        point = Fin.ofNat _ unit ∧ rest = after ∧ ¬ (High unit ∧ FollowedLow after) := by
      obtain ⟨rfl, rfl⟩ := Prod.mk.inj (Except.ok.inj heq)
      exact ⟨rfl, rfl, hnot⟩
    dsimp only at h
    split at h
    · rename_i hhigh
      split at h
      · rename_i backslash u more
        split at h
        · rename_i hfollows
          obtain ⟨rfl, rfl, hlong⟩ := hfollows
          split at h
          · cases h
          · rename_i low after' hlow
            obtain ⟨escape', hescape', hsplit'⟩ := hex4?_eq_some.mp hlow
            split at h
            · rename_i hin
              obtain ⟨rfl, rfl⟩ := Prod.mk.inj (Except.ok.inj h)
              exact .inr ⟨hhigh, escape', low, hescape', hin, hsplit', rfl⟩
            · rename_i hout
              refine .inl (halone ?_ h)
              rintro ⟨_, other, low', more', hother, hlow', heq, _⟩
              obtain ⟨_, rfl, _⟩ := hescape'.unique hother (hsplit'.symm.trans heq)
              exact hout hlow'
        · rename_i hshort
          refine .inl (halone ?_ h)
          rintro ⟨_, other, low', more', hother, _, heq, hmore⟩
          obtain ⟨digits, rfl, hlength⟩ := hother.shape
          simp only [List.cons_append, List.cons.injEq] at heq
          obtain ⟨rfl, rfl, rfl⟩ := heq
          refine hshort ⟨rfl, rfl, ?_⟩
          have hpos := List.length_pos_iff.mpr hmore
          rw [List.length_append]
          omega
      · rename_i hnone
        refine .inl (halone ?_ h)
        rintro ⟨_, other, low', more', hother, _, heq, _⟩
        obtain ⟨digits, rfl, _⟩ := hother.shape
        exact hnone _ _ _ heq
    · rename_i hlow
      exact .inl (halone (fun hboth => hlow hboth.1) h)

/-- What is read up to the closing quote is what the text means. -/
theorem scanString_sound {start s rest value : Text} {fuel : Nat} (h : scanString start fuel s = .ok (value, rest)) :
    ∃ t, StringMeans t value ∧ s = t ++ 0x22 :: rest := by
  induction fuel generalizing s value with
  | zero => cases h
  | succ fuel ih =>
    cases s with
    | nil => cases h
    | cons c tail =>
      unfold scanString at h
      split at h
      · rename_i hquote
        obtain ⟨rfl, rfl⟩ := Prod.mk.inj (Except.ok.inj h)
        exact ⟨[], .nil, by rw [hquote]; rfl⟩
      · rename_i hquote
        split at h
        · rename_i hslash
          subst hslash
          cases tail with
          | nil => cases h
          | cons e more =>
            dsimp only at h
            split at h
            · rename_i hu
              subst hu
              simp only [bind_eq_ok, Prod.exists, Except.ok.injEq, Prod.mk.injEq] at h
              obtain ⟨point, after, hescape, others, _, hstring, rfl, rfl⟩ := h
              obtain ⟨t, ht, rfl⟩ := ih hstring
              obtain ⟨escape, unit, after', hunit, hsplit, ⟨rfl, rfl, halone⟩ | ⟨hhigh, escape', low, hunit', hlow, rfl, rfl⟩⟩ :=
                unicodeEscape_ok hescape
              · refine ⟨escape ++ t, .unit hunit ?_ ht, by rw [hsplit, List.append_assoc]⟩
                rintro ⟨hhigh, escape', low, rest', hunit', hlow, rfl⟩
                refine halone ⟨hhigh, escape', low, _, hunit', hlow, List.append_assoc _ _ _, ?_⟩
                exact List.append_ne_nil_of_right_ne_nil _ (List.cons_ne_nil _ _)
              · exact ⟨_, .pair hunit hhigh hunit' hlow ht, by rw [hsplit, List.append_assoc, List.append_assoc]⟩
            · split at h
              · cases h
              · rename_i point hnamed
                simp only [bind_eq_ok, Prod.exists, Except.ok.injEq, Prod.mk.injEq] at h
                obtain ⟨others, _, hstring, rfl, rfl⟩ := h
                obtain ⟨t, ht, rfl⟩ := ih hstring
                exact ⟨_, .escape (namedEscape?_eq_some.mp hnamed) ht, rfl⟩
        · rename_i hslash
          split at h
          · cases h
          · rename_i hcontrol
            simp only [bind_eq_ok, Prod.exists, Except.ok.injEq, Prod.mk.injEq] at h
            obtain ⟨others, _, hstring, rfl, rfl⟩ := h
            obtain ⟨t, ht, rfl⟩ := ih hstring
            exact ⟨_, .plain (Nat.not_lt.mp hcontrol) hquote hslash ht, rfl⟩

/-- What starts with `\u` starts with an escape of four digits. -/
theorem StringMeans.opens {more s : Text} (h : StringMeans (0x5C :: 0x75 :: more) s) :
    ∃ escape unit rest, UnitMeans escape unit ∧ 0x5C :: 0x75 :: more = escape ++ rest := by
  generalize htext : (0x5C :: 0x75 :: more : Text) = text at h
  cases h with
  | nil => cases htext
  | plain _ _ hslash _ => exact absurd (List.cons.inj htext).1.symm hslash
  | @escape e c t s he _ =>
    obtain rfl := (List.cons.inj (List.cons.inj htext).2).1
    have hletter := List.mem_map_of_mem (f := Prod.fst) he
    have hnot : (0x75 : CodePoint) ∉ escapeLetters := by decide
    exact absurd hletter hnot
  | unit hu _ _ => exact ⟨_, _, _, hu, rfl⟩
  | pair hh _ _ _ _ => exact ⟨_, _, _, hh, rfl⟩

/-- An escape of which no low surrogate makes a pair is read alone. -/
theorem unicodeEscape_single {start s t value rest escape : Text} {unit : Nat} (hunit : UnitMeans escape unit)
    (hsplit : 0x5C :: 0x75 :: s = escape ++ (t ++ 0x22 :: rest)) (halone : ¬ (High unit ∧ OpensLow t)) (ht : StringMeans t value) :
    unicodeEscape start s = .ok (Fin.ofNat _ unit, t ++ 0x22 :: rest) := by
  rw [unicodeEscape, hex4?_eq_some.mpr ⟨escape, hunit, hsplit⟩]
  dsimp only
  split
  · rename_i hhigh
    split
    · rename_i backslash u more hafter
      split
      · rename_i hfollows
        obtain ⟨rfl, rfl, _⟩ := hfollows
        -- the escape that follows lies inside the string, so it has its four digits
        cases t with
        | nil => exact absurd (List.cons.inj hafter).1 (by decide)
        | cons c t =>
          cases t with
          | nil => exact absurd (List.cons.inj (List.cons.inj hafter).2).1 (by decide)
          | cons d t =>
            simp only [List.cons_append, List.cons.injEq] at hafter
            obtain ⟨rfl, rfl, rfl⟩ := hafter
            obtain ⟨escape', low, after', hlow, heq⟩ := ht.opens
            have hread : hex4? (t ++ 0x22 :: rest) = some (low, after' ++ 0x22 :: rest) :=
              hex4?_eq_some.mpr ⟨escape', hlow, by
                rw [← List.append_assoc, ← heq]
                rfl⟩
            rw [hread]
            dsimp only
            have hnot : ¬ (0xDC00 ≤ low ∧ low < 0xE000) := fun hin => halone ⟨hhigh, escape', low, after', hlow, hin, heq⟩
            rw [if_neg hnot]
      · rfl
    · rfl
  · rfl

theorem unicodeEscape_joined {start s after escape escape' : Text} {high low : Nat} (hunit : UnitMeans escape high) (hhigh : High high)
    (hunit' : UnitMeans escape' low) (hlow : Low low) (hsplit : 0x5C :: 0x75 :: s = escape ++ (escape' ++ after)) (hafter : after ≠ []) :
    unicodeEscape start s = .ok (paired high low, after) := by
  obtain ⟨digits, rfl, hlength⟩ := hunit'.shape
  have hread : hex4? (digits ++ after) = some (low, after) := hex4?_eq_some.mpr ⟨_, hunit', rfl⟩
  have hlong : 4 < (digits ++ after).length := by
    have hpos := List.length_pos_iff.mpr hafter
    rw [List.length_append]
    omega
  rw [unicodeEscape, hex4?_eq_some.mpr ⟨escape, hunit, hsplit⟩]
  dsimp only [List.cons_append]
  rw [if_pos (show 0xD800 ≤ high ∧ high < 0xDC00 from hhigh), if_pos ⟨rfl, rfl, hlong⟩, hread]
  dsimp only
  rw [if_pos (show 0xDC00 ≤ low ∧ low < 0xE000 from hlow)]
  rfl

theorem scanString_escape {start s after : Text} {fuel : Nat} {point : CodePoint}
    (h : unicodeEscape (0x75 :: s) s = .ok (point, after)) :
    scanString start (fuel + 1) (0x5C :: 0x75 :: s) = prepend point (scanString start fuel after) := by
  rw [scanString, if_neg (by decide), if_pos rfl]
  dsimp only
  rw [if_pos rfl, h]
  rfl

/-- A string is read to its closing quote. -/
theorem scanString_complete {t value : Text} (h : StringMeans t value) {start rest : Text} {fuel : Nat} (hfuel : t.length < fuel) :
    scanString start fuel (t ++ 0x22 :: rest) = .ok (value, rest) := by
  induction h generalizing fuel with
  | nil =>
    obtain ⟨fuel, rfl⟩ := Nat.exists_eq_succ_of_ne_zero (Nat.ne_of_gt hfuel)
    exact scanString_quote
  | plain hc hquote hslash _ ih =>
    rw [List.length_cons] at hfuel
    obtain ⟨fuel, rfl⟩ := Nat.exists_eq_add_of_lt (Nat.zero_lt_of_lt hfuel)
    rw [Nat.zero_add, List.cons_append, scanString_plain hquote hslash hc, ih (by omega)]
    rfl
  | @escape e c t s he _ ih =>
    rw [List.length_cons, List.length_cons] at hfuel
    obtain ⟨fuel, rfl⟩ := Nat.exists_eq_add_of_lt (Nat.zero_lt_of_lt hfuel)
    have hu : e ≠ 0x75 := by
      rintro rfl
      have hletter := List.mem_map_of_mem (f := Prod.fst) he
      have hnot : (0x75 : CodePoint) ∉ escapeLetters := by decide
      exact hnot hletter
    rw [Nat.zero_add, List.cons_append, List.cons_append, scanString_named hu (namedEscape?_eq_some.mpr he), ih (by omega)]
    rfl
  | @unit escape unit t s hunit halone ht ih =>
    obtain ⟨digits, rfl, hlength⟩ := hunit.shape
    simp only [List.cons_append, List.length_cons, List.length_append] at hfuel ⊢
    obtain ⟨fuel, rfl⟩ := Nat.exists_eq_add_of_lt (Nat.zero_lt_of_lt hfuel)
    have hread := @unicodeEscape_single (0x75 :: (digits ++ (t ++ 0x22 :: rest))) (digits ++ (t ++ 0x22 :: rest)) _ _ rest _ _ hunit rfl halone ht
    rw [Nat.zero_add, List.append_assoc, scanString_escape hread, ih (by omega)]
    rfl
  | @pair escape escape' high low t s hunit hhigh hunit' hlow ht ih =>
    obtain ⟨digits, rfl, hlength⟩ := hunit.shape
    have hshorter : t.length < (0x5C :: 0x75 :: digits ++ (escape' ++ t)).length := by
      simp only [List.cons_append, List.length_cons, List.length_append]
      omega
    obtain ⟨fuel, rfl⟩ := Nat.exists_eq_add_of_lt (Nat.zero_lt_of_lt hfuel)
    have hread := @unicodeEscape_joined (0x75 :: (digits ++ (escape' ++ (t ++ 0x22 :: rest)))) (digits ++ (escape' ++ (t ++ 0x22 :: rest)))
      _ _ _ _ _ hunit hhigh hunit' hlow rfl
      (List.append_ne_nil_of_right_ne_nil _ (List.cons_ne_nil _ _))
    rw [Nat.zero_add, List.cons_append, List.cons_append, List.cons_append, List.cons_append, List.append_assoc, List.append_assoc,
      scanString_escape hread, ih (by omega)]
    rfl

/-! ### Numbers -/

theorem isDigit_iff {c : CodePoint} : isDigit c = true ↔ IsDigit c := by
  rw [isDigit, Bool.and_eq_true, decide_eq_true_eq, decide_eq_true_eq]
  exact Iff.rfl

/-- What follows does not go on with a number. -/
def Stops (rest : Text) : Prop := ∀ c ∈ rest.head?, isDigit c = false ∧ c ≠ 0x2E ∧ c ≠ 0x65 ∧ c ≠ 0x45

theorem digits_take_drop {s : Text} (h : s.takeWhile isDigit ≠ []) :
    Digits (s.takeWhile isDigit) ∧ s = s.takeWhile isDigit ++ s.dropWhile isDigit :=
  ⟨⟨h, fun _ hc => isDigit_iff.mp (mem_takeWhile_isDigit hc)⟩, List.takeWhile_append_dropWhile.symm⟩

theorem takeWhile_digits {digits rest : Text} (hd : Digits digits) (hrest : ∀ c ∈ rest.head?, isDigit c = false) :
    (digits ++ rest).takeWhile isDigit = digits ∧ (digits ++ rest).dropWhile isDigit = rest := by
  have hall : ∀ c ∈ digits, isDigit c = true := fun c hc => isDigit_iff.mpr (hd.2 c hc)
  have hstop : rest.takeWhile isDigit = [] ∧ rest.dropWhile isDigit = rest := by
    cases rest with
    | nil => exact ⟨rfl, rfl⟩
    | cons c more =>
      have hc := Bool.eq_false_iff.mp (hrest c rfl)
      exact ⟨List.takeWhile_cons_of_neg hc, List.dropWhile_cons_of_neg hc⟩
  rw [List.takeWhile_append_of_pos hall, List.dropWhile_append_of_pos hall, hstop.1, hstop.2, List.append_nil]
  exact ⟨rfl, rfl⟩

theorem integerPart_sound {t : Text} (h : (integerPart t).1 ≠ []) : Whole (integerPart t).1 ∧ t = (integerPart t).1 ++ (integerPart t).2 := by
  cases t with
  | nil => exact absurd rfl h
  | cons c rest =>
    rw [integerPart] at h ⊢
    split
    · rename_i hc
      exact ⟨.inl (by rw [hc]), rfl⟩
    · rename_i hc
      rw [if_neg hc] at h
      obtain ⟨hdigits, hsplit⟩ := digits_take_drop h
      refine ⟨.inr ⟨hdigits, ?_⟩, hsplit⟩
      intro hhead
      have hfirst : (c :: rest).head? = some 0x30 := by
        rw [hsplit, List.head?_append_of_ne_nil _ h]
        exact hhead
      exact hc (Option.some.inj hfirst)

theorem integerPart_complete {whole rest : Text} (hw : Whole whole) (hrest : ∀ c ∈ rest.head?, isDigit c = false) :
    integerPart (whole ++ rest) = (whole, rest) := by
  rcases hw with rfl | ⟨hdigits, hhead⟩
  · rfl
  · obtain ⟨htake, hdrop⟩ := takeWhile_digits hdigits hrest
    cases whole with
    | nil => exact absurd rfl hdigits.1
    | cons c tail =>
      have hc : c ≠ 0x30 := fun h => hhead (congrArg some h)
      rw [List.cons_append] at htake hdrop ⊢
      rw [integerPart, if_neg hc, htake, hdrop]

theorem fractionOf_sound (t : Text) : ∃ fraction, FractionMeans fraction (fractionOf t).1 ∧
    (integerPart t).2 = fraction ++ (fractionOf t).2 := by
  rw [fractionOf]
  generalize (integerPart t).2 = s
  unfold fractionPart
  split
  · rename_i p d rest
    split
    · rename_i hpoint
      have hne : (d :: rest).takeWhile isDigit ≠ [] := by
        rw [List.takeWhile_cons_of_pos hpoint.2]
        exact List.cons_ne_nil _ _
      obtain ⟨hdigits, hsplit⟩ := digits_take_drop hne
      refine ⟨_, .point hdigits, ?_⟩
      rw [Option.getD_some, hpoint.1, List.cons_append, ← hsplit]
    · exact ⟨_, .absent, rfl⟩
  · exact ⟨_, .absent, rfl⟩

theorem fractionPart_complete {digits rest : Text} (hd : Digits digits) (hrest : ∀ c ∈ rest.head?, isDigit c = false) :
    fractionPart (0x2E :: digits ++ rest) = some (digits, rest) := by
  obtain ⟨htake, hdrop⟩ := takeWhile_digits hd hrest
  cases digits with
  | nil => exact absurd rfl hd.1
  | cons d tail =>
    have hfirst : isDigit d = true := isDigit_iff.mpr (hd.2 d List.mem_cons_self)
    rw [List.cons_append] at htake hdrop
    rw [List.cons_append, List.cons_append, fractionPart, if_pos ⟨rfl, hfirst⟩, htake, hdrop]

theorem fractionPart_none {rest : Text} (h : ∀ c ∈ rest.head?, c ≠ 0x2E) : fractionPart rest = none := by
  unfold fractionPart
  split
  · rename_i p d rest
    rw [if_neg fun hpoint => h p rfl hpoint.1]
  · rfl

theorem exponentPart_sound {s rest : Text} {power : Int} (h : exponentPart s = some (power, rest)) :
    ∃ exponent, ExponentMeans exponent power ∧ exponent ≠ [] ∧ s = exponent ++ rest := by
  unfold exponentPart at h
  split at h
  · cases h
  · rename_i e after
    split at h
    · rename_i hmark
      dsimp only at h
      obtain ⟨sign, hsign, hafter⟩ : ∃ sign, (sign = [] ∨ sign = [0x2B] ∨ sign = [0x2D]) ∧
          after = sign ++ (splitSign after).2 ∧ (splitSign after).1 = (sign == [0x2D]) := by
        unfold splitSign
        split
        · rename_i c more
          split_ifs with hminus hplus
          · exact ⟨[0x2D], by simp, by rw [hminus]; rfl, rfl⟩
          · exact ⟨[0x2B], by simp, by rw [hplus]; rfl, rfl⟩
          · exact ⟨[], by simp, rfl, rfl⟩
        · exact ⟨[], by simp, rfl, rfl⟩
      split at h
      · cases h
      · rename_i hne
        obtain ⟨hdigits, hsplit⟩ := digits_take_drop hne
        obtain ⟨rfl, rfl⟩ := Prod.mk.inj (Option.some.inj h)
        have hmeans := ExponentMeans.mark hmark hsign hdigits
        rw [← hafter.2] at hmeans
        refine ⟨_, hmeans, List.cons_ne_nil _ _, ?_⟩
        rw [List.cons_append, List.append_assoc, ← hsplit, ← hafter.1]
    · cases h

theorem exponentPart_complete {exponent rest : Text} {power : Int} (h : ExponentMeans exponent power) (hne : exponent ≠ [])
    (hrest : ∀ c ∈ rest.head?, isDigit c = false) : exponentPart (exponent ++ rest) = some (power, rest) := by
  cases h with
  | absent => exact absurd rfl hne
  | @mark e sign digits hmark hsign hdigits =>
    obtain ⟨htake, hdrop⟩ := takeWhile_digits hdigits hrest
    have hsplit : splitSign (sign ++ (digits ++ rest)) = (sign == [0x2D], digits ++ rest) := by
      rcases hsign with rfl | rfl | rfl
      · cases digits with
        | nil => exact absurd rfl hdigits.1
        | cons d tail =>
          obtain ⟨hl, _⟩ := hdigits.2 d List.mem_cons_self
          have hminus : d ≠ 0x2D := by
            rintro rfl
            exact absurd hl (by decide)
          have hplus : d ≠ 0x2B := by
            rintro rfl
            exact absurd hl (by decide)
          rw [List.nil_append, List.cons_append, splitSign, if_neg hminus, if_neg hplus]
          rfl
      · rfl
      · rfl
    rw [List.cons_append, List.append_assoc, exponentPart, if_pos hmark, hsplit]
    dsimp only
    rw [htake, hdrop]
    cases digits with
    | nil => exact absurd rfl hdigits.1
    | cons d tail => rfl

theorem exponentPart_none {rest : Text} (h : ∀ c ∈ rest.head?, c ≠ 0x65 ∧ c ≠ 0x45) : exponentPart rest = none := by
  cases rest with
  | nil => rfl
  | cons c more =>
    obtain ⟨hlower, hupper⟩ := h c rfl
    rw [exponentPart, if_neg (not_or.mpr ⟨hlower, hupper⟩)]

theorem scanUnsigned_sound {negative : Bool} {start t rest : Text} {v : JsonValue}
    (h : scanUnsigned negative start t = .ok (v, rest)) : ∃ body, NumberMeans (minus negative ++ body) v ∧ t = body ++ rest := by
  rw [scanUnsigned_eq] at h
  split at h
  · cases h
  · rename_i hwhole
    have hwhole : (integerPart t).1 ≠ [] := fun hnil => hwhole (by rw [hnil]; rfl)
    obtain ⟨hw, hsplit⟩ := integerPart_sound hwhole
    split at h
    · obtain ⟨hparse, rfl⟩ := raising_eq_ok.mp h
      simp only [parseInt, bind_eq_ok, exists_unit, Except.ok.injEq] at hparse
      refine ⟨(integerPart t).1, ?_, hsplit⟩
      rw [← hparse.2]
      exact .int hw
    · rename_i hnot
      obtain ⟨fraction, hfraction, hfollows⟩ := fractionOf_sound t
      obtain ⟨rfl, rfl⟩ := Prod.mk.inj (Except.ok.inj h)
      obtain ⟨exponent, hexponent, hmore, hpresent⟩ : ∃ exponent, ExponentMeans exponent (exponentOf t).1 ∧
          (fractionOf t).2 = exponent ++ (exponentOf t).2 ∧ (exponentPart (fractionOf t).2 ≠ none → exponent ≠ []) := by
        rw [exponentOf]
        cases hpart : exponentPart (fractionOf t).2 with
        | none => exact ⟨[], .absent, rfl, fun habsurd => absurd rfl habsurd⟩
        | some found =>
          obtain ⟨power, after⟩ := found
          obtain ⟨exponent, hmeans, hne, hmore⟩ := exponentPart_sound hpart
          exact ⟨exponent, hmeans, hmore, fun _ => hne⟩
      have hne : fraction ++ exponent ≠ [] := by
        intro hnil
        obtain ⟨rfl, rfl⟩ := List.append_eq_nil_iff.mp hnil
        refine hnot ⟨?_, not_not.mp fun hsome => hpresent hsome rfl⟩
        generalize (fractionOf t).1 = digits at hfraction
        cases hfraction with
        | absent => rfl
      have hmeans := @NumberMeans.float negative _ _ _ _ _ hw hfraction hexponent hne
      refine ⟨(integerPart t).1 ++ fraction ++ exponent, ?_, ?_⟩
      · rw [← List.append_assoc, ← List.append_assoc]
        exact hmeans
      · rw [List.append_assoc, List.append_assoc, ← hmore, ← hfollows, ← hsplit]

/-- The head of a fraction or an exponent ends the digits before it. -/
theorem exponent_head {exponent rest : Text} {power : Int} (h : ExponentMeans exponent power) (hrest : Stops rest) :
    ∀ c ∈ (exponent ++ rest).head?, isDigit c = false ∧ c ≠ 0x2E := by
  intro c hc
  cases h with
  | absent => exact ⟨(hrest c hc).1, (hrest c hc).2.1⟩
  | mark hmark =>
    obtain rfl := Option.some.inj hc
    rcases hmark with rfl | rfl <;> decide

theorem fraction_head {fraction digits rest : Text} (h : FractionMeans fraction digits) (hrest : ∀ c ∈ rest.head?, isDigit c = false) :
    ∀ c ∈ (fraction ++ rest).head?, isDigit c = false := by
  intro c hc
  cases h with
  | absent => exact hrest c hc
  | point =>
    obtain rfl := Option.some.inj hc
    decide

theorem whole_ne_nil {whole : Text} (h : Whole whole) : whole ≠ [] := by
  rcases h with rfl | ⟨hdigits, _⟩
  · exact List.cons_ne_nil _ _
  · exact hdigits.1

/-- A whole number has as many digits as its value. -/
theorem whole_length {whole : Text} (h : Whole whole) : whole.length ≤ (decimal (digitsValue whole)).length := by
  rcases h with rfl | ⟨hdigits, hhead⟩
  · decide
  · cases whole with
    | nil => exact absurd rfl hdigits.1
    | cons c tail =>
      have hc : 1 ≤ digitValue c := by
        obtain ⟨hlow, _⟩ := hdigits.2 c List.mem_cons_self
        have hne : c ≠ 0x30 := fun hzero => hhead (congrArg some hzero)
        have hval : c.val ≠ 0x30 := fun hv => hne (Fin.ext hv)
        rw [digitValue]
        omega
      have hvalue := DecimalText.digitsValue_append [c] tail
      have hone : digitsValue [c] = digitValue c := by simp [digitsValue]
      rw [hone, List.singleton_append] at hvalue
      have hlt := @digitsValue_lt (decimal (digitsValue (c :: tail))) fun d hd => isDigit_of_mem_decimal hd
      rw [digitsValue_decimal] at hlt
      have hreach : 10 ^ tail.length ≤ digitsValue (c :: tail) := by
        rw [hvalue]
        have := Nat.mul_le_mul_right (10 ^ tail.length) hc
        omega
      rw [List.length_cons]
      exact (Nat.pow_lt_pow_iff_right (by decide)).mp (hreach.trans_lt hlt)

theorem scanUnsigned_int {negative : Bool} {start whole rest : Text} (hw : Whole whole) (hrest : Stops rest)
    (hshort : (JsonValue.int (signed negative (digitsValue whole))).Short) :
    scanUnsigned negative start (whole ++ rest) = .ok (.int (signed negative (digitsValue whole)), rest) := by
  have hpart := integerPart_complete hw fun c hc => (hrest c hc).1
  have hfraction : fractionOf (whole ++ rest) = ([], rest) := by
    rw [fractionOf, hpart]
    dsimp only
    rw [fractionPart_none fun c hc => (hrest c hc).2.1, Option.getD_none]
  have hinteger : IsInteger (whole ++ rest) := by
    refine ⟨by rw [hfraction]; rfl, ?_⟩
    rw [hfraction]
    exact exponentPart_none fun c hc => (hrest c hc).2.2
  have hlength : whole.length ≤ maxIntDigits := by
    have habs : (signed negative (digitsValue whole)).natAbs = digitsValue whole := by cases negative <;> simp [signed]
    cases hshort with
    | int hle =>
      rw [habs] at hle
      exact (whole_length hw).trans hle
  have hparse : parseInt negative whole = .ok (.int (signed negative (digitsValue whole))) := by
    rw [parseInt, raiseIf, if_neg (by simpa using hlength)]
    rfl
  have hne : whole.isEmpty = false := List.isEmpty_eq_false_iff.mpr (whole_ne_nil hw)
  rw [scanUnsigned_eq, hpart]
  dsimp only
  rw [hne, if_neg Bool.false_ne_true, if_pos hinteger, hparse]
  rfl

theorem scanUnsigned_float {negative : Bool} {start whole fraction digits exponent rest : Text} {power : Int} (hw : Whole whole)
    (hf : FractionMeans fraction digits) (he : ExponentMeans exponent power) (hne : fraction ++ exponent ≠ []) (hrest : Stops rest) :
    scanUnsigned negative start (whole ++ (fraction ++ (exponent ++ rest))) =
      .ok (.float (.ofDecimal negative (digitsValue (whole ++ digits)) (power - digits.length)), rest) := by
  have hexponent := exponent_head he hrest
  have hpart := integerPart_complete hw (fraction_head hf fun c hc => (hexponent c hc).1)
  have hfraction : fractionOf (whole ++ (fraction ++ (exponent ++ rest))) = (digits, exponent ++ rest) := by
    rw [fractionOf, hpart]
    dsimp only
    cases hf with
    | absent =>
      rw [List.nil_append, fractionPart_none fun c hc => (hexponent c hc).2]
      rfl
    | point hd =>
      rw [fractionPart_complete hd fun c hc => (hexponent c hc).1]
      rfl
  have hpower : exponentOf (whole ++ (fraction ++ (exponent ++ rest))) = (power, rest) ∧
      (exponent ≠ [] → exponentPart (exponent ++ rest) ≠ none) := by
    rw [exponentOf, hfraction]
    dsimp only
    by_cases hnil : exponent = []
    · subst hnil
      cases he
      rw [List.nil_append, exponentPart_none fun c hc => (hrest c hc).2.2]
      exact ⟨rfl, fun h => absurd rfl h⟩
    · rw [exponentPart_complete he hnil fun c hc => (hrest c hc).1]
      exact ⟨rfl, fun _ => Option.some_ne_none _⟩
  have hnot : ¬ IsInteger (whole ++ (fraction ++ (exponent ++ rest))) := by
    rintro ⟨hdigits, hnone⟩
    rw [hfraction] at hdigits hnone
    refine hne (List.append_eq_nil_iff.mpr ⟨?_, ?_⟩)
    · cases hf with
      | absent => rfl
      | point hd => exact absurd (List.isEmpty_iff.mp hdigits) hd.1
    · by_contra hexponent
      exact hpower.2 hexponent hnone
  have hwhole : whole.isEmpty = false := List.isEmpty_eq_false_iff.mpr (whole_ne_nil hw)
  rw [scanUnsigned_eq, hpart]
  dsimp only
  rw [hwhole, if_neg Bool.false_ne_true, if_neg hnot, decimalValue, hpart, hfraction, hpower.1]

/-! ### Space -/

theorem isWhitespace_iff {c : CodePoint} : isWhitespace c = true ↔ c = 0x20 ∨ c = 0x09 ∨ c = 0x0A ∨ c = 0x0D := by
  simp only [isWhitespace, Bool.or_eq_true, beq_iff_eq, or_assoc]

theorem skipSpace_split (s : Text) : ∃ space, Space space ∧ s = space ++ skipSpace s := by
  refine ⟨s.takeWhile isWhitespace, fun c hc => ?_, List.takeWhile_append_dropWhile.symm⟩
  exact isWhitespace_iff.mp (List.all_eq_true.mp List.all_takeWhile c hc)

theorem skipSpace_append {space : Text} (h : Space space) (s : Text) : skipSpace (space ++ s) = skipSpace s :=
  List.dropWhile_append_of_pos fun c hc => isWhitespace_iff.mpr (h c hc)

theorem Means.padLeft {space t : Text} {v : JsonValue} (hs : Space space) (h : Means t v) : Means (space ++ t) v := by
  have hpad := @Means.pad _ _ [] _ hs h nofun
  rwa [List.append_nil] at hpad

theorem Means.padRight {space t : Text} {v : JsonValue} (h : Means t v) (hs : Space space) : Means (t ++ space) v :=
  @Means.pad [] _ _ _ nofun h hs

theorem stops_nil : Stops [] := nofun

theorem stops_cons {c : CodePoint} {rest : Text} (h : isWhitespace c = true ∨ c = 0x2C ∨ c = 0x5D ∨ c = 0x7D) : Stops (c :: rest) := by
  intro d hd
  obtain rfl := Option.some.inj hd
  rw [isWhitespace_iff] at h
  rcases h with (rfl | rfl | rfl | rfl) | rfl | rfl | rfl <;> decide

theorem Stops.space {space rest : Text} (hs : Space space) (h : Stops rest) : Stops (space ++ rest) := by
  cases space with
  | nil => exact h
  | cons c more => exact stops_cons (.inl (isWhitespace_iff.mpr (hs c List.mem_cons_self)))

/-! ### What is read has a meaning -/

theorem text_of_isPrefixOf {word s : Text} (h : word.isPrefixOf s = true) : s = word ++ s.drop word.length := by
  obtain ⟨more, rfl⟩ := List.isPrefixOf_iff_prefix.mp h
  rw [List.drop_left]

section

variable {kind : ErrorKind} {hooks : Hooks} {room : Nat} {s rest : Text}

theorem nests_leaf {levels : Nat} {v : JsonValue} (hlist : ∀ items, v ≠ .list items) (hdict : ∀ members, v ≠ .dict members) :
    v.Nests levels := by
  cases v with
  | list items => exact absurd rfl (hlist items)
  | dict members => exact absurd rfl (hdict members)
  | null | bool | int | float | str => cases levels <;> trivial

theorem NumberMeans.nests {t : Text} {v : JsonValue} {levels : Nat} (h : NumberMeans t v) : v.Nests levels := by
  cases h <;> exact nests_leaf (by simp) (by simp)

theorem leaf_sound (hstrict : Strict kind hooks) (hlist : ∀ rest, s ≠ 0x5B :: rest) (hdict : ∀ rest, s ≠ 0x7B :: rest) {v : JsonValue}
    (h : scanValue hooks room s = .ok (v, rest)) : ∃ t, Means t v ∧ v.Nests room ∧ s = t ++ rest := by
  have hconstant {name after : Text} (h : raising (hooks.parseConstant name) after = .ok (v, rest)) : False := by
    obtain ⟨_, hrefusal, _⟩ := hstrict.constant name
    rw [hrefusal] at h
    cases h
  have hword {word : Text} {value : JsonValue} {length : Nat} (hmeans : Means word value) (hnests : value.Nests room)
      (hlength : word.length = length) (hprefixed : word.isPrefixOf s = true)
      (h : (.ok (value, s.drop length) : Scan (JsonValue × Text)) = .ok (v, rest)) : ∃ t, Means t v ∧ v.Nests room ∧ s = t ++ rest := by
    obtain ⟨rfl, rfl⟩ := Prod.mk.inj (Except.ok.inj h)
    exact ⟨word, hmeans, hnests, by rw [← hlength]; exact text_of_isPrefixOf hprefixed⟩
  cases s with
  | nil =>
    rw [scanValue, scanOnce] at h
    cases h
  | cons c tail =>
    rw [scanValue, scanOnce.eq_def] at h
    dsimp only at h
    by_cases hquote : c = 0x22
    · rw [if_pos hquote] at h
      simp only [bind_eq_ok, Prod.exists, Except.ok.injEq, Prod.mk.injEq] at h
      obtain ⟨value, _, hstring, rfl, rfl⟩ := h
      obtain ⟨inside, hinside, rfl⟩ := scanString_sound hstring
      exact ⟨_, .string ⟨inside, hinside, rfl⟩, nests_leaf (by simp) (by simp), by rw [hquote]; simp⟩
    · rw [if_neg hquote, if_neg (fun h => hdict tail (by rw [h])), if_neg (fun h => hlist tail (by rw [h]))] at h
      split_ifs at h with hnull htrue hfalse hnan hinfinity hminus hsign hdigit
      · exact hword .null (nests_leaf (by simp) (by simp)) rfl hnull h
      · exact hword .true (nests_leaf (by simp) (by simp)) rfl htrue h
      · exact hword .false (nests_leaf (by simp) (by simp)) rfl hfalse h
      · exact (hconstant h).elim
      · exact (hconstant h).elim
      · exact (hconstant h).elim
      · obtain ⟨body, hbody, rfl⟩ := scanUnsigned_sound h
        exact ⟨_, .number hbody, hbody.nests, by rw [hsign]; rfl⟩
      · obtain ⟨body, hbody, hsplit⟩ := scanUnsigned_sound h
        exact ⟨_, .number hbody, hbody.nests, hsplit⟩

/-- White space in front of parts is white space of the first. -/
theorem commas_pad (space part : Text) (parts : List Text) : commas ((space ++ part) :: parts) = space ++ commas (part :: parts) := by
  cases parts with
  | nil => rw [commas_singleton, commas_singleton]
  | cons next parts => rw [commas_cons, commas_cons, List.append_assoc]

/-- Items as they are written, and what they mean. -/
def ItemsMean (room : Nat) (text : Text) (items : List JsonValue) : Prop :=
  ∃ pairs : List (Text × JsonValue), pairs ≠ [] ∧ (∀ pair ∈ pairs, Means pair.1 pair.2 ∧ pair.2.Nests room) ∧
    text = commas (pairs.map Prod.fst) ∧ items = pairs.map Prod.snd

/-- Members as they are written, and what they mean. -/
def MembersMean (room : Nat) (text : Text) (members : Members) : Prop :=
  ∃ entries : List Entry, entries ≠ [] ∧
    (∀ entry ∈ entries, NameMeans entry.nameText entry.name ∧ Means entry.valueText entry.value ∧ entry.value.Nests room) ∧
    text = commas (entries.map Entry.text) ∧ members = entries.map Entry.member

theorem ItemsMean.padLeft {space text : Text} {items : List JsonValue} (hs : Space space) (h : ItemsMean room text items) :
    ItemsMean room (space ++ text) items := by
  obtain ⟨pairs, hne, hpairs, rfl, rfl⟩ := h
  cases pairs with
  | nil => exact absurd rfl hne
  | cons pair pairs =>
    obtain ⟨hpair, hothers⟩ := List.forall_mem_cons.mp hpairs
    refine ⟨(space ++ pair.1, pair.2) :: pairs, List.cons_ne_nil _ _, ?_, ?_, rfl⟩
    · exact List.forall_mem_cons.mpr ⟨⟨hpair.1.padLeft hs, hpair.2⟩, hothers⟩
    · rw [List.map_cons, List.map_cons, commas_pad]

theorem ItemsMean.one {t : Text} {v : JsonValue} (h : Means t v) (hnests : v.Nests room) : ItemsMean room t [v] :=
  ⟨[(t, v)], List.cons_ne_nil _ _, List.forall_mem_singleton.mpr ⟨h, hnests⟩, (commas_singleton t).symm, rfl⟩

theorem ItemsMean.cons {t text : Text} {v : JsonValue} {items : List JsonValue} (h : Means t v) (hnests : v.Nests room)
    (hothers : ItemsMean room text items) : ItemsMean room (t ++ 0x2C :: text) (v :: items) := by
  obtain ⟨pairs, hne, hpairs, rfl, rfl⟩ := hothers
  refine ⟨(t, v) :: pairs, List.cons_ne_nil _ _, List.forall_mem_cons.mpr ⟨⟨h, hnests⟩, hpairs⟩, ?_, rfl⟩
  cases pairs with
  | nil => exact absurd rfl hne
  | cons pair pairs =>
    rw [List.map_cons, List.map_cons, List.map_cons, commas_cons]
    rfl

theorem MembersMean.padLeft {space text : Text} {members : Members} (hs : Space space) (h : MembersMean room text members) :
    MembersMean room (space ++ text) members := by
  obtain ⟨entries, hne, hentries, rfl, rfl⟩ := h
  cases entries with
  | nil => exact absurd rfl hne
  | cons entry entries =>
    obtain ⟨⟨hname, hvalue⟩, hothers⟩ := List.forall_mem_cons.mp hentries
    obtain ⟨before, quoted, after, hb, hq, ha, heq⟩ := hname
    have hpadded : NameMeans (space ++ entry.nameText) entry.name :=
      ⟨space ++ before, quoted, after, List.forall_mem_append.mpr ⟨hs, hb⟩, hq, ha, by rw [heq]; simp⟩
    refine ⟨⟨space ++ entry.nameText, entry.name, entry.valueText, entry.value⟩ :: entries, List.cons_ne_nil _ _, ?_, ?_, rfl⟩
    · exact List.forall_mem_cons.mpr ⟨⟨hpadded, hvalue⟩, hothers⟩
    · rw [List.map_cons, List.map_cons, ← commas_pad, Entry.text, Entry.text, List.append_assoc, List.append_assoc, List.append_assoc]

theorem MembersMean.one {entry : Entry} (hname : NameMeans entry.nameText entry.name) (hvalue : Means entry.valueText entry.value)
    (hnests : entry.value.Nests room) : MembersMean room entry.text [entry.member] :=
  ⟨[entry], List.cons_ne_nil _ _, List.forall_mem_singleton.mpr ⟨hname, hvalue, hnests⟩, (commas_singleton _).symm, rfl⟩

theorem MembersMean.cons {entry : Entry} {text : Text} {members : Members} (hname : NameMeans entry.nameText entry.name)
    (hvalue : Means entry.valueText entry.value) (hnests : entry.value.Nests room) (hothers : MembersMean room text members) :
    MembersMean room (entry.text ++ 0x2C :: text) (entry.member :: members) := by
  obtain ⟨entries, hne, hentries, rfl, rfl⟩ := hothers
  refine ⟨entry :: entries, List.cons_ne_nil _ _, List.forall_mem_cons.mpr ⟨⟨hname, hvalue, hnests⟩, hentries⟩, ?_, rfl⟩
  cases entries with
  | nil => exact absurd rfl hne
  | cons next entries =>
    rw [List.map_cons, List.map_cons, List.map_cons, commas_cons]
    rfl

variable (hooks) in
/-- What is read at a place has a meaning: a value, or the parts up to the closing bracket. -/
def Position.Sound : Position → Prop
  | .value room s => ∀ v rest, scanValue hooks room s = .ok (v, rest) → ∃ t, Means t v ∧ v.Nests room ∧ s = t ++ rest
  | .items room first s => ∀ items rest, scanArray hooks room first s = .ok (items, rest) →
      first = true ∧ items = [] ∧ s = 0x5D :: rest ∨ ∃ text, ItemsMean room text items ∧ s = text ++ 0x5D :: rest
  | .members room first s => ∀ members rest, scanObject hooks room first s = .ok (members, rest) →
      first = true ∧ members = [] ∧ s = 0x7D :: rest ∨ ∃ text, MembersMean room text members ∧ s = text ++ 0x7D :: rest

theorem array_sound (h : ∀ q, Next hooks (.value room (0x5B :: rest)) q → q.Sound hooks) : (Position.value room (0x5B :: rest)).Sound hooks := by
  intro v after hvalue
  cases room with
  | zero =>
    rw [scanValue_deep (.inl rfl)] at hvalue
    cases hvalue
  | succ room =>
    obtain ⟨items, hitems, rfl⟩ := scanValue_array_ok hvalue
    obtain ⟨space, hspace, hsplit⟩ := skipSpace_split rest
    rcases h _ .array items after hitems with ⟨_, rfl, hend⟩ | ⟨text, hmeans, hend⟩
    · refine ⟨_, .emptyArray hspace, nofun, ?_⟩
      rw [hsplit, hend]
      simp
    · obtain ⟨pairs, hne, hpairs, htext, rfl⟩ := hmeans.padLeft hspace
      refine ⟨_, .array hne fun pair hp => (hpairs pair hp).1, ?_, ?_⟩
      · intro item hitem
        obtain ⟨pair, hp, rfl⟩ := List.mem_map.mp hitem
        exact (hpairs pair hp).2
      · rw [hsplit, hend, ← htext]
        simp

theorem object_sound (hstrict : Strict kind hooks) (h : ∀ q, Next hooks (.value room (0x7B :: rest)) q → q.Sound hooks) :
    (Position.value room (0x7B :: rest)).Sound hooks := by
  intro v after hvalue
  cases room with
  | zero =>
    rw [scanValue_deep (.inr rfl)] at hvalue
    cases hvalue
  | succ room =>
    obtain ⟨members, hmembers, rfl, _⟩ := scanValue_object_ok hstrict hvalue
    obtain ⟨space, hspace, hsplit⟩ := skipSpace_split rest
    rcases h _ .object members after hmembers with ⟨_, rfl, hend⟩ | ⟨text, hmeans, hend⟩
    · refine ⟨_, .emptyObject hspace, nofun, ?_⟩
      rw [hsplit, hend]
      simp
    · obtain ⟨entries, hne, hentries, htext, rfl⟩ := hmeans.padLeft hspace
      refine ⟨_, .object hne (fun entry he => (hentries entry he).1) fun entry he => (hentries entry he).2.1, ?_, ?_⟩
      · intro m hm
        obtain ⟨entry, he, rfl⟩ := List.mem_map.mp hm
        exact (hentries entry he).2.2
      · rw [hsplit, hend, ← htext]
        simp

theorem items_sound {first : Bool} (h : ∀ q, Next hooks (.items room first s) q → q.Sound hooks) :
    (Position.items room first s).Sound hooks := by
  intro items rest hitems
  rcases scanArray_ok hitems with ⟨⟨hfirst, hhead⟩, rfl, rfl⟩ | ⟨hnot, item, after, hitem, hmore⟩
  · obtain ⟨more, rfl⟩ := List.head?_eq_some_iff.mp hhead
    exact .inl ⟨hfirst, rfl, rfl⟩
  · obtain ⟨t, ht, hnests, rfl⟩ := h _ (.item hnot) item after hitem
    obtain ⟨space, hspace, hsplit⟩ := skipSpace_split after
    right
    rcases hmore with ⟨hclose, rfl⟩ | ⟨more, others, hcomma, hothers, rfl⟩
    · rw [hclose] at hsplit
      exact ⟨_, .one (ht.padRight hspace) hnests, by rw [hsplit, List.append_assoc]⟩
    · rcases h _ (.later hnot hitem hcomma) others rest hothers with ⟨hfirst, _⟩ | ⟨text, hmeans, hend⟩
      · cases hfirst
      · obtain ⟨space', hspace', hsplit'⟩ := skipSpace_split more
        rw [hcomma] at hsplit
        refine ⟨_, .cons (ht.padRight hspace) hnests (hmeans.padLeft hspace'), ?_⟩
        rw [hsplit, hsplit', hend]
        simp

/-- A member's name and the text up to its value. -/
theorem named_sound {name text : Text} (h : Named s name text) :
    ∃ nameText space, NameMeans nameText name ∧ Space space ∧ s = nameText ++ 0x3A :: (space ++ skipSpace text) := by
  obtain ⟨tail, afterName, rfl, hname, hcolon⟩ := h
  obtain ⟨inside, hinside, rfl⟩ := scanString_sound hname
  obtain ⟨space, hspace, hsplit⟩ := skipSpace_split afterName
  obtain ⟨space', hspace', hsplit'⟩ := skipSpace_split text
  refine ⟨_, space', ⟨[], _, space, nofun, ⟨inside, hinside, rfl⟩, hspace, rfl⟩, hspace', ?_⟩
  rw [hsplit, hcolon, ← hsplit']
  simp

theorem members_sound {first : Bool} (h : ∀ q, Next hooks (.members room first s) q → q.Sound hooks) :
    (Position.members room first s).Sound hooks := by
  intro members rest hmembers
  rcases scanObject_ok hmembers with ⟨⟨hfirst, rfl⟩, rfl⟩ | ⟨name, text, value, after, hnamed, hvalue, hmore⟩
  · exact .inl ⟨hfirst, rfl, rfl⟩
  · obtain ⟨nameText, before, hname, hbefore, hs⟩ := named_sound hnamed
    obtain ⟨t, ht, hnests, hsplit⟩ := h _ (.member hnamed) value after hvalue
    obtain ⟨space, hspace, hafter⟩ := skipSpace_split after
    have hmeans : Means (before ++ t ++ space) value := .pad hbefore ht hspace
    right
    rcases hmore with ⟨hclose, rfl⟩ | ⟨more, others, hcomma, hothers, rfl⟩
    · refine ⟨_, @MembersMean.one room ⟨nameText, name, _, value⟩ hname hmeans hnests, ?_⟩
      rw [hs, hsplit, hafter, hclose, Entry.text]
      simp
    · rcases h _ (.laterMember hnamed hvalue hcomma) others rest hothers with ⟨hfirst, _⟩ | ⟨later, hlater, hend⟩
      · cases hfirst
      · obtain ⟨space', hspace', hsplit'⟩ := skipSpace_split more
        refine ⟨_, @MembersMean.cons room ⟨nameText, name, _, value⟩ _ _ hname hmeans hnests (hlater.padLeft hspace'), ?_⟩
        rw [hs, hsplit, hafter, hcomma, hsplit', hend, Entry.text]
        simp

/-- Every place is sound, the ones it goes on to being smaller. -/
theorem position_sound (hstrict : Strict kind hooks) (p : Position) : p.Sound hooks := by
  induction hsize : p.size using Nat.strong_induction_on generalizing p with
  | _ n ih =>
    have hnext {q : Position} (h : Next hooks p q) : q.Sound hooks := ih q.size (hsize ▸ h.smaller) q rfl
    cases p with
    | value room s =>
      rcases value_cases s with ⟨rest, rfl⟩ | ⟨rest, rfl⟩ | ⟨hlist, hdict⟩
      · exact array_sound fun q => hnext
      · exact object_sound hstrict fun q => hnext
      · exact fun v rest => leaf_sound hstrict hlist hdict
    | items room first s => exact items_sound fun q => hnext
    | members room first s => exact members_sound fun q => hnext

/-! ### What has a meaning is read -/

variable (hooks room) in
/-- Read as the value past any white space, with no more than white space left before what follows. -/
def Scans (t : Text) (v : JsonValue) : Prop :=
  ∀ rest, Stops rest → ∃ after, scanValue hooks room (skipSpace (t ++ rest)) = .ok (v, after) ∧ skipSpace after = skipSpace rest

theorem skipSpace_start {c : CodePoint} (h : isWhitespace c = false) (tail : Text) : skipSpace (c :: tail) = c :: tail :=
  List.dropWhile_cons_of_neg (by rw [h]; decide)

/-- A text that is no white space is read at once. -/
theorem scans_of_start {t : Text} {v : JsonValue} (hstart : ∃ c tail, t = c :: tail ∧ isWhitespace c = false)
    (h : ∀ rest, Stops rest → scanValue hooks room (t ++ rest) = .ok (v, rest)) : Scans hooks room t v := by
  intro rest hrest
  obtain ⟨c, tail, rfl, hc⟩ := hstart
  refine ⟨rest, ?_, rfl⟩
  rw [List.cons_append, skipSpace_start hc]
  exact h rest hrest

theorem scans_null : Scans hooks room (txt "null") .null := by
  have htext : txt "null" = [0x6E, 0x75, 0x6C, 0x6C] := by decide
  rw [htext]
  exact scans_of_start ⟨_, _, rfl, rfl⟩ fun rest _ => rfl

theorem scans_true : Scans hooks room (txt "true") (.bool true) := by
  have htext : txt "true" = [0x74, 0x72, 0x75, 0x65] := by decide
  rw [htext]
  exact scans_of_start ⟨_, _, rfl, rfl⟩ fun rest _ => rfl

theorem scans_false : Scans hooks room (txt "false") (.bool false) := by
  have htext : txt "false" = [0x66, 0x61, 0x6C, 0x73, 0x65] := by decide
  rw [htext]
  exact scans_of_start ⟨_, _, rfl, rfl⟩ fun rest _ => rfl

theorem scans_string {t value : Text} (h : QuotedMeans t value) : Scans hooks room t (.str value) := by
  obtain ⟨inside, hinside, rfl⟩ := h
  refine scans_of_start ⟨_, _, rfl, rfl⟩ fun rest _ => ?_
  have hlength : inside.length < (inside ++ 0x22 :: rest).length + 1 := by
    rw [List.length_append]
    omega
  have hstring := @scanString_complete _ _ hinside (0x22 :: (inside ++ 0x22 :: rest)) rest _ hlength
  rw [List.append_assoc, List.append_assoc, List.singleton_append, List.singleton_append, scanValue, scanOnce.eq_def]
  dsimp only
  rw [if_pos rfl, hstring]
  rfl

/-- Where a number starts, the value is the number. -/
theorem scanValue_number {negative : Bool} {t after : Text} {v : JsonValue} (hs : unsigned? s = some (negative, t))
    (hscan : scanUnsigned negative s t = .ok (v, after)) : scanValue hooks room s = .ok (v, after) := by
  have hnumber : ¬ NoNumber s := by
    intro hnone
    rw [scanUnsigned_eq, hnone _ _ hs] at hscan
    cases hscan
  have hleaf : LeafScan hooks s (scanValue hooks room s) := by
    apply scanValue_leaf
    · intro more h
      rw [h] at hs
      cases hs
    · intro more h
      rw [h] at hs
      cases hs
  generalize scanValue hooks room s = found at hleaf ⊢
  cases hleaf with
  | word _ hnone => exact absurd hnone hnumber
  | constant hnone => exact absurd hnone hnumber
  | malformed hnone => exact absurd hnone hnumber
  | number hs' =>
    obtain ⟨rfl, rfl⟩ := Prod.mk.inj (Option.some.inj (hs.symm.trans hs'))
    exact hscan

theorem unsigned?_whole {negative : Bool} {whole : Text} (hw : Whole whole) (more : Text) :
    unsigned? (minus negative ++ (whole ++ more)) = some (negative, whole ++ more) := by
  cases negative with
  | true => rfl
  | false =>
    obtain ⟨c, tail, rfl, hc⟩ : ∃ c tail, whole = c :: tail ∧ IsDigit c := by
      rcases hw with rfl | ⟨hdigits, _⟩
      · exact ⟨_, _, rfl, by decide, by decide⟩
      · cases whole with
        | nil => exact absurd rfl hdigits.1
        | cons c tail => exact ⟨c, tail, rfl, hdigits.2 c List.mem_cons_self⟩
    have hminus : c ≠ 0x2D := by
      rintro rfl
      exact absurd hc.1 (by decide)
    rw [minus, if_neg Bool.false_ne_true, List.nil_append, List.cons_append, unsigned?, if_neg hminus, if_pos (isDigit_iff.mpr hc)]

theorem start_number {t : Text} (h : Number t) : ∃ c tail, t = c :: tail ∧ isWhitespace c = false := by
  have hne : t ≠ [] := by
    cases h with
    | make _ hw =>
      simp only [ne_eq, List.append_eq_nil_iff, not_and]
      exact fun h => absurd h.1.2 (whole_ne_nil hw)
  cases t with
  | nil => exact absurd rfl hne
  | cons c tail =>
    refine ⟨c, tail, rfl, Bool.eq_false_iff.mpr fun hspace => ?_⟩
    rw [isWhitespace_iff] at hspace
    rcases h.mem List.mem_cons_self with hdigit | hmark
    · rcases hspace with rfl | rfl | rfl | rfl <;> exact absurd hdigit.1 (by decide)
    · rcases hspace with rfl | rfl | rfl | rfl <;> exact absurd hmark (by decide)

theorem scans_number {t : Text} {v : JsonValue} (h : NumberMeans t v) (hshort : v.Short) : Scans hooks room t v := by
  refine scans_of_start (start_number h.number) fun rest hrest => ?_
  cases h with
  | int hw =>
    rw [List.append_assoc]
    exact scanValue_number (unsigned?_whole hw rest) (scanUnsigned_int hw hrest hshort)
  | float hw hf he hne =>
    rw [List.append_assoc, List.append_assoc, List.append_assoc]
    exact scanValue_number (unsigned?_whole hw _) (scanUnsigned_float hw hf he hne hrest)

theorem Scans.pad {before t after : Text} {v : JsonValue} (hb : Space before) (h : Scans hooks room t v) (ha : Space after) :
    Scans hooks room (before ++ t ++ after) v := by
  intro rest hrest
  obtain ⟨left, hscan, hleft⟩ := h (after ++ rest) (hrest.space ha)
  refine ⟨left, ?_, ?_⟩
  · rw [List.append_assoc, List.append_assoc, skipSpace_append hb]
    exact hscan
  · rw [hleft, skipSpace_append ha]

/-- No value starts with a closing bracket. -/
theorem scanValue_start {v : JsonValue} {after : Text} (h : scanValue hooks room s = .ok (v, after)) : s.head? ≠ some 0x5D := by
  intro hhead
  obtain ⟨tail, rfl⟩ := List.head?_eq_some_iff.mp hhead
  cases h

theorem scanArray_close {first : Bool} {item : JsonValue} {after : Text} (hitem : scanValue hooks room s = .ok (item, after))
    (hclose : skipSpace after = 0x5D :: rest) : scanArray hooks room first s = .ok ([item], rest) := by
  have hvalue : scanOnce hooks (2 * s.length + 1) room s = scanValue hooks room s := rfl
  rw [scanArray, scanItems, hvalue, if_neg fun h => scanValue_start hitem h.2, hitem]
  simp only [ok_bind, hclose]
  rfl

theorem scanArray_next {first : Bool} {item : JsonValue} {items : List JsonValue} {after more : Text}
    (hitem : scanValue hooks room s = .ok (item, after)) (hcomma : skipSpace after = 0x2C :: more)
    (hitems : scanArray hooks room false (skipSpace more) = .ok (items, rest)) :
    scanArray hooks room first s = .ok (item :: items, rest) := by
  have hvalue : scanOnce hooks (2 * s.length + 1) room s = scanValue hooks room s := rfl
  have hafter := scanItems_after hitem hcomma
  rw [hitems] at hafter
  rw [scanArray, scanItems, hvalue, if_neg fun h => scanValue_start hitem h.2, hitem]
  simp only [ok_bind, hcomma]
  rw [if_neg (by decide), if_pos trivial, hafter]
  rfl

theorem scanArray_commas {pairs : List (Text × JsonValue)} (h : ∀ pair ∈ pairs, Scans hooks room pair.1 pair.2) (hne : pairs ≠ [])
    (first : Bool) (rest : Text) : scanArray hooks room first (skipSpace (commas (pairs.map Prod.fst) ++ 0x5D :: rest)) =
      .ok (pairs.map Prod.snd, rest) := by
  induction pairs generalizing first with
  | nil => exact absurd rfl hne
  | cons pair pairs ih =>
    obtain ⟨hpair, hothers⟩ := List.forall_mem_cons.mp h
    cases pairs with
    | nil =>
      rw [List.map_singleton, commas_singleton]
      obtain ⟨after, hscan, hafter⟩ := hpair (0x5D :: rest) (stops_cons (.inr (.inr (.inl rfl))))
      exact scanArray_close hscan hafter
    | cons next pairs =>
      have hlater := ih hothers (List.cons_ne_nil _ _) false
      rw [List.map_cons, List.map_cons, commas_cons, List.append_assoc, List.append_assoc, List.singleton_append]
      obtain ⟨after, hscan, hafter⟩ := hpair (0x2C :: (commas (next.1 :: pairs.map Prod.fst) ++ 0x5D :: rest))
        (stops_cons (.inr (.inl rfl)))
      exact scanArray_next hscan hafter hlater

theorem scans_array {pairs : List (Text × JsonValue)} (h : ∀ pair ∈ pairs, Scans hooks room pair.1 pair.2) (hne : pairs ≠ []) :
    Scans hooks (room + 1) ([0x5B] ++ commas (pairs.map Prod.fst) ++ [0x5D]) (.list (pairs.map Prod.snd)) := by
  refine scans_of_start ⟨_, _, rfl, rfl⟩ fun rest _ => ?_
  rw [List.append_assoc, List.append_assoc, List.singleton_append, List.singleton_append, scanValue_array, scanArray_commas h hne]
  rfl

theorem scans_emptyArray {space : Text} (hs : Space space) : Scans hooks (room + 1) ([0x5B] ++ space ++ [0x5D]) (.list []) := by
  refine scans_of_start ⟨_, _, rfl, rfl⟩ fun rest _ => ?_
  have hclose : scanArray hooks room true (skipSpace (0x5D :: rest)) = .ok ([], rest) := rfl
  rw [List.append_assoc, List.append_assoc, List.singleton_append, List.singleton_append, scanValue_array, skipSpace_append hs, hclose]
  rfl

/-- A name is read to its colon. -/
theorem named_complete {nameText name : Text} (h : NameMeans nameText name) (text : Text) :
    Named (skipSpace (nameText ++ 0x3A :: text)) name text := by
  obtain ⟨before, quoted, after, hb, ⟨inside, hinside, rfl⟩, ha, rfl⟩ := h
  have hstart : skipSpace (before ++ ([0x22] ++ inside ++ [0x22]) ++ after ++ 0x3A :: text) =
      0x22 :: (inside ++ 0x22 :: (after ++ 0x3A :: text)) := by
    have htext : [0x22] ++ inside ++ [0x22] ++ (after ++ 0x3A :: text) = 0x22 :: (inside ++ 0x22 :: (after ++ 0x3A :: text)) := by simp
    rw [List.append_assoc, List.append_assoc, skipSpace_append hb, htext]
    exact skipSpace_start rfl _
  have hlength : inside.length < (inside ++ 0x22 :: (after ++ 0x3A :: text)).length + 1 := by
    rw [List.length_append]
    omega
  rw [hstart]
  exact ⟨_, _, rfl, scanString_complete hinside hlength, by rw [skipSpace_append ha]; rfl⟩

theorem scanObject_close {first : Bool} {name text after : Text} {value : JsonValue} (hnamed : Named s name text)
    (hvalue : scanValue hooks room (skipSpace text) = .ok (value, after)) (hclose : skipSpace after = 0x7D :: rest) :
    scanObject hooks room first s = .ok ([(name, value)], rest) := by
  rw [scanObject_member hnamed hvalue, hclose]
  rfl

theorem scanObject_next {first : Bool} {name text after more : Text} {value : JsonValue} {members : Members} (hnamed : Named s name text)
    (hvalue : scanValue hooks room (skipSpace text) = .ok (value, after)) (hcomma : skipSpace after = 0x2C :: more)
    (hmembers : scanObject hooks room false (skipSpace more) = .ok (members, rest)) :
    scanObject hooks room first s = .ok ((name, value) :: members, rest) := by
  have hafter := scanMembers_after hnamed hvalue hcomma
  rw [hmembers] at hafter
  rw [scanObject_member hnamed hvalue, hcomma]
  dsimp only
  rw [if_neg (by decide), if_pos rfl, hafter]
  rfl

theorem scanObject_commas {entries : List Entry}
    (h : ∀ entry ∈ entries, NameMeans entry.nameText entry.name ∧ Scans hooks room entry.valueText entry.value) (hne : entries ≠ [])
    (first : Bool) (rest : Text) : scanObject hooks room first (skipSpace (commas (entries.map Entry.text) ++ 0x7D :: rest)) =
      .ok (entries.map Entry.member, rest) := by
  have hsplit (entry : Entry) (more : Text) : entry.text ++ more = entry.nameText ++ 0x3A :: (entry.valueText ++ more) := by
    simp [Entry.text]
  induction entries generalizing first with
  | nil => exact absurd rfl hne
  | cons entry entries ih =>
    obtain ⟨⟨hname, hvalue⟩, hothers⟩ := List.forall_mem_cons.mp h
    cases entries with
    | nil =>
      rw [List.map_singleton, commas_singleton, hsplit]
      obtain ⟨after, hscan, hafter⟩ := hvalue (0x7D :: rest) (stops_cons (.inr (.inr (.inr rfl))))
      exact scanObject_close (named_complete hname _) hscan hafter
    | cons next entries =>
      have hlater := ih hothers (List.cons_ne_nil _ _) false
      rw [List.map_cons, List.map_cons, commas_cons, List.append_assoc, List.append_assoc, List.singleton_append, hsplit]
      obtain ⟨after, hscan, hafter⟩ := hvalue (0x2C :: (commas (next.text :: entries.map Entry.text) ++ 0x7D :: rest))
        (stops_cons (.inr (.inl rfl)))
      exact scanObject_next (named_complete hname _) hscan hafter hlater

theorem scans_object {entries : List Entry}
    (h : ∀ entry ∈ entries, NameMeans entry.nameText entry.name ∧ Scans hooks room entry.valueText entry.value) (hne : entries ≠ [])
    (hpairs : hooks.objectPairs (entries.map Entry.member) = .ok (.dict (entries.map Entry.member))) :
    Scans hooks (room + 1) ([0x7B] ++ commas (entries.map Entry.text) ++ [0x7D]) (.dict (entries.map Entry.member)) := by
  refine scans_of_start ⟨_, _, rfl, rfl⟩ fun rest _ => ?_
  rw [List.append_assoc, List.append_assoc, List.singleton_append, List.singleton_append, scanValue_object, scanObject_commas h hne,
    ok_bind]
  dsimp only
  rw [hpairs]
  rfl

theorem scans_emptyObject {space : Text} (hs : Space space) (hpairs : hooks.objectPairs [] = .ok (.dict [])) :
    Scans hooks (room + 1) ([0x7B] ++ space ++ [0x7D]) (.dict []) := by
  refine scans_of_start ⟨_, _, rfl, rfl⟩ fun rest _ => ?_
  have hclose : scanObject hooks room true (skipSpace (0x7D :: rest)) = .ok ([], rest) := rfl
  rw [List.append_assoc, List.append_assoc, List.singleton_append, List.singleton_append, scanValue_object, skipSpace_append hs, hclose,
    ok_bind]
  dsimp only
  rw [hpairs]
  rfl

/-- The hooks let every object through as it came. -/
inductive Passes (hooks : Hooks) : JsonValue → Prop
  | null : Passes hooks .null
  | bool {b} : Passes hooks (.bool b)
  | int {i} : Passes hooks (.int i)
  | float {f} : Passes hooks (.float f)
  | str {value : Text} : Passes hooks (.str value)
  | list {items} : (∀ item ∈ items, Passes hooks item) → Passes hooks (.list items)
  | dict {members : Members} : hooks.objectPairs members = .ok (.dict members) → (∀ m ∈ members, Passes hooks m.2) → Passes hooks (.dict members)

theorem passes_of_distinct (hadmits : Admit hooks) {v : JsonValue} (h : v.Distinct) : Passes hooks v := by
  induction h with
  | null => exact .null
  | bool => exact .bool
  | int => exact .int
  | float => exact .float
  | str => exact .str
  | list _ ih => exact .list ih
  | dict hnodup _ ih => exact .dict (hadmits _ hnodup) ih

/-- A text that means a value within the limits is read as it. -/
theorem means_scans {t : Text} {v : JsonValue} (h : Means t v) (hshort : v.Short) (hpasses : Passes hooks v)
    (hnests : v.Nests room) : Scans hooks room t v := by
  induction h generalizing room with
  | null => exact scans_null
  | true => exact scans_true
  | false => exact scans_false
  | number hn => exact scans_number hn hshort
  | string hs => exact scans_string hs
  | emptyArray hs =>
    cases room with
    | zero => exact hnests.elim
    | succ room => exact scans_emptyArray hs
  | @array items hne _ ih =>
    cases room with
    | zero => exact hnests.elim
    | succ room =>
      cases hshort with
      | list hshort =>
        cases hpasses with
        | list hpasses =>
          refine scans_array (fun item hitem => ?_) hne
          have hmem := List.mem_map_of_mem (f := Prod.snd) hitem
          exact ih item hitem (hshort _ hmem) (hpasses _ hmem) (hnests _ hmem)
  | emptyObject hs =>
    cases room with
    | zero => exact hnests.elim
    | succ room =>
      cases hpasses with
      | dict hpairs => exact scans_emptyObject hs hpairs
  | @object entries hne hnames _ ih =>
    cases room with
    | zero => exact hnests.elim
    | succ room =>
      cases hshort with
      | dict hshort =>
        cases hpasses with
        | dict hpairs hpasses =>
          refine scans_object (fun entry hentry => ⟨hnames entry hentry, ?_⟩) hne hpairs
          have hmem := List.mem_map_of_mem (f := Entry.member) hentry
          exact ih entry hentry (hshort _ hmem) (hpasses _ hmem) (hnests _ hmem)
  | pad hb _ ha ih => exact (ih hshort hpasses hnests).pad hb ha

end

/-! ### One meaning -/

/-- Room enough for a value. -/
theorem exists_nests (v : JsonValue) : ∃ levels, ∀ room, levels ≤ room → v.Nests room := by
  have hbound {α : Type} (read : α → JsonValue) (parts : List α)
      (h : ∀ part ∈ parts, ∃ levels, ∀ room, levels ≤ room → (read part).Nests room) :
      ∃ levels, ∀ room, levels ≤ room → ∀ part ∈ parts, (read part).Nests room := by
    induction parts with
    | nil => exact ⟨0, fun _ _ => nofun⟩
    | cons part parts ih =>
      obtain ⟨first, hfirst⟩ := h part List.mem_cons_self
      obtain ⟨others, hothers⟩ := ih fun other ho => h other (List.mem_cons_of_mem part ho)
      refine ⟨max first others, fun room hroom => List.forall_mem_cons.mpr ⟨hfirst room ?_, hothers room ?_⟩⟩
      · exact (Nat.le_max_left _ _).trans hroom
      · exact (Nat.le_max_right _ _).trans hroom
  have hsucc {levels room : Nat} (h : levels + 1 ≤ room) : ∃ more, room = more + 1 ∧ levels ≤ more :=
    ⟨room - 1, by omega, by omega⟩
  induction v using JsonValue.induct with
  | list items ih =>
    obtain ⟨levels, h⟩ := hbound id items ih
    refine ⟨levels + 1, fun room hroom => ?_⟩
    obtain ⟨more, rfl, hmore⟩ := hsucc hroom
    exact h more hmore
  | dict members ih =>
    obtain ⟨levels, h⟩ := hbound Prod.snd members ih
    refine ⟨levels + 1, fun room hroom => ?_⟩
    obtain ⟨more, rfl, hmore⟩ := hsucc hroom
    exact h more hmore
  | _ => exact ⟨0, fun room _ => nests_leaf (by simp) (by simp)⟩

/-- Hooks that let everything through. -/
def openHooks : Hooks := ⟨fun members => .ok (.dict members), fun _ => .ok .null⟩

theorem openHooks_passes (v : JsonValue) : Passes openHooks v := by
  induction v using JsonValue.induct with
  | null => exact .null
  | bool => exact .bool
  | int => exact .int
  | float => exact .float
  | str => exact .str
  | list _ ih => exact .list ih
  | dict _ ih => exact .dict rfl ih

/-- A text means one value, if its integers can be read. -/
theorem Means.unique {t : Text} {v w : JsonValue} (hv : Means t v) (hw : Means t w) (hv' : v.Short) (hw' : w.Short) : v = w := by
  obtain ⟨m, hm⟩ := exists_nests v
  obtain ⟨n, hn⟩ := exists_nests w
  obtain ⟨_, hscan, _⟩ := means_scans hv hv' (openHooks_passes v) (hm _ (Nat.le_max_left m n)) [] stops_nil
  obtain ⟨_, hscan', _⟩ := means_scans hw hw' (openHooks_passes w) (hn _ (Nat.le_max_right m n)) [] stops_nil
  exact (Prod.mk.inj (Except.ok.inj (hscan.symm.trans hscan'))).1

/-! ### Documents -/

section

variable {kind : ErrorKind} {hooks : Hooks} {I : Interpreter} {document : Text} {v : JsonValue}

/-- What strict hooks let through has short integers and no name twice. -/
theorem loads_limits (hstrict : Strict kind hooks) (h : Json.loads I hooks document = .ok v) : v.Short ∧ v.Distinct := by
  have hconstant {name : Text} {found : JsonValue} (h : hooks.parseConstant name = .ok found) : False := by
    obtain ⟨_, hrefusal, _⟩ := hstrict.constant name
    rw [hrefusal] at h
    cases h
  refine Json.loads_keeps (Q := fun v => v.Short ∧ v.Distinct) ⟨⟨.null, .null⟩, fun _ => ⟨.bool, .bool⟩, ?_, fun _ => ⟨.float, .float⟩,
    fun _ => ⟨.str, .str⟩, ?_, ?_, fun _ _ h => (hconstant h).elim⟩ h
  · intro negative digits i hi hne hdigits
    simp only [parseInt, bind_eq_ok, exists_unit, raiseIf_eq_ok, decide_eq_false_iff_not, not_lt, Except.ok.injEq] at hi
    obtain ⟨hle, rfl⟩ := hi
    have habs : (if negative then -(digitsValue digits : Int) else digitsValue digits).natAbs = digitsValue digits := by
      cases negative <;> simp
    refine ⟨.int ?_, .int⟩
    rw [habs]
    exact (decimal_length_le (List.length_pos_iff.mpr hne) (digitsValue_lt hdigits)).trans hle
  · intro items hitems
    exact ⟨.list fun item hitem => (hitems item hitem).1, .list fun item hitem => (hitems item hitem).2⟩
  · intro members found hmembers hpairs
    obtain ⟨rfl, hnodup⟩ := hstrict.pairs members found hpairs
    exact ⟨.dict fun m hm => (hmembers m hm).1, .dict hnodup fun m hm => (hmembers m hm).2⟩

/-- A strict parse returns a value for a text that means it, when there is no byte order mark, no object repeats a name, no
integer is too long and no nesting too deep. -/
theorem loads_eq_ok_iff (hstrict : Strict kind hooks) (hadmits : Admit hooks) : Json.loads I hooks document = .ok v ↔
    document.head? ≠ some 0xFEFF ∧ Means document v ∧ v.Distinct ∧ v.Short ∧ v.Nests I.parseDepth := by
  constructor
  · intro h
    obtain ⟨hshort, hdistinct⟩ := loads_limits hstrict h
    obtain ⟨hbom, rest, hvalue, hend⟩ := loads_scanned.mp h
    obtain ⟨t, ht, hnests, hsplit⟩ := position_sound hstrict (.value I.parseDepth (skipSpace document)) v rest hvalue
    obtain ⟨before, hbefore, hdocument⟩ := skipSpace_split document
    obtain ⟨after, hafter, hrest⟩ := skipSpace_split rest
    rw [hend, List.append_nil] at hrest
    have hpad := Means.pad hbefore ht (hrest ▸ hafter)
    rw [List.append_assoc, ← hsplit, ← hdocument] at hpad
    exact ⟨hbom, hpad, hdistinct, hshort, hnests⟩
  · rintro ⟨hbom, hmeans, hdistinct, hshort, hnests⟩
    obtain ⟨after, hscan, hafter⟩ := means_scans hmeans hshort (passes_of_distinct hadmits hdistinct) hnests [] stops_nil
    rw [List.append_nil] at hscan
    exact loads_scanned.mpr ⟨hbom, after, hscan, hafter⟩

end

end AitpVerifier.Json

namespace AitpVerifier.Jcs

open PyText Checked Json

/-- The octets the strict parser takes, and the value it returns. -/
theorem loads_eq_ok_iff {I : Interpreter} {octets : Bytes} {v : JsonValue} : loads I octets = .ok v ↔
    ∃ document, utf8Decode? octets = some document ∧ document.head? ≠ some 0xFEFF ∧ Means document v ∧
      v.Distinct ∧ v.Short ∧ v.Nests I.parseDepth := by
  rw [loads]
  cases utf8Decode? octets with
  | none => simp
  | some document =>
    dsimp only
    rw [rescue_eq_ok]
    refine (Json.loads_eq_ok_iff (@strictHooks_strict I) strictHooks_admit).trans ?_
    simp

end AitpVerifier.Jcs
