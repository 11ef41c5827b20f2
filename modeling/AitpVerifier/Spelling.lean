import AitpVerifier.Document
import AitpVerifier.IntegerText

/-!
# How canonical text spells strings and numbers

A quoted string ends where its own closing quote stands, and a word (a literal name
or a number) holds no character that could follow it.
-/
namespace AitpVerifier.Jcs

open PyText Checked Document

/-! ### Strings -/

/-- The characters that are written as an escape. -/
def escapedChars : List CodePoint := (List.range 0x20).map (Fin.ofNat _) ++ [0x22, 0x5C]

theorem mem_escapedChars {c : CodePoint} : c ∈ escapedChars ↔ c.val < 0x20 ∨ c = 0x22 ∨ c = 0x5C := by
  simp only [escapedChars, List.mem_append, List.mem_map, List.mem_range, List.mem_cons, List.not_mem_nil, or_false]
  refine or_congr_left ⟨?_, ?_⟩
  · rintro ⟨n, hn, rfl⟩
    rw [Fin.val_ofNat]
    omega
  · intro hc
    refine ⟨c.val, hc, ?_⟩
    rw [Fin.ext_iff, Fin.val_ofNat]
    have := c.isLt
    omega

/-- Any other character stands for itself. -/
theorem escapeChar_plain {c : CodePoint} (h : c ∉ escapedChars) : escapeChar c = [c] := by
  rw [mem_escapedChars] at h
  have hval : ¬ c.val < 0x20 := fun hc => h (.inl hc)
  have hnamed : namedEscape c = none := by
    have hne {d : CodePoint} (hd : d.val < 0x20) : c ≠ d := fun he => hval (he ▸ hd)
    rw [namedEscape, if_neg (hne (by decide)), if_neg (hne (by decide)), if_neg (hne (by decide)),
      if_neg (hne (by decide)), if_neg (hne (by decide)), if_neg (fun he => h (.inr (.inl he))),
      if_neg (fun he => h (.inr (.inr he)))]
  rw [escapeChar, hnamed]
  exact if_neg hval

/-- Each escape starts with a backslash, and none is the start of another. -/
def escapesDistinct : Bool :=
  escapedChars.all fun c => (escapeChar c).head? == some 0x5C &&
    escapedChars.all fun d => !(escapeChar c).isPrefixOf (escapeChar d) || c == d

theorem escapesDistinct_true : escapesDistinct = true := by decide +kernel

theorem escapes_prefixFree {c : CodePoint} (hc : c ∈ escapedChars) : (escapeChar c).head? = some 0x5C ∧
    ∀ d ∈ escapedChars, escapeChar c <+: escapeChar d → c = d := by
  have h := List.all_eq_true.mp escapesDistinct_true c hc
  rw [Bool.and_eq_true, beq_iff_eq] at h
  refine ⟨h.1, fun d hd hpre => ?_⟩
  have hcd := List.all_eq_true.mp h.2 d hd
  rw [List.isPrefixOf_iff_prefix.mpr hpre] at hcd
  simpa using hcd

theorem escapeChar_escaped {c : CodePoint} (h : c ∈ escapedChars) : ∃ rest, escapeChar c = 0x5C :: rest := by
  have hhead := (escapes_prefixFree h).1
  cases he : escapeChar c with
  | nil => simp [he] at hhead
  | cons d rest =>
    rw [he, List.head?_cons, Option.some.injEq] at hhead
    exact ⟨rest, by rw [hhead]⟩

/-- The backslash is itself escaped, so a plain character never looks like an escape. -/
theorem escapeChar_unambiguous {c d : CodePoint} {r r' : Text} (h : escapeChar c ++ r = escapeChar d ++ r') :
    c = d ∧ r = r' := by
  have hmixed {c d : CodePoint} {r r' : Text} (hc : c ∈ escapedChars) (hd : d ∉ escapedChars) :
      escapeChar c ++ r ≠ escapeChar d ++ r' := by
    obtain ⟨rest, hrest⟩ := escapeChar_escaped hc
    rw [hrest, escapeChar_plain hd]
    intro heq
    have hd' : d = 0x5C := (List.cons.inj heq).1.symm
    exact hd (mem_escapedChars.mpr (.inr (.inr hd')))
  by_cases hc : c ∈ escapedChars
  · by_cases hd : d ∈ escapedChars
    · have hcd : c = d := by
        rcases List.append_eq_append_iff.mp h with ⟨t, ht, _⟩ | ⟨t, ht, _⟩
        · exact (escapes_prefixFree hc).2 d hd ⟨t, ht.symm⟩
        · exact ((escapes_prefixFree hd).2 c hc ⟨t, ht.symm⟩).symm
      subst hcd
      exact ⟨rfl, List.append_cancel_left h⟩
    · exact absurd h (hmixed hc hd)
  · by_cases hd : d ∈ escapedChars
    · exact absurd h.symm (hmixed hd hc)
    · rw [escapeChar_plain hc, escapeChar_plain hd] at h
      exact List.cons.inj h

/-- No character is written with a bare quote in front. -/
theorem escapeChar_ne_quote (c : CodePoint) (r r' : Text) : escapeChar c ++ r ≠ 0x22 :: r' := by
  intro heq
  by_cases hc : c ∈ escapedChars
  · obtain ⟨rest, hrest⟩ := escapeChar_escaped hc
    rw [hrest] at heq
    exact absurd (List.cons.inj heq).1 (by decide)
  · rw [escapeChar_plain hc] at heq
    exact hc (mem_escapedChars.mpr (.inr (.inl (List.cons.inj heq).1)))

theorem formatString_eq (s : Text) : formatString s = 0x22 :: (s.flatMap escapeChar ++ [0x22]) := by
  have hquote : txt "\"" = [0x22] := by decide
  rw [formatString, hquote]
  rfl

/-- The first bare quote closes a string. -/
theorem formatString_unambiguous {s t r r' : Text} (h : formatString s ++ r = formatString t ++ r') :
    s = t ∧ r = r' := by
  rw [formatString_eq, formatString_eq, List.cons_append, List.cons_append, List.append_assoc, List.append_assoc] at h
  replace h := (List.cons.inj h).2
  induction s generalizing t with
  | nil =>
    cases t with
    | nil => exact ⟨rfl, (List.cons.inj h).2⟩
    | cons d t =>
      rw [List.flatMap_cons, List.append_assoc] at h
      exact absurd h.symm (escapeChar_ne_quote d _ _)
  | cons c s ih =>
    cases t with
    | nil =>
      rw [List.flatMap_cons, List.append_assoc] at h
      exact absurd h (escapeChar_ne_quote c _ _)
    | cons d t =>
      rw [List.flatMap_cons, List.flatMap_cons, List.append_assoc, List.append_assoc] at h
      obtain ⟨rfl, hrest⟩ := escapeChar_unambiguous h
      obtain ⟨rfl, rfl⟩ := ih hrest
      exact ⟨rfl, rfl⟩

/-! ### Words -/

/-- The characters of literal names and numbers. -/
def isWordChar (c : CodePoint) : Bool :=
  (0x30 ≤ c.val && c.val ≤ 0x39) || (0x61 ≤ c.val && c.val ≤ 0x7A) || c == 0x2B || c == 0x2D || c == 0x2E

/-- Text of word characters only. -/
def WordText (t : Text) : Prop := ∀ c ∈ t, isWordChar c = true

instance (t : Text) : Decidable (WordText t) := decidable_of_iff (t.all isWordChar = true) List.all_eq_true

namespace WordText

theorem nil : WordText [] := by simp [WordText]

theorem append {s t : Text} (hs : WordText s) (ht : WordText t) : WordText (s ++ t) := by
  intro c hc
  rcases List.mem_append.mp hc with hc | hc
  · exact hs c hc
  · exact ht c hc

theorem subset {s t : Text} (ht : WordText t) (h : s ⊆ t) : WordText s := fun c hc => ht c (h hc)

theorem zeros (n : Nat) : WordText (List.replicate n 0x30) := by
  intro c hc
  rw [(List.mem_replicate.mp hc).2]
  decide

theorem decimal (n : Nat) : WordText (PyText.decimal n) := by
  intro c hc
  have hrange := mem_decimal hc
  simp only [isWordChar, Bool.or_eq_true, Bool.and_eq_true, decide_eq_true_eq]
  exact .inl (.inl (.inl (.inl hrange)))

end WordText

theorem partition_subset (sep : CodePoint) (s : Text) :
    (partition sep s).1 ⊆ s ∧ (partition sep s).2.2 ⊆ s := by
  induction s with
  | nil => exact ⟨List.Subset.refl _, List.Subset.refl _⟩
  | cons c rest ih =>
    rw [partition]
    by_cases hc : c = sep
    · rw [if_pos hc]
      exact ⟨List.nil_subset _, List.subset_cons_self _ _⟩
    · rw [if_neg hc]
      exact ⟨List.cons_subset_cons _ ih.1, List.subset_cons_of_subset _ ih.2⟩

/-- A positive double's `repr` is a word. -/
theorem reprMagnitude_wordText (mantissa scale : Nat) : WordText (Binary64.reprMagnitude mantissa scale) := by
  have hzero : WordText (txt "0.") := by decide +kernel
  have hpoint : WordText (txt ".") := by decide +kernel
  have htail : WordText (txt ".0") := by decide +kernel
  have hneg : WordText (txt "e-") := by decide +kernel
  have hpos : WordText (txt "e+") := by decide +kernel
  have hdef : Binary64.reprMagnitude = Binary64.reprMagnitude := rfl
  conv at hdef => rhs; delta Binary64.reprMagnitude
  rw [hdef]
  beta_reduce
  obtain ⟨value, exponent⟩ := Binary64.shortest mantissa scale
  have hdigits : WordText (decimal value) := .decimal value
  have htake (n : Nat) : WordText ((decimal value).take n) := hdigits.subset (List.take_subset _ _)
  have hdrop (n : Nat) : WordText ((decimal value).drop n) := hdigits.subset (List.drop_subset _ _)
  dsimp only
  split
  · split
    · exact (hzero.append (.zeros _)).append hdigits
    · split
      · exact (hdigits.append (.zeros _)).append htail
      · exact ((htake _).append hpoint).append (hdrop _)
  · have hfraction : WordText (if (decimal value).length = 1 then [] else txt "." ++ (decimal value).drop 1) := by
      split
      · exact .nil
      · exact hpoint.append (hdrop 1)
    have hexponent : WordText (if exponent + (decimal value).length - 1 < 0 then txt "e-" else txt "e+") := by
      split
      · exact hneg
      · exact hpos
    exact ((((htake 1).append hfraction).append hexponent).append (.zeros _)).append (.decimal _)

/-- The digits read off a word are some, and word characters. -/
theorem shortestDigits_wordText {text digits : Text} {n : Int} (ht : WordText text)
    (h : shortestDigits text = .ok (digits, n)) : digits ≠ [] ∧ WordText digits := by
  have hmantissa : (splitExponent text).1 ⊆ text := by
    rw [splitExponent]
    dsimp only
    split
    · exact (partition_subset _ _).1
    · exact List.Subset.refl _
  simp only [shortestDigits, bind_eq_ok, exists_unit, raiseIf_eq_ok, Except.ok.injEq, Prod.mk.injEq] at h
  obtain ⟨hempty, rfl, _⟩ := h
  refine ⟨List.isEmpty_eq_false_iff.mp hempty, ?_⟩
  apply (ht.subset hmantissa).subset
  intro c hc
  have hdrop := List.mem_reverse.mp ((List.dropWhile_subset _) (List.mem_reverse.mp hc))
  rcases List.mem_append.mp ((List.dropWhile_subset _) hdrop) with hc | hc
  · exact (partition_subset _ _).1 hc
  · exact (partition_subset _ _).2 hc

theorem numberBody_wordText {digits : Text} (hne : digits ≠ []) (h : WordText digits) (n : Int) :
    numberBody digits n ≠ [] ∧ WordText (numberBody digits n) := by
  have hpoint : WordText (txt ".") := by decide +kernel
  have hzero : WordText (txt "0.") := by decide +kernel
  have hneg : WordText (txt "e-") := by decide +kernel
  have hpos : WordText (txt "e+") := by decide +kernel
  have htake (k : Nat) : WordText (digits.take k) := h.subset (List.take_subset _ _)
  have hdrop (k : Nat) : WordText (digits.drop k) := h.subset (List.drop_subset _ _)
  have hexponent : WordText (if 0 ≤ n - 1 then txt "e+" ++ decimal (n - 1).toNat else
      txt "e-" ++ decimal (-(n - 1)).toNat) := by
    split
    · exact hpos.append (.decimal _)
    · exact hneg.append (.decimal _)
  have hhead : digits.take 1 ≠ [] := by
    cases digits with
    | nil => exact absurd rfl hne
    | cons c rest => exact List.cons_ne_nil _ _
  rw [numberBody]
  dsimp only
  split
  · exact ⟨fun he => hne (List.append_eq_nil_iff.mp he).1, h.append (.zeros _)⟩
  · split
    · refine ⟨fun he => ?_, ((htake _).append hpoint).append (hdrop _)⟩
      have hnil := (List.append_eq_nil_iff.mp (List.append_eq_nil_iff.mp he).1).2
      exact absurd hnil (by decide)
    · split
      · refine ⟨fun he => hne (List.append_eq_nil_iff.mp he).2, (hzero.append (.zeros _)).append h⟩
      · split
        · exact ⟨fun he => hne (List.append_eq_nil_iff.mp he).1, h.append hexponent⟩
        · refine ⟨fun he => ?_, (((htake 1).append hpoint).append (hdrop 1)).append hexponent⟩
          have hnil := (List.append_eq_nil_iff.mp he).1
          exact hhead (List.append_eq_nil_iff.mp (List.append_eq_nil_iff.mp hnil).1).1

/-- A word of the canonical form: not empty, and of word characters. -/
def IsWord (t : Text) : Prop := t ≠ [] ∧ WordText t

theorem formatFloat_isWord {f : Binary64} {text : Text} (h : formatFloat f = .ok text) : IsWord text := by
  have hdef : formatFloat = formatFloat := rfl
  conv at hdef => rhs; delta formatFloat
  rw [hdef] at h
  cases f with
  | nan => cases h
  | inf negative => cases h
  | finite negative mantissa scale hc =>
    dsimp only at h
    split at h
    · obtain rfl := Except.ok.inj h
      exact ⟨by decide, by decide +kernel⟩
    · simp only [bind_eq_ok, Prod.exists, Except.ok.injEq] at h
      obtain ⟨digits, n, hdigits, rfl⟩ := h
      obtain ⟨hne, hword⟩ := shortestDigits_wordText (reprMagnitude_wordText mantissa scale) hdigits
      obtain ⟨hbody, hbodyText⟩ := numberBody_wordText hne hword n
      have hsign : WordText (if negative then txt "-" else []) := by
        cases negative <;> decide +kernel
      exact ⟨fun he => hbody (List.append_eq_nil_iff.mp he).2, hsign.append hbodyText⟩

theorem formatInt_none {i : Int} (h : Binary64.ofInt? i = none) (text : Text) : formatInt i ≠ .ok text := by
  have hdef : formatInt = formatInt := rfl
  conv at hdef => lhs; delta formatInt
  rw [← hdef]
  beta_reduce
  rw [h]
  intro heq
  obtain ⟨_, _, he⟩ := bind_eq_ok.mp heq
  cases he

theorem formatInt_isWord {i : Int} {text : Text} (h : formatInt i = .ok text) : IsWord text := by
  cases hf : Binary64.ofInt? i with
  | some f =>
    rw [ofInt?_formatInt hf] at h
    exact formatFloat_isWord h
  | none => exact absurd h (formatInt_none hf text)

/-! ### The grammar -/

theorem isWordChar_not_mem {c : CodePoint} (h : isWordChar c = true) :
    c ∉ ([0x5B, 0x5D, 0x7B, 0x7D, 0x2C, 0x22] : List CodePoint) := by
  intro hc
  simp only [List.mem_cons, List.not_mem_nil, or_false] at hc
  rcases hc with rfl | rfl | rfl | rfl | rfl | rfl <;> exact absurd h (by decide)

/-- Compact JSON, its strings escaped as little as possible. -/
def grammar : Grammar CodePoint where
  listOpen := 0x5B
  listClose := 0x5D
  objectOpen := 0x7B
  objectClose := 0x7D
  comma := 0x2C
  colon := 0x3A
  quoteMark := 0x22
  quote := formatString
  Word := IsWord
  distinct := by decide
  quote_head s := ⟨_, formatString_eq s⟩
  quote_unambiguous := formatString_unambiguous
  word_head := by
    intro w hw
    cases w with
    | nil => exact absurd rfl hw.1
    | cons c rest =>
      refine ⟨c, rest, rfl, fun hc => isWordChar_not_mem (hw.2 c List.mem_cons_self) ?_⟩
      simp only [List.mem_cons, List.not_mem_nil, or_false] at hc ⊢
      tauto
  word_free := by
    intro w hw c hc hmem
    apply isWordChar_not_mem (hw.2 c hc)
    simp only [List.mem_cons, List.not_mem_nil, or_false] at hmem ⊢
    tauto

end AitpVerifier.Jcs
