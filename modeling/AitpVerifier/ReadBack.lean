import AitpVerifier.SameValue
import AitpVerifier.SerializerCaps
import AitpVerifier.StrictParse

/-!
# Canonical text read back

The scanner undoes what the serializer writes: the escapes of a string, the numeral of
an integer and the punctuation of a container, whatever follows that may follow a value.
-/
namespace AitpVerifier

open PyText Checked Json KeySort

namespace Json

/-! ### Escapes -/

theorem hexValue?_hexDigit {d : Nat} (h : d < 16) : hexValue? (hexDigit d) = some d := by
  have hall : ∀ d < 16, hexValue? (hexDigit d) = some d := by decide
  exact hall d h

theorem hex4?_hex {v : Nat} (h : v < 0x10000) (rest : Text) : hex4? (hex 4 v ++ rest) = some (v, rest) := by
  have hdigit (n : Nat) : hexValue? (hexDigit (n % 16)) = some (n % 16) := hexValue?_hexDigit (Nat.mod_lt _ (by decide))
  simp only [hex, List.nil_append, List.cons_append, hex4?, hdigit, Option.bind_eq_bind, Option.bind_some, Option.some.injEq,
    Prod.mk.injEq, and_true]
  omega

section

variable {start rest : Text} {fuel : Nat} {c : CodePoint}

/-- A character before the rest of a string. -/
def prepend (c : CodePoint) (found : Scan (Text × Text)) : Scan (Text × Text) := do
  let (tail, rest) ← found
  .ok (c :: tail, rest)

theorem scanString_quote : scanString start (fuel + 1) (0x22 :: rest) = .ok ([], rest) := rfl

theorem scanString_plain (hquote : c ≠ 0x22) (hslash : c ≠ 0x5C) (hcontrol : 0x20 ≤ c.val) :
    scanString start (fuel + 1) (c :: rest) = prepend c (scanString start fuel rest) := by
  rw [scanString.eq_def]
  dsimp only
  rw [if_neg hquote, if_neg hslash, if_neg (Nat.not_lt.mpr hcontrol)]
  rfl

theorem scanString_named {e : CodePoint} (he : e ≠ 0x75) (hc : namedEscape? e = some c) :
    scanString start (fuel + 1) (0x5C :: e :: rest) = prepend c (scanString start fuel rest) := by
  have hquote : (0x5C : CodePoint) ≠ 0x22 := by decide
  rw [scanString, if_neg hquote, if_pos rfl]
  dsimp only
  rw [if_neg he, hc]
  rfl

/-- What an escape of four digits stands for is decided by what follows it only if it is a high surrogate. -/
theorem scanString_unicode {v : Nat} {text : Text} {d : CodePoint}
    (h : unicodeEscape (0x75 :: (hex 4 v ++ rest)) (hex 4 v ++ rest) = .ok (d, text)) :
    scanString start (fuel + 1) (0x5C :: 0x75 :: (hex 4 v ++ rest)) = prepend d (scanString start fuel text) := by
  have hquote : (0x5C : CodePoint) ≠ 0x22 := by decide
  rw [scanString, if_neg hquote, if_pos rfl]
  dsimp only
  rw [if_pos rfl, h]
  rfl

theorem unicodeEscape_alone {v : Nat} (hv : v < 0x10000) (hhigh : ¬(0xD800 ≤ v ∧ v < 0xDC00)) :
    unicodeEscape start (hex 4 v ++ rest) = .ok (Fin.ofNat _ v, rest) := by
  rw [unicodeEscape, hex4?_hex hv]
  exact if_neg hhigh

end

end Json

namespace Jcs

section

variable {start rest : Text} {fuel : Nat}

/-- A named escape is one letter after the backslash, and that letter names the character. -/
theorem namedEscape_eq_some {c : CodePoint} {escape : Text} (h : namedEscape c = some escape) :
    ∃ e, escape = [0x5C, e] ∧ e ≠ 0x75 ∧ namedEscape? e = some c := by
  have hnames {d e : CodePoint} {text : Text} (htext : text = [0x5C, e]) (he : e ≠ 0x75 ∧ namedEscape? e = some d) (hc : c = d)
      (h : some text = some escape) : ∃ e, escape = [0x5C, e] ∧ e ≠ 0x75 ∧ namedEscape? e = some c := by
    rw [← Option.some.inj h, hc]
    exact ⟨e, htext, he⟩
  unfold namedEscape at h
  split_ifs at h with h08 h09 h0A h0C h0D h22 h5C
  · exact hnames (e := 0x62) (by decide) (by decide) h08 h
  · exact hnames (e := 0x74) (by decide) (by decide) h09 h
  · exact hnames (e := 0x6E) (by decide) (by decide) h0A h
  · exact hnames (e := 0x66) (by decide) (by decide) h0C h
  · exact hnames (e := 0x72) (by decide) (by decide) h0D h
  · exact hnames (e := 0x22) (by decide) (by decide) h22 h
  · exact hnames (e := 0x5C) (by decide) (by decide) h5C h

theorem namedEscape_eq_none {c : CodePoint} (h : namedEscape c = none) : c ≠ 0x22 ∧ c ≠ 0x5C := by
  constructor
  · rintro rfl
    exact absurd h (by decide)
  · rintro rfl
    exact absurd h (by decide)

/-- An escaped character is read back. -/
theorem scanString_escapeChar (c : CodePoint) :
    scanString start (fuel + 1) (escapeChar c ++ rest) = prepend c (scanString start fuel rest) := by
  rw [escapeChar]
  cases hnamed : namedEscape c with
  | some escape =>
    obtain ⟨e, hescape, he, hc⟩ := namedEscape_eq_some hnamed
    dsimp only
    rw [hescape]
    exact scanString_named he hc
  | none =>
    obtain ⟨hquote, hslash⟩ := namedEscape_eq_none hnamed
    dsimp only
    split
    · rename_i hcontrol
      have hslashU : txt "\\u" = [0x5C, 0x75] := by decide
      have hback : Fin.ofNat _ c.val = c := Fin.ofNat_val_eq_self c
      have halone := @unicodeEscape_alone (0x75 :: (hex 4 c.val ++ rest)) rest c.val (by omega) (by omega)
      rw [hback] at halone
      rw [hslashU, List.append_assoc]
      exact scanString_unicode halone
    · rename_i hcontrol
      exact scanString_plain hquote hslash (Nat.not_lt.mp hcontrol)

/-- A quoted string is read back, up to its closing quote. -/
theorem scanString_escaped {s : Text} (h : s.length < fuel) :
    scanString start fuel (s.flatMap escapeChar ++ 0x22 :: rest) = .ok (s, rest) := by
  induction s generalizing fuel with
  | nil =>
    obtain ⟨fuel, rfl⟩ := Nat.exists_eq_succ_of_ne_zero (Nat.ne_zero_of_lt h)
    rfl
  | cons c s ih =>
    obtain ⟨fuel, rfl⟩ := Nat.exists_eq_succ_of_ne_zero (Nat.ne_zero_of_lt h)
    rw [List.flatMap_cons, List.append_assoc, scanString_escapeChar, ih (by simpa using h)]
    rfl

theorem escapeChar_ne_nil (c : CodePoint) : escapeChar c ≠ [] := by
  have hslashU : txt "\\u" = [0x5C, 0x75] := by decide
  rw [escapeChar]
  cases hnamed : namedEscape c with
  | some escape =>
    obtain ⟨e, hescape, _⟩ := namedEscape_eq_some hnamed
    simp [hescape]
  | none =>
    dsimp only
    split
    · simp [hslashU]
    · simp

theorem length_le_escaped (s : Text) : s.length ≤ (s.flatMap escapeChar).length := by
  induction s with
  | nil => exact Nat.le_refl _
  | cons c s ih =>
    have hc := List.length_pos_iff.mpr (escapeChar_ne_nil c)
    rw [List.flatMap_cons, List.length_append, List.length_cons]
    omega

end

/-! ### Values -/

variable {hooks : Hooks} {room : Nat}

/-- A text that the scanner reads as the value, whatever that may follow a value follows it. -/
def Reads (hooks : Hooks) (room : Nat) (text : Text) (v : JsonValue) : Prop :=
  ∀ rest, grammar.Ends rest → scanValue hooks room (text ++ rest) = .ok (v, rest)

/-- A text that starts a value: with no space, no closing bracket and no byte order mark. -/
def Starts (text : Text) : Prop := ∃ c rest, text = c :: rest ∧ isWhitespace c = false ∧ c ≠ 0x5D ∧ c ≠ 0xFEFF

theorem Starts.skipSpace {text : Text} (h : Starts text) (rest : Text) : skipSpace (text ++ rest) = text ++ rest := by
  obtain ⟨c, tail, rfl, hspace, _⟩ := h
  rw [List.cons_append, Json.skipSpace, List.dropWhile_cons_of_neg (by simp [hspace])]

theorem Starts.head {text : Text} (h : Starts text) (rest : Text) : (text ++ rest).head? ≠ some 0x5D := by
  obtain ⟨c, tail, rfl, _, hclose, _⟩ := h
  simpa using hclose

theorem Starts.no_mark {text : Text} (h : Starts text) : text.head? ≠ some 0xFEFF := by
  obtain ⟨c, tail, rfl, _, _, hmark⟩ := h
  simpa using hmark

theorem reads_str (s : Text) : Reads hooks room (formatString s) (.str s) := by
  intro rest _
  have hlength := length_le_escaped s
  have hbody : scanString (0x22 :: (s.flatMap escapeChar ++ 0x22 :: rest)) ((s.flatMap escapeChar ++ 0x22 :: rest).length + 1)
      (s.flatMap escapeChar ++ 0x22 :: rest) = .ok (s, rest) := by
    apply scanString_escaped
    rw [List.length_append]
    omega
  rw [formatString_eq, List.cons_append, List.append_assoc, List.singleton_append, scanValue, scanOnce.eq_def]
  dsimp only
  rw [if_pos rfl, hbody]
  rfl

theorem reads_null : Reads hooks room (txt "null") .null := by
  intro rest _
  have htext : txt "null" = [0x6E, 0x75, 0x6C, 0x6C] := by decide
  rw [htext]
  rfl

theorem reads_bool (b : Bool) : Reads hooks room (if b then txt "true" else txt "false") (.bool b) := by
  intro rest _
  have htrue : txt "true" = [0x74, 0x72, 0x75, 0x65] := by decide
  have hfalse : txt "false" = [0x66, 0x61, 0x6C, 0x73, 0x65] := by decide
  cases b with
  | true =>
    rw [if_pos rfl, htrue]
    rfl
  | false =>
    rw [if_neg Bool.false_ne_true, hfalse]
    rfl

/-! ### Integers -/

theorem isDigit_of_mem_decimal {n : Nat} {c : CodePoint} (h : c ∈ decimal n) : isDigit c = true := by
  obtain ⟨hlow, hhigh⟩ := mem_decimal h
  rw [isDigit, Bool.and_eq_true, decide_eq_true_eq, decide_eq_true_eq]
  exact ⟨hlow, hhigh⟩

/-- A numeral is read as the number it is of. -/
theorem digitsValue_decimal (n : Nat) : digitsValue (decimal n) = n := by
  have hdigits (digits : List Nat) (hlt : ∀ d ∈ digits, d < 10) :
      digitsValue (digits.reverse.map digitChar) = Nat.ofDigits 10 digits := by
    induction digits with
    | nil => rfl
    | cons d digits ih =>
      have hd : digitValue (digitChar d) = d := by
        rw [digitValue, digitChar_val (hlt d List.mem_cons_self)]
        omega
      have hrest := ih fun e he => hlt e (List.mem_cons_of_mem _ he)
      rw [digitsValue] at hrest ⊢
      rw [List.reverse_cons, List.map_append, List.foldl_append, hrest, Nat.ofDigits_cons]
      simp only [List.map_cons, List.map_nil, List.foldl_cons, List.foldl_nil, hd]
      exact Nat.add_comm _ _
  rcases Nat.eq_zero_or_pos n with rfl | hn
  · decide
  · rw [decimal_of_pos hn, hdigits _ fun d hd => Nat.digits_lt_base (by decide) hd, Nat.ofDigits_digits]

/-- What may follow a value goes on with no numeral. -/
theorem ends_cases {rest : Text} (h : grammar.Ends rest) :
    rest = [] ∨ ∃ c more, rest = c :: more ∧ (c = 0x2C ∨ c = 0x5D ∨ c = 0x7D) := by
  cases rest with
  | nil => exact .inl rfl
  | cons c more =>
    have hc := h c rfl
    simp only [Document.Grammar.terminators, grammar, List.mem_cons, List.not_mem_nil, or_false] at hc
    exact .inr ⟨c, more, rfl, hc⟩

theorem integerPart_decimal {rest : Text} (h : grammar.Ends rest) (n : Nat) : integerPart (decimal n ++ rest) = (decimal n, rest) := by
  have htake : rest.takeWhile isDigit = [] ∧ rest.dropWhile isDigit = rest := by
    rcases ends_cases h with rfl | ⟨c, more, rfl, hc⟩
    · exact ⟨rfl, rfl⟩
    · rcases hc with rfl | rfl | rfl <;> exact ⟨rfl, rfl⟩
  rcases Nat.eq_zero_or_pos n with rfl | hn
  · rw [decimal_zero]
    rfl
  · obtain ⟨c, tail, hdecimal, hzero⟩ := decimal_head hn
    have hall : ∀ d ∈ decimal n, isDigit d = true := fun d hd => isDigit_of_mem_decimal hd
    rw [integerPart.eq_def, hdecimal, List.cons_append]
    dsimp only
    rw [if_neg hzero, ← List.cons_append, ← hdecimal, List.takeWhile_append_of_pos hall, List.dropWhile_append_of_pos hall,
      htake.1, htake.2, List.append_nil]

theorem scanUnsigned_decimal {rest : Text} (h : grammar.Ends rest) {n : Nat} (hn : (decimal n).length ≤ maxIntDigits)
    (negative : Bool) (start : Text) :
    scanUnsigned negative start (decimal n ++ rest) = .ok (.int (if negative then -(n : Int) else n), rest) := by
  have hnone : fractionPart rest = none ∧ exponentPart rest = none := by
    rcases ends_cases h with rfl | ⟨c, more, rfl, hc⟩
    · exact ⟨rfl, rfl⟩
    · have hpoint : c ≠ 0x2E ∧ c ≠ 0x65 ∧ c ≠ 0x45 := by
        rcases hc with rfl | rfl | rfl <;> decide
      constructor
      · cases more with
        | nil => rfl
        | cons d more =>
          rw [fractionPart]
          exact if_neg fun hp => hpoint.1 hp.1
      · rw [exponentPart]
        exact if_neg fun he => he.elim hpoint.2.1 hpoint.2.2
  have hparse : parseInt negative (decimal n) = .ok (.int (if negative then -(n : Int) else n)) := by
    have hlength : decide (maxIntDigits < (decimal n).length) = false := decide_eq_false (Nat.not_lt.mpr hn)
    rw [parseInt, hlength, digitsValue_decimal]
    rfl
  have hne : (decimal n).isEmpty = false := List.isEmpty_eq_false_iff.mpr (decimal_ne_nil n)
  rw [scanUnsigned, integerPart_decimal h]
  dsimp only
  rw [hne, if_neg Bool.false_ne_true, hnone.1]
  rw [if_pos ⟨rfl, hnone.2⟩, hparse]
  rfl

theorem unsigned?_integerText {rest : Text} (i : Int) :
    unsigned? (integerText i ++ rest) = some (decide (i < 0), decimal i.natAbs ++ rest) := by
  have hsign : txt "-" = [0x2D] := by decide
  by_cases hi : i < 0
  · rw [integerText, if_pos hi, hsign, List.singleton_append, List.cons_append, unsigned?, if_pos rfl, decide_eq_true hi]
  · rw [integerText, if_neg hi, List.nil_append, decide_eq_false hi]
    cases hdecimal : decimal i.natAbs with
    | nil => exact absurd hdecimal (decimal_ne_nil _)
    | cons c tail =>
      have hdigit : isDigit c = true := isDigit_of_mem_decimal (n := i.natAbs) (by rw [hdecimal]; exact List.mem_cons_self)
      have hminus : c ≠ 0x2D := by
        rintro rfl
        cases hdigit
      rw [List.cons_append, unsigned?, if_neg hminus, if_pos hdigit]

theorem reads_int {i : Int} (hi : (decimal i.natAbs).length ≤ maxIntDigits) : Reads hooks room (integerText i) (.int i) := by
  intro rest hrest
  have hstart := @unsigned?_integerText rest i
  have hnumber : ¬NoNumber (integerText i ++ rest) := by
    intro hnone
    have hpart := hnone _ _ hstart
    rw [integerPart_decimal hrest] at hpart
    exact decimal_ne_nil _ hpart
  have hleaf : LeafScan hooks (integerText i ++ rest) (scanValue hooks room (integerText i ++ rest)) := by
    apply scanValue_leaf
    · intro more h
      rw [h] at hstart
      cases hstart
    · intro more h
      rw [h] at hstart
      cases hstart
  generalize scanValue hooks room (integerText i ++ rest) = found at hleaf ⊢
  cases hleaf with
  | word _ hnone => exact absurd hnone hnumber
  | constant hnone => exact absurd hnone hnumber
  | malformed hnone => exact absurd hnone hnumber
  | number hs =>
    rw [hstart, Option.some.injEq, Prod.mk.injEq] at hs
    rw [← hs.1, ← hs.2, scanUnsigned_decimal hrest hi]
    have hvalue : (if decide (i < 0) = true then -(i.natAbs : Int) else (i.natAbs : Int)) = i := by
      simp only [decide_eq_true_eq]
      omega
    rw [hvalue]

/-! ### Containers -/

theorem scanArray_last {first : Bool} {s rest : Text} {item : JsonValue} (hstart : s.head? ≠ some 0x5D)
    (hitem : scanValue hooks room s = .ok (item, 0x5D :: rest)) : scanArray hooks room first s = .ok ([item], rest) := by
  have hvalue : scanOnce hooks (2 * s.length + 1) room s = scanValue hooks room s := rfl
  rw [scanArray, scanItems, hvalue, if_neg fun h => hstart h.2, hitem]
  rfl

theorem scanArray_comma {first : Bool} {s more rest : Text} {item : JsonValue} {items : List JsonValue}
    (hstart : s.head? ≠ some 0x5D) (hitem : scanValue hooks room s = .ok (item, 0x2C :: more))
    (hitems : scanArray hooks room false (skipSpace more) = .ok (items, rest)) :
    scanArray hooks room first s = .ok (item :: items, rest) := by
  have hvalue : scanOnce hooks (2 * s.length + 1) room s = scanValue hooks room s := rfl
  have hcomma : skipSpace (0x2C :: more) = 0x2C :: more := rfl
  have hafter := scanItems_after hitem hcomma
  rw [hitems] at hafter
  rw [scanArray, scanItems, hvalue, if_neg fun h => hstart h.2, hitem]
  simp only [ok_bind, hcomma]
  rw [if_neg (by decide), if_pos trivial, hafter]
  rfl

/-- The items of an array, from any of them to the bracket. -/
theorem scanArray_separated {items : List JsonValue} {text : JsonValue → Text} {read : JsonValue → JsonValue}
    (hitems : ∀ item ∈ items, Reads hooks room (text item) (read item) ∧ Starts (text item)) {item : JsonValue}
    (hitem : Reads hooks room (text item) (read item) ∧ Starts (text item)) (first : Bool) (rest : Text) :
    scanArray hooks room first (text item ++ (grammar.separated false (items.map text) ++ 0x5D :: rest)) =
      .ok (read item :: items.map read, rest) := by
  have hend (more : Text) : grammar.Ends (0x5D :: more) ∧ grammar.Ends (0x2C :: more) :=
    ⟨grammar.ends_cons (by decide), grammar.ends_cons (by decide)⟩
  induction items generalizing item first with
  | nil => exact scanArray_last (hitem.2.head _) (hitem.1 _ (hend rest).1)
  | cons next items ih =>
    have hnext := hitems next List.mem_cons_self
    have hcomma : grammar.separated false ((next :: items).map text) ++ 0x5D :: rest =
        0x2C :: (text next ++ (grammar.separated false (items.map text) ++ 0x5D :: rest)) := by
      simp [Document.Grammar.separated, grammar]
    rw [hcomma]
    refine scanArray_comma (hitem.2.head _) (hitem.1 _ (hend _).2) ?_
    rw [hnext.2.skipSpace]
    exact ih (fun other hm => hitems other (List.mem_cons_of_mem _ hm)) hnext false

theorem reads_list {items : List JsonValue} {text : JsonValue → Text} {read : JsonValue → JsonValue}
    (h : ∀ item ∈ items, Reads hooks room (text item) (read item) ∧ Starts (text item)) :
    Reads hooks (room + 1) (0x5B :: (grammar.separated true (items.map text) ++ [0x5D])) (.list (items.map read)) := by
  intro rest _
  rw [List.cons_append, List.append_assoc, List.singleton_append, scanValue_array]
  cases items with
  | nil =>
    have hempty : scanArray hooks room true (skipSpace (0x5D :: rest)) = .ok ([], rest) := rfl
    have htext : grammar.separated true (([] : List JsonValue).map text) ++ 0x5D :: rest = 0x5D :: rest := rfl
    rw [htext, hempty]
    rfl
  | cons item items =>
    have hitem := h item List.mem_cons_self
    have htext : grammar.separated true ((item :: items).map text) ++ 0x5D :: rest =
        text item ++ (grammar.separated false (items.map text) ++ 0x5D :: rest) := by
      simp [Document.Grammar.separated]
    rw [htext, hitem.2.skipSpace, scanArray_separated (fun other hm => h other (List.mem_cons_of_mem _ hm)) hitem]
    rfl

/-! ### Objects -/

theorem named_member (name : Text) (text : Text) : Named (formatString name ++ 0x3A :: text) name text := by
  have hlength := length_le_escaped name
  have hname : scanString (0x22 :: (name.flatMap escapeChar ++ 0x22 :: 0x3A :: text))
      ((name.flatMap escapeChar ++ 0x22 :: 0x3A :: text).length + 1) (name.flatMap escapeChar ++ 0x22 :: 0x3A :: text) =
      .ok (name, 0x3A :: text) := by
    apply scanString_escaped
    rw [List.length_append]
    omega
  rw [formatString_eq, List.cons_append, List.append_assoc, List.singleton_append]
  exact ⟨_, _, rfl, hname, rfl⟩

section

variable {first : Bool} {s name text rest : Text} {value : JsonValue}

/-- One member is read, and what follows it decides the rest. -/
theorem scanObject_member (hnamed : Named s name text) {after : Text}
    (hvalue : scanValue hooks room (skipSpace text) = .ok (value, after)) :
    scanObject hooks room first s =
      match skipSpace after with
      | [] => .error (.malformed (txt "Expecting ',' delimiter") (skipSpace after))
      | d :: more =>
        if d = 0x7D then .ok ([(name, value)], more)
        else if d = 0x2C then do
          let (members, rest) ← scanMembers hooks (2 * s.length + 1) room false (skipSpace more)
          .ok ((name, value) :: members, rest)
        else .error (.malformed (txt "Expecting ',' delimiter") (skipSpace after)) := by
  have honce : scanOnce hooks (2 * s.length + 1) room (skipSpace text) = scanValue hooks room (skipSpace text) := hnamed.once
  obtain ⟨tail, afterName, rfl, hname, hcolon⟩ := hnamed
  have hhead : (skipSpace afterName).head? = some 0x3A := by rw [hcolon, List.head?_cons]
  rw [scanObject, scanMembers]
  rw [if_neg (fun h => absurd h.2 (by decide)), if_neg (not_not.mpr rfl), hname]
  simp only [ok_bind]
  rw [if_neg (not_not.mpr hhead), hcolon, List.drop_one, List.tail_cons, honce, hvalue]
  rfl

theorem scanObject_last (hnamed : Named s name text) (hvalue : scanValue hooks room (skipSpace text) = .ok (value, 0x7D :: rest)) :
    scanObject hooks room first s = .ok ([(name, value)], rest) := by
  rw [scanObject_member hnamed hvalue]
  rfl

theorem scanObject_comma (hnamed : Named s name text) {more : Text} {members : Members}
    (hvalue : scanValue hooks room (skipSpace text) = .ok (value, 0x2C :: more))
    (hmembers : scanObject hooks room false (skipSpace more) = .ok (members, rest)) :
    scanObject hooks room first s = .ok ((name, value) :: members, rest) := by
  have hcomma : skipSpace (0x2C :: more) = 0x2C :: more := rfl
  have hafter := scanMembers_after hnamed hvalue hcomma
  rw [hmembers] at hafter
  rw [scanObject_member hnamed hvalue, hcomma]
  dsimp only
  rw [if_neg (by decide), if_pos rfl, hafter]
  rfl

end

/-- The text of a member. -/
def memberText (text : JsonValue → Text) (m : Text × JsonValue) : Text := grammar.member m.1 (text m.2)

theorem skipSpace_quoted (name tail : Text) : skipSpace (formatString name ++ tail) = formatString name ++ tail := by
  rw [formatString_eq]
  rfl

/-- The members of an object, from any of them to the brace. -/
theorem scanObject_separated {members : Members} {text : JsonValue → Text} {read : JsonValue → JsonValue}
    (hmembers : ∀ m ∈ members, Reads hooks room (text m.2) (read m.2) ∧ Starts (text m.2)) {m : Text × JsonValue}
    (hm : Reads hooks room (text m.2) (read m.2) ∧ Starts (text m.2)) (first : Bool) (rest : Text) :
    scanObject hooks room first (memberText text m ++ (grammar.separated false (members.map (memberText text)) ++ 0x7D :: rest)) =
      .ok ((m.1, read m.2) :: members.map (fun m => (m.1, read m.2)), rest) := by
  have hend (more : Text) : grammar.Ends (0x7D :: more) ∧ grammar.Ends (0x2C :: more) :=
    ⟨grammar.ends_cons (by decide), grammar.ends_cons (by decide)⟩
  have hsplit (m : Text × JsonValue) (tail : Text) : memberText text m ++ tail = formatString m.1 ++ 0x3A :: (text m.2 ++ tail) := by
    simp [memberText, Document.Grammar.member, grammar]
  induction members generalizing m first with
  | nil =>
    have hlast : grammar.separated false (([] : Members).map (memberText text)) ++ 0x7D :: rest = 0x7D :: rest := rfl
    rw [hlast, hsplit]
    refine scanObject_last (named_member _ _) ?_
    rw [hm.2.skipSpace]
    exact hm.1 _ (hend rest).1
  | cons next members ih =>
    have hnext := hmembers next List.mem_cons_self
    have hcomma : grammar.separated false ((next :: members).map (memberText text)) ++ 0x7D :: rest =
        0x2C :: (memberText text next ++ (grammar.separated false (members.map (memberText text)) ++ 0x7D :: rest)) := by
      simp [Document.Grammar.separated, grammar]
    have hlater := ih (fun other ho => hmembers other (List.mem_cons_of_mem _ ho)) hnext false
    rw [hcomma, hsplit]
    have hvalue : scanValue hooks room (skipSpace (text m.2 ++ 0x2C :: (memberText text next ++
        (grammar.separated false (members.map (memberText text)) ++ 0x7D :: rest)))) = .ok (read m.2, 0x2C :: (memberText text next ++
        (grammar.separated false (members.map (memberText text)) ++ 0x7D :: rest))) := by
      rw [hm.2.skipSpace]
      exact hm.1 _ (hend _).2
    refine scanObject_comma (named_member _ _) hvalue ?_
    rw [hsplit next, skipSpace_quoted, ← hsplit next]
    exact hlater

theorem reads_dict {members : Members} {text : JsonValue → Text} {read : JsonValue → JsonValue}
    (h : ∀ m ∈ members, Reads hooks room (text m.2) (read m.2) ∧ Starts (text m.2))
    (hpairs : hooks.objectPairs (members.map fun m => (m.1, read m.2)) = .ok (.dict (members.map fun m => (m.1, read m.2)))) :
    Reads hooks (room + 1) (0x7B :: (grammar.separated true (members.map (memberText text)) ++ [0x7D]))
      (.dict (members.map fun m => (m.1, read m.2))) := by
  intro rest _
  rw [List.cons_append, List.append_assoc, List.singleton_append, scanValue_object]
  cases members with
  | nil =>
    have hempty : scanObject hooks room true (skipSpace (0x7D :: rest)) = .ok ([], rest) := rfl
    have htext : grammar.separated true (([] : Members).map (memberText text)) ++ 0x7D :: rest = 0x7D :: rest := rfl
    rw [htext, hempty, ok_bind]
    dsimp only
    rw [← List.map_nil (f := fun m : Text × JsonValue => (m.1, read m.2)), hpairs]
    rfl
  | cons m members =>
    have hm := h m List.mem_cons_self
    have htext : grammar.separated true ((m :: members).map (memberText text)) ++ 0x7D :: rest =
        memberText text m ++ (grammar.separated false (members.map (memberText text)) ++ 0x7D :: rest) := by
      simp [Document.Grammar.separated]
    have hscan := scanObject_separated (fun other ho => h other (List.mem_cons_of_mem _ ho)) hm true rest
    have hstart : skipSpace (memberText text m ++ (grammar.separated false (members.map (memberText text)) ++ 0x7D :: rest)) =
        memberText text m ++ (grammar.separated false (members.map (memberText text)) ++ 0x7D :: rest) := by
      rw [memberText, Document.Grammar.member, List.append_assoc]
      exact skipSpace_quoted _ _
    rw [List.map_cons] at hpairs
    rw [htext, hstart, hscan, ok_bind]
    dsimp only
    rw [hpairs]
    rfl

/-! ### Documents -/

/-- The value as it is read back: every object with its members in the order written. -/
def arrange : JsonValue → JsonValue
  | .list items => .list (items.map arrange)
  | .dict members => .dict (sortBy (fun m => codeUnits m.1) (members.map fun m => (m.1, arrange m.2)))
  | v => v
termination_by v => sizeOf v
decreasing_by
  · have := List.sizeOf_lt_of_mem ‹_›
    simp only [JsonValue.list.sizeOf_spec]
    omega
  · rename_i hm
    have := List.sizeOf_lt_of_mem hm
    obtain ⟨name, v⟩ := m
    simp only [JsonValue.dict.sizeOf_spec, Prod.mk.sizeOf_spec] at this ⊢
    omega

theorem arrange_list (items : List JsonValue) : arrange (.list items) = .list (items.map arrange) := by rw [arrange]

theorem arrange_dict (members : List (Text × JsonValue)) :
    arrange (.dict members) = .dict (sortBy (fun m => codeUnits m.1) (members.map fun m => (m.1, arrange m.2))) := by
  rw [arrange]

theorem starts_of_word {text : Text} (h : IsWord text) : Starts text := by
  obtain ⟨hne, hword⟩ := h
  cases text with
  | nil => exact absurd rfl hne
  | cons c rest =>
    have hc := hword c List.mem_cons_self
    have hplus : (0x2B : CodePoint).val = 0x2B := rfl
    have hminus : (0x2D : CodePoint).val = 0x2D := rfl
    have hpoint : (0x2E : CodePoint).val = 0x2E := rfl
    simp only [isWordChar, Bool.or_eq_true, Bool.and_eq_true, decide_eq_true_eq, beq_iff_eq, Fin.ext_iff] at hc
    refine ⟨c, rest, rfl, ?_, ?_, ?_⟩
    · simp only [isWhitespace, Bool.or_eq_false_iff, beq_eq_false_iff_ne, ne_eq, Fin.ext_iff]
      omega
    · rintro rfl
      omega
    · rintro rfl
      omega

/-- A document starts as a value does. -/
theorem starts_doc {v : JsonValue} (h : v.Exact) : Starts (grammar.text (doc v)) := by
  have hspelled := h.formats.spelled
  cases h with
  | null | bool | int =>
    rw [doc] at hspelled ⊢
    rw [Document.Grammar.text_word]
    cases hspelled with
    | word hword => exact starts_of_word hword
  | str =>
    rw [doc, Document.Grammar.text_str]
    exact ⟨_, _, formatString_eq _, rfl, by decide, by decide⟩
  | list =>
    rw [doc_list, Document.Grammar.text_list]
    exact ⟨_, _, rfl, rfl, by decide, by decide⟩
  | dict =>
    rw [doc_dict, Document.Grammar.text_object]
    exact ⟨_, _, rfl, rfl, by decide, by decide⟩

/-- The hooks let an object through that repeats no name. -/
def Admit (hooks : Hooks) : Prop := ∀ pairs : Members, pairs.names.Nodup → hooks.objectPairs pairs = .ok (.dict pairs)

/-- Members are arranged by name, whatever stands for their values. -/
theorem sortBy_values {β : Type} (f : JsonValue → β) (members : Members) :
    sortBy (fun m => codeUnits m.1) (members.map fun m => (m.1, f m.2)) =
      (sortBy (fun m => codeUnits m.1) members).map fun m => (m.1, f m.2) := (map_sortBy fun _ _ => rfl).symm

theorem names_values {β : Type} (f : JsonValue → β) (members : Members) :
    (members.map fun m => (m.1, f m.2)).map Prod.fst = members.names := by
  rw [List.map_map]
  rfl

theorem names_sortBy (members : Members) : (Members.names (sortBy (fun m => codeUnits m.1) members)).Perm members.names :=
  (sortBy_perm _ members).map _

/-- The text of a value's document is read as the value, its members in order. -/
theorem reads_doc (hhooks : Admit hooks) {v : JsonValue} (h : v.Exact) (hroom : v.Within room) :
    Reads hooks room (grammar.text (doc v)) (arrange v) := by
  induction h generalizing room with
  | null =>
    rw [doc, Document.Grammar.text_word, arrange]
    · exact reads_null
    all_goals simp
  | bool =>
    rw [doc, Document.Grammar.text_word, arrange]
    · exact reads_bool _
    all_goals simp
  | @int i hi =>
    have hlength : (decimal i.natAbs).length ≤ 16 := decimal_length_le (by decide) (by omega)
    rw [doc, Document.Grammar.text_word, spelling_of_ok (formatInt_eq hi), arrange]
    · exact reads_int (hlength.trans (by decide))
    all_goals simp
  | str =>
    rw [doc, Document.Grammar.text_str, arrange]
    · exact reads_str _
    all_goals simp
  | @list items hitems ih =>
    cases room with
    | zero => exact absurd hroom id
    | succ room =>
      have hread := @reads_list _ _ _ (fun v => grammar.text (doc v)) arrange
        fun item hm => ⟨ih item hm (hroom item hm), starts_doc (hitems item hm)⟩
      rw [doc_list, Document.Grammar.text_list, List.map_map, arrange_list]
      exact hread
  | @dict members hnodup _ hvalues ih =>
    cases room with
    | zero => exact absurd hroom id
    | succ room =>
      have hpairs := hhooks ((sortBy (fun m => codeUnits m.1) members).map fun m => (m.1, arrange m.2)) <| by
        rw [Members.names, names_values]
        exact (names_sortBy members).nodup_iff.mpr hnodup
      have hread := @reads_dict _ _ _ (fun v => grammar.text (doc v)) arrange
        (fun m hm => ⟨ih m (mem_sortBy.mp hm) (hroom m (mem_sortBy.mp hm)), starts_doc (hvalues m (mem_sortBy.mp hm))⟩) hpairs
      rw [doc_dict, Document.Grammar.text_object, sortBy_values, List.map_map, arrange_dict, sortBy_values]
      exact hread

/-- What is read back is the value. -/
theorem same_arrange {v : JsonValue} (h : v.Distinct) : v.Same (arrange v) := by
  induction h with
  | null | bool | int | float | str =>
    rw [arrange]
    · constructor
    all_goals simp
  | list _ ih =>
    rw [arrange_list]
    refine .list (List.length_map _).symm fun i hi hi' => ?_
    rw [List.getElem_map]
    exact ih _ (List.getElem_mem hi)
  | @dict members hnodup _ ih =>
    rw [arrange_dict, sortBy_values]
    have hnames : (Members.names ((sortBy (fun m => codeUnits m.1) members).map fun m => (m.1, arrange m.2))) =
        Members.names (sortBy (fun m => codeUnits m.1) members) := names_values _ _
    refine .dict ?_ fun name hname => ?_
    · rw [hnames]
      exact (names_sortBy members).symm
    · obtain ⟨m, hm, rfl⟩ := List.mem_map.mp hname
      have hmember : (m.1, arrange m.2) ∈ (sortBy (fun m => codeUnits m.1) members).map fun m => (m.1, arrange m.2) :=
        List.mem_map_of_mem (mem_sortBy.mpr hm)
      have hunique := hnames.symm ▸ (names_sortBy members).nodup_iff.mpr hnodup
      have hget := Members.get_of_mem hunique hmember
      rw [Members.get_of_mem hnodup hm, hget]
      exact ih m hm

/-! ### The strict parser -/

variable {I : Interpreter}

theorem strictHooks_admit : Admit (strictHooks I) := by
  intro pairs hpairs
  have hgo (obj rest : Members) (h : (Members.names (obj ++ rest)).Nodup) :
      rejectDuplicateKeys.go I obj rest = .ok (.dict (obj ++ rest)) := by
    induction rest generalizing obj with
    | nil => rw [rejectDuplicateKeys.go, List.append_nil]
    | cons m rest ih =>
      obtain ⟨key, value⟩ := m
      have hnew : obj.has key ≠ true := by
        intro hhas
        rw [Members.names, List.map_append, List.nodup_append] at h
        exact h.2.2 key (Members.mem_names_iff.mpr hhas) key List.mem_cons_self rfl
      rw [rejectDuplicateKeys.go, if_neg hnew, ih _ (by rwa [List.append_assoc]), List.append_assoc]
      rfl
  exact hgo [] pairs hpairs

/-- The strict parser on the octets of a text that its scanner reads. -/
theorem loads_of_reads {text : Text} {v : JsonValue} {octets : Bytes} (hreads : Reads (strictHooks I) I.parseDepth text v)
    (hstarts : Starts text) (hoctets : utf8? text = some octets) :
    loads I octets = .ok v := by
  obtain ⟨hwell, rfl⟩ := utf8?_eq_some_iff.mp hoctets
  have hskip : skipSpace text = text := by
    have h := hstarts.skipSpace []
    rwa [List.append_nil] at h
  have hscan : scanValue (strictHooks I) I.parseDepth text = .ok (v, []) := by
    have h := hreads [] grammar.ends_nil
    rwa [List.append_nil] at h
  rw [loads_decoded (utf8Decode?_encoded hwell), rescue_eq_ok, loads_scanned, hskip]
  exact ⟨hstarts.no_mark, [], hscan, rfl⟩

/-- The strict parser reads a canonical form back as the value it is of. -/
theorem loads_canonicalize {v : JsonValue} (h : Canonicalizable v) (hdepth : maxDepth < I.parseDepth) {octets : Bytes}
    (hoctets : canonicalize v = .ok octets) : loads I octets = .ok (arrange v) := by
  obtain ⟨octets', hoctets', hwrites⟩ := h.canonicalize
  obtain rfl := Except.ok.inj (hoctets.symm.trans hoctets')
  have hroom : v.Within I.parseDepth := by
    have hcapped := JsonValue.within_iff.mp h.depth
    exact JsonValue.within_iff.mpr (by omega)
  exact loads_of_reads (reads_doc strictHooks_admit h.exact hroom) (starts_doc h.exact) hwrites.2

end Jcs

end AitpVerifier
