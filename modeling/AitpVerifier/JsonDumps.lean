import AitpVerifier.FloatText
import AitpVerifier.Minted
import AitpVerifier.StrictParse

/-!
# `json.dumps`

The encoder a response is written with: compact, ASCII, members in the order they stand.
It writes infinities too, as words that JSON does not have, so its text is JSON exactly
when every number is finite.
-/
namespace AitpVerifier

open PyText Checked JsonGrammar

/-- Containers nest at most `levels` deep. -/
def JsonValue.Nests : Nat → JsonValue → Prop
  | 0, .list _ => False
  | 0, .dict _ => False
  | levels + 1, .list items => ∀ item ∈ items, Nests levels item
  | levels + 1, .dict members => ∀ m ∈ (members : List (Text × JsonValue)), Nests levels m.2
  | _, _ => True

namespace Json

/-- `float.__repr__`, and a word for what has none in JSON. -/
def dumpsFloat (f : Binary64) : Text :=
  match f with
  | .nan => txt "NaN"
  | .inf negative => if negative then txt "-Infinity" else txt "Infinity"
  | .finite .. => f.repr

def encodedTooDeep : PyErr := .raised .recursion (txt "maximum recursion depth exceeded while encoding a JSON object")

/-- `json.dumps(value, separators=(",", ":"))`, `levels` of containers before the stack is
exhausted. -/
def dumps : Nat → JsonValue → PyM Text
  | _, .null => .ok (txt "null")
  | _, .bool b => .ok (if b then txt "true" else txt "false")
  | _, .int i => intText i
  | _, .float f => .ok (dumpsFloat f)
  | _, .str s => .ok (dumpsString s)
  | 0, .list _ => .error encodedTooDeep
  | 0, .dict _ => .error encodedTooDeep
  | levels + 1, .list items => do
    let parts ← collect (dumps levels) items
    .ok ([0x5B] ++ commas parts ++ [0x5D])
  | levels + 1, .dict members => do
    let parts ← collect (fun m => do
      let text ← dumps levels m.2
      .ok (dumpsString m.1 ++ [0x3A] ++ text)) members
    .ok ([0x7B] ++ commas parts ++ [0x7D])

variable {levels : Nat}

/-! ### What is written at all -/

theorem intText_isOk {i : Int} : (intText i).isOk ↔ (JsonValue.int i).Short := by
  rw [intText]
  by_cases hlong : maxIntDigits < (decimal i.natAbs).length
  · refine iff_of_false ?_ fun h => ?_
    · simp [raiseIf, hlong, error_bind, Except.isOk, Except.toBool]
    · cases h with
      | int hshort => exact absurd hlong (Nat.not_lt.mpr hshort)
  · refine iff_of_true ?_ (.int (Nat.not_lt.mp hlong))
    simp [raiseIf, hlong, ok_bind, Except.isOk, Except.toBool]

/-- A value is written when its integers are short and its containers have room. -/
theorem dumps_isOk {v : JsonValue} : (dumps levels v).isOk ↔ v.Short ∧ v.Nests levels := by
  induction v using JsonValue.induct generalizing levels with
  | null | bool b | float f | str s =>
    refine iff_of_true ?_ ⟨by constructor, ?_⟩
    · rw [dumps]
      rfl
    · cases levels <;> trivial
  | int i =>
    have hnests : (JsonValue.int i).Nests levels := by cases levels <;> trivial
    rw [dumps, intText_isOk, and_iff_left hnests]
  | list items ih =>
    cases levels with
    | zero => exact iff_of_false nofun fun h => h.2
    | succ levels =>
      rw [dumps, map_isOk, collect_isOk, List.all_eq_true, JsonValue.Nests]
      have hshort : (JsonValue.list items).Short ↔ ∀ item ∈ items, item.Short :=
        ⟨fun h => by cases h; assumption, .list⟩
      rw [hshort, ← forall₂_and]
      exact forall₂_congr fun item hitem => ih item hitem
  | dict members ih =>
    cases levels with
    | zero => exact iff_of_false nofun fun h => h.2
    | succ levels =>
      rw [dumps, map_isOk, collect_isOk, List.all_eq_true, JsonValue.Nests]
      have hshort : (JsonValue.dict members).Short ↔ ∀ m ∈ members, m.2.Short :=
        ⟨fun h => by cases h; assumption, .dict⟩
      rw [hshort, ← forall₂_and]
      refine forall₂_congr fun m hm => ?_
      rw [map_isOk]
      exact ih m hm

/-! ### Strings and numbers -/

theorem hexDigit_isHexDigit (v : Nat) : IsHexDigit (hexDigit (v % 16)) := by
  have hall : ∀ d < 16, IsDigit (hexDigit d) ∨ 0x61 ≤ (hexDigit d).val ∧ (hexDigit d).val ≤ 0x66 := by
    unfold IsDigit
    decide
  rcases hall _ (Nat.mod_lt v (by decide)) with h | h
  · exact .inl h
  · exact .inr (.inl h)

theorem piece_unicode (v : Nat) : Piece (0x5C :: 0x75 :: hex 4 v) := by
  simp only [hex, List.nil_append, List.cons_append]
  exact .unicode (hexDigit_isHexDigit _) (hexDigit_isHexDigit _) (hexDigit_isHexDigit _) (hexDigit_isHexDigit _)

theorem namedEscape?_letter {e c : CodePoint} (h : namedEscape? e = some c) : e ∈ escapeLetters := by
  by_contra hnot
  simp only [escapeLetters, List.mem_cons, List.not_mem_nil, or_false, not_or] at hnot
  obtain ⟨h1, h2, h3, h4, h5, h6, h7, h8⟩ := hnot
  rw [namedEscape?, if_neg h1, if_neg h2, if_neg h3, if_neg h4, if_neg h5, if_neg h6, if_neg h7, if_neg h8] at h
  cases h

theorem dumpsChar_pieces (c : CodePoint) : Pieces (dumpsChar c) := by
  have hdumped := dumped c
  generalize dumpsChar c = text at hdumped ⊢
  cases hdumped with
  | named _ _ hc => exact (Piece.escape (namedEscape?_letter hc)).pieces
  | plain hquote hslash hlow _ => exact (Piece.plain hlow hquote hslash).pieces
  | unit => exact (piece_unicode _).pieces
  | pair => exact (piece_unicode _).pieces.append (piece_unicode _).pieces

theorem dumpsString_quoted (s : Text) : Quoted (dumpsString s) := by
  have hbody : Pieces (s.flatMap dumpsChar) := by
    induction s with
    | nil => exact pieces_nil
    | cons c rest ih =>
      rw [List.flatMap_cons]
      exact (dumpsChar_pieces c).append ih
  rw [dumpsString_eq]
  exact hbody.quoted

theorem intText_number {i : Int} {text : Text} (h : intText i = .ok text) : Number text := by
  have hwhole : Whole (decimal i.natAbs) := by
    by_cases hzero : i.natAbs = 0
    · rw [hzero]
      exact .inl decimal_zero
    · obtain ⟨c, rest, heq, hc⟩ := decimal_head (Nat.pos_of_ne_zero hzero)
      exact .inr ⟨decimal_digits _, by rw [heq]; simpa using hc⟩
  simp only [intText, bind_eq_ok, exists_unit, Except.ok.injEq] at h
  have hsigned := @Number.signed (decide (i < 0)) (decimal i.natAbs) ⟨_, [], [], hwhole, .absent, .absent, by simp⟩
  rw [← h.2]
  simpa using hsigned

/-! ### Texts of JSON -/

theorem dumpsFloat_element {f : Binary64} (h : f.isFinite = true) : Element (dumpsFloat f) := by
  cases f with
  | nan | inf negative => cases h
  | finite => exact .number (repr_number h)

theorem dumpsFloat_loud {f : Binary64} (h : f.isFinite = false) : Loud (dumpsFloat f) := by
  cases f with
  | nan =>
    unfold Loud
    decide +kernel
  | inf negative =>
    unfold Loud
    cases negative <;> decide +kernel
  | finite => cases h

theorem bracketed_loud {opening closing : CodePoint} {parts : List Text} (hopen : Quiet [opening])
    (h : ∀ p ∈ parts, Quiet p ∨ Loud p) (hloud : ∃ p ∈ parts, Loud p) : Loud ([opening] ++ commas parts ++ [closing]) :=
  (hopen.append_loud (loud_commas h hloud)).append_right _

/-- What is written is JSON when every number is finite, and is heard not to be otherwise. -/
theorem dumps_json {v : JsonValue} {text : Text} (h : dumps levels v = .ok text) :
    (v.Finite → Element text) ∧ (¬ v.Finite → Loud text) := by
  induction v using JsonValue.induct generalizing levels text with
  | null =>
    rw [dumps] at h
    cases h
    exact ⟨fun _ => .null, fun hn => absurd .null hn⟩
  | bool b =>
    rw [dumps] at h
    cases h
    refine ⟨fun _ => ?_, fun hn => absurd .bool hn⟩
    cases b
    · exact .false
    · exact .true
  | int i =>
    rw [dumps] at h
    exact ⟨fun _ => .number (intText_number h), fun hn => absurd .int hn⟩
  | float f =>
    rw [dumps] at h
    cases h
    rw [JsonValue.finite_float]
    exact ⟨dumpsFloat_element, fun hn => dumpsFloat_loud (Bool.eq_false_iff.mpr hn)⟩
  | str s =>
    rw [dumps] at h
    cases h
    exact ⟨fun _ => .string (dumpsString_quoted s), fun hn => absurd .str hn⟩
  | list items ih =>
    cases levels with
    | zero => cases h
    | succ levels =>
      obtain ⟨parts, hparts, htext⟩ := bind_eq_ok.mp h
      cases htext
      rw [JsonValue.finite_list]
      constructor
      · intro hfinite
        refine array_element fun p hp => ?_
        obtain ⟨item, hitem, hp⟩ := (mem_collect hparts).mp hp
        exact (ih item hitem hp).1 (hfinite item hitem)
      · intro hn
        refine bracketed_loud rfl (fun p hp => ?_) ?_
        · obtain ⟨item, hitem, hp⟩ := (mem_collect hparts).mp hp
          by_cases hfinite : item.Finite
          · exact .inl ((ih item hitem hp).1 hfinite).quiet
          · exact .inr ((ih item hitem hp).2 hfinite)
        · push Not at hn
          obtain ⟨item, hitem, hinfinite⟩ := hn
          obtain ⟨p, hp, hdumps⟩ := exists_mem_of_collect hparts hitem
          exact ⟨p, hp, (ih item hitem hdumps).2 hinfinite⟩
  | dict members ih =>
    cases levels with
    | zero => cases h
    | succ levels =>
      obtain ⟨parts, hparts, htext⟩ := bind_eq_ok.mp h
      cases htext
      have hpart {p : Text} (hp : p ∈ parts) : ∃ m ∈ members, ∃ text, dumps levels m.2 = .ok text ∧
          p = dumpsString m.1 ++ [0x3A] ++ text := by
        obtain ⟨m, hm, hp⟩ := (mem_collect hparts).mp hp
        obtain ⟨text, htext, hp⟩ := bind_eq_ok.mp hp
        exact ⟨m, hm, text, htext, (Except.ok.inj hp).symm⟩
      have hname (m : Text × JsonValue) : Quiet (dumpsString m.1 ++ [0x3A]) := (dumpsString_quoted m.1).quiet.append rfl
      rw [JsonValue.finite_dict]
      constructor
      · intro hfinite
        refine object_element fun p hp => ?_
        obtain ⟨m, hm, text, htext, rfl⟩ := hpart hp
        exact ⟨_, text, (dumpsString_quoted m.1).name, (ih m hm htext).1 (hfinite m hm), rfl⟩
      · intro hn
        refine bracketed_loud rfl (fun p hp => ?_) ?_
        · obtain ⟨m, hm, text, htext, rfl⟩ := hpart hp
          by_cases hfinite : m.2.Finite
          · exact .inl ((hname m).append ((ih m hm htext).1 hfinite).quiet)
          · exact .inr ((hname m).append_loud ((ih m hm htext).2 hfinite))
        · push Not at hn
          obtain ⟨m, hm, hinfinite⟩ := hn
          obtain ⟨p, hp, hdumps⟩ := exists_mem_of_collect hparts hm
          obtain ⟨text, htext, heq⟩ := bind_eq_ok.mp hdumps
          cases heq
          exact ⟨_, hp, (hname m).append_loud ((ih m hm htext).2 hinfinite)⟩

/-- No control character is written, so what is written is one line. -/
theorem dumps_printed {v : JsonValue} {text : Text} (h : dumps levels v = .ok text) : Printed text := by
  induction v using JsonValue.induct generalizing levels text with
  | null =>
    rw [dumps] at h
    cases h
    decide
  | bool b =>
    rw [dumps] at h
    cases h
    cases b <;> decide
  | int i =>
    rw [dumps] at h
    exact (intText_number h).printed
  | float f =>
    rw [dumps] at h
    cases h
    cases f with
    | nan => decide
    | inf negative => cases negative <;> decide
    | finite negative mantissa scale hc => exact (@repr_number (.finite negative mantissa scale hc) rfl).printed
  | str s =>
    rw [dumps] at h
    cases h
    exact (dumpsString_quoted s).printed
  | list items ih =>
    cases levels with
    | zero => cases h
    | succ levels =>
      obtain ⟨parts, hparts, htext⟩ := bind_eq_ok.mp h
      cases htext
      have hbrackets : Printed [0x5B] ∧ Printed [0x5D] := by decide
      refine (hbrackets.1.append (printed_commas fun p hp => ?_)).append hbrackets.2
      obtain ⟨item, hitem, hp⟩ := (mem_collect hparts).mp hp
      exact ih item hitem hp
  | dict members ih =>
    cases levels with
    | zero => cases h
    | succ levels =>
      obtain ⟨parts, hparts, htext⟩ := bind_eq_ok.mp h
      cases htext
      have hbraces : Printed [0x7B] ∧ Printed [0x7D] ∧ Printed [0x3A] := by decide
      refine (hbraces.1.append (printed_commas fun p hp => ?_)).append hbraces.2.1
      obtain ⟨m, hm, hp⟩ := (mem_collect hparts).mp hp
      obtain ⟨text, htext, hp⟩ := bind_eq_ok.mp hp
      cases hp
      exact ((dumpsString_quoted m.1).printed.append hbraces.2.2).append (ih m hm htext)

theorem dumps_element_iff {v : JsonValue} {text : Text} (h : dumps levels v = .ok text) : Element text ↔ v.Finite := by
  refine ⟨fun helement => ?_, (dumps_json h).1⟩
  by_contra hn
  exact helement.quiet.not_loud ((dumps_json h).2 hn)

end Json

end AitpVerifier
