import AitpVerifier.NumberReading

/-!
# What is written is read back

The encoder's text means the value it was written from, with each surrogate pair of a
string joined. It is read back as that value when every number is finite, no two names are
joined to one and the nesting is not too deep, and otherwise it is refused.
-/
namespace AitpVerifier

open PyText Checked JsonGrammar Jcs

/-- The value as the parser reads its escapes: every string and every name with its surrogate pairs joined. -/
def JsonValue.joined : JsonValue → JsonValue
  | .str s => .str (joinPairs s)
  | .list items => .list (items.map joined)
  | .dict members => .dict (members.map fun m => (joinPairs m.1, joined m.2))
  | v => v
termination_by v => sizeOf v
decreasing_by
  · have := List.sizeOf_lt_of_mem ‹_›
    simp only [JsonValue.list.sizeOf_spec]
    omega
  · rename_i hm
    have := List.sizeOf_lt_of_mem hm
    obtain ⟨name, v⟩ := m
    simp only [JsonValue.dict.sizeOf_spec, Prod.mk.sizeOf_spec] at this ⊢
    omega

namespace JsonValue

theorem joined_list (items : List JsonValue) : (JsonValue.list items).joined = .list (items.map joined) := by rw [joined]

theorem joined_dict (members : Members) :
    (JsonValue.dict members).joined = .dict (members.map fun m => (joinPairs m.1, joined m.2)) := by rw [joined]

theorem joined_str (s : Text) : (JsonValue.str s).joined = .str (joinPairs s) := by rw [joined]

theorem joined_null : JsonValue.null.joined = .null := by rw [joined] <;> simp

theorem joined_bool (b : Bool) : (JsonValue.bool b).joined = .bool b := by rw [joined] <;> simp

theorem joined_int (i : Int) : (JsonValue.int i).joined = .int i := by rw [joined] <;> simp

theorem joined_float (f : Binary64) : (JsonValue.float f).joined = .float f := by rw [joined] <;> simp

theorem joined_short {v : JsonValue} (h : v.Short) : v.joined.Short := by
  induction h with
  | null =>
    rw [joined_null]
    exact .null
  | bool =>
    rw [joined_bool]
    exact .bool
  | int hi =>
    rw [joined_int]
    exact .int hi
  | float =>
    rw [joined_float]
    exact .float
  | str =>
    rw [joined_str]
    exact .str
  | list _ ih =>
    rw [joined_list]
    exact .list (List.forall_mem_map.mpr ih)
  | dict _ ih =>
    rw [joined_dict]
    exact .dict (List.forall_mem_map.mpr ih)

theorem joined_nests_iff {v : JsonValue} {levels : Nat} : v.joined.Nests levels ↔ v.Nests levels := by
  induction v using JsonValue.induct generalizing levels with
  | null => rw [joined_null]
  | bool => rw [joined_bool]
  | int => rw [joined_int]
  | float => rw [joined_float]
  | str s =>
    rw [joined_str]
    cases levels <;> rfl
  | list items ih =>
    rw [joined_list]
    cases levels with
    | zero => rfl
    | succ levels =>
      simp only [Nests, List.forall_mem_map]
      exact forall₂_congr fun item hitem => ih item hitem
  | dict members ih =>
    rw [joined_dict]
    cases levels with
    | zero => rfl
    | succ levels =>
      simp only [Nests, List.forall_mem_map]
      exact forall₂_congr fun m hm => ih m hm

end JsonValue

namespace Json

variable {levels : Nat}

/-! ### What the encoder's text means -/

theorem dumpsString_means (s : Text) : QuotedMeans (dumpsString s) (joinPairs s) := by
  have hscan := @scanString_dumps [] [] _ s (Nat.lt_succ_self _)
  obtain ⟨t, ht, hsplit⟩ := scanString_sound hscan
  obtain rfl := List.append_cancel_right hsplit
  exact ⟨_, ht, dumpsString_eq s⟩

theorem whole_decimal (n : Nat) : Whole (decimal n) := by
  rcases Nat.eq_zero_or_pos n with rfl | hn
  · exact .inl decimal_zero
  · obtain ⟨c, rest, heq, hc⟩ := decimal_head hn
    exact .inr ⟨decimal_digits n, by rw [heq]; simpa using hc⟩

theorem intText_means {i : Int} {text : Text} (h : intText i = .ok text) : NumberMeans text (.int i) := by
  simp only [intText, bind_eq_ok, exists_unit, Except.ok.injEq] at h
  have hmeans := @NumberMeans.int (decide (i < 0)) _ (whole_decimal i.natAbs)
  have hvalue : signed (decide (i < 0)) i.natAbs = i := by
    simp only [signed, decide_eq_true_eq]
    omega
  rw [digitsValue_decimal, hvalue, ← txt_minus] at hmeans
  rw [← h.2]
  simpa using hmeans

theorem dumpsFloat_means {f : Binary64} (h : f.isFinite = true) : NumberMeans (dumpsFloat f) (.float f) := by
  cases f with
  | nan | inf negative => cases h
  | finite negative mantissa scale hc => exact repr_means hc

/-- The texts of parts that were all written. -/
theorem collect_spelling {α : Type} {f : α → PyM Text} {items : List α} {parts : List Text} (h : collect f items = .ok parts) :
    parts = items.map (fun item => spelling (f item)) ∧ ∀ item ∈ items, f item = .ok (spelling (f item)) := by
  rw [collect_eq_ok] at h
  induction h with
  | nil => exact ⟨rfl, nofun⟩
  | cons hpart _ ih =>
    have hspelling := spelling_of_ok hpart
    refine ⟨by rw [List.map_cons, hspelling, ← ih.1], List.forall_mem_cons.mpr ⟨?_, ih.2⟩⟩
    rw [hspelling]
    exact hpart

/-- What is written of a finite value means it, its pairs joined. -/
theorem dumps_means {v : JsonValue} (hfinite : v.Finite) {text : Text} (h : dumps levels v = .ok text) : Means text v.joined := by
  induction v using JsonValue.induct generalizing levels text with
  | null =>
    rw [dumps] at h
    cases h
    rw [JsonValue.joined_null]
    exact .null
  | bool b =>
    rw [dumps] at h
    cases h
    rw [JsonValue.joined_bool]
    cases b
    · exact .false
    · exact .true
  | int i =>
    rw [dumps] at h
    rw [JsonValue.joined_int]
    exact .number (intText_means h)
  | float f =>
    rw [dumps] at h
    cases h
    rw [JsonValue.joined_float]
    exact .number (dumpsFloat_means (JsonValue.finite_float.mp hfinite))
  | str s =>
    rw [dumps] at h
    cases h
    rw [JsonValue.joined_str]
    exact .string (dumpsString_means s)
  | list items ih =>
    cases levels with
    | zero => cases h
    | succ levels =>
      obtain ⟨parts, hparts, htext⟩ := bind_eq_ok.mp h
      cases htext
      obtain ⟨rfl, hitems⟩ := collect_spelling hparts
      rw [JsonValue.finite_list] at hfinite
      have hmeans := @array_means (items.map fun item => (spelling (dumps levels item), item.joined)) <|
        List.forall_mem_map.mpr fun item hitem => ih item hitem (hfinite item hitem) (hitems item hitem)
      rw [List.map_map, List.map_map] at hmeans
      rw [JsonValue.joined_list]
      exact hmeans
  | dict members ih =>
    cases levels with
    | zero => cases h
    | succ levels =>
      obtain ⟨parts, hparts, htext⟩ := bind_eq_ok.mp h
      cases htext
      obtain ⟨rfl, hmembers⟩ := collect_spelling hparts
      rw [JsonValue.finite_dict] at hfinite
      have hmember (m : Text × JsonValue) (hm : m ∈ members) : ∃ text, dumps levels m.2 = .ok text ∧
          spelling (do
            let text ← dumps levels m.2
            .ok (dumpsString m.1 ++ [0x3A] ++ text)) = dumpsString m.1 ++ [0x3A] ++ text := by
        obtain ⟨text, htext, hpart⟩ := bind_eq_ok.mp (hmembers m hm)
        exact ⟨text, htext, (Except.ok.inj hpart).symm⟩
      have hmeans := @object_means (members.map fun m => ⟨dumpsString m.1, joinPairs m.1, spelling (dumps levels m.2), m.2.joined⟩)
        (List.forall_mem_map.mpr fun m _ => (dumpsString_means m.1).name) <| List.forall_mem_map.mpr fun m hm => by
          obtain ⟨text, htext, _⟩ := hmember m hm
          rw [spelling_of_ok htext]
          exact ih m hm (hfinite m hm) htext
      rw [List.map_map, List.map_map] at hmeans
      have htexts : members.map (fun m => spelling (do
          let text ← dumps levels m.2
          .ok (dumpsString m.1 ++ [0x3A] ++ text))) = members.map fun m => dumpsString m.1 ++ [0x3A] ++ spelling (dumps levels m.2) := by
        refine List.map_congr_left fun m hm => ?_
        obtain ⟨text, htext, hpart⟩ := hmember m hm
        rw [hpart, spelling_of_ok htext]
      rw [JsonValue.joined_dict, htexts]
      exact hmeans

/-! ### The octets of what is written -/

def Ascii (t : Text) : Prop := ∀ c ∈ t, c.val < 0x80

instance (t : Text) : Decidable (Ascii t) := List.decidableBAll _ t

theorem Ascii.append {s t : Text} (hs : Ascii s) (ht : Ascii t) : Ascii (s ++ t) := List.forall_mem_append.mpr ⟨hs, ht⟩

theorem Ascii.wellFormed {t : Text} (h : Ascii t) : WellFormed t := by
  intro c hc
  have hlow := h c hc
  simp only [isSurrogate, Bool.and_eq_false_iff, decide_eq_false_iff_not]
  omega

theorem number_ascii {t : Text} (h : Number t) : Ascii t := by
  intro c hc
  have hmarks : Ascii numberMarks := by decide
  rcases h.mem hc with hdigit | hmark
  · exact Nat.lt_of_le_of_lt hdigit.2 (by decide)
  · exact hmarks c hmark

theorem ascii_commas {parts : List Text} (h : ∀ p ∈ parts, Ascii p) : Ascii (commas parts) := by
  induction parts with
  | nil => exact nofun
  | cons part rest ih =>
    obtain ⟨hpart, hrest⟩ := List.forall_mem_cons.mp h
    cases rest with
    | nil =>
      rw [commas_singleton]
      exact hpart
    | cons next rest =>
      have hcomma : Ascii [0x2C] := by decide
      rw [commas_cons]
      exact hpart.append (hcomma.append (ih hrest))

theorem dumps_ascii {v : JsonValue} {text : Text} (h : dumps levels v = .ok text) : Ascii text := by
  induction v using JsonValue.induct generalizing levels text with
  | null =>
    rw [dumps] at h
    cases h
    decide
  | bool b =>
    rw [dumps] at h
    cases h
    cases b <;> decide
  | int i =>
    rw [dumps] at h
    exact number_ascii (intText_number h)
  | float f =>
    rw [dumps] at h
    cases h
    cases f with
    | nan => decide
    | inf negative => cases negative <;> decide
    | finite negative mantissa scale hc => exact number_ascii (@repr_number (.finite negative mantissa scale hc) rfl)
  | str s =>
    rw [dumps] at h
    cases h
    exact dumpsString_ascii s
  | list items ih =>
    cases levels with
    | zero => cases h
    | succ levels =>
      obtain ⟨parts, hparts, htext⟩ := bind_eq_ok.mp h
      cases htext
      have hbrackets : Ascii [0x5B] ∧ Ascii [0x5D] := by decide
      refine (hbrackets.1.append (ascii_commas fun p hp => ?_)).append hbrackets.2
      obtain ⟨item, hitem, hp⟩ := (mem_collect hparts).mp hp
      exact ih item hitem hp
  | dict members ih =>
    cases levels with
    | zero => cases h
    | succ levels =>
      obtain ⟨parts, hparts, htext⟩ := bind_eq_ok.mp h
      cases htext
      have hbraces : Ascii [0x7B] ∧ Ascii [0x7D] ∧ Ascii [0x3A] := by decide
      refine (hbraces.1.append (ascii_commas fun p hp => ?_)).append hbraces.2.1
      obtain ⟨m, hm, hp⟩ := (mem_collect hparts).mp hp
      obtain ⟨text, htext, hp⟩ := bind_eq_ok.mp hp
      cases hp
      exact (Ascii.append (dumpsString_ascii m.1) hbraces.2.2).append (ih m hm htext)

theorem Ascii.utf8 {t : Text} (h : Ascii t) : ∃ octets, utf8? t = some octets ∧ utf8Decode? octets = some t :=
  ⟨_, utf8?_eq_some h.wellFormed, utf8Decode?_encoded h.wellFormed⟩

theorem Ascii.no_mark {t : Text} (h : Ascii t) : t.head? ≠ some 0xFEFF := by
  intro hhead
  obtain ⟨rest, rfl⟩ := List.head?_eq_some_iff.mp hhead
  exact absurd (h _ List.mem_cons_self) (by decide)

/-! ### Written and read -/

variable {kind : ErrorKind} {hooks : Hooks} {I : Interpreter} {v w : JsonValue} {text : Text}

/-- A strict parser reads what was written as the value it was written from, its pairs joined, exactly when every number is
finite, no object then repeats a name and the parser has room. -/
theorem dumps_loads_iff (hstrict : Strict kind hooks) (hadmits : Admit hooks) (h : dumps levels v = .ok text) :
    Json.loads I hooks text = .ok w ↔ w = v.joined ∧ v.Finite ∧ v.joined.Distinct ∧ v.Nests I.parseDepth := by
  have hshort := (dumps_isOk.mp (isOk_iff.mpr ⟨text, h⟩)).1
  rw [loads_eq_ok_iff hstrict hadmits]
  constructor
  · rintro ⟨_, hmeans, hdistinct, hshort', hnests⟩
    have hfinite := (dumps_element_iff h).mp hmeans.element
    obtain rfl := Means.unique hmeans (dumps_means hfinite h) hshort' (JsonValue.joined_short hshort)
    exact ⟨rfl, hfinite, hdistinct, JsonValue.joined_nests_iff.mp hnests⟩
  · rintro ⟨rfl, hfinite, hdistinct, hnests⟩
    have hmeans := dumps_means hfinite h
    exact ⟨(dumps_ascii h).no_mark, hmeans, hdistinct, JsonValue.joined_short hshort, JsonValue.joined_nests_iff.mpr hnests⟩

end Json

end AitpVerifier
