import AitpVerifier.Canonical

/-!
# Canonical form and value

Short of floats, two values have one canonical form exactly when they are one value
up to the order of members, and that form lists every object's members in strictly
increasing order of their names' code units.
-/
namespace AitpVerifier

open PyText Checked Document KeySort

/-! ### One value -/

/-- Equal up to the order of members, at every depth. -/
inductive JsonValue.Same : JsonValue → JsonValue → Prop
  | null : Same .null .null
  | bool (b) : Same (.bool b) (.bool b)
  | int (i) : Same (.int i) (.int i)
  | float (f) : Same (.float f) (.float f)
  | str (s) : Same (.str s) (.str s)
  | list {items others : List JsonValue} : items.length = others.length →
      (∀ i (h : i < items.length) (h' : i < others.length), Same items[i] others[i]) → Same (.list items) (.list others)
  | dict {members others : List (Text × JsonValue)} : (Members.names members).Perm (Members.names others) →
      (∀ name ∈ Members.names members, Same (Members.get members name) (Members.get others name)) →
      Same (.dict members) (.dict others)

/-- Integers a double holds exactly, well-formed strings, distinct names, no floats. -/
inductive JsonValue.Exact : JsonValue → Prop
  | null : Exact .null
  | bool {b} : Exact (.bool b)
  | int {i} : i.natAbs ≤ 2 ^ 53 → Exact (.int i)
  | str {s} : WellFormed s → Exact (.str s)
  | list {items} : (∀ item ∈ items, Exact item) → Exact (.list items)
  | dict {members : List (Text × JsonValue)} : (Members.names members).Nodup → (∀ m ∈ members, WellFormed m.1) →
      (∀ m ∈ members, Exact m.2) → Exact (.dict members)

namespace JsonValue.Exact

theorem distinct {v : JsonValue} (h : Exact v) : v.Distinct := by
  induction h with
  | null => exact .null
  | bool => exact .bool
  | int => exact .int
  | str => exact .str
  | list _ ih => exact .list ih
  | dict hd _ _ ih => exact .dict hd ih

theorem formats {v : JsonValue} (h : Exact v) : Jcs.Formats v := by
  induction h with
  | null => exact .null
  | bool => exact .bool
  | int hi => exact .int (Jcs.formatInt_eq hi)
  | str => exact .str
  | list _ ih => exact .list ih
  | dict _ hn _ ih => exact .dict hn ih

theorem encodes {v : JsonValue} (h : Exact v) : v.Encodes := by
  induction h with
  | null => exact .null
  | bool => exact .bool
  | int => exact .int
  | str hs => exact .str hs
  | list _ ih => exact .list ih
  | dict _ hn _ ih => exact .dict hn ih

end JsonValue.Exact

namespace Jcs

/-! ### Numerals -/

theorem decimal_injective {m n : Nat} (h : decimal m = decimal n) : m = n := by
  have hzero {k : Nat} (hk : 0 < k) : decimal k ≠ decimal 0 := by
    obtain ⟨c, rest, hc, hne⟩ := decimal_head hk
    rw [hc, decimal_zero]
    intro he
    exact hne (List.cons.inj he).1
  rcases Nat.eq_zero_or_pos m with rfl | hm
  · rcases Nat.eq_zero_or_pos n with rfl | hn
    · rfl
    · exact absurd h.symm (hzero hn)
  · rcases Nat.eq_zero_or_pos n with rfl | hn
    · exact absurd h (hzero hm)
    · rw [decimal_of_pos hm, decimal_of_pos hn] at h
      -- the digits read back from their characters
      have hback (k : Nat) : (((Nat.digits 10 k).reverse.map digitChar).map fun c => c.val - 0x30) =
          (Nat.digits 10 k).reverse := by
        rw [List.map_map, List.map_congr_left (g := id), List.map_id]
        intro d hd
        have hlt : d < 10 := Nat.digits_lt_base (by decide) (List.mem_reverse.mp hd)
        simp only [Function.comp_apply, digitChar_val hlt, id_eq]
        omega
      have hdigits := congrArg (List.map fun c : CodePoint => c.val - 0x30) h
      rw [hback, hback, List.reverse_inj] at hdigits
      exact Nat.digits_inj_iff.mp hdigits

/-- A numeral starts with a digit or a sign. -/
theorem integerText_head (i : Int) : ∃ c rest, integerText i = c :: rest ∧ c.val ≤ 0x39 := by
  by_cases hi : i < 0
  · rw [integerText, if_pos hi]
    exact ⟨0x2D, decimal i.natAbs, rfl, by decide⟩
  · rw [integerText, if_neg hi, List.nil_append]
    cases hd : decimal i.natAbs with
    | nil => exact absurd hd (decimal_ne_nil _)
    | cons c rest => exact ⟨c, rest, rfl, (mem_decimal (by rw [hd]; exact List.mem_cons_self)).2⟩

theorem integerText_injective {i j : Int} (h : integerText i = integerText j) : i = j := by
  have hsign : txt "-" = [0x2D] := by decide
  have hmixed {i j : Int} (hi : i < 0) (hj : ¬ j < 0) : integerText i ≠ integerText j := by
    rw [integerText, integerText, if_pos hi, if_neg hj, List.nil_append, hsign]
    intro he
    have hmem : (0x2D : CodePoint) ∈ decimal j.natAbs := by
      rw [← he]
      exact List.mem_cons_self
    exact absurd (mem_decimal hmem).1 (by decide)
  by_cases hi : i < 0
  · by_cases hj : j < 0
    · rw [integerText, integerText, if_pos hi, if_pos hj] at h
      have habs := decimal_injective (List.append_cancel_left h)
      omega
    · exact absurd h (hmixed hi hj)
  · by_cases hj : j < 0
    · exact absurd h.symm (hmixed hj hi)
    · rw [integerText, integerText, if_neg hi, if_neg hj] at h
      have habs := decimal_injective (List.append_cancel_left h)
      omega

/-! ### One document -/

/-- The arranged members, found by name. -/
theorem mem_docs {members : List (Text × JsonValue)} (hd : (Members.names members).Nodup) {p : Text × Doc CodePoint} :
    p ∈ members.map (fun m => (m.1, doc m.2)) ↔
      p.1 ∈ Members.names members ∧ doc (Members.get members p.1) = p.2 := by
  constructor
  · intro hp
    obtain ⟨m, hm, rfl⟩ := List.mem_map.mp hp
    exact ⟨List.mem_map_of_mem hm, by rw [Members.get_of_mem hd hm]⟩
  · rintro ⟨hn, hv⟩
    obtain ⟨m, hm, hname⟩ := List.mem_map.mp hn
    rw [← hname, Members.get_of_mem hd hm] at hv
    exact List.mem_map.mpr ⟨m, hm, Prod.ext hname hv⟩

theorem nodup_docs {members : List (Text × JsonValue)} (hd : (Members.names members).Nodup) :
    (members.map fun m => (m.1, doc m.2)).Nodup := by
  apply List.Nodup.of_map Prod.fst
  rw [List.map_map]
  exact hd

/-- Distinct well-formed names have distinct sort keys. -/
theorem nodup_keys {members : List (Text × JsonValue)} (hd : (Members.names members).Nodup)
    (hw : ∀ m ∈ members, WellFormed m.1) :
    ((members.map fun m => (m.1, doc m.2)).map fun m => codeUnits m.1).Nodup := by
  have hkeys : ((Members.names members).map codeUnits).Nodup := by
    refine List.Nodup.map_on ?_ hd
    intro name hn other ho heq
    obtain ⟨m, hm, rfl⟩ := List.mem_map.mp hn
    obtain ⟨m', hm', rfl⟩ := List.mem_map.mp ho
    exact codeUnits_injective (hw m hm) (hw m' hm') heq
  rw [Members.names, List.map_map] at hkeys
  rw [List.map_map]
  exact hkeys

/-- Objects have one document exactly when they have one set of names and, name by
name, one document. -/
theorem doc_dict_eq_iff {members others : List (Text × JsonValue)} (hd : (Members.names members).Nodup)
    (hd' : (Members.names others).Nodup) (hw : ∀ m ∈ members, WellFormed m.1) :
    doc (.dict members) = doc (.dict others) ↔
      (Members.names members).Perm (Members.names others) ∧
        ∀ name ∈ Members.names members, doc (Members.get members name) = doc (Members.get others name) := by
  rw [doc_dict, doc_dict, Doc.object.injEq]
  constructor
  · intro h
    have hperm : (members.map fun m => (m.1, doc m.2)).Perm (others.map fun m => (m.1, doc m.2)) :=
      ((sortBy_perm _ _).symm.trans (.of_eq h)).trans (sortBy_perm _ _)
    constructor
    · have hnames := hperm.map Prod.fst
      rw [List.map_map, List.map_map] at hnames
      exact hnames
    · intro name hn
      have hin : (name, doc (Members.get members name)) ∈ members.map fun m => (m.1, doc m.2) :=
        (mem_docs hd).mpr ⟨hn, rfl⟩
      exact ((mem_docs hd').mp (hperm.mem_iff.mp hin)).2.symm
  · rintro ⟨hnames, hvalues⟩
    refine sortBy_eq_of_perm (nodup_keys hd hw) ?_
    rw [List.perm_ext_iff_of_nodup (nodup_docs hd) (nodup_docs hd')]
    intro p
    rw [mem_docs hd, mem_docs hd', ← hnames.mem_iff]
    refine and_congr_right fun hn => ?_
    rw [hvalues p.1 hn]

theorem doc_list_eq_iff {items others : List JsonValue} :
    doc (.list items) = doc (.list others) ↔
      items.length = others.length ∧
        ∀ i (h : i < items.length) (h' : i < others.length), doc items[i] = doc others[i] := by
  rw [doc_list, doc_list, Doc.list.injEq]
  constructor
  · intro h
    have hlen : items.length = others.length := by simpa using congrArg List.length h
    refine ⟨hlen, fun i hi hi' => ?_⟩
    have hget : (items.map doc)[i]? = (others.map doc)[i]? := by rw [h]
    simpa [hi, hi'] using hget
  · rintro ⟨hlen, hitems⟩
    refine List.ext_getElem (by simpa using hlen) fun i hi hi' => ?_
    rw [List.getElem_map, List.getElem_map]
    exact hitems i _ _

/-- A literal name is not a numeral. -/
theorem integerText_ne {c : CodePoint} {rest : Text} (h : 0x39 < c.val) (i : Int) : integerText i ≠ c :: rest := by
  obtain ⟨d, more, hd, hle⟩ := integerText_head i
  rw [hd]
  intro he
  rw [(List.cons.inj he).1] at hle
  omega

/-- Off the floats a leaf is determined by its spelling. -/
theorem eq_of_word {v w : JsonValue} (hv : v.Exact) (hw : w.Exact) {t : Text} (h : doc v = .word t)
    (h' : doc w = .word t) : v = w := by
  have hnull : txt "null" = 0x6E :: txt "ull" := by decide
  have htrue : txt "true" = 0x74 :: txt "rue" := by decide
  have hfalse : txt "false" = 0x66 :: txt "alse" := by decide
  -- the text of each word, with its first character showing
  have hcases {v : JsonValue} (hv : v.Exact) (h : doc v = .word t) :
      v = .null ∧ t = 0x6E :: txt "ull" ∨ v = .bool true ∧ t = 0x74 :: txt "rue" ∨
        v = .bool false ∧ t = 0x66 :: txt "alse" ∨ ∃ i, v = .int i ∧ t = integerText i := by
    cases hv with
    | null =>
      rw [doc, Doc.word.injEq, hnull] at h
      exact .inl ⟨rfl, h.symm⟩
    | @bool b =>
      rw [doc, Doc.word.injEq] at h
      cases b with
      | true => exact .inr (.inl ⟨rfl, htrue ▸ h.symm⟩)
      | false => exact .inr (.inr (.inl ⟨rfl, hfalse ▸ h.symm⟩))
    | int hi =>
      rw [doc, Doc.word.injEq, spelling_of_ok (formatInt_eq hi)] at h
      exact .inr (.inr (.inr ⟨_, rfl, h.symm⟩))
    | str => rw [doc] at h; cases h
    | list => rw [doc_list] at h; cases h
    | dict => rw [doc_dict] at h; cases h
  rcases hcases hv h with ⟨rfl, ht⟩ | ⟨rfl, ht⟩ | ⟨rfl, ht⟩ | ⟨i, rfl, ht⟩ <;>
    rcases hcases hw h' with ⟨rfl, ht'⟩ | ⟨rfl, ht'⟩ | ⟨rfl, ht'⟩ | ⟨j, rfl, ht'⟩ <;> rw [ht] at ht'
  all_goals first
    | rfl
    | exact absurd (List.cons.inj ht').1 (by decide)
    | exact absurd ht'.symm (integerText_ne (by decide) _)
    | exact absurd ht' (integerText_ne (by decide) _)
    | rw [integerText_injective ht']

/-- One document is one value. -/
theorem doc_eq_iff {v w : JsonValue} (hv : v.Exact) (hw : w.Exact) : doc v = doc w ↔ v.Same w := by
  constructor
  · intro h
    induction hv generalizing w with
    | null =>
      have hword : doc .null = .word (txt "null") := by rw [doc]
      rw [← eq_of_word .null hw hword (h.symm.trans hword)]
      exact .null
    | @bool b =>
      have hword : doc (.bool b) = .word (if b then txt "true" else txt "false") := by rw [doc]
      rw [← eq_of_word .bool hw hword (h.symm.trans hword)]
      exact .bool b
    | @int i hi =>
      have hword : doc (.int i) = .word (spelling (formatInt i)) := by rw [doc]
      rw [← eq_of_word (.int hi) hw hword (h.symm.trans hword)]
      exact .int i
    | @str s =>
      cases hw with
      | str =>
        rw [doc, doc, Doc.str.injEq] at h
        rw [h]
        exact .str _
      | null | bool | int | list | dict => simp [doc] at h
    | list _ ih =>
      cases hw with
      | list hw =>
        obtain ⟨hlen, hitems⟩ := doc_list_eq_iff.mp h
        exact .list hlen fun i hi hi' => ih _ (List.getElem_mem hi) (hw _ (List.getElem_mem hi')) (hitems i hi hi')
      | null | bool | int | str | dict => simp [doc] at h
    | dict hd hn _ ih =>
      cases hw with
      | dict hd' _ hw =>
        obtain ⟨hperm, hvalues⟩ := (doc_dict_eq_iff hd hd' hn).mp h
        refine .dict hperm fun name hname => ?_
        have heq := hvalues name hname
        obtain ⟨m, hm, rfl⟩ := List.mem_map.mp hname
        obtain ⟨m', hm', hname'⟩ := List.mem_map.mp (hperm.mem_iff.mp hname)
        rw [← hname', Members.get_of_mem hd' hm', hname', Members.get_of_mem hd hm] at heq ⊢
        exact ih m hm (hw m' hm') heq
      | null | bool | int | str | list => simp [doc] at h
  · intro h
    induction h with
    | null | bool | int | float | str => rfl
    | list hlen _ ih =>
      cases hv with
      | list hv =>
        cases hw with
        | list hw =>
          exact doc_list_eq_iff.mpr ⟨hlen, fun i hi hi' =>
            ih i hi hi' (hv _ (List.getElem_mem hi)) (hw _ (List.getElem_mem hi'))⟩
    | dict hperm _ ih =>
      cases hv with
      | dict hd hn hv =>
        cases hw with
        | dict hd' _ hw =>
          refine (doc_dict_eq_iff hd hd' hn).mpr ⟨hperm, fun name hname => ?_⟩
          obtain ⟨m, hm, hm1⟩ := List.mem_map.mp hname
          obtain ⟨m', hm', hm1'⟩ := List.mem_map.mp (hperm.mem_iff.mp hname)
          apply ih name hname
          · rw [← hm1, Members.get_of_mem hd hm]
            exact hv m hm
          · rw [← hm1', Members.get_of_mem hd' hm']
            exact hw m' hm'

/-! ### The canonical form -/

/-- Every object's members stand in strictly increasing order of their names' code
units. -/
inductive Ordered : Doc CodePoint → Prop
  | word {w} : Ordered (.word w)
  | str {s} : Ordered (.str s)
  | list {ds} : (∀ d ∈ ds, Ordered d) → Ordered (.list ds)
  | object {ms : List (Text × Doc CodePoint)} : Increasing (fun m => codeUnits m.1) ms → (∀ m ∈ ms, Ordered m.2) →
      Ordered (.object ms)

theorem doc_ordered {v : JsonValue} (h : v.Exact) : Ordered (doc v) := by
  induction h with
  | null | bool | int =>
    rw [doc]
    exact .word
  | str =>
    rw [doc]
    exact .str
  | list _ ih =>
    rw [doc_list]
    refine .list fun d hd => ?_
    obtain ⟨item, hi, rfl⟩ := List.mem_map.mp hd
    exact ih item hi
  | dict hd hn _ ih =>
    rw [doc_dict]
    refine .object (sortBy_increasing (nodup_keys hd hn)) fun p hp => ?_
    obtain ⟨m, hm, rfl⟩ := List.mem_map.mp (mem_sortBy.mp hp)
    exact ih m hm

/-- A value the serializer takes: exact, and within both caps. -/
structure Canonicalizable (v : JsonValue) : Prop where
  exact : v.Exact
  depth : v.Within (maxDepth + 1)
  nodes : v.nodes ≤ maxNodesVisited

theorem Canonicalizable.canonicalize {v : JsonValue} (h : Canonicalizable v) :
    ∃ octets, Jcs.canonicalize v = .ok octets ∧ Writes octets (doc v) := by
  have hf := h.exact.formats
  have hu := utf8?_eq_some ((text_wellFormed hf).mpr h.exact.encodes)
  exact ⟨_, (canonicalize_eq_ok h.exact.distinct).mpr ⟨hf, h.depth, h.nodes, hu⟩, hf.spelled, hu⟩

/-- The canonical form is exact, and lists members in order: whatever document the
octets are the text of has every object's names increasing. -/
theorem canonical_form_exact {v w : JsonValue} (hv : Canonicalizable v) (hw : Canonicalizable w) :
    (canonicalize v = canonicalize w ↔ v.Same w) ∧
      ∃ octets, canonicalize v = .ok octets ∧ (∃ d, Writes octets d) ∧ ∀ d, Writes octets d → Ordered d := by
  obtain ⟨octets, hc, hwrites⟩ := hv.canonicalize
  obtain ⟨octets', hc', hwrites'⟩ := hw.canonicalize
  constructor
  · rw [← doc_eq_iff hv.exact hw.exact, hc, hc', Except.ok.injEq]
    constructor
    · rintro rfl
      exact hwrites.unique hwrites'
    · intro hdoc
      have h := hwrites.2
      rw [hdoc, hwrites'.2] at h
      exact (Option.some.inj h).symm
  · refine ⟨octets, hc, ⟨_, hwrites⟩, fun d hd => ?_⟩
    rw [hd.unique hwrites]
    exact doc_ordered hv.exact

/-- A name outside the basic plane stands before one that UTF-16 spells with a greater
unit, in whichever order the members were inserted. -/
theorem canonical_form_exact_astral :
    canonicalize (.dict [([0xE000], .int (2 ^ 53)), ([0x1F600], .list [.bool true, .null])]) =
      canonicalize (.dict [([0x1F600], .list [.bool true, .null]), ([0xE000], .int (2 ^ 53))]) := by
  have hlist : (JsonValue.list [.bool true, .null]).Exact := by
    refine .list fun item hi => ?_
    simp only [List.mem_cons, List.not_mem_nil, or_false] at hi
    rcases hi with rfl | rfl
    · exact .bool
    · exact .null
  have hint : (JsonValue.int (2 ^ 53)).Exact := .int (by decide)
  have hname : WellFormed [0xE000] ∧ WellFormed [0x1F600] := by
    simp only [WellFormed, List.forall_mem_singleton]
    decide
  have hdepth : (JsonValue.list [.bool true, .null]).Within maxDepth := by
    intro item hi
    simp only [List.mem_cons, List.not_mem_nil, or_false] at hi
    rcases hi with rfl | rfl <;> trivial
  have hv : Canonicalizable (.dict [([0xE000], .int (2 ^ 53)), ([0x1F600], .list [.bool true, .null])]) := by
    refine ⟨.dict (by decide) ?_ ?_, ?_, by simp [JsonValue.nodes, maxNodesVisited]⟩
    · simpa using hname
    · simpa using ⟨hint, hlist⟩
    · intro m hm
      simp only [List.mem_cons, List.not_mem_nil, or_false] at hm
      rcases hm with rfl | rfl
      · trivial
      · exact hdepth
  have hw : Canonicalizable (.dict [([0x1F600], .list [.bool true, .null]), ([0xE000], .int (2 ^ 53))]) := by
    refine ⟨.dict (by decide) ?_ ?_, ?_, by simp [JsonValue.nodes, maxNodesVisited]⟩
    · simpa using hname.symm
    · simpa using ⟨hlist, hint⟩
    · intro m hm
      simp only [List.mem_cons, List.not_mem_nil, or_false] at hm
      rcases hm with rfl | rfl
      · exact hdepth
      · trivial
  refine (canonical_form_exact hv hw).1.mpr (.dict (by decide) fun name hn => ?_)
  have hrefl : (JsonValue.list [.bool true, .null]).Same (.list [.bool true, .null]) := by
    refine .list rfl fun i hi _ => ?_
    rcases i with _ | _ | i
    · exact .bool true
    · exact .null
    · exact absurd hi (by simp)
  simp only [Members.names, List.map_cons, List.map_nil, List.mem_cons, List.not_mem_nil, or_false] at hn
  rcases hn with rfl | rfl
  · exact .int _
  · exact hrefl

end Jcs

end AitpVerifier
