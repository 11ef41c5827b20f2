import AitpVerifier.NumberReading
import AitpVerifier.Recorded
import AitpVerifier.SerializerCaps

/-!
# Canonical form and value, floats included

Two values have one canonical form exactly when they are one value up to the order of
members and the spelling of numbers: `1`, `1.0` and `10e-1` are one number. Read back and
canonicalized again, the form is itself.
-/
namespace AitpVerifier

open PyText Checked Document KeySort JsonGrammar Json

/-! ### One value -/

/-- Equal up to the order of members and the spelling of numbers, at every depth. -/
inductive JsonValue.Respelled : JsonValue → JsonValue → Prop
  | null : Respelled .null .null
  | bool (b) : Respelled (.bool b) (.bool b)
  | number {v w f g} : v.double? = some f → w.double? = some g → SameNumber f g → Respelled v w
  | str (s) : Respelled (.str s) (.str s)
  | list {items others : List JsonValue} : items.length = others.length →
      (∀ i (h : i < items.length) (h' : i < others.length), Respelled items[i] others[i]) →
      Respelled (.list items) (.list others)
  | dict {members others : List (Text × JsonValue)} : (Members.names members).Perm (Members.names others) →
      (∀ name ∈ Members.names members, Respelled (Members.get members name) (Members.get others name)) →
      Respelled (.dict members) (.dict others)

theorem Json.SameNumber.symm {f g : Binary64} (h : SameNumber f g) : SameNumber g f := ⟨h.2.1, h.1, h.2.2.symm⟩

theorem Json.SameNumber.trans {f g k : Binary64} (h : SameNumber f g) (h' : SameNumber g k) : SameNumber f k :=
  ⟨h.1, h'.2.1, h.2.2.trans h'.2.2⟩

namespace JsonValue

/-- What is a number is an integer or a double. -/
theorem double?_cases {v : JsonValue} {f : Binary64} (h : v.double? = some f) :
    (∃ i, v = .int i ∧ Binary64.ofInt? i = some f) ∨ v = .float f := by
  cases v with
  | int i => exact .inl ⟨i, rfl, h⟩
  | float g => exact .inr (congrArg JsonValue.float (Option.some.inj h))
  | null | bool | str | list | dict => cases h

namespace Respelled

theorem symm {v w : JsonValue} (h : Respelled v w) : Respelled w v := by
  induction h with
  | null => exact .null
  | bool b => exact .bool b
  | number hv hw hsame => exact .number hw hv hsame.symm
  | str s => exact .str s
  | list hlen _ ih => exact .list hlen.symm fun i hi hi' => ih i hi' hi
  | dict hperm _ ih => exact .dict hperm.symm fun name hname => ih name (hperm.mem_iff.mpr hname)

theorem trans {u v w : JsonValue} (h : Respelled u v) (h' : Respelled v w) : Respelled u w := by
  induction h generalizing w with
  | null => exact h'
  | bool => exact h'
  | str => exact h'
  | number hu hv hsame =>
    cases h' with
    | null | bool | str | list | dict => cases hv
    | number hv' hw hsame' =>
      obtain rfl := Option.some.inj (hv.symm.trans hv')
      exact .number hu hw (hsame.trans hsame')
  | list hlen _ ih =>
    cases h' with
    | number hv => cases hv
    | list hlen' h' => exact .list (hlen.trans hlen') fun i hi hi' => ih i hi (hlen ▸ hi) (h' i (hlen ▸ hi) hi')
  | dict hperm _ ih =>
    cases h' with
    | number hv => cases hv
    | dict hperm' h' =>
      exact .dict (hperm.trans hperm') fun name hname => ih name hname (h' name (hperm.mem_iff.mp hname))

end Respelled

/-- Each member of the one object has its like in the other. -/
theorem related_members {members others : Members} {related : JsonValue → JsonValue → Prop} (hd : members.names.Nodup)
    (hperm : members.names.Perm others.names) (h : ∀ name ∈ members.names, related (members.get name) (others.get name))
    {m' : Text × JsonValue} (hm' : m' ∈ others) : ∃ m ∈ members, m.1 = m'.1 ∧ related m.2 m'.2 := by
  have hname : m'.1 ∈ members.names := hperm.mem_iff.mpr (List.mem_map_of_mem hm')
  have hrelated := h m'.1 hname
  obtain ⟨m, hm, heq⟩ := List.mem_map.mp hname
  rw [Members.get_of_mem (hperm.nodup_iff.mp hd) hm', ← heq, Members.get_of_mem hd hm] at hrelated
  exact ⟨m, hm, heq, hrelated⟩

theorem names_get {members : Members} (hd : members.names.Nodup) {β : Type} (f : JsonValue → β) :
    members.map (fun m => f m.2) = members.names.map fun name => f (members.get name) := by
  rw [Members.names, List.map_map]
  refine List.map_congr_left fun m hm => ?_
  rw [Function.comp_apply, Members.get_of_mem hd hm]

end JsonValue

namespace Jcs

/-! ### One document -/

/-- The double's sign is that of its units, which are nonzero. -/
theorem signedUnits_eq_iff {negative negative' : Bool} {mantissa scale mantissa' scale' : Nat}
    {hc : Canonical64 mantissa scale} {hc' : Canonical64 mantissa' scale'} :
    (Binary64.finite negative mantissa scale hc).signedUnits = (Binary64.finite negative' mantissa' scale' hc').signedUnits ↔
      mantissa * 2 ^ scale = mantissa' * 2 ^ scale' ∧ (mantissa * 2 ^ scale ≠ 0 → negative = negative') := by
  simp only [Binary64.signedUnits, Binary64.isNegative, Binary64.units]
  generalize mantissa * 2 ^ scale = units
  generalize mantissa' * 2 ^ scale' = units'
  cases negative <;> cases negative' <;> simp <;> omega

/-- Two finite doubles of one value are one double, or zeros. -/
theorem sameNumber_iff {f g : Binary64} (hf : f.isFinite = true) (hg : g.isFinite = true) :
    SameNumber f g ↔ f = g ∨ f.isZero = true ∧ g.isZero = true := by
  cases f with
  | nan | inf => cases hf
  | finite negative mantissa scale hc =>
    cases g with
    | nan | inf => cases hg
    | finite negative' mantissa' scale' hc' =>
      have hzero {negative : Bool} {mantissa scale : Nat} {hc : Canonical64 mantissa scale} :
          (Binary64.finite negative mantissa scale hc).isZero = true ↔ mantissa * 2 ^ scale = 0 := by
        simp [Binary64.isZero, Binary64.isFinite, Binary64.units]
      rw [hzero, hzero]
      constructor
      · rintro ⟨_, _, hunits⟩
        obtain ⟨hmagnitude, hsign⟩ := signedUnits_eq_iff.mp hunits
        by_cases h : mantissa * 2 ^ scale = 0
        · exact .inr ⟨h, hmagnitude ▸ h⟩
        · obtain ⟨rfl, rfl⟩ := Binary64.canonical64_unique hc hc' hmagnitude
          rw [hsign h]
          exact .inl rfl
      · rintro (heq | ⟨h, h'⟩)
        · rw [heq]
          exact ⟨hg, hg, rfl⟩
        · exact ⟨hf, hg, signedUnits_eq_iff.mpr ⟨h.trans h'.symm, fun hne => absurd h hne⟩⟩

/-- Doubles of one value have one text. -/
theorem formatFloat_same {f g : Binary64} (h : SameNumber f g) : formatFloat f = formatFloat g := by
  have htext {f : Binary64} (hzero : f.isZero = true) : formatFloat f = .ok (txt "0") := by
    cases f with
    | nan | inf => cases hzero
    | finite negative mantissa scale hc =>
      have hmantissa : mantissa = 0 := by simpa [Binary64.isZero, Binary64.isFinite, Binary64.units] using hzero
      rw [formatFloat, if_pos hmantissa]
  rcases (sameNumber_iff h.1 h.2.1).mp h with rfl | ⟨hf, hg⟩
  · rfl
  · rw [htext hf, htext hg]

/-- What stands for a finite double has its text. -/
theorem number_doc {v : JsonValue} {f : Binary64} (h : v.double? = some f) : doc v = .word (spelling (formatFloat f)) := by
  rcases JsonValue.double?_cases h with ⟨i, rfl, hi⟩ | rfl
  · rw [doc, ofInt?_formatInt hi]
  · rw [doc]

theorem number_formats {v : JsonValue} {f : Binary64} (h : v.double? = some f) (hfinite : f.isFinite = true) : Formats v := by
  rw [← formatFloat_isOk] at hfinite
  obtain ⟨text, htext⟩ := isOk_iff.mp hfinite
  rcases JsonValue.double?_cases h with ⟨i, rfl, hi⟩ | rfl
  · exact .int ((ofInt?_formatInt hi).trans htext)
  · exact .float htext

theorem number_leaf {v : JsonValue} {f : Binary64} (h : v.double? = some f) :
    v.Distinct ∧ v.nodes = 1 ∧ ∀ room, v.Within room ↔ 0 < room := by
  rcases JsonValue.double?_cases h with ⟨i, rfl, _⟩ | rfl
  · exact ⟨.int, by simp [JsonValue.nodes], fun room => by rw [JsonValue.within_iff]; simp [JsonValue.depth]⟩
  · exact ⟨.float, by simp [JsonValue.nodes], fun room => by rw [JsonValue.within_iff]; simp [JsonValue.depth]⟩

end Jcs

namespace JsonValue.Respelled

open Jcs

variable {v w : JsonValue}

theorem distinct (h : Respelled v w) (hd : v.Distinct) : w.Distinct := by
  induction h with
  | null => exact .null
  | bool => exact .bool
  | str => exact .str
  | number _ hw _ => exact (number_leaf hw).1
  | list hlen _ ih =>
    cases hd with
    | list hd =>
      refine .list fun item hitem => ?_
      obtain ⟨i, hi, rfl⟩ := List.mem_iff_getElem.mp hitem
      exact ih i (hlen ▸ hi) hi (hd _ (List.getElem_mem _))
  | dict hperm _ ih =>
    cases hd with
    | dict hnames hd =>
      refine .dict (hperm.nodup_iff.mp hnames) fun m' hm' => ?_
      obtain ⟨m, hm, _, hrelated⟩ := @related_members _ _ (fun v w => v.Distinct → w.Distinct) hnames hperm ih _ hm'
      exact hrelated (hd m hm)

theorem formats (h : Respelled v w) (hd : v.Distinct) (hf : Formats v) : Formats w := by
  induction h with
  | null => exact .null
  | bool => exact .bool
  | str => exact .str
  | number _ hw hsame => exact number_formats hw hsame.2.1
  | list hlen _ ih =>
    cases hd with
    | list hd =>
      cases hf with
      | list hf =>
        refine .list fun item hitem => ?_
        obtain ⟨i, hi, rfl⟩ := List.mem_iff_getElem.mp hitem
        exact ih i (hlen ▸ hi) hi (hd _ (List.getElem_mem _)) (hf _ (List.getElem_mem _))
  | dict hperm _ ih =>
    cases hd with
    | dict hnames hd =>
      cases hf with
      | dict hnamed hf =>
        have hlike {m'} (hm' : m' ∈ _) :=
          @related_members _ _ (fun v w => v.Distinct → Formats v → Formats w) hnames hperm ih m' hm'
        refine .dict (fun m' hm' => ?_) fun m' hm' => ?_
        · obtain ⟨m, hm, hname, _⟩ := hlike hm'
          rw [← hname]
          exact hnamed m hm
        · obtain ⟨m, hm, _, hrelated⟩ := hlike hm'
          exact hrelated (hd m hm) (hf m hm)

theorem doc_eq (h : Respelled v w) (hd : v.Distinct) (hf : Formats v) : doc v = doc w := by
  induction h with
  | null | bool | str => rfl
  | number hv hw hsame => rw [number_doc hv, number_doc hw, formatFloat_same hsame]
  | list hlen _ ih =>
    cases hd with
    | list hd =>
      cases hf with
      | list hf =>
        refine doc_list_eq_iff.mpr ⟨hlen, fun i hi hi' => ?_⟩
        exact ih i hi hi' (hd _ (List.getElem_mem _)) (hf _ (List.getElem_mem _))
  | dict hperm _ ih =>
    cases hd with
    | dict hnames hd =>
      cases hf with
      | dict hnamed hf =>
        refine (doc_dict_eq_iff hnames (hperm.nodup_iff.mp hnames) hnamed).mpr ⟨hperm, fun name hname => ?_⟩
        refine ih name hname ?_ ?_
        all_goals
          obtain ⟨m, hm, rfl⟩ := List.mem_map.mp hname
          rw [Members.get_of_mem hnames hm]
        · exact hd m hm
        · exact hf m hm

theorem nodes_eq (h : Respelled v w) (hd : v.Distinct) : v.nodes = w.nodes := by
  induction h with
  | null | bool | str => rfl
  | number hv hw _ => rw [(number_leaf hv).2.1, (number_leaf hw).2.1]
  | @list items others hlen _ ih =>
    cases hd with
    | list hd =>
      have heach : items.map JsonValue.nodes = others.map JsonValue.nodes := by
        refine List.ext_getElem (by simpa using hlen) fun i hi hi' => ?_
        rw [List.getElem_map, List.getElem_map]
        exact ih i _ _ (hd _ (List.getElem_mem _))
      rw [JsonValue.nodes, JsonValue.nodes, heach]
  | @dict members others hperm _ ih =>
    cases hd with
    | dict hnames hd =>
      have heach : (Members.names members).map (fun name => (Members.get members name).nodes) =
          (Members.names members).map fun name => (Members.get others name).nodes := by
        refine List.map_congr_left fun name hname => ih name hname ?_
        obtain ⟨m, hm, rfl⟩ := List.mem_map.mp hname
        rw [Members.get_of_mem hnames hm]
        exact hd m hm
      rw [JsonValue.nodes, JsonValue.nodes, names_get hnames JsonValue.nodes,
        names_get (hperm.nodup_iff.mp hnames) JsonValue.nodes, heach, (hperm.map _).sum_eq]

theorem within (h : Respelled v w) (hd : v.Distinct) {room : Nat} (hroom : v.Within room) : w.Within room := by
  induction h generalizing room with
  | null | bool | str => exact hroom
  | number hv hw _ => exact ((number_leaf hw).2.2 room).mpr (((number_leaf hv).2.2 room).mp hroom)
  | list hlen _ ih =>
    cases room with
    | zero => exact hroom
    | succ room =>
      cases hd with
      | list hd =>
        intro item hitem
        obtain ⟨i, hi, rfl⟩ := List.mem_iff_getElem.mp hitem
        exact ih i (hlen ▸ hi) hi (hd _ (List.getElem_mem _)) (hroom _ (List.getElem_mem _))
  | dict hperm _ ih =>
    cases room with
    | zero => exact hroom
    | succ room =>
      cases hd with
      | dict hnames hd =>
        intro m' hm'
        obtain ⟨m, hm, _, hrelated⟩ := @related_members _ _ (fun v w => v.Distinct → v.Within room → w.Within room)
          hnames hperm (fun name hname hd hroom => ih name hname hd hroom) _ hm'
        exact hrelated (hd m hm) (hroom m hm)

end JsonValue.Respelled

namespace Jcs

/-! ### The form read back -/

theorem separated_false {parts : List Text} : grammar.separated false parts = parts.flatMap fun part => 0x2C :: part := by
  induction parts with
  | nil => rfl
  | cons part rest ih =>
    rw [Grammar.separated, ih]
    rfl

theorem separated_commas (parts : List Text) : grammar.separated true parts = commas parts := by
  have hrest (part : Text) (rest : List Text) : commas (part :: rest) = part ++ rest.flatMap fun part => 0x2C :: part := by
    induction rest generalizing part with
    | nil => rw [commas_singleton, List.flatMap_nil, List.append_nil]
    | cons next rest ih =>
      rw [commas_cons, ih, List.flatMap_cons]
      rfl
  cases parts with
  | nil => rfl
  | cons part rest =>
    rw [Grammar.separated, separated_false, hrest]
    rfl

theorem formatString_means (s : Text) : QuotedMeans (formatString s) s := by
  have hscan := @scanString_escaped [] [] _ s (Nat.lt_succ_self _)
  obtain ⟨t, ht, hsplit⟩ := scanString_sound hscan
  obtain rfl := List.append_cancel_right hsplit
  exact ⟨_, ht, formatString_eq s⟩

/-- The text of a value's document means the value respelled. -/
theorem exists_settled {v : JsonValue} (hd : v.Distinct) (hf : Formats v) :
    ∃ w, Means (grammar.text (doc v)) w ∧ w.Short ∧ v.Respelled w := by
  induction hf with
  | null =>
    rw [doc, Grammar.text_word]
    exact ⟨_, .null, .null, .null⟩
  | @bool b =>
    rw [doc, Grammar.text_word]
    cases b
    · exact ⟨_, .false, .bool, .bool _⟩
    · exact ⟨_, .true, .bool, .bool _⟩
  | @int i text htext =>
    have hsome : (Binary64.ofInt? i).isSome = true := by
      rw [← formatInt_isOk]
      exact isOk_iff.mpr ⟨text, htext⟩
    obtain ⟨f, hf⟩ := Option.isSome_iff_exists.mp hsome
    rw [doc, Grammar.text_word, spelling_of_ok htext]
    rw [ofInt?_formatInt hf] at htext
    obtain ⟨w, hmeans, hshort, g, hg, hsame⟩ := formatFloat_means htext
    exact ⟨w, .number hmeans, hshort, .number hf hg hsame⟩
  | @float f text htext =>
    rw [doc, Grammar.text_word, spelling_of_ok htext]
    obtain ⟨w, hmeans, hshort, g, hg, hsame⟩ := formatFloat_means htext
    exact ⟨w, .number hmeans, hshort, .number rfl hg hsame⟩
  | @str s =>
    rw [doc, Grammar.text_str]
    exact ⟨_, .string (formatString_means s), .str, .str s⟩
  | @list items _ ih =>
    cases hd with
    | list hd =>
      choose! settle hmeans hshort hsettled using fun item hitem => ih item hitem (hd item hitem)
      have hlist := @array_means (items.map fun item => (grammar.text (doc item), settle item)) (List.forall_mem_map.mpr hmeans)
      rw [List.map_map, List.map_map, ← separated_commas] at hlist
      rw [doc_list, Grammar.text_list, List.map_map]
      refine ⟨.list (items.map settle), hlist, .list (List.forall_mem_map.mpr hshort), ?_⟩
      refine .list (List.length_map _).symm fun i hi hi' => ?_
      rw [List.getElem_map]
      exact hsettled _ (List.getElem_mem hi)
  | @dict members _ _ ih =>
    cases hd with
    | dict hnames hd =>
      have : Nonempty JsonValue := ⟨.null⟩
      choose! settle hmeans hshort hsettled using fun m hm => ih m hm (hd m hm)
      set arranged := sortBy (fun m => codeUnits m.1) members
      have hin {m} (hm : m ∈ arranged) : m ∈ members := mem_sortBy.mp hm
      have hdict := @object_means (arranged.map fun m => ⟨formatString m.1, m.1, grammar.text (doc m.2), settle m⟩)
        (List.forall_mem_map.mpr fun m _ => (formatString_means m.1).name) (List.forall_mem_map.mpr fun m hm => hmeans m (hin hm))
      rw [List.map_map, List.map_map, ← separated_commas] at hdict
      have htext : grammar.text (doc (.dict members)) = [0x7B] ++ grammar.separated true (arranged.map fun m =>
          formatString m.1 ++ [0x3A] ++ grammar.text (doc m.2)) ++ [0x7D] := by
        rw [doc_dict, Grammar.text_object, sortBy_values, List.map_map]
        have hmember : (fun m : Text × JsonValue => formatString m.1 ++ [0x3A] ++ grammar.text (doc m.2)) =
            fun m => grammar.member m.1 (grammar.text (doc m.2)) := by
          funext m
          rw [List.append_assoc]
          rfl
        rw [hmember]
        rfl
      rw [htext]
      have hsame : Members.names (arranged.map fun m => (m.1, settle m)) = Members.names arranged := by
        rw [Members.names, List.map_map]
        rfl
      have hshort' : (JsonValue.dict (arranged.map fun m => (m.1, settle m))).Short :=
        .dict (List.forall_mem_map.mpr fun m hm => hshort m (hin hm))
      refine ⟨.dict (arranged.map fun m : Text × JsonValue => (m.1, settle m)), hdict, hshort', .dict ?_ ?_⟩
      · rw [hsame]
        exact (names_sortBy members).symm
      · intro name hname
        obtain ⟨m, hm, rfl⟩ := List.mem_map.mp hname
        have hmember : (m.1, settle m) ∈ arranged.map fun m => (m.1, settle m) := List.mem_map_of_mem (mem_sortBy.mpr hm)
        rw [Members.get_of_mem hnames hm, Members.get_of_mem (hsame ▸ (names_sortBy members).nodup_iff.mpr hnames) hmember]
        exact hsettled m hm

/-! ### The classes -/

variable {I : Interpreter} {v : JsonValue} {octets : Bytes}

theorem Formats.starts {v : JsonValue} (hf : Formats v) : Starts (grammar.text (doc v)) := by
  have hspelled := hf.spelled
  cases hf with
  | null | bool | int | float =>
    rw [doc] at hspelled ⊢
    rw [Grammar.text_word]
    cases hspelled with
    | word hword => exact starts_of_word hword
  | str =>
    rw [doc, Grammar.text_str]
    exact ⟨_, _, formatString_eq _, rfl, by decide, by decide⟩
  | list =>
    rw [doc_list, Grammar.text_list]
    exact ⟨_, _, rfl, rfl, by decide, by decide⟩
  | dict =>
    rw [doc_dict, Grammar.text_object]
    exact ⟨_, _, rfl, rfl, by decide, by decide⟩

/-- What has room in the serializer has room in the parser. -/
theorem nests_of_within {levels : Nat} {v : JsonValue} (h : v.Within levels) : v.Nests levels := by
  induction levels generalizing v with
  | zero => exact absurd h id
  | succ levels ih =>
    cases v with
    | list items => exact fun item hitem => ih (h item hitem)
    | dict members => exact fun m hm => ih (h m hm)
    | null | bool | int | float | str => trivial

/-- A value has the canonical form of another exactly when it is the other respelled. -/
theorem canonicalize_respelled (hd : v.Distinct) (h : canonicalize v = .ok octets) (w : JsonValue) :
    w.Distinct ∧ canonicalize w = .ok octets ↔ v.Respelled w := by
  obtain ⟨hf, hroom, hnodes, hoctets⟩ := (canonicalize_eq_ok hd).mp h
  constructor
  · rintro ⟨hd', h'⟩
    obtain ⟨u, hu, hshort, hsettled⟩ := exists_settled hd hf
    obtain ⟨u', hu', hshort', hsettled'⟩ := exists_settled hd' ((canonicalize_eq_ok hd').mp h').1
    rw [← (canonicalize_writes hd h).unique (canonicalize_writes hd' h')] at hu'
    obtain rfl := Means.unique hu hu' hshort hshort'
    exact hsettled.trans hsettled'.symm
  · intro hsame
    have hd' := hsame.distinct hd
    refine ⟨hd', (canonicalize_eq_ok hd').mpr ⟨hsame.formats hd hf, hsame.within hd hroom, ?_, ?_⟩⟩
    · rw [← hsame.nodes_eq hd]
      exact hnodes
    · rw [← hsame.doc_eq hd hf]
      exact hoctets

/-- A negative zero is written as the integer is. -/
theorem canonicalize_respelled_zero :
    canonicalize (.list [.float (.finite true 0 0 (by decide))]) = .ok [0x5B, 0x30, 0x5D] := by
  have hdistinct : (JsonValue.list [.int 0]).Distinct := .list (List.forall_mem_singleton.mpr .int)
  have hoctets : canonicalize (.list [.int 0]) = .ok [0x5B, 0x30, 0x5D] := by decide +kernel
  have hzero : Binary64.ofInt? 0 = some (.finite false 0 0 (by decide)) := by decide +kernel
  have hsame : JsonValue.Respelled (.list [.int 0]) (.list [.float (.finite true 0 0 (by decide))]) := by
    refine .list rfl fun i hi _ => ?_
    obtain rfl : i = 0 := Nat.lt_one_iff.mp hi
    exact .number hzero rfl ⟨rfl, rfl, by decide⟩
  exact ((canonicalize_respelled hdistinct hoctets _).mpr hsame).2

/-- The canonical form is read back as the value respelled, whose canonical form it is. -/
theorem loads_canonical (hd : v.Distinct) (h : canonicalize v = .ok octets) (hdepth : maxDepth < I.parseDepth) :
    ∃ w, loads I octets = .ok w ∧ v.Respelled w ∧ canonicalize w = .ok octets := by
  obtain ⟨hf, hroom, hnodes, hoctets⟩ := (canonicalize_eq_ok hd).mp h
  obtain ⟨w, hmeans, hshort, hsettled⟩ := exists_settled hd hf
  have hd' := hsettled.distinct hd
  obtain ⟨hwell, rfl⟩ := utf8?_eq_some_iff.mp hoctets
  have hwithin := hsettled.within hd hroom
  have hnests : w.Nests I.parseDepth := by
    have hlevels := JsonValue.within_iff.mp hwithin
    exact nests_of_within (JsonValue.within_iff.mpr (by omega))
  have hread : loads I ((grammar.text (doc v)).flatMap utf8Char) = .ok w :=
    loads_eq_ok_iff.mpr ⟨_, utf8Decode?_encoded hwell, hf.starts.no_mark, hmeans, hd', hshort, hnests⟩
  refine ⟨w, hread, hsettled, (canonicalize_eq_ok hd').mpr ⟨hsettled.formats hd hf, hwithin, ?_, ?_⟩⟩
  · rw [← hsettled.nodes_eq hd]
    exact hnodes
  · rw [← hsettled.doc_eq hd hf]
    exact hoctets

/-- The canonical octets are those that the parser reads as a value of which they are the canonical form. -/
theorem canonical_iff_fixed (hdepth : maxDepth < I.parseDepth) :
    (∃ v : JsonValue, v.Distinct ∧ canonicalize v = .ok octets) ↔
      ∃ w, loads I octets = .ok w ∧ canonicalize w = .ok octets := by
  constructor
  · rintro ⟨v, hd, h⟩
    obtain ⟨w, hread, _, hcanonical⟩ := loads_canonical hd h hdepth
    exact ⟨w, hread, hcanonical⟩
  · rintro ⟨w, hread, hcanonical⟩
    obtain ⟨_, _, _, _, hd, _⟩ := loads_eq_ok_iff.mp hread
    exact ⟨w, hd, hcanonical⟩

theorem canonical_iff_fixed_zero :
    ∃ w, loads (Recording.platform ⟨[], []⟩).toInterpreter [0x5B, 0x30, 0x5D] = .ok w ∧
      canonicalize w = .ok [0x5B, 0x30, 0x5D] := by
  have hdistinct : (JsonValue.list [.int 0]).Distinct := .list (List.forall_mem_singleton.mpr .int)
  exact (canonical_iff_fixed (by decide)).mp ⟨_, hdistinct, by decide +kernel⟩

end Jcs

end AitpVerifier
