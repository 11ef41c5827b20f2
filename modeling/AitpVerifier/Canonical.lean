import AitpVerifier.Encoding
import AitpVerifier.KeySort
import AitpVerifier.Spelling

/-!
# The canonical form of a value

The serializer writes one document: the value with its numbers spelled and the
members of every object arranged by name. It writes it exactly when every number
has a spelling, every name encodes, and the two caps hold.
-/
namespace AitpVerifier

open PyText Checked Document KeySort

/-! ### Values -/

/-- Induction with the hypothesis for every item and every member. -/
theorem JsonValue.induct {motive : JsonValue → Prop} (null : motive .null) (bool : ∀ b, motive (.bool b))
    (int : ∀ i, motive (.int i)) (float : ∀ f, motive (.float f)) (str : ∀ s, motive (.str s))
    (list : ∀ items, (∀ item ∈ items, motive item) → motive (.list items))
    (dict : ∀ members : List (Text × JsonValue), (∀ m ∈ members, motive m.2) → motive (.dict members)) :
    ∀ v, motive v
  | .null => null
  | .bool b => bool b
  | .int i => int i
  | .float f => float f
  | .str s => str s
  | .list items => list items fun item _ => JsonValue.induct null bool int float str list dict item
  | .dict members => dict members fun m _ => JsonValue.induct null bool int float str list dict m.2
termination_by v => sizeOf v
decreasing_by
  · have := List.sizeOf_lt_of_mem ‹item ∈ items›
    simp only [JsonValue.list.sizeOf_spec]
    omega
  · have := List.sizeOf_lt_of_mem ‹m ∈ members›
    obtain ⟨name, v⟩ := m
    simp only [JsonValue.dict.sizeOf_spec, Prod.mk.sizeOf_spec] at this ⊢
    omega

/-- No object repeats a member name: what a Python `dict` guarantees. -/
inductive JsonValue.Distinct : JsonValue → Prop
  | null : Distinct .null
  | bool {b} : Distinct (.bool b)
  | int {i} : Distinct (.int i)
  | float {f} : Distinct (.float f)
  | str {s} : Distinct (.str s)
  | list {items} : (∀ item ∈ items, Distinct item) → Distinct (.list items)
  | dict {members : List (Text × JsonValue)} : (Members.names members).Nodup → (∀ m ∈ members, Distinct m.2) →
      Distinct (.dict members)

/-- Every string encodes, and so does every member name. -/
inductive JsonValue.Encodes : JsonValue → Prop
  | null : Encodes .null
  | bool {b} : Encodes (.bool b)
  | int {i} : Encodes (.int i)
  | float {f} : Encodes (.float f)
  | str {s} : WellFormed s → Encodes (.str s)
  | list {items} : (∀ item ∈ items, Encodes item) → Encodes (.list items)
  | dict {members : List (Text × JsonValue)} : (∀ m ∈ members, WellFormed m.1) → (∀ m ∈ members, Encodes m.2) →
      Encodes (.dict members)

/-- Containers nest at most `room` deep, the value itself counted. -/
def JsonValue.Within : Nat → JsonValue → Prop
  | 0, _ => False
  | room + 1, .list items => ∀ item ∈ items, Within room item
  | room + 1, .dict members => ∀ m ∈ (members : List (Text × JsonValue)), Within room m.2
  | _ + 1, _ => True

/-- The values a walk visits: this one and all it contains. -/
def JsonValue.nodes : JsonValue → Nat
  | .list items => (items.map nodes).sum + 1
  | .dict members => (members.map fun m => nodes m.2).sum + 1
  | _ => 1
termination_by v => sizeOf v
decreasing_by
  · have := List.sizeOf_lt_of_mem ‹_›
    simp only [JsonValue.list.sizeOf_spec]
    omega
  · rename_i hm
    have := List.sizeOf_lt_of_mem hm
    obtain ⟨name, v⟩ := m
    simp only [JsonValue.dict.sizeOf_spec, Prod.mk.sizeOf_spec] at this ⊢
    omega

theorem Members.get_of_mem {obj : Members} (hd : obj.names.Nodup) {m : Text × JsonValue} (hm : m ∈ obj) :
    obj.get m.1 = m.2 := by
  induction obj with
  | nil => cases hm
  | cons first rest ih =>
    obtain ⟨k, v⟩ := first
    obtain ⟨hk, hrest⟩ := List.nodup_cons.mp hd
    rcases List.mem_cons.mp hm with rfl | hlater
    · simp [Members.get, Members.get?]
    · have hne : k ≠ m.1 := by
        intro he
        have hmem : m.1 ∈ rest.map Prod.fst := List.mem_map_of_mem hlater
        exact hk (by rw [← he] at hmem; exact hmem)
      have htail := ih hrest hlater
      rw [Members.get, Members.get?, if_neg hne]
      exact htail

namespace Jcs

/-! ### The document of a value -/

/-- The text of a number's spelling, where it has one. -/
def spelling (x : PyM Text) : Text := x.toOption.getD []

/-- The value with its numbers spelled and its members arranged by name. -/
def doc : JsonValue → Doc CodePoint
  | .null => .word (txt "null")
  | .bool b => .word (if b then txt "true" else txt "false")
  | .int i => .word (spelling (formatInt i))
  | .float f => .word (spelling (formatFloat f))
  | .str s => .str s
  | .list items => .list (items.map doc)
  | .dict members => .object (sortBy (fun m => codeUnits m.1) (members.map fun m => (m.1, doc m.2)))
termination_by v => sizeOf v
decreasing_by
  · have := List.sizeOf_lt_of_mem ‹_›
    simp only [JsonValue.list.sizeOf_spec]
    omega
  · rename_i hm
    have := List.sizeOf_lt_of_mem hm
    obtain ⟨name, v⟩ := m
    simp only [JsonValue.dict.sizeOf_spec, Prod.mk.sizeOf_spec] at this ⊢
    omega

/-- Every number has a spelling and every member name encodes. -/
inductive Formats : JsonValue → Prop
  | null : Formats .null
  | bool {b} : Formats (.bool b)
  | int {i text} : formatInt i = .ok text → Formats (.int i)
  | float {f text} : formatFloat f = .ok text → Formats (.float f)
  | str {s} : Formats (.str s)
  | list {items} : (∀ item ∈ items, Formats item) → Formats (.list items)
  | dict {members : List (Text × JsonValue)} : (∀ m ∈ members, WellFormed m.1) → (∀ m ∈ members, Formats m.2) →
      Formats (.dict members)

theorem spelling_of_ok {x : PyM Text} {text : Text} (h : x = .ok text) : spelling x = text := by rw [h]; rfl

theorem doc_list (items : List JsonValue) : doc (.list items) = .list (items.map doc) := by rw [doc]

theorem doc_dict (members : List (Text × JsonValue)) :
    doc (.dict members) = .object (sortBy (fun m => codeUnits m.1) (members.map fun m => (m.1, doc m.2))) := by
  rw [doc]

/-- A value that formats has only words in its document. -/
theorem Formats.spelled {v : JsonValue} (h : Formats v) : grammar.Spelled (doc v) := by
  induction h with
  | null =>
    rw [doc]
    exact .word ⟨by decide, by decide +kernel⟩
  | @bool b =>
    rw [doc]
    exact .word (by cases b <;> exact ⟨by decide, by decide +kernel⟩)
  | int hi =>
    rw [doc, spelling_of_ok hi]
    exact .word (formatInt_isWord hi)
  | float hf =>
    rw [doc, spelling_of_ok hf]
    exact .word (formatFloat_isWord hf)
  | str =>
    rw [doc]
    exact .str
  | @list items _ ih =>
    rw [doc_list]
    refine .list fun d hd => ?_
    obtain ⟨item, hitem, rfl⟩ := List.mem_map.mp hd
    exact ih item hitem
  | @dict members _ _ ih =>
    rw [doc_dict]
    refine .object fun m hm => ?_
    obtain ⟨member, hmember, rfl⟩ := List.mem_map.mp (mem_sortBy.mp hm)
    exact ih member hmember

/-! ### Sorted names -/

theorem sortKey_eq_ok {name : Text} {key : List Nat} :
    sortKey name = .ok key ↔ WellFormed name ∧ bigEndian (codeUnits name) = key := by
  constructor
  · intro h
    have hw : WellFormed name := by
      intro c hc
      by_contra hs
      have hany : name.any isSurrogate = true := List.any_eq_true.mpr ⟨c, hc, by simpa using hs⟩
      simp [sortKey, utf16be?, hany] at h
    obtain ⟨octets, ho, hk⟩ := utf16be?_eq_some hw
    rw [sortKey, ho] at h
    exact ⟨hw, hk.symm.trans (Except.ok.inj h)⟩
  · rintro ⟨hw, rfl⟩
    obtain ⟨octets, ho, hk⟩ := utf16be?_eq_some hw
    rw [sortKey, ho]
    exact congrArg Except.ok hk

/-- The keys of names that all encode. -/
theorem sortKeys_eq_ok {names : List Text} {keys : List (List Nat)} :
    collect sortKey names = .ok keys ↔
      (∀ name ∈ names, WellFormed name) ∧ names.map (fun name => bigEndian (codeUnits name)) = keys := by
  rw [collect_eq_ok]
  induction names generalizing keys with
  | nil => cases keys <;> simp
  | cons name rest ih =>
    cases keys with
    | nil => simp
    | cons key keys =>
      rw [List.forall₂_cons, sortKey_eq_ok, ih, List.forall_mem_cons, List.map_cons, List.cons.injEq]
      tauto

/-- Names sort, where they all encode, by their code units. -/
theorem sortNames_eq_ok {names sorted : List Text} :
    sortNames names = .ok sorted ↔ (∀ name ∈ names, WellFormed name) ∧ sortBy codeUnits names = sorted := by
  have horder (s t : Text) : bigEndian (codeUnits s) ≤ bigEndian (codeUnits t) ↔ codeUnits s ≤ codeUnits t := by
    rw [← not_lt, ← not_lt, bigEndian_lt_iff]
  have hzip : (names.map fun name => bigEndian (codeUnits name)).zip names =
      names.map fun name => (bigEndian (codeUnits name), name) := by
    have hmap := List.zip_map' (f := fun name => bigEndian (codeUnits name)) (g := id) (l := names)
    rwa [List.map_id] at hmap
  have hsort : ((names.map fun name => (bigEndian (codeUnits name), name)).insertionSort
      (fun a b => a.1 ≤ b.1)).map Prod.snd = sortBy codeUnits names := by
    have hmap : (sortBy (fun name => bigEndian (codeUnits name)) names).map
        (fun name => (bigEndian (codeUnits name), name)) =
        sortBy Prod.fst (names.map fun name => (bigEndian (codeUnits name), name)) := map_sortBy fun _ _ => rfl
    rw [← sortBy_congr horder]
    exact (congrArg (List.map Prod.snd) hmap.symm).trans (by rw [List.map_map]; exact List.map_id _)
  simp only [sortNames, bind_eq_ok, sortKeys_eq_ok, Except.ok.injEq]
  constructor
  · rintro ⟨keys, ⟨hw, rfl⟩, hs⟩
    rw [hzip, hsort] at hs
    exact ⟨hw, hs⟩
  · rintro ⟨hw, hs⟩
    exact ⟨_, ⟨hw, rfl⟩, by rw [hzip, hsort, hs]⟩

/-! ### What the serializer writes -/

/-- A serializer succeeds on `a` exactly when `ok` holds and the nodes fit, and then
writes `text` having visited `count` more of them. -/
def Serializes {α : Type} (step : Serializer α) (a : α) (ok : Prop) (text : Text) (count : Nat) : Prop :=
  ∀ visits out visits', visits ≤ maxNodesVisited →
    (step a visits = .ok (out, visits') ↔
      ok ∧ visits + count ≤ maxNodesVisited ∧ text = out ∧ visits + count = visits')

theorem visit_eq_ok {visits visits' : Nat} :
    visit visits = .ok visits' ↔ visits + 1 ≤ maxNodesVisited ∧ visits + 1 = visits' := by
  simp [visit, bind_eq_ok, raiseIf_eq_ok]

/-- The parts of a container are written in order, the nodes adding up. -/
theorem serializeParts_serializes {α : Type} {step : Serializer α} {parts : List α} {ok : α → Prop} {text : α → Text}
    {count : α → Nat} (h : ∀ a ∈ parts, Serializes step a (ok a) (text a) (count a)) (first : Bool) :
    Serializes (serializeParts step first) parts (∀ a ∈ parts, ok a) (grammar.separated first (parts.map text))
      (parts.map count).sum := by
  induction parts generalizing first with
  | nil =>
    intro visits out visits' hle
    simp only [serializeParts, Except.ok.injEq, Prod.mk.injEq, List.map_nil, Grammar.separated, List.sum_nil,
      Nat.add_zero]
    constructor
    · rintro ⟨hout, hvisits⟩
      exact ⟨by simp, hle, hout, hvisits⟩
    · rintro ⟨_, _, hout, hvisits⟩
      exact ⟨hout, hvisits⟩
  | cons a rest ih =>
    intro visits out visits' hle
    have hcomma : txt "," = [grammar.comma] := by decide
    have ha := h a List.mem_cons_self
    have hrest := ih (fun b hb => h b (List.mem_cons_of_mem a hb)) false
    simp only [serializeParts, bind_eq_ok, Prod.exists, Except.ok.injEq, Prod.mk.injEq, List.map_cons,
      Grammar.separated, List.sum_cons, List.forall_mem_cons, hcomma]
    constructor
    · rintro ⟨part, mid, hpart, more, last, hmore, rfl, rfl⟩
      obtain ⟨hok, hmid, rfl, rfl⟩ := (ha visits part mid hle).mp hpart
      obtain ⟨hoks, hlast, rfl, rfl⟩ := (hrest _ more _ hmid).mp hmore
      exact ⟨⟨hok, hoks⟩, by omega, rfl, by omega⟩
    · rintro ⟨⟨hok, hoks⟩, hcap, rfl, rfl⟩
      refine ⟨_, _, (ha visits _ _ hle).mpr ⟨hok, by omega, rfl, rfl⟩, _, _,
        (hrest _ _ _ (by omega)).mpr ⟨hoks, by omega, rfl, rfl⟩, rfl, by omega⟩

/-- A value that contains no other is one node and its own spelling. -/
theorem leaf_serializes {v : JsonValue} {room : Nat} {x : PyM Text}
    (hs : ∀ visits, serialize (room + 1) v visits = (do
      let visits ← visit visits
      let text ← x
      .ok (text, visits)))
    (hx : ∀ text, x = .ok text ↔ Formats v ∧ grammar.text (doc v) = text) (hw : v.Within (room + 1)) (hn : v.nodes = 1) :
    Serializes (serialize (room + 1)) v (Formats v ∧ v.Within (room + 1)) (grammar.text (doc v)) v.nodes := by
  intro visits out visits' _
  rw [hs, hn]
  simp only [bind_eq_ok, visit_eq_ok, Except.ok.injEq, Prod.mk.injEq, hx]
  constructor
  · rintro ⟨mid, ⟨hcap, rfl⟩, text, ⟨hf, rfl⟩, rfl, rfl⟩
    exact ⟨⟨hf, hw⟩, hcap, rfl, rfl⟩
  · rintro ⟨⟨hf, _⟩, hcap, rfl, rfl⟩
    exact ⟨_, ⟨hcap, rfl⟩, _, ⟨hf, rfl⟩, rfl, rfl⟩

/-- With no level left nothing is written. -/
theorem serialize_zero (v : JsonValue) :
    Serializes (serialize 0) v (Formats v ∧ v.Within 0) (grammar.text (doc v)) v.nodes := by
  intro visits out visits' _
  simp [serialize, bind_eq_ok, JsonValue.Within]

theorem list_serializes {items : List JsonValue} {room : Nat}
    (ih : ∀ item ∈ items, Serializes (serialize room) item (Formats item ∧ item.Within room) (grammar.text (doc item))
      item.nodes) :
    Serializes (serialize (room + 1)) (.list items) (Formats (.list items) ∧ (JsonValue.list items).Within (room + 1))
      (grammar.text (doc (.list items))) (JsonValue.list items).nodes := by
  have hparts := serializeParts_serializes ih true
  have hopen : txt "[" = [grammar.listOpen] := by decide
  have hclose : txt "]" = [grammar.listClose] := by decide
  have hnodes : (JsonValue.list items).nodes = (items.map JsonValue.nodes).sum + 1 := by rw [JsonValue.nodes]
  have hok : (∀ item ∈ items, Formats item ∧ item.Within room) ↔
      Formats (.list items) ∧ (JsonValue.list items).Within (room + 1) := by
    constructor
    · intro h
      exact ⟨.list fun item hi => (h item hi).1, fun item hi => (h item hi).2⟩
    · rintro ⟨hf, hw⟩ item hi
      cases hf with
      | list hf => exact ⟨hf item hi, hw item hi⟩
  intro visits out visits' hle
  rw [hnodes, doc_list, Grammar.text_list, List.map_map]
  simp only [serialize, bind_eq_ok, visit_eq_ok, Prod.exists, Except.ok.injEq, Prod.mk.injEq, hopen, hclose]
  constructor
  · rintro ⟨mid, ⟨hcap, rfl⟩, body, last, hbody, rfl, rfl⟩
    obtain ⟨hall, hlast, rfl, rfl⟩ := (hparts _ _ _ hcap).mp hbody
    exact ⟨hok.mp hall, by omega, rfl, by omega⟩
  · rintro ⟨hall, hcap, rfl, rfl⟩
    exact ⟨_, ⟨by omega, rfl⟩, _, _, (hparts _ _ _ (by omega)).mpr ⟨hok.mpr hall, by omega, rfl, rfl⟩, rfl, by omega⟩

/-- A member is its quoted name, a colon and its value. -/
theorem member_serializes {members : List (Text × JsonValue)} {room : Nat} {name : Text}
    (h : Serializes (serialize room) (Members.get members name)
      (Formats (Members.get members name) ∧ (Members.get members name).Within room)
      (grammar.text (doc (Members.get members name))) (Members.get members name).nodes) :
    Serializes (fun name visits => do
        let (text, visits) ← serialize room (Members.get members name) visits
        .ok (formatString name ++ txt ":" ++ text, visits)) name
      (Formats (Members.get members name) ∧ (Members.get members name).Within room)
      (grammar.member name (grammar.text (doc (Members.get members name)))) (Members.get members name).nodes := by
  have hcolon : txt ":" = [grammar.colon] := by decide
  intro visits out visits' hle
  simp only [bind_eq_ok, Prod.exists, Except.ok.injEq, Prod.mk.injEq, hcolon]
  constructor
  · rintro ⟨text, mid, htext, rfl, rfl⟩
    obtain ⟨hok, hcap, rfl, rfl⟩ := (h visits _ _ hle).mp htext
    exact ⟨hok, hcap, by simp [Grammar.member, grammar], rfl⟩
  · rintro ⟨hok, hcap, rfl, rfl⟩
    exact ⟨_, _, (h visits _ _ hle).mpr ⟨hok, hcap, rfl, rfl⟩, by simp [Grammar.member, grammar], rfl⟩

/-- The members of an object are written in the order of their names. -/
theorem dict_serializes {members : List (Text × JsonValue)} {room : Nat} (hnames : (Members.names members).Nodup)
    (ih : ∀ m ∈ members, Serializes (serialize room) m.2 (Formats m.2 ∧ m.2.Within room) (grammar.text (doc m.2))
      m.2.nodes) :
    Serializes (serialize (room + 1)) (.dict members)
      (Formats (.dict members) ∧ (JsonValue.dict members).Within (room + 1)) (grammar.text (doc (.dict members)))
      (JsonValue.dict members).nodes := by
  have hopen : txt "\x7b" = [grammar.objectOpen] := by decide
  have hclose : txt "\x7d" = [grammar.objectClose] := by decide
  -- reading a member back by its name
  have hget : ∀ m ∈ members, Members.get members m.1 = m.2 := fun m hm => Members.get_of_mem hnames hm
  have hname : ∀ name ∈ sortBy codeUnits (Members.names members), ∃ m ∈ members, m.1 = name := by
    intro name hn
    exact List.mem_map.mp (mem_sortBy.mp hn)
  have hmember : ∀ name ∈ sortBy codeUnits (Members.names members), Serializes (fun name visits => do
      let (text, visits) ← serialize room (Members.get members name) visits
      .ok (formatString name ++ txt ":" ++ text, visits)) name
      (Formats (Members.get members name) ∧ (Members.get members name).Within room)
      (grammar.member name (grammar.text (doc (Members.get members name)))) (Members.get members name).nodes := by
    intro name hn
    obtain ⟨m, hm, rfl⟩ := hname name hn
    have h := ih m hm
    rw [← hget m hm] at h
    exact member_serializes h
  have hparts := serializeParts_serializes hmember true
  have htext : (sortBy codeUnits (Members.names members)).map (fun name =>
      grammar.member name (grammar.text (doc (Members.get members name)))) =
      (sortBy (fun m => codeUnits m.1) (members.map fun m => (m.1, doc m.2))).map
        (fun m => grammar.member m.1 (grammar.text m.2)) := by
    have hleft : (sortBy (fun m => codeUnits m.1) members).map Prod.fst = sortBy codeUnits (members.map Prod.fst) :=
      map_sortBy fun _ _ => rfl
    have hright : (sortBy (fun m => codeUnits m.1) members).map (fun m => (m.1, doc m.2)) =
        sortBy (fun m => codeUnits m.1) (members.map fun m => (m.1, doc m.2)) := map_sortBy fun _ _ => rfl
    rw [Members.names, ← hleft, ← hright, List.map_map, List.map_map]
    refine List.map_congr_left fun m hm => ?_
    simp only [Function.comp_apply, hget m (mem_sortBy.mp hm)]
  have hcount : ((sortBy codeUnits (Members.names members)).map fun name => (Members.get members name).nodes).sum + 1 =
      (JsonValue.dict members).nodes := by
    have hperm := (sortBy_perm codeUnits (Members.names members)).map fun name => (Members.get members name).nodes
    rw [hperm.sum_eq, Members.names, List.map_map, JsonValue.nodes]
    congr 2
    refine List.map_congr_left fun m hm => ?_
    simp only [Function.comp_apply, hget m hm]
  have hok : ((∀ name ∈ Members.names members, WellFormed name) ∧ ∀ name ∈ sortBy codeUnits (Members.names members),
      Formats (Members.get members name) ∧ (Members.get members name).Within room) ↔
      Formats (.dict members) ∧ (JsonValue.dict members).Within (room + 1) := by
    constructor
    · rintro ⟨hw, hall⟩
      have hvalue : ∀ m ∈ members, Formats m.2 ∧ m.2.Within room := by
        intro m hm
        have h := hall m.1 (mem_sortBy.mpr (List.mem_map_of_mem hm))
        rwa [hget m hm] at h
      exact ⟨.dict (fun m hm => hw m.1 (List.mem_map_of_mem hm)) fun m hm => (hvalue m hm).1,
        fun m hm => (hvalue m hm).2⟩
    · rintro ⟨hf, hw⟩
      cases hf with
      | dict hn hf =>
        constructor
        · intro name hmem
          obtain ⟨m, hm, rfl⟩ := List.mem_map.mp hmem
          exact hn m hm
        · intro name hmem
          obtain ⟨m, hm, rfl⟩ := hname name hmem
          rw [hget m hm]
          exact ⟨hf m hm, hw m hm⟩
  intro visits out visits' hle
  rw [← hcount, doc_dict, Grammar.text_object, ← htext, ← hok]
  simp only [serialize, bind_eq_ok, visit_eq_ok, sortNames_eq_ok, Prod.exists, Except.ok.injEq, Prod.mk.injEq, hopen,
    hclose]
  constructor
  · rintro ⟨mid, ⟨hcap, rfl⟩, names, ⟨hw, rfl⟩, body, last, hbody, rfl, rfl⟩
    obtain ⟨hall, hlast, rfl, rfl⟩ := (hparts _ _ _ hcap).mp (by simpa only [bind_eq_ok, Prod.exists] using hbody)
    exact ⟨⟨hw, hall⟩, by omega, rfl, by omega⟩
  · rintro ⟨⟨hw, hall⟩, hcap, rfl, rfl⟩
    exact ⟨_, ⟨by omega, rfl⟩, _, ⟨hw, rfl⟩, _, _, (hparts _ _ _ (by omega)).mpr ⟨hall, by omega, rfl, rfl⟩, rfl,
      by omega⟩

theorem serialize_serializes {v : JsonValue} (hd : v.Distinct) (room : Nat) :
    Serializes (serialize room) v (Formats v ∧ v.Within room) (grammar.text (doc v)) v.nodes := by
  induction hd generalizing room with
  | null =>
    cases room with
    | zero => exact serialize_zero _
    | succ room =>
      refine leaf_serializes (x := .ok (txt "null")) (fun _ => rfl) (fun text => ?_) trivial (by simp [JsonValue.nodes])
      rw [doc, Grammar.text_word, Except.ok.injEq]
      exact ⟨fun h => ⟨.null, h⟩, fun h => h.2⟩
  | @bool b =>
    cases room with
    | zero => exact serialize_zero _
    | succ room =>
      refine leaf_serializes (x := .ok (if b then txt "true" else txt "false")) (fun _ => rfl) (fun text => ?_) trivial
        (by simp [JsonValue.nodes])
      rw [doc, Grammar.text_word, Except.ok.injEq]
      exact ⟨fun h => ⟨.bool, h⟩, fun h => h.2⟩
  | @int i =>
    cases room with
    | zero => exact serialize_zero _
    | succ room =>
      refine leaf_serializes (x := formatInt i) (fun _ => rfl) (fun text => ?_) trivial (by simp [JsonValue.nodes])
      rw [doc, Grammar.text_word]
      refine ⟨fun h => ⟨.int h, spelling_of_ok h⟩, ?_⟩
      rintro ⟨hf, rfl⟩
      cases hf with
      | int h => rw [spelling_of_ok h, h]
  | @float f =>
    cases room with
    | zero => exact serialize_zero _
    | succ room =>
      refine leaf_serializes (x := formatFloat f) (fun _ => rfl) (fun text => ?_) trivial (by simp [JsonValue.nodes])
      rw [doc, Grammar.text_word]
      refine ⟨fun h => ⟨.float h, spelling_of_ok h⟩, ?_⟩
      rintro ⟨hf, rfl⟩
      cases hf with
      | float h => rw [spelling_of_ok h, h]
  | @str s =>
    cases room with
    | zero => exact serialize_zero _
    | succ room =>
      refine leaf_serializes (x := .ok (formatString s)) (fun _ => rfl) (fun text => ?_) trivial
        (by simp [JsonValue.nodes])
      rw [doc, Grammar.text_str, Except.ok.injEq]
      exact ⟨fun h => ⟨.str, h⟩, fun h => h.2⟩
  | list _ ih =>
    cases room with
    | zero => exact serialize_zero _
    | succ room => exact list_serializes fun item hi => ih item hi room
  | dict hnames _ ih =>
    cases room with
    | zero => exact serialize_zero _
    | succ room => exact dict_serializes hnames fun m hm => ih m hm room

/-! ### What encodes -/

theorem escapeChar_wellFormed {c : CodePoint} : WellFormed (escapeChar c) ↔ isSurrogate c = false := by
  have hescapes : (escapedChars.all fun c => !isSurrogate c && (escapeChar c).all fun d => !isSurrogate d) = true := by
    decide +kernel
  by_cases hc : c ∈ escapedChars
  · have h := List.all_eq_true.mp hescapes c hc
    rw [Bool.and_eq_true, Bool.not_eq_true', List.all_eq_true] at h
    exact iff_of_true (fun d hd => by simpa using h.2 d hd) h.1
  · rw [escapeChar_plain hc]
    simp [WellFormed]

/-- A quoted string encodes exactly when the string does. -/
theorem formatString_wellFormed {s : Text} : WellFormed (formatString s) ↔ WellFormed s := by
  have hquote : isSurrogate 0x22 = false := by decide
  have hbody : WellFormed (s.flatMap escapeChar) ↔ WellFormed s := by
    induction s with
    | nil => simp [WellFormed]
    | cons c s ih => rw [List.flatMap_cons, wellFormed_append, escapeChar_wellFormed, wellFormed_cons, ih]
  rw [formatString_eq, wellFormed_cons, wellFormed_append, hbody]
  simp [WellFormed, hquote]

theorem WordText.wellFormed {t : Text} (h : WordText t) : WellFormed t := by
  intro c hc
  have hword := h c hc
  have hplus : (0x2B : CodePoint).val = 0x2B := rfl
  have hminus : (0x2D : CodePoint).val = 0x2D := rfl
  have hpoint : (0x2E : CodePoint).val = 0x2E := rfl
  simp only [isWordChar, Bool.or_eq_true, Bool.and_eq_true, decide_eq_true_eq, beq_iff_eq, Fin.ext_iff] at hword
  simp only [isSurrogate, Bool.and_eq_false_iff, decide_eq_false_iff_not]
  omega

theorem separated_wellFormed {parts : List Text} {first : Bool} :
    WellFormed (grammar.separated first parts) ↔ ∀ part ∈ parts, WellFormed part := by
  induction parts generalizing first with
  | nil => simp [Grammar.separated, WellFormed]
  | cons part rest ih =>
    have hcomma : WellFormed (if first then [] else [grammar.comma]) := by
      have hplain : isSurrogate grammar.comma = false := by decide
      cases first <;> simp [WellFormed, hplain]
    rw [Grammar.separated, wellFormed_append, wellFormed_append, ih, List.forall_mem_cons]
    tauto

/-- The text of a value encodes exactly when its strings and names do. -/
theorem text_wellFormed {v : JsonValue} (h : Formats v) : WellFormed (grammar.text (doc v)) ↔ v.Encodes := by
  have hbracket : isSurrogate grammar.listOpen = false ∧ isSurrogate grammar.listClose = false := by decide
  have hbrace : isSurrogate grammar.objectOpen = false ∧ isSurrogate grammar.objectClose = false := by decide
  have hcolon : isSurrogate grammar.colon = false := by decide
  have hspelled := h.spelled
  induction h with
  | null | bool | int | float =>
    rw [doc] at hspelled ⊢
    cases hspelled with
    | word hw =>
      rw [Grammar.text_word]
      exact iff_of_true hw.2.wellFormed (by constructor)
  | str =>
    rw [doc, Grammar.text_str]
    refine formatString_wellFormed.trans ⟨.str, ?_⟩
    intro he
    cases he with
    | str hs => exact hs
  | @list items hf ih =>
    rw [doc_list, Grammar.text_list, wellFormed_cons, wellFormed_append, separated_wellFormed]
    constructor
    · rintro ⟨_, hall, _⟩
      refine .list fun item hi => (ih item hi (hf item hi).spelled).mp (hall _ ?_)
      exact List.mem_map_of_mem (List.mem_map_of_mem hi)
    · intro he
      cases he with
      | list he =>
        refine ⟨hbracket.1, ?_, by simp [WellFormed, hbracket.2]⟩
        intro part hp
        rw [List.map_map] at hp
        obtain ⟨item, hi, rfl⟩ := List.mem_map.mp hp
        exact (ih item hi (hf item hi).spelled).mpr (he item hi)
  | @dict members hn hf ih =>
    have hmember (m : Text × JsonValue) (hm : m ∈ members) :
        WellFormed (grammar.member m.1 (grammar.text (doc m.2))) ↔ m.2.Encodes := by
      have hvalue : WellFormed (grammar.text (doc m.2)) ↔ m.2.Encodes := ih m hm (hf m hm).spelled
      rw [Grammar.member, wellFormed_append, wellFormed_cons, hvalue]
      exact ⟨fun h => h.2.2, fun h => ⟨formatString_wellFormed.mpr (hn m hm), hcolon, h⟩⟩
    rw [doc_dict, Grammar.text_object, wellFormed_cons, wellFormed_append, separated_wellFormed]
    constructor
    · rintro ⟨_, hall, _⟩
      refine .dict hn fun m hm => (hmember m hm).mp (hall _ ?_)
      exact List.mem_map.mpr ⟨_, mem_sortBy.mpr (List.mem_map_of_mem hm), rfl⟩
    · intro he
      cases he with
      | dict _ he =>
        refine ⟨hbrace.1, ?_, by simp [WellFormed, hbrace.2]⟩
        intro part hp
        obtain ⟨d, hd, rfl⟩ := List.mem_map.mp hp
        obtain ⟨m, hm, rfl⟩ := List.mem_map.mp (mem_sortBy.mp hd)
        exact (hmember m hm).mpr (he m hm)

/-! ### The canonical octets -/

/-- The octets are the text of the document. -/
def Writes (octets : Bytes) (d : Doc CodePoint) : Prop := grammar.Spelled d ∧ utf8? (grammar.text d) = some octets

/-- Octets are the text of at most one document. -/
theorem Writes.unique {octets : Bytes} {d d' : Doc CodePoint} (h : Writes octets d) (h' : Writes octets d') : d = d' :=
  grammar.text_injective h.1 h'.1 (utf8?_injective h.2 h'.2)

theorem dumps_eq_ok {v : JsonValue} (hd : v.Distinct) {text : Text} :
    dumps v = .ok text ↔
      Formats v ∧ v.Within (maxDepth + 1) ∧ v.nodes ≤ maxNodesVisited ∧ grammar.text (doc v) = text := by
  simp only [dumps, bind_eq_ok, Prod.exists, Except.ok.injEq]
  have h := serialize_serializes hd (maxDepth + 1)
  constructor
  · rintro ⟨out, visits, hs, rfl⟩
    obtain ⟨⟨hf, hw⟩, hn, rfl, _⟩ := (h 0 _ _ (Nat.zero_le _)).mp hs
    exact ⟨hf, hw, by omega, rfl⟩
  · rintro ⟨hf, hw, hn, rfl⟩
    exact ⟨_, _, (h 0 _ _ (Nat.zero_le _)).mpr ⟨⟨hf, hw⟩, by omega, rfl, rfl⟩, rfl⟩

/-- The canonical octets are the text of the value's document, within the caps. -/
theorem canonicalize_eq_ok {v : JsonValue} (hd : v.Distinct) {octets : Bytes} :
    canonicalize v = .ok octets ↔
      Formats v ∧ v.Within (maxDepth + 1) ∧ v.nodes ≤ maxNodesVisited ∧ utf8? (grammar.text (doc v)) = some octets := by
  simp only [canonicalize, bind_eq_ok, dumps_eq_ok hd]
  constructor
  · rintro ⟨text, ⟨hf, hw, hn, rfl⟩, ho⟩
    cases hu : utf8? (grammar.text (doc v)) with
    | none => simp [hu] at ho
    | some found =>
      rw [hu] at ho
      exact ⟨hf, hw, hn, congrArg some (Except.ok.inj ho)⟩
  · rintro ⟨hf, hw, hn, hu⟩
    exact ⟨_, ⟨hf, hw, hn, rfl⟩, by rw [hu]⟩

/-- Values with one canonical form have one document. -/
theorem canonicalize_writes {v : JsonValue} (hd : v.Distinct) {octets : Bytes} (h : canonicalize v = .ok octets) :
    Writes octets (doc v) := by
  obtain ⟨hf, _, _, hu⟩ := (canonicalize_eq_ok hd).mp h
  exact ⟨hf.spelled, hu⟩

end Jcs

end AitpVerifier
