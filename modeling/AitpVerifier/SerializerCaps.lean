import AitpVerifier.CanonicalLeaks
import AitpVerifier.FloatText
import AitpVerifier.Metered

/-!
# The caps of the serializer

The caps decide which values are serialized and nothing of what is written: within
them the text is that of the recursion without its counters, and a walk that is cut
has entered one node too many at most.
-/
namespace AitpVerifier

open PyText Checked

/-- The containers around the innermost value. -/
def JsonValue.depth : JsonValue → Nat
  | .list items => (items.map fun item => depth item + 1).foldr max 0
  | .dict members => (members.map fun m => depth m.2 + 1).foldr max 0
  | _ => 0
termination_by v => sizeOf v
decreasing_by
  · have := List.sizeOf_lt_of_mem ‹_›
    simp only [JsonValue.list.sizeOf_spec]
    omega
  · rename_i hm
    have := List.sizeOf_lt_of_mem hm
    obtain ⟨name, v⟩ := m
    simp only [JsonValue.dict.sizeOf_spec, Prod.mk.sizeOf_spec] at this ⊢
    omega

/-- Every number converts to a finite double. -/
inductive JsonValue.Converts : JsonValue → Prop
  | null : Converts .null
  | bool {b} : Converts (.bool b)
  | int {i f} : Binary64.ofInt? i = some f → Converts (.int i)
  | float {f} : f.isFinite = true → Converts (.float f)
  | str {s} : Converts (.str s)
  | list {items} : (∀ item ∈ items, Converts item) → Converts (.list items)
  | dict {members : List (Text × JsonValue)} : (∀ m ∈ members, Converts m.2) → Converts (.dict members)

/-- The levels a value needs are one more than the containers around its innermost. -/
theorem JsonValue.within_iff {v : JsonValue} {room : Nat} : v.Within room ↔ v.depth < room := by
  induction room generalizing v with
  | zero => simp [Within]
  | succ room ih =>
    cases v with
    | list items =>
      rw [depth, levels_lt]
      exact forall₂_congr fun item _ => ih
    | dict members =>
      rw [depth, levels_lt]
      exact forall₂_congr fun m _ => ih
    | _ => simp [Within, depth]

namespace Jcs

/-! ### The numbers that are written -/

theorem ofInt?_isFinite {i : Int} {f : Binary64} (h : Binary64.ofInt? i = some f) : f.isFinite = true := by
  have hdef : Binary64.ofInt? = Binary64.ofInt? := rfl
  conv at hdef => rhs; delta Binary64.ofInt?
  rw [hdef] at h
  beta_reduce at h
  cases hr : Binary64.round (decide (i < 0)) i.natAbs 1 with
  | finite negative mantissa scale hc =>
    rw [hr] at h
    rw [← Option.some.inj h]
    rfl
  | inf negative =>
    rw [hr] at h
    cases h
  | nan =>
    rw [hr] at h
    cases h

/-- An integer has a spelling exactly when it converts to a double. -/
theorem formatInt_isOk (i : Int) : (formatInt i).isOk = (Binary64.ofInt? i).isSome := by
  cases hf : Binary64.ofInt? i with
  | some f => rw [ofInt?_formatInt hf, formatFloat_isOk, ofInt?_isFinite hf, Option.isSome_some]
  | none =>
    cases hx : formatInt i with
    | ok text => exact absurd hx (formatInt_none hf text)
    | error e => rfl

/-- Where names encode, a value formats exactly when its numbers convert. -/
theorem formats_iff {v : JsonValue} (he : v.Encodes) : Formats v ↔ v.Converts := by
  induction he with
  | null => exact iff_of_true .null .null
  | bool => exact iff_of_true .bool .bool
  | str => exact iff_of_true .str .str
  | @int i =>
    have hok := formatInt_isOk i
    constructor
    · intro hf
      cases hf with
      | int h =>
        rw [h] at hok
        obtain ⟨f, hconvert⟩ := Option.isSome_iff_exists.mp hok.symm
        exact .int hconvert
    · intro hc
      cases hc with
      | int h =>
        rw [h, Option.isSome_some] at hok
        obtain ⟨text, htext⟩ := isOk_iff.mp hok
        exact .int htext
  | @float f =>
    have hok := @formatFloat_isOk f
    constructor
    · intro hf
      cases hf with
      | float h =>
        rw [h] at hok
        exact .float hok.symm
    · intro hc
      cases hc with
      | float h =>
        obtain ⟨text, htext⟩ := isOk_iff.mp (hok.trans h)
        exact .float htext
  | list _ ih =>
    constructor
    · intro hf
      cases hf with
      | list hf => exact .list fun item hi => (ih item hi).mp (hf item hi)
    · intro hc
      cases hc with
      | list hc => exact .list fun item hi => (ih item hi).mpr (hc item hi)
  | dict hnames _ ih =>
    constructor
    · intro hf
      cases hf with
      | dict _ hf => exact .dict fun m hm => (ih m hm).mp (hf m hm)
    · intro hc
      cases hc with
      | dict hc => exact .dict hnames fun m hm => (ih m hm).mpr (hc m hm)

/-! ### Where canonicalization succeeds -/

theorem canonicalize_isOk {v : JsonValue} (hd : v.Distinct) (he : v.Encodes) :
    (canonicalize v).isOk = true ↔ v.Converts ∧ v.depth ≤ maxDepth ∧ v.nodes ≤ maxNodesVisited := by
  simp only [isOk_iff, canonicalize_eq_ok hd, JsonValue.within_iff, Nat.lt_succ_iff]
  constructor
  · rintro ⟨octets, hformats, hdepth, hnodes, _⟩
    exact ⟨(formats_iff he).mp hformats, hdepth, hnodes⟩
  · rintro ⟨hconverts, hdepth, hnodes⟩
    have hformats := (formats_iff he).mpr hconverts
    exact ⟨_, hformats, hdepth, hnodes, utf8?_eq_some ((text_wellFormed hformats).mpr he)⟩

/-! ### The recursion without its counters -/

/-- The parts of a container, comma separated. -/
def uncappedParts {α : Type} (step : α → PyM Text) (first : Bool) : List α → PyM Text
  | [] => .ok []
  | part :: rest => do
    let out ← step part
    let more ← uncappedParts step false rest
    .ok ((if first then [] else txt ",") ++ out ++ more)

theorem sizeOf_get_lt (members : Members) (name : Text) : sizeOf (members.get name) < sizeOf (JsonValue.dict members) := by
  rw [Members.get, JsonValue.dict.sizeOf_spec]
  cases hg : members.get? name with
  | none =>
    have hpos : 0 < sizeOf members := by cases members <;> simp
    rw [Option.getD_none, JsonValue.null.sizeOf_spec]
    omega
  | some value =>
    have hmem := List.sizeOf_lt_of_mem (Members.mem_of_get? hg)
    rw [Prod.mk.sizeOf_spec] at hmem
    rw [Option.getD_some]
    omega

/-- `_serialize` without its caps: the same recursion, neither depth nor nodes counted. -/
def serializeUncapped : JsonValue → PyM Text
  | .null => .ok (txt "null")
  | .bool b => .ok (if b then txt "true" else txt "false")
  | .str s => .ok (formatString s)
  | .int i => formatInt i
  | .float f => formatFloat f
  | .list items => do
    let out ← uncappedParts (fun item => serializeUncapped item.val) true items.attach
    .ok (txt "[" ++ out ++ txt "]")
  | .dict members => do
    let names ← sortNames (Members.names members)
    let out ← uncappedParts (fun name => do
      let text ← serializeUncapped (Members.get members name)
      .ok (formatString name ++ txt ":" ++ text)) true names
    .ok (txt "\x7b" ++ out ++ txt "\x7d")
termination_by v => sizeOf v
decreasing_by
  · have := List.sizeOf_lt_of_mem item.property
    simp only [JsonValue.list.sizeOf_spec]
    omega
  · exact sizeOf_get_lt members name

theorem uncappedParts_map {α β : Type} (step : β → PyM Text) (f : α → β) (parts : List α) (first : Bool) :
    uncappedParts (fun a => step (f a)) first parts = uncappedParts step first (parts.map f) := by
  induction parts generalizing first with
  | nil => rfl
  | cons a rest ih => rw [List.map_cons, uncappedParts, uncappedParts, ih]

theorem serializeUncapped_list (items : List JsonValue) : serializeUncapped (.list items) = (do
    let out ← uncappedParts serializeUncapped true items
    .ok (txt "[" ++ out ++ txt "]")) := by
  have hattach := uncappedParts_map serializeUncapped Subtype.val items.attach true
  rw [List.attach_map_subtype_val] at hattach
  rw [serializeUncapped.eq_def, ← hattach]

theorem serializeUncapped_dict (members : Members) : serializeUncapped (.dict members) = (do
    let names ← sortNames members.names
    let out ← uncappedParts (fun name => do
      let text ← serializeUncapped (members.get name)
      .ok (formatString name ++ txt ":" ++ text)) true names
    .ok (txt "\x7b" ++ out ++ txt "\x7d")) := by
  rw [serializeUncapped.eq_def]

def canonicalizeUncapped (value : JsonValue) : PyM Bytes := do
  let out ← serializeUncapped value
  match utf8? out with
  | some octets => .ok octets
  | none => .error (.raised .unicode (txt "'utf-8' codec can't encode: surrogates not allowed"))

/-- What `step` serializes, `free` serializes to the same text, whatever was visited before. -/
def Erases {α : Type} (step : Serializer α) (free : α → PyM Text) (a : α) : Prop :=
  ∀ visits out visits', step a visits = .ok (out, visits') → free a = .ok out

theorem serializeParts_erases {α : Type} {step : Serializer α} {free : α → PyM Text} {parts : List α}
    (h : ∀ a ∈ parts, Erases step free a) (first : Bool) :
    Erases (serializeParts step first) (uncappedParts free first) parts := by
  induction parts generalizing first with
  | nil =>
    intro visits out visits' hs
    obtain ⟨rfl, _⟩ := Prod.mk.inj (Except.ok.inj hs)
    rfl
  | cons a rest ih =>
    intro visits out visits' hs
    simp only [serializeParts, bind_eq_ok, Prod.exists, Except.ok.injEq, Prod.mk.injEq] at hs
    obtain ⟨part, mid, hpart, more, last, hmore, rfl, _⟩ := hs
    have hfirst := h a List.mem_cons_self visits part mid hpart
    have hrest := ih (fun b hb => h b (List.mem_cons_of_mem a hb)) false mid more last hmore
    rw [uncappedParts, hfirst, ok_bind, hrest]
    rfl

/-- Within the caps the counters leave no mark on the text, by induction on the levels left. -/
theorem serialize_erases (room : Nat) (v : JsonValue) : Erases (serialize room) serializeUncapped v := by
  induction room generalizing v with
  | zero =>
    intro visits out visits' hs
    simp only [serialize, bind_eq_ok, reduceCtorEq, and_false, exists_false] at hs
  | succ room ih =>
    intro visits out visits' hs
    rw [serialize] at hs
    obtain ⟨visited, _, hs⟩ := bind_eq_ok.mp hs
    cases v with
    | null =>
      obtain ⟨rfl, _⟩ := Prod.mk.inj (Except.ok.inj hs)
      rw [serializeUncapped.eq_def]
    | bool b =>
      obtain ⟨rfl, _⟩ := Prod.mk.inj (Except.ok.inj hs)
      rw [serializeUncapped.eq_def]
    | str s =>
      obtain ⟨rfl, _⟩ := Prod.mk.inj (Except.ok.inj hs)
      rw [serializeUncapped.eq_def]
    | int i =>
      obtain ⟨text, htext, hs⟩ := bind_eq_ok.mp hs
      obtain ⟨rfl, _⟩ := Prod.mk.inj (Except.ok.inj hs)
      rw [serializeUncapped.eq_def, ← htext]
    | float f =>
      obtain ⟨text, htext, hs⟩ := bind_eq_ok.mp hs
      obtain ⟨rfl, _⟩ := Prod.mk.inj (Except.ok.inj hs)
      rw [serializeUncapped.eq_def, ← htext]
    | list items =>
      obtain ⟨⟨body, last⟩, hbody, hs⟩ := bind_eq_ok.mp hs
      obtain ⟨rfl, _⟩ := Prod.mk.inj (Except.ok.inj hs)
      have hparts := serializeParts_erases (fun item _ => ih item) true visited body last hbody
      rw [serializeUncapped_list, hparts]
      rfl
    | dict members =>
      obtain ⟨names, hnames, hs⟩ := bind_eq_ok.mp hs
      obtain ⟨⟨body, last⟩, hbody, hs⟩ := bind_eq_ok.mp hs
      obtain ⟨rfl, _⟩ := Prod.mk.inj (Except.ok.inj hs)
      have hmember (name : Text) : Erases (fun name visits => do
          let serialized ← serialize room (Members.get members name) visits
          .ok (formatString name ++ txt ":" ++ serialized.1, serialized.2)) (fun name => do
          let text ← serializeUncapped (Members.get members name)
          .ok (formatString name ++ txt ":" ++ text)) name := by
        intro visits out visits' hs
        obtain ⟨⟨text, mid⟩, htext, hs⟩ := bind_eq_ok.mp hs
        obtain ⟨rfl, _⟩ := Prod.mk.inj (Except.ok.inj hs)
        dsimp only
        rw [ih (Members.get members name) visits text mid htext]
        rfl
      have hparts := serializeParts_erases (fun name _ => hmember name) true visited body last hbody
      rw [serializeUncapped_dict, hnames, ok_bind, hparts]
      rfl

theorem canonicalize_uncapped {v : JsonValue} {octets : Bytes} (h : canonicalize v = .ok octets) :
    canonicalizeUncapped v = .ok octets := by
  obtain ⟨out, hdumps, hencode⟩ := bind_eq_ok.mp h
  obtain ⟨⟨text, last⟩, hserialize, hout⟩ := bind_eq_ok.mp hdumps
  obtain rfl := Except.ok.inj hout
  rw [canonicalizeUncapped, serialize_erases (maxDepth + 1) v 0 text last hserialize]
  exact hencode

/-! ### The nodes entered -/

/-- `serializeParts` under an account of the nodes entered. -/
def meteredParts {α : Type} (step : α → Nat → Metered Nat PyErr (Text × Nat)) (first : Bool) :
    List α → Nat → Metered Nat PyErr (Text × Nat)
  | [], visits => pure ([], visits)
  | part :: rest, visits => do
    let (out, visits) ← step part visits
    let (more, visits) ← meteredParts step false rest visits
    pure ((if first then [] else txt ",") ++ out ++ more, visits)

/-- `serialize`, every node counted on entry. -/
def meteredSerialize : Nat → JsonValue → Nat → Metered Nat PyErr (Text × Nat)
  | 0, _, visits => do
    Metered.spend Nat.succ
    let _ ← Metered.lift (visit visits)
    Metered.lift (.error (JcsError (txt "JSON nesting exceeds the maximum canonicalizable depth (256)")))
  | room + 1, value, visits => do
    Metered.spend Nat.succ
    let visits ← Metered.lift (visit visits)
    match value with
    | .null => pure (txt "null", visits)
    | .bool b => pure (if b then txt "true" else txt "false", visits)
    | .str s => pure (formatString s, visits)
    | .int i => do
      let text ← Metered.lift (formatInt i)
      pure (text, visits)
    | .float f => do
      let text ← Metered.lift (formatFloat f)
      pure (text, visits)
    | .list items => do
      let (out, visits) ← meteredParts (meteredSerialize room) true items visits
      pure (txt "[" ++ out ++ txt "]", visits)
    | .dict members => do
      let names ← Metered.lift (sortNames (Members.names members))
      let (out, visits) ← meteredParts (fun name visits => do
        let (text, visits) ← meteredSerialize room (Members.get members name) visits
        pure (formatString name ++ txt ":" ++ text, visits)) true names visits
      pure (txt "\x7b" ++ out ++ txt "\x7d", visits)

def meteredCanonicalize (value : JsonValue) : Metered Nat PyErr Bytes := do
  let (out, _) ← meteredSerialize (maxDepth + 1) value 0
  match utf8? out with
  | some octets => pure octets
  | none => Metered.lift (.error (.raised .unicode (txt "'utf-8' codec can't encode: surrogates not allowed")))

open Metered

theorem meteredParts_computes {α : Type} {step : α → Nat → Metered Nat PyErr (Text × Nat)} {step' : Serializer α}
    (h : ∀ a visits, Computes (step a visits) (step' a visits)) (first : Bool) (parts : List α) (visits : Nat) :
    Computes (meteredParts step first parts visits) (serializeParts step' first parts visits) := by
  induction parts generalizing first visits with
  | nil => exact .pure
  | cons a rest ih => exact (h a visits).bind fun _ _ => (ih false _).bind fun _ _ => .pure

/-- Erased, the counted serializer is the serializer. -/
theorem meteredSerialize_computes (room : Nat) (v : JsonValue) (visits : Nat) :
    Computes (meteredSerialize room v visits) (serialize room v visits) := by
  induction room generalizing v visits with
  | zero => exact .spend (.bind .lift fun _ _ => .lift)
  | succ room ih =>
    rw [meteredSerialize, serialize]
    refine .spend (.bind .lift fun visited _ => ?_)
    cases v with
    | null | bool | str => exact .pure
    | int | float => exact .bind .lift fun _ _ => .pure
    | list items => exact (meteredParts_computes ih true items visited).bind fun _ _ => .pure
    | dict members =>
      refine .bind .lift fun names _ => ?_
      exact (meteredParts_computes (fun name visits => (ih (Members.get members name) visits).bind fun _ _ => .pure) true
        names visited).bind fun _ _ => .pure

theorem meteredCanonicalize_computes (v : JsonValue) : Computes (meteredCanonicalize v) (canonicalize v) := by
  have hdumps : canonicalize v = serialize (maxDepth + 1) v 0 >>= fun (out, _) =>
      match utf8? out with
      | some octets => .ok octets
      | none => .error (.raised .unicode (txt "'utf-8' codec can't encode: surrogates not allowed")) := by
    rw [canonicalize, dumps]
    cases serialize (maxDepth + 1) v 0 <;> rfl
  rw [hdumps]
  refine (meteredSerialize_computes _ v 0).bind fun written _ => ?_
  obtain ⟨out, visits⟩ := written
  dsimp only
  cases utf8? out with
  | some octets => exact .pure
  | none => exact .lift

/-- While the serializer goes on, its counter is the account and within the cap. -/
structure Entered (visits entered : Nat) : Prop where
  counted : entered = visits
  capped : visits ≤ maxNodesVisited

/-- The bound on the nodes entered however the serializer ends. -/
def EnteredAtMost (entered : Nat) : Prop := entered ≤ maxNodesVisited + 1

theorem Entered.atMost {visits entered : Nat} (h : Entered visits entered) : EnteredAtMost entered := by
  obtain ⟨rfl, hcapped⟩ := h
  exact Nat.le_succ_of_le hcapped

theorem meteredParts_triple {α : Type} {step : α → Nat → Metered Nat PyErr (Text × Nat)} {parts : List α}
    (h : ∀ a ∈ parts, ∀ visits, Triple (Entered visits) (step a visits) (fun out => Entered out.2) EnteredAtMost)
    (first : Bool) (visits : Nat) :
    Triple (Entered visits) (meteredParts step first parts visits) (fun out => Entered out.2) EnteredAtMost := by
  induction parts generalizing first visits with
  | nil => exact .pure fun _ hw => hw
  | cons a rest ih =>
    refine (h a List.mem_cons_self visits).bind fun written => ?_
    refine (ih (fun b hb => h b (List.mem_cons_of_mem a hb)) false written.2).bind fun more => ?_
    exact .pure fun _ hw => hw

/-- Each node is counted by both counters, by induction on the levels left. -/
theorem meteredSerialize_triple (room : Nat) (v : JsonValue) (visits : Nat) :
    Triple (Entered visits) (meteredSerialize room v visits) (fun out => Entered out.2) EnteredAtMost := by
  have hok (visits entered : Nat) (hw : Entered visits entered) (visited : Nat) (hv : visit visits = .ok visited) :
      Entered visited entered.succ := by
    obtain ⟨rfl, _⟩ := hw
    obtain ⟨hcapped, rfl⟩ := visit_eq_ok.mp hv
    exact ⟨rfl, hcapped⟩
  have herror (visits entered : Nat) (hw : Entered visits entered) : EnteredAtMost entered.succ := by
    obtain ⟨rfl, hcapped⟩ := hw
    exact Nat.succ_le_succ hcapped
  induction room generalizing v visits with
  | zero =>
    rw [meteredSerialize]
    exact Triple.charge (m := fun visited => Entered visited) (hok visits) (herror visits) fun _ =>
      .lift (fun _ _ _ h => nomatch h) fun _ hw => hw.atMost
  | succ room ih =>
    rw [meteredSerialize]
    refine Triple.charge (m := fun visited => Entered visited) (hok visits) (herror visits) fun visited => ?_
    have hformat (x : PyM Text) : Triple (Entered visited) (Metered.lift x >>= fun text => pure (text, visited))
        (fun out => Entered out.2) EnteredAtMost :=
      Triple.bind (m := fun _ => Entered visited) (.lift (fun _ hw _ _ => hw) fun _ hw => hw.atMost)
        fun _ => .pure fun _ hw => hw
    cases v with
    | null | bool | str => exact .pure fun _ hw => hw
    | int i => exact hformat (formatInt i)
    | float f => exact hformat (formatFloat f)
    | list items =>
      exact (meteredParts_triple (fun item _ visits => ih item visits) true visited).bind fun _ => .pure fun _ hw => hw
    | dict members =>
      have hmember (name : Text) (visits : Nat) : Triple (Entered visits) (do
          let (text, visits) ← meteredSerialize room (Members.get members name) visits
          pure (formatString name ++ txt ":" ++ text, visits)) (fun out => Entered out.2) EnteredAtMost :=
        (ih (Members.get members name) visits).bind fun _ => .pure fun _ hw => hw
      refine Triple.bind (m := fun _ => Entered visited) (.lift (fun _ hw _ _ => hw) fun _ hw => hw.atMost) fun names => ?_
      exact (meteredParts_triple (fun name _ => hmember name) true visited).bind fun _ => .pure fun _ hw => hw

theorem meteredCanonicalize_entered (v : JsonValue) : EnteredAtMost (meteredCanonicalize v 0).2 := by
  have htriple : Triple (Entered 0) (meteredCanonicalize v) (fun _ => EnteredAtMost) EnteredAtMost := by
    refine (meteredSerialize_triple _ v 0).bind fun written => ?_
    obtain ⟨out, visits⟩ := written
    dsimp only
    cases utf8? out with
    | some octets => exact .pure fun _ hw => hw.atMost
    | none => exact .lift (fun _ _ _ h => nomatch h) fun _ hw => hw.atMost
  exact htriple.account ⟨rfl, Nat.zero_le _⟩

/-! ### Exactly the caps -/

/-- Where names and strings encode and integers can be worded, all that fails is the package's own. -/
theorem canonicalize_jcs {v : JsonValue} (hd : v.Distinct) (he : v.Encodes) (hs : v.Short) {e : PyErr}
    (h : canonicalize v = .error e) : ∃ message, e = JcsError message := by
  obtain ⟨message, rfl | rfl⟩ := canonicalize_error hs h
  · exact ⟨message, rfl⟩
  · exact absurd (.inl he) ((canonicalize_unicode_iff hd hs).mp ⟨message, h⟩)

/-- Canonicalization succeeds exactly within the caps, writes there what the recursion
without caps writes, and otherwise raises `JcsError` one node past the cap at the latest. -/
theorem canonicalize_capped {v : JsonValue} (hd : v.Distinct) (he : v.Encodes) (hs : v.Short) :
    ((canonicalize v).isOk = true ↔ v.Converts ∧ v.depth ≤ maxDepth ∧ v.nodes ≤ maxNodesVisited) ∧
      (∀ octets, canonicalize v = .ok octets → canonicalizeUncapped v = .ok octets) ∧
      (∀ e, canonicalize v = .error e → ∃ message, e = JcsError message) ∧
      Computes (meteredCanonicalize v) (canonicalize v) ∧ (meteredCanonicalize v 0).2 ≤ maxNodesVisited + 1 :=
  ⟨canonicalize_isOk hd he, fun _ => canonicalize_uncapped, fun _ => canonicalize_jcs hd he hs,
    meteredCanonicalize_computes v, meteredCanonicalize_entered v⟩

/-- `[{"n":12}]`. -/
def nestedValue : JsonValue := .list [.dict [(txt "n", .int 12)]]

theorem canonicalize_capped_nested :
    canonicalizeUncapped nestedValue = .ok [0x5B, 0x7B, 0x22, 0x6E, 0x22, 0x3A, 0x31, 0x32, 0x7D, 0x5D] := by
  have hdistinct : nestedValue.Distinct :=
    .list (List.forall_mem_singleton.mpr (.dict (by decide) (List.forall_mem_singleton.mpr .int)))
  have hname : WellFormed (txt "n") := by
    have htext : txt "n" = [0x6E] := by decide
    rw [htext]
    exact List.forall_mem_singleton.mpr (by decide)
  have hencodes : nestedValue.Encodes :=
    .list (List.forall_mem_singleton.mpr
      (.dict (List.forall_mem_singleton.mpr hname) (List.forall_mem_singleton.mpr .int)))
  have hshort : nestedValue.Short :=
    .list (List.forall_mem_singleton.mpr (.dict (List.forall_mem_singleton.mpr (.int (by decide)))))
  exact (canonicalize_capped hdistinct hencodes hshort).2.1 _ (by decide +kernel)

end Jcs

end AitpVerifier
