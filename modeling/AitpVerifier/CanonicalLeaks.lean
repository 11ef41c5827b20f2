import AitpVerifier.Leaks

/-!
# What canonicalization raises

The serializer visits a value in a fixed order and stops at the first node that
breaks a rule: a cap, a number without a spelling, a member name without a sort
key. All but the last are reported through the package.
-/
namespace AitpVerifier

open PyText Checked KeySort

namespace Jcs

/-- The nodes visited, in order, each with the levels left at it. -/
def walk : Nat → JsonValue → List (Nat × JsonValue)
  | 0, value => [(0, value)]
  | room + 1, value => (room + 1, value) ::
    match value with
    | .list items => items.flatMap (walk room)
    | .dict members =>
      (sortBy codeUnits (Members.names members)).flatMap fun name => walk room (Members.get members name)
    | _ => []

/-- A number without a spelling: not finite, or beyond the doubles. -/
def unspelled : JsonValue → Bool
  | .int i => !(formatInt i).isOk
  | .float f => !(formatFloat f).isOk
  | _ => false

/-- An object with a lone surrogate in one of its names. -/
def unsorted : JsonValue → Bool
  | .dict members => (Members.names members).any fun name => name.any isSurrogate
  | _ => false

/-- What the node met after `visits` others raises of its own. -/
def nodeFault (visits : Nat) (node : Nat × JsonValue) : Option ErrorKind :=
  if maxNodesVisited ≤ visits ∨ node.1 = 0 ∨ unspelled node.2 then some .jcs
  else if unsorted node.2 then some .unicode
  else none

/-- An integer beyond the doubles with too many digits for the refusal to be worded. -/
def unworded : JsonValue → Bool
  | .int i => (Binary64.ofInt? i).isNone && decide (maxIntDigits < (decimal i.natAbs).length)
  | _ => false

/-- What a value raises of its own, the caps apart. -/
def ownFault (v : JsonValue) : Option ErrorKind :=
  if unworded v then some .value else if unspelled v then some .jcs else if unsorted v then some .unicode else none

/-- What the node met after `visits` others raises, whatever its numbers. -/
def fault (visits : Nat) (node : Nat × JsonValue) : Option ErrorKind :=
  if maxNodesVisited ≤ visits ∨ node.1 = 0 then some .jcs else ownFault node.2

/-- Where every number can be worded, the refusals of a number join those of the caps. -/
theorem fault_eq_nodeFault {visits : Nat} {node : Nat × JsonValue} (h : unworded node.2 = false) :
    fault visits node = nodeFault visits node := by
  rw [fault, nodeFault, ownFault, h, if_neg Bool.false_ne_true]
  by_cases hcap : maxNodesVisited ≤ visits ∨ node.1 = 0
  · rw [if_pos hcap, if_pos (or_assoc.mp (.inl hcap))]
  · rw [if_neg hcap]
    by_cases hs : unspelled node.2 = true
    · rw [if_pos hs, if_pos (.inr (.inr hs))]
    · rw [if_neg hs, if_neg fun h => hcap ((or_assoc.mpr h).resolve_right hs)]

/-- A serializer's run: the fault it ends in, or the count it ends at. -/
def Ends (x : PyM (Text × Nat)) (fault : Option ErrorKind) (visits : Nat) : Prop :=
  match fault with
  | none => ∃ out, x = .ok (out, visits)
  | some kind => ∃ message, x = .error (.raised kind message)

theorem Ends.map {x : PyM (Text × Nat)} {fault : Option ErrorKind} {visits : Nat} (h : Ends x fault visits)
    (g : Text → Text) : Ends (x >>= fun (out, visits) => .ok (g out, visits)) fault visits := by
  cases fault with
  | none =>
    obtain ⟨out, rfl⟩ := h
    exact ⟨g out, rfl⟩
  | some kind =>
    obtain ⟨message, rfl⟩ := h
    exact ⟨message, rfl⟩

theorem serializeParts_ends {α : Type} {step : Serializer α} {nodes : α → List (Nat × JsonValue)} {parts : List α}
    (h : ∀ a ∈ parts, ∀ visits, Ends (step a visits) (firstFault fault visits (nodes a)) (visits + (nodes a).length))
    (first : Bool) (visits : Nat) :
    Ends (serializeParts step first parts visits) (firstFault fault visits (parts.flatMap nodes))
      (visits + (parts.flatMap nodes).length) := by
  induction parts generalizing first visits with
  | nil => exact ⟨[], rfl⟩
  | cons a rest ih =>
    have ha := h a List.mem_cons_self visits
    have hrest := ih (fun b hb => h b (List.mem_cons_of_mem a hb)) false (visits + (nodes a).length)
    rw [List.flatMap_cons, firstFault_append, List.length_append, ← Nat.add_assoc]
    rw [serializeParts]
    cases hf : firstFault fault visits (nodes a) with
    | some kind =>
      rw [hf] at ha
      obtain ⟨message, ha⟩ := ha
      exact ⟨message, by rw [ha]; rfl⟩
    | none =>
      rw [hf] at ha
      obtain ⟨out, ha⟩ := ha
      rw [ha, Option.none_or]
      exact hrest.map fun more => (if first then [] else txt ",") ++ out ++ more

/-- Names that all encode sort; otherwise sorting them is the encoder's error. -/
theorem sortNames_error {names : List Text} (h : names.any (fun name => name.any isSurrogate) = true) :
    ∃ message, sortNames names = .error (.raised .unicode message) := by
  have hfails : FailsWith (fun e => ∃ message, e = .raised .unicode message) (sortNames names) := by
    refine (FailsWith.collect fun name _ => ?_).bind fun _ _ => .ok
    rw [sortKey]
    split
    · exact .ok
    · exact .error ⟨_, rfl⟩
  cases hs : sortNames names with
  | error e =>
    obtain ⟨message, rfl⟩ := hfails e hs
    exact ⟨message, rfl⟩
  | ok sorted =>
    obtain ⟨name, hname, hany⟩ := List.any_eq_true.mp h
    have hw := (sortNames_eq_ok.mp hs).1 name hname
    rw [hw.any] at hany
    cases hany

theorem formatFloat_error {f : Binary64} {e : PyErr} (h : formatFloat f = .error e) : ∃ message, e = .raised .jcs message := by
  have hdef : formatFloat = formatFloat := rfl
  conv at hdef => rhs; delta formatFloat
  rw [hdef] at h
  cases f with
  | nan => exact ⟨_, (Except.error.inj h).symm⟩
  | inf negative => exact ⟨_, (Except.error.inj h).symm⟩
  | finite negative mantissa scale hc =>
    dsimp only at h
    split at h
    · cases h
    · have hfails : FailsWith (fun e => ∃ message, e = .raised .jcs message)
          (shortestDigits (Binary64.reprMagnitude mantissa scale)) :=
        (FailsWith.raiseIf ⟨_, rfl⟩).bind fun _ _ => .ok
      exact (hfails.bind fun _ _ => .ok) e h

/-- An integer that can be written back is spelled, or refused by the package. -/
theorem formatInt_error {i : Int} (hi : (decimal i.natAbs).length ≤ maxIntDigits) {e : PyErr} (h : formatInt i = .error e) :
    ∃ message, e = .raised .jcs message := by
  cases hf : Binary64.ofInt? i with
  | some f =>
    rw [ofInt?_formatInt hf] at h
    exact formatFloat_error h
  | none =>
    obtain ⟨text, ht⟩ := intText_ok hi
    have hdef : formatInt = formatInt := rfl
    conv at hdef => rhs; delta formatInt
    rw [hdef] at h
    beta_reduce at h
    rw [hf, ht] at h
    exact ⟨_, (Except.error.inj h).symm⟩

/-- Wording the refusal of a longer one fails in the interpreter. -/
theorem formatInt_unworded {i : Int} (hi : maxIntDigits < (decimal i.natAbs).length) (hf : Binary64.ofInt? i = none) :
    formatInt i = .error tooManyDigits := by
  have hdef : formatInt = formatInt := rfl
  conv at hdef => rhs; delta formatInt
  rw [hdef]
  beta_reduce
  rw [hf, intText, decide_eq_true hi]
  rfl

/-! ### One node after another -/

theorem visit_ends (visits : Nat) :
    (maxNodesVisited ≤ visits → ∃ message, visit visits = .error (.raised .jcs message)) ∧
      (visits < maxNodesVisited → visit visits = .ok (visits + 1)) := by
  constructor
  · intro h
    have hover : decide (maxNodesVisited < visits + 1) = true := decide_eq_true (by omega)
    rw [visit, hover]
    exact ⟨_, rfl⟩
  · intro h
    exact visit_eq_ok.mpr ⟨h, rfl⟩

/-- What is left of a node's run once it is counted. -/
theorem node_ends {visits room : Nat} {v : JsonValue} {rest : List (Nat × JsonValue)} {body : Nat → PyM (Text × Nat)}
    (h : Ends (body (visits + 1)) ((ownFault v).or (firstFault fault (visits + 1) rest)) (visits + 1 + rest.length)) :
    Ends (visit visits >>= body) (firstFault fault visits ((room + 1, v) :: rest))
      (visits + ((room + 1, v) :: rest).length) := by
  have hlen : visits + ((room + 1, v) :: rest).length = visits + 1 + rest.length := by
    rw [List.length_cons]
    omega
  rw [hlen, firstFault, fault]
  by_cases hcap : maxNodesVisited ≤ visits
  · obtain ⟨message, hv⟩ := (visit_ends visits).1 hcap
    rw [if_pos (.inl hcap), hv]
    exact ⟨message, rfl⟩
  · rw [(visit_ends visits).2 (by omega), if_neg (by simp [hcap])]
    exact h

/-- An integer is spelled, refused, or has too many digits for the refusal. -/
theorem formatInt_ends (i : Int) (visits : Nat) :
    Ends (formatInt i >>= fun text => .ok (text, visits)) (ownFault (.int i)) visits := by
  by_cases hu : unworded (.int i) = true
  · have hown : ownFault (.int i) = some .value := by rw [ownFault, if_pos hu]
    rw [unworded, Bool.and_eq_true, Option.isNone_iff_eq_none, decide_eq_true_eq] at hu
    rw [hown, formatInt_unworded hu.2 hu.1]
    exact ⟨_, rfl⟩
  · rw [ownFault, if_neg hu, unspelled]
    cases hf : formatInt i with
    | ok text => exact ⟨text, rfl⟩
    | error e =>
      have hjcs : ∃ message, e = .raised .jcs message := by
        cases hof : Binary64.ofInt? i with
        | some f =>
          rw [ofInt?_formatInt hof] at hf
          exact formatFloat_error hf
        | none =>
          refine formatInt_error ?_ hf
          rw [unworded, hof, Option.isNone_none, Bool.true_and, decide_eq_true_eq] at hu
          omega
      obtain ⟨message, rfl⟩ := hjcs
      exact ⟨message, rfl⟩

theorem formatFloat_ends (f : Binary64) (visits : Nat) :
    Ends (formatFloat f >>= fun text => .ok (text, visits)) (ownFault (.float f)) visits := by
  have hworded : unworded (.float f) ≠ true := Bool.false_ne_true
  rw [ownFault, if_neg hworded, unspelled]
  cases hf : formatFloat f with
  | ok text => exact ⟨text, rfl⟩
  | error e =>
    obtain ⟨message, rfl⟩ := formatFloat_error hf
    exact ⟨message, rfl⟩

/-- The serializer ends as the first fault of its walk says. -/
theorem serialize_faults (v : JsonValue) (room visits : Nat) :
    Ends (serialize room v visits) (firstFault fault visits (walk room v)) (visits + (walk room v).length) := by
  induction room generalizing v visits with
  | zero =>
    have hfault : firstFault fault visits (walk 0 v) = some .jcs := by
      rw [walk, firstFault, fault, if_pos (.inr rfl)]
      rfl
    rw [hfault]
    by_cases hcap : maxNodesVisited ≤ visits
    · obtain ⟨message, hvisit⟩ := (visit_ends visits).1 hcap
      exact ⟨message, by rw [serialize, hvisit]; rfl⟩
    · exact ⟨_, by rw [serialize, (visit_ends visits).2 (by omega)]; rfl⟩
  | succ room ih =>
    cases v with
    | null => exact node_ends ⟨_, rfl⟩
    | bool => exact node_ends ⟨_, rfl⟩
    | str => exact node_ends ⟨_, rfl⟩
    | int i =>
      refine node_ends ?_
      rw [firstFault, Option.or_none]
      exact formatInt_ends i (visits + 1)
    | float f =>
      refine node_ends ?_
      rw [firstFault, Option.or_none]
      exact formatFloat_ends f (visits + 1)
    | list items =>
      refine node_ends ?_
      have hparts := serializeParts_ends (fun item (_ : item ∈ items) visits => ih item visits) true (visits + 1)
      exact hparts.map fun out => txt "[" ++ out ++ txt "]"
    | dict members =>
      refine node_ends ?_
      by_cases hn : unsorted (.dict members) = true
      · obtain ⟨message, hs⟩ := sortNames_error hn
        have hown : ownFault (.dict members) = some .unicode := by simp [ownFault, unworded, unspelled, hn]
        rw [hown]
        exact ⟨message, by dsimp only; rw [hs]; rfl⟩
      · have hw : ∀ name ∈ Members.names members, WellFormed name := by
          intro name hname c hc
          by_contra hsurrogate
          exact hn (List.any_eq_true.mpr ⟨name, hname, List.any_eq_true.mpr ⟨c, hc, by simpa using hsurrogate⟩⟩)
        have hown : ownFault (.dict members) = none := by simp [ownFault, unworded, unspelled, hn]
        rw [hown, Option.none_or]
        dsimp only
        rw [sortNames_eq_ok.mpr ⟨hw, rfl⟩, ok_bind]
        have hmember (name : Text) (visits : Nat) :=
          (ih (Members.get members name) visits).map fun text => formatString name ++ txt ":" ++ text
        have hparts := serializeParts_ends (fun name (_ : name ∈ sortBy codeUnits (Members.names members)) => hmember name)
          true (visits + 1)
        exact hparts.map fun out => txt "\x7b" ++ out ++ txt "\x7d"

/-- What a visited node holds, the value holds. -/
theorem walk_short {v : JsonValue} (hv : v.Short) {room : Nat} {node : Nat × JsonValue} (h : node ∈ walk room v) :
    node.2.Short := by
  induction room generalizing v with
  | zero =>
    rw [List.mem_singleton.mp h]
    exact hv
  | succ room ih =>
    rcases List.mem_cons.mp h with rfl | h
    · exact hv
    · cases hv with
      | null | bool | int | float | str => cases h
      | list hitems =>
        obtain ⟨item, hi, hnode⟩ := List.mem_flatMap.mp h
        exact ih (hitems item hi) hnode
      | dict hmembers =>
        obtain ⟨name, _, hnode⟩ := List.mem_flatMap.mp h
        exact ih (Members.get_short (.dict hmembers) name) hnode

theorem unworded_of_short {v : JsonValue} (h : v.Short) : unworded v = false := by
  cases h with
  | int hi => simp [unworded, hi]
  | _ => rfl

/-- Among numbers that can be worded the walk's first fault is one of two. -/
theorem serialize_ends {v : JsonValue} (hv : v.Short) (room visits : Nat) :
    Ends (serialize room v visits) (firstFault nodeFault visits (walk room v)) (visits + (walk room v).length) := by
  have hcongr : firstFault nodeFault visits (walk room v) = firstFault fault visits (walk room v) :=
    firstFault_congr fun k node hm => (fault_eq_nodeFault (unworded_of_short (walk_short hv hm))).symm
  rw [hcongr]
  exact serialize_faults v room visits

/-! ### What leaves canonicalization -/

/-- A visited node is refused through the package: it is one too many, too deep, or a
number without a spelling, and every object before it has sorted its names. -/
def RefusedFirst (v : JsonValue) : Prop :=
  ∃ i node, (walk (maxDepth + 1) v)[i]? = some node ∧ (maxNodesVisited ≤ i ∨ node.1 = 0 ∨ unspelled node.2) ∧
    ∀ j < i, ∀ earlier, (walk (maxDepth + 1) v)[j]? = some earlier → unsorted earlier.2 = false

theorem nodeFault_eq_jcs {visits : Nat} {node : Nat × JsonValue} :
    nodeFault visits node = some .jcs ↔ maxNodesVisited ≤ visits ∨ node.1 = 0 ∨ unspelled node.2 := by
  unfold nodeFault
  split_ifs with h <;> simp [h]

theorem nodeFault_eq_unicode {visits : Nat} {node : Nat × JsonValue} (h : nodeFault visits node = some .unicode) :
    unsorted node.2 = true := by
  unfold nodeFault at h
  split_ifs at h with _ hn
  · cases h
  · exact hn

/-- A node faults in one of two ways. -/
theorem nodeFault_cases {visits : Nat} {node : Nat × JsonValue} :
    nodeFault visits node = none ∨ nodeFault visits node = some .jcs ∨ nodeFault visits node = some .unicode := by
  unfold nodeFault
  split_ifs <;> simp

theorem nodeFault_of_unsorted {visits : Nat} {node : Nat × JsonValue} (h : unsorted node.2 = true) :
    nodeFault visits node ≠ none := by
  unfold nodeFault
  split_ifs <;> simp

/-- The first fault is the package's own exactly when a refused node comes first. -/
theorem refusedFirst_iff {v : JsonValue} :
    RefusedFirst v ↔ firstFault nodeFault 0 (walk (maxDepth + 1) v) = some .jcs := by
  have hnone (j : Nat) (node : Nat × JsonValue) (hf : nodeFault j node = none) : unsorted node.2 = false := by
    by_contra hn
    exact nodeFault_of_unsorted (by simpa using hn) hf
  have hother (j : Nat) (node : Nat × JsonValue) (hs : unsorted node.2 = false) :
      nodeFault j node = none ∨ nodeFault j node = some .jcs := by
    rcases @nodeFault_cases j node with hc | hc | hc
    · exact .inl hc
    · exact .inr hc
    · rw [nodeFault_eq_unicode hc] at hs
      cases hs
  rw [firstFault_eq_kind hnone hother, RefusedFirst]
  simp only [Nat.zero_add, nodeFault_eq_jcs]

/-- A value that encodes holds only values that do. -/
theorem walk_encodes {v : JsonValue} (hv : v.Encodes) {room : Nat} {node : Nat × JsonValue} (h : node ∈ walk room v) :
    node.2.Encodes := by
  induction room generalizing v with
  | zero =>
    rw [List.mem_singleton.mp h]
    exact hv
  | succ room ih =>
    rcases List.mem_cons.mp h with rfl | h
    · exact hv
    · cases hv with
      | null | bool | int | float | str => cases h
      | list hitems =>
        obtain ⟨item, hi, hnode⟩ := List.mem_flatMap.mp h
        exact ih (hitems item hi) hnode
      | @dict members hn hm =>
        obtain ⟨name, hname, hnode⟩ := List.mem_flatMap.mp h
        refine ih ?_ hnode
        obtain ⟨m, hmem, rfl⟩ := List.mem_map.mp (mem_sortBy.mp hname)
        have hhas := Members.get?_of_has (Members.mem_names_iff.mp (List.mem_map_of_mem hmem))
        exact hm _ (Members.mem_of_get? hhas)

theorem unsorted_of_encodes {v : JsonValue} (h : v.Encodes) : unsorted v = false := by
  cases h with
  | null | bool | int | float | str | list => rfl
  | @dict members hn =>
    refine List.any_eq_false.mpr fun name hname => ?_
    obtain ⟨m, hm, rfl⟩ := List.mem_map.mp hname
    rw [(hn m hm).any]
    exact Bool.false_ne_true

/-- Canonicalization raises the encoder's error exactly when a lone surrogate is
there to be met and nothing before it is refused. -/
theorem canonicalize_unicode_iff {v : JsonValue} (hd : v.Distinct) (hs : v.Short) :
    (∃ message, canonicalize v = .error (.raised .unicode message)) ↔ ¬ (v.Encodes ∨ RefusedFirst v) := by
  have hends := serialize_ends hs (maxDepth + 1) 0
  rw [refusedFirst_iff, not_or]
  cases hf : firstFault nodeFault 0 (walk (maxDepth + 1) v) with
  | none =>
    -- the walk is clean, so only the text as a whole can fail to encode
    rw [hf] at hends
    obtain ⟨out, hout⟩ := hends
    have hdumps : dumps v = .ok out := by rw [dumps, hout]; rfl
    obtain ⟨hformats, _, _, rfl⟩ := (dumps_eq_ok hd).mp hdumps
    rw [← text_wellFormed hformats, canonicalize, hdumps, ok_bind]
    cases hu : utf8? (grammar.text (doc v)) with
    | some octets => simpa using (utf8?_eq_some_iff.mp hu).1
    | none =>
      refine iff_of_true ⟨_, rfl⟩ ⟨?_, by simp⟩
      intro hw
      rw [utf8?_eq_some hw] at hu
      cases hu
  | some kind =>
    rw [hf] at hends
    obtain ⟨message, hout⟩ := hends
    have herror : canonicalize v = .error (.raised kind message) := by rw [canonicalize, dumps, hout]; rfl
    rw [herror]
    obtain ⟨i, node, hnode, hfault, _⟩ := firstFault_eq_some.mp hf
    rcases @nodeFault_cases (0 + i) node with hc | hc | hc
    · rw [hfault] at hc
      cases hc
    · obtain rfl : kind = .jcs := Option.some.inj (hfault.symm.trans hc)
      simp
    · obtain rfl : kind = .unicode := Option.some.inj (hfault.symm.trans hc)
      refine iff_of_true ⟨message, rfl⟩ ⟨?_, by simp⟩
      intro he
      have hn := unsorted_of_encodes (walk_encodes he (List.mem_of_getElem? hnode))
      rw [nodeFault_eq_unicode hc] at hn
      cases hn

theorem canonicalize_error {v : JsonValue} (hs : v.Short) {e : PyErr} (h : canonicalize v = .error e) :
    ∃ message, e = .raised .jcs message ∨ e = .raised .unicode message := by
  have hends := serialize_ends hs (maxDepth + 1) 0
  cases hf : firstFault nodeFault 0 (walk (maxDepth + 1) v) with
  | none =>
    rw [hf] at hends
    obtain ⟨out, hout⟩ := hends
    rw [canonicalize, dumps, hout] at h
    cases hu : utf8? out with
    | some octets => simp [hu, ok_bind] at h
    | none =>
      simp only [hu, ok_bind] at h
      exact ⟨_, .inr (Except.error.inj h).symm⟩
  | some kind =>
    rw [hf] at hends
    obtain ⟨message, hout⟩ := hends
    rw [canonicalize, dumps, hout] at h
    obtain rfl : .raised kind message = e := Except.error.inj h
    obtain ⟨i, node, _, hfault, _⟩ := firstFault_eq_some.mp hf
    rcases @nodeFault_cases (0 + i) node with hc | hc | hc
    · rw [hfault] at hc
      cases hc
    · exact ⟨message, .inl (by rw [Option.some.inj (hfault.symm.trans hc)])⟩
    · exact ⟨message, .inr (by rw [Option.some.inj (hfault.symm.trans hc)])⟩

/-! ### Any value -/

/-- A node whose own fault is not the package's: a number whose refusal cannot be
worded, or a member name that cannot be sorted. -/
def raises (v : JsonValue) : Bool := unworded v || unsorted v

/-- As `RefusedFirst`, where a number may be too long to be worded. -/
def RefusedBefore (v : JsonValue) : Prop :=
  ∃ i node, (walk (maxDepth + 1) v)[i]? = some node ∧
    (maxNodesVisited ≤ i ∨ node.1 = 0 ∨ unworded node.2 = false ∧ unspelled node.2 = true) ∧
    ∀ j < i, ∀ earlier, (walk (maxDepth + 1) v)[j]? = some earlier → raises earlier.2 = false

theorem fault_eq_jcs {visits : Nat} {node : Nat × JsonValue} :
    fault visits node = some .jcs ↔
      maxNodesVisited ≤ visits ∨ node.1 = 0 ∨ unworded node.2 = false ∧ unspelled node.2 = true := by
  rw [fault, ownFault, ← or_assoc]
  split_ifs with hcap hu hs hn <;> simp [*]

theorem fault_eq_none {visits : Nat} {node : Nat × JsonValue} (h : fault visits node = none) : raises node.2 = false := by
  rw [fault, ownFault] at h
  split_ifs at h with hcap hu hs hn
  rw [raises, Bool.or_eq_false_iff]
  exact ⟨by simpa using hu, by simpa using hn⟩

/-- A node that raises nothing of its own is clean or refused. -/
theorem fault_of_not_raises {visits : Nat} {node : Nat × JsonValue} (h : raises node.2 = false) :
    fault visits node = none ∨ fault visits node = some .jcs := by
  rw [raises, Bool.or_eq_false_iff] at h
  rw [fault, ownFault, h.1, h.2]
  by_cases hcap : maxNodesVisited ≤ visits ∨ node.1 = 0
  · exact .inr (if_pos hcap)
  · rw [if_neg hcap]
    by_cases hs : unspelled node.2 = true
    · exact .inr (if_pos hs)
    · exact .inl (if_neg hs)

theorem refusedBefore_iff {v : JsonValue} : RefusedBefore v ↔ firstFault fault 0 (walk (maxDepth + 1) v) = some .jcs := by
  have hnone (j : Nat) (node : Nat × JsonValue) (hf : fault j node = none) : raises node.2 = false := fault_eq_none hf
  have hother (j : Nat) (node : Nat × JsonValue) (hs : raises node.2 = false) :
      fault j node = none ∨ fault j node = some .jcs := fault_of_not_raises hs
  rw [firstFault_eq_kind hnone hother, RefusedBefore]
  simp only [Nat.zero_add, fault_eq_jcs]

theorem fault_kinds {visits : Nat} {node : Nat × JsonValue} {kind : ErrorKind} (h : fault visits node = some kind) :
    kind = .jcs ∨ kind = .value ∧ unworded node.2 = true ∨ kind = .unicode ∧ unsorted node.2 = true := by
  rw [fault, ownFault] at h
  split_ifs at h with hcap hu hs hn
  · exact .inl (Option.some.inj h).symm
  · exact .inr (.inl ⟨(Option.some.inj h).symm, hu⟩)
  · exact .inl (Option.some.inj h).symm
  · exact .inr (.inr ⟨(Option.some.inj h).symm, hn⟩)

/-- What canonicalization raises is of one of three kinds. -/
theorem canonicalize_raised {v : JsonValue} {e : PyErr} (h : canonicalize v = .error e) :
    ∃ kind message, e = .raised kind message ∧ (kind = .jcs ∨ kind = .value ∨ kind = .unicode) := by
  have hends := serialize_faults v (maxDepth + 1) 0
  cases hf : firstFault fault 0 (walk (maxDepth + 1) v) with
  | none =>
    rw [hf] at hends
    obtain ⟨out, hout⟩ := hends
    rw [canonicalize, dumps, hout] at h
    cases hu : utf8? out with
    | some octets => simp [hu, ok_bind] at h
    | none =>
      simp only [hu, ok_bind] at h
      exact ⟨_, _, (Except.error.inj h).symm, .inr (.inr rfl)⟩
  | some kind =>
    rw [hf] at hends
    obtain ⟨message, hout⟩ := hends
    rw [canonicalize, dumps, hout] at h
    obtain ⟨i, node, _, hfault, _⟩ := firstFault_eq_some.mp hf
    exact ⟨kind, message, (Except.error.inj h).symm, (fault_kinds hfault).imp_right fun h => h.imp And.left And.left⟩

/-- A clean walk has no node that raises. -/
theorem not_raises_of_clean {v : JsonValue} (h : firstFault fault 0 (walk (maxDepth + 1) v) = none) {node : Nat × JsonValue}
    (hm : node ∈ walk (maxDepth + 1) v) : raises node.2 = false := by
  obtain ⟨i, hi⟩ := List.mem_iff_getElem?.mp hm
  exact fault_eq_none (firstFault_eq_none.mp h i node hi)

end Jcs

/-- `canonical_bytes` returns octets or raises under the caller's own code. -/
def Answers (value : JsonValue) : Prop :=
  ∀ shapeCode what e, canonicalBytes value shapeCode what = .error e → ∃ message, e = AitpError shapeCode message

theorem answers_of_canonicalizes {value : JsonValue} (h : (Jcs.canonicalize value).isOk = true) : Answers value := by
  obtain ⟨octets, ho⟩ := isOk_iff.mp h
  intro shapeCode what e he
  rw [canonicalBytes, ho] at he
  cases he

section

variable {value : JsonValue} (hs : value.Short)

include hs

theorem answers_iff_no_unicode : Answers value ↔ ¬ ∃ message, Jcs.canonicalize value = .error (.raised .unicode message) := by
  constructor
  · rintro h ⟨message, hm⟩
    obtain ⟨_, he⟩ := h "" [] (.raised .unicode message) (by rw [canonicalBytes, hm]; rfl)
    cases he
  · intro h shapeCode what e he
    cases hc : Jcs.canonicalize value with
    | ok octets =>
      rw [canonicalBytes, hc] at he
      cases he
    | error cause =>
      rw [canonicalBytes, hc] at he
      obtain ⟨message, rfl | rfl⟩ := Jcs.canonicalize_error hs hc
      · exact ⟨_, (Except.error.inj he).symm⟩
      · exact absurd ⟨message, hc⟩ h

theorem leaks_canonicalBytes {shapeCode : String} {what : Text} :
    Leaks (canonicalBytes value shapeCode what) ↔ ¬ Answers value := by
  rw [answers_iff_no_unicode hs, not_not]
  constructor
  · rintro ⟨e, he, hcoded⟩
    cases hc : Jcs.canonicalize value with
    | ok octets =>
      rw [canonicalBytes, hc] at he
      cases he
    | error cause =>
      rw [canonicalBytes, hc] at he
      obtain ⟨message, rfl | rfl⟩ := Jcs.canonicalize_error hs hc
      · rw [← Except.error.inj he] at hcoded
        exact absurd coded_aitpError hcoded
      · exact ⟨message, rfl⟩
  · rintro ⟨message, hm⟩
    exact ⟨.raised .unicode message, by rw [canonicalBytes, hm]; rfl, Bool.false_ne_true⟩

/-- Canonicalization answers exactly when no string or name holds a lone surrogate,
or a node is refused before any name is reached that does. -/
theorem answers_iff (hd : value.Distinct) : Answers value ↔ value.Encodes ∨ Jcs.RefusedFirst value := by
  rw [answers_iff_no_unicode hs, Jcs.canonicalize_unicode_iff hd hs, not_not]

end

/-- A refusal of canonicalization's own is reported under the caller's code. -/
theorem canonicalBytes_jcs {value : JsonValue} {message : Text} (h : Jcs.canonicalize value = .error (.raised .jcs message)) :
    Answers value := by
  intro shapeCode what e he
  rw [canonicalBytes, h] at he
  exact ⟨_, (Except.error.inj he).symm⟩

/-- Another exception passes through. -/
theorem canonicalBytes_raw {value : JsonValue} {kind : ErrorKind} {message : Text}
    (h : Jcs.canonicalize value = .error (.raised kind message)) (hk : kind = .value ∨ kind = .unicode)
    (shapeCode : String) (what : Text) : canonicalBytes value shapeCode what = .error (.raised kind message) := by
  rw [canonicalBytes, h]
  rcases hk with rfl | rfl <;> rfl

/-- A value whose canonicalization raises another exception is not answered for. -/
theorem not_answers_of_raw {value : JsonValue} {kind : ErrorKind} {message : Text}
    (h : Jcs.canonicalize value = .error (.raised kind message)) (hk : kind = .value ∨ kind = .unicode) :
    ¬ Answers value := by
  intro ha
  obtain ⟨text, ht⟩ := ha "" [] _ (canonicalBytes_raw h hk "" [])
  cases ht

/-- What `canonical_bytes` lets escape, whatever the value. -/
theorem leaks_canonicalBytes_any {value : JsonValue} {shapeCode : String} {what : Text} :
    Leaks (canonicalBytes value shapeCode what) ↔ ¬ Answers value := by
  constructor
  · rintro ⟨e, he, hcoded⟩ ha
    obtain ⟨message, rfl⟩ := ha shapeCode what e he
    exact hcoded coded_aitpError
  · intro ha
    cases hc : Jcs.canonicalize value with
    | ok octets => exact absurd (answers_of_canonicalizes (isOk_iff.mpr ⟨octets, hc⟩)) ha
    | error cause =>
      obtain ⟨kind, message, rfl, rfl | hk⟩ := Jcs.canonicalize_raised hc
      · exact absurd (canonicalBytes_jcs hc) ha
      · exact ⟨_, canonicalBytes_raw hc hk shapeCode what, Bool.false_ne_true⟩

/-- Canonicalization answers exactly when it meets neither a lone surrogate nor a number
that cannot be worded, or a node is refused before any that would raise. -/
theorem answers_iff_any {value : JsonValue} (hd : value.Distinct) :
    Answers value ↔
      value.Encodes ∧ (∀ node ∈ Jcs.walk (Jcs.maxDepth + 1) value, Jcs.unworded node.2 = false) ∨
        Jcs.RefusedBefore value := by
  have hends := Jcs.serialize_faults value (Jcs.maxDepth + 1) 0
  rw [Jcs.refusedBefore_iff]
  cases hf : firstFault Jcs.fault 0 (Jcs.walk (Jcs.maxDepth + 1) value) with
  | none =>
    rw [hf] at hends
    obtain ⟨out, hout⟩ := hends
    have hdumps : Jcs.dumps value = .ok out := by rw [Jcs.dumps, hout]; rfl
    obtain ⟨hformats, _, _, rfl⟩ := (Jcs.dumps_eq_ok hd).mp hdumps
    have hworded : ∀ node ∈ Jcs.walk (Jcs.maxDepth + 1) value, Jcs.unworded node.2 = false := by
      intro node hm
      have hclean := Jcs.not_raises_of_clean hf hm
      rw [Jcs.raises, Bool.or_eq_false_iff] at hclean
      exact hclean.1
    -- the walk is clean, so only the text as a whole can fail to encode
    cases hu : utf8? (Jcs.grammar.text (Jcs.doc value)) with
    | some octets =>
      have hencodes := (Jcs.text_wellFormed hformats).mp (utf8?_eq_some_iff.mp hu).1
      have hok : Jcs.canonicalize value = .ok octets := by rw [Jcs.canonicalize, hdumps, ok_bind, hu]
      exact iff_of_true (answers_of_canonicalizes (isOk_iff.mpr ⟨octets, hok⟩)) (.inl ⟨hencodes, hworded⟩)
    | none =>
      have herror : Jcs.canonicalize value =
          .error (.raised .unicode (txt "'utf-8' codec can't encode: surrogates not allowed")) := by
        rw [Jcs.canonicalize, hdumps, ok_bind, hu]
      refine iff_of_false (not_answers_of_raw herror (.inr rfl)) ?_
      rintro (⟨hencodes, _⟩ | hrefused)
      · rw [utf8?_eq_some ((Jcs.text_wellFormed hformats).mpr hencodes)] at hu
        cases hu
      · cases hrefused
  | some kind =>
    rw [hf] at hends
    obtain ⟨message, hout⟩ := hends
    have herror : Jcs.canonicalize value = .error (.raised kind message) := by
      rw [Jcs.canonicalize, Jcs.dumps, hout]
      rfl
    obtain ⟨i, node, hnode, hfault, _⟩ := firstFault_eq_some.mp hf
    rcases Jcs.fault_kinds hfault with rfl | ⟨rfl, hu⟩ | ⟨rfl, hn⟩
    · exact iff_of_true (canonicalBytes_jcs herror) (.inr rfl)
    · refine iff_of_false (not_answers_of_raw herror (.inl rfl)) ?_
      rintro (⟨_, hworded⟩ | hrefused)
      · rw [hworded node (List.mem_of_getElem? hnode)] at hu
        cases hu
      · cases hrefused
    · refine iff_of_false (not_answers_of_raw herror (.inr rfl)) ?_
      rintro (⟨hencodes, _⟩ | hrefused)
      · rw [Jcs.unsorted_of_encodes (Jcs.walk_encodes hencodes (List.mem_of_getElem? hnode))] at hn
        cases hn
      · cases hrefused

end AitpVerifier
