import AitpVerifier.Jwk
import AitpVerifier.Leaks
import AitpVerifier.Metered
import AitpVerifier.Recorded

/-!
# The flattening of an issuer-key value

A resolver's value flattens into candidates, left to right. The walk returns their keys
exactly where its three caps hold of the value and every candidate parses, and however
it ends it has entered and parsed no more than the caps allow.
-/
namespace AitpVerifier

open PyText Checked

variable (P : Platform)

/-! ### The value flattened -/

/-- What a key is parsed from, or what never is one: an object whose `keys` is no list,
and a value of another kind. -/
inductive Candidate where
  | config : Text → Candidate
  | jwk : JsonValue → Candidate
  | malformed : JsonValue → Candidate

def Candidate.parse : Candidate → PyM IssuerKey
  | .config text => issuerKeyFromConfig P text
  | .jwk value => issuerKeyFromJwk P value
  | .malformed value => .error (valueError (txt "unsupported issuer key value shape: " ++ value.typeName))

/-- The candidates of a value, in the order they stand in it. -/
def candidates : JsonValue → List Candidate
  | .null => []
  | .str text => [.config text]
  | .dict members =>
    match Members.get? members (txt "keys") with
    | some (.list keys) => keys.map .jwk
    | some _ => [.malformed (.dict members)]
    | none => [.jwk (.dict members)]
  | .list items => (items.map candidates).flatten
  | value => [.malformed value]
termination_by value => sizeOf value
decreasing_by
  have := List.sizeOf_lt_of_mem ‹_›
  simp only [JsonValue.list.sizeOf_spec]
  omega

/-- The values a walk enters: lists are entered item by item, objects never. -/
def walkNodes : JsonValue → Nat
  | .list items => (items.map walkNodes).sum + 1
  | _ => 1
termination_by value => sizeOf value
decreasing_by
  have := List.sizeOf_lt_of_mem ‹_›
  simp only [JsonValue.list.sizeOf_spec]
  omega

/-- The lists around the innermost value. -/
def listDepth : JsonValue → Nat
  | .list items => (items.map fun item => listDepth item + 1).foldr max 0
  | _ => 0
termination_by value => sizeOf value
decreasing_by
  have := List.sizeOf_lt_of_mem ‹_›
  simp only [JsonValue.list.sizeOf_spec]
  omega

theorem listDepth_list_lt {items : List JsonValue} {room : Nat} :
    listDepth (.list items) < room + 1 ↔ ∀ item ∈ items, listDepth item < room := by
  rw [listDepth, levels_lt]

/-- The value within the caps, its candidates parsed to `keys`. -/
structure Flattens (value : JsonValue) (keys : List IssuerKey) : Prop where
  depth : listDepth value ≤ maxListDepth
  nodes : walkNodes value ≤ maxWalkNodes
  count : (candidates value).length ≤ maxCandidates
  parsed : collect (Candidate.parse P) (candidates value) = .ok keys

/-! ### The walk returns the flattening -/

theorem walkVisit_eq_ok {visits visited : Nat} :
    walkVisit visits = .ok visited ↔ visits + 1 ≤ maxWalkNodes ∧ visits + 1 = visited := by
  simp only [walkVisit, bind_eq_ok, exists_unit, raiseIf_eq_ok, decide_eq_false_iff_not, not_lt, Except.ok.injEq]

theorem appendCandidate_eq_ok {out out' : List IssuerKey} {parse : PyM IssuerKey} :
    appendCandidate out parse = .ok out' ↔ out.length < maxCandidates ∧ ∃ key, parse = .ok key ∧ out ++ [key] = out' := by
  simp only [appendCandidate, bind_eq_ok, exists_unit, raiseIf_eq_ok, decide_eq_false_iff_not, not_le, Except.ok.injEq]

/-- Candidates appended one by one are collected. -/
theorem appendCandidates_eq_ok {parse : JsonValue → PyM IssuerKey} {items : List JsonValue} {out out' : List IssuerKey}
    (hout : out.length ≤ maxCandidates) :
    walkItems (fun item out => appendCandidate out (parse item)) items out = .ok out' ↔
      ∃ keys, collect parse items = .ok keys ∧ out.length + keys.length ≤ maxCandidates ∧ out ++ keys = out' := by
  induction items generalizing out with
  | nil =>
    simp only [walkItems, collect, Except.ok.injEq, exists_eq_left', List.length_nil, Nat.add_zero, List.append_nil, hout,
      true_and]
  | cons item rest ih =>
    simp only [walkItems, collect, bind_eq_ok, appendCandidate_eq_ok, Except.ok.injEq]
    constructor
    · rintro ⟨next, ⟨hroom, key, hkey, rfl⟩, hrest⟩
      have hnext : (out ++ [key]).length ≤ maxCandidates := by simpa using hroom
      obtain ⟨keys, hkeys, hcount, rfl⟩ := (ih hnext).mp hrest
      refine ⟨key :: keys, ⟨key, hkey, keys, hkeys, rfl⟩, ?_, by simp⟩
      simp only [List.length_append, List.length_cons, List.length_nil] at hcount ⊢
      omega
    · rintro ⟨_, ⟨key, hkey, keys, hkeys, rfl⟩, hcount, rfl⟩
      simp only [List.length_cons] at hcount
      have hnext : (out ++ [key]).length ≤ maxCandidates := by
        simp only [List.length_append, List.length_cons, List.length_nil]
        omega
      refine ⟨out ++ [key], ⟨by omega, key, hkey, rfl⟩, (ih hnext).mpr ⟨keys, hkeys, ?_, by simp⟩⟩
      simp only [List.length_append, List.length_cons, List.length_nil]
      omega

/-- What the walk makes of one value, from an accumulator within the caps. -/
def WalksTo (value : JsonValue) (walk walk' : Walk) : Prop :=
  walk.2 + walkNodes value ≤ maxWalkNodes ∧ walk.2 + walkNodes value = walk'.2 ∧
    ∃ keys, collect (Candidate.parse P) (candidates value) = .ok keys ∧ walk.1.length + keys.length ≤ maxCandidates ∧
      walk.1 ++ keys = walk'.1

theorem walk_leaf {value : JsonValue} (h : ∀ items, value ≠ .list items) : listDepth value = 0 ∧ walkNodes value = 1 := by
  cases value with
  | list items => exact absurd rfl (h items)
  | _ =>
    rw [listDepth, walkNodes]
    · exact ⟨rfl, rfl⟩
    all_goals simp

/-- A value without items of its own is entered once. -/
theorem issuerKeysWalk_leaf {room : Nat} {value : JsonValue} {out : List IssuerKey} {visits : Nat} {walk' : Walk}
    (hleaf : ∀ items, value ≠ .list items) {x : PyM (List IssuerKey)}
    (hwalk : issuerKeysWalk P (room + 1) value (out, visits) = do
      let visits ← walkVisit visits
      let out ← x
      .ok (out, visits))
    (happend : ∀ out', x = .ok out' ↔ ∃ keys, collect (Candidate.parse P) (candidates value) = .ok keys ∧
      out.length + keys.length ≤ maxCandidates ∧ out ++ keys = out') :
    issuerKeysWalk P (room + 1) value (out, visits) = .ok walk' ↔
      listDepth value < room + 1 ∧ WalksTo P value (out, visits) walk' := by
  obtain ⟨hdepth, hnodes⟩ := walk_leaf hleaf
  rw [hwalk, hdepth, WalksTo, hnodes, and_iff_right (Nat.succ_pos room)]
  simp only [bind_eq_ok, walkVisit_eq_ok, happend, Except.ok.injEq]
  constructor
  · rintro ⟨_, ⟨hvisits, rfl⟩, out', ⟨keys, hkeys, hcount, rfl⟩, rfl⟩
    exact ⟨hvisits, rfl, keys, hkeys, hcount, rfl⟩
  · rintro ⟨hvisits, hvisited, keys, hkeys, hcount, hout⟩
    exact ⟨_, ⟨hvisits, rfl⟩, _, ⟨keys, hkeys, hcount, rfl⟩, Prod.ext hout hvisited⟩

theorem appendOne_eq_ok (candidate : Candidate) {out out' : List IssuerKey} :
    appendCandidate out (candidate.parse P) = .ok out' ↔ ∃ keys, collect (Candidate.parse P) [candidate] = .ok keys ∧
      out.length + keys.length ≤ maxCandidates ∧ out ++ keys = out' := by
  rw [appendCandidate_eq_ok]
  simp only [collect_singleton]
  constructor
  · rintro ⟨hroom, key, hkey, rfl⟩
    exact ⟨[key], ⟨key, hkey, rfl⟩, hroom, rfl⟩
  · rintro ⟨_, ⟨key, hkey, rfl⟩, hroom, rfl⟩
    exact ⟨hroom, key, hkey, rfl⟩

/-- A malformed candidate is never appended. -/
theorem malformed_eq_ok {value : JsonValue} {e : PyErr} {out out' : List IssuerKey} :
    (.error e : PyM (List IssuerKey)) = .ok out' ↔ ∃ keys, collect (Candidate.parse P) [.malformed value] = .ok keys ∧
      out.length + keys.length ≤ maxCandidates ∧ out ++ keys = out' := by
  refine iff_of_false error_ne_ok ?_
  rintro ⟨keys, hkeys, _⟩
  obtain ⟨key, hkey, _⟩ := collect_singleton.mp hkeys
  cases hkey

/-- The items of a list, walked one after the other. -/
theorem walkItems_eq_ok {room : Nat}
    (ih : ∀ value out visits walk', out.length ≤ maxCandidates →
      (issuerKeysWalk P room value (out, visits) = .ok walk' ↔ listDepth value < room ∧ WalksTo P value (out, visits) walk'))
    {items : List JsonValue} {out : List IssuerKey} {visits : Nat} {walk' : Walk} (hout : out.length ≤ maxCandidates)
    (hvisits : visits ≤ maxWalkNodes) :
    walkItems (issuerKeysWalk P room) items (out, visits) = .ok walk' ↔ (∀ item ∈ items, listDepth item < room) ∧
      visits + (items.map walkNodes).sum ≤ maxWalkNodes ∧ visits + (items.map walkNodes).sum = walk'.2 ∧
      ∃ keys, collect (Candidate.parse P) (items.map candidates).flatten = .ok keys ∧
        out.length + keys.length ≤ maxCandidates ∧ out ++ keys = walk'.1 := by
  induction items generalizing out visits with
  | nil =>
    simp only [walkItems, collect, List.map_nil, List.sum_nil, List.flatten_nil, Nat.add_zero, Except.ok.injEq]
    constructor
    · rintro rfl
      exact ⟨List.forall_mem_nil _, hvisits, rfl, [], rfl, hout, List.append_nil out⟩
    · rintro ⟨_, _, hvisited, _, rfl, _, hkeys⟩
      exact Prod.ext ((List.append_nil out).symm.trans hkeys) hvisited
  | cons item rest ihrest =>
    simp only [walkItems, bind_eq_ok, ih item out visits _ hout, List.map_cons, List.sum_cons, List.flatten_cons,
      List.forall_mem_cons, collect_append]
    constructor
    · rintro ⟨⟨out', visits'⟩, ⟨hdepth, hnodes, hvisited, keys, hkeys, hcount, hout'⟩, hrest⟩
      simp only at hnodes hvisited hcount hout'
      subst hvisited hout'
      have hnext : (out ++ keys).length ≤ maxCandidates := by rwa [List.length_append]
      obtain ⟨hdepths, hsum, hlast, more, hmore, htotal, hall⟩ := (ihrest hnext hnodes).mp hrest
      rw [List.length_append] at htotal
      refine ⟨⟨hdepth, hdepths⟩, by omega, by omega, keys ++ more, ⟨keys, more, hkeys, hmore, rfl⟩, ?_, ?_⟩
      · rw [List.length_append]
        omega
      · rw [← hall, List.append_assoc]
    · rintro ⟨⟨hdepth, hdepths⟩, hsum, hlast, _, ⟨keys, more, hkeys, hmore, rfl⟩, htotal, hall⟩
      rw [List.length_append] at htotal
      have hnext : (out ++ keys).length ≤ maxCandidates := by
        rw [List.length_append]
        omega
      refine ⟨(out ++ keys, visits + walkNodes item), ⟨hdepth, by simp only; omega, rfl, keys, hkeys, ?_, rfl⟩, ?_⟩
      · simp only
        omega
      · refine (ihrest hnext (by omega)).mpr ⟨hdepths, by omega, by omega, more, hmore, ?_, ?_⟩
        · rw [List.length_append]
          omega
        · rw [List.append_assoc]
          exact hall

/-- The walk of a value, by induction on the list levels left. -/
theorem issuerKeysWalk_eq_ok (room : Nat) (value : JsonValue) (out : List IssuerKey) (visits : Nat) (walk' : Walk)
    (hout : out.length ≤ maxCandidates) :
    issuerKeysWalk P room value (out, visits) = .ok walk' ↔ listDepth value < room ∧ WalksTo P value (out, visits) walk' := by
  induction room generalizing value out visits walk' with
  | zero =>
    simp only [issuerKeysWalk, bind_eq_ok, reduceCtorEq, and_false, exists_false, Nat.not_lt_zero, false_and]
  | succ room ih =>
    cases value with
    | null =>
      refine issuerKeysWalk_leaf P (x := .ok out) (by simp) rfl fun out' => ?_
      rw [candidates, collect]
      simp [hout]
    | str text =>
      refine issuerKeysWalk_leaf P (by simp) rfl fun out' => ?_
      rw [candidates]
      exact appendOne_eq_ok P (.config text)
    | dict members =>
      cases hkeys : Members.get? members (txt "keys") with
      | none =>
        refine issuerKeysWalk_leaf P (x := appendCandidate out (issuerKeyFromJwk P (.dict members)))
          (by simp) ?_ fun out' => ?_
        · rw [issuerKeysWalk]
          simp only [hkeys]
        · rw [candidates, hkeys]
          exact appendOne_eq_ok P (.jwk (.dict members))
      | some keys =>
        cases keys with
        | list keys =>
          refine issuerKeysWalk_leaf P
            (x := walkItems (fun key out => appendCandidate out (issuerKeyFromJwk P key)) keys out)
            (by simp) ?_ fun out' => ?_
          · rw [issuerKeysWalk]
            simp only [hkeys]
          · rw [candidates, hkeys, collect_map]
            exact appendCandidates_eq_ok hout
        | _ =>
          refine issuerKeysWalk_leaf P (x := .error (valueError (txt "JWKS 'keys' must be a list")))
            (by simp) ?_ fun out' => ?_
          · rw [issuerKeysWalk]
            simp only [hkeys]
            rfl
          · rw [candidates, hkeys]
            exact malformed_eq_ok P
    | list items =>
      rw [issuerKeysWalk]
      simp only [bind_eq_ok, walkVisit_eq_ok]
      rw [listDepth_list_lt, WalksTo, walkNodes, candidates]
      constructor
      · rintro ⟨_, ⟨hvisits, rfl⟩, hitems⟩
        obtain ⟨hdepths, hsum, hlast, hkeys⟩ := (walkItems_eq_ok P ih hout hvisits).mp hitems
        exact ⟨hdepths, by simp only; omega, by simp only; omega, hkeys⟩
      · rintro ⟨hdepths, hsum, hlast, hkeys⟩
        simp only at hsum hlast
        have hvisits : visits + 1 ≤ maxWalkNodes := by omega
        exact ⟨_, ⟨hvisits, rfl⟩, (walkItems_eq_ok P ih hout hvisits).mpr ⟨hdepths, by omega, by omega, hkeys⟩⟩
    | _ =>
      refine issuerKeysWalk_leaf P (x := .error (valueError _)) (by simp) rfl fun out' => ?_
      rw [candidates]
      · exact malformed_eq_ok P
      all_goals simp

theorem issuerKeysFrom_eq_ok {value : JsonValue} {keys : List IssuerKey} :
    issuerKeysFrom P value = .ok keys ↔ Flattens P value keys := by
  simp only [issuerKeysFrom, bind_eq_ok, Except.ok.injEq]
  constructor
  · rintro ⟨walk, hwalk, rfl⟩
    obtain ⟨hdepth, hnodes, _, keys, hkeys, hcount, hout⟩ :=
      (issuerKeysWalk_eq_ok P _ value [] 0 walk (Nat.zero_le _)).mp hwalk
    simp only [List.nil_append, List.length_nil, Nat.zero_add] at hnodes hcount hout
    subst hout
    exact ⟨Nat.lt_succ_iff.mp hdepth, hnodes, collect_length hkeys ▸ hcount, hkeys⟩
  · intro h
    have hlength := collect_length h.parsed
    refine ⟨(keys, walkNodes value), (issuerKeysWalk_eq_ok P _ value [] 0 _ (Nat.zero_le _)).mpr ⟨Nat.lt_succ_iff.mpr h.depth, ?_⟩, rfl⟩
    refine ⟨by simpa using h.nodes, Nat.zero_add _, keys, h.parsed, ?_, rfl⟩
    simpa [hlength] using h.count

/-! ### How the walk fails -/

theorem walkItems_failsWith {α β : Type} {p : PyErr → Prop} {step : α → β → PyM β} {items : List α} {acc : β}
    (hstep : ∀ item acc, FailsWith p (step item acc)) : FailsWith p (walkItems step items acc) := by
  induction items generalizing acc with
  | nil => exact .ok
  | cons item rest ih => exact (hstep item acc).bind fun _ _ => ih

/-- The assumption on the two parsers: a key, or a `ValueError`. -/
structure ParsersRaiseValueError : Prop where
  jwk : ∀ value, FailsWith IsValueError (issuerKeyFromJwk P value)
  config : ∀ text, FailsWith IsValueError (issuerKeyFromConfig P text)

variable {P}

theorem appendCandidate_failsWith {out : List IssuerKey} {parse : PyM IssuerKey} (h : FailsWith IsValueError parse) :
    FailsWith IsValueError (appendCandidate out parse) :=
  (FailsWith.raiseIf isValueError_valueError).bind fun _ _ => h.bind fun _ _ => .ok

theorem issuerKeysWalk_failsWith (h : ParsersRaiseValueError P) (room : Nat) (value : JsonValue) (walk : Walk) :
    FailsWith IsValueError (issuerKeysWalk P room value walk) := by
  have hvisit (visits : Nat) : FailsWith IsValueError (walkVisit visits) :=
    (FailsWith.raiseIf isValueError_valueError).bind fun _ _ => .ok
  obtain ⟨out, visits⟩ := walk
  induction room generalizing value out visits with
  | zero => exact (hvisit visits).bind fun _ _ => .error isValueError_valueError
  | succ room ih =>
    rw [issuerKeysWalk]
    refine (hvisit visits).bind fun visited _ => ?_
    cases value with
    | null => exact .ok
    | str text => exact (appendCandidate_failsWith (h.config text)).bind fun _ _ => .ok
    | dict members =>
      dsimp only
      split
      · exact (walkItems_failsWith fun key out => appendCandidate_failsWith (h.jwk key)).bind fun _ _ => .ok
      · exact .error isValueError_valueError
      · exact (appendCandidate_failsWith (h.jwk _)).bind fun _ _ => .ok
    | list items => exact walkItems_failsWith fun item walk => ih item walk.1 walk.2
    | _ => exact .error isValueError_valueError

theorem issuerKeysFrom_failsWith (h : ParsersRaiseValueError P) (value : JsonValue) :
    FailsWith IsValueError (issuerKeysFrom P value) :=
  (issuerKeysWalk_failsWith h _ value _).bind fun _ _ => .ok

/-! ### The work of a walk -/

/-- What a walk has done: the values it entered and the candidates it parsed. -/
structure WalkWork where
  entered : Nat
  parsed : Nat

def WalkWork.enter (work : WalkWork) : WalkWork := { work with entered := work.entered + 1 }

def WalkWork.parse (work : WalkWork) : WalkWork := { work with parsed := work.parsed + 1 }

variable (P)

/-- `appendCandidate`, the parse counted once there is room for it. -/
def meteredAppend (out : List IssuerKey) (parse : PyM IssuerKey) : Metered WalkWork PyErr (List IssuerKey) := do
  Metered.lift (raiseIf (decide (maxCandidates ≤ out.length))
    (valueError (txt "issuer key value carries more than 64 candidate keys")))
  Metered.spend WalkWork.parse
  let key ← Metered.lift parse
  pure (out ++ [key])

/-- `issuerKeysWalk`, every value counted on entry. -/
def meteredKeysWalk : Nat → JsonValue → Walk → Metered WalkWork PyErr Walk
  | 0, _, (_, visits) => do
    Metered.spend WalkWork.enter
    let _ ← Metered.lift (walkVisit visits)
    Metered.lift (.error (valueError (txt "issuer key value nesting exceeds the maximum depth (16)")))
  | room + 1, value, (out, visits) => do
    Metered.spend WalkWork.enter
    let visits ← Metered.lift (walkVisit visits)
    match value with
    | .null => pure (out, visits)
    | .str text => do
      let out ← meteredAppend out (issuerKeyFromConfig P text)
      pure (out, visits)
    | .dict members =>
      match Members.get? members (txt "keys") with
      | some (.list keys) => do
        let out ← Metered.thread (fun key out => meteredAppend out (issuerKeyFromJwk P key)) keys out
        pure (out, visits)
      | some _ => Metered.lift (.error (valueError (txt "JWKS 'keys' must be a list")))
      | none => do
        let out ← meteredAppend out (issuerKeyFromJwk P value)
        pure (out, visits)
    | .list items => Metered.thread (meteredKeysWalk room) items (out, visits)
    | _ => Metered.lift (.error (valueError (txt "unsupported issuer key value shape: " ++ value.typeName)))

def meteredKeysFrom (value : JsonValue) : Metered WalkWork PyErr (List IssuerKey) := do
  let (out, _) ← meteredKeysWalk P (maxListDepth + 1) value ([], 0)
  pure out

variable {P}

open Metered

theorem thread_computes {α β : Type} {step : α → β → Metered WalkWork PyErr β} {step' : α → β → PyM β}
    (h : ∀ item acc, Computes (step item acc) (step' item acc)) (items : List α) (acc : β) :
    Computes (thread step items acc) (walkItems step' items acc) := by
  induction items generalizing acc with
  | nil => exact .pure
  | cons item rest ih => exact (h item acc).bind fun acc' _ => ih acc'

theorem meteredAppend_computes (out : List IssuerKey) (parse : PyM IssuerKey) :
    Computes (meteredAppend out parse) (appendCandidate out parse) :=
  .bind .lift fun _ _ => .spend (.bind .lift fun _ _ => .pure)

/-- Erased, the counted walk is the walk. -/
theorem meteredKeysWalk_computes (room : Nat) (value : JsonValue) (walk : Walk) :
    Computes (meteredKeysWalk P room value walk) (issuerKeysWalk P room value walk) := by
  obtain ⟨out, visits⟩ := walk
  induction room generalizing value out visits with
  | zero => exact .spend (.bind .lift fun _ _ => .lift)
  | succ room ih =>
    rw [meteredKeysWalk, issuerKeysWalk]
    refine .spend (.bind .lift fun visited _ => ?_)
    cases value with
    | null => exact .pure
    | str text => exact .bind (meteredAppend_computes _ _) fun _ _ => .pure
    | dict members =>
      dsimp only
      cases Members.get? members (txt "keys") with
      | none => exact .bind (meteredAppend_computes _ _) fun _ _ => .pure
      | some keys =>
        cases keys with
        | list keys => exact .bind (thread_computes (fun _ _ => meteredAppend_computes _ _) _ _) fun _ _ => .pure
        | _ => exact .lift
    | list items => exact thread_computes (fun item walk => ih item walk.1 walk.2) items _
    | _ => exact .lift

theorem meteredKeysFrom_computes (value : JsonValue) : Computes (meteredKeysFrom P value) (issuerKeysFrom P value) :=
  .bind (meteredKeysWalk_computes _ _ _) fun _ _ => .pure

/-- While the walk goes on its counters are its accumulator's, within the caps. -/
structure WorkWithin (walk : Walk) (work : WalkWork) : Prop where
  entered : work.entered = walk.2
  parsed : work.parsed = walk.1.length
  nodes : walk.2 ≤ maxWalkNodes
  count : walk.1.length ≤ maxCandidates

/-- The bound on the work of a walk however it ends. -/
structure WorkBounded (work : WalkWork) : Prop where
  entered : work.entered ≤ maxWalkNodes + 1
  parsed : work.parsed ≤ maxCandidates

theorem WorkWithin.bounded {walk : Walk} {work : WalkWork} (h : WorkWithin walk work) : WorkBounded work := by
  obtain ⟨hentered, hparsed, hnodes, hcount⟩ := h
  exact ⟨by omega, by omega⟩

theorem meteredAppend_triple (out : List IssuerKey) (visits : Nat) (parse : PyM IssuerKey) :
    Triple (WorkWithin (out, visits)) (meteredAppend out parse) (fun out' => WorkWithin (out', visits)) WorkBounded := by
  have hreserve : Triple (WorkWithin (out, visits))
      (Metered.lift (raiseIf (decide (maxCandidates ≤ out.length))
        (valueError (txt "issuer key value carries more than 64 candidate keys"))))
      (fun _ work => WorkWithin (out, visits) work ∧ out.length < maxCandidates) WorkBounded := by
    refine .lift (fun work hw u hok => ⟨hw, ?_⟩) fun _ hw => hw.bounded
    rw [raiseIf_eq_ok, decide_eq_false_iff_not] at hok
    omega
  refine hreserve.bind fun _ => Triple.charge (m := fun _ work => work.entered = visits ∧ work.parsed = out.length + 1 ∧
    visits ≤ maxWalkNodes ∧ out.length < maxCandidates) ?_ ?_ fun key => .pure ?_
  · rintro work ⟨⟨hentered, hparsed, hnodes, _⟩, hroom⟩ _ _
    exact ⟨hentered, congrArg (· + 1) hparsed, hnodes, hroom⟩
  · rintro work ⟨⟨hentered, hparsed, hnodes, _⟩, hroom⟩
    simp only at hentered hparsed hnodes
    exact ⟨by simp only [WalkWork.parse]; omega, by simp only [WalkWork.parse]; omega⟩
  · rintro work ⟨hentered, hparsed, hnodes, hroom⟩
    exact ⟨hentered, by simpa using hparsed, hnodes, by simpa using hroom⟩

/-- Entering a value is counted, then tested. -/
theorem meteredVisit_triple {α : Type} (out : List IssuerKey) (visits : Nat) {f : Nat → Metered WalkWork PyErr α}
    {post : α → WalkWork → Prop} (hf : Triple (WorkWithin (out, visits + 1)) (f (visits + 1)) post WorkBounded) :
    Triple (WorkWithin (out, visits)) (do
      Metered.spend WalkWork.enter
      let visits ← Metered.lift (walkVisit visits)
      f visits) post WorkBounded := by
  refine Triple.charge (m := fun visited work => visited = visits + 1 ∧ WorkWithin (out, visits + 1) work) ?_ ?_ ?_
  · rintro work ⟨hentered, hparsed, _, hcount⟩ visited hvisited
    obtain ⟨hnodes, rfl⟩ := walkVisit_eq_ok.mp hvisited
    exact ⟨rfl, congrArg (· + 1) hentered, hparsed, hnodes, hcount⟩
  · rintro work ⟨hentered, hparsed, hnodes, hcount⟩
    simp only at hentered hparsed hnodes hcount
    exact ⟨by simp only [WalkWork.enter]; omega, by simp only [WalkWork.enter]; omega⟩
  · intro visited work hw
    obtain ⟨rfl, hw⟩ := hw
    exact hf work hw

/-- The walk keeps its counters, by induction on the list levels left. -/
theorem meteredKeysWalk_triple (room : Nat) (value : JsonValue) (out : List IssuerKey) (visits : Nat) :
    Triple (WorkWithin (out, visits)) (meteredKeysWalk P room value (out, visits)) WorkWithin WorkBounded := by
  have hbounded {walk : Walk} {e : PyErr} :
      Triple (WorkWithin walk) (Metered.lift (.error e)) WorkWithin WorkBounded :=
    .lift (fun _ _ _ h => nomatch h) fun _ hw => hw.bounded
  induction room generalizing value out visits with
  | zero =>
    rw [meteredKeysWalk]
    exact meteredVisit_triple out visits (f := fun _ => Metered.lift (.error _)) hbounded
  | succ room ih =>
    rw [meteredKeysWalk]
    refine meteredVisit_triple out visits ?_
    have happend (parse : PyM IssuerKey) : Triple (WorkWithin (out, visits + 1))
        (meteredAppend out parse >>= fun out => pure (out, visits + 1)) WorkWithin WorkBounded :=
      (meteredAppend_triple out _ parse).bind fun _ => .pure fun _ hw => hw
    cases value with
    | null => exact .pure fun _ hw => hw
    | str text => exact happend _
    | dict members =>
      dsimp only
      cases Members.get? members (txt "keys") with
      | none => exact happend _
      | some keys =>
        cases keys with
        | list keys =>
          have hkeys : Triple (WorkWithin (out, visits + 1))
              (Metered.thread (fun key out => meteredAppend out (issuerKeyFromJwk P key)) keys out)
              (fun out => WorkWithin (out, visits + 1)) WorkBounded :=
            Triple.thread (i := fun out => WorkWithin (out, visits + 1)) (fun key _ out => meteredAppend_triple out _ _) out
          exact hkeys.bind fun _ => .pure fun _ hw => hw
        | _ => exact hbounded
    | list items => exact Triple.thread (i := WorkWithin) (fun item _ walk => ih item walk.1 walk.2) (out, visits + 1)
    | _ => exact hbounded

theorem meteredKeysFrom_bounded (value : JsonValue) : WorkBounded (meteredKeysFrom P value ⟨0, 0⟩).2 := by
  have htriple : Triple (WorkWithin ([], 0)) (meteredKeysFrom P value) (fun _ => WorkBounded) WorkBounded :=
    (meteredKeysWalk_triple _ value [] 0).bind fun _ => .pure fun _ hw => hw.bounded
  exact htriple.account ⟨rfl, rfl, Nat.zero_le _, Nat.zero_le _⟩

/-- Resolution is the flattening of a value within the caps and a `ValueError` for any
other, and its work is bounded in all cases. -/
theorem issuerKeysFrom_flattens (P : Platform) (h : ParsersRaiseValueError P) (value : JsonValue) :
    (∀ keys, issuerKeysFrom P value = .ok keys ↔ Flattens P value keys) ∧
      ((∀ keys, ¬ Flattens P value keys) → ∃ e, issuerKeysFrom P value = .error e ∧ IsValueError e) ∧
      (meteredKeysFrom P value ⟨0, 0⟩).1 = issuerKeysFrom P value ∧
      (meteredKeysFrom P value ⟨0, 0⟩).2.parsed ≤ maxCandidates ∧
      (meteredKeysFrom P value ⟨0, 0⟩).2.entered ≤ maxWalkNodes + 1 := by
  have hbounded := meteredKeysFrom_bounded (P := P) value
  refine ⟨fun keys => issuerKeysFrom_eq_ok P, fun hno => ?_, meteredKeysFrom_computes value _, hbounded.parsed, hbounded.entered⟩
  cases hrun : issuerKeysFrom P value with
  | ok keys => exact absurd ((issuerKeysFrom_eq_ok P).mp hrun) (hno keys)
  | error e => exact ⟨e, rfl, issuerKeysFrom_failsWith h value e hrun⟩

/-! ### The assumption on the parsers -/

section Parsers

variable (P)

theorem describedWith_valueErrors {c : Bool} {value : JsonValue} {said : Text} :
    FailsWith IsValueError (raiseWith c (do .ok (valueError (said ++ (← describeValue P value))))) := by
  refine raiseWith_failsWith ((describeValue_valueErrors P value).bind fun _ _ => .ok) fun e he => ?_
  obtain ⟨_, _, hmessage⟩ := bind_eq_ok.mp he
  rw [← Except.ok.inj hmessage]
  exact isValueError_valueError

/-- The parsers raise `ValueError` alone where building an RSA key does. -/
theorem parsersRaiseValueError (hrsa : ∀ n e, FailsWith IsValueError (P.rsaNumbers n e)) : ParsersRaiseValueError P where
  config text := by
    unfold issuerKeyFromConfig
    split
    · exact (b64urlDecode_valueErrors _).bind fun _ _ => (fromRaw_valueErrors P _ _).bind fun _ _ => .ok
    · split
      · exact (b64urlDecode_valueErrors _).bind fun _ _ => (fromRaw_valueErrors P _ _).bind fun _ _ => .ok
      · exact .error isValueError_valueError
  jwk value := by
    have hguard {c : Bool} {message : Text} : FailsWith IsValueError (raiseIf c (valueError message)) :=
      .raiseIf isValueError_valueError
    have hmember := decodeJwkMember_valueErrors P
    cases value with
    | dict jwk =>
      have hkid : FailsWith IsValueError (jwkKid jwk) := by
        unfold jwkKid
        split
        · exact .ok
        · exact .ok
        · exact .error isValueError_valueError
      have hnumbers (n e : Bytes) : FailsWith IsValueError (fromRsaNumbers P n e) :=
        hguard.bind fun _ _ => hguard.bind fun _ _ => hguard.bind fun _ _ => hguard.bind fun _ _ =>
          (hrsa _ _).bind fun _ _ => .ok
      refine hkid.bind fun kid _ => ?_
      split
      · exact (describedWith_valueErrors P).bind fun _ _ => (hmember _ _).bind fun _ _ => hguard.bind fun _ _ =>
          (fromRaw_valueErrors P _ _).bind fun _ _ => .ok
      · split
        · exact (describedWith_valueErrors P).bind fun _ _ => (hmember _ _).bind fun _ _ => (hmember _ _).bind fun _ _ =>
            hguard.bind fun _ _ => hguard.bind fun _ _ => .ok
        · split
          · exact (hmember _ _).bind fun _ _ => (hmember _ _).bind fun _ _ => (hnumbers _ _).bind fun _ _ => .ok
          · exact (describeValue_valueErrors P _).bind fun _ _ => .error isValueError_valueError
    | _ => exact .error isValueError_valueError

end Parsers

/-! ### A value of all shapes -/

def okpJwk (ident : Text) : Members :=
  [(txt "kty", .str (txt "OKP")), (txt "crv", .str (txt "Ed25519")), (txt "x", .str ident)]

/-- A configured string, a JWK inside a list, and a key set. -/
def mixedValue : JsonValue :=
  .list [.str agentA, .list [.null, .dict (okpJwk agentB)], .dict [(txt "keys", .list [.dict (okpJwk agentC)])]]

def okpIssuerKey (ident : Text) : IssuerKey := ⟨none, txt "EdDSA", .agent (.ed25519 (octetsOf ident))⟩

def quietRecording : Recording where
  digests := []
  signatures := []

theorem quietRecording_parsers : ParsersRaiseValueError quietRecording.platform :=
  parsersRaiseValueError _ fun _ _ => .error isValueError_valueError

theorem issuerKeysFrom_flattens_mixed :
    Flattens quietRecording.platform mixedValue [okpIssuerKey agentA, okpIssuerKey agentB, okpIssuerKey agentC] :=
  ((issuerKeysFrom_flattens quietRecording.platform quietRecording_parsers mixedValue).1 _).mp (by decide +kernel)

/-- A JWK with a further member `keys`: parsed by itself it is a key, and the walk refuses it. -/
def keyedJwk : JsonValue := .dict (okpJwk agentA ++ [(txt "keys", .str (txt "x"))])

theorem keyedJwk_refused :
    issuerKeyFromJwk quietRecording.platform keyedJwk = .ok (okpIssuerKey agentA) ∧ listDepth keyedJwk = 0 ∧
      walkNodes keyedJwk = 1 ∧
      issuerKeysFrom quietRecording.platform keyedJwk = .error (valueError (txt "JWKS 'keys' must be a list")) := by
  have hleaf : listDepth keyedJwk = 0 ∧ walkNodes keyedJwk = 1 := walk_leaf (by simp [keyedJwk])
  exact ⟨by decide +kernel, hleaf.1, hleaf.2, by decide +kernel⟩

end AitpVerifier
