import AitpVerifier.Canonical

/-!
# What a JSON text scans to

A property the leaves have and containers keep holds of everything the scanner
returns. Two are put to use: every integer is short enough to be written back, and
no object of a strict parse repeats a name.
-/
namespace AitpVerifier.Json

open PyText Checked

/-- The leaves a scan makes have `Q`, and containers keep it. -/
structure Keeps (hooks : Hooks) (Q : JsonValue → Prop) : Prop where
  null : Q .null
  bool : ∀ b, Q (.bool b)
  int : ∀ negative digits i, parseInt negative digits = .ok i → digits ≠ [] → (∀ c ∈ digits, isDigit c) → Q i
  float : ∀ f, Q (.float f)
  str : ∀ s, Q (.str s)
  list : ∀ items, (∀ item ∈ items, Q item) → Q (.list items)
  object : ∀ members v, (∀ m ∈ (members : Members), Q m.2) → hooks.objectPairs members = .ok v → Q v
  constant : ∀ name v, hooks.parseConstant name = .ok v → Q v

theorem raising_eq_ok {α : Type} {x : PyM α} {rest rest' : Text} {a : α} :
    raising x rest = .ok (a, rest') ↔ x = .ok a ∧ rest = rest' := by
  cases x <;> simp [raising]

theorem mem_takeWhile_isDigit {s : Text} {c : CodePoint} (h : c ∈ s.takeWhile isDigit) : isDigit c = true := by
  induction s with
  | nil => cases h
  | cons d rest ih =>
    by_cases hd : isDigit d = true
    · rw [List.takeWhile_cons_of_pos hd] at h
      rcases List.mem_cons.mp h with rfl | hrest
      · exact hd
      · exact ih hrest
    · rw [List.takeWhile_cons_of_neg hd] at h
      cases h

theorem integerPart_digits {s : Text} {c : CodePoint} (h : c ∈ (integerPart s).1) : isDigit c = true := by
  cases s with
  | nil => cases h
  | cons d rest =>
    rw [integerPart] at h
    by_cases hd : d = 0x30
    · rw [if_pos hd, hd] at h
      rw [List.mem_singleton.mp h]
      decide
    · rw [if_neg hd] at h
      exact mem_takeWhile_isDigit h

/-- All three scanners keep `Q` with this much fuel. -/
structure KeepsWithin (hooks : Hooks) (Q : JsonValue → Prop) (fuel : Nat) : Prop where
  once : ∀ room s v rest, scanOnce hooks fuel room s = .ok (v, rest) → Q v
  items : ∀ room first s items rest, scanItems hooks fuel room first s = .ok (items, rest) → ∀ item ∈ items, Q item
  members : ∀ room first s members rest, scanMembers hooks fuel room first s = .ok (members, rest) →
    ∀ m ∈ members, Q m.2

section

variable {hooks : Hooks} {Q : JsonValue → Prop} {fuel : Nat} (ih : KeepsWithin hooks Q fuel)

include ih

theorem scanItems_keeps {room : Nat} {first : Bool} {s rest : Text} {items : List JsonValue}
    (hs : scanItems hooks (fuel + 1) room first s = .ok (items, rest)) : ∀ item ∈ items, Q item := by
  intro item hitem
  rw [scanItems] at hs
  split at hs
  · rw [← (Prod.mk.inj (Except.ok.inj hs)).1] at hitem
    cases hitem
  · simp only [bind_eq_ok, Prod.exists] at hs
    obtain ⟨value, after, hvalue, hs⟩ := hs
    have hQ := ih.once _ _ _ _ hvalue
    split at hs
    · cases hs
    · split at hs
      · rw [← (Prod.mk.inj (Except.ok.inj hs)).1] at hitem
        rw [List.mem_singleton.mp hitem]
        exact hQ
      · split at hs
        · simp only [bind_eq_ok, Prod.exists, Except.ok.injEq, Prod.mk.injEq] at hs
          obtain ⟨others, _, hothers, rfl, _⟩ := hs
          rcases List.mem_cons.mp hitem with rfl | hlater
          · exact hQ
          · exact ih.items _ _ _ _ _ hothers item hlater
        · cases hs

theorem scanMembers_keeps {room : Nat} {first : Bool} {s rest : Text} {members : Members}
    (hs : scanMembers hooks (fuel + 1) room first s = .ok (members, rest)) : ∀ m ∈ members, Q m.2 := by
  intro m hm
  cases s with
  | nil => simp [scanMembers] at hs
  | cons c more =>
    rw [scanMembers] at hs
    split at hs
    · rw [← (Prod.mk.inj (Except.ok.inj hs)).1] at hm
      cases hm
    · split at hs
      · cases hs
      · simp only [bind_eq_ok, Prod.exists] at hs
        obtain ⟨name, afterName, _, hs⟩ := hs
        split at hs
        · cases hs
        · simp only [bind_eq_ok, Prod.exists] at hs
          obtain ⟨value, after, hvalue, hs⟩ := hs
          have hQ := ih.once _ _ _ _ hvalue
          split at hs
          · cases hs
          · split at hs
            · rw [← (Prod.mk.inj (Except.ok.inj hs)).1] at hm
              rw [List.mem_singleton.mp hm]
              exact hQ
            · split at hs
              · simp only [bind_eq_ok, Prod.exists, Except.ok.injEq, Prod.mk.injEq] at hs
                obtain ⟨others, _, hothers, rfl, _⟩ := hs
                rcases List.mem_cons.mp hm with rfl | hlater
                · exact hQ
                · exact ih.members _ _ _ _ _ hothers m hlater
              · cases hs

end

section

variable {hooks : Hooks} {Q : JsonValue → Prop} (h : Keeps hooks Q)

include h

theorem scanUnsigned_keeps {negative : Bool} {start s rest : Text} {v : JsonValue}
    (hs : scanUnsigned negative start s = .ok (v, rest)) : Q v := by
  rw [scanUnsigned] at hs
  dsimp only at hs
  split at hs
  · cases hs
  · rename_i hne
    split at hs
    · obtain ⟨hv, _⟩ := raising_eq_ok.mp hs
      exact h.int _ _ _ hv (fun he => hne (by rw [he]; rfl)) fun c hc => integerPart_digits hc
    · rw [← (Prod.mk.inj (Except.ok.inj hs)).1]
      exact h.float _

variable {fuel : Nat} (ih : KeepsWithin hooks Q fuel)

include ih

theorem scanOnce_keeps {room : Nat} {s rest : Text} {v : JsonValue}
    (hs : scanOnce hooks (fuel + 1) room s = .ok (v, rest)) : Q v := by
  have hleaf {a : JsonValue} {t : Text} (ha : Q a) (heq : (.ok (a, t) : Scan (JsonValue × Text)) = .ok (v, rest)) :
      Q v := by
    rw [← (Prod.mk.inj (Except.ok.inj heq)).1]
    exact ha
  cases s with
  | nil => simp [scanOnce] at hs
  | cons c more =>
    unfold scanOnce at hs
    dsimp only at hs
    split at hs
    · simp only [bind_eq_ok, Prod.exists, Except.ok.injEq, Prod.mk.injEq] at hs
      obtain ⟨value, _, _, rfl, _⟩ := hs
      exact h.str value
    · split at hs
      · cases room with
        | zero => cases hs
        | succ room =>
          simp only [bind_eq_ok, Prod.exists, raising_eq_ok] at hs
          obtain ⟨members, after, hm, hv, _⟩ := hs
          exact h.object members v (ih.members _ _ _ _ _ hm) hv
      · split at hs
        · cases room with
          | zero => cases hs
          | succ room =>
            simp only [bind_eq_ok, Prod.exists, Except.ok.injEq, Prod.mk.injEq] at hs
            obtain ⟨items, after, hi, rfl, _⟩ := hs
            exact h.list items (ih.items _ _ _ _ _ hi)
        -- the literal names, the constants, then a number
        · split at hs
          · exact hleaf h.null hs
          · split at hs
            · exact hleaf (h.bool true) hs
            · split at hs
              · exact hleaf (h.bool false) hs
              · split at hs
                · exact h.constant _ _ (raising_eq_ok.mp hs).1
                · split at hs
                  · exact h.constant _ _ (raising_eq_ok.mp hs).1
                  · split at hs
                    · exact h.constant _ _ (raising_eq_ok.mp hs).1
                    · split at hs
                      · exact scanUnsigned_keeps h hs
                      · split at hs
                        · exact scanUnsigned_keeps h hs
                        · cases hs

omit ih

theorem scan_keeps (fuel : Nat) : KeepsWithin hooks Q fuel := by
  induction fuel with
  | zero =>
    refine ⟨fun room s v rest hs => ?_, fun room first s items rest hs => ?_, fun room first s members rest hs => ?_⟩
    · simp [scanOnce] at hs
    · simp [scanItems] at hs
    · simp [scanMembers] at hs
  | succ fuel ih =>
    exact ⟨fun _ _ _ _ hs => scanOnce_keeps h ih hs, fun _ _ _ _ _ hs => scanItems_keeps ih hs,
      fun _ _ _ _ _ hs => scanMembers_keeps ih hs⟩

/-- What `json.loads` returns has every kept property. -/
theorem loads_keeps {I : Interpreter} {document : Text} {v : JsonValue} (hs : loads I hooks document = .ok v) : Q v := by
  rw [loads] at hs
  split at hs
  · cases hs
  · split at hs
    · cases hs
    · cases hs
    · rename_i value rest hscan
      split at hs
      · rw [← Except.ok.inj hs]
        exact (scan_keeps h _).once _ _ _ _ hscan
      · cases hs

end

/-! ### Integers -/

theorem digitsValue_lt {digits : Text} (h : ∀ c ∈ digits, isDigit c) : digitsValue digits < 10 ^ digits.length := by
  -- the value so far, and one unit of its last place
  have hfold (n : Nat) : digits.foldl (fun n c => 10 * n + digitValue c) n < (n + 1) * 10 ^ digits.length := by
    induction digits generalizing n with
    | nil => simp
    | cons c rest ih =>
      have hc := h c List.mem_cons_self
      have hdigit : digitValue c < 10 := by
        simp only [isDigit, Bool.and_eq_true, decide_eq_true_eq] at hc
        rw [digitValue]
        omega
      have hrest := ih (fun d hd => h d (List.mem_cons_of_mem c hd)) (10 * n + digitValue c)
      rw [List.foldl_cons]
      calc rest.foldl (fun n c => 10 * n + digitValue c) (10 * n + digitValue c)
          < (10 * n + digitValue c + 1) * 10 ^ rest.length := hrest
        _ ≤ (n + 1) * 10 * 10 ^ rest.length := Nat.mul_le_mul_right _ (by omega)
        _ = (n + 1) * 10 ^ (c :: rest).length := by rw [List.length_cons, Nat.pow_succ', Nat.mul_assoc]
  have h0 := hfold 0
  rwa [Nat.zero_add, Nat.one_mul] at h0

theorem decimal_length_le {n k : Nat} (hk : 0 < k) (h : n < 10 ^ k) : (decimal n).length ≤ k := by
  rcases Nat.eq_zero_or_pos n with rfl | hn
  · rw [decimal_zero]
    exact hk
  · rw [decimal_length hn, Nat.digits_length_le_iff (by decide)]
    exact h

end AitpVerifier.Json

namespace AitpVerifier

open PyText Checked Json

/-- Every integer is short enough to be written back. -/
inductive JsonValue.Short : JsonValue → Prop
  | null : Short .null
  | bool {b} : Short (.bool b)
  | int {i} : (decimal i.natAbs).length ≤ maxIntDigits → Short (.int i)
  | float {f} : Short (.float f)
  | str {s} : Short (.str s)
  | list {items} : (∀ item ∈ items, Short item) → Short (.list items)
  | dict {members : List (Text × JsonValue)} : (∀ m ∈ members, Short m.2) → Short (.dict members)

namespace Jcs

variable {I : Interpreter}

/-- A strict object holds its pairs as they came, with no name twice. -/
theorem rejectDuplicateKeys_eq_ok {pairs : Members} {v : JsonValue} (h : rejectDuplicateKeys I pairs = .ok v) :
    v = .dict pairs ∧ (Members.names pairs).Nodup := by
  have hgo {obj rest : Members} (hobj : (Members.names obj).Nodup) (h : rejectDuplicateKeys.go I obj rest = .ok v) :
      v = .dict (obj ++ rest) ∧ (Members.names (obj ++ rest)).Nodup := by
    induction rest generalizing obj with
    | nil =>
      rw [rejectDuplicateKeys.go, Except.ok.injEq] at h
      rw [List.append_nil]
      exact ⟨h.symm, hobj⟩
    | cons m rest ih =>
      obtain ⟨key, value⟩ := m
      rw [rejectDuplicateKeys.go] at h
      by_cases hk : obj.has key = true
      · rw [if_pos hk] at h
        cases h
      · rw [if_neg hk] at h
        have hnew : (Members.names (obj ++ [(key, value)])).Nodup := by
          rw [Members.names, List.map_append, List.nodup_append]
          refine ⟨hobj, by simp, ?_⟩
          intro name hn other ho
          rw [List.map_cons, List.map_nil, List.mem_singleton] at ho
          rw [ho]
          rintro rfl
          exact hk (Members.mem_names_iff.mp hn)
        have hih := ih hnew h
        rwa [List.append_assoc] at hih
  exact hgo (by simp [Members.names]) h

/-- What a strict parse returns passes through `json.loads` with both hooks. -/
theorem loads_keeps {Q : JsonValue → Prop} (h : Keeps ⟨rejectDuplicateKeys I, rejectConstant⟩ Q) {data : Bytes}
    {v : JsonValue} (hs : loads I data = .ok v) : Q v := by
  rw [loads] at hs
  split at hs
  · cases hs
  · exact Json.loads_keeps h (rescue_eq_ok.mp hs)

theorem loads_short {data : Bytes} {v : JsonValue} (hs : loads I data = .ok v) : v.Short := by
  refine loads_keeps ⟨.null, fun _ => .bool, ?_, fun _ => .float, fun _ => .str, fun _ => .list, ?_, nofun⟩ hs
  · intro negative digits i hi hne hdigits
    simp only [parseInt, bind_eq_ok, exists_unit, raiseIf_eq_ok, decide_eq_false_iff_not, not_lt, Except.ok.injEq] at hi
    obtain ⟨hle, rfl⟩ := hi
    refine .int ?_
    have habs : (if negative then -(digitsValue digits : Int) else digitsValue digits).natAbs = digitsValue digits := by
      cases negative <;> simp
    rw [habs]
    exact (decimal_length_le (List.length_pos_iff.mpr hne) (digitsValue_lt hdigits)).trans hle
  · intro members v hm hv
    rw [(rejectDuplicateKeys_eq_ok hv).1]
    exact .dict hm

theorem loads_distinct {data : Bytes} {v : JsonValue} (hs : loads I data = .ok v) : v.Distinct := by
  refine loads_keeps ⟨.null, fun _ => .bool, ?_, fun _ => .float, fun _ => .str, fun _ => .list, ?_, nofun⟩ hs
  · intro negative digits i hi _ _
    simp only [parseInt, bind_eq_ok, exists_unit, Except.ok.injEq] at hi
    rw [← hi.2]
    exact .int
  · intro members v hm hv
    obtain ⟨rfl, hd⟩ := rejectDuplicateKeys_eq_ok hv
    exact .dict hd hm

end Jcs

end AitpVerifier
