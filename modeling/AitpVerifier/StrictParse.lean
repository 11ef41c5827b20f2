import Mathlib.Logic.Relation
import AitpVerifier.Recorded
import AitpVerifier.Scan
import AitpVerifier.ScanFuel

/-!
# How strict the strict parser is

The hooks see objects and constants. Two errors and one value pass them by: an integer
with too many digits, a container nested too deep, and a decimal too large for a double.
A document is parsed strictly when the scan comes to none of them.
-/
namespace AitpVerifier

open PyText Checked Json

/-- Every number is finite. -/
inductive JsonValue.Finite : JsonValue → Prop
  | null : Finite .null
  | bool {b} : Finite (.bool b)
  | int {i} : Finite (.int i)
  | float {f : Binary64} : f.isFinite = true → Finite (.float f)
  | str {s} : Finite (.str s)
  | list {items} : (∀ item ∈ items, Finite item) → Finite (.list items)
  | dict {members : List (Text × JsonValue)} : (∀ m ∈ members, Finite m.2) → Finite (.dict members)

namespace JsonValue

theorem finite_float {f : Binary64} : (JsonValue.float f).Finite ↔ f.isFinite = true := by
  constructor
  · intro h
    cases h
    assumption
  · exact .float

theorem finite_list {items : List JsonValue} : (JsonValue.list items).Finite ↔ ∀ item ∈ items, item.Finite := by
  constructor
  · intro h
    cases h
    assumption
  · exact .list

theorem finite_dict {members : Members} : (JsonValue.dict members).Finite ↔ ∀ m ∈ members, m.2.Finite := by
  constructor
  · intro h
    cases h
    assumption
  · exact .dict

end JsonValue

namespace Json

/-! ### Numbers -/

/-- The sign and the rest of the number a value starts with. -/
def unsigned? : Text → Option (Bool × Text)
  | [] => none
  | c :: rest => if c = 0x2D then some (true, rest) else if isDigit c then some (false, c :: rest) else none

/-- The fraction's digits and what follows them. -/
def fractionOf (t : Text) : Text × Text := (fractionPart (integerPart t).2).getD ([], (integerPart t).2)

/-- The exponent and what follows it. -/
def exponentOf (t : Text) : Int × Text := (exponentPart (fractionOf t).2).getD (0, (fractionOf t).2)

/-- A number with neither a fraction nor an exponent. -/
def IsInteger (t : Text) : Prop := (fractionOf t).1.isEmpty ∧ exponentPart (fractionOf t).2 = none

instance (t : Text) : Decidable (IsInteger t) := inferInstanceAs (Decidable (_ ∧ _))

/-- The double nearest to a decimal. -/
def decimalValue (negative : Bool) (t : Text) : Binary64 :=
  .ofDecimal negative (digitsValue ((integerPart t).1 ++ (fractionOf t).1)) ((exponentOf t).1 - (fractionOf t).1.length)

theorem scanUnsigned_eq (negative : Bool) (start t : Text) : scanUnsigned negative start t =
    if (integerPart t).1.isEmpty then .error (.malformed (txt "Expecting value") start)
    else if IsInteger t then raising (parseInt negative (integerPart t).1) (integerPart t).2
    else .ok (.float (decimalValue negative t), (exponentOf t).2) := rfl

/-- An integer of more digits than `int` reads. -/
def LongInteger (s : Text) : Prop :=
  ∃ negative t, unsigned? s = some (negative, t) ∧ IsInteger t ∧ maxIntDigits < (integerPart t).1.length

/-- A decimal that `float` reads as an infinity. -/
def Overflows (s : Text) : Prop :=
  ∃ negative t, unsigned? s = some (negative, t) ∧ (integerPart t).1 ≠ [] ∧ ¬ IsInteger t ∧
    (decimalValue negative t).isFinite = false

/-- No number starts here. -/
def NoNumber (s : Text) : Prop := ∀ negative t, unsigned? s = some (negative, t) → (integerPart t).1 = []

theorem NoNumber.not_long {s : Text} (h : NoNumber s) : ¬ LongInteger s := by
  intro hlong
  obtain ⟨negative, t, hs, _, hlength⟩ := hlong
  rw [h negative t hs] at hlength
  cases hlength

theorem NoNumber.not_overflows {s : Text} (h : NoNumber s) : ¬ Overflows s := by
  intro hover
  obtain ⟨negative, t, hs, hwhole, _⟩ := hover
  exact hwhole (h negative t hs)

theorem noNumber_nil : NoNumber [] := by
  intro negative t h
  cases h

theorem noNumber_cons {c : CodePoint} {rest : Text} (hminus : c ≠ 0x2D) (hdigit : isDigit c = false) :
    NoNumber (c :: rest) := by
  intro negative t h
  rw [unsigned?, if_neg hminus, if_neg (by rw [hdigit]; decide)] at h
  cases h

/-- What a scan of anything but a container is. -/
inductive LeafScan (hooks : Hooks) (s : Text) : Scan (JsonValue × Text) → Prop
  | word {v rest} : v.Finite → NoNumber s → LeafScan hooks s (.ok (v, rest))
  | constant {name rest} : NoNumber s → LeafScan hooks s (raising (hooks.parseConstant name) rest)
  | number {negative t} : unsigned? s = some (negative, t) → LeafScan hooks s (scanUnsigned negative s t)
  | malformed {message rest} : NoNumber s → LeafScan hooks s (.error (.malformed message rest))

/-- The hooks let pairs through as they came and refuse every constant, in an error of their own
kind. -/
structure Strict (kind : ErrorKind) (hooks : Hooks) : Prop where
  pairs : ∀ members v, hooks.objectPairs members = .ok v → v = .dict members ∧ (Members.names members).Nodup
  refused : ∀ members e, hooks.objectPairs members = .error e → e.isKind kind = true
  constant : ∀ name, ∃ e, hooks.parseConstant name = .error e ∧ e.isKind kind = true

section

variable {kind : ErrorKind} {hooks : Hooks} {room : Nat} {s : Text}

theorem scanValue_leaf (hlist : ∀ rest, s ≠ 0x5B :: rest) (hdict : ∀ rest, s ≠ 0x7B :: rest) :
    LeafScan hooks s (scanValue hooks room s) := by
  cases s with
  | nil =>
    rw [scanValue, scanOnce]
    exact .malformed noNumber_nil
  | cons c rest =>
    have hword {word : Text} {d : CodePoint} {more : Text} (hw : word = d :: more) (hd : d ≠ 0x2D) (hdigit : isDigit d = false)
        (h : word.isPrefixOf (c :: rest) = true) : NoNumber (c :: rest) := by
      rw [hw, List.isPrefixOf, Bool.and_eq_true, beq_iff_eq] at h
      rw [← h.1]
      exact noNumber_cons hd hdigit
    rw [scanValue, scanOnce.eq_def]
    dsimp only
    by_cases hquote : c = 0x22
    · rw [if_pos hquote]
      have hnone : NoNumber (c :: rest) := by
        rw [hquote]
        exact noNumber_cons (by decide) (by decide)
      cases hstring : scanString (c :: rest) (rest.length + 1) rest with
      | ok found => exact .word .str hnone
      | error cause =>
        cases cause with
        | malformed message after => exact .malformed hnone
        | raised e => exact absurd hstring scanString_not_raised
    · rw [if_neg hquote, if_neg (fun h => hdict rest (by rw [h])), if_neg (fun h => hlist rest (by rw [h]))]
      split_ifs with hnull htrue hfalse hnan hinfinity hminus hsign hdigit
      · exact .word .null (hword rfl (by decide) (by decide) hnull)
      · exact .word .bool (hword rfl (by decide) (by decide) htrue)
      · exact .word .bool (hword rfl (by decide) (by decide) hfalse)
      · exact .constant (hword rfl (by decide) (by decide) hnan)
      · exact .constant (hword rfl (by decide) (by decide) hinfinity)
      · -- the sign is followed by a letter
        refine .constant ?_
        intro negative t h
        rw [List.isPrefixOf_iff_prefix] at hminus
        obtain ⟨more, hmore⟩ := hminus
        rw [← hmore] at h
        obtain ⟨_, rfl⟩ := Prod.mk.inj (Option.some.inj h)
        rfl
      · exact .number (by rw [unsigned?, if_pos hsign])
      · exact .number (by rw [unsigned?, if_neg hsign, if_pos hdigit])
      · exact .malformed (noNumber_cons hsign (Bool.eq_false_iff.mpr hdigit))

theorem parseInt_error {negative : Bool} {digits : Text} {e : PyErr} :
    parseInt negative digits = .error e ↔ maxIntDigits < digits.length ∧ e = tooManyDigits := by
  rw [parseInt, raiseIf]
  by_cases hlong : maxIntDigits < digits.length
  · simp [hlong, error_bind, eq_comm]
  · simp [hlong, ok_bind]

theorem scanUnsigned_raised {negative : Bool} {start t : Text} {e : PyErr} :
    scanUnsigned negative start t = .error (.raised e) ↔
      IsInteger t ∧ maxIntDigits < (integerPart t).1.length ∧ e = tooManyDigits := by
  rw [scanUnsigned_eq]
  by_cases hwhole : (integerPart t).1.isEmpty = true
  · rw [if_pos hwhole, List.isEmpty_iff.mp hwhole]
    exact iff_of_false malformed_ne_raised fun h => absurd h.2.1 (by decide)
  · rw [if_neg hwhole]
    by_cases hinteger : IsInteger t
    · rw [if_pos hinteger, ← @parseInt_error negative]
      cases hparse : parseInt negative (integerPart t).1 with
      | ok v => simp [raising]
      | error cause => simp [raising, hinteger]
    · rw [if_neg hinteger]
      exact iff_of_false ok_ne_error fun h => hinteger h.1

/-- A leaf raises for an integer too long, or the hook's own error. -/
theorem LeafScan.raised (hstrict : Strict kind hooks) {x : Scan (JsonValue × Text)} (hx : LeafScan hooks s x) {e : PyErr}
    (he : e.isKind kind = false) : x = .error (.raised e) ↔ LongInteger s ∧ e = tooManyDigits := by
  cases hx with
  | word _ hnone => exact iff_of_false ok_ne_error fun h => hnone.not_long h.1
  | @constant name _ hnone =>
    obtain ⟨refusal, hrefusal, hkind⟩ := hstrict.constant name
    rw [hrefusal]
    refine iff_of_false ?_ fun h => hnone.not_long h.1
    intro h
    obtain rfl := ScanError.raised.inj (Except.error.inj h)
    rw [hkind] at he
    cases he
  | number hs =>
    rw [scanUnsigned_raised]
    constructor
    · intro h
      exact ⟨⟨_, _, hs, h.1, h.2.1⟩, h.2.2⟩
    · intro h
      obtain ⟨⟨_, _, hs', hinteger, hlength⟩, heq⟩ := h
      obtain ⟨_, rfl⟩ := Prod.mk.inj (Option.some.inj (hs.symm.trans hs'))
      exact ⟨hinteger, hlength, heq⟩
  | malformed hnone => exact iff_of_false malformed_ne_raised fun h => hnone.not_long h.1

/-- A leaf that was read is finite unless it is a decimal too large. -/
theorem LeafScan.finite (hstrict : Strict kind hooks) {x : Scan (JsonValue × Text)} (hx : LeafScan hooks s x) {v : JsonValue}
    {rest : Text} (hok : x = .ok (v, rest)) : v.Finite ↔ ¬ Overflows s := by
  cases hx with
  | word hfinite hnone =>
    rw [← (Prod.mk.inj (Except.ok.inj hok)).1]
    exact iff_of_true hfinite hnone.not_overflows
  | @constant name _ hnone =>
    obtain ⟨_, hrefusal, _⟩ := hstrict.constant name
    rw [hrefusal] at hok
    cases hok
  | @number negative t hs =>
    rw [scanUnsigned_eq] at hok
    split at hok
    · cases hok
    · rename_i hwhole
      have hwhole : (integerPart t).1 ≠ [] := fun h => hwhole (by rw [h]; rfl)
      have hsame {negative' : Bool} {t' : Text} (h : unsigned? s = some (negative', t')) : negative' = negative ∧ t' = t :=
        Prod.mk.inj (Option.some.inj (h.symm.trans hs))
      split at hok
      · rename_i hinteger
        have hparse := (raising_eq_ok.mp hok).1
        simp only [parseInt, bind_eq_ok, exists_unit, Except.ok.injEq] at hparse
        rw [← hparse.2]
        refine iff_of_true .int ?_
        intro h
        obtain ⟨_, _, hs', _, hnot, _⟩ := h
        exact hnot ((hsame hs').2 ▸ hinteger)
      · rename_i hinteger
        rw [← (Prod.mk.inj (Except.ok.inj hok)).1, JsonValue.finite_float]
        constructor
        · intro hfinite h
          obtain ⟨_, _, hs', _, _, hover⟩ := h
          obtain ⟨rfl, rfl⟩ := hsame hs'
          rw [hfinite] at hover
          cases hover
        · intro h
          by_contra hover
          exact h ⟨negative, t, hs, hwhole, hinteger, Bool.eq_false_iff.mpr hover⟩
  | malformed hnone => cases hok

end

/-! ### Places -/

/-- A place in a document: a value, or the rest of an array or of an object. -/
inductive Position where
  | value : (room : Nat) → Text → Position
  | items : (room : Nat) → (first : Bool) → Text → Position
  | members : (room : Nat) → (first : Bool) → Text → Position

namespace Position

def size : Position → Nat
  | .value _ s => 2 * s.length + 1
  | .items _ _ s => 2 * s.length + 2
  | .members _ _ s => 2 * s.length + 2

/-- A container with no room left for it. -/
def TooDeep : Position → Prop
  | .value 0 (c :: _) => c = 0x5B ∨ c = 0x7B
  | _ => False

def LongInteger : Position → Prop
  | .value _ s => Json.LongInteger s
  | _ => False

def Overflows : Position → Prop
  | .value _ s => Json.Overflows s
  | _ => False

/-- The scan of what starts here ends in `e`. -/
def Raises (hooks : Hooks) (e : PyErr) : Position → Prop
  | .value room s => scanValue hooks room s = .error (.raised e)
  | .items room first s => scanArray hooks room first s = .error (.raised e)
  | .members room first s => scanObject hooks room first s = .error (.raised e)

/-- The scan of what starts here finds these values. -/
def Finds (hooks : Hooks) (values : List JsonValue) : Position → Prop
  | .value room s => ∃ v rest, scanValue hooks room s = .ok (v, rest) ∧ values = [v]
  | .items room first s => ∃ rest, scanArray hooks room first s = .ok (values, rest)
  | .members room first s => ∃ members rest, scanObject hooks room first s = .ok (members, rest) ∧
      values = members.map Prod.snd

end Position

/-- Where a scan that is at one place goes: into a container, to its first entry, and
past the comma once that entry was read. -/
inductive Next (hooks : Hooks) : Position → Position → Prop
  | array {room rest} : Next hooks (.value (room + 1) (0x5B :: rest)) (.items room true (skipSpace rest))
  | object {room rest} : Next hooks (.value (room + 1) (0x7B :: rest)) (.members room true (skipSpace rest))
  | item {room first s} : ¬ (first = true ∧ s.head? = some 0x5D) → Next hooks (.items room first s) (.value room s)
  | later {room first s item after more} : ¬ (first = true ∧ s.head? = some 0x5D) →
      scanValue hooks room s = .ok (item, after) → skipSpace after = 0x2C :: more →
      Next hooks (.items room first s) (.items room false (skipSpace more))
  | member {room first s name text} : Named s name text →
      Next hooks (.members room first s) (.value room (skipSpace text))
  | laterMember {room first s name text value after more} : Named s name text →
      scanValue hooks room (skipSpace text) = .ok (value, after) → skipSpace after = 0x2C :: more →
      Next hooks (.members room first s) (.members room false (skipSpace more))

namespace Position

/-- What the parser itself raises here. -/
def Faults (e : PyErr) (p : Position) : Prop := p.TooDeep ∧ .raised e = tooDeep ∨ p.LongInteger ∧ e = tooManyDigits

end Position

section

variable {kind : ErrorKind} {hooks : Hooks} {room : Nat} {first : Bool} {s rest : Text}

theorem Next.smaller {p q : Position} (h : Next hooks p q) : q.size < p.size := by
  cases h with
  | @array room rest =>
    have hskip := skipSpace_length rest
    simp only [Position.size, List.length_cons]
    omega
  | @object room rest =>
    have hskip := skipSpace_length rest
    simp only [Position.size, List.length_cons]
    omega
  | item => exact Nat.lt_succ_self _
  | @later room first s item after more _ hitem hcomma =>
    have hshorter := (consumes hooks _).once hitem
    have hskip := skipSpace_length after
    have hskip' := skipSpace_length more
    rw [hcomma, List.length_cons] at hskip
    simp only [Position.size]
    omega
  | member hnamed =>
    have hshorter := hnamed.shorter
    simp only [Position.size]
    omega
  | @laterMember room first s name text value after more hnamed hvalue hcomma =>
    have hnamed := hnamed.shorter
    have hshorter := (consumes hooks _).once hvalue
    have hskip := skipSpace_length after
    have hskip' := skipSpace_length more
    rw [hcomma, List.length_cons] at hskip
    simp only [Position.size]
    omega

theorem scanValue_array : scanValue hooks (room + 1) (0x5B :: rest) = (do
    let (items, after) ← scanArray hooks room true (skipSpace rest)
    .ok (.list items, after)) := by
  have hskip := skipSpace_length rest
  have hitems : scanItems hooks (2 * (0x5B :: rest : Text).length) room true (skipSpace rest) = scanArray hooks room true (skipSpace rest) :=
    scanItems_eq (by rw [List.length_cons]; omega)
  rw [scanValue, scanOnce, hitems]
  rfl

theorem scanValue_object : scanValue hooks (room + 1) (0x7B :: rest) = (do
    let (members, after) ← scanObject hooks room true (skipSpace rest)
    raising (hooks.objectPairs members) after) := by
  have hskip := skipSpace_length rest
  have hmembers : scanMembers hooks (2 * (0x7B :: rest : Text).length) room true (skipSpace rest) = scanObject hooks room true (skipSpace rest) :=
    scanMembers_eq (by rw [List.length_cons]; omega)
  rw [scanValue, scanOnce, hmembers]
  rfl

theorem scanValue_deep {c : CodePoint} (hc : c = 0x5B ∨ c = 0x7B) : scanValue hooks 0 (c :: rest) = .error tooDeep := by
  cases hc with
  | inl h => subst h; rfl
  | inr h => subst h; rfl

/-- A value is a container or a leaf. -/
theorem value_cases (s : Text) : (∃ rest, s = 0x5B :: rest) ∨ (∃ rest, s = 0x7B :: rest) ∨
    (∀ rest, s ≠ 0x5B :: rest) ∧ ∀ rest, s ≠ 0x7B :: rest := by
  by_cases hlist : ∃ rest, s = 0x5B :: rest
  · exact .inl hlist
  · by_cases hdict : ∃ rest, s = 0x7B :: rest
    · exact .inr (.inl hdict)
    · exact .inr (.inr ⟨fun rest h => hlist ⟨rest, h⟩, fun rest h => hdict ⟨rest, h⟩⟩)

theorem noNumber_array : NoNumber (0x5B :: rest) := noNumber_cons (by decide) (by decide)

theorem noNumber_object : NoNumber (0x7B :: rest) := noNumber_cons (by decide) (by decide)

theorem next_array (q : Position) : Next hooks (.value (room + 1) (0x5B :: rest)) q ↔ q = .items room true (skipSpace rest) := by
  constructor
  · intro h
    cases h
    rfl
  · rintro rfl
    exact .array

theorem next_object (q : Position) : Next hooks (.value (room + 1) (0x7B :: rest)) q ↔ q = .members room true (skipSpace rest) := by
  constructor
  · intro h
    cases h
    rfl
  · rintro rfl
    exact .object

/-- A container with no room left for it leads nowhere. -/
theorem raises_deep {c : CodePoint} {e : PyErr} (hc : c = 0x5B ∨ c = 0x7B) (hnone : NoNumber (c :: rest)) :
    Position.Raises hooks e (.value 0 (c :: rest)) ↔
      Position.Faults e (.value 0 (c :: rest)) ∨ ∃ q, Next hooks (.value 0 (c :: rest)) q ∧ q.Raises hooks e := by
  rw [Position.Raises, scanValue_deep hc]
  constructor
  · intro h
    exact .inl (.inl ⟨hc, (Except.error.inj h).symm⟩)
  · intro h
    rcases h with (h | h) | ⟨q, hnext, _⟩
    · rw [h.2]
    · exact absurd h.1 hnone.not_long
    · cases hnext

/-- A container that is gone into leads to its first entry alone. -/
theorem raises_opened {c : CodePoint} {q : Position} {e : PyErr} (hnone : NoNumber (c :: rest))
    (hnext : ∀ r, Next hooks (.value (room + 1) (c :: rest)) r ↔ r = q)
    (h : Position.Raises hooks e (.value (room + 1) (c :: rest)) ↔ q.Raises hooks e) :
    Position.Raises hooks e (.value (room + 1) (c :: rest)) ↔ Position.Faults e (.value (room + 1) (c :: rest)) ∨
      ∃ r, Next hooks (.value (room + 1) (c :: rest)) r ∧ r.Raises hooks e := by
  rw [h]
  constructor
  · intro hraises
    exact .inr ⟨q, (hnext q).mpr rfl, hraises⟩
  · intro hreached
    rcases hreached with (h | h) | ⟨r, hr, hraises⟩
    · exact h.1.elim
    · exact absurd h.1 hnone.not_long
    · rw [← (hnext r).mp hr]
      exact hraises

theorem raises_array {e : PyErr} : Position.Raises hooks e (.value room (0x5B :: rest)) ↔
    Position.Faults e (.value room (0x5B :: rest)) ∨ ∃ q, Next hooks (.value room (0x5B :: rest)) q ∧ q.Raises hooks e := by
  cases room with
  | zero => exact raises_deep (.inl rfl) noNumber_array
  | succ room =>
    refine raises_opened noNumber_array next_array ?_
    rw [Position.Raises, scanValue_array, Position.Raises]
    cases scanArray hooks room true (skipSpace rest) with
    | ok found => exact iff_of_false ok_ne_error ok_ne_error
    | error cause => simp [error_bind]

theorem raises_object (hstrict : Strict kind hooks) {e : PyErr} (he : e.isKind kind = false) :
    Position.Raises hooks e (.value room (0x7B :: rest)) ↔
      Position.Faults e (.value room (0x7B :: rest)) ∨ ∃ q, Next hooks (.value room (0x7B :: rest)) q ∧ q.Raises hooks e := by
  cases room with
  | zero => exact raises_deep (.inr rfl) noNumber_object
  | succ room =>
    refine raises_opened noNumber_object next_object ?_
    rw [Position.Raises, scanValue_object, Position.Raises]
    cases scanObject hooks room true (skipSpace rest) with
    | ok found =>
      obtain ⟨members, after⟩ := found
      refine iff_of_false ?_ ok_ne_error
      simp only [ok_bind]
      cases hpairs : hooks.objectPairs members with
      | ok v => exact ok_ne_error
      | error refusal =>
        intro h
        obtain rfl := ScanError.raised.inj (Except.error.inj h)
        rw [hstrict.refused members _ hpairs] at he
        cases he
    | error cause => simp [error_bind]

theorem raises_leaf (hstrict : Strict kind hooks) {e : PyErr} (he : e.isKind kind = false) (hlist : ∀ rest, s ≠ 0x5B :: rest)
    (hdict : ∀ rest, s ≠ 0x7B :: rest) : Position.Raises hooks e (.value room s) ↔
      Position.Faults e (.value room s) ∨ ∃ q, Next hooks (.value room s) q ∧ q.Raises hooks e := by
  trans LongInteger s ∧ e = tooManyDigits
  · exact (scanValue_leaf hlist hdict).raised hstrict he
  · constructor
    · intro h
      exact .inl (.inr h)
    · intro h
      rcases h with (h | h) | ⟨q, hnext, _⟩
      · cases s with
        | nil => cases room <;> exact h.1.elim
        | cons c more =>
          cases room with
          | zero =>
            cases h.1 with
            | inl hc => exact absurd (by rw [hc]) (hlist more)
            | inr hc => exact absurd (by rw [hc]) (hdict more)
          | succ room => exact h.1.elim
      · exact h
      · cases hnext with
        | array => exact absurd rfl (hlist _)
        | object => exact absurd rfl (hdict _)

/-- A place raises its own fault or what a place after it raises. -/
theorem raises_iff (hstrict : Strict kind hooks) {e : PyErr} (he : e.isKind kind = false) {p : Position} :
    p.Raises hooks e ↔ p.Faults e ∨ ∃ q, Next hooks p q ∧ q.Raises hooks e := by
  cases p with
  | value room s =>
    rcases value_cases s with ⟨rest, rfl⟩ | ⟨rest, rfl⟩ | ⟨hlist, hdict⟩
    · exact raises_array
    · exact raises_object hstrict he
    · exact raises_leaf hstrict he hlist hdict
  | items room first s =>
    refine scanArray_raised.trans ?_
    constructor
    · intro h
      obtain ⟨hend, hitem | ⟨item, after, more, hitem, hcomma, hothers⟩⟩ := h
      · exact .inr ⟨_, .item hend, hitem⟩
      · exact .inr ⟨_, .later hend hitem hcomma, hothers⟩
    · intro h
      rcases h with (h | h) | ⟨q, hnext, hraises⟩
      · exact h.1.elim
      · exact h.1.elim
      · cases hnext with
        | item hend => exact ⟨hend, .inl hraises⟩
        | later hend hitem hcomma => exact ⟨hend, .inr ⟨_, _, _, hitem, hcomma, hraises⟩⟩
  | members room first s =>
    refine scanObject_raised.trans ?_
    constructor
    · intro h
      obtain ⟨name, text, hnamed, hvalue | ⟨value, after, more, hvalue, hcomma, hothers⟩⟩ := h
      · exact .inr ⟨_, .member hnamed, hvalue⟩
      · exact .inr ⟨_, .laterMember hnamed hvalue hcomma, hothers⟩
    · intro h
      rcases h with (h | h) | ⟨q, hnext, hraises⟩
      · exact h.1.elim
      · exact h.1.elim
      · cases hnext with
        | member hnamed => exact ⟨_, _, hnamed, .inl hraises⟩
        | laterMember hnamed hvalue hcomma => exact ⟨_, _, hnamed, .inr ⟨_, _, _, hvalue, hcomma, hraises⟩⟩

/-- A scan ends in an error of the parser's own when it comes to the place of one. -/
theorem raises_iff_reached (hstrict : Strict kind hooks) {e : PyErr} (he : e.isKind kind = false) {p : Position} :
    p.Raises hooks e ↔ ∃ q, Relation.ReflTransGen (Next hooks) p q ∧ q.Faults e := by
  constructor
  · intro h
    induction hsize : p.size using Nat.strong_induction_on generalizing p with
    | _ n ih =>
      cases (raises_iff hstrict he).mp h with
      | inl hfaults => exact ⟨p, .refl, hfaults⟩
      | inr hnext =>
        obtain ⟨q, hnext, hraises⟩ := hnext
        obtain ⟨r, hreached, hfaults⟩ := ih q.size (hsize ▸ hnext.smaller) hraises rfl
        exact ⟨r, .head hnext hreached, hfaults⟩
  · intro h
    obtain ⟨q, hreached, hfaults⟩ := h
    induction hreached using Relation.ReflTransGen.head_induction_on with
    | refl => exact (raises_iff hstrict he).mpr (.inl hfaults)
    | head hnext _ ih => exact (raises_iff hstrict he).mpr (.inr ⟨_, hnext, ih⟩)

theorem Position.Faults.error {e : PyErr} {q : Position} (h : q.Faults e) :
    e = .raised .recursion (txt "maximum recursion depth exceeded while decoding a JSON document") ∨ e = tooManyDigits := by
  cases h with
  | inl hdeep => exact .inl (ScanError.raised.inj hdeep.2)
  | inr hlong => exact .inr hlong.2

theorem faults_not_jsonDecode {e : PyErr} {q : Position} (h : q.Faults e) : e.isKind .jsonDecode = false := by
  rcases h.error with rfl | rfl <;> rfl

/-- A scan that comes to no fault raises nothing but what its hooks raise, and only it. -/
theorem no_fault_iff (hstrict : Strict kind hooks) (hkind : kind ≠ .recursion ∧ kind ≠ .value) :
    (∀ q, Relation.ReflTransGen (Next hooks) (.value room s) q → ¬ q.TooDeep ∧ ¬ q.LongInteger) ↔
      ∀ e, e.isKind kind = false → scanValue hooks room s ≠ .error (.raised e) := by
  constructor
  · intro hnone e he hraised
    obtain ⟨q, hreached, hfaults⟩ := (@raises_iff_reached kind hooks hstrict e he (.value room s)).mp hraised
    cases hfaults with
    | inl h => exact (hnone q hreached).1 h.1
    | inr h => exact (hnone q hreached).2 h.1
  · intro hnone q hreached
    have hraises {e : PyErr} (hfaults : q.Faults e) : False := by
      have he : e.isKind kind = false := by
        rcases hfaults.error with rfl | rfl
        · exact beq_false_of_ne hkind.1.symm
        · exact beq_false_of_ne hkind.2.symm
      exact hnone e he ((raises_iff_reached hstrict he).mpr ⟨q, hreached, hfaults⟩)
    constructor
    · intro hdeep
      exact hraises (.inl ⟨hdeep, rfl⟩)
    · intro hlong
      exact hraises (.inr ⟨hlong, rfl⟩)

/-- A document is scanned from its first character that is no space, to its end. -/
theorem loads_eq {I : Interpreter} {document : Text} (hbom : document.head? ≠ some 0xFEFF) : loads I hooks document =
    match scanValue hooks I.parseDepth (skipSpace document) with
    | .error (.raised e) => .error e
    | .error (.malformed message rest) => .error (decodeError message document rest)
    | .ok (value, rest) =>
      if (skipSpace rest).isEmpty then .ok value
      else .error (decodeError (txt "Extra data") document (skipSpace rest)) := by
  have hskip := skipSpace_length document
  have hscan : scanOnce hooks (2 * document.length + 2) I.parseDepth (skipSpace document) =
      scanValue hooks I.parseDepth (skipSpace document) := scanOnce_eq (by omega)
  rw [← hscan]
  exact if_neg hbom

/-- What is read is the one value scanned, with nothing after it. -/
theorem loads_scanned {I : Interpreter} {document : Text} {v : JsonValue} : loads I hooks document = .ok v ↔
    document.head? ≠ some 0xFEFF ∧
      ∃ rest, scanValue hooks I.parseDepth (skipSpace document) = .ok (v, rest) ∧ skipSpace rest = [] := by
  by_cases hbom : document.head? = some 0xFEFF
  · rw [loads, if_pos hbom]
    exact iff_of_false error_ne_ok fun h => h.1 hbom
  · rw [loads_eq hbom]
    cases scanValue hooks I.parseDepth (skipSpace document) with
    | error cause => cases cause <;> simp
    | ok found =>
      obtain ⟨value, rest⟩ := found
      by_cases hend : skipSpace rest = []
      · simp [hend, hbom]
      · simp [hend]

/-- A scan that comes to no fault ends, if not in a value, in a syntax error or an error of the hooks', and only it does. -/
theorem loads_failsWith_iff (hstrict : Strict kind hooks) (hkind : kind ≠ .recursion ∧ kind ≠ .value) {I : Interpreter}
    {document : Text} (hbom : document.head? ≠ some 0xFEFF) :
    (∀ q, Relation.ReflTransGen (Next hooks) (.value I.parseDepth (skipSpace document)) q → ¬ q.TooDeep ∧ ¬ q.LongInteger) ↔
      FailsWith (fun e => e.isKind kind = true ∨ e.isKind .jsonDecode = true) (loads I hooks document) := by
  rw [no_fault_iff hstrict hkind, loads_eq hbom]
  cases hscan : scanValue hooks I.parseDepth (skipSpace document) with
  | ok found =>
    refine iff_of_true (fun _ _ => ok_ne_error) ?_
    dsimp only
    split
    · exact .ok
    · exact .error (.inr rfl)
  | error cause =>
    cases cause with
    | malformed message rest => exact iff_of_true (fun _ _ => malformed_ne_raised) (.error (.inr rfl))
    | raised e =>
      constructor
      · intro hnone
        refine .error (.inl ?_)
        by_contra hother
        exact hnone e (Bool.eq_false_iff.mpr hother) rfl
      · intro hfails e' he' heq
        obtain rfl := ScanError.raised.inj (Except.error.inj heq)
        -- an error that is not the hooks' is a fault of the parser's, and no fault is a syntax error
        obtain ⟨q, _, hfaults⟩ := (@raises_iff_reached _ _ hstrict e he' (.value _ _)).mp hscan
        rcases hfails e rfl with hown | hsyntax
        · exact Bool.false_ne_true (he'.symm.trans hown)
        · exact Bool.false_ne_true ((faults_not_jsonDecode hfaults).symm.trans hsyntax)

/-- A parser that renames syntax errors raises its own errors and no others, when the scan comes to no fault and only then. -/
theorem renamed_failsWith_iff (hstrict : Strict kind hooks) (hkind : kind ≠ .recursion ∧ kind ≠ .value) {I : Interpreter}
    {document : Text} {renamed : PyErr → PyErr} (hrenamed : ∀ e, (renamed e).isKind kind = true) :
    (document.head? ≠ some 0xFEFF → ∀ q, Relation.ReflTransGen (Next hooks) (.value I.parseDepth (skipSpace document)) q →
        ¬ q.TooDeep ∧ ¬ q.LongInteger) ↔
      FailsWith (fun e => e.isKind kind = true)
        (rescue (loads I hooks document) fun e => if e.isKind .jsonDecode then some (renamed e) else none) := by
  by_cases hbom : document.head? = some 0xFEFF
  · refine iff_of_true (fun hnot => absurd hbom hnot) ?_
    rw [loads, if_pos hbom]
    exact .error (hrenamed _)
  · rw [imp_iff_right hbom, loads_failsWith_iff hstrict hkind hbom]
    cases loads I hooks document with
    | ok v => exact iff_of_true .ok .ok
    | error e =>
      by_cases hsyntax : e.isKind .jsonDecode = true
      · rw [rescue, if_pos hsyntax]
        exact iff_of_true (.error (.inr hsyntax)) (.error (hrenamed e))
      · rw [rescue, if_neg hsyntax]
        exact ⟨fun h => .error ((h e rfl).resolve_right hsyntax), fun h => .error (.inl (h e rfl))⟩

/-! ### What a strict scan finds -/

theorem Named.unique {name text name' text' : Text} (h : Named s name text) (h' : Named s name' text') :
    name = name' ∧ text = text' := by
  obtain ⟨tail, after, rfl, hname, hcolon⟩ := h
  obtain ⟨tail', after', hs, hname', hcolon'⟩ := h'
  obtain rfl := (List.cons.inj hs).2
  obtain ⟨hsame, rfl⟩ := Prod.mk.inj (Except.ok.inj (hname.symm.trans hname'))
  exact ⟨hsame, (List.cons.inj (hcolon.symm.trans hcolon')).2⟩

theorem scanValue_array_ok {v : JsonValue} {after : Text}
    (h : scanValue hooks (room + 1) (0x5B :: rest) = .ok (v, after)) :
    ∃ items, scanArray hooks room true (skipSpace rest) = .ok (items, after) ∧ v = .list items := by
  rw [scanValue_array] at h
  simp only [bind_eq_ok, Prod.exists, Except.ok.injEq, Prod.mk.injEq] at h
  obtain ⟨items, _, hitems, rfl, rfl⟩ := h
  exact ⟨items, hitems, rfl⟩

theorem scanValue_object_ok (hstrict : Strict kind hooks) {v : JsonValue} {after : Text}
    (h : scanValue hooks (room + 1) (0x7B :: rest) = .ok (v, after)) :
    ∃ members, scanObject hooks room true (skipSpace rest) = .ok (members, after) ∧ v = .dict members ∧
      (Members.names members).Nodup := by
  rw [scanValue_object] at h
  simp only [bind_eq_ok, Prod.exists, raising_eq_ok] at h
  obtain ⟨members, _, hmembers, hpairs, rfl⟩ := h
  exact ⟨members, hmembers, hstrict.pairs members v hpairs⟩

theorem Position.Finds.unique {p : Position} {values found : List JsonValue} (h : p.Finds hooks values)
    (h' : p.Finds hooks found) : values = found := by
  cases p with
  | value room s =>
    obtain ⟨v, rest, hv, rfl⟩ := h
    obtain ⟨v', rest', hv', rfl⟩ := h'
    rw [(Prod.mk.inj (Except.ok.inj (hv.symm.trans hv'))).1]
  | items room first s =>
    obtain ⟨rest, hitems⟩ := h
    obtain ⟨rest', hitems'⟩ := h'
    exact (Prod.mk.inj (Except.ok.inj (hitems.symm.trans hitems'))).1
  | members room first s =>
    obtain ⟨members, rest, hmembers, rfl⟩ := h
    obtain ⟨members', rest', hmembers', rfl⟩ := h'
    rw [(Prod.mk.inj (Except.ok.inj (hmembers.symm.trans hmembers'))).1]

/-- What was found at a place: a leaf or nothing, or what the one place after it finds, or
what the entry and the rest after it find. -/
inductive Found (hooks : Hooks) (p : Position) (values : List JsonValue) : Prop
  | leaf : (∀ q, ¬ Next hooks p q) → ((∀ v ∈ values, v.Finite) ↔ ¬ p.Overflows) → Found hooks p values
  | one {q found} : (∀ r, Next hooks p r ↔ r = q) → ¬ p.Overflows → q.Finds hooks found →
      ((∀ v ∈ values, v.Finite) ↔ ∀ v ∈ found, v.Finite) → Found hooks p values
  | both {q r v others} : (∀ t, Next hooks p t ↔ t = q ∨ t = r) → ¬ p.Overflows → q.Finds hooks [v] →
      r.Finds hooks others → ((∀ w ∈ values, w.Finite) ↔ v.Finite ∧ ∀ w ∈ others, w.Finite) → Found hooks p values

theorem next_items_close {item : JsonValue} {after : Text} (hend : ¬ (first = true ∧ s.head? = some 0x5D))
    (hitem : scanValue hooks room s = .ok (item, after)) (hclose : skipSpace after = 0x5D :: rest) (q : Position) :
    Next hooks (.items room first s) q ↔ q = .value room s := by
  constructor
  · intro h
    cases h with
    | item => rfl
    | later _ hitem' hcomma =>
      obtain ⟨_, rfl⟩ := Prod.mk.inj (Except.ok.inj (hitem.symm.trans hitem'))
      exact absurd (hclose.symm.trans hcomma) (by simp)
  · rintro rfl
    exact .item hend

theorem next_items_comma {item : JsonValue} {after more : Text} (hend : ¬ (first = true ∧ s.head? = some 0x5D))
    (hitem : scanValue hooks room s = .ok (item, after)) (hcomma : skipSpace after = 0x2C :: more) (q : Position) :
    Next hooks (.items room first s) q ↔ q = .value room s ∨ q = .items room false (skipSpace more) := by
  constructor
  · intro h
    cases h with
    | item => exact .inl rfl
    | later _ hitem' hcomma' =>
      obtain ⟨_, rfl⟩ := Prod.mk.inj (Except.ok.inj (hitem.symm.trans hitem'))
      obtain rfl := (List.cons.inj (hcomma.symm.trans hcomma')).2
      exact .inr rfl
  · rintro (rfl | rfl)
    · exact .item hend
    · exact .later hend hitem hcomma

theorem next_members_close {name text after : Text} {value : JsonValue} (hnamed : Named s name text)
    (hvalue : scanValue hooks room (skipSpace text) = .ok (value, after)) (hclose : skipSpace after = 0x7D :: rest)
    (q : Position) : Next hooks (.members room first s) q ↔ q = .value room (skipSpace text) := by
  constructor
  · intro h
    cases h with
    | member hnamed' => rw [(hnamed.unique hnamed').2]
    | laterMember hnamed' hvalue' hcomma =>
      obtain ⟨_, rfl⟩ := hnamed.unique hnamed'
      obtain ⟨_, rfl⟩ := Prod.mk.inj (Except.ok.inj (hvalue.symm.trans hvalue'))
      exact absurd (hclose.symm.trans hcomma) (by simp)
  · rintro rfl
    exact .member hnamed

theorem next_members_comma {name text after more : Text} {value : JsonValue} (hnamed : Named s name text)
    (hvalue : scanValue hooks room (skipSpace text) = .ok (value, after)) (hcomma : skipSpace after = 0x2C :: more)
    (q : Position) : Next hooks (.members room first s) q ↔
      q = .value room (skipSpace text) ∨ q = .members room false (skipSpace more) := by
  constructor
  · intro h
    cases h with
    | member hnamed' => exact .inl (by rw [(hnamed.unique hnamed').2])
    | laterMember hnamed' hvalue' hcomma' =>
      obtain ⟨_, rfl⟩ := hnamed.unique hnamed'
      obtain ⟨_, rfl⟩ := Prod.mk.inj (Except.ok.inj (hvalue.symm.trans hvalue'))
      obtain rfl := (List.cons.inj (hcomma.symm.trans hcomma')).2
      exact .inr rfl
  · rintro (rfl | rfl)
    · exact .member hnamed
    · exact .laterMember hnamed hvalue hcomma

theorem items_not_overflows : ¬ Position.Overflows (.items room first s) := id

theorem members_not_overflows : ¬ Position.Overflows (.members room first s) := id

theorem finds_found (hstrict : Strict kind hooks) {p : Position} {values : List JsonValue} (h : p.Finds hooks values) :
    Found hooks p values := by
  cases p with
  | value room s =>
    obtain ⟨v, after, hvalue, rfl⟩ := h
    rcases value_cases s with ⟨rest, rfl⟩ | ⟨rest, rfl⟩ | ⟨hlist, hdict⟩
    · cases room with
      | zero =>
        rw [scanValue_deep (.inl rfl)] at hvalue
        cases hvalue
      | succ room =>
        obtain ⟨items, hitems, rfl⟩ := scanValue_array_ok hvalue
        have hinside : Position.Finds hooks items (.items room true (skipSpace rest)) := ⟨after, hitems⟩
        apply Found.one next_array noNumber_array.not_overflows hinside
        rw [List.forall_mem_singleton, JsonValue.finite_list]
    · cases room with
      | zero =>
        rw [scanValue_deep (.inr rfl)] at hvalue
        cases hvalue
      | succ room =>
        obtain ⟨members, hmembers, rfl, _⟩ := scanValue_object_ok hstrict hvalue
        have hinside : Position.Finds hooks (members.map Prod.snd) (.members room true (skipSpace rest)) :=
          ⟨members, after, hmembers, rfl⟩
        apply Found.one next_object noNumber_object.not_overflows hinside
        rw [List.forall_mem_singleton, JsonValue.finite_dict, List.forall_mem_map]
    · apply Found.leaf
      · intro q hnext
        cases hnext with
        | array => exact hlist _ rfl
        | object => exact hdict _ rfl
      · rw [List.forall_mem_singleton]
        exact (scanValue_leaf hlist hdict).finite hstrict hvalue
  | items room first s =>
    obtain ⟨after, hitems⟩ := h
    rcases scanArray_ok hitems with ⟨hend, rfl, _⟩ | ⟨hend, item, rest, hitem, hmore⟩
    · apply Found.leaf
      · intro q hnext
        cases hnext with
        | item hnot => exact hnot hend
        | later hnot => exact hnot hend
      · exact iff_of_true (List.forall_mem_nil _) items_not_overflows
    · have hfirst : Position.Finds hooks [item] (.value room s) := ⟨item, rest, hitem, rfl⟩
      rcases hmore with ⟨hclose, rfl⟩ | ⟨more, others, hcomma, hothers, rfl⟩
      · exact .one (next_items_close hend hitem hclose) items_not_overflows hfirst Iff.rfl
      · have hlater : Position.Finds hooks others (.items room false (skipSpace more)) := ⟨after, hothers⟩
        exact .both (next_items_comma hend hitem hcomma) items_not_overflows hfirst hlater List.forall_mem_cons
  | members room first s =>
    obtain ⟨members, after, hmembers, rfl⟩ := h
    rcases scanObject_ok hmembers with ⟨⟨_, rfl⟩, rfl⟩ | ⟨name, text, value, rest, hnamed, hvalue, hmore⟩
    · have hnone {name text : Text} (h : Named (0x7D :: after) name text) : False := by
        obtain ⟨_, _, hs, _⟩ := h
        exact absurd hs (by simp)
      apply Found.leaf
      · intro q hnext
        cases hnext with
        | member hnamed => exact hnone hnamed
        | laterMember hnamed => exact hnone hnamed
      · exact iff_of_true (List.forall_mem_nil _) members_not_overflows
    · have hfirst : Position.Finds hooks [value] (.value room (skipSpace text)) := ⟨value, rest, hvalue, rfl⟩
      rcases hmore with ⟨hclose, rfl⟩ | ⟨more, others, hcomma, hothers, rfl⟩
      · exact .one (next_members_close hnamed hvalue hclose) members_not_overflows hfirst Iff.rfl
      · have hlater : Position.Finds hooks (others.map Prod.snd) (.members room false (skipSpace more)) :=
          ⟨others, after, hothers, rfl⟩
        exact .both (next_members_comma hnamed hvalue hcomma) members_not_overflows hfirst hlater List.forall_mem_cons

/-- Every place a successful scan goes to was read. -/
theorem finds_next (hstrict : Strict kind hooks) {p q : Position} {values : List JsonValue} (h : p.Finds hooks values)
    (hnext : Next hooks p q) : ∃ found, q.Finds hooks found := by
  cases finds_found hstrict h with
  | leaf hnone => exact absurd hnext (hnone q)
  | one honly _ hfound =>
    obtain rfl := (honly q).mp hnext
    exact ⟨_, hfound⟩
  | both honly _ hfirst hlater =>
    cases (honly q).mp hnext with
    | inl heq => exact ⟨_, heq ▸ hfirst⟩
    | inr heq => exact ⟨_, heq ▸ hlater⟩

theorem finds_reached (hstrict : Strict kind hooks) {p q : Position} {values : List JsonValue} (h : p.Finds hooks values)
    (hreached : Relation.ReflTransGen (Next hooks) p q) : ∃ found, q.Finds hooks found := by
  induction hreached with
  | refl => exact ⟨values, h⟩
  | tail _ hnext ih =>
    obtain ⟨found, hfound⟩ := ih
    exact finds_next hstrict hfound hnext

/-- What is found at a place is finite when it is no overflow and what is found after it is finite. -/
theorem finds_finite (hstrict : Strict kind hooks) {p : Position} {values : List JsonValue} (h : p.Finds hooks values) :
    (∀ v ∈ values, v.Finite) ↔
      ¬ p.Overflows ∧ ∀ q found, Next hooks p q → q.Finds hooks found → ∀ v ∈ found, v.Finite := by
  cases finds_found hstrict h with
  | leaf hnone hfinite =>
    rw [hfinite]
    refine (and_iff_left ?_).symm
    intro q found hnext
    exact absurd hnext (hnone q)
  | @one q found honly hover hfound hsame =>
    rw [hsame]
    constructor
    · intro hfinite
      refine ⟨hover, ?_⟩
      intro r other hnext hr
      obtain rfl := (honly r).mp hnext
      rw [← hfound.unique hr]
      exact hfinite
    · intro hafter
      exact hafter.2 q found ((honly q).mpr rfl) hfound
  | @both q r v others honly hover hq hr hsame =>
    rw [hsame]
    constructor
    · intro hfinite
      refine ⟨hover, ?_⟩
      intro t found hnext ht
      cases (honly t).mp hnext with
      | inl heq =>
        subst heq
        rw [← hq.unique ht, List.forall_mem_singleton]
        exact hfinite.1
      | inr heq =>
        subst heq
        rw [← hr.unique ht]
        exact hfinite.2
    · intro hafter
      have hfirst := hafter.2 q [v] ((honly q).mpr (.inl rfl)) hq
      exact ⟨List.forall_mem_singleton.mp hfirst, hafter.2 r others ((honly r).mpr (.inr rfl)) hr⟩

/-- What a scan finds is finite when it comes to no overflow. -/
theorem finite_iff_reached (hstrict : Strict kind hooks) {p : Position} {values : List JsonValue} (h : p.Finds hooks values) :
    (∀ v ∈ values, v.Finite) ↔ ∀ q, Relation.ReflTransGen (Next hooks) p q → ¬ q.Overflows := by
  constructor
  · intro hfinite q hreached
    induction hreached using Relation.ReflTransGen.head_induction_on generalizing values with
    | refl => exact ((finds_finite hstrict h).mp hfinite).1
    | head hnext _ ih =>
      obtain ⟨found, hfound⟩ := finds_next hstrict h hnext
      exact ih hfound (((finds_finite hstrict h).mp hfinite).2 _ _ hnext hfound)
  · intro hnone
    induction hsize : p.size using Nat.strong_induction_on generalizing p values with
    | _ n ih =>
      refine (finds_finite hstrict h).mpr ⟨hnone p .refl, ?_⟩
      intro q found hnext hfound
      exact ih q.size (hsize ▸ hnext.smaller) hfound (fun r hr => hnone r (.head hnext hr)) rfl

end

end Json

namespace Jcs

variable {I : Interpreter}

variable (I) in
/-- The hooks of the strict parser. -/
def strictHooks : Hooks := ⟨rejectDuplicateKeys I, rejectConstant⟩

theorem rejectDuplicateKeys_error {pairs : Members} {e : PyErr} (h : rejectDuplicateKeys I pairs = .error e) :
    e.isKind .jcs = true := by
  have hgo {obj rest : Members} (h : rejectDuplicateKeys.go I obj rest = .error e) : e.isKind .jcs = true := by
    induction rest generalizing obj with
    | nil => cases h
    | cons m rest ih =>
      rw [rejectDuplicateKeys.go] at h
      split at h
      · rw [← Except.error.inj h]
        rfl
      · exact ih h
  exact hgo h

theorem strictHooks_strict : Strict .jcs (strictHooks I) where
  pairs _ _ := rejectDuplicateKeys_eq_ok
  refused _ _ := rejectDuplicateKeys_error
  constant _ := ⟨_, rfl, rfl⟩

variable (I) in
/-- The scan of a document comes to this place. -/
def Reached (document : Text) (q : Position) : Prop :=
  Relation.ReflTransGen (Next (strictHooks I)) (.value I.parseDepth (skipSpace document)) q

variable (I) in
/-- The document is one value, with nothing after it. -/
def ReadToEnd (document : Text) : Prop :=
  ∃ v rest, scanValue (strictHooks I) I.parseDepth (skipSpace document) = .ok (v, rest) ∧ skipSpace rest = []

variable (I) in
/-- Every object of the document was written with pairwise distinct names. -/
def WrittenOnce (data : Bytes) : Prop :=
  ∀ document, utf8Decode? data = some document → ∀ room s members rest, Reached I document (.members room true s) →
    scanObject (strictHooks I) room true s = .ok (members, rest) → (Members.names members).Nodup

variable (I) in
/-- A `JcsError`, or a value without infinities or repeated names. -/
def StrictOutcome (data : Bytes) : Prop :=
  match loads I data with
  | .ok v => v.Finite ∧ v.Distinct ∧ WrittenOnce I data
  | .error e => e.isKind .jcs = true

variable (I) in
/-- The scan comes to no integer of too many digits and no container too deep, and a document
read to its end has no decimal too large. -/
def NothingPasses (data : Bytes) : Prop :=
  ∀ document, utf8Decode? data = some document → document.head? ≠ some 0xFEFF →
    (∀ q, Reached I document q → ¬ q.TooDeep ∧ ¬ q.LongInteger) ∧
    (ReadToEnd I document → ∀ q, Reached I document q → ¬ q.Overflows)

theorem loads_decoded {data : Bytes} {document : Text} (hdecode : utf8Decode? data = some document) : loads I data =
    rescue (Json.loads I (strictHooks I) document) fun e =>
      if e.isKind .jsonDecode then some (JcsError (txt "invalid JSON: " ++ e.text)) else none := by
  rw [loads, hdecode, strictHooks]

/-- The names of an object that a successful scan comes to are distinct. -/
theorem writtenOnce_of_found {document : Text} {values : List JsonValue}
    (h : Position.Finds (strictHooks I) values (.value I.parseDepth (skipSpace document))) {room : Nat} {s rest : Text}
    {members : Members} (hreached : Reached I document (.members room true s))
    (hscan : scanObject (strictHooks I) room true s = .ok (members, rest)) : (Members.names members).Nodup := by
  cases Relation.ReflTransGen.cases_tail hreached with
  | inl heq => cases heq
  | inr hlast =>
    obtain ⟨p, hbefore, hnext⟩ := hlast
    obtain ⟨found, hfound⟩ := finds_reached strictHooks_strict h hbefore
    cases hnext with
    | object =>
      obtain ⟨v, after, hvalue, _⟩ := hfound
      obtain ⟨members', hmembers, _, hdistinct⟩ := scanValue_object_ok strictHooks_strict hvalue
      rw [(Prod.mk.inj (Except.ok.inj (hscan.symm.trans hmembers))).1]
      exact hdistinct

theorem strictOutcome_parts {data : Bytes} : StrictOutcome I data ↔ FailsWith (fun e => e.isKind .jcs = true) (loads I data) ∧
    ∀ v, loads I data = .ok v → v.Finite ∧ v.Distinct ∧ WrittenOnce I data := by
  rw [StrictOutcome]
  cases loads I data with
  | ok v => exact ⟨fun h => ⟨.ok, fun _ hv => Except.ok.inj hv ▸ h⟩, fun h => h.2 v rfl⟩
  | error e => exact ⟨fun h => ⟨.error h, fun _ hv => absurd hv error_ne_ok⟩, fun h => h.1 e rfl⟩

/-- A document read to its end is read as a value without infinities exactly when the scan comes to no decimal too large. -/
theorem finite_iff_readToEnd {data : Bytes} {document : Text} (hdecode : utf8Decode? data = some document)
    (hbom : document.head? ≠ some 0xFEFF) :
    (∀ v, loads I data = .ok v → v.Finite ∧ v.Distinct ∧ WrittenOnce I data) ↔
      (ReadToEnd I document → ∀ q, Reached I document q → ¬ q.Overflows) := by
  have hscanned (v : JsonValue) : loads I data = .ok v ↔
      ∃ rest, scanValue (strictHooks I) I.parseDepth (skipSpace document) = .ok (v, rest) ∧ skipSpace rest = [] := by
    rw [loads_decoded hdecode, rescue_eq_ok, loads_scanned, and_iff_right hbom]
  have hfinds {v : JsonValue} {rest : Text} (hscan : scanValue (strictHooks I) I.parseDepth (skipSpace document) = .ok (v, rest)) :
      Position.Finds (strictHooks I) [v] (.value I.parseDepth (skipSpace document)) := ⟨v, rest, hscan, rfl⟩
  constructor
  · rintro hall ⟨v, rest, hscan, hend⟩
    have hfinite := (hall v ((hscanned v).mpr ⟨rest, hscan, hend⟩)).1
    exact (finite_iff_reached strictHooks_strict (hfinds hscan)).mp (List.forall_mem_singleton.mpr hfinite)
  · intro hnone v hv
    obtain ⟨rest, hscan, hend⟩ := (hscanned v).mp hv
    have hfinite := (finite_iff_reached strictHooks_strict (hfinds hscan)).mpr (hnone ⟨v, rest, hscan, hend⟩)
    refine ⟨List.forall_mem_singleton.mp hfinite, loads_distinct hv, ?_⟩
    intro document' hdocument room s members after hreached hobject
    obtain rfl := Option.some.inj (hdecode.symm.trans hdocument)
    exact writtenOnce_of_found (hfinds hscan) hreached hobject

/-- The parser is strict on exactly the documents where nothing passes the hooks by. -/
theorem strictOutcome_iff (data : Bytes) : StrictOutcome I data ↔ NothingPasses I data := by
  rw [strictOutcome_parts]
  cases hdecode : utf8Decode? data with
  | none =>
    refine iff_of_true ?_ fun document hdocument => by cases hdecode.symm.trans hdocument
    rw [loads, hdecode]
    exact ⟨.error rfl, fun _ hv => absurd hv error_ne_ok⟩
  | some document =>
    have hfaults := @renamed_failsWith_iff _ _ (@strictHooks_strict I) (by decide) I document
      (fun e => JcsError (txt "invalid JSON: " ++ e.text)) fun _ => rfl
    rw [← loads_decoded hdecode] at hfaults
    rw [← hfaults]
    constructor
    · rintro ⟨hnone, hread⟩ document' hdocument hbom
      obtain rfl := Option.some.inj (hdecode.symm.trans hdocument)
      exact ⟨hnone hbom, (finite_iff_readToEnd hdecode hbom).mp hread⟩
    · intro hpasses
      refine ⟨fun hbom => (hpasses document hdecode hbom).1, fun v hv => ?_⟩
      have hbom : document.head? ≠ some 0xFEFF := by
        rw [loads_decoded hdecode, rescue_eq_ok, loads_scanned] at hv
        exact hv.1
      exact (finite_iff_readToEnd hdecode hbom).mpr (hpasses document hdecode hbom).2 v hv

/-- The octets `1e400` parse to an infinity. -/
theorem strictOutcome_broken : ¬ ∀ (I : Interpreter) (data : Bytes), StrictOutcome I data := by
  intro h
  have hover := h (Recording.mk [] []).platform.toInterpreter (asciiOctets (txt "1e400"))
  have hloads : loads (Recording.mk [] []).platform.toInterpreter (asciiOctets (txt "1e400")) = .ok (.float (.inf false)) := by
    decide +kernel
  rw [StrictOutcome, hloads] at hover
  cases hover.1 with
  | float hfinite => cases hfinite

end Jcs

end AitpVerifier
