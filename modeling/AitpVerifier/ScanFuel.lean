import Mathlib.Tactic.Linarith
import AitpVerifier.Json

/-!
# The scanner's fuel

Each scan reads at least one character, so fuel in proportion to what is left to read
is enough and any more makes no difference. What is left are the scanner's own
equations.
-/
namespace AitpVerifier.Json

open PyText Checked

/-! ### What a scan consumes -/

theorem skipSpace_length (s : Text) : (skipSpace s).length ≤ s.length := (List.dropWhile_suffix isWhitespace).length_le

theorem hex4?_length {s rest : Text} {value : Nat} (h : hex4? s = some (value, rest)) : rest.length < s.length := by
  unfold hex4? at h
  split at h
  · simp only [Option.bind_eq_bind, Option.bind_eq_some_iff, Option.some.injEq, Prod.mk.injEq] at h
    obtain ⟨_, _, _, _, _, _, _, _, _, rfl⟩ := h
    simp only [List.length_cons]
    omega
  · cases h

theorem unicodeEscape_length {start s rest : Text} {point : CodePoint} (h : unicodeEscape start s = .ok (point, rest)) :
    rest.length < s.length := by
  unfold unicodeEscape at h
  split at h
  · cases h
  · rename_i high after hhigh
    have hafter := hex4?_length hhigh
    have halone {c : CodePoint} (heq : (.ok (c, after) : Scan (CodePoint × Text)) = .ok (point, rest)) :
        rest.length < s.length := by
      rw [← (Prod.mk.inj (Except.ok.inj heq)).2]
      exact hafter
    dsimp only at h
    split at h
    · split at h
      · rename_i backslash u more
        split at h
        · split at h
          · cases h
          · rename_i low more' hlow
            have hmore := hex4?_length hlow
            simp only [List.length_cons] at hafter
            split at h
            · obtain rfl := (Prod.mk.inj (Except.ok.inj h)).2
              omega
            · exact halone h
        · exact halone h
      · exact halone h
    · exact halone h

theorem scanString_length {start s rest value : Text} {fuel : Nat} (h : scanString start fuel s = .ok (value, rest)) :
    rest.length < s.length := by
  induction fuel generalizing s value with
  | zero => cases h
  | succ fuel ih =>
    cases s with
    | nil => cases h
    | cons c tail =>
      unfold scanString at h
      rw [List.length_cons]
      split at h
      · rw [← (Prod.mk.inj (Except.ok.inj h)).2]
        omega
      · split at h
        · cases tail with
          | nil => cases h
          | cons e more =>
            dsimp only at h
            rw [List.length_cons]
            split at h
            · simp only [bind_eq_ok, Prod.exists, Except.ok.injEq, Prod.mk.injEq] at h
              obtain ⟨point, after, hescape, others, _, hstring, _, rfl⟩ := h
              have hshorter := unicodeEscape_length hescape
              have hlast := ih hstring
              omega
            · split at h
              · cases h
              · simp only [bind_eq_ok, Prod.exists, Except.ok.injEq, Prod.mk.injEq] at h
                obtain ⟨others, _, hstring, _, rfl⟩ := h
                have hlast := ih hstring
                omega
        · split at h
          · cases h
          · simp only [bind_eq_ok, Prod.exists, Except.ok.injEq, Prod.mk.injEq] at h
            obtain ⟨others, _, hstring, _, rfl⟩ := h
            have hlast := ih hstring
            omega

theorem integerPart_length {s : Text} (h : (integerPart s).1 ≠ []) : (integerPart s).2.length < s.length := by
  cases s with
  | nil => exact absurd rfl h
  | cons c rest =>
    rw [integerPart] at h ⊢
    by_cases hc : c = 0x30
    · rw [if_pos hc]
      exact Nat.lt_succ_self _
    · rw [if_neg hc] at h ⊢
      have hsplit := congrArg List.length (@List.takeWhile_append_dropWhile _ isDigit (c :: rest))
      have hpos := List.length_pos_iff.mpr h
      rw [List.length_append] at hsplit
      dsimp only at hpos ⊢
      omega

theorem fractionPart_length (s : Text) : ((fractionPart s).getD ([], s)).2.length ≤ s.length := by
  unfold fractionPart
  split
  · rename_i p d rest
    split
    · have hdrop := (List.dropWhile_suffix (l := d :: rest) isDigit).length_le
      exact Nat.le_succ_of_le hdrop
    · exact le_refl _
  · exact le_refl _

theorem splitSign_length (s : Text) : (splitSign s).2.length ≤ s.length := by
  unfold splitSign
  split
  · rename_i c rest
    split_ifs <;> simp
  · exact le_refl _

theorem exponentPart_length (s : Text) : ((exponentPart s).getD (0, s)).2.length ≤ s.length := by
  unfold exponentPart
  split
  · exact le_refl _
  · rename_i e rest
    split
    · have hsign := splitSign_length rest
      dsimp only
      split
      · exact le_refl _
      · have hdrop := (List.dropWhile_suffix (l := (splitSign rest).2) isDigit).length_le
        exact Nat.le_succ_of_le (hdrop.trans hsign)
    · exact le_refl _

theorem raising_rest {α : Type} {x : PyM α} {rest rest' : Text} {a : α} (h : raising x rest = .ok (a, rest')) :
    rest = rest' := by
  cases x with
  | ok b => exact (Prod.mk.inj (Except.ok.inj h)).2
  | error e => cases h

theorem scanUnsigned_length {negative : Bool} {start s rest : Text} {v : JsonValue}
    (h : scanUnsigned negative start s = .ok (v, rest)) : rest.length < s.length := by
  rw [scanUnsigned] at h
  dsimp only at h
  split at h
  · cases h
  · rename_i hwhole
    have hinteger := integerPart_length fun he => hwhole (by rw [he]; rfl)
    split at h
    · rw [← raising_rest h]
      exact hinteger
    · rw [← (Prod.mk.inj (Except.ok.inj h)).2]
      have hfraction := fractionPart_length (integerPart s).2
      have hexponent := exponentPart_length ((fractionPart (integerPart s).2).getD ([], (integerPart s).2)).2
      omega

/-! ### What a successful scan did -/

theorem malformed_ne_raised {α : Type} {message rest : Text} {e : PyErr} :
    (.error (.malformed message rest) : Scan α) ≠ .error (.raised e) := by
  intro h
  cases h

section

variable {hooks : Hooks} {fuel room : Nat} {first : Bool} {s rest : Text}

/-- An array ended at once, after an item, or goes on after a comma. -/
theorem scanItems_ok {items : List JsonValue} (h : scanItems hooks (fuel + 1) room first s = .ok (items, rest)) :
    (first = true ∧ s.head? = some 0x5D) ∧ items = [] ∧ rest = s.drop 1 ∨
      ¬ (first = true ∧ s.head? = some 0x5D) ∧ ∃ item after, scanOnce hooks fuel room s = .ok (item, after) ∧
        (skipSpace after = 0x5D :: rest ∧ items = [item] ∨
          ∃ more others, skipSpace after = 0x2C :: more ∧
            scanItems hooks fuel room false (skipSpace more) = .ok (others, rest) ∧ items = item :: others) := by
  rw [scanItems] at h
  split at h
  · rename_i hend
    obtain ⟨rfl, rfl⟩ := Prod.mk.inj (Except.ok.inj h)
    exact .inl ⟨hend, rfl, rfl⟩
  · rename_i hend
    right
    simp only [bind_eq_ok, Prod.exists] at h
    obtain ⟨item, after, hitem, h⟩ := h
    refine ⟨hend, item, after, hitem, ?_⟩
    split at h
    · cases h
    · rename_i c more hafter
      split at h
      · rename_i hc
        obtain ⟨rfl, rfl⟩ := Prod.mk.inj (Except.ok.inj h)
        exact .inl ⟨by rw [hafter, hc], rfl⟩
      · split at h
        · rename_i hc
          simp only [bind_eq_ok, Prod.exists, Except.ok.injEq, Prod.mk.injEq] at h
          obtain ⟨others, _, hothers, rfl, rfl⟩ := h
          exact .inr ⟨more, others, by rw [hafter, hc], hothers, rfl⟩
        · cases h

/-- A member: its name, the colon, its value. -/
def scannedMember (hooks : Hooks) (fuel room : Nat) (s : Text) (name : Text) (value : JsonValue) (after : Text) : Prop :=
  ∃ tail afterName text, s = 0x22 :: tail ∧ scanString s (tail.length + 1) tail = .ok (name, afterName) ∧
    skipSpace afterName = 0x3A :: text ∧ scanOnce hooks fuel room (skipSpace text) = .ok (value, after)

/-- An object ended at once, after a member, or goes on after a comma. -/
theorem scanMembers_ok {members : Members} (h : scanMembers hooks (fuel + 1) room first s = .ok (members, rest)) :
    (first = true ∧ s = 0x7D :: rest) ∧ members = [] ∨
      ∃ name value after, scannedMember hooks fuel room s name value after ∧
        (skipSpace after = 0x7D :: rest ∧ members = [(name, value)] ∨
          ∃ more others, skipSpace after = 0x2C :: more ∧
            scanMembers hooks fuel room false (skipSpace more) = .ok (others, rest) ∧
            members = (name, value) :: others) := by
  cases s with
  | nil => simp [scanMembers] at h
  | cons c tail =>
    rw [scanMembers] at h
    split at h
    · rename_i hend
      obtain ⟨rfl, rfl⟩ := Prod.mk.inj (Except.ok.inj h)
      exact .inl ⟨⟨hend.1, by rw [hend.2]⟩, rfl⟩
    · split at h
      · cases h
      · rename_i hquote
        have hquote := not_not.mp hquote
        right
        simp only [bind_eq_ok, Prod.exists] at h
        obtain ⟨name, afterName, hname, h⟩ := h
        split at h
        · cases h
        · rename_i hcolon
          have hcolon := not_not.mp hcolon
          obtain ⟨text, htext⟩ := List.head?_eq_some_iff.mp hcolon
          simp only [bind_eq_ok, Prod.exists] at h
          obtain ⟨value, after, hvalue, h⟩ := h
          rw [htext, List.drop_one, List.tail_cons] at hvalue
          refine ⟨name, value, after, ⟨tail, afterName, text, by rw [hquote], hname, htext, hvalue⟩, ?_⟩
          split at h
          · cases h
          · rename_i d more hafter
            split at h
            · rename_i hd
              obtain ⟨rfl, rfl⟩ := Prod.mk.inj (Except.ok.inj h)
              exact .inl ⟨by rw [hafter, hd], rfl⟩
            · split at h
              · rename_i hd
                simp only [bind_eq_ok, Prod.exists, Except.ok.injEq, Prod.mk.injEq] at h
                obtain ⟨others, _, hothers, rfl, rfl⟩ := h
                exact .inr ⟨more, others, by rw [hafter, hd], hothers, rfl⟩
              · cases h

/-- A text read from its start to its rest is longer than that. -/
structure Consumes (hooks : Hooks) (fuel : Nat) : Prop where
  once : ∀ {room s v rest}, scanOnce hooks fuel room s = .ok (v, rest) → rest.length < s.length
  items : ∀ {room first s items rest}, scanItems hooks fuel room first s = .ok (items, rest) → rest.length < s.length
  members : ∀ {room first s members rest}, scanMembers hooks fuel room first s = .ok (members, rest) →
    rest.length < s.length

theorem scanItems_consumes (ih : Consumes hooks fuel) {items : List JsonValue}
    (h : scanItems hooks (fuel + 1) room first s = .ok (items, rest)) : rest.length < s.length := by
  cases scanItems_ok h with
  | inl hend =>
    obtain ⟨⟨_, hhead⟩, _, rfl⟩ := hend
    obtain ⟨tail, rfl⟩ := List.head?_eq_some_iff.mp hhead
    exact Nat.lt_succ_self _
  | inr hmore =>
    obtain ⟨_, item, after, hitem, hrest⟩ := hmore
    have hfirst := ih.once hitem
    have hskip := skipSpace_length after
    rcases hrest with ⟨hclose, _⟩ | ⟨more, others, hcomma, hothers, _⟩
    · rw [hclose, List.length_cons] at hskip
      omega
    · have hlater := ih.items hothers
      have hskip' := skipSpace_length more
      rw [hcomma, List.length_cons] at hskip
      omega

theorem scannedMember.consumes (ih : Consumes hooks fuel) {name : Text} {value : JsonValue} {after : Text}
    (h : scannedMember hooks fuel room s name value after) : after.length < s.length := by
  obtain ⟨tail, afterName, text, rfl, hname, hcolon, hvalue⟩ := h
  have hstring := scanString_length hname
  have hskip := skipSpace_length afterName
  have hskip' := skipSpace_length text
  have hlast := ih.once hvalue
  rw [hcolon, List.length_cons] at hskip
  rw [List.length_cons]
  omega

theorem scanMembers_consumes (ih : Consumes hooks fuel) {members : Members}
    (h : scanMembers hooks (fuel + 1) room first s = .ok (members, rest)) : rest.length < s.length := by
  cases scanMembers_ok h with
  | inl hend =>
    obtain ⟨⟨_, rfl⟩, _⟩ := hend
    exact Nat.lt_succ_self _
  | inr hmore =>
    obtain ⟨name, value, after, hmember, hrest⟩ := hmore
    have hfirst := hmember.consumes ih
    have hskip := skipSpace_length after
    rcases hrest with ⟨hclose, _⟩ | ⟨more, others, hcomma, hothers, _⟩
    · rw [hclose, List.length_cons] at hskip
      omega
    · have hlater := ih.members hothers
      have hskip' := skipSpace_length more
      rw [hcomma, List.length_cons] at hskip
      omega

theorem scanOnce_consumes (ih : Consumes hooks fuel) {v : JsonValue}
    (h : scanOnce hooks (fuel + 1) room s = .ok (v, rest)) : rest.length < s.length := by
  have hinner {after : Text} {tail : Text} (hlen : after.length < (skipSpace tail).length) :
      after.length < tail.length + 1 := by
    have hskip := skipSpace_length tail
    omega
  cases s with
  | nil => simp [scanOnce] at h
  | cons c tail =>
    have hdrop {x : PyM JsonValue} {n : Nat} (hn : 0 < n) (heq : raising x ((c :: tail).drop n) = .ok (v, rest)) :
        rest.length < tail.length + 1 := by
      rw [← raising_rest heq, List.length_drop, List.length_cons]
      omega
    unfold scanOnce at h
    dsimp only at h
    rw [List.length_cons]
    split at h
    · simp only [bind_eq_ok, Prod.exists, Except.ok.injEq, Prod.mk.injEq] at h
      obtain ⟨_, _, hstring, _, rfl⟩ := h
      exact Nat.lt_succ_of_lt (scanString_length hstring)
    · split at h
      · cases room with
        | zero => cases h
        | succ room =>
          simp only [bind_eq_ok, Prod.exists] at h
          obtain ⟨members, after, hmembers, hobject⟩ := h
          rw [← raising_rest hobject]
          exact hinner (ih.members hmembers)
      · split at h
        · cases room with
          | zero => cases h
          | succ room =>
            simp only [bind_eq_ok, Prod.exists, Except.ok.injEq, Prod.mk.injEq] at h
            obtain ⟨items, _, hitems, _, rfl⟩ := h
            exact hinner (ih.items hitems)
        -- the literal names, the constants, then a number
        · split at h
          · exact @hdrop (.ok .null) 4 (by decide) h
          · split at h
            · exact @hdrop (.ok (.bool true)) 4 (by decide) h
            · split at h
              · exact @hdrop (.ok (.bool false)) 5 (by decide) h
              · split at h
                · exact hdrop (by decide) h
                · split at h
                  · exact hdrop (by decide) h
                  · split at h
                    · exact hdrop (by decide) h
                    · split at h
                      · exact Nat.lt_succ_of_lt (scanUnsigned_length h)
                      · split at h
                        · exact scanUnsigned_length h
                        · cases h

end

theorem consumes (hooks : Hooks) (fuel : Nat) : Consumes hooks fuel := by
  induction fuel with
  | zero =>
    constructor
    · intro room s v rest h
      simp [scanOnce] at h
    · intro room first s items rest h
      simp [scanItems] at h
    · intro room first s members rest h
      simp [scanMembers] at h
  | succ fuel ih => exact ⟨scanOnce_consumes ih, scanItems_consumes ih, scanMembers_consumes ih⟩

/-! ### Enough fuel -/

/-- Two amounts of fuel, both enough, give one result. -/
structure Stable (hooks : Hooks) (fuel fuel' : Nat) : Prop where
  once : ∀ {room s}, 2 * s.length + 1 ≤ fuel → 2 * s.length + 1 ≤ fuel' →
    scanOnce hooks fuel room s = scanOnce hooks fuel' room s
  items : ∀ {room first s}, 2 * s.length + 2 ≤ fuel → 2 * s.length + 2 ≤ fuel' →
    scanItems hooks fuel room first s = scanItems hooks fuel' room first s
  members : ∀ {room first s}, 2 * s.length + 2 ≤ fuel → 2 * s.length + 2 ≤ fuel' →
    scanMembers hooks fuel room first s = scanMembers hooks fuel' room first s

section

variable {hooks : Hooks} {fuel fuel' room : Nat} {first : Bool} {s : Text}

theorem scanOnce_stable (ih : Stable hooks fuel fuel') (h : 2 * s.length + 1 ≤ fuel + 1)
    (h' : 2 * s.length + 1 ≤ fuel' + 1) : scanOnce hooks (fuel + 1) room s = scanOnce hooks (fuel' + 1) room s := by
  cases s with
  | nil => rw [scanOnce, scanOnce]
  | cons c tail =>
    have hskip := skipSpace_length tail
    rw [List.length_cons] at h h'
    have hmembers (room : Nat) := @ih.members room true (skipSpace tail) (by omega) (by omega)
    have hitems (room : Nat) := @ih.items room true (skipSpace tail) (by omega) (by omega)
    cases room with
    | zero => rw [scanOnce, scanOnce]
    | succ room => rw [scanOnce, scanOnce, hmembers, hitems]

theorem scanItems_stable (ih : Stable hooks fuel fuel') (h : 2 * s.length + 2 ≤ fuel + 1)
    (h' : 2 * s.length + 2 ≤ fuel' + 1) : scanItems hooks (fuel + 1) room first s = scanItems hooks (fuel' + 1) room first s := by
  have honce := @ih.once room s (by omega) (by omega)
  rw [scanItems, scanItems, honce]
  cases hitem : scanOnce hooks fuel' room s with
  | error e => rfl
  | ok found =>
    obtain ⟨item, after⟩ := found
    have hshorter := (consumes hooks fuel').once hitem
    have hskip := skipSpace_length after
    simp only [ok_bind]
    cases hafter : skipSpace after with
    | nil => rfl
    | cons c more =>
      have hskip' := skipSpace_length more
      rw [hafter, List.length_cons] at hskip
      dsimp only
      rw [@ih.items room false (skipSpace more) (by omega) (by omega)]

theorem scanMembers_stable (ih : Stable hooks fuel fuel') (h : 2 * s.length + 2 ≤ fuel + 1)
    (h' : 2 * s.length + 2 ≤ fuel' + 1) :
    scanMembers hooks (fuel + 1) room first s = scanMembers hooks (fuel' + 1) room first s := by
  cases s with
  | nil => rw [scanMembers, scanMembers]
  | cons c tail =>
    rw [List.length_cons] at h h'
    rw [scanMembers, scanMembers]
    cases hname : scanString (c :: tail) (tail.length + 1) tail with
    | error e => rfl
    | ok named =>
      obtain ⟨name, afterName⟩ := named
      have hstring := scanString_length hname
      have hskip := skipSpace_length afterName
      have hskip' := skipSpace_length ((skipSpace afterName).drop 1)
      rw [List.length_drop] at hskip'
      have honce := @ih.once room (skipSpace ((skipSpace afterName).drop 1)) (by omega) (by omega)
      simp only [ok_bind, honce]
      cases hvalue : scanOnce hooks fuel' room (skipSpace ((skipSpace afterName).drop 1)) with
      | error e => rfl
      | ok found =>
        obtain ⟨value, after⟩ := found
        have hshorter := (consumes hooks fuel').once hvalue
        have hskip₁ := skipSpace_length after
        simp only [ok_bind]
        cases hafter : skipSpace after with
        | nil => rfl
        | cons d more =>
          have hskip₂ := skipSpace_length more
          rw [hafter, List.length_cons] at hskip₁
          dsimp only
          rw [@ih.members room false (skipSpace more) (by omega) (by omega)]

end

theorem stable (hooks : Hooks) (fuel fuel' : Nat) : Stable hooks fuel fuel' := by
  induction fuel generalizing fuel' with
  | zero =>
    constructor
    · intro room s h
      omega
    · intro room first s h
      omega
    · intro room first s h
      omega
  | succ fuel ih =>
    cases fuel' with
    | zero =>
      constructor
      · intro room s _ h
        omega
      · intro room first s _ h
        omega
      · intro room first s _ h
        omega
    | succ fuel' =>
      exact ⟨scanOnce_stable (ih fuel'), scanItems_stable (ih fuel'), scanMembers_stable (ih fuel')⟩

/-! ### The scanners without fuel -/

/-- `scan_once`. -/
def scanValue (hooks : Hooks) (room : Nat) (s : Text) : Scan (JsonValue × Text) := scanOnce hooks (2 * s.length + 1) room s

/-- An array from its first item, or from a later one. -/
def scanArray (hooks : Hooks) (room : Nat) (first : Bool) (s : Text) : Scan (List JsonValue × Text) :=
  scanItems hooks (2 * s.length + 2) room first s

/-- An object from its first member, or from a later one. -/
def scanObject (hooks : Hooks) (room : Nat) (first : Bool) (s : Text) : Scan (Members × Text) :=
  scanMembers hooks (2 * s.length + 2) room first s

section

variable {hooks : Hooks} {fuel room : Nat} {first : Bool} {s rest : Text}

theorem scanOnce_eq (h : 2 * s.length + 1 ≤ fuel) : scanOnce hooks fuel room s = scanValue hooks room s :=
  (stable hooks _ _).once h (le_refl _)

theorem scanItems_eq (h : 2 * s.length + 2 ≤ fuel) : scanItems hooks fuel room first s = scanArray hooks room first s :=
  (stable hooks _ _).items h (le_refl _)

theorem scanMembers_eq (h : 2 * s.length + 2 ≤ fuel) : scanMembers hooks fuel room first s = scanObject hooks room first s :=
  (stable hooks _ _).members h (le_refl _)

/-- An array goes on at what follows a comma, with less to read. -/
theorem scanItems_after {item : JsonValue} {after more : Text} (hitem : scanValue hooks room s = .ok (item, after))
    (hcomma : skipSpace after = 0x2C :: more) :
    scanItems hooks (2 * s.length + 1) room false (skipSpace more) = scanArray hooks room false (skipSpace more) := by
  have hshorter := (consumes hooks _).once hitem
  have hskip := skipSpace_length after
  have hskip' := skipSpace_length more
  rw [hcomma, List.length_cons] at hskip
  exact scanItems_eq (by omega)

theorem scanArray_ok {items : List JsonValue} (h : scanArray hooks room first s = .ok (items, rest)) :
    (first = true ∧ s.head? = some 0x5D) ∧ items = [] ∧ rest = s.drop 1 ∨
      ¬ (first = true ∧ s.head? = some 0x5D) ∧ ∃ item after, scanValue hooks room s = .ok (item, after) ∧
        (skipSpace after = 0x5D :: rest ∧ items = [item] ∨
          ∃ more others, skipSpace after = 0x2C :: more ∧
            scanArray hooks room false (skipSpace more) = .ok (others, rest) ∧ items = item :: others) := by
  cases scanItems_ok h with
  | inl hend => exact .inl hend
  | inr hmore =>
    obtain ⟨hend, item, after, hitem, hrest⟩ := hmore
    refine .inr ⟨hend, item, after, hitem, ?_⟩
    cases hrest with
    | inl hclose => exact .inl hclose
    | inr hcomma =>
      obtain ⟨more, others, hcomma, hothers, heq⟩ := hcomma
      rw [scanItems_after hitem hcomma] at hothers
      exact .inr ⟨more, others, hcomma, hothers, heq⟩

/-- An array raises what its first item raises, or what the rest of it does. -/
theorem scanArray_raised {e : PyErr} : scanArray hooks room first s = .error (.raised e) ↔
    ¬ (first = true ∧ s.head? = some 0x5D) ∧ (scanValue hooks room s = .error (.raised e) ∨
      ∃ item after more, scanValue hooks room s = .ok (item, after) ∧ skipSpace after = 0x2C :: more ∧
        scanArray hooks room false (skipSpace more) = .error (.raised e)) := by
  have hvalue : scanOnce hooks (2 * s.length + 1) room s = scanValue hooks room s := rfl
  rw [scanArray, scanItems, hvalue]
  by_cases hend : first = true ∧ s.head? = some 0x5D
  · rw [if_pos hend]
    exact iff_of_false ok_ne_error fun h => h.1 hend
  · rw [if_neg hend]
    cases hitem : scanValue hooks room s with
    | error cause => simp [error_bind, hend]
    | ok found =>
      obtain ⟨item, after⟩ := found
      simp only [ok_bind]
      cases hafter : skipSpace after with
      | nil => simp [hafter]
      | cons c more =>
        have hrest := @scanItems_after hooks room s item after more hitem
        dsimp only
        by_cases hclose : c = 0x5D
        · simp [hclose, hafter]
        · by_cases hcomma : c = 0x2C
          · subst hcomma
            rw [if_neg hclose, if_pos rfl, hrest hafter]
            cases hothers : scanArray hooks room false (skipSpace more) with
            | error cause => simp [error_bind, hend, hafter, hothers]
            | ok others => simp [ok_bind, hafter, hothers]
          · simp [hclose, hcomma, hafter]

/-- A member's name, and the text after its colon. -/
def Named (s name text : Text) : Prop :=
  ∃ tail afterName, s = 0x22 :: tail ∧ scanString s (tail.length + 1) tail = .ok (name, afterName) ∧
    skipSpace afterName = 0x3A :: text

theorem Named.shorter {name text : Text} (h : Named s name text) : (skipSpace text).length + 2 ≤ s.length := by
  obtain ⟨tail, afterName, rfl, hname, hcolon⟩ := h
  have hstring := scanString_length hname
  have hskip := skipSpace_length afterName
  have hskip' := skipSpace_length text
  rw [hcolon, List.length_cons] at hskip
  rw [List.length_cons]
  omega

theorem Named.once {name text : Text} (h : Named s name text) :
    scanOnce hooks (2 * s.length + 1) room (skipSpace text) = scanValue hooks room (skipSpace text) := by
  have hshorter := h.shorter
  exact scanOnce_eq (by omega)

/-- An object goes on at what follows a comma, with less to read. -/
theorem scanMembers_after {name text after more : Text} {value : JsonValue} (h : Named s name text)
    (hvalue : scanValue hooks room (skipSpace text) = .ok (value, after)) (hcomma : skipSpace after = 0x2C :: more) :
    scanMembers hooks (2 * s.length + 1) room false (skipSpace more) = scanObject hooks room false (skipSpace more) := by
  have hnamed := h.shorter
  have hshorter := (consumes hooks _).once hvalue
  have hskip := skipSpace_length after
  have hskip' := skipSpace_length more
  rw [hcomma, List.length_cons] at hskip
  exact scanMembers_eq (by omega)

theorem scanObject_ok {members : Members} (h : scanObject hooks room first s = .ok (members, rest)) :
    (first = true ∧ s = 0x7D :: rest) ∧ members = [] ∨
      ∃ name text value after, Named s name text ∧ scanValue hooks room (skipSpace text) = .ok (value, after) ∧
        (skipSpace after = 0x7D :: rest ∧ members = [(name, value)] ∨
          ∃ more others, skipSpace after = 0x2C :: more ∧
            scanObject hooks room false (skipSpace more) = .ok (others, rest) ∧ members = (name, value) :: others) := by
  cases scanMembers_ok h with
  | inl hend => exact .inl hend
  | inr hmore =>
    obtain ⟨name, value, after, ⟨tail, afterName, text, hs, hname, hcolon, hvalue⟩, hrest⟩ := hmore
    have hnamed : Named s name text := ⟨tail, afterName, hs, hname, hcolon⟩
    rw [hnamed.once] at hvalue
    refine .inr ⟨name, text, value, after, hnamed, hvalue, ?_⟩
    cases hrest with
    | inl hclose => exact .inl hclose
    | inr hcomma =>
      obtain ⟨more, others, hcomma, hothers, heq⟩ := hcomma
      rw [scanMembers_after hnamed hvalue hcomma] at hothers
      exact .inr ⟨more, others, hcomma, hothers, heq⟩

omit s rest in
theorem unicodeEscape_not_raised {start s : Text} {e : PyErr} : unicodeEscape start s ≠ .error (.raised e) := by
  unfold unicodeEscape
  split
  · exact malformed_ne_raised
  · dsimp only
    split
    · split
      · split
        · split
          · exact malformed_ne_raised
          · split
            · exact ok_ne_error
            · exact ok_ne_error
        · exact ok_ne_error
      · exact ok_ne_error
    · exact ok_ne_error

/-- A string is read or malformed. -/
theorem scanString_not_raised {start : Text} {e : PyErr} : scanString start fuel s ≠ .error (.raised e) := by
  induction fuel generalizing s with
  | zero => exact malformed_ne_raised
  | succ fuel ih =>
    have hlater {t : Text} {c : CodePoint} : (do
        let found ← scanString start fuel t
        (.ok (c :: found.1, found.2) : Scan (Text × Text))) ≠ .error (.raised e) := by
      cases hstring : scanString start fuel t with
      | ok found => exact ok_ne_error
      | error cause =>
        intro h
        obtain rfl := Except.error.inj h
        exact ih hstring
    cases s with
    | nil => exact malformed_ne_raised
    | cons c tail =>
      unfold scanString
      split
      · exact ok_ne_error
      · split
        · cases tail with
          | nil => exact malformed_ne_raised
          | cons next more =>
            dsimp only
            split
            · cases hescape : unicodeEscape (next :: more) more with
              | ok found => exact hlater
              | error cause =>
                intro h
                obtain rfl := Except.error.inj h
                exact unicodeEscape_not_raised hescape
            · split
              · exact malformed_ne_raised
              · exact hlater
        · split
          · exact malformed_ne_raised
          · exact hlater

/-- An object raises what its first member's value raises, or what the rest of it does. -/
theorem scanObject_raised {e : PyErr} : scanObject hooks room first s = .error (.raised e) ↔
    ∃ name text, Named s name text ∧ (scanValue hooks room (skipSpace text) = .error (.raised e) ∨
      ∃ value after more, scanValue hooks room (skipSpace text) = .ok (value, after) ∧ skipSpace after = 0x2C :: more ∧
        scanObject hooks room false (skipSpace more) = .error (.raised e)) := by
  rw [scanObject]
  cases s with
  | nil => exact iff_of_false (by simp [scanMembers]) (by simp [Named])
  | cons c tail =>
    by_cases hquote : c = 0x22
    · subst hquote
      rw [scanMembers, if_neg (fun h => absurd h.2 (by decide)), if_neg (not_not.mpr rfl)]
      cases hname : scanString (0x22 :: tail) (tail.length + 1) tail with
      | error cause =>
        refine iff_of_false ?_ ?_
        · intro h
          obtain rfl := Except.error.inj h
          exact scanString_not_raised hname
        · intro h
          obtain ⟨name, text, ⟨tail', afterName, heq, hfound, _⟩, _⟩ := h
          obtain rfl := (List.cons.inj heq).2
          rw [hname] at hfound
          cases hfound
      | ok found =>
        obtain ⟨name, afterName⟩ := found
        have hafterName {name' text : Text} (h : Named (0x22 :: tail) name' text) : skipSpace afterName = 0x3A :: text := by
          obtain ⟨tail', afterName', heq, hfound, hcolon⟩ := h
          obtain rfl := (List.cons.inj heq).2
          rw [hname] at hfound
          rw [(Prod.mk.inj (Except.ok.inj hfound)).2, hcolon]
        simp only [ok_bind]
        by_cases hcolon : (skipSpace afterName).head? = some 0x3A
        · obtain ⟨text, htext⟩ := List.head?_eq_some_iff.mp hcolon
          have hnamed : Named (0x22 :: tail) name text := ⟨tail, afterName, rfl, hname, htext⟩
          have honly {name' text' : Text} (h : Named (0x22 :: tail) name' text') : text' = text :=
            (List.cons.inj ((hafterName h).symm.trans htext)).2
          rw [if_neg (not_not.mpr hcolon), htext, List.drop_one, List.tail_cons, hnamed.once]
          trans scanValue hooks room (skipSpace text) = .error (.raised e) ∨ ∃ value after more,
              scanValue hooks room (skipSpace text) = .ok (value, after) ∧ skipSpace after = 0x2C :: more ∧
              scanObject hooks room false (skipSpace more) = .error (.raised e)
          · cases hvalue : scanValue hooks room (skipSpace text) with
            | error cause => simp [error_bind]
            | ok found =>
              obtain ⟨value, after⟩ := found
              simp only [ok_bind]
              cases hafter : skipSpace after with
              | nil => simp [hafter]
              | cons d more =>
                have hrest := @scanMembers_after hooks room _ name text after more value hnamed hvalue
                dsimp only
                by_cases hclose : d = 0x7D
                · simp [hclose, hafter]
                · by_cases hcomma : d = 0x2C
                  · subst hcomma
                    rw [if_neg hclose, if_pos rfl, hrest hafter]
                    cases hothers : scanObject hooks room false (skipSpace more) with
                    | error cause => simp [error_bind, hafter, hothers]
                    | ok others => simp [ok_bind, hafter, hothers]
                  · simp [hclose, hcomma, hafter]
          · constructor
            · intro h
              exact ⟨name, text, hnamed, h⟩
            · intro h
              obtain ⟨_, text', hnamed', h⟩ := h
              rw [← honly hnamed']
              exact h
        · rw [if_pos hcolon]
          refine iff_of_false malformed_ne_raised ?_
          intro h
          obtain ⟨_, _, hnamed, _⟩ := h
          exact hcolon (by rw [hafterName hnamed]; rfl)
    · refine iff_of_false ?_ ?_
      · rw [scanMembers]
        by_cases hend : first = true ∧ c = 0x7D
        · rw [if_pos hend]
          exact ok_ne_error
        · rw [if_neg hend, if_pos hquote]
          exact malformed_ne_raised
      · intro h
        obtain ⟨name, text, ⟨tail', afterName, heq, _⟩, _⟩ := h
        exact hquote (List.cons.inj heq).1

end

end AitpVerifier.Json
