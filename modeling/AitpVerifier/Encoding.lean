import AitpVerifier.Text
import Mathlib.Data.List.Lex

/-!
# UTF-8 and UTF-16 of well-formed text

Decoding undoes UTF-8 encoding, and the octets of UTF-16-BE compare as the code
units do: high octet first.
-/
namespace PyText

/-- Text without lone surrogates: every UTF encodes it. -/
def WellFormed (s : Text) : Prop := ∀ c ∈ s, isSurrogate c = false

theorem WellFormed.any {s : Text} (h : WellFormed s) : s.any isSurrogate = false := by
  rw [List.any_eq_false]
  intro c hc
  rw [h c hc]
  exact Bool.false_ne_true

theorem wellFormed_append {s t : Text} : WellFormed (s ++ t) ↔ WellFormed s ∧ WellFormed t := List.forall_mem_append

theorem wellFormed_cons {c : CodePoint} {s : Text} : WellFormed (c :: s) ↔ isSurrogate c = false ∧ WellFormed s :=
  List.forall_mem_cons

/-! ### UTF-8 -/

theorem toNat_ofNat {n : Nat} (h : n < 0x100) : (UInt8.ofNat n).toNat = n := UInt8.toNat_ofNat_of_lt' h

theorem continuation?_ofNat {x : Nat} (h : x < 0x40) : continuation? (.ofNat (0x80 + x)) = some x := by
  rw [continuation?, toNat_ofNat (by omega), if_pos (by omega), Nat.add_sub_cancel_left]

theorem scalar?_eq_some {c : CodePoint} {least v : Nat} (hs : isSurrogate c = false) (hl : least ≤ c.val)
    (hv : v = c.val) : scalar? least v = some c := by
  subst hv
  rw [scalar?, dif_pos c.isLt, if_pos ⟨hl, hs⟩]

/-- A rule for the reader's steps, so that no check compares two of them by unfolding. -/
theorem bind_of_eq_some {α β : Type} {x : Option α} {a : α} {f : α → Option β} (h : x = some a) : (x >>= f) = f a := by
  rw [h]
  rfl

/-- One character's octets decode to it. -/
theorem utf8Decode?_char {c : CodePoint} (h : isSurrogate c = false) (rest : Bytes) :
    utf8Decode? (utf8Char c ++ rest) = (utf8Decode? rest).map (c :: ·) := by
  have hlt := c.isLt
  unfold utf8Char
  by_cases h1 : c.val < 0x80
  · have hc : ofOctet (.ofNat c.val) = c := Fin.ext (toNat_ofNat (by omega))
    simp only [h1, if_true, List.cons_append, List.nil_append]
    rw [utf8Decode?.eq_def]
    dsimp only
    rw [toNat_ofNat (n := c.val) (by omega), if_pos h1, hc]
  · by_cases h2 : c.val < 0x800
    · simp only [h1, h2, if_true, if_false, List.cons_append, List.nil_append]
      rw [utf8Decode?.eq_def]
      dsimp only
      rw [toNat_ofNat (n := 0xC0 + c.val / 0x40) (by omega), if_neg (by omega), if_neg (by omega), if_pos (by omega),
        continuation?_ofNat (by omega), Option.bind_eq_bind, Option.bind_some,
        scalar?_eq_some h (by omega) (by omega)]
      rfl
    · by_cases h3 : c.val < 0x10000
      · simp only [h1, h2, h3, if_true, if_false, List.cons_append, List.nil_append]
        rw [utf8Decode?.eq_def]
        dsimp only
        rw [toNat_ofNat (n := 0xE0 + c.val / 0x1000) (by omega), if_neg (by omega), if_neg (by omega),
          if_neg (by omega), if_pos (by omega), continuation?_ofNat (by omega), continuation?_ofNat (by omega)]
        simp only [Option.bind_eq_bind, Option.bind_some]
        rw [scalar?_eq_some h (by omega) (by omega)]
        rfl
      · simp only [h1, h2, h3, if_false, List.cons_append, List.nil_append]
        rw [utf8Decode?.eq_def]
        dsimp only
        rw [toNat_ofNat (n := 0xF0 + c.val / 0x40000) (by omega), if_neg (by omega), if_neg (by omega),
          if_neg (by omega), if_neg (by omega), bind_of_eq_some (continuation?_ofNat (by omega)),
          bind_of_eq_some (continuation?_ofNat (by omega)), bind_of_eq_some (continuation?_ofNat (by omega)),
          bind_of_eq_some (scalar?_eq_some h (by omega) (by omega))]

theorem utf8?_eq_some {s : Text} (h : WellFormed s) : utf8? s = some (s.flatMap utf8Char) := by
  rw [utf8?, h.any, if_neg Bool.false_ne_true]

theorem utf8Char_ascii {c : CodePoint} (h : c.val < 0x80) : utf8Char c = [.ofNat c.val] := by
  rw [utf8Char]
  exact if_pos h

/-- An ASCII text has one octet a character. -/
theorem utf8?_ascii {s : Text} (h : ∀ c ∈ s, c.val < 0x80) : utf8? s = some (s.map fun c => .ofNat c.val) := by
  have hwell : WellFormed s := by
    intro c hc
    have hlow := h c hc
    simp only [isSurrogate, Bool.and_eq_false_iff, decide_eq_false_iff_not]
    omega
  rw [utf8?_eq_some hwell, Option.some.injEq]
  clear hwell
  induction s with
  | nil => rfl
  | cons c rest ih =>
    have hall := List.forall_mem_cons.mp h
    rw [List.flatMap_cons, utf8Char_ascii hall.1, ih hall.2]
    rfl

theorem utf8?_eq_some_iff {s : Text} {octets : Bytes} :
    utf8? s = some octets ↔ WellFormed s ∧ s.flatMap utf8Char = octets := by
  constructor
  · intro h
    by_cases hw : WellFormed s
    · rw [utf8?_eq_some hw] at h
      exact ⟨hw, Option.some.inj h⟩
    · have hany : s.any isSurrogate = true := by simpa [WellFormed] using hw
      rw [utf8?, hany] at h
      cases h
  · rintro ⟨hw, rfl⟩
    exact utf8?_eq_some hw

theorem utf8Decode?_encoded {s : Text} (h : WellFormed s) : utf8Decode? (s.flatMap utf8Char) = some s := by
  induction s with
  | nil => rfl
  | cons c rest ih =>
    rw [List.flatMap_cons, utf8Decode?_char (h c List.mem_cons_self),
      ih (fun d hd => h d (List.mem_cons_of_mem c hd)), Option.map_some]

/-- Encoding loses nothing. -/
theorem utf8?_injective {s t : Text} {octets : Bytes} (hs : utf8? s = some octets) (ht : utf8? t = some octets) :
    s = t := by
  obtain ⟨hws, rfl⟩ := utf8?_eq_some_iff.mp hs
  obtain ⟨hwt, heq⟩ := utf8?_eq_some_iff.mp ht
  have h := utf8Decode?_encoded hwt
  rw [heq, utf8Decode?_encoded hws] at h
  exact Option.some.inj h

/-! ### UTF-16 -/

def codeUnits (s : Text) : List Nat := s.flatMap utf16Units

/-- The octets of UTF-16-BE as numbers. -/
def bigEndian (units : List Nat) : List Nat := units.flatMap (fun u => [u / 0x100, u % 0x100])

theorem utf16Units_lt {c : CodePoint} {u : Nat} (h : u ∈ utf16Units c) : u < 0x10000 := by
  have hc := c.isLt
  unfold utf16Units at h
  split at h
  · rename_i hb
    rw [List.mem_singleton.mp h]
    exact hb
  · simp only [List.mem_cons, List.not_mem_nil, or_false] at h
    omega

theorem codeUnits_lt {s : Text} {u : Nat} (h : u ∈ codeUnits s) : u < 0x10000 := by
  obtain ⟨c, _, hu⟩ := List.mem_flatMap.mp h
  exact utf16Units_lt hu

theorem utf16be?_eq_some {s : Text} (h : WellFormed s) :
    ∃ octets, utf16be? s = some octets ∧ octets.map UInt8.toNat = bigEndian (codeUnits s) := by
  refine ⟨_, by rw [utf16be?, h.any, if_neg Bool.false_ne_true], ?_⟩
  rw [List.map_flatMap]
  apply List.flatMap_congr
  intro u hu
  have := codeUnits_lt hu
  simp [unitOctets]
  omega

/-- Big-endian octets keep the order of the units. -/
theorem bigEndian_lt_iff {us vs : List Nat} : bigEndian us < bigEndian vs ↔ us < vs := by
  induction us generalizing vs with
  | nil => cases vs <;> simp [bigEndian]
  | cons u us ih =>
    cases vs with
    | nil => simp [bigEndian]
    | cons v vs =>
      have hu : bigEndian (u :: us) = u / 0x100 :: u % 0x100 :: bigEndian us := rfl
      have hv : bigEndian (v :: vs) = v / 0x100 :: v % 0x100 :: bigEndian vs := rfl
      rw [hu, hv, List.cons_lt_cons_iff, List.cons_lt_cons_iff, List.cons_lt_cons_iff, ih]
      by_cases h : us < vs <;> simp only [h, and_true, and_false, or_false] <;> omega

/-- A character's units are not the start of another's. -/
theorem utf16Units_append_inj {c d : CodePoint} {us vs : List Nat} (hc : isSurrogate c = false)
    (hd : isSurrogate d = false) (h : utf16Units c ++ us = utf16Units d ++ vs) : c = d ∧ us = vs := by
  have hcl := c.isLt
  have hdl := d.isLt
  simp only [isSurrogate, Bool.and_eq_false_iff, decide_eq_false_iff_not] at hc hd
  unfold utf16Units at h
  rw [Fin.ext_iff]
  -- a lead surrogate is no character of its own, so both are written in one way
  split at h <;> split at h <;> simp only [List.cons_append, List.nil_append, List.cons.injEq] at h
  · exact h
  · omega
  · omega
  · exact ⟨by omega, h.2.2⟩

theorem codeUnits_cons_ne_nil (c : CodePoint) (s : Text) : codeUnits (c :: s) ≠ [] := by
  rw [codeUnits, List.flatMap_cons, utf16Units]
  split <;> exact List.cons_ne_nil _ _

theorem codeUnits_injective {s t : Text} (hs : WellFormed s) (ht : WellFormed t) (h : codeUnits s = codeUnits t) :
    s = t := by
  induction s generalizing t with
  | nil =>
    cases t with
    | nil => rfl
    | cons d t => exact absurd h.symm (codeUnits_cons_ne_nil d t)
  | cons c s ih =>
    cases t with
    | nil => exact absurd h (codeUnits_cons_ne_nil c s)
    | cons d t =>
      obtain ⟨hc, hcs⟩ := List.forall_mem_cons.mp hs
      obtain ⟨hd, hdt⟩ := List.forall_mem_cons.mp ht
      obtain ⟨rfl, hrest⟩ := utf16Units_append_inj hc hd h
      exact congrArg (c :: ·) (ih hcs hdt hrest)

end PyText
