import Mathlib.Data.List.Sort
import Mathlib.Data.Nat.Digits.Lemmas

/-!
# Text as sequences of code points

A string here is any sequence of code points, lone surrogates included: that is
what a JSON parser can hand over. UTF-8 and UTF-16 encoding are partial, since
neither encodes a surrogate.
-/
namespace PyText

abbrev CodePoint := Fin 0x110000

instance instNeZeroCodePoints : NeZero 0x110000 := ⟨Nat.succ_ne_zero _⟩

abbrev Text := List CodePoint
abbrev Bytes := List UInt8

def isSurrogate (c : CodePoint) : Bool := 0xD800 ≤ c.val && c.val < 0xE000

/-- The octets of one scalar value. -/
def utf8Char (c : CodePoint) : Bytes :=
  let v := c.val
  if v < 0x80 then [.ofNat v]
  else if v < 0x800 then [.ofNat (0xC0 + v / 0x40), .ofNat (0x80 + v % 0x40)]
  else if v < 0x10000 then
    [.ofNat (0xE0 + v / 0x1000), .ofNat (0x80 + v / 0x40 % 0x40), .ofNat (0x80 + v % 0x40)]
  else
    [.ofNat (0xF0 + v / 0x40000), .ofNat (0x80 + v / 0x1000 % 0x40),
      .ofNat (0x80 + v / 0x40 % 0x40), .ofNat (0x80 + v % 0x40)]

/-- `str.encode("utf-8")`: none where the source raises `UnicodeEncodeError`. -/
def utf8? (s : Text) : Option Bytes :=
  if s.any isSurrogate then none else some (s.flatMap utf8Char)

/-- `str.encode("ascii")`. -/
def ascii? (s : Text) : Option Bytes :=
  if s.all (fun c => c.val < 0x80) then some (s.map (fun c => .ofNat c.val)) else none

/-- The 16-bit code units of one scalar value. -/
def utf16Units (c : CodePoint) : List Nat :=
  if c.val < 0x10000 then [c.val]
  else [0xD800 + (c.val - 0x10000) / 0x400, 0xDC00 + (c.val - 0x10000) % 0x400]

def unitOctets (u : Nat) : Bytes := [.ofNat (u / 0x100), .ofNat (u % 0x100)]

/-- `str.encode("utf-16-be")`. -/
def utf16be? (s : Text) : Option Bytes :=
  if s.any isSurrogate then none else some ((s.flatMap utf16Units).flatMap unitOctets)

def ofOctet (b : UInt8) : CodePoint := ⟨b.toNat, Nat.lt_of_lt_of_le b.toNat_lt (by decide)⟩

/-- A continuation octet's six payload bits. -/
def continuation? (b : UInt8) : Option Nat :=
  if 0x80 ≤ b.toNat ∧ b.toNat < 0xC0 then some (b.toNat - 0x80) else none

/-- The scalar value `v` when it needs at least `least` and is not a surrogate. -/
def scalar? (least v : Nat) : Option CodePoint :=
  if h : v < 0x110000 then
    if least ≤ v ∧ isSurrogate ⟨v, h⟩ = false then some ⟨v, h⟩ else none
  else none

/-- `bytes.decode("utf-8")`, strict: shortest forms only, no surrogates. -/
def utf8Decode? : Bytes → Option Text
  | [] => some []
  | b :: rest =>
    if b.toNat < 0x80 then (utf8Decode? rest).map (ofOctet b :: ·)
    else match rest with
      | [] => none
      | b₁ :: rest₁ =>
        if b.toNat < 0xC0 then none
        else if b.toNat < 0xE0 then do
          let x₁ ← continuation? b₁
          let c ← scalar? 0x80 ((b.toNat - 0xC0) * 0x40 + x₁)
          (utf8Decode? rest₁).map (c :: ·)
        else match rest₁ with
          | [] => none
          | b₂ :: rest₂ =>
            if b.toNat < 0xF0 then do
              let x₁ ← continuation? b₁
              let x₂ ← continuation? b₂
              let c ← scalar? 0x800 ((b.toNat - 0xE0) * 0x1000 + x₁ * 0x40 + x₂)
              (utf8Decode? rest₂).map (c :: ·)
            else match rest₂ with
              | [] => none
              | b₃ :: rest₃ => do
                let x₁ ← continuation? b₁
                let x₂ ← continuation? b₂
                let x₃ ← continuation? b₃
                let c ← scalar? 0x10000 ((b.toNat - 0xF0) * 0x40000 + x₁ * 0x1000 + x₂ * 0x40 + x₃)
                (utf8Decode? rest₃).map (c :: ·)

/-- A source literal as text. -/
def txt (s : String) : Text := (utf8Decode? s.toUTF8.data.toList).getD []

/-- `str.split` on a one-character separator. -/
def splitOn (sep : CodePoint) : Text → List Text
  | [] => [[]]
  | c :: rest =>
    if c = sep then [] :: splitOn sep rest
    else match splitOn sep rest with
      | [] => [[c]]
      | part :: parts => (c :: part) :: parts

theorem splitOn_eq (sep : CodePoint) (s : Text) : splitOn sep s = s.splitOn sep := by
  induction s with
  | nil => rfl
  | cons c rest ih =>
    rw [splitOn, List.splitOn_cons_eq_if_modifyHead, ih]
    by_cases hc : c = sep
    · rw [if_pos hc, if_pos (beq_iff_eq.mpr hc)]
    · rw [if_neg hc, if_neg (mt beq_iff_eq.mp hc)]
      cases h : rest.splitOn sep with
      | nil => exact absurd h (List.splitOn_ne_nil sep rest)
      | cons part parts => rfl

/-- Parts without the separator are what their join splits into. -/
theorem splitOn_join {sep : CodePoint} {parts : List Text} (hne : parts ≠ []) (h : ∀ part ∈ parts, sep ∉ part) :
    splitOn sep ([sep].intercalate parts) = parts := by
  rw [splitOn_eq, List.splitOn_intercalate _ h hne]

/-- A character other than the separator stands in a part. -/
theorem mem_splitOn {sep c : CodePoint} {s : Text} (hc : c ∈ s) (hne : c ≠ sep) : ∃ part ∈ splitOn sep s, c ∈ part := by
  induction s with
  | nil => cases hc
  | cons d rest ih =>
    rw [splitOn_eq, List.splitOn_cons_eq_if_modifyHead]
    rw [splitOn_eq] at ih
    cases hsplit : rest.splitOn sep with
    | nil => exact absurd hsplit (List.splitOn_ne_nil sep rest)
    | cons part parts =>
      rw [hsplit] at ih
      by_cases hd : d = sep
      · rw [if_pos (beq_iff_eq.mpr hd)]
        have hrest := (List.mem_cons.mp hc).resolve_left fun h => hne (h.trans hd)
        obtain ⟨found, hfound, hmem⟩ := ih hrest
        exact ⟨found, List.mem_cons_of_mem _ hfound, hmem⟩
      · rw [if_neg (mt beq_iff_eq.mp hd), List.modifyHead_cons]
        rcases List.mem_cons.mp hc with rfl | hrest
        · exact ⟨_, List.mem_cons_self, List.mem_cons_self⟩
        · obtain ⟨found, hfound, hmem⟩ := ih hrest
          rcases List.mem_cons.mp hfound with rfl | hfound
          · exact ⟨_, List.mem_cons_self, List.mem_cons_of_mem d hmem⟩
          · exact ⟨found, List.mem_cons_of_mem _ hfound, hmem⟩

/-- `str.partition`: the head, whether the separator occurred, the tail. -/
def partition (sep : CodePoint) : Text → Text × Bool × Text
  | [] => ([], false, [])
  | c :: rest =>
    if c = sep then ([], true, rest)
    else
      let (head, found, tail) := partition sep rest
      (c :: head, found, tail)

theorem partition_of_not_mem {sep : CodePoint} {s : Text} (h : sep ∉ s) : partition sep s = (s, false, []) := by
  induction s with
  | nil => rfl
  | cons c rest ih =>
    rw [List.mem_cons, not_or] at h
    rw [partition, if_neg (Ne.symm h.1), ih h.2]

theorem partition_append {sep : CodePoint} {s t : Text} (h : sep ∉ s) :
    partition sep (s ++ sep :: t) = (s, true, t) := by
  induction s with
  | nil => rw [List.nil_append, partition, if_pos rfl]
  | cons c rest ih =>
    rw [List.mem_cons, not_or] at h
    rw [List.cons_append, partition, if_neg (Ne.symm h.1), ih h.2]

/-- A separator that occurs splits the text in two. -/
theorem partition_of_mem {sep : CodePoint} {s : Text} (h : sep ∈ s) :
    s = (partition sep s).1 ++ sep :: (partition sep s).2.2 := by
  obtain ⟨before, after, rfl, hbefore⟩ := List.eq_append_cons_of_mem h
  rw [partition_append hbefore]

theorem partition_eq_append {sep : CodePoint} {s head tail : Text} (h : partition sep s = (head, true, tail)) :
    s = head ++ sep :: tail := by
  by_cases hm : sep ∈ s
  · have hsplit := partition_of_mem hm
    rwa [h] at hsplit
  · rw [partition_of_not_mem hm] at h
    cases h

/-- A head that holds no separator goes into the first part. -/
theorem mem_partition_fst {sep c : CodePoint} {s t : Text} (hs : sep ∉ s) (hc : c ∈ s) :
    c ∈ (partition sep (s ++ t)).1 := by
  by_cases hm : sep ∈ t
  · obtain ⟨before, after, rfl, hbefore⟩ := List.eq_append_cons_of_mem hm
    rw [← List.append_assoc, partition_append (by simp [hs, hbefore])]
    exact List.mem_append_left before hc
  · rw [partition_of_not_mem (by simp [hs, hm])]
    exact List.mem_append_left t hc

/-- Only a separator is lost in a partition. -/
theorem mem_partition {sep c : CodePoint} {s : Text} (hc : c ∈ s) (hne : c ≠ sep) :
    c ∈ (partition sep s).1 ++ (partition sep s).2.2 := by
  by_cases hm : sep ∈ s
  · rw [partition_of_mem hm] at hc
    simpa [hne] using hc
  · rw [partition_of_not_mem hm, List.append_nil]
    exact hc

/-- The decimal numeral of a natural number. -/
def decimal (n : Nat) : Text :=
  if n = 0 then txt "0" else (Nat.digits 10 n).reverse.map (fun d => Fin.ofNat _ (0x30 + d))

def hexDigit (d : Nat) : CodePoint := Fin.ofNat _ (if d < 10 then 0x30 + d else 0x57 + d)

/-- `v` in lowercase hexadecimal, `width` digits. -/
def hex (width v : Nat) : Text := match width with
  | 0 => []
  | width + 1 => hex width (v / 16) ++ [hexDigit (v % 16)]

/-! ### Fields closed by a separator -/

section Separated

variable {α : Type} {z : α}

/-- One of two readings stops first, unless they stop together. -/
theorem append_cons_cases {a b x y : List α} (h : a ++ z :: x = b ++ z :: y) :
    (a = b ∧ x = y) ∨ (∃ c, b = a ++ z :: c ∧ x = c ++ z :: y) ∨ ∃ c, a = b ++ z :: c ∧ y = c ++ z :: x := by
  rcases List.append_eq_append_iff.mp h with ⟨c, hb, hx⟩ | ⟨c, ha, hy⟩
  · cases c with
    | nil =>
      rw [List.append_nil] at hb
      rw [List.nil_append, List.cons.injEq] at hx
      exact .inl ⟨hb.symm, hx.2⟩
    | cons d c =>
      rw [List.cons_append, List.cons.injEq] at hx
      obtain ⟨rfl, hx⟩ := hx
      exact .inr (.inl ⟨c, hb, hx⟩)
  · cases c with
    | nil =>
      rw [List.append_nil] at ha
      rw [List.nil_append, List.cons.injEq] at hy
      exact .inl ⟨ha, hy.2.symm⟩
    | cons d c =>
      rw [List.cons_append, List.cons.injEq] at hy
      obtain ⟨rfl, hy⟩ := hy
      exact .inr (.inr ⟨c, ha, hy⟩)

/-- A field without the separator ends where the first one stands. -/
theorem append_cons_of_not_mem {a b x y : List α} (ha : z ∉ a) (h : a ++ z :: x = b ++ z :: y) :
    (a = b ∧ x = y) ∨ ∃ c, b = a ++ z :: c ∧ x = c ++ z :: y := by
  rcases append_cons_cases h with h | h | ⟨c, rfl, _⟩
  · exact .inl h
  · exact .inr h
  · exact absurd (by simp) ha

theorem append_cons_inj {a b x y : List α} (ha : z ∉ a) (hb : z ∉ b) (h : a ++ z :: x = b ++ z :: y) :
    a = b ∧ x = y := by
  rcases append_cons_of_not_mem ha h with h | ⟨c, rfl, _⟩
  · exact h
  · exact absurd (by simp) hb

end Separated

end PyText
