import AitpVerifier.Text

/-!
# JSON texts

The grammar of RFC 8259, with the white space of a value counted to the value. A
reading that follows the quotes alone tells its texts from ones that hold a constant
such as `NaN`: no capital `I` or `N` stands outside a string.
-/
namespace JsonGrammar

open PyText

/-! ### The grammar -/

def Space (t : Text) : Prop := ∀ c ∈ t, c = 0x20 ∨ c = 0x09 ∨ c = 0x0A ∨ c = 0x0D

def IsDigit (c : CodePoint) : Prop := 0x30 ≤ c.val ∧ c.val ≤ 0x39

def Digits (t : Text) : Prop := t ≠ [] ∧ ∀ c ∈ t, IsDigit c

theorem zeros_digits {n : Nat} {c : CodePoint} (h : c ∈ List.replicate n (0x30 : CodePoint)) : IsDigit c := by
  rw [List.eq_of_mem_replicate h]
  exact ⟨by decide, by decide⟩

theorem digits_append {s t : Text} (hs : Digits s) (ht : ∀ c ∈ t, IsDigit c) : Digits (s ++ t) := by
  refine ⟨List.append_ne_nil_of_left_ne_nil hs.1 t, fun c hc => ?_⟩
  rcases List.mem_append.mp hc with hc | hc
  · exact hs.2 c hc
  · exact ht c hc

theorem zeros_append_digits {s : Text} (hs : Digits s) (k : Nat) : Digits (List.replicate k 0x30 ++ s) := by
  refine ⟨List.append_ne_nil_of_right_ne_nil _ hs.1, fun c hc => ?_⟩
  rcases List.mem_append.mp hc with hc | hc
  · exact zeros_digits hc
  · exact hs.2 c hc

theorem digits_take {s : Text} (hs : Digits s) {i : Nat} (hi : 0 < i) : Digits (s.take i) := by
  refine ⟨?_, fun c hc => hs.2 c (List.mem_of_mem_take hc)⟩
  rw [ne_eq, List.take_eq_nil_iff, not_or]
  exact ⟨hi.ne', hs.1⟩

theorem digits_drop {s : Text} (hs : Digits s) {i : Nat} (hi : i < s.length) : Digits (s.drop i) := by
  refine ⟨?_, fun c hc => hs.2 c (List.mem_of_mem_drop hc)⟩
  rw [ne_eq, List.drop_eq_nil_iff]
  omega

/-- One zero, or digits that do not start with zero. -/
def Whole (t : Text) : Prop := t = [0x30] ∨ Digits t ∧ t.head? ≠ some 0x30

inductive Fraction : Text → Prop
  | absent : Fraction []
  | point {digits} : Digits digits → Fraction (0x2E :: digits)

inductive Exponent : Text → Prop
  | absent : Exponent []
  | mark {e sign digits} : e = 0x65 ∨ e = 0x45 → sign = [] ∨ sign = [0x2B] ∨ sign = [0x2D] → Digits digits →
      Exponent (e :: (sign ++ digits))

inductive Number : Text → Prop
  | make {sign whole fraction exponent} : sign = [] ∨ sign = [0x2D] → Whole whole → Fraction fraction →
      Exponent exponent → Number (sign ++ whole ++ fraction ++ exponent)

def IsHexDigit (c : CodePoint) : Prop :=
  IsDigit c ∨ 0x61 ≤ c.val ∧ c.val ≤ 0x66 ∨ 0x41 ≤ c.val ∧ c.val ≤ 0x46

/-- The letters a backslash may precede, `u` apart. -/
def escapeLetters : Text := [0x22, 0x5C, 0x2F, 0x62, 0x66, 0x6E, 0x72, 0x74]

/-- A character of a string as it is written. -/
inductive Piece : Text → Prop
  | plain {c} : 0x20 ≤ c.val → c ≠ 0x22 → c ≠ 0x5C → Piece [c]
  | escape {c} : c ∈ escapeLetters → Piece [0x5C, c]
  | unicode {a b c d} : IsHexDigit a → IsHexDigit b → IsHexDigit c → IsHexDigit d → Piece [0x5C, 0x75, a, b, c, d]

def Quoted (t : Text) : Prop := ∃ pieces : List Text, (∀ p ∈ pieces, Piece p) ∧ t = [0x22] ++ pieces.flatten ++ [0x22]

/-- What may stand in a string. -/
def Pieces (t : Text) : Prop := ∃ pieces : List Text, (∀ p ∈ pieces, Piece p) ∧ t = pieces.flatten

theorem pieces_nil : Pieces [] := ⟨[], nofun, rfl⟩

theorem Piece.pieces {t : Text} (h : Piece t) : Pieces t := ⟨[t], List.forall_mem_singleton.mpr h, List.flatten_singleton.symm⟩

theorem Pieces.append {s t : Text} (hs : Pieces s) (ht : Pieces t) : Pieces (s ++ t) := by
  obtain ⟨first, hfirst, rfl⟩ := hs
  obtain ⟨rest, hrest, rfl⟩ := ht
  exact ⟨first ++ rest, List.forall_mem_append.mpr ⟨hfirst, hrest⟩, List.flatten_append.symm⟩

theorem Pieces.quoted {t : Text} (h : Pieces t) : Quoted ([0x22] ++ t ++ [0x22]) := by
  obtain ⟨pieces, hpieces, rfl⟩ := h
  exact ⟨pieces, hpieces, rfl⟩


/-- A member's name, in its white space. -/
def Name (t : Text) : Prop := ∃ before name after, Space before ∧ Quoted name ∧ Space after ∧ t = before ++ name ++ after

theorem Quoted.name {t : Text} (h : Quoted t) : Name t := ⟨[], t, [], nofun, h, nofun, by simp⟩

/-- Parts with commas between them. -/
def commas (parts : List Text) : Text := List.intercalate [0x2C] parts

/-- A JSON text: a value and the white space around it. -/
inductive Element : Text → Prop
  | null : Element (txt "null")
  | true : Element (txt "true")
  | false : Element (txt "false")
  | number {t} : Number t → Element t
  | string {t} : Quoted t → Element t
  | emptyArray {s} : Space s → Element ([0x5B] ++ s ++ [0x5D])
  | array {items : List Text} : items ≠ [] → (∀ item ∈ items, Element item) → Element ([0x5B] ++ commas items ++ [0x5D])
  | emptyObject {s} : Space s → Element ([0x7B] ++ s ++ [0x7D])
  | object {members : List (Text × Text)} : members ≠ [] → (∀ m ∈ members, Name m.1) → (∀ m ∈ members, Element m.2) →
      Element ([0x7B] ++ commas (members.map fun m => m.1 ++ [0x3A] ++ m.2) ++ [0x7D])
  | pad {before t after} : Space before → Element t → Space after → Element (before ++ t ++ after)

/-! ### Following the quotes -/

/-- Where a reading stands that knows strings and escapes only. -/
inductive Mode where
  | outside | inside | escaped
  deriving DecidableEq

/-- One more character; a capital `I` or `N` outside strings ends the reading. -/
def Mode.next : Mode → CodePoint → Option Mode
  | .outside, c => if c = 0x22 then some .inside else if c = 0x49 ∨ c = 0x4E then none else some .outside
  | .inside, c => if c = 0x22 then some .outside else if c = 0x5C then some .escaped else some .inside
  | .escaped, _ => some .inside

def Mode.read : Mode → Text → Option Mode
  | mode, [] => some mode
  | mode, c :: rest =>
    match mode.next c with
    | none => none
    | some following => following.read rest

/-- Read to its end, outside every string. -/
def Quiet (t : Text) : Prop := Mode.outside.read t = some .outside

/-- Stopped at a capital `I` or `N` outside every string. -/
def Loud (t : Text) : Prop := Mode.outside.read t = none

theorem Quiet.not_loud {t : Text} (h : Quiet t) : ¬ Loud t := by
  intro hl
  rw [Loud, h] at hl
  cases hl

theorem Mode.read_append (mode : Mode) (s t : Text) :
    mode.read (s ++ t) = (mode.read s).bind fun following => following.read t := by
  induction s generalizing mode with
  | nil => rfl
  | cons c rest ih =>
    rw [List.cons_append, Mode.read, Mode.read]
    cases mode.next c with
    | none => rfl
    | some following => exact ih following

theorem quiet_nil : Quiet [] := rfl

theorem Quiet.append {s t : Text} (hs : Quiet s) (ht : Quiet t) : Quiet (s ++ t) := by
  rw [Quiet, Mode.read_append, hs]
  exact ht

theorem Loud.append_right {s : Text} (hs : Loud s) (t : Text) : Loud (s ++ t) := by
  rw [Loud, Mode.read_append, hs]
  rfl

theorem Quiet.append_loud {s t : Text} (hs : Quiet s) (ht : Loud t) : Loud (s ++ t) := by
  rw [Loud, Mode.read_append, hs]
  exact ht

/-- Neither a quote nor a capital `I` or `N`. -/
def Inert (c : CodePoint) : Prop := c ≠ 0x22 ∧ c ≠ 0x49 ∧ c ≠ 0x4E

instance (c : CodePoint) : Decidable (Inert c) := inferInstanceAs (Decidable (_ ∧ _ ∧ _))

theorem quiet_of_inert {t : Text} (h : ∀ c ∈ t, Inert c) : Quiet t := by
  induction t with
  | nil => exact quiet_nil
  | cons c rest ih =>
    obtain ⟨hquote, hI, hN⟩ := h c List.mem_cons_self
    have hnext : Mode.outside.next c = some .outside := by
      rw [Mode.next, if_neg hquote, if_neg (not_or.mpr ⟨hI, hN⟩)]
    rw [Quiet, Mode.read, hnext]
    exact ih fun d hd => h d (List.mem_cons_of_mem c hd)

theorem inert_of_digit {c : CodePoint} (h : IsDigit c) : Inert c := by
  obtain ⟨hl, hu⟩ := h
  refine ⟨?_, ?_, ?_⟩
  · rintro rfl
    exact absurd hl (by decide)
  · rintro rfl
    exact absurd hu (by decide)
  · rintro rfl
    exact absurd hu (by decide)

theorem Space.quiet {t : Text} (h : Space t) : Quiet t := by
  apply quiet_of_inert
  intro c hc
  rcases h c hc with rfl | rfl | rfl | rfl <;> decide

/-- What a number is written with beside digits. -/
def numberMarks : Text := [0x2D, 0x2B, 0x2E, 0x65, 0x45]

theorem Number.mem {t : Text} (h : Number t) {c : CodePoint} (hc : c ∈ t) : IsDigit c ∨ c ∈ numberMarks := by
  cases h with
  | @make sign whole fraction exponent hsign hwhole hfraction hexponent =>
    simp only [List.mem_append, or_assoc] at hc
    rcases hc with hc | hc | hc | hc
    · rcases hsign with rfl | rfl
      · cases hc
      · rw [List.mem_singleton.mp hc]
        exact .inr (by decide)
    · rcases hwhole with rfl | ⟨hdigits, _⟩
      · rw [List.mem_singleton.mp hc]
        exact .inl ⟨by decide, by decide⟩
      · exact .inl (hdigits.2 c hc)
    · cases hfraction with
      | absent => cases hc
      | point hdigits =>
        rcases List.mem_cons.mp hc with rfl | hc
        · exact .inr (by decide)
        · exact .inl (hdigits.2 c hc)
    · cases hexponent with
      | absent => cases hc
      | mark he hs hdigits =>
        rcases List.mem_cons.mp hc with rfl | hc
        · rcases he with rfl | rfl <;> exact .inr (by decide)
        · rcases List.mem_append.mp hc with hc | hc
          · rcases hs with rfl | rfl | rfl
            · cases hc
            · rw [List.mem_singleton.mp hc]
              exact .inr (by decide)
            · rw [List.mem_singleton.mp hc]
              exact .inr (by decide)
          · exact .inl (hdigits.2 c hc)

theorem Number.inert {t : Text} (h : Number t) : ∀ c ∈ t, Inert c := by
  intro c hc
  rcases h.mem hc with hdigit | hmark
  · exact inert_of_digit hdigit
  · simp only [numberMarks, List.mem_cons, List.not_mem_nil, or_false] at hmark
    rcases hmark with rfl | rfl | rfl | rfl | rfl <;> decide

/-- A hexadecimal digit neither closes a string nor opens an escape. -/
theorem IsHexDigit.next {c : CodePoint} (h : IsHexDigit c) : Mode.inside.next c = some .inside := by
  have hquote : c ≠ 0x22 := by
    rintro rfl
    exact absurd h (by simp [IsHexDigit, IsDigit])
  have hslash : c ≠ 0x5C := by
    rintro rfl
    exact absurd h (by simp [IsHexDigit, IsDigit])
  rw [Mode.next, if_neg hquote, if_neg hslash]

theorem Piece.inside {p : Text} (h : Piece p) : Mode.inside.read p = some .inside := by
  cases h with
  | plain hc hquote hslash => simp only [Mode.read, Mode.next, if_neg hquote, if_neg hslash]
  | escape hc => rfl
  | @unicode a b c d ha hb hc hd =>
    have hu : Mode.inside.read [0x5C, 0x75] = some .inside := rfl
    change Mode.inside.read ([0x5C, 0x75] ++ [a, b, c, d]) = some .inside
    rw [Mode.read_append, hu]
    simp only [Option.bind_some, Mode.read, ha.next, hb.next, hc.next, hd.next]

theorem read_pieces {pieces : List Text} (h : ∀ p ∈ pieces, Piece p) :
    Mode.inside.read pieces.flatten = some .inside := by
  induction pieces with
  | nil => rfl
  | cons p rest ih =>
    rw [List.flatten_cons, Mode.read_append, (h p List.mem_cons_self).inside]
    exact ih fun q hq => h q (List.mem_cons_of_mem p hq)

theorem Quoted.quiet {t : Text} (h : Quoted t) : Quiet t := by
  obtain ⟨pieces, hpieces, rfl⟩ := h
  have hopen : Mode.outside.read [0x22] = some .inside := rfl
  rw [Quiet, List.append_assoc, Mode.read_append, hopen, Option.bind_some, Mode.read_append, read_pieces hpieces]
  rfl

theorem Name.quiet {t : Text} (h : Name t) : Quiet t := by
  obtain ⟨before, name, after, hb, hn, ha, rfl⟩ := h
  exact (hb.quiet.append hn.quiet).append ha.quiet

theorem commas_cons (part next : Text) (rest : List Text) :
    commas (part :: next :: rest) = part ++ ([0x2C] ++ commas (next :: rest)) := by
  simp [commas, List.intercalate]

theorem commas_singleton (part : Text) : commas [part] = part := by simp [commas, List.intercalate]

/-- Parts that each are a member make an object, none the empty one. -/
theorem object_element {parts : List Text} (h : ∀ p ∈ parts, ∃ name text, Name name ∧ Element text ∧ p = name ++ [0x3A] ++ text) :
    Element ([0x7B] ++ commas parts ++ [0x7D]) := by
  have hmembers : ∃ members : List (Text × Text), (∀ m ∈ members, Name m.1 ∧ Element m.2) ∧
      parts = members.map fun m => m.1 ++ [0x3A] ++ m.2 := by
    induction parts with
    | nil => exact ⟨[], nofun, rfl⟩
    | cons part rest ih =>
      obtain ⟨name, text, hname, htext, rfl⟩ := h part List.mem_cons_self
      obtain ⟨members, hmembers, rfl⟩ := ih fun p hp => h p (List.mem_cons_of_mem _ hp)
      exact ⟨(name, text) :: members, List.forall_mem_cons.mpr ⟨⟨hname, htext⟩, hmembers⟩, rfl⟩
  obtain ⟨members, hmembers, rfl⟩ := hmembers
  cases members with
  | nil => exact @Element.emptyObject [] nofun
  | cons m rest => exact .object (List.cons_ne_nil m rest) (fun m hm => (hmembers m hm).1) fun m hm => (hmembers m hm).2

theorem array_element {parts : List Text} (h : ∀ p ∈ parts, Element p) : Element ([0x5B] ++ commas parts ++ [0x5D]) := by
  cases parts with
  | nil => exact @Element.emptyArray [] nofun
  | cons part rest => exact .array (List.cons_ne_nil part rest) h

theorem quiet_comma : Quiet [0x2C] := rfl

theorem quiet_commas {parts : List Text} (h : ∀ p ∈ parts, Quiet p) : Quiet (commas parts) := by
  induction parts with
  | nil => exact quiet_nil
  | cons part rest ih =>
    have hpart := h part List.mem_cons_self
    cases rest with
    | nil =>
      rw [commas_singleton]
      exact hpart
    | cons next rest =>
      rw [commas_cons]
      exact hpart.append (quiet_comma.append (ih fun p hp => h p (List.mem_cons_of_mem part hp)))

/-- One loud part among quiet ones is heard. -/
theorem loud_commas {parts : List Text} (h : ∀ p ∈ parts, Quiet p ∨ Loud p) (hloud : ∃ p ∈ parts, Loud p) :
    Loud (commas parts) := by
  induction parts with
  | nil =>
    obtain ⟨p, hp, _⟩ := hloud
    cases hp
  | cons part rest ih =>
    rcases h part List.mem_cons_self with hpart | hpart
    · obtain ⟨p, hp, hl⟩ := hloud
      rcases List.mem_cons.mp hp with rfl | hp
      · exact absurd hl hpart.not_loud
      · have hrest := ih (fun q hq => h q (List.mem_cons_of_mem part hq)) ⟨p, hp, hl⟩
        cases rest with
        | nil => cases hp
        | cons next rest =>
          rw [commas_cons]
          exact hpart.append_loud (quiet_comma.append_loud hrest)
    · cases rest with
      | nil =>
        rw [commas_singleton]
        exact hpart
      | cons next rest =>
        rw [commas_cons]
        exact hpart.append_right _

/-- No JSON text holds a capital `I` or `N` outside its strings. -/
theorem Element.quiet {t : Text} (h : Element t) : Quiet t := by
  induction h with
  | null | true | false =>
    unfold Quiet
    decide +kernel
  | number hn => exact quiet_of_inert hn.inert
  | string hs => exact hs.quiet
  | emptyArray hs | emptyObject hs => exact Quiet.append (Quiet.append rfl hs.quiet) rfl
  | array _ _ ih => exact Quiet.append (Quiet.append rfl (quiet_commas ih)) rfl
  | object _ hnames _ ih =>
    refine Quiet.append (Quiet.append rfl (quiet_commas fun p hp => ?_)) rfl
    obtain ⟨m, hm, rfl⟩ := List.mem_map.mp hp
    have hcolon : Quiet [0x3A] := rfl
    exact ((hnames m hm).quiet.append hcolon).append (ih m hm)
  | pad hb _ ha ih => exact (hb.quiet.append ih).append ha.quiet

/-! ### One line -/

/-- No control character, the end of a line among them. -/
def Printed (t : Text) : Prop := ∀ c ∈ t, 0x20 ≤ c.val

instance (t : Text) : Decidable (Printed t) := List.decidableBAll _ t

theorem Printed.append {s t : Text} (hs : Printed s) (ht : Printed t) : Printed (s ++ t) := List.forall_mem_append.mpr ⟨hs, ht⟩

theorem IsDigit.printed {c : CodePoint} (h : IsDigit c) : 0x20 ≤ c.val := Nat.le_trans (by decide) h.1

theorem IsHexDigit.printed {c : CodePoint} (h : IsHexDigit c) : 0x20 ≤ c.val := by
  rcases h with h | h | h
  · exact h.printed
  · exact Nat.le_trans (by decide) h.1
  · exact Nat.le_trans (by decide) h.1

theorem Number.printed {t : Text} (h : Number t) : Printed t := by
  intro c hc
  have hmarks : Printed numberMarks := by decide
  exact (h.mem hc).elim IsDigit.printed (hmarks c)

theorem Piece.printed {p : Text} (h : Piece p) : Printed p := by
  have hslash : 0x20 ≤ (0x5C : CodePoint).val ∧ 0x20 ≤ (0x75 : CodePoint).val := by decide
  cases h with
  | plain hc _ _ => exact List.forall_mem_singleton.mpr hc
  | escape hc =>
    have hletters : Printed escapeLetters := by decide
    exact List.forall_mem_cons.mpr ⟨hslash.1, List.forall_mem_singleton.mpr (hletters _ hc)⟩
  | unicode ha hb hc hd =>
    simp only [Printed, List.forall_mem_cons, List.not_mem_nil, false_imp_iff, implies_true, and_true]
    exact ⟨hslash.1, hslash.2, ha.printed, hb.printed, hc.printed, hd.printed⟩

theorem Quoted.printed {t : Text} (h : Quoted t) : Printed t := by
  obtain ⟨pieces, hpieces, rfl⟩ := h
  have hquote : Printed [0x22] := by decide
  refine (hquote.append fun c hc => ?_).append hquote
  obtain ⟨p, hp, hc⟩ := List.mem_flatten.mp hc
  exact (hpieces p hp).printed c hc

theorem printed_commas {parts : List Text} (h : ∀ p ∈ parts, Printed p) : Printed (commas parts) := by
  induction parts with
  | nil => exact nofun
  | cons part rest ih =>
    have hpart := h part List.mem_cons_self
    cases rest with
    | nil =>
      rw [commas_singleton]
      exact hpart
    | cons next rest =>
      rw [commas_cons]
      have hcomma : Printed [0x2C] := by decide
      exact hpart.append (hcomma.append (ih fun p hp => h p (List.mem_cons_of_mem part hp)))

end JsonGrammar
