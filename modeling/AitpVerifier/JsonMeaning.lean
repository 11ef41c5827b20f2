import AitpVerifier.JsonDumps
import AitpVerifier.ReadBack

/-!
# What a JSON text means

The grammar again, each text with the value it stands for. A number with a fraction or an
exponent stands for the double nearest to it; two escapes that are the halves of a
surrogate pair stand for one character.
-/
namespace AitpVerifier.Json

open PyText Checked JsonGrammar

/-! ### Numbers -/

def minus (negative : Bool) : Text := if negative then [0x2D] else []

/-- A magnitude with its sign. -/
def signed (negative : Bool) (n : Nat) : Int := if negative then -(n : Int) else n

inductive FractionMeans : Text → Text → Prop
  | absent : FractionMeans [] []
  | point {digits} : Digits digits → FractionMeans (0x2E :: digits) digits

inductive ExponentMeans : Text → Int → Prop
  | absent : ExponentMeans [] 0
  | mark {e sign digits} : e = 0x65 ∨ e = 0x45 → sign = [] ∨ sign = [0x2B] ∨ sign = [0x2D] → Digits digits →
      ExponentMeans (e :: (sign ++ digits)) (signed (sign == [0x2D]) (digitsValue digits))

inductive NumberMeans : Text → JsonValue → Prop
  | int {negative whole} : Whole whole → NumberMeans (minus negative ++ whole) (.int (signed negative (digitsValue whole)))
  | float {negative whole fraction digits exponent power} : Whole whole → FractionMeans fraction digits →
      ExponentMeans exponent power → fraction ++ exponent ≠ [] → NumberMeans (minus negative ++ whole ++ fraction ++ exponent)
        (.float (.ofDecimal negative (digitsValue (whole ++ digits)) (power - digits.length)))

/-! ### Strings -/

/-- The letters a backslash may precede, and what each then stands for. -/
def escapes : List (CodePoint × CodePoint) :=
  [(0x22, 0x22), (0x5C, 0x5C), (0x2F, 0x2F), (0x62, 0x08), (0x66, 0x0C), (0x6E, 0x0A), (0x72, 0x0D), (0x74, 0x09)]

inductive HexMeans : CodePoint → Nat → Prop
  | digit {c} : 0x30 ≤ c.val → c.val ≤ 0x39 → HexMeans c (c.val - 0x30)
  | lower {c} : 0x61 ≤ c.val → c.val ≤ 0x66 → HexMeans c (c.val - 0x61 + 10)
  | upper {c} : 0x41 ≤ c.val → c.val ≤ 0x46 → HexMeans c (c.val - 0x41 + 10)

/-- Four hexadecimal digits after `\u`. -/
inductive UnitMeans : Text → Nat → Prop
  | make {a b c d va vb vc vd} : HexMeans a va → HexMeans b vb → HexMeans c vc → HexMeans d vd →
      UnitMeans [0x5C, 0x75, a, b, c, d] (va * 0x1000 + vb * 0x100 + vc * 0x10 + vd)

def High (unit : Nat) : Prop := 0xD800 ≤ unit ∧ unit < 0xDC00

def Low (unit : Nat) : Prop := 0xDC00 ≤ unit ∧ unit < 0xE000

instance (unit : Nat) : Decidable (High unit) := inferInstanceAs (Decidable (_ ∧ _))

instance (unit : Nat) : Decidable (Low unit) := inferInstanceAs (Decidable (_ ∧ _))

/-- The escape of a low surrogate stands at the start. -/
def OpensLow (t : Text) : Prop := ∃ escape unit rest, UnitMeans escape unit ∧ Low unit ∧ t = escape ++ rest

/-- The inside of a string, and the characters it stands for. -/
inductive StringMeans : Text → Text → Prop
  | nil : StringMeans [] []
  | plain {c t s} : 0x20 ≤ c.val → c ≠ 0x22 → c ≠ 0x5C → StringMeans t s → StringMeans (c :: t) (c :: s)
  | escape {e c t s} : (e, c) ∈ escapes → StringMeans t s → StringMeans (0x5C :: e :: t) (c :: s)
  | unit {escape unit t s} : UnitMeans escape unit → ¬ (High unit ∧ OpensLow t) → StringMeans t s →
      StringMeans (escape ++ t) (Fin.ofNat _ unit :: s)
  | pair {escape escape' high low t s} : UnitMeans escape high → High high → UnitMeans escape' low → Low low →
      StringMeans t s → StringMeans (escape ++ (escape' ++ t)) (Fin.ofNat _ (0x10000 + (high - 0xD800) * 0x400 + (low - 0xDC00)) :: s)

def QuotedMeans (t s : Text) : Prop := ∃ inside, StringMeans inside s ∧ t = [0x22] ++ inside ++ [0x22]

/-- A member's name in its white space, and what it names. -/
def NameMeans (t name : Text) : Prop :=
  ∃ before quoted after, Space before ∧ QuotedMeans quoted name ∧ Space after ∧ t = before ++ quoted ++ after

/-! ### Values -/

/-- A member as it is written and as it is read. -/
structure Entry where
  nameText : Text
  name : Text
  valueText : Text
  value : JsonValue

def Entry.text (entry : Entry) : Text := entry.nameText ++ [0x3A] ++ entry.valueText

def Entry.member (entry : Entry) : Text × JsonValue := (entry.name, entry.value)

/-- A JSON text and its value. -/
inductive Means : Text → JsonValue → Prop
  | null : Means (txt "null") .null
  | true : Means (txt "true") (.bool true)
  | false : Means (txt "false") (.bool false)
  | number {t v} : NumberMeans t v → Means t v
  | string {t s} : QuotedMeans t s → Means t (.str s)
  | emptyArray {s} : Space s → Means ([0x5B] ++ s ++ [0x5D]) (.list [])
  | array {items : List (Text × JsonValue)} : items ≠ [] → (∀ item ∈ items, Means item.1 item.2) →
      Means ([0x5B] ++ commas (items.map Prod.fst) ++ [0x5D]) (.list (items.map Prod.snd))
  | emptyObject {s} : Space s → Means ([0x7B] ++ s ++ [0x7D]) (.dict [])
  | object {entries : List Entry} : entries ≠ [] → (∀ entry ∈ entries, NameMeans entry.nameText entry.name) →
      (∀ entry ∈ entries, Means entry.valueText entry.value) →
      Means ([0x7B] ++ commas (entries.map Entry.text) ++ [0x7D]) (.dict (entries.map Entry.member))
  | pad {before t after v} : Space before → Means t v → Space after → Means (before ++ t ++ after) v

/-- Items in brackets are an array, none of them the empty one. -/
theorem array_means {items : List (Text × JsonValue)} (h : ∀ item ∈ items, Means item.1 item.2) :
    Means ([0x5B] ++ commas (items.map Prod.fst) ++ [0x5D]) (.list (items.map Prod.snd)) := by
  cases items with
  | nil => exact @Means.emptyArray [] nofun
  | cons item items => exact .array (List.cons_ne_nil _ _) h

/-- Members in braces are an object, none of them the empty one. -/
theorem object_means {entries : List Entry} (hnames : ∀ entry ∈ entries, NameMeans entry.nameText entry.name)
    (hvalues : ∀ entry ∈ entries, Means entry.valueText entry.value) :
    Means ([0x7B] ++ commas (entries.map Entry.text) ++ [0x7D]) (.dict (entries.map Entry.member)) := by
  cases entries with
  | nil => exact @Means.emptyObject [] nofun
  | cons entry entries => exact .object (List.cons_ne_nil _ _) hnames hvalues

theorem QuotedMeans.name {t name : Text} (h : QuotedMeans t name) : NameMeans t name := ⟨[], t, [], nofun, h, nofun, by simp⟩

/-! ### The grammar -/

theorem FractionMeans.fraction {t digits : Text} (h : FractionMeans t digits) : Fraction t := by
  cases h with
  | absent => exact .absent
  | point hd => exact .point hd

theorem ExponentMeans.exponent {t : Text} {power : Int} (h : ExponentMeans t power) : Exponent t := by
  cases h with
  | absent => exact .absent
  | mark he hs hd => exact .mark he hs hd

theorem minus_cases (negative : Bool) : minus negative = [] ∨ minus negative = [0x2D] := by
  cases negative
  · exact .inl rfl
  · exact .inr rfl

theorem NumberMeans.number {t : Text} {v : JsonValue} (h : NumberMeans t v) : Number t := by
  cases h with
  | @int negative whole hw =>
    have hnumber := Number.make (minus_cases negative) hw .absent .absent
    rwa [List.append_nil, List.append_nil] at hnumber
  | float hw hf he _ => exact .make (minus_cases _) hw hf.fraction he.exponent

theorem Number.means {t : Text} (h : Number t) : ∃ v, NumberMeans t v := by
  cases h with
  | @make sign whole fraction exponent hsign hw hf he =>
    obtain ⟨negative, rfl⟩ : ∃ negative, minus negative = sign := by
      rcases hsign with rfl | rfl
      · exact ⟨false, rfl⟩
      · exact ⟨true, rfl⟩
    obtain ⟨digits, hdigits⟩ : ∃ digits, FractionMeans fraction digits := by
      cases hf with
      | absent => exact ⟨_, .absent⟩
      | point hd => exact ⟨_, .point hd⟩
    obtain ⟨power, hpower⟩ : ∃ power, ExponentMeans exponent power := by
      cases he with
      | absent => exact ⟨_, .absent⟩
      | mark hmark hs hd => exact ⟨_, .mark hmark hs hd⟩
    by_cases hnone : fraction ++ exponent = []
    · obtain ⟨rfl, rfl⟩ := List.append_eq_nil_iff.mp hnone
      rw [List.append_nil, List.append_nil]
      exact ⟨_, .int hw⟩
    · exact ⟨_, .float hw hdigits hpower hnone⟩

theorem escapes_letters : escapes.map Prod.fst = escapeLetters := rfl

theorem HexMeans.isHexDigit {c : CodePoint} {n : Nat} (h : HexMeans c n) : IsHexDigit c := by
  cases h with
  | digit hl hu => exact .inl ⟨hl, hu⟩
  | lower hl hu => exact .inr (.inl ⟨hl, hu⟩)
  | upper hl hu => exact .inr (.inr ⟨hl, hu⟩)

theorem IsHexDigit.means {c : CodePoint} (h : IsHexDigit c) : ∃ n, HexMeans c n := by
  rcases h with h | h | h
  · exact ⟨_, .digit h.1 h.2⟩
  · exact ⟨_, .lower h.1 h.2⟩
  · exact ⟨_, .upper h.1 h.2⟩

theorem UnitMeans.piece {t : Text} {unit : Nat} (h : UnitMeans t unit) : Piece t := by
  cases h with
  | make ha hb hc hd => exact .unicode ha.isHexDigit hb.isHexDigit hc.isHexDigit hd.isHexDigit

theorem StringMeans.pieces {t s : Text} (h : StringMeans t s) : Pieces t := by
  induction h with
  | nil => exact pieces_nil
  | plain hc hquote hslash _ ih => exact (Piece.plain hc hquote hslash).pieces.append ih
  | escape he _ ih =>
    have hletter := List.mem_map_of_mem (f := Prod.fst) he
    exact (Piece.escape hletter).pieces.append ih
  | unit hu _ _ ih => exact hu.piece.pieces.append ih
  | pair hh _ hl _ _ ih => exact hh.piece.pieces.append (hl.piece.pieces.append ih)

theorem QuotedMeans.quoted {t s : Text} (h : QuotedMeans t s) : Quoted t := by
  obtain ⟨inside, hinside, rfl⟩ := h
  exact hinside.pieces.quoted

theorem NameMeans.name {t name : Text} (h : NameMeans t name) : Name t := by
  obtain ⟨before, quoted, after, hb, hq, ha, rfl⟩ := h
  exact ⟨before, quoted, after, hb, hq.quoted, ha, rfl⟩

/-- A text that means something is in the grammar. -/
theorem Means.element {t : Text} {v : JsonValue} (h : Means t v) : Element t := by
  induction h with
  | null => exact .null
  | true => exact .true
  | false => exact .false
  | number hn => exact .number hn.number
  | string hs => exact .string hs.quoted
  | emptyArray hs => exact .emptyArray hs
  | emptyObject hs => exact .emptyObject hs
  | array _ _ ih =>
    refine array_element fun part hpart => ?_
    obtain ⟨item, hitem, rfl⟩ := List.mem_map.mp hpart
    exact ih item hitem
  | object _ hnames _ ih =>
    refine object_element fun part hpart => ?_
    obtain ⟨entry, hentry, rfl⟩ := List.mem_map.mp hpart
    exact ⟨_, _, (hnames entry hentry).name, ih entry hentry, rfl⟩
  | pad hb _ ha ih => exact .pad hb ih ha

/-! ### Every text of the grammar means something -/

theorem HexMeans.unique {c : CodePoint} {n n' : Nat} (h : HexMeans c n) (h' : HexMeans c n') : n = n' := by
  cases h <;> cases h' <;> omega

theorem UnitMeans.shape {t : Text} {unit : Nat} (h : UnitMeans t unit) : ∃ digits, t = 0x5C :: 0x75 :: digits ∧ digits.length = 4 := by
  cases h with
  | make => exact ⟨_, rfl, rfl⟩

/-- An escape is told from what follows it. -/
theorem UnitMeans.unique {t t' rest rest' : Text} {unit unit' : Nat} (h : UnitMeans t unit) (h' : UnitMeans t' unit')
    (heq : t ++ rest = t' ++ rest') : t = t' ∧ unit = unit' ∧ rest = rest' := by
  cases h with
  | make ha hb hc hd =>
    cases h' with
    | make ha' hb' hc' hd' =>
      simp only [List.cons_append, List.nil_append, List.cons.injEq, true_and] at heq
      obtain ⟨rfl, rfl, rfl, rfl, rfl⟩ := heq
      rw [ha.unique ha', hb.unique hb', hc.unique hc', hd.unique hd']
      exact ⟨rfl, rfl, rfl⟩

/-- What starts with an escape means that escape, alone or with the next. -/
theorem StringMeans.unit_cases {escape rest s : Text} {unit : Nat} (h : StringMeans (escape ++ rest) s)
    (hu : UnitMeans escape unit) : (∃ s', StringMeans rest s') ∨ High unit := by
  generalize htext : escape ++ rest = text at h
  obtain ⟨digits, hshape, _⟩ := hu.shape
  cases h with
  | nil =>
    rw [hshape] at htext
    cases htext
  | plain _ _ hslash _ =>
    rw [hshape] at htext
    exact absurd (List.cons.inj htext).1.symm hslash
  | @escape e c t s he _ =>
    rw [hshape] at htext
    obtain rfl := (List.cons.inj (List.cons.inj htext).2).1
    have hletter := List.mem_map_of_mem (f := Prod.fst) he
    have hnot : (0x75 : CodePoint) ∉ escapeLetters := by decide
    exact absurd hletter hnot
  | unit hu' _ hrest =>
    obtain ⟨_, _, rfl⟩ := hu.unique hu' htext
    exact .inl ⟨_, hrest⟩
  | pair hh hhigh _ _ _ =>
    obtain ⟨_, rfl, _⟩ := hu.unique hh htext
    exact .inr hhigh

theorem pieces_means {pieces : List Text} (h : ∀ p ∈ pieces, Piece p) : ∃ s, StringMeans pieces.flatten s := by
  induction pieces with
  | nil => exact ⟨_, .nil⟩
  | cons p rest ih =>
    obtain ⟨s, hs⟩ := ih fun q hq => h q (List.mem_cons_of_mem p hq)
    rw [List.flatten_cons]
    cases h p List.mem_cons_self with
    | plain hc hquote hslash => exact ⟨_, .plain hc hquote hslash hs⟩
    | escape hc =>
      rw [← escapes_letters] at hc
      obtain ⟨⟨e, c⟩, he, rfl⟩ := List.mem_map.mp hc
      exact ⟨_, .escape he hs⟩
    | unicode ha hb hc hd =>
      obtain ⟨va, ha⟩ := IsHexDigit.means ha
      obtain ⟨vb, hb⟩ := IsHexDigit.means hb
      obtain ⟨vc, hc⟩ := IsHexDigit.means hc
      obtain ⟨vd, hd⟩ := IsHexDigit.means hd
      have hu := UnitMeans.make ha hb hc hd
      by_cases hpair : High (va * 0x1000 + vb * 0x100 + vc * 0x10 + vd) ∧ OpensLow rest.flatten
      · obtain ⟨hhigh, escape, unit, more, hl, hlow, hmore⟩ := hpair
        rw [hmore] at hs ⊢
        rcases hs.unit_cases hl with ⟨s', hs'⟩ | hhigh'
        · exact ⟨_, .pair hu hhigh hl hlow hs'⟩
        · exact absurd hlow.1 (Nat.not_le.mpr hhigh'.2)
      · exact ⟨_, .unit hu hpair hs⟩

theorem Quoted.means {t : Text} (h : Quoted t) : ∃ s, QuotedMeans t s := by
  obtain ⟨pieces, hpieces, rfl⟩ := h
  obtain ⟨s, hs⟩ := pieces_means hpieces
  exact ⟨s, _, hs, rfl⟩

theorem Name.means {t : Text} (h : Name t) : ∃ name, NameMeans t name := by
  obtain ⟨before, quoted, after, hb, hq, ha, rfl⟩ := h
  obtain ⟨s, hs⟩ := Quoted.means hq
  exact ⟨s, before, quoted, after, hb, hs, ha, rfl⟩

/-- What holds of every part with some choice, holds with one choice of all. -/
theorem exists_choices {α β γ : Type} (read : β → α) {related : β → Prop} {parts : List γ} (text : γ → α)
    (h : ∀ part ∈ parts, ∃ b, read b = text part ∧ related b) :
    ∃ bs : List β, bs.map read = parts.map text ∧ ∀ b ∈ bs, related b := by
  induction parts with
  | nil => exact ⟨[], rfl, nofun⟩
  | cons part parts ih =>
    obtain ⟨b, hb, hrelated⟩ := h part List.mem_cons_self
    obtain ⟨bs, hbs, hall⟩ := ih fun other ho => h other (List.mem_cons_of_mem part ho)
    exact ⟨b :: bs, by rw [List.map_cons, List.map_cons, hb, hbs], List.forall_mem_cons.mpr ⟨hrelated, hall⟩⟩

theorem ne_nil_of_map_eq {α β γ : Type} {f : α → γ} {g : β → γ} {as : List α} {bs : List β} (h : as.map f = bs.map g)
    (hne : bs ≠ []) : as ≠ [] := by
  rintro rfl
  exact hne (List.map_eq_nil_iff.mp h.symm)

/-- Every text of the grammar has a value. -/
theorem Element.means {t : Text} (h : Element t) : ∃ v, Means t v := by
  induction h with
  | null => exact ⟨_, .null⟩
  | true => exact ⟨_, .true⟩
  | false => exact ⟨_, .false⟩
  | number hn =>
    obtain ⟨v, hv⟩ := Number.means hn
    exact ⟨v, .number hv⟩
  | string hs =>
    obtain ⟨s, hs⟩ := Quoted.means hs
    exact ⟨_, .string hs⟩
  | emptyArray hs => exact ⟨_, .emptyArray hs⟩
  | emptyObject hs => exact ⟨_, .emptyObject hs⟩
  | @array items hne _ ih =>
    obtain ⟨pairs, htexts, hpairs⟩ := @exists_choices _ _ _ Prod.fst (fun pair : Text × JsonValue => Means pair.1 pair.2) items id
      fun item hitem => (ih item hitem).elim fun v hv => ⟨(item, v), rfl, hv⟩
    have hmeans := Means.array (ne_nil_of_map_eq htexts hne) hpairs
    rw [htexts, List.map_id] at hmeans
    exact ⟨_, hmeans⟩
  | @object members hne hnames _ ih =>
    obtain ⟨entries, htexts, hentries⟩ := @exists_choices _ _ _ Entry.text
      (fun entry => NameMeans entry.nameText entry.name ∧ Means entry.valueText entry.value) members
      (fun m => m.1 ++ [0x3A] ++ m.2) fun m hm => by
        obtain ⟨name, hname⟩ := Name.means (hnames m hm)
        obtain ⟨v, hv⟩ := ih m hm
        exact ⟨⟨m.1, name, m.2, v⟩, rfl, hname, hv⟩
    have hmeans := Means.object (ne_nil_of_map_eq htexts hne) (fun entry he => (hentries entry he).1)
      fun entry he => (hentries entry he).2
    rw [htexts] at hmeans
    exact ⟨_, hmeans⟩
  | pad hb _ ha ih =>
    obtain ⟨v, hv⟩ := ih
    exact ⟨v, .pad hb hv ha⟩

end AitpVerifier.Json
