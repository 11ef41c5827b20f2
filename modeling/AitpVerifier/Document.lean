import Mathlib.Data.List.Basic

/-!
# Documents of nested lists and objects

A document is written with brackets, commas, quoted strings and words. Its text read
from the front determines the document and where it ends, provided no word contains
a character that ends one and quoted strings are unambiguous.
-/
namespace Document

/-- A document over an alphabet; an object keeps its members in the order written. -/
inductive Doc (α : Type) where
  | word : List α → Doc α
  | str : List α → Doc α
  | list : List (Doc α) → Doc α
  | object : List (List α × Doc α) → Doc α

/-- Induction with the hypothesis for every part. -/
theorem Doc.induct {α : Type} {motive : Doc α → Prop} (word : ∀ w, motive (.word w)) (str : ∀ s, motive (.str s))
    (list : ∀ ds, (∀ d ∈ ds, motive d) → motive (.list ds))
    (object : ∀ ms, (∀ m ∈ ms, motive m.2) → motive (.object ms)) : ∀ d, motive d
  | .word w => word w
  | .str s => str s
  | .list ds => list ds fun d _ => Doc.induct word str list object d
  | .object ms => object ms fun m _ => Doc.induct word str list object m.2
termination_by d => sizeOf d
decreasing_by
  · have := List.sizeOf_lt_of_mem ‹d ∈ ds›
    simp only [Doc.list.sizeOf_spec]
    omega
  · have := List.sizeOf_lt_of_mem ‹m ∈ ms›
    obtain ⟨name, d⟩ := m
    simp only [Doc.object.sizeOf_spec, Prod.mk.sizeOf_spec] at this ⊢
    omega

/-- The punctuation of a text format, how it quotes and what it calls a word. -/
structure Grammar (α : Type) where
  listOpen : α
  listClose : α
  objectOpen : α
  objectClose : α
  comma : α
  colon : α
  quoteMark : α
  quote : List α → List α
  Word : List α → Prop
  distinct : [listOpen, listClose, objectOpen, objectClose, comma, quoteMark].Nodup
  quote_head : ∀ s, ∃ rest, quote s = quoteMark :: rest
  quote_unambiguous : ∀ {s t r r'}, quote s ++ r = quote t ++ r' → s = t ∧ r = r'
  word_head : ∀ {w}, Word w → ∃ c rest, w = c :: rest ∧ c ∉ [listOpen, objectOpen, quoteMark]
  word_free : ∀ {w}, Word w → ∀ c ∈ w, c ∉ [comma, listClose, objectClose]

namespace Grammar

variable {α : Type} (G : Grammar α)

/-- Parts with a comma before each but the first. -/
def separated (first : Bool) : List (List α) → List α
  | [] => []
  | part :: rest => (if first then [] else [G.comma]) ++ part ++ separated false rest

/-- A member: its name, a colon, its value. -/
def member (name value : List α) : List α := G.quote name ++ G.colon :: value

/-- The text of a document. -/
def text : Doc α → List α
  | .word w => w
  | .str s => G.quote s
  | .list ds => G.listOpen :: (G.separated true (ds.map text) ++ [G.listClose])
  | .object ms => G.objectOpen :: (G.separated true (ms.map fun m => G.member m.1 (text m.2)) ++ [G.objectClose])
termination_by d => sizeOf d
decreasing_by
  · have := List.sizeOf_lt_of_mem ‹_›
    simp only [Doc.list.sizeOf_spec]
    omega
  · rename_i hm
    have := List.sizeOf_lt_of_mem hm
    obtain ⟨name, d⟩ := m
    simp only [Doc.object.sizeOf_spec, Prod.mk.sizeOf_spec] at this ⊢
    omega

@[simp] theorem text_word (w : List α) : G.text (.word w) = w := by rw [text]

@[simp] theorem text_str (s : List α) : G.text (.str s) = G.quote s := by rw [text]

theorem text_list (ds : List (Doc α)) :
    G.text (.list ds) = G.listOpen :: (G.separated true (ds.map G.text) ++ [G.listClose]) := by
  rw [text]

theorem text_object (ms : List (List α × Doc α)) :
    G.text (.object ms) =
      G.objectOpen :: (G.separated true (ms.map fun m => G.member m.1 (G.text m.2)) ++ [G.objectClose]) := by
  rw [text]

/-- Every word of the document is a word of the grammar. -/
inductive Spelled : Doc α → Prop
  | word {w} : G.Word w → Spelled (.word w)
  | str {s} : Spelled (.str s)
  | list {ds} : (∀ d ∈ ds, Spelled d) → Spelled (.list ds)
  | object {ms : List (List α × Doc α)} : (∀ m ∈ ms, Spelled m.2) → Spelled (.object ms)

/-! ### Where a text ends -/

/-- What may follow a value. -/
def terminators : List α := [G.comma, G.listClose, G.objectClose]

/-- Nothing follows, or what ends a value does. -/
def Ends (r : List α) : Prop := ∀ c ∈ r.head?, c ∈ G.terminators

/-- A text that starts, and not with what ends a value. -/
def Begins (t : List α) : Prop := ∃ c rest, t = c :: rest ∧ c ∉ G.terminators

theorem ends_nil : G.Ends [] := by simp [Ends]

theorem ends_cons {c : α} {r : List α} (h : c ∈ G.terminators) : G.Ends (c :: r) := by
  intro d hd
  rw [List.head?_cons, Option.mem_some_iff] at hd
  rw [← hd]
  exact h

/-- A word stops at the first character that ends it. -/
theorem word_unambiguous {w w' r r' : List α} (hw : G.Word w) (hw' : G.Word w') (hr : G.Ends r) (hr' : G.Ends r')
    (h : w ++ r = w' ++ r') : w = w' ∧ r = r' := by
  -- the longer word would run on into the other's remainder
  have hstop {u v s t q : List α} (hu : G.Word u) (hs : G.Ends s) (hsplit : u = v ++ t) (heq : s = t ++ q) :
      t = [] := by
    cases t with
    | nil => rfl
    | cons c rest =>
      have hin : c ∈ G.terminators := hs c (by rw [heq]; rfl)
      have hout : c ∉ G.terminators := G.word_free hu c (by rw [hsplit]; simp)
      exact absurd hin hout
  rcases List.append_eq_append_iff.mp h with ⟨t, ht, hrest⟩ | ⟨t, ht, hrest⟩
  · obtain rfl := hstop hw' hr ht hrest
    exact ⟨by simpa using ht.symm, by simpa using hrest⟩
  · obtain rfl := hstop hw hr' ht hrest
    exact ⟨by simpa using ht, by simpa using hrest.symm⟩

/-! ### What a text starts with -/

theorem quoteMark_not_mem : G.quoteMark ∉ G.terminators := by
  have h := G.distinct
  simp only [List.nodup_cons, List.mem_cons, List.not_mem_nil, or_false, not_or] at h
  simp only [terminators, List.mem_cons, List.not_mem_nil, or_false, not_or]
  exact ⟨fun he => h.2.2.2.2.1 he.symm, fun he => h.2.1.2.2.2 he.symm, fun he => h.2.2.2.1.2 he.symm⟩

theorem listOpen_not_mem : G.listOpen ∉ G.terminators := by
  have h := G.distinct
  simp only [List.nodup_cons, List.mem_cons, List.not_mem_nil, or_false, not_or] at h
  simp only [terminators, List.mem_cons, List.not_mem_nil, or_false, not_or]
  exact ⟨h.1.2.2.2.1, h.1.1, h.1.2.2.1⟩

theorem objectOpen_not_mem : G.objectOpen ∉ G.terminators := by
  have h := G.distinct
  simp only [List.nodup_cons, List.mem_cons, List.not_mem_nil, or_false, not_or] at h
  simp only [terminators, List.mem_cons, List.not_mem_nil, or_false, not_or]
  exact ⟨h.2.2.1.2.1, fun he => h.2.1.1 he.symm, h.2.2.1.1⟩

theorem begins_quote (s : List α) (t : List α) : G.Begins (G.quote s ++ t) := by
  obtain ⟨rest, hrest⟩ := G.quote_head s
  exact ⟨G.quoteMark, rest ++ t, by rw [hrest, List.cons_append], G.quoteMark_not_mem⟩

theorem begins_text {d : Doc α} (h : G.Spelled d) : G.Begins (G.text d) := by
  cases h with
  | word hw =>
    obtain ⟨c, rest, hc, _⟩ := G.word_head hw
    rw [text_word]
    exact ⟨c, rest, hc, G.word_free hw c (by rw [hc]; simp)⟩
  | @str s =>
    rw [text_str, ← List.append_nil (G.quote s)]
    exact G.begins_quote s []
  | list =>
    rw [text_list]
    exact ⟨_, _, rfl, G.listOpen_not_mem⟩
  | object =>
    rw [text_object]
    exact ⟨_, _, rfl, G.objectOpen_not_mem⟩

/-! ### Unambiguity -/

/-- Followed by what ends it, the rendering of `b` is no other valid item's. -/
def Unambiguous {β : Type} (render : β → List α) (Valid : β → Prop) (b : β) : Prop :=
  ∀ b' r r', Valid b' → G.Ends r → G.Ends r' → render b ++ r = render b' ++ r' → b = b' ∧ r = r'

/-- What follows a part is a comma or the closing bracket. -/
theorem ends_separated {close : α} (hclose : close ∈ G.terminators) (parts : List (List α)) (r : List α) :
    G.Ends (G.separated false parts ++ close :: r) := by
  cases parts with
  | nil => exact G.ends_cons hclose
  | cons part rest => exact G.ends_cons (by simp [terminators])

theorem separated_unambiguous {β : Type} {render : β → List α} {Valid : β → Prop} {close : α}
    (hclose : close ∈ G.terminators) (hcomma : close ≠ G.comma) (hbegins : ∀ b, Valid b → G.Begins (render b))
    {bs : List β} (hbs : ∀ b ∈ bs, Valid b ∧ G.Unambiguous render Valid b) {bs' : List β} (hbs' : ∀ b ∈ bs', Valid b)
    {first : Bool} {r r' : List α}
    (h : G.separated first (bs.map render) ++ close :: r = G.separated first (bs'.map render) ++ close :: r') :
    bs = bs' ∧ r = r' := by
  -- the closing bracket starts no part, with or without a comma before it
  have hnone {b : β} (hb : Valid b) {first : Bool} {t u : List α} :
      (if first then [] else [G.comma]) ++ (render b ++ t) ≠ close :: u := by
    obtain ⟨c, rest, hc, hterm⟩ := hbegins b hb
    intro heq
    cases first with
    | true =>
      rw [hc] at heq
      exact hterm ((List.cons.inj heq).1 ▸ hclose)
    | false => exact hcomma (List.cons.inj heq).1.symm
  induction bs generalizing bs' first with
  | nil =>
    cases bs' with
    | nil => exact ⟨rfl, (List.cons.inj h).2⟩
    | cons b' rest' =>
      simp only [List.map_nil, List.map_cons, separated, List.nil_append, List.append_assoc] at h
      exact absurd h.symm (hnone (hbs' b' List.mem_cons_self))
  | cons b rest ih =>
    cases bs' with
    | nil =>
      simp only [List.map_nil, List.map_cons, separated, List.nil_append, List.append_assoc] at h
      exact absurd h (hnone (hbs b List.mem_cons_self).1)
    | cons b' rest' =>
      simp only [List.map_cons, separated, List.append_assoc] at h
      obtain ⟨rfl, hrest⟩ := (hbs b List.mem_cons_self).2 b' _ _ (hbs' b' List.mem_cons_self)
        (G.ends_separated hclose _ _) (G.ends_separated hclose _ _) (List.append_cancel_left h)
      obtain ⟨rfl, rfl⟩ := ih (fun c hc => hbs c (List.mem_cons_of_mem _ hc))
        (fun c hc => hbs' c (List.mem_cons_of_mem _ hc)) hrest
      exact ⟨rfl, rfl⟩

/-- A member is unambiguous when its value is. -/
theorem member_unambiguous {m : List α × Doc α} (h : G.Unambiguous G.text G.Spelled m.2) :
    G.Unambiguous (fun m => G.member m.1 (G.text m.2)) (fun m => G.Spelled m.2) m := by
  intro m' r r' hm' hr hr' heq
  simp only [member, List.append_assoc, List.cons_append] at heq
  obtain ⟨hname, hvalue⟩ := G.quote_unambiguous heq
  obtain ⟨hdoc, hrest⟩ := h m'.2 r r' hm' hr hr' (List.cons.inj hvalue).2
  exact ⟨Prod.ext hname hdoc, hrest⟩

/-- The character that opens a document, where its form fixes one. -/
def opening : Doc α → Option α
  | .word _ => none
  | .str _ => some G.quoteMark
  | .list _ => some G.listOpen
  | .object _ => some G.objectOpen

/-- The characters that open something other than a word. -/
def openings : List α := [G.listOpen, G.objectOpen, G.quoteMark]

theorem openings_nodup : G.openings.Nodup := by
  refine G.distinct.sublist ?_
  simp [openings]

theorem text_opening {d : Doc α} (h : G.Spelled d) :
    ∃ c rest, G.text d = c :: rest ∧ (c ∈ G.openings ∧ G.opening d = some c ∨ c ∉ G.openings ∧ G.opening d = none) := by
  cases h with
  | word hw =>
    obtain ⟨c, rest, hc, hout⟩ := G.word_head hw
    exact ⟨c, rest, by rw [text_word, hc], .inr ⟨hout, rfl⟩⟩
  | @str s =>
    obtain ⟨rest, hrest⟩ := G.quote_head s
    exact ⟨_, rest, by rw [text_str, hrest], .inl ⟨by simp [openings], rfl⟩⟩
  | list => exact ⟨_, _, G.text_list _, .inl ⟨by simp [openings], rfl⟩⟩
  | object => exact ⟨_, _, G.text_object _, .inl ⟨by simp [openings], rfl⟩⟩

/-- Texts that agree are opened alike. -/
theorem opening_eq {d d' : Doc α} (h : G.Spelled d) (h' : G.Spelled d') {r r' : List α}
    (heq : G.text d ++ r = G.text d' ++ r') : G.opening d = G.opening d' := by
  obtain ⟨c, rest, hc, ho⟩ := G.text_opening h
  obtain ⟨c', rest', hc', ho'⟩ := G.text_opening h'
  rw [hc, hc', List.cons_append, List.cons_append] at heq
  obtain rfl := (List.cons.inj heq).1
  rcases ho with ⟨hin, ho⟩ | ⟨hout, ho⟩
  · rcases ho' with ⟨_, ho'⟩ | ⟨hout', _⟩
    · rw [ho, ho']
    · exact absurd hin hout'
  · rcases ho' with ⟨hin', _⟩ | ⟨_, ho'⟩
    · exact absurd hin' hout
    · rw [ho, ho']

/-- The text of a document, followed by what ends a value, is no other document's. -/
theorem text_unambiguous {d : Doc α} (h : G.Spelled d) : G.Unambiguous G.text G.Spelled d := by
  have hopen := G.openings_nodup
  simp only [openings, List.nodup_cons, List.mem_cons, List.not_mem_nil, or_false, not_or] at hopen
  have hclose := G.distinct
  simp only [List.nodup_cons, List.mem_cons, List.not_mem_nil, or_false, not_or] at hclose
  induction h with
  | @word w hw =>
    intro d' r r' hd' hr hr' heq
    have hkind := G.opening_eq (.word hw) hd' heq
    cases hd' with
    | word hw' =>
      rw [text_word, text_word] at heq
      obtain ⟨rfl, hrest⟩ := G.word_unambiguous hw hw' hr hr' heq
      exact ⟨rfl, hrest⟩
    | str => simp [opening] at hkind
    | list => simp [opening] at hkind
    | object => simp [opening] at hkind
  | str =>
    intro d' r r' hd' hr hr' heq
    have hkind := G.opening_eq .str hd' heq
    cases hd' with
    | word => simp [opening] at hkind
    | str =>
      rw [text_str, text_str] at heq
      obtain ⟨rfl, hrest⟩ := G.quote_unambiguous heq
      exact ⟨rfl, hrest⟩
    | list => exact absurd (Option.some.inj hkind) (fun he => hopen.1.2 he.symm)
    | object => exact absurd (Option.some.inj hkind) (fun he => hopen.2.1 he.symm)
  | list hds ih =>
    intro d' r r' hd' hr hr' heq
    have hkind := G.opening_eq (.list hds) hd' heq
    cases hd' with
    | word => simp [opening] at hkind
    | str => exact absurd (Option.some.inj hkind) hopen.1.2
    | list hds' =>
      rw [text_list, text_list, List.cons_append, List.cons_append, List.append_assoc, List.append_assoc] at heq
      obtain ⟨rfl, hrest⟩ := G.separated_unambiguous (show G.listClose ∈ G.terminators by simp [terminators])
        (fun he => hclose.2.1.2.2.1 he) (fun d hd => G.begins_text hd) (fun d hd => ⟨hds d hd, ih d hd⟩) hds'
        (List.cons.inj heq).2
      exact ⟨rfl, hrest⟩
    | object => exact absurd (Option.some.inj hkind) hopen.1.1
  | object hms ih =>
    intro d' r r' hd' hr hr' heq
    have hkind := G.opening_eq (.object hms) hd' heq
    cases hd' with
    | word => simp [opening] at hkind
    | str => exact absurd (Option.some.inj hkind) hopen.2.1
    | list => exact absurd (Option.some.inj hkind) (fun he => hopen.1.1 he.symm)
    | object hms' =>
      rw [text_object, text_object, List.cons_append, List.cons_append, List.append_assoc, List.append_assoc] at heq
      obtain ⟨rfl, hrest⟩ := G.separated_unambiguous (show G.objectClose ∈ G.terminators by simp [terminators])
        (fun he => hclose.2.2.2.1.1 he) (fun m _ => G.begins_quote m.1 _)
        (fun m hm => ⟨hms m hm, G.member_unambiguous (ih m hm)⟩) hms' (List.cons.inj heq).2
      exact ⟨rfl, hrest⟩

theorem text_injective {d d' : Doc α} (h : G.Spelled d) (h' : G.Spelled d') (heq : G.text d = G.text d') : d = d' := by
  have happend : G.text d ++ [] = G.text d' ++ [] := by rw [heq]
  exact (G.text_unambiguous h d' [] [] h' G.ends_nil G.ends_nil happend).1

end Grammar

end Document
