import Mathlib.Computability.Language
import AitpVerifier.Pattern

/-!
# The language of a pattern

A pattern's matches are given by a relation that also says which groups were
captured. The backtracking matcher finds a match exactly when there is one; the
one it finds carries the captures. Forgetting the captures leaves a regular
language, so that two patterns, or a pattern and a grammar, are compared there.
-/
open PyText
open scoped Computability

namespace Pattern

/-- A pattern consumes a word and extends the captures. -/
inductive Matches : Pattern → Text → Captures → Captures → Prop
  | empty {g} : Matches .empty [] g g
  | set {negated ranges c g} : inSet negated ranges c = true → Matches (.set negated ranges) [c] g g
  | seq {p q u v g g' g''} : Matches p u g g' → Matches q v g' g'' → Matches (.seq p q) (u ++ v) g g''
  | altLeft {p q w g g'} : Matches p w g g' → Matches (.alt p q) w g g'
  | altRight {p q w g g'} : Matches q w g g' → Matches (.alt p q) w g g'
  | stop {p g} : Matches (.star p) [] g g
  | again {p u v g g' g''} : u ≠ [] → Matches p u g g' → Matches (.star p) v g' g'' → Matches (.star p) (u ++ v) g g''
  | group {name p w g g'} : Matches p w g g' → Matches (.group name p) w g ((name, w) :: g')

/-! ### The matcher -/

section

variable {α : Type}

/-- A match in front of what the continuation took. -/
def Found (p : Pattern) (s : Text) (g : Captures) (k : Text → Captures → Option α) (a : α) : Prop :=
  ∃ w rest g', s = w ++ rest ∧ Matches p w g g' ∧ k rest g' = some a

theorem starLoop_sound {p : Pattern}
    (ih : ∀ (s : Text) (g : Captures) (k : Text → Captures → Option α) (a : α), run p s g k = some a → Found p s g k a)
    (fuel : Nat) (s : Text) (g : Captures) (k : Text → Captures → Option α) (a : α)
    (h : starLoop (run p) fuel s g k = some a) : Found (.star p) s g k a := by
  induction fuel generalizing s g with
  | zero => exact ⟨[], s, g, rfl, .stop, h⟩
  | succ fuel ihf =>
    rw [starLoop] at h
    cases hbody : run p s g (fun s' g' => if s'.length < s.length then starLoop (run p) fuel s' g' k else none) with
    | none =>
      rw [hbody] at h
      exact ⟨[], s, g, rfl, .stop, h⟩
    | some b =>
      rw [hbody] at h
      obtain rfl := Option.some.inj h
      obtain ⟨u, rest, g', rfl, hu, hrest⟩ := ih _ _ _ _ hbody
      dsimp only at hrest
      by_cases hshort : rest.length < (u ++ rest).length
      · rw [if_pos hshort] at hrest
        obtain ⟨v, last, g'', rfl, hv, hlast⟩ := ihf _ _ hrest
        have hne : u ≠ [] := by
          intro hnil
          rw [hnil] at hshort
          exact absurd hshort (Nat.lt_irrefl _)
        exact ⟨u ++ v, last, g'', (List.append_assoc ..).symm, .again hne hu hv, hlast⟩
      · rw [if_neg hshort] at hrest
        cases hrest

/-- What the matcher finds is a match. -/
theorem run_sound (p : Pattern) (s : Text) (g : Captures) (k : Text → Captures → Option α) (a : α)
    (h : run p s g k = some a) : Found p s g k a := by
  induction p generalizing s g k a with
  | empty => exact ⟨[], s, g, rfl, .empty, h⟩
  | set negated ranges =>
    cases s with
    | nil => cases h
    | cons c rest =>
      rw [run] at h
      by_cases hc : inSet negated ranges c = true
      · rw [if_pos hc] at h
        exact ⟨[c], rest, g, rfl, .set hc, h⟩
      · rw [if_neg hc] at h
        cases h
  | seq p q ihp ihq =>
    obtain ⟨u, rest, g', rfl, hu, hq⟩ := ihp _ _ _ _ h
    obtain ⟨v, last, g'', rfl, hv, hlast⟩ := ihq _ _ _ _ hq
    exact ⟨u ++ v, last, g'', (List.append_assoc ..).symm, .seq hu hv, hlast⟩
  | alt p q ihp ihq =>
    rw [run] at h
    cases hp : run p s g k with
    | none =>
      rw [hp] at h
      obtain ⟨w, rest, g', hs, hw, hk⟩ := ihq _ _ _ _ h
      exact ⟨w, rest, g', hs, .altRight hw, hk⟩
    | some b =>
      rw [hp] at h
      obtain rfl := Option.some.inj h
      obtain ⟨w, rest, g', hs, hw, hk⟩ := ihp _ _ _ _ hp
      exact ⟨w, rest, g', hs, .altLeft hw, hk⟩
  | star p ih => exact starLoop_sound ih _ _ _ _ _ h
  | group name p ih =>
    obtain ⟨w, rest, g', rfl, hw, hk⟩ := ih _ _ _ _ h
    have htake : (w ++ rest).take ((w ++ rest).length - rest.length) = w := by
      rw [List.length_append, Nat.add_sub_cancel, List.take_left]
    dsimp only at hk
    rw [htake] at hk
    exact ⟨w, rest, _, rfl, .group hw, hk⟩

/-- Where a pattern matches, the matcher finds a match. -/
def Complete (α : Type) (p : Pattern) : Prop :=
  ∀ (w rest : Text) (g g' : Captures) (k : Text → Captures → Option α), Matches p w g g' → (k rest g').isSome →
    (run p (w ++ rest) g k).isSome

theorem starLoop_complete {p : Pattern} (ih : Complete α p) {w : Text} {g g' : Captures} (h : Matches (.star p) w g g')
    (fuel : Nat) (hfuel : w.length ≤ fuel) (rest : Text) (k : Text → Captures → Option α) (hk : (k rest g').isSome) :
    (starLoop (run p) fuel (w ++ rest) g k).isSome := by
  generalize hq : Pattern.star p = q at h
  induction h generalizing fuel with
  | empty => cases hq
  | set => cases hq
  | seq => cases hq
  | altLeft => cases hq
  | altRight => cases hq
  | group => cases hq
  | stop =>
    cases fuel with
    | zero => exact hk
    | succ fuel =>
      rw [starLoop]
      split
      · rfl
      · exact hk
  | @again q u v g g' g'' hne hu _ _ ihv =>
    obtain rfl := Pattern.star.inj hq
    have hpos := List.length_pos_of_ne_nil hne
    rw [List.length_append] at hfuel
    obtain ⟨fuel, rfl⟩ := Nat.exists_eq_succ_of_ne_zero (show fuel ≠ 0 by omega)
    have hbody := ih u (v ++ rest) g g'
      (fun s' g' => if s'.length < (u ++ (v ++ rest)).length then starLoop (run p) fuel s' g' k else none) hu
    have hshort : (v ++ rest).length < (u ++ (v ++ rest)).length := by
      simp only [List.length_append]
      omega
    rw [if_pos hshort] at hbody
    obtain ⟨a, ha⟩ := Option.isSome_iff_exists.mp (hbody (ihv fuel (by omega) hk hq))
    rw [List.append_assoc, starLoop, ha]
    rfl

theorem run_complete (p : Pattern) : Complete α p := by
  induction p with
  | empty =>
    intro w rest g g' k h hk
    cases h
    exact hk
  | set negated ranges =>
    intro w rest g g' k h hk
    cases h with
    | set hc =>
      rw [List.singleton_append, run, if_pos hc]
      exact hk
  | seq p q ihp ihq =>
    intro w rest g g' k h hk
    cases h with
    | seq hu hv =>
      rw [List.append_assoc]
      exact ihp _ _ _ _ _ hu (ihq _ _ _ _ _ hv hk)
  | alt p q ihp ihq =>
    intro w rest g g' k h hk
    rw [run]
    cases h with
    | altLeft hw =>
      obtain ⟨a, ha⟩ := Option.isSome_iff_exists.mp (ihp _ _ _ _ _ hw hk)
      rw [ha]
      rfl
    | altRight hw =>
      split
      · rfl
      · exact ihq _ _ _ _ _ hw hk
  | star p ih =>
    intro w rest g g' k h hk
    exact starLoop_complete ih h _ (by simp) rest k hk
  | group name p ih =>
    intro w rest g g' k h hk
    cases h with
    | group hw =>
      refine ih _ _ _ _ _ hw ?_
      rw [List.length_append, Nat.add_sub_cancel, List.take_left]
      exact hk

end

/-! ### Languages -/

/-- The words of one character of a class. -/
def oneChar (S : Set CodePoint) : Language CodePoint := {w | ∃ c ∈ S, w = [c]}

/-- The words a pattern matches, captures forgotten. -/
def language : Pattern → Language CodePoint
  | .empty => 1
  | .set negated ranges => oneChar {c | inSet negated ranges c}
  | .seq p q => language p * language q
  | .alt p q => language p + language q
  | .star p => (language p)∗
  | .group _ p => language p

theorem Matches.mem_language {p : Pattern} {w : Text} {g g' : Captures} (h : Matches p w g g') : w ∈ language p := by
  induction h with
  | empty => exact Language.nil_mem_one
  | set hc => exact ⟨_, hc, rfl⟩
  | seq _ _ ihu ihv => exact Language.append_mem_mul ihu ihv
  | altLeft _ ih => exact .inl ih
  | altRight _ ih => exact .inr ih
  | stop => exact Language.nil_mem_kstar _
  | again _ _ _ ihu ihv =>
    obtain ⟨words, rfl, hwords⟩ := Language.mem_kstar.mp ihv
    exact Language.mem_kstar.mpr ⟨_ :: words, rfl, List.forall_mem_cons.mpr ⟨ihu, hwords⟩⟩
  | group _ ih => exact ih

theorem exists_matches {p : Pattern} {w : Text} (h : w ∈ language p) (g : Captures) : ∃ g', Matches p w g g' := by
  induction p generalizing w g with
  | empty =>
    obtain rfl := (Language.mem_one w).mp h
    exact ⟨g, .empty⟩
  | set negated ranges =>
    obtain ⟨c, hc, rfl⟩ := h
    exact ⟨g, .set hc⟩
  | seq p q ihp ihq =>
    obtain ⟨u, hu, v, hv, rfl⟩ := Language.mem_mul.mp h
    obtain ⟨g', hmu⟩ := ihp hu g
    obtain ⟨g'', hmv⟩ := ihq hv g'
    exact ⟨g'', .seq hmu hmv⟩
  | alt p q ihp ihq =>
    cases (Language.mem_add _ _ w).mp h with
    | inl hp =>
      obtain ⟨g', hm⟩ := ihp hp g
      exact ⟨g', .altLeft hm⟩
    | inr hq =>
      obtain ⟨g', hm⟩ := ihq hq g
      exact ⟨g', .altRight hm⟩
  | star p ih =>
    obtain ⟨words, rfl, hwords⟩ := Language.mem_kstar_iff_exists_nonempty.mp h
    clear h
    induction words generalizing g with
    | nil => exact ⟨g, .stop⟩
    | cons u words ihw =>
      have hall := List.forall_mem_cons.mp hwords
      obtain ⟨g', hmu⟩ := ih hall.1.1 g
      obtain ⟨g'', hmv⟩ := ihw g' hall.2
      exact ⟨g'', .again hall.1.2 hmu hmv⟩
  | group name p ih =>
    obtain ⟨g', hm⟩ := ih h g
    exact ⟨_, .group hm⟩

/-- The captures of a full match are those of a match. -/
theorem matches_of_fullMatch? {p : Pattern} {s : Text} {g : Captures} (h : p.fullMatch? s = some g) :
    Matches p s [] g := by
  obtain ⟨w, rest, g', rfl, hw, hk⟩ := run_sound p s [] _ g h
  dsimp only at hk
  by_cases hrest : rest.isEmpty = true
  · rw [if_pos hrest] at hk
    rw [List.isEmpty_iff.mp hrest, List.append_nil, ← Option.some.inj hk]
    exact hw
  · rw [if_neg hrest] at hk
    cases hk

theorem fullMatch_iff {p : Pattern} {s : Text} : p.fullMatch s = true ↔ s ∈ p.language := by
  constructor
  · intro h
    obtain ⟨g, hg⟩ := Option.isSome_iff_exists.mp h
    exact (matches_of_fullMatch? hg).mem_language
  · intro h
    obtain ⟨g, hm⟩ := exists_matches h []
    have hcomplete : Complete Captures p := run_complete p
    have hfound := hcomplete s [] [] g (fun rest g => if rest.isEmpty then some g else none) hm rfl
    rwa [List.append_nil] at hfound

/-! ### Matches of composed patterns -/

/-- A pattern without groups. -/
def ungrouped : Pattern → Bool
  | .empty => true
  | .set .. => true
  | .seq p q => ungrouped p && ungrouped q
  | .alt p q => ungrouped p && ungrouped q
  | .star p => ungrouped p
  | .group .. => false

section

variable {p q : Pattern} {w : Text} {g g' : Captures}

theorem Matches.captures_eq (h : Matches p w g g') (hp : p.ungrouped = true) : g' = g := by
  induction h with
  | empty => rfl
  | set => rfl
  | seq _ _ ihu ihv =>
    rw [ungrouped, Bool.and_eq_true] at hp
    rw [ihv hp.2, ihu hp.1]
  | altLeft _ ih =>
    rw [ungrouped, Bool.and_eq_true] at hp
    exact ih hp.1
  | altRight _ ih =>
    rw [ungrouped, Bool.and_eq_true] at hp
    exact ih hp.2
  | stop => rfl
  | again _ _ _ ihu ihv => rw [ihv hp, ihu hp]
  | group => cases hp

theorem matches_ungrouped (hp : p.ungrouped = true) (h : Matches p w g g') : w ∈ p.language ∧ g' = g :=
  ⟨h.mem_language, h.captures_eq hp⟩

theorem matches_seq (h : Matches (.seq p q) w g g') :
    ∃ u v mid, w = u ++ v ∧ Matches p u g mid ∧ Matches q v mid g' := by
  cases h with
  | seq hu hv => exact ⟨_, _, _, rfl, hu, hv⟩

theorem matches_alt (h : Matches (.alt p q) w g g') : Matches p w g g' ∨ Matches q w g g' := by
  cases h with
  | altLeft h => exact .inl h
  | altRight h => exact .inr h

theorem matches_group {name : String} (h : Matches (.group name p) w g g') : ∃ mid, Matches p w g mid ∧ g' = (name, w) :: mid := by
  cases h with
  | group h => exact ⟨_, h, rfl⟩

end

/-! ### Characters that no word holds -/

/-- No word of the language holds the character. -/
def Avoids (c : CodePoint) (l : Language CodePoint) : Prop := ∀ w ∈ l, c ∉ w

section

variable {c : CodePoint} {l m : Language CodePoint}

theorem avoids_one : Avoids c 1 := by
  rintro _ rfl
  exact List.not_mem_nil

theorem avoids_singleton {s : Text} (h : c ∉ s) : Avoids c {s} := by
  rintro _ rfl
  exact h

theorem avoids_oneChar {S : Set CodePoint} (h : c ∉ S) : Avoids c (oneChar S) := by
  rintro _ ⟨d, hd, rfl⟩ hm
  rw [List.mem_singleton.mp hm] at h
  exact h hd

theorem Avoids.add (hl : Avoids c l) (hm : Avoids c m) : Avoids c (l + m) := by
  rintro w (hw | hw)
  · exact hl w hw
  · exact hm w hw

theorem Avoids.mul (hl : Avoids c l) (hm : Avoids c m) : Avoids c (l * m) := by
  rintro _ ⟨u, hu, v, hv, rfl⟩ hc
  rcases List.mem_append.mp hc with hc | hc
  · exact hl u hu hc
  · exact hm v hv hc

theorem Avoids.star (hl : Avoids c l) : Avoids c (l∗) := by
  intro w hw hc
  obtain ⟨words, rfl, hwords⟩ := Language.mem_kstar.mp hw
  obtain ⟨u, hu, hc⟩ := List.mem_flatten.mp hc
  exact hl u (hwords u hu) hc

theorem Avoids.pow (hl : Avoids c l) (n : Nat) : Avoids c (l ^ n) := by
  induction n with
  | zero => exact avoids_one
  | succ n ih =>
    rw [pow_succ]
    exact ih.mul hl

end

/-! ### Derived forms -/

section

variable {S : Set CodePoint} {w : Text}

theorem mem_oneChar {c : CodePoint} : [c] ∈ oneChar S ↔ c ∈ S := by
  constructor
  · rintro ⟨d, hd, h⟩
    rwa [(List.cons.inj h).1]
  · intro h
    exact ⟨c, h, rfl⟩

theorem mem_oneChar_star : w ∈ (oneChar S)∗ ↔ ∀ c ∈ w, c ∈ S := by
  induction w with
  | nil => exact iff_of_true (Language.nil_mem_kstar _) (List.forall_mem_nil _)
  | cons c w ih =>
    rw [List.forall_mem_cons, ← ih]
    constructor
    · intro h
      rw [← Language.one_add_self_mul_kstar_eq_kstar, Language.mem_add, Language.mem_one, Language.mem_mul] at h
      obtain h | ⟨_, ⟨d, hd, rfl⟩, v, hv, heq⟩ := h
      · cases h
      · obtain ⟨rfl, rfl⟩ := List.cons.inj heq
        exact ⟨hd, hv⟩
    · rintro ⟨hc, hw⟩
      rw [← Language.one_add_self_mul_kstar_eq_kstar]
      exact .inr (Language.append_mem_mul (mem_oneChar.mpr hc) hw)

theorem mem_oneChar_pow {n : Nat} : w ∈ (oneChar S) ^ n ↔ w.length = n ∧ ∀ c ∈ w, c ∈ S := by
  induction n generalizing w with
  | zero =>
    rw [pow_zero, Language.mem_one, List.length_eq_zero_iff]
    constructor
    · rintro rfl
      exact ⟨rfl, List.forall_mem_nil _⟩
    · exact And.left
  | succ n ih =>
    rw [pow_succ', Language.mem_mul]
    constructor
    · rintro ⟨_, ⟨c, hc, rfl⟩, v, hv, rfl⟩
      obtain ⟨hlength, hall⟩ := ih.mp hv
      exact ⟨by rw [List.singleton_append, List.length_cons, hlength], List.forall_mem_cons.mpr ⟨hc, hall⟩⟩
    · rintro ⟨hlength, hall⟩
      cases w with
      | nil => cases hlength
      | cons c w =>
        have hall := List.forall_mem_cons.mp hall
        exact ⟨[c], mem_oneChar.mpr hall.1, w, ih.mpr ⟨Nat.succ.inj hlength, hall.2⟩, rfl⟩

end

theorem language_plus (p : Pattern) : (plus p).language = p.language * (p.language)∗ := rfl

theorem language_opt (p : Pattern) : (opt p).language = p.language + 1 := rfl

theorem language_times (p : Pattern) (n : Nat) : (times n p).language = p.language ^ n := by
  induction n with
  | zero => rw [pow_zero, times, language]
  | succ n ih => rw [pow_succ', times, language, ih]

theorem mem_language_literal {s w : Text} : w ∈ (literal s).language ↔ w = s := by
  induction s generalizing w with
  | nil => exact Language.mem_one w
  | cons c s ih =>
    have hclass (d : CodePoint) : inSet false [(c.val, c.val)] d = true ↔ d = c := by
      simp only [inSet, Bool.false_bne, List.any_cons, List.any_nil, Bool.or_false, Bool.and_eq_true, decide_eq_true_eq]
      rw [Fin.ext_iff]
      omega
    change w ∈ oneChar _ * (literal s).language ↔ _
    rw [Language.mem_mul]
    constructor
    · rintro ⟨_, ⟨d, hd, rfl⟩, v, hv, rfl⟩
      rw [(hclass d).mp hd, ih.mp hv]
      rfl
    · rintro rfl
      exact ⟨[c], mem_oneChar.mpr ((hclass c).mpr rfl), s, ih.mpr rfl, rfl⟩

theorem language_literal (s : Text) : (literal s).language = {s} := Language.ext fun _ => mem_language_literal

theorem language_literal_char (c : CodePoint) : (literal [c]).language = oneChar {c} := by
  refine Language.ext fun w => ?_
  rw [mem_language_literal]
  constructor
  · rintro rfl
    exact mem_oneChar.mpr rfl
  · rintro ⟨d, rfl, rfl⟩
    rfl

/-- A class repeated at most `n` times. -/
theorem mem_language_upTo {negated : Bool} {ranges : List (Nat × Nat)} {n : Nat} {w : Text} :
    w ∈ (upTo (.set negated ranges) n).language ↔ w.length ≤ n ∧ ∀ c ∈ w, inSet negated ranges c := by
  induction n generalizing w with
  | zero =>
    rw [upTo, language, Language.mem_one, Nat.le_zero, List.length_eq_zero_iff]
    constructor
    · rintro rfl
      exact ⟨rfl, List.forall_mem_nil _⟩
    · exact And.left
  | succ n ih =>
    rw [upTo, language_opt, language, Language.mem_add, Language.mem_mul, Language.mem_one]
    constructor
    · rintro (⟨_, ⟨c, hc, rfl⟩, v, hv, rfl⟩ | rfl)
      · obtain ⟨hlength, hall⟩ := ih.mp hv
        exact ⟨by simpa using hlength, List.forall_mem_cons.mpr ⟨hc, hall⟩⟩
      · exact ⟨Nat.zero_le _, List.forall_mem_nil _⟩
    · rintro ⟨hlength, hall⟩
      cases w with
      | nil => exact .inr rfl
      | cons c w =>
        have hall := List.forall_mem_cons.mp hall
        exact .inl ⟨[c], mem_oneChar.mpr hall.1, w, ih.mpr ⟨Nat.le_of_succ_le_succ hlength, hall.2⟩, rfl⟩

section

variable {negated : Bool} {ranges : List (Nat × Nat)} {w : Text}

theorem mem_language_plus_set : w ∈ (plus (.set negated ranges)).language ↔ w ≠ [] ∧ ∀ c ∈ w, inSet negated ranges c := by
  rw [language_plus, language, Language.mem_mul]
  constructor
  · rintro ⟨_, ⟨c, hc, rfl⟩, v, hv, rfl⟩
    exact ⟨List.cons_ne_nil _ _, List.forall_mem_cons.mpr ⟨hc, mem_oneChar_star.mp hv⟩⟩
  · rintro ⟨hne, hall⟩
    cases w with
    | nil => exact absurd rfl hne
    | cons c w =>
      have hall := List.forall_mem_cons.mp hall
      exact ⟨[c], mem_oneChar.mpr hall.1, w, mem_oneChar_star.mpr hall.2, rfl⟩

theorem mem_language_between_set {least most : Nat} (h : least ≤ most) :
    w ∈ (between least most (.set negated ranges)).language ↔
      least ≤ w.length ∧ w.length ≤ most ∧ ∀ c ∈ w, inSet negated ranges c := by
  rw [between, language, Language.mem_mul]
  simp only [language_times, language, mem_language_upTo]
  constructor
  · rintro ⟨u, hu, v, ⟨hlength, hv⟩, rfl⟩
    obtain ⟨hul, hu⟩ := mem_oneChar_pow.mp hu
    rw [List.length_append, hul]
    exact ⟨by omega, by omega, List.forall_mem_append.mpr ⟨hu, hv⟩⟩
  · rintro ⟨hleast, hmost, hall⟩
    refine ⟨w.take least, mem_oneChar_pow.mpr ⟨by simpa using hleast, fun c hc => hall c (List.mem_of_mem_take hc)⟩,
      w.drop least, ⟨?_, fun c hc => hall c (List.mem_of_mem_drop hc)⟩, List.take_append_drop least w⟩
    rw [List.length_drop]
    omega

end

/-! ### Words behind separators -/

theorem flatten_separated {sep : CodePoint} {parts : List Text} (h : parts ≠ []) :
    (parts.map (sep :: ·)).flatten = sep :: [sep].intercalate parts := by
  induction parts with
  | nil => exact absurd rfl h
  | cons part parts ih =>
    cases parts with
    | nil => simp
    | cons next parts =>
      rw [List.map_cons, List.flatten_cons, ih (List.cons_ne_nil _ _), List.intercalate_cons_cons]
      simp

section

variable {sep : CodePoint} {l : Language CodePoint} {t : Text}

theorem mem_behind : t ∈ ({[sep]} * l : Language CodePoint) ↔ ∃ part ∈ l, t = sep :: part := by
  rw [Language.mem_mul]
  constructor
  · rintro ⟨_, rfl, part, hpart, rfl⟩
    exact ⟨part, hpart, rfl⟩
  · rintro ⟨part, hpart, rfl⟩
    exact ⟨[sep], rfl, part, hpart, rfl⟩

theorem mem_behind_star : t ∈ ({[sep]} * l : Language CodePoint)∗ ↔
    ∃ parts : List Text, (∀ part ∈ parts, part ∈ l) ∧ t = (parts.map (sep :: ·)).flatten := by
  constructor
  · intro h
    obtain ⟨words, rfl, hwords⟩ := Language.mem_kstar.mp h
    clear h
    induction words with
    | nil => exact ⟨[], List.forall_mem_nil _, rfl⟩
    | cons w words ih =>
      have hall := List.forall_mem_cons.mp hwords
      obtain ⟨part, hpart, rfl⟩ := mem_behind.mp hall.1
      obtain ⟨parts, hparts, heq⟩ := ih hall.2
      exact ⟨part :: parts, List.forall_mem_cons.mpr ⟨hpart, hparts⟩, by simp [heq]⟩
  · rintro ⟨parts, hparts, rfl⟩
    refine Language.join_mem_kstar fun w hw => ?_
    obtain ⟨part, hpart, rfl⟩ := List.mem_map.mp hw
    exact mem_behind.mpr ⟨part, hparts part hpart, rfl⟩

/-- Words of a language behind separators that none of them holds. -/
theorem mem_separated (hl : ∀ w ∈ l, sep ∉ w) :
    t ∈ ({[sep]} * l : Language CodePoint) * ({[sep]} * l)∗ ↔
      ∃ path, t = sep :: path ∧ ∀ part ∈ splitOn sep path, part ∈ l := by
  constructor
  · intro h
    obtain ⟨first, hfirst, rest, hrest, rfl⟩ := Language.mem_mul.mp h
    obtain ⟨part, hpart, rfl⟩ := mem_behind.mp hfirst
    obtain ⟨parts, hparts, rfl⟩ := mem_behind_star.mp hrest
    have hall : ∀ w ∈ part :: parts, w ∈ l := List.forall_mem_cons.mpr ⟨hpart, hparts⟩
    refine ⟨[sep].intercalate (part :: parts), ?_, ?_⟩
    · rw [← flatten_separated (List.cons_ne_nil _ _), List.map_cons, List.flatten_cons]
    · rw [splitOn_eq, List.splitOn_intercalate sep (fun w hw => hl w (hall w hw)) (List.cons_ne_nil _ _)]
      exact hall
  · rintro ⟨path, rfl, hparts⟩
    rw [splitOn_eq] at hparts
    cases hsplit : path.splitOn sep with
    | nil => exact absurd hsplit (List.splitOn_ne_nil sep path)
    | cons part parts =>
      rw [hsplit, List.forall_mem_cons] at hparts
      have hpath : sep :: path = (sep :: part) ++ (parts.map (sep :: ·)).flatten := by
        rw [← @List.intercalate_splitOn _ path _ _ sep, hsplit, ← flatten_separated (List.cons_ne_nil _ _)]
        rfl
      rw [hpath]
      exact Language.append_mem_mul (mem_behind.mpr ⟨part, hparts.1, rfl⟩) (mem_behind_star.mpr ⟨parts, hparts.2, rfl⟩)

end

end Pattern
