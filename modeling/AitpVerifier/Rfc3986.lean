import AitpVerifier.PatternLanguage

/-!
# The grammar of URIs

RFC 3986's rules as languages over code points, under the RFC's names. A literal
of the grammar is a word, a repetition a power or a star, an option a sum with
the empty word.
-/
open PyText Pattern
open scoped Computability

namespace Rfc3986

/-! ### Characters -/

def alpha : Set CodePoint := {c | (0x41 ≤ c.val ∧ c.val ≤ 0x5A) ∨ (0x61 ≤ c.val ∧ c.val ≤ 0x7A)}

def digit : Set CodePoint := {c | 0x30 ≤ c.val ∧ c.val ≤ 0x39}

def hexdig : Set CodePoint := {c | c ∈ digit ∨ (0x41 ≤ c.val ∧ c.val ≤ 0x46) ∨ (0x61 ≤ c.val ∧ c.val ≤ 0x66)}

def unreserved : Set CodePoint := {c | c ∈ alpha ∨ c ∈ digit ∨ c ∈ txt "-._~"}

def subDelims : Set CodePoint := {c | c ∈ txt "!$&'()*+,;="}

def pctEncoded : Language CodePoint := {txt "%"} * oneChar hexdig * oneChar hexdig

def pchar : Language CodePoint := oneChar {c | c ∈ unreserved ∨ c ∈ subDelims ∨ c ∈ txt ":@"} + pctEncoded

/-! ### Paths -/

def segment : Language CodePoint := pchar∗

def segmentNz : Language CodePoint := pchar * pchar∗

def pathAbempty : Language CodePoint := ({txt "/"} * segment)∗

def pathAbsolute : Language CodePoint := {txt "/"} * (segmentNz * ({txt "/"} * segment)∗ + 1)

def pathRootless : Language CodePoint := segmentNz * ({txt "/"} * segment)∗

def pathEmpty : Language CodePoint := 1

/-! ### Hosts -/

/-- At most `n` words of a language. -/
def atMost : Nat → Language CodePoint → Language CodePoint
  | 0, _ => 1
  | n + 1, l => l * atMost n l + 1

def decOctet : Language CodePoint :=
  oneChar digit + oneChar {c | 0x31 ≤ c.val ∧ c.val ≤ 0x39} * oneChar digit + {txt "1"} * oneChar digit * oneChar digit +
    {txt "2"} * oneChar {c | 0x30 ≤ c.val ∧ c.val ≤ 0x34} * oneChar digit +
    {txt "25"} * oneChar {c | 0x30 ≤ c.val ∧ c.val ≤ 0x35}

def ipv4address : Language CodePoint :=
  decOctet * {txt "."} * decOctet * {txt "."} * decOctet * {txt "."} * decOctet

def h16 : Language CodePoint := oneChar hexdig * atMost 3 (oneChar hexdig)

def ls32 : Language CodePoint := h16 * {txt ":"} * h16 + ipv4address

/-- `( h16 ":" )`. -/
def h16Colon : Language CodePoint := h16 * {txt ":"}

/-- `[ *n( h16 ":" ) h16 ]`. -/
def leading (n : Nat) : Language CodePoint := atMost n h16Colon * h16 + 1

def ipv6address : Language CodePoint :=
  h16Colon ^ 6 * ls32 + {txt "::"} * h16Colon ^ 5 * ls32 + leading 0 * {txt "::"} * h16Colon ^ 4 * ls32 +
    leading 1 * {txt "::"} * h16Colon ^ 3 * ls32 + leading 2 * {txt "::"} * h16Colon ^ 2 * ls32 +
    leading 3 * {txt "::"} * h16Colon * ls32 + leading 4 * {txt "::"} * ls32 + leading 5 * {txt "::"} * h16 +
    leading 6 * {txt "::"}

/-- A string of the grammar stands for either case of its letters. -/
def ipvFuture : Language CodePoint :=
  oneChar {c | c ∈ txt "vV"} * (oneChar hexdig * (oneChar hexdig)∗) * {txt "."} *
    (oneChar {c | c ∈ unreserved ∨ c ∈ subDelims ∨ c ∈ txt ":"} *
      (oneChar {c | c ∈ unreserved ∨ c ∈ subDelims ∨ c ∈ txt ":"})∗)

def ipLiteral : Language CodePoint := {txt "["} * (ipv6address + ipvFuture) * {txt "]"}

def regName : Language CodePoint := (oneChar {c | c ∈ unreserved ∨ c ∈ subDelims} + pctEncoded)∗

def host : Language CodePoint := ipLiteral + ipv4address + regName

/-! ### The URI -/

def scheme : Language CodePoint := oneChar alpha * (oneChar {c | c ∈ alpha ∨ c ∈ digit ∨ c ∈ txt "+-."})∗

def userinfo : Language CodePoint := (oneChar {c | c ∈ unreserved ∨ c ∈ subDelims ∨ c ∈ txt ":"} + pctEncoded)∗

def port : Language CodePoint := (oneChar digit)∗

def authority : Language CodePoint := (userinfo * {txt "@"} + 1) * host * ({txt ":"} * port + 1)

def query : Language CodePoint := (pchar + oneChar {c | c ∈ txt "/?"})∗

def fragment : Language CodePoint := (pchar + oneChar {c | c ∈ txt "/?"})∗

def hierPart : Language CodePoint :=
  {txt "//"} * authority * pathAbempty + pathAbsolute + pathRootless + pathEmpty

def uri : Language CodePoint :=
  scheme * {txt ":"} * hierPart * ({txt "?"} * query + 1) * ({txt "#"} * fragment + 1)

/-! ### Repetitions as lists -/

section

variable {l : Language CodePoint} {sep : CodePoint} {w : Text} {n : Nat}

/-- Groups of a language, each closed by a separator. -/
def closed (sep : CodePoint) (groups : List Text) : Text := (groups.map (· ++ [sep])).flatten

theorem mem_closed_pow : w ∈ (l * {[sep]}) ^ n ↔
    ∃ groups : List Text, groups.length = n ∧ (∀ g ∈ groups, g ∈ l) ∧ w = closed sep groups := by
  induction n generalizing w with
  | zero =>
    rw [pow_zero, Language.mem_one]
    constructor
    · rintro rfl
      exact ⟨[], rfl, List.forall_mem_nil _, rfl⟩
    · rintro ⟨groups, hlength, _, rfl⟩
      rw [List.length_eq_zero_iff.mp hlength]
      rfl
  | succ n ih =>
    rw [pow_succ', Language.mem_mul]
    constructor
    · rintro ⟨_, ⟨g, hg, _, rfl, rfl⟩, v, hv, rfl⟩
      obtain ⟨groups, hlength, hall, rfl⟩ := ih.mp hv
      exact ⟨g :: groups, by rw [List.length_cons, hlength], List.forall_mem_cons.mpr ⟨hg, hall⟩, rfl⟩
    · rintro ⟨groups, hlength, hall, rfl⟩
      cases groups with
      | nil => cases hlength
      | cons g groups =>
        have hall := List.forall_mem_cons.mp hall
        exact ⟨g ++ [sep], Language.append_mem_mul hall.1 rfl, closed sep groups,
          ih.mpr ⟨groups, Nat.succ.inj hlength, hall.2, rfl⟩, rfl⟩

theorem mem_atMost : w ∈ atMost n l ↔ ∃ i ≤ n, w ∈ l ^ i := by
  induction n generalizing w with
  | zero =>
    constructor
    · intro h
      exact ⟨0, Nat.le_refl 0, h⟩
    · rintro ⟨i, hi, h⟩
      rwa [Nat.le_zero.mp hi] at h
  | succ n ih =>
    rw [atMost, Language.mem_add, Language.mem_mul]
    constructor
    · rintro (⟨u, hu, v, hv, rfl⟩ | h)
      · obtain ⟨i, hi, hv⟩ := ih.mp hv
        exact ⟨i + 1, Nat.succ_le_succ hi, by rw [pow_succ']; exact Language.append_mem_mul hu hv⟩
      · exact ⟨0, Nat.zero_le _, h⟩
    · rintro ⟨i, hi, h⟩
      cases i with
      | zero => exact .inr h
      | succ i =>
        rw [pow_succ', Language.mem_mul] at h
        obtain ⟨u, hu, v, hv, rfl⟩ := h
        exact .inl ⟨u, hu, v, ih.mpr ⟨i, Nat.le_of_succ_le_succ hi, hv⟩, rfl⟩

theorem closed_append {groups : List Text} {last : Text} :
    closed sep groups ++ last = [sep].intercalate (groups ++ [last]) := by
  induction groups with
  | nil => simp [closed]
  | cons g groups ih =>
    rw [List.cons_append, List.intercalate_cons_of_ne_nil (by simp), ← ih]
    simp [closed]

end

/-! ### Addresses as lists of groups -/

theorem mem_h16 {w : Text} : w ∈ h16 ↔ w ≠ [] ∧ w.length ≤ 4 ∧ ∀ c ∈ w, c ∈ hexdig := by
  rw [h16, Language.mem_mul]
  constructor
  · rintro ⟨_, ⟨c, hc, rfl⟩, v, hv, rfl⟩
    obtain ⟨i, hi, hv⟩ := mem_atMost.mp hv
    obtain ⟨hlength, hall⟩ := mem_oneChar_pow.mp hv
    refine ⟨List.cons_ne_nil _ _, ?_, List.forall_mem_cons.mpr ⟨hc, hall⟩⟩
    rw [List.singleton_append, List.length_cons]
    omega
  · rintro ⟨hne, hlength, hall⟩
    cases w with
    | nil => exact absurd rfl hne
    | cons c w =>
      have hall := List.forall_mem_cons.mp hall
      exact ⟨[c], mem_oneChar.mpr hall.1, w,
        mem_atMost.mpr ⟨w.length, Nat.le_of_succ_le_succ hlength, mem_oneChar_pow.mpr ⟨rfl, hall.2⟩⟩, rfl⟩

/-- Groups of up to four hexadecimal digits. -/
def Groups (groups : List Text) : Prop := ∀ g ∈ groups, g ∈ h16

/-- The groups before `::`. -/
theorem mem_leading {n : Nat} {w : Text} : w ∈ leading n ↔
    ∃ groups, Groups groups ∧ groups.length ≤ n + 1 ∧ w = [0x3A].intercalate groups := by
  have hcolon : h16Colon = h16 * {[0x3A]} := rfl
  rw [leading, Language.mem_add, Language.mem_one, Language.mem_mul]
  constructor
  · rintro (⟨u, hu, last, hlast, rfl⟩ | rfl)
    · obtain ⟨i, hi, hu⟩ := mem_atMost.mp hu
      rw [hcolon] at hu
      obtain ⟨groups, hlength, hall, rfl⟩ := mem_closed_pow.mp hu
      refine ⟨groups ++ [last], List.forall_mem_append.mpr ⟨hall, List.forall_mem_singleton.mpr hlast⟩, ?_, closed_append⟩
      rw [List.length_append, List.length_singleton]
      omega
    · exact ⟨[], List.forall_mem_nil _, Nat.zero_le _, rfl⟩
  · rintro ⟨groups, hall, hlength, rfl⟩
    rcases List.eq_nil_or_concat' groups with rfl | ⟨init, last, rfl⟩
    · exact .inr rfl
    · left
      have hall := List.forall_mem_append.mp hall
      rw [List.length_append, List.length_singleton] at hlength
      refine ⟨closed 0x3A init, mem_atMost.mpr ⟨init.length, by omega, ?_⟩, last, List.forall_mem_singleton.mp hall.2,
        closed_append⟩
      rw [hcolon]
      exact mem_closed_pow.mpr ⟨init, rfl, hall.1, rfl⟩

/-- The parts that stand for `n` groups of an address: a dotted quad at the end for two. -/
def Spans (n : Nat) (parts : List Text) : Prop :=
  (Groups parts ∧ parts.length = n) ∨
    ∃ groups quad, parts = groups ++ [quad] ∧ Groups groups ∧ quad ∈ ipv4address ∧ groups.length + 2 = n

theorem mem_pow_ls32 {n : Nat} {w : Text} : w ∈ h16Colon ^ n * ls32 ↔
    ∃ parts, Spans (n + 2) parts ∧ w = [0x3A].intercalate parts := by
  have hcolon : h16Colon = h16 * {[0x3A]} := rfl
  rw [hcolon, Language.mem_mul]
  constructor
  · rintro ⟨_, hu, last, hlast, rfl⟩
    obtain ⟨groups, hlength, hall, rfl⟩ := mem_closed_pow.mp hu
    rcases hlast with ⟨_, ⟨a, ha, _, rfl, rfl⟩, b, hb, rfl⟩ | hquad
    · refine ⟨groups ++ [a, b], .inl ⟨?_, by simp [hlength]⟩, ?_⟩
      · rw [Groups, List.forall_mem_append, List.forall_mem_cons, List.forall_mem_singleton]
        exact ⟨hall, ha, hb⟩
      · have hliteral : txt ":" = [0x3A] := by decide
        rw [List.append_cons, ← closed_append, hliteral]
        simp [closed]
    · exact ⟨groups ++ [last], .inr ⟨groups, last, rfl, hall, hquad, by rw [hlength]⟩, closed_append⟩
  · rintro ⟨parts, ⟨hall, hlength⟩ | ⟨groups, quad, rfl, hall, hquad, hlength⟩, rfl⟩
    · rcases List.eq_nil_or_concat' parts with rfl | ⟨init, b, rfl⟩
      · cases hlength
      rcases List.eq_nil_or_concat' init with rfl | ⟨init, a, rfl⟩
      · simp at hlength
      rw [Groups, List.forall_mem_append, List.forall_mem_append, List.forall_mem_singleton, List.forall_mem_singleton] at hall
      obtain ⟨⟨hinit, ha⟩, hb⟩ := hall
      refine ⟨closed 0x3A init, mem_closed_pow.mpr ⟨init, by simpa using hlength, hinit, rfl⟩, a ++ [0x3A] ++ b, .inl ?_, ?_⟩
      · exact Language.append_mem_mul (Language.append_mem_mul ha rfl) hb
      · rw [← closed_append]
        simp [closed]
    · exact ⟨closed 0x3A groups, mem_closed_pow.mpr ⟨groups, by omega, hall, rfl⟩, quad, .inr hquad, closed_append⟩

/-- At most seven groups around `::`, the last `n` of them behind it. -/
def Compressed (n : Nat) (w : Text) : Prop :=
  ∃ before after, Groups before ∧ Spans n after ∧ before.length + n ≤ 7 ∧
    w = [0x3A].intercalate before ++ txt "::" ++ [0x3A].intercalate after

theorem mem_one_spans {w : Text} : w ∈ (1 : Language CodePoint) ↔ ∃ parts, Spans 0 parts ∧ w = [0x3A].intercalate parts := by
  rw [Language.mem_one]
  constructor
  · rintro rfl
    exact ⟨[], .inl ⟨List.forall_mem_nil _, rfl⟩, rfl⟩
  · rintro ⟨parts, ⟨_, hlength⟩ | ⟨_, _, _, _, _, hlength⟩, rfl⟩
    · rw [List.length_eq_zero_iff.mp hlength]
      rfl
    · cases hlength

theorem mem_h16_spans {w : Text} : w ∈ h16 ↔ ∃ parts, Spans 1 parts ∧ w = [0x3A].intercalate parts := by
  constructor
  · intro h
    exact ⟨[w], .inl ⟨List.forall_mem_singleton.mpr h, rfl⟩, by simp⟩
  · rintro ⟨parts, ⟨hall, hlength⟩ | ⟨_, _, _, _, _, hlength⟩, rfl⟩
    · obtain ⟨g, rfl⟩ := List.length_eq_one_iff.mp hlength
      simpa using List.forall_mem_singleton.mp hall
    · cases hlength

theorem mem_compressed {n m : Nat} {tail : Language CodePoint} (hsum : m + 1 + n = 7)
    (htail : ∀ w, w ∈ tail ↔ ∃ parts, Spans n parts ∧ w = [0x3A].intercalate parts) {w : Text} :
    w ∈ leading m * {txt "::"} * tail ↔ Compressed n w := by
  constructor
  · rintro ⟨_, ⟨front, hfront, _, rfl, rfl⟩, back, hback, rfl⟩
    obtain ⟨before, hbefore, hlength, rfl⟩ := mem_leading.mp hfront
    obtain ⟨after, hafter, rfl⟩ := (htail back).mp hback
    exact ⟨before, after, hbefore, hafter, by omega, rfl⟩
  · rintro ⟨before, after, hbefore, hafter, hlength, rfl⟩
    exact Language.append_mem_mul (Language.append_mem_mul (mem_leading.mpr ⟨before, hbefore, by omega, rfl⟩) rfl)
      ((htail _).mpr ⟨after, hafter, rfl⟩)

theorem mem_bare {w : Text} : w ∈ {txt "::"} * (h16Colon ^ 5 * ls32) ↔ Compressed 7 w := by
  constructor
  · rintro ⟨_, rfl, back, hback, rfl⟩
    obtain ⟨after, hafter, rfl⟩ := mem_pow_ls32.mp hback
    exact ⟨[], after, List.forall_mem_nil _, hafter, Nat.le_refl 7, rfl⟩
  · rintro ⟨before, after, _, hafter, hlength, rfl⟩
    rw [List.length_eq_zero_iff.mp (show before.length = 0 by omega)]
    exact Language.append_mem_mul rfl (mem_pow_ls32.mpr ⟨after, hafter, rfl⟩)

/-- An address spans eight groups, or `::` stands for at least one of them. -/
theorem mem_ipv6address {w : Text} :
    w ∈ ipv6address ↔ (∃ parts, Spans 8 parts ∧ w = [0x3A].intercalate parts) ∨ ∃ n, Compressed n w := by
  have hone (w : Text) : w ∈ h16Colon * ls32 ↔ ∃ parts, Spans 3 parts ∧ w = [0x3A].intercalate parts := by
    rw [← mem_pow_ls32, pow_one]
  have hnone (w : Text) : w ∈ ls32 ↔ ∃ parts, Spans 2 parts ∧ w = [0x3A].intercalate parts := by
    rw [← mem_pow_ls32, pow_zero, one_mul]
  have h7 : w ∈ {txt "::"} * h16Colon ^ 5 * ls32 ↔ Compressed 7 w := by rw [mul_assoc, mem_bare]
  have h6 : w ∈ leading 0 * {txt "::"} * h16Colon ^ 4 * ls32 ↔ Compressed 6 w := by
    rw [mul_assoc, mem_compressed rfl fun _ => mem_pow_ls32]
  have h5 : w ∈ leading 1 * {txt "::"} * h16Colon ^ 3 * ls32 ↔ Compressed 5 w := by
    rw [mul_assoc, mem_compressed rfl fun _ => mem_pow_ls32]
  have h4 : w ∈ leading 2 * {txt "::"} * h16Colon ^ 2 * ls32 ↔ Compressed 4 w := by
    rw [mul_assoc, mem_compressed rfl fun _ => mem_pow_ls32]
  have h3 : w ∈ leading 3 * {txt "::"} * h16Colon * ls32 ↔ Compressed 3 w := by
    rw [mul_assoc, mem_compressed rfl hone]
  have h2 : w ∈ leading 4 * {txt "::"} * ls32 ↔ Compressed 2 w := mem_compressed rfl hnone
  have h1 : w ∈ leading 5 * {txt "::"} * h16 ↔ Compressed 1 w := mem_compressed rfl fun _ => mem_h16_spans
  have h0 : w ∈ leading 6 * {txt "::"} ↔ Compressed 0 w := by
    rw [← mul_one (leading 6 * _), mem_compressed rfl fun _ => mem_one_spans]
  simp only [ipv6address, Language.mem_add, h7, h6, h5, h4, h3, h2, h1, h0, mem_pow_ls32, or_assoc]
  refine or_congr_right ?_
  constructor
  · rintro (h | h | h | h | h | h | h | h)
    all_goals exact ⟨_, h⟩
  · rintro ⟨n, h⟩
    have hn : n ≤ 7 := by
      obtain ⟨_, _, _, _, hsum, _⟩ := h
      omega
    interval_cases n
    all_goals simp only [h, true_or, or_true]

end Rfc3986
