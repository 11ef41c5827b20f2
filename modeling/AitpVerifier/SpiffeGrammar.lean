import AitpVerifier.Encoding
import AitpVerifier.IdentityProven
import AitpVerifier.PatternLanguage

/-!
# Two grammars of SPIFFE IDs

The verifier of an identity takes a SPIFFE ID apart at its slashes; the verifier
of a Manifest holds it to one pattern. Both come down to a trust domain and a
list of segments, each of one class of characters and neither `.` nor `..`.
-/
namespace AitpVerifier

open PyText Checked
open scoped Computability

/-! ### Segments -/

/-- What names a step of a path. -/
def Segment (w : Text) : Prop := w ∉ [[], txt ".", txt ".."] ∧ Spiffe.pathSegmentPattern.fullMatch w = true

/-- The hint pattern's segment: a character other than a point, or three points and more. -/
def hintSegment : Pattern :=
  .alt (.sequence [.star segmentClass, base64urlClass, .star segmentClass])
    (.seq (.times 3 (.literal (txt "."))) (.star (.literal (txt "."))))

/-- The ranges of a trust domain's characters. -/
def domainRanges : List (Nat × Nat) := [(0x61, 0x7A), (0x30, 0x39), (0x2E, 0x2E), (0x5F, 0x5F), (0x2D, 0x2D)]

/-- The characters of a segment. -/
def segmentChars : Set CodePoint :=
  {c | Pattern.inSet false [(0x41, 0x5A), (0x61, 0x7A), (0x30, 0x39), (0x2E, 0x2E), (0x5F, 0x5F), (0x2D, 0x2D)] c}

/-- Those other than a point. -/
def nameChars : Set CodePoint :=
  {c | Pattern.inSet false [(0x41, 0x5A), (0x61, 0x7A), (0x30, 0x39), (0x5F, 0x5F), (0x2D, 0x2D)] c}

theorem mem_nameChars {c : CodePoint} : c ∈ nameChars ↔ c ∈ segmentChars ∧ c ≠ 0x2E := by
  have hpoint : c ≠ 0x2E ↔ c.val ≠ 0x2E := not_congr Fin.ext_iff
  rw [hpoint]
  simp only [segmentChars, nameChars, Pattern.inSet, Set.mem_ofPred_eq, Bool.false_bne, List.any_cons, List.any_nil,
    Bool.or_false, Bool.or_eq_true, Bool.and_eq_true, decide_eq_true_eq]
  omega

/-- A word that is not empty, one point or two has another character, or three. -/
theorem named_iff {w : Text} : w ∉ [[], txt ".", txt ".."] ↔ (∃ c ∈ w, c ≠ 0x2E) ∨ 3 ≤ w.length := by
  constructor
  · intro h
    by_contra hnone
    push Not at hnone
    obtain ⟨hall, hlength⟩ := hnone
    rw [List.eq_replicate_of_mem hall] at h
    have hcases : w.length = 0 ∨ w.length = 1 ∨ w.length = 2 := by omega
    rcases hcases with h0 | h1 | h2
    · exact h (by rw [h0]; decide)
    · exact h (by rw [h1]; decide)
    · exact h (by rw [h2]; decide)
  · intro h hm
    simp only [List.mem_cons, List.not_mem_nil, or_false] at hm
    have hone : txt "." = [0x2E] := by decide
    have htwo : txt ".." = [0x2E, 0x2E] := by decide
    rw [hone, htwo] at hm
    rcases hm with rfl | rfl | rfl <;> simp at h

theorem mem_pathSegment {w : Text} : Spiffe.pathSegmentPattern.fullMatch w = true ↔ w ≠ [] ∧ ∀ c ∈ w, c ∈ segmentChars := by
  rw [Pattern.fullMatch_iff, Spiffe.pathSegmentPattern, segmentClass, Pattern.oneOf, Pattern.mem_language_plus_set]
  rfl

/-- A word of points. -/
theorem mem_points {w : Text} :
    w ∈ (Pattern.seq (.times 3 (.literal (txt "."))) (.star (.literal (txt ".")))).language ↔
      3 ≤ w.length ∧ ∀ c ∈ w, c = 0x2E := by
  have hpoint : (Pattern.literal (txt ".")).language = Pattern.oneChar {0x2E} := Pattern.language_literal_char 0x2E
  rw [Pattern.language, Pattern.language_times, Pattern.language, hpoint, Language.mem_mul]
  constructor
  · rintro ⟨u, hu, v, hv, rfl⟩
    obtain ⟨hlength, hall⟩ := Pattern.mem_oneChar_pow.mp hu
    have htail := Pattern.mem_oneChar_star.mp hv
    exact ⟨by simp [hlength], List.forall_mem_append.mpr ⟨hall, htail⟩⟩
  · rintro ⟨hlength, hall⟩
    refine ⟨w.take 3, Pattern.mem_oneChar_pow.mpr ⟨by simpa using hlength, fun c hc => hall c (List.mem_of_mem_take hc)⟩,
      w.drop 3, Pattern.mem_oneChar_star.mpr fun c hc => hall c (List.mem_of_mem_drop hc), List.take_append_drop 3 w⟩

theorem mem_hintSegment {w : Text} : w ∈ hintSegment.language ↔ Segment w := by
  rw [Segment, mem_pathSegment, hintSegment, Pattern.language, Language.mem_add, mem_points]
  change w ∈ (Pattern.oneChar segmentChars)∗ * (Pattern.oneChar nameChars * ((Pattern.oneChar segmentChars)∗ * 1)) ∨ _ ↔ _
  rw [mul_one]
  rw [named_iff]
  constructor
  · rintro (h | ⟨hlength, hall⟩)
    · obtain ⟨u, hu, _, ⟨_, ⟨c, hc, rfl⟩, v, hv, rfl⟩, rfl⟩ := h
      obtain ⟨hclass, hpoint⟩ := mem_nameChars.mp hc
      refine ⟨.inl ⟨c, by simp, hpoint⟩, by simp, ?_⟩
      simp only [List.forall_mem_append, List.forall_mem_singleton]
      exact ⟨Pattern.mem_oneChar_star.mp hu, hclass, Pattern.mem_oneChar_star.mp hv⟩
    · have hne : w ≠ [] := by
        rintro rfl
        cases hlength
      refine ⟨.inr hlength, hne, fun c hc => ?_⟩
      rw [hall c hc]
      change Pattern.inSet _ _ _ = true
      decide
  · rintro ⟨hnamed, _, hall⟩
    by_cases hpoints : ∀ c ∈ w, c = 0x2E
    · refine .inr ⟨hnamed.resolve_left ?_, hpoints⟩
      rintro ⟨c, hc, hne⟩
      exact hne (hpoints c hc)
    · left
      push Not at hpoints
      obtain ⟨c, hc, hpoint⟩ := hpoints
      obtain ⟨u, v, rfl⟩ := List.append_of_mem hc
      rw [List.forall_mem_append, List.forall_mem_cons] at hall
      exact ⟨u, Pattern.mem_oneChar_star.mpr hall.1, c :: v,
        ⟨[c], Pattern.mem_oneChar.mpr (mem_nameChars.mpr ⟨hall.2.1, hpoint⟩), v, Pattern.mem_oneChar_star.mpr hall.2.2,
          rfl⟩, rfl⟩

/-- A class below a bound. -/
theorem inSet_lt {ranges : List (Nat × Nat)} {c : CodePoint} {bound : Nat} (hranges : ∀ r ∈ ranges, r.2 < bound)
    (hc : Pattern.inSet false ranges c = true) : c.val < bound := by
  rw [Pattern.inSet, Bool.false_xor, List.any_eq_true] at hc
  obtain ⟨r, hr, hc⟩ := hc
  have hbound := hranges r hr
  simp only [Bool.and_eq_true, decide_eq_true_eq] at hc
  omega

theorem segmentChars_lt {c : CodePoint} (hc : c ∈ segmentChars) : c.val < 0x80 := inSet_lt (by decide) hc

theorem Segment.slash_not_mem {w : Text} (h : Segment w) : (0x2F : CodePoint) ∉ w := by
  intro hm
  have hslash : (0x2F : CodePoint) ∉ segmentChars := by
    change ¬ Pattern.inSet _ _ _ = true
    decide
  exact hslash ((mem_pathSegment.mp h.2).2 _ hm)

/-! ### The whole ID -/

/-- The pattern's reading of a text: a trust domain, and segments behind slashes. -/
theorem mem_hintSubject {s : Text} : spiffeHintSubject.fullMatch s = true ↔
    ∃ trustDomain path, s = txt "spiffe://" ++ trustDomain ++ (txt "/" ++ path) ∧ trustDomain.length ≤ 255 ∧
      Spiffe.trustDomainPattern.fullMatch trustDomain = true ∧ ∀ segment ∈ splitOn 0x2F path, Segment segment := by
  have hsegments : hintSegment.language = {w | Segment w} := Language.ext fun w => mem_hintSegment
  have htail (t : Text) : t ∈ (Pattern.plus (.seq (.literal (txt "/")) hintSegment)).language ↔
      ∃ path, t = txt "/" ++ path ∧ ∀ segment ∈ splitOn 0x2F path, Segment segment := by
    rw [Pattern.language_plus, Pattern.language, Pattern.language_literal, hsegments]
    exact Pattern.mem_separated (l := {w | Segment w}) fun w hw => Segment.slash_not_mem hw
  have hdomain (t : Text) : t ∈ (Pattern.between 1 255 (.oneOf domainRanges)).language ↔
      t.length ≤ 255 ∧ Spiffe.trustDomainPattern.fullMatch t = true := by
    rw [Pattern.oneOf, Pattern.mem_language_between_set (by decide), Pattern.fullMatch_iff, Spiffe.trustDomainPattern,
      Pattern.oneOf, Pattern.mem_language_plus_set, Nat.one_le_iff_ne_zero, Ne, List.length_eq_zero_iff]
    exact and_left_comm
  rw [Pattern.fullMatch_iff]
  change s ∈ (Pattern.literal (txt "spiffe://")).language * ((Pattern.between 1 255 (.oneOf domainRanges)).language *
    ((Pattern.plus (.seq (.literal (txt "/")) hintSegment)).language * 1)) ↔ _
  rw [mul_one, Pattern.language_literal]
  constructor
  · rintro ⟨_, rfl, _, ⟨trustDomain, hd, t, ht, rfl⟩, rfl⟩
    obtain ⟨path, rfl, hpath⟩ := (htail t).mp ht
    obtain ⟨hlength, hmatch⟩ := (hdomain trustDomain).mp hd
    exact ⟨trustDomain, path, by simp, hlength, hmatch, hpath⟩
  · rintro ⟨trustDomain, path, rfl, hlength, hmatch, hpath⟩
    rw [List.append_assoc]
    exact Language.append_mem_mul rfl (Language.append_mem_mul ((hdomain trustDomain).mpr ⟨hlength, hmatch⟩)
      ((htail _).mpr ⟨path, rfl, hpath⟩))

/-- Every character of such a text is one octet. -/
theorem hintSubject_octets {s : Text} (h : spiffeHintSubject.fullMatch s = true) :
    ∃ octets, utf8? s = some octets ∧ octets.length = s.length := by
  refine ⟨_, utf8?_ascii ?_, List.length_map _⟩
  obtain ⟨trustDomain, path, rfl, _, hdomain, hsegments⟩ := mem_hintSubject.mp h
  have hpath : ∀ c ∈ path, c.val < 0x80 := by
    intro c hc
    by_cases hslash : c = 0x2F
    · rw [hslash]
      decide
    · obtain ⟨segment, hm, hc⟩ := mem_splitOn hc hslash
      exact segmentChars_lt ((mem_pathSegment.mp (hsegments segment hm).2).2 c hc)
  have hhost : ∀ c ∈ trustDomain, c.val < 0x80 := by
    intro c hc
    rw [Pattern.fullMatch_iff, Spiffe.trustDomainPattern, Pattern.oneOf, Pattern.mem_language_plus_set] at hdomain
    exact @inSet_lt _ _ 0x80 (by decide) (hdomain.2 c hc)
  have hfixed : (txt "spiffe://").all (fun c => c.val < 0x80) = true ∧ (txt "/").all (fun c => c.val < 0x80) = true := by
    decide +kernel
  simp only [List.all_eq_true, decide_eq_true_eq] at hfixed
  simp only [List.forall_mem_append]
  exact ⟨⟨hfixed.1, hhost⟩, hfixed.2, hpath⟩

theorem spiffeId_iff {s : Text} : (∃ trustDomain path, SpiffeId (.str s) trustDomain path) ↔
    s.length ≤ 2048 ∧ spiffeHintSubject.fullMatch s = true := by
  constructor
  · rintro ⟨trustDomain, path, h⟩
    have hmatch : spiffeHintSubject.fullMatch s = true :=
      mem_hintSubject.mpr ⟨trustDomain, path, JsonValue.str.inj h.text, h.domainLength, h.domain, h.segments⟩
    obtain ⟨octets, hoctets, hlength⟩ := hintSubject_octets hmatch
    obtain ⟨octets', hoctets', hshort⟩ := h.short
    rw [← JsonValue.str.inj h.text, hoctets, Option.some.injEq] at hoctets'
    rw [← hlength, hoctets']
    exact ⟨hshort, hmatch⟩
  · rintro ⟨hshort, hmatch⟩
    obtain ⟨octets, hoctets, hlength⟩ := hintSubject_octets hmatch
    obtain ⟨trustDomain, path, rfl, hdomainLength, hdomain, hsegments⟩ := mem_hintSubject.mp hmatch
    rw [← hlength] at hshort
    exact ⟨trustDomain, path, rfl, ⟨octets, hoctets, hshort⟩, hdomainLength, hdomain, hsegments⟩

variable (P : Platform)

/-- A SPIFFE ID is taken apart into its trust domain and path. -/
theorem parseSpiffeId_of_spiffeId {value : JsonValue} {trustDomain path : Text} (h : SpiffeId value trustDomain path) :
    Spiffe.parseSpiffeId P value = .ok (trustDomain, txt "/" ++ path) := by
  obtain ⟨rfl, ⟨octets, hoctets, hshort⟩, hlength, hdomain, hsegments⟩ := h
  have hslash : (0x2F : CodePoint) ∉ trustDomain := by
    intro hm
    rw [Pattern.fullMatch_iff, Spiffe.trustDomainPattern, Pattern.oneOf, Pattern.mem_language_plus_set] at hdomain
    exact absurd (hdomain.2 _ hm) (by decide)
  have hpre : (txt "spiffe://").isPrefixOf (txt "spiffe://" ++ trustDomain ++ (txt "/" ++ path)) = true := by
    rw [List.append_assoc]
    exact List.isPrefixOf_iff_prefix.mpr (List.prefix_append _ _)
  have hdrop : (txt "spiffe://" ++ trustDomain ++ (txt "/" ++ path)).drop 9 = trustDomain ++ 0x2F :: path := by
    rw [List.append_assoc]
    exact List.drop_left' rfl
  rw [Spiffe.parseSpiffeId, encodeUtf8_eq_ok.mpr hoctets, ok_bind, hpre, hdrop, partition_append hslash]
  have hall : forEach (fun segment =>
      raiseIf ([[], txt ".", txt ".."].contains segment || !Spiffe.pathSegmentPattern.fullMatch segment)
        (Spiffe.fail (txt "SPIFFE ID path has an empty, '.', '..' or non-[A-Za-z0-9._-] segment")))
      (splitOn 0x2F path) = .ok () := by
    refine forEach_eq_ok.mpr fun segment hm => ?_
    obtain ⟨hnamed, hmatch⟩ := hsegments segment hm
    rw [raiseIf_eq_ok, Bool.or_eq_false_iff, hmatch, ← Bool.not_eq_true, List.contains_iff_mem]
    exact ⟨hnamed, rfl⟩
  have hlong : decide (2048 < octets.length) = false := decide_eq_false (Nat.not_lt.mpr hshort)
  have hlongDomain : decide (255 < trustDomain.length) = false := decide_eq_false (Nat.not_lt.mpr hlength)
  have hpass {e : PyErr} : raiseIf false e = .ok () := rfl
  simp only [hlong, hlongDomain, hdomain, hpass, ok_bind, hall, Bool.not_true, Bool.or_self]

theorem validateIdentityHint_spiffe {hint : Members} {s : Text} (htype : hint.get (txt "type") = .str (txt "spiffe"))
    (hsubject : hint.get (txt "subject") = .str s) (hissuer : hint.has (txt "issuer") = false)
    (hkey : hint.has (txt "public_key") = false) :
    validateIdentityHint P hint = .ok () ↔ s.length ≤ 2048 ∧ spiffeHintSubject.fullMatch s = true := by
  have hknown : identityHintTypeValues.contains (txt "spiffe") = true := by decide
  have hoidc : txt "spiffe" ≠ txt "oidc" := by decide
  have hempty : spiffeHintSubject.fullMatch s = true → s.isEmpty = false := by
    intro hmatch
    obtain ⟨_, _, rfl, _⟩ := mem_hintSubject.mp hmatch
    rfl
  simp only [validateIdentityHint, checkHintMembers, htype, hsubject, hissuer, hkey, JsonValue.text, hknown, hoidc, bind_eq_ok,
    exists_unit, raiseIf_eq_ok, forEach_eq_ok, List.forall_mem_cons, Bool.not_true, Bool.false_and,
    if_false, if_true, Bool.or_eq_false_iff, decide_eq_false_iff_not, Bool.not_eq_false', not_lt, true_and, and_true]
  constructor
  · rintro ⟨_, _, haccepted⟩
    exact haccepted
  · rintro ⟨hshort, hmatch⟩
    exact ⟨hempty hmatch, List.forall_mem_nil _, hshort, hmatch⟩

/-- Both verifiers take the same SPIFFE IDs, and what the first returns makes up the ID. -/
theorem spiffe_grammars_agree (hint : Members) (s : Text) (htype : hint.get (txt "type") = .str (txt "spiffe"))
    (hsubject : hint.get (txt "subject") = .str s) (hissuer : hint.has (txt "issuer") = false)
    (hkey : hint.has (txt "public_key") = false) :
    ((∃ id, Spiffe.parseSpiffeId P (.str s) = .ok id) ↔ validateIdentityHint P hint = .ok ()) ∧
      ∀ trustDomain path, Spiffe.parseSpiffeId P (.str s) = .ok (trustDomain, path) →
        s = txt "spiffe://" ++ trustDomain ++ path := by
  have hparse : (∃ id, Spiffe.parseSpiffeId P (.str s) = .ok id) ↔ ∃ trustDomain path, SpiffeId (.str s) trustDomain path := by
    constructor
    · rintro ⟨⟨trustDomain, path⟩, hid⟩
      obtain ⟨rest, _, h⟩ := parseSpiffeId_eq_ok P hid
      exact ⟨trustDomain, rest, h⟩
    · rintro ⟨trustDomain, path, h⟩
      exact ⟨_, parseSpiffeId_of_spiffeId P h⟩
  constructor
  · rw [hparse, spiffeId_iff, validateIdentityHint_spiffe P htype hsubject hissuer hkey]
  · intro trustDomain path hid
    obtain ⟨rest, rfl, h⟩ := parseSpiffeId_eq_ok P hid
    exact JsonValue.str.inj h.text

theorem spiffe_grammars_agree_workload :
    ((∃ id, Spiffe.parseSpiffeId (Recording.mk [] []).platform (.str (txt "spiffe://example.org/agent/.../b")) = .ok id) ↔
      validateIdentityHint (Recording.mk [] []).platform
        [(txt "type", .str (txt "spiffe")), (txt "subject", .str (txt "spiffe://example.org/agent/.../b"))] = .ok ()) ∧
    ∀ trustDomain path, Spiffe.parseSpiffeId (Recording.mk [] []).platform
        (.str (txt "spiffe://example.org/agent/.../b")) = .ok (trustDomain, path) →
      txt "spiffe://example.org/agent/.../b" = txt "spiffe://" ++ trustDomain ++ path :=
  spiffe_grammars_agree (Recording.mk [] []).platform
    [(txt "type", .str (txt "spiffe")), (txt "subject", .str (txt "spiffe://example.org/agent/.../b"))]
    (txt "spiffe://example.org/agent/.../b") (by decide +kernel) (by decide +kernel) (by decide +kernel) (by decide +kernel)

end AitpVerifier
