import Mathlib.Tactic.Abel
import AitpVerifier.IpAddress

/-!
# `format: uri` is RFC 3986's `URI` rule

The verifier's pattern matches an IP literal loosely and finishes it afterwards.
The first bracket of a text starts the literal and the next closing one ends it,
so whichever match is found captures the same literal, and what is asked of it
is what the grammar asks.
-/
namespace AitpVerifier

open PyText Pattern Rfc3986
open scoped Computability

/-! ### Character classes -/

theorem mem_marks {c : CodePoint} {s : Text} {marks : List Nat} (h : s.map Fin.val = marks) : c ∈ s ↔ c.val ∈ marks := by
  rw [← h, List.mem_map]
  constructor
  · intro hc
    exact ⟨c, hc, rfl⟩
  · rintro ⟨d, hd, hval⟩
    rwa [← Fin.ext hval]

theorem mem_unreserved {c : CodePoint} : c ∈ unreserved ↔ (0x41 ≤ c.val ∧ c.val ≤ 0x5A) ∨ (0x61 ≤ c.val ∧ c.val ≤ 0x7A) ∨
    (0x30 ≤ c.val ∧ c.val ≤ 0x39) ∨ c.val = 0x2D ∨ c.val = 0x2E ∨ c.val = 0x5F ∨ c.val = 0x7E := by
  have hmem := mem_marks (c := c) (show (txt "-._~").map Fin.val = [0x2D, 0x2E, 0x5F, 0x7E] by decide)
  simp only [List.mem_cons, List.not_mem_nil, or_false] at hmem
  simp only [unreserved, alpha, digit, Set.mem_ofPred_eq, hmem, or_assoc]

theorem mem_subDelims {c : CodePoint} : c ∈ subDelims ↔ c.val = 0x21 ∨ c.val = 0x24 ∨ (0x26 ≤ c.val ∧ c.val ≤ 0x2C) ∨
    c.val = 0x3B ∨ c.val = 0x3D := by
  have hmem := mem_marks (c := c)
    (show (txt "!$&'()*+,;=").map Fin.val = [0x21, 0x24, 0x26, 0x27, 0x28, 0x29, 0x2A, 0x2B, 0x2C, 0x3B, 0x3D] by decide)
  simp only [List.mem_cons, List.not_mem_nil, or_false] at hmem
  simp only [subDelims, Set.mem_ofPred_eq, hmem]
  omega

theorem class_eq {ranges : List (Nat × Nat)} {S : Set CodePoint}
    (h : ∀ c : CodePoint, (∃ r ∈ ranges, r.1 ≤ c.val ∧ c.val ≤ r.2) ↔ c ∈ S) :
    {c | inSet false ranges c = true} = S := by
  ext c
  rw [← h c, Set.mem_ofPred_eq, inSet, Bool.false_xor, List.any_eq_true]
  simp only [Bool.and_eq_true, decide_eq_true_eq]

theorem class_safe : {c | inSet false uriSafe c = true} = {c | c ∈ unreserved ∨ c ∈ subDelims} := by
  refine class_eq fun c => ?_
  simp only [uriSafe, List.exists_mem_cons_iff, List.not_mem_nil, false_and, exists_false, or_false, Set.mem_ofPred_eq,
    mem_unreserved, mem_subDelims]
  omega

theorem class_userinfo : {c | inSet false (uriSafe ++ [(0x3A, 0x3A)]) c = true} =
    {c | c ∈ unreserved ∨ c ∈ subDelims ∨ c ∈ txt ":"} := by
  refine class_eq fun c => ?_
  have hmem := mem_marks (c := c) (show (txt ":").map Fin.val = [0x3A] by decide)
  simp only [List.mem_cons, List.not_mem_nil, or_false] at hmem
  simp only [uriSafe, List.cons_append, List.nil_append, mem_unreserved, mem_subDelims,
    List.exists_mem_cons_iff, List.not_mem_nil, false_and, exists_false, or_false, Set.mem_ofPred_eq, hmem]
  omega

theorem class_pchar : {c | inSet false (uriSafe ++ [(0x3A, 0x3A), (0x40, 0x40)]) c = true} =
    {c | c ∈ unreserved ∨ c ∈ subDelims ∨ c ∈ txt ":@"} := by
  refine class_eq fun c => ?_
  have hmem := mem_marks (c := c) (show (txt ":@").map Fin.val = [0x3A, 0x40] by decide)
  simp only [List.mem_cons, List.not_mem_nil, or_false] at hmem
  simp only [uriSafe, List.cons_append, List.nil_append, mem_unreserved, mem_subDelims,
    List.exists_mem_cons_iff, List.not_mem_nil, false_and, exists_false, or_false, Set.mem_ofPred_eq, hmem]
  omega

theorem class_digit : {c | inSet false [(0x30, 0x39)] c = true} = digit := by
  refine class_eq fun c => ?_
  simp only [List.exists_mem_cons_iff, List.not_mem_nil, false_and, exists_false, or_false, digit, Set.mem_ofPred_eq]

theorem class_hexdig : {c | inSet false [(0x30, 0x39), (0x41, 0x46), (0x61, 0x66)] c = true} = hexdig := by
  refine class_eq fun c => ?_
  simp only [List.exists_mem_cons_iff, List.not_mem_nil, false_and, exists_false, or_false, hexdig, digit, Set.mem_ofPred_eq]

theorem class_alpha : {c | inSet false [(0x41, 0x5A), (0x61, 0x7A)] c = true} = alpha := by
  refine class_eq fun c => ?_
  simp only [List.exists_mem_cons_iff, List.not_mem_nil, false_and, exists_false, or_false, alpha, Set.mem_ofPred_eq]

theorem class_scheme : {c | inSet false [(0x41, 0x5A), (0x61, 0x7A), (0x30, 0x39), (0x2B, 0x2B), (0x2E, 0x2E), (0x2D, 0x2D)] c =
    true} = {c | c ∈ alpha ∨ c ∈ digit ∨ c ∈ txt "+-."} := by
  refine class_eq fun c => ?_
  have hmem := mem_marks (c := c) (show (txt "+-.").map Fin.val = [0x2B, 0x2D, 0x2E] by decide)
  simp only [List.mem_cons, List.not_mem_nil, or_false] at hmem
  simp only [alpha, digit, List.exists_mem_cons_iff, List.not_mem_nil, false_and, exists_false, or_false, Set.mem_ofPred_eq, hmem]
  omega

theorem class_slash : {c | inSet false [(0x2F, 0x2F), (0x3F, 0x3F)] c = true} = {c | c ∈ txt "/?"} := by
  refine class_eq fun c => ?_
  have hmem := mem_marks (c := c) (show (txt "/?").map Fin.val = [0x2F, 0x3F] by decide)
  simp only [List.mem_cons, List.not_mem_nil, or_false] at hmem
  simp only [List.exists_mem_cons_iff, List.not_mem_nil, false_and, exists_false, or_false, Set.mem_ofPred_eq, hmem]
  omega

theorem class_version : {c | inSet false [(0x76, 0x76), (0x56, 0x56)] c = true} = {c | c ∈ txt "vV"} := by
  refine class_eq fun c => ?_
  have hmem := mem_marks (c := c) (show (txt "vV").map Fin.val = [0x76, 0x56] by decide)
  simp only [List.mem_cons, List.not_mem_nil, or_false] at hmem
  simp only [List.exists_mem_cons_iff, List.not_mem_nil, false_and, exists_false, or_false, Set.mem_ofPred_eq, hmem]
  omega

/-! ### The parts of the pattern -/

theorem language_uriPct : uriPct.language = pctEncoded := by
  rw [uriPct, language, language_literal, language_times, oneOf, language, class_hexdig, pctEncoded, pow_two, mul_assoc]

theorem language_uriPchar : uriPchar.language = pchar := by
  rw [uriPchar, language, oneOf, language, class_pchar, language_uriPct, pchar]

theorem language_uriPathRest : uriPathRest.language = pathAbempty := by
  rw [uriPathRest, language, language, language_literal, language, language_uriPchar, pathAbempty, Rfc3986.segment]

theorem language_uriTail : uriTail.language = query := by
  rw [uriTail, language, language, language_uriPchar, oneOf, language, class_slash, query]

theorem language_regName : (Pattern.star (.alt (.oneOf uriSafe) uriPct)).language = regName := by
  rw [language, language, oneOf, language, class_safe, language_uriPct, regName]

theorem language_userinfo : (Pattern.star (.alt (.oneOf (uriSafe ++ [(0x3A, 0x3A)])) uriPct)).language = userinfo := by
  rw [language, language, oneOf, language, class_userinfo, language_uriPct, userinfo]

theorem language_port : (Pattern.star (.oneOf [(0x30, 0x39)])).language = port := by
  rw [language, oneOf, language, class_digit, port]

theorem language_segmentNz : (Pattern.plus uriPchar).language = segmentNz := by
  rw [language_plus, language_uriPchar, segmentNz]

theorem language_uriIpFuture : uriIpFuture.language = ipvFuture := by
  change (Pattern.oneOf _).language * ((Pattern.plus _).language * ((Pattern.literal _).language * ((Pattern.plus _).language * 1))) =
    ipvFuture
  rw [language_plus, language_plus, language_literal, oneOf, oneOf, oneOf, language, language, language, class_version, class_hexdig,
    class_userinfo, mul_one, ipvFuture]
  simp only [mul_assoc]

/-! ### An IP literal among the alternatives -/

/-- `[ ":" port ]`. -/
def portPart : Language CodePoint := {txt ":"} * port + 1

/-- `[ "?" query ]`. -/
def queryPart : Language CodePoint := {txt "?"} * query + 1

/-- `[ "#" fragment ]`. -/
def fragmentPart : Language CodePoint := {txt "#"} * fragment + 1

/-- `scheme ":" "//" [ userinfo "@" ]`. -/
def before : Language CodePoint := scheme * {txt ":"} * {txt "//"} * (userinfo * {txt "@"} + 1)

/-- What follows a host. -/
def after : Language CodePoint := portPart * pathAbempty * queryPart * fragmentPart

/-- URIs without an IP literal; a dotted quad is a name. -/
def named : Language CodePoint :=
  scheme * {txt ":"} *
    ({txt "//"} * ((userinfo * {txt "@"} + 1) * regName * portPart) * pathAbempty + pathAbsolute + pathRootless + pathEmpty) *
    queryPart * fragmentPart

/-- What the pattern takes between the brackets. -/
def loose : Language CodePoint := (oneChar {c | inSet true [(0x5D, 0x5D), (0x2F, 0x2F), (0x3F, 0x3F), (0x23, 0x23)] c = true})∗

theorem split_host (s d u i n p b x y z q f : Language CodePoint) :
    s * (d * (u * (i + n) * p) * b + x + y + z) * q * f =
      s * (d * (u * n * p) * b + x + y + z) * q * f + s * d * u * i * (p * b * q * f) := by
  simp only [mul_add, add_mul, mul_assoc]
  abel

/-- Every dotted quad is a registered name. -/
theorem ipv4address_le : ipv4address + regName = regName := by
  refine Language.ext fun w => ?_
  rw [Language.mem_add, or_iff_right_iff_imp]
  intro hw
  have hchars : ∀ c ∈ w, c ∈ unreserved := by
    intro c hc
    by_contra hnot
    refine avoids_ipv4address (fun hdigit => hnot (.inr (.inl hdigit))) ?_ w hw hc
    rintro rfl
    exact hnot (mem_unreserved.mpr (by decide))
  have hle : oneChar unreserved ≤ oneChar {c | c ∈ unreserved ∨ c ∈ subDelims} + pctEncoded := by
    rintro _ ⟨c, hc, rfl⟩
    exact .inl (mem_oneChar.mpr (.inl hc))
  exact kstar_mono hle (mem_oneChar_star.mpr hchars)

/-- The grammar without its alternatives for a literal. -/
theorem uri_eq : uri = named + before * ipLiteral * after := by
  rw [uri, hierPart, authority, host, add_assoc ipLiteral, ipv4address_le]
  exact split_host ..

theorem language_queryPart : (Pattern.opt (.seq (.literal (txt "?")) uriTail)).language = queryPart := by
  rw [language_opt, language, language_literal, language_uriTail, queryPart]

theorem language_fragmentPart : (Pattern.opt (.seq (.literal (txt "#")) uriTail)).language = fragmentPart := by
  rw [language_opt, language, language_literal, language_uriTail, fragmentPart]
  rfl

theorem language_portPart : (Pattern.opt (.seq (.literal (txt ":")) (.star (.oneOf [(0x30, 0x39)])))).language = portPart := by
  rw [language_opt, language, language_literal, language_port, portPart]

theorem language_userinfoPart :
    (Pattern.opt (.seq (.star (.alt (.oneOf (uriSafe ++ [(0x3A, 0x3A)])) uriPct)) (.literal (txt "@")))).language =
      userinfo * {txt "@"} + 1 := by
  rw [language_opt, language, language_userinfo, language_literal]

theorem language_loose :
    (Pattern.star (.noneOf [(0x5D, 0x5D), (0x2F, 0x2F), (0x3F, 0x3F), (0x23, 0x23)])).language = loose := by
  rw [language, noneOf, language, loose]

theorem language_schemeFirst : (Pattern.oneOf [(0x41, 0x5A), (0x61, 0x7A)]).language = oneChar alpha := by
  rw [oneOf, language, class_alpha]

theorem language_schemeRest :
    (Pattern.star (.oneOf [(0x41, 0x5A), (0x61, 0x7A), (0x30, 0x39), (0x2B, 0x2B), (0x2E, 0x2E), (0x2D, 0x2D)])).language =
      (oneChar {c | c ∈ alpha ∨ c ∈ digit ∨ c ∈ txt "+-."})∗ := by
  rw [language, oneOf, language, class_scheme]

theorem language_pathAbsolute :
    (Pattern.seq (.literal (txt "/")) (.opt (.seq (.plus uriPchar) uriPathRest))).language = pathAbsolute := by
  rw [language, language_literal, language_opt, language, language_segmentNz, language_uriPathRest]
  rfl

theorem language_pathRootless : (Pattern.seq (.plus uriPchar) uriPathRest).language = pathRootless := by
  rw [language, language_segmentNz, language_uriPathRest]
  rfl

theorem language_uriAuthority : uriAuthority.language =
    {txt "//"} * ((userinfo * {txt "@"} + 1) * ({txt "["} * loose * {txt "]"} + regName) * portPart) * pathAbempty := by
  change (Pattern.literal (txt "//")).language * ((Pattern.opt _).language *
    (((Pattern.literal (txt "[")).language * ((Pattern.star _).language * ((Pattern.literal (txt "]")).language * 1)) +
      (Pattern.star _).language) * ((Pattern.opt _).language * (uriPathRest.language * 1)))) = _
  rw [language_userinfoPart, language_loose, language_regName, language_portPart, language_uriPathRest]
  simp only [language_literal, mul_one, mul_assoc]

/-- The pattern, with a loose literal in place of an address. -/
theorem language_uriPattern : uriPattern.language = named + before * ({txt "["} * loose * {txt "]"}) * after := by
  change (Pattern.oneOf _).language * ((Pattern.star _).language * ((Pattern.literal (txt ":")).language *
    ((uriAuthority.language + ((Pattern.seq (.literal (txt "/")) _).language + ((Pattern.seq _ _).language + 1))) *
      ((Pattern.opt _).language * ((Pattern.opt _).language * 1))))) = _
  rw [language_schemeFirst, language_schemeRest, language_literal, language_uriAuthority, language_pathAbsolute,
    language_pathRootless, language_queryPart, language_fragmentPart, before, after, named]
  rw [← split_host]
  simp only [scheme, pathEmpty, mul_one, mul_assoc, add_assoc]

/-- A match of the authority form captures a literal, or there is none. -/
theorem matches_uriAuthority {w : Text} {g g' : Captures} (h : Matches uriAuthority w g g') :
    (g' = g ∧ w ∈ {txt "//"} * ((userinfo * {txt "@"} + 1) * regName * portPart) * pathAbempty) ∨
      ∃ front literal back, g' = ("ip_literal", literal) :: g ∧ w = front ++ 0x5B :: (literal ++ 0x5D :: back) ∧
        front ∈ {txt "//"} * (userinfo * {txt "@"} + 1) ∧ literal ∈ loose ∧ back ∈ portPart * pathAbempty := by
  have hbracket : txt "[" = [0x5B] := by decide
  have hbracket' : txt "]" = [0x5D] := by decide
  obtain ⟨slashes, _, _, rfl, hslashes, h⟩ := matches_seq h
  obtain ⟨user, _, _, rfl, huser, h⟩ := matches_seq h
  obtain ⟨host, _, _, rfl, hhost, h⟩ := matches_seq h
  obtain ⟨port, _, _, rfl, hport, h⟩ := matches_seq h
  obtain ⟨path, _, _, rfl, hpath, hend⟩ := matches_seq h
  obtain ⟨rfl, rfl⟩ := matches_ungrouped rfl hend
  replace hslashes := matches_ungrouped rfl hslashes
  replace huser := matches_ungrouped rfl huser
  replace hport := matches_ungrouped rfl hport
  replace hpath := matches_ungrouped rfl hpath
  rw [language_literal] at hslashes
  rw [language_userinfoPart] at huser
  rw [language_portPart] at hport
  rw [language_uriPathRest] at hpath
  obtain ⟨hslashes, rfl⟩ := hslashes
  obtain ⟨huser, rfl⟩ := huser
  obtain ⟨hpath, rfl⟩ := hpath
  obtain ⟨hport, rfl⟩ := hport
  rcases matches_alt hhost with hhost | hhost
  · right
    obtain ⟨opening, _, _, rfl, hopening, hrest⟩ := matches_seq hhost
    obtain ⟨literal, _, _, rfl, hliteral, hrest'⟩ := matches_seq hrest
    obtain ⟨closing, _, _, rfl, hclosing, hstop⟩ := matches_seq hrest'
    obtain ⟨rfl, rfl⟩ := matches_ungrouped rfl hstop
    obtain ⟨hopened, rfl⟩ := matches_ungrouped rfl hopening
    obtain ⟨hclosed, rfl⟩ := matches_ungrouped rfl hclosing
    obtain ⟨_, hinner, rfl⟩ := matches_group hliteral
    obtain ⟨hloose, rfl⟩ := matches_ungrouped rfl hinner
    rw [language_loose] at hloose
    obtain rfl := mem_language_literal.mp hopened
    obtain rfl := mem_language_literal.mp hclosed
    exact ⟨slashes ++ user, literal, port ++ path, rfl, by simp [hbracket, hbracket'],
      Language.append_mem_mul hslashes huser, hloose, Language.append_mem_mul hport hpath⟩
  · left
    obtain ⟨hname, rfl⟩ := matches_ungrouped rfl hhost
    rw [language_regName] at hname
    refine ⟨rfl, slashes ++ (user ++ host ++ port), ?_, path, hpath, by simp⟩
    exact Language.append_mem_mul hslashes (Language.append_mem_mul (Language.append_mem_mul huser hname) hport)

/-- A match captures the literal of a URI that has one. -/
theorem matches_uriPattern {w : Text} {g : Captures} (h : Matches uriPattern w [] g) :
    (g = [] ∧ w ∈ named) ∨ ∃ front literal back, g = [("ip_literal", literal)] ∧
      w = front ++ 0x5B :: (literal ++ 0x5D :: back) ∧ front ∈ before ∧ literal ∈ loose ∧ back ∈ after := by
  obtain ⟨first, _, _, rfl, hfirst, h⟩ := matches_seq h
  obtain ⟨rest, _, _, rfl, hrest, h⟩ := matches_seq h
  obtain ⟨colon, _, _, rfl, hcolon, h⟩ := matches_seq h
  obtain ⟨hier, _, _, rfl, hhier, h⟩ := matches_seq h
  obtain ⟨query, _, _, rfl, hquery, h⟩ := matches_seq h
  obtain ⟨fragment, _, _, rfl, hfragment, hend⟩ := matches_seq h
  obtain ⟨rfl, rfl⟩ := matches_ungrouped rfl hend
  replace hfirst := matches_ungrouped rfl hfirst
  replace hrest := matches_ungrouped rfl hrest
  replace hcolon := matches_ungrouped rfl hcolon
  replace hquery := matches_ungrouped rfl hquery
  replace hfragment := matches_ungrouped rfl hfragment
  rw [language_schemeFirst] at hfirst
  rw [language_schemeRest] at hrest
  rw [language_literal] at hcolon
  rw [language_queryPart] at hquery
  rw [language_fragmentPart] at hfragment
  obtain ⟨hfirst, rfl⟩ := hfirst
  obtain ⟨hrest, rfl⟩ := hrest
  obtain ⟨hcolon, rfl⟩ := hcolon
  obtain ⟨hfragment, rfl⟩ := hfragment
  obtain ⟨hquery, rfl⟩ := hquery
  have hscheme : first ++ rest ++ colon ∈ scheme * {txt ":"} :=
    Language.append_mem_mul (Language.append_mem_mul hfirst hrest) hcolon
  have hnamed {l : Language CodePoint} (hl : hier ∈ l)
      (hle : l ≤ {txt "//"} * ((userinfo * {txt "@"} + 1) * regName * portPart) * pathAbempty + pathAbsolute + pathRootless +
        pathEmpty) :
      first ++ (rest ++ (colon ++ (hier ++ (query ++ (fragment ++ []))))) ∈ named := by
    have hall := Language.append_mem_mul (Language.append_mem_mul (Language.append_mem_mul hscheme (hle hl)) hquery) hfragment
    simpa [named] using hall
  rcases matches_alt hhier with hhier | hhier
  · rcases matches_uriAuthority hhier with ⟨rfl, hhost⟩ | ⟨front, literal, back, rfl, rfl, hfront, hliteral, hback⟩
    · exact .inl ⟨rfl, hnamed hhost fun _ hw => .inl (.inl (.inl hw))⟩
    · right
      refine ⟨first ++ rest ++ colon ++ front, literal, back ++ query ++ fragment, rfl, by simp, ?_, hliteral,
        Language.append_mem_mul (Language.append_mem_mul hback hquery) hfragment⟩
      rw [before, mul_assoc]
      exact Language.append_mem_mul hscheme hfront
  · left
    rcases matches_alt hhier with hhier | hhier
    · obtain ⟨hpath, rfl⟩ := matches_ungrouped rfl hhier
      rw [language_pathAbsolute] at hpath
      exact ⟨rfl, hnamed hpath fun _ hw => .inl (.inl (.inr hw))⟩
    · rcases matches_alt hhier with hhier | hhier
      · obtain ⟨hpath, rfl⟩ := matches_ungrouped rfl hhier
        rw [language_pathRootless] at hpath
        exact ⟨rfl, hnamed hpath fun _ hw => .inl (.inr hw)⟩
      · obtain ⟨hpath, rfl⟩ := matches_ungrouped rfl hhier
        exact ⟨rfl, hnamed hpath fun _ hw => .inr hw⟩

/-! ### Where a literal stands -/

theorem avoids_atMost {c : CodePoint} {l : Language CodePoint} (h : Avoids c l) (n : Nat) : Avoids c (atMost n l) := by
  induction n with
  | zero => exact avoids_one
  | succ n ih => exact (h.mul ih).add avoids_one

/-- An address is made of unreserved characters, delimiters and colons. -/
theorem avoids_address {c : CodePoint} (hunreserved : c ∉ unreserved) (hdelims : c ∉ subDelims) (hcolon : c ∉ txt ":") :
    Avoids c (ipv6address + ipvFuture) := by
  have hhexdig : c ∉ hexdig := by
    intro h
    refine hunreserved ?_
    rcases h with hdigit | hletter
    · exact .inr (.inl hdigit)
    · rw [mem_unreserved]
      omega
  have hpoint : c ∉ txt "." := by
    intro h
    have hone : txt "." = [0x2E] := by decide
    rw [hone, List.mem_singleton] at h
    rw [h, mem_unreserved] at hunreserved
    exact hunreserved (by decide)
  have hversion : c ∉ {c | c ∈ txt "vV"} := by
    intro h
    have hletter := (mem_marks (c := c) (show (txt "vV").map Fin.val = [0x76, 0x56] by decide)).mp h
    simp only [List.mem_cons, List.not_mem_nil, or_false] at hletter
    refine hunreserved (mem_unreserved.mpr ?_)
    omega
  have hrest : c ∉ {c | c ∈ unreserved ∨ c ∈ subDelims ∨ c ∈ txt ":"} := by
    rintro (h | h | h)
    · exact hunreserved h
    · exact hdelims h
    · exact hcolon h
  have hgroup := avoids_h16 hhexdig
  have hclosed : Avoids c h16Colon := hgroup.mul (avoids_singleton hcolon)
  have hquad : Avoids c ipv4address := by
    have hoctet := avoids_decOctet fun h => hhexdig (.inl h)
    have hseparator := avoids_singleton hpoint
    exact (((((hoctet.mul hseparator).mul hoctet).mul hseparator).mul hoctet).mul hseparator).mul hoctet
  have hlast : Avoids c ls32 := ((hgroup.mul (avoids_singleton hcolon)).mul hgroup).add hquad
  have hfront (n : Nat) : Avoids c (leading n) := ((avoids_atMost hclosed n).mul hgroup).add avoids_one
  have hcolons : Avoids c {txt "::"} := by
    refine avoids_singleton fun h => hcolon ?_
    have hone : txt ":" = [0x3A] := by decide
    have htwo : txt "::" = [0x3A, 0x3A] := by decide
    rw [htwo, List.mem_cons, List.mem_singleton, or_self] at h
    rw [hone, h]
    exact List.mem_singleton_self _
  refine Avoids.add ?_ ?_
  · rw [ipv6address]
    refine Avoids.add (Avoids.add (Avoids.add (Avoids.add (Avoids.add (Avoids.add (Avoids.add (Avoids.add ?_ ?_) ?_) ?_) ?_) ?_) ?_)
      ?_) ?_
    · exact (hclosed.pow 6).mul hlast
    · exact (hcolons.mul (hclosed.pow 5)).mul hlast
    · exact (((hfront 0).mul hcolons).mul (hclosed.pow 4)).mul hlast
    · exact (((hfront 1).mul hcolons).mul (hclosed.pow 3)).mul hlast
    · exact (((hfront 2).mul hcolons).mul (hclosed.pow 2)).mul hlast
    · exact (((hfront 3).mul hcolons).mul hclosed).mul hlast
    · exact ((hfront 4).mul hcolons).mul hlast
    · exact ((hfront 5).mul hcolons).mul hgroup
    · exact (hfront 6).mul hcolons
  · have hdigit := avoids_oneChar hhexdig
    have hchar := avoids_oneChar hrest
    exact (((avoids_oneChar hversion).mul (hdigit.mul hdigit.star)).mul (avoids_singleton hpoint)).mul (hchar.mul hchar.star)

theorem address_not_mem {w : Text} (h : w ∈ ipv6address + ipvFuture) {c : CodePoint}
    (hc : c.val ∈ [0x5D, 0x2F, 0x3F, 0x23, 0x25]) : c ∉ w := by
  simp only [List.mem_cons, List.not_mem_nil, or_false] at hc
  refine avoids_address ?_ ?_ ?_ w h
  · rw [mem_unreserved]
    omega
  · rw [mem_subDelims]
    omega
  · rw [mem_marks (show (txt ":").map Fin.val = [0x3A] by decide), List.mem_singleton]
    omega

/-- An address is matched loosely. -/
theorem address_le_loose {w : Text} (h : w ∈ ipv6address + ipvFuture) : w ∈ loose := by
  refine mem_oneChar_star.mpr fun c hc => ?_
  change inSet true _ c = true
  by_contra hset
  have hfound : ([(0x5D, 0x5D), (0x2F, 0x2F), (0x3F, 0x3F), (0x23, 0x23)] : List (Nat × Nat)).any
      (fun r => r.1 ≤ c.val && c.val ≤ r.2) = true := by
    rwa [inSet, Bool.true_xor, Bool.not_eq_true, Bool.not_eq_false'] at hset
  simp only [List.any_cons, List.any_nil, Bool.or_false, Bool.or_eq_true, Bool.and_eq_true, decide_eq_true_eq] at hfound
  refine address_not_mem h ?_ hc
  simp only [List.mem_cons, List.not_mem_nil, or_false]
  omega

theorem loose_closing {w : Text} (h : w ∈ loose) : (0x5D : CodePoint) ∉ w := by
  intro hm
  have hset : inSet true [(0x5D, 0x5D), (0x2F, 0x2F), (0x3F, 0x3F), (0x23, 0x23)] 0x5D = true := mem_oneChar_star.mp h _ hm
  exact absurd hset (by decide)

theorem bracket_not_mem {s : Text} (h : s.contains 0x5B = false) : Avoids 0x5B {s} :=
  avoids_singleton (List.contains_iff_mem.not.mp (Bool.not_eq_true _ ▸ h))

theorem bracket_chars : (0x5B : CodePoint) ∉ unreserved ∧ (0x5B : CodePoint) ∉ subDelims ∧ (0x5B : CodePoint) ∉ alpha ∧
    (0x5B : CodePoint) ∉ digit ∧ (0x5B : CodePoint) ∉ hexdig := by
  rw [mem_unreserved, mem_subDelims]
  refine ⟨by decide, by decide, ?_, ?_, ?_⟩
  · simp only [alpha, Set.mem_ofPred_eq]
    decide
  · simp only [digit, Set.mem_ofPred_eq]
    decide
  · simp only [hexdig, digit, Set.mem_ofPred_eq]
    decide

/-- A character of a name, with marks of its place, is not a bracket. -/
theorem bracket_class {marks : Text} (h : marks.contains 0x5B = false) :
    Avoids 0x5B (oneChar {c | c ∈ unreserved ∨ c ∈ subDelims ∨ c ∈ marks}) := by
  refine avoids_oneChar ?_
  rintro (hc | hc | hc)
  · exact bracket_chars.1 hc
  · exact bracket_chars.2.1 hc
  · rw [← List.contains_iff_mem, h] at hc
    cases hc

theorem bracket_pctEncoded : Avoids 0x5B pctEncoded :=
  ((bracket_not_mem (by decide)).mul (avoids_oneChar bracket_chars.2.2.2.2)).mul (avoids_oneChar bracket_chars.2.2.2.2)

theorem bracket_pchar : Avoids 0x5B pchar := (bracket_class (by decide)).add bracket_pctEncoded

theorem bracket_scheme : Avoids 0x5B (scheme * {txt ":"}) := by
  refine ((avoids_oneChar bracket_chars.2.2.1).mul (avoids_oneChar ?_).star).mul (bracket_not_mem (by decide))
  rintro (hc | hc | hc)
  · exact bracket_chars.2.2.1 hc
  · exact bracket_chars.2.2.2.1 hc
  · exact absurd hc (by decide)

theorem bracket_userinfo : Avoids 0x5B (userinfo * {txt "@"} + 1) :=
  ((((bracket_class (by decide)).add bracket_pctEncoded).star).mul (bracket_not_mem (by decide))).add avoids_one

theorem bracket_before : Avoids 0x5B before := (bracket_scheme.mul (bracket_not_mem (by decide))).mul bracket_userinfo

/-- Without a literal there is no bracket. -/
theorem bracket_named : Avoids 0x5B named := by
  have hslash : Avoids 0x5B ({txt "/"} : Language CodePoint) := bracket_not_mem (by decide)
  have hsegments : Avoids 0x5B pathAbempty := (hslash.mul bracket_pchar.star).star
  have hrootless : Avoids 0x5B pathRootless := (bracket_pchar.mul bracket_pchar.star).mul hsegments
  have hname : Avoids 0x5B regName := by
    refine (Avoids.add (avoids_oneChar ?_) bracket_pctEncoded).star
    rintro (hc | hc)
    · exact bracket_chars.1 hc
    · exact bracket_chars.2.1 hc
  have htail : Avoids 0x5B query := by
    refine (bracket_pchar.add (avoids_oneChar ?_)).star
    change (0x5B : CodePoint) ∉ txt "/?"
    decide
  have hport : Avoids 0x5B portPart :=
    ((bracket_not_mem (by decide)).mul (avoids_oneChar bracket_chars.2.2.2.1).star).add avoids_one
  have hquery : Avoids 0x5B queryPart := ((bracket_not_mem (by decide)).mul htail).add avoids_one
  have hfragment : Avoids 0x5B fragmentPart := ((bracket_not_mem (by decide)).mul htail).add avoids_one
  refine ((bracket_scheme.mul (Avoids.add (Avoids.add (Avoids.add ?_ ?_) hrootless) avoids_one)).mul hquery).mul hfragment
  · exact ((bracket_not_mem (by decide)).mul ((bracket_userinfo.mul hname).mul hport)).mul hsegments
  · exact hslash.mul (hrootless.add avoids_one)

/-! ### The verdict -/

theorem ipv6_or_future {literal : Text} :
    (uriIpFuture.fullMatch literal || !literal.contains 0x25 && isIpv6Address literal) = true ↔
      literal ∈ ipv6address + ipvFuture := by
  rw [Bool.or_eq_true, Bool.and_eq_true, Bool.not_eq_true', fullMatch_iff, language_uriIpFuture, isIpv6Address_iff,
    Language.mem_add, or_comm]
  refine or_congr_left (and_iff_right_of_imp fun h => ?_)
  rw [← Bool.not_eq_true, List.contains_iff_mem]
  exact address_not_mem (.inl h) (by decide)

theorem captured_literal (literal : Text) : captured? [("ip_literal", literal)] "ip_literal" = some literal := rfl

/-- The literal of a URI is the text between its first bracket and the next closing one. -/
theorem literal_eq {front front' literal literal' back back' : Text} (hfront : front ∈ before) (hfront' : front' ∈ before)
    (hliteral : literal ∈ loose) (hliteral' : literal' ∈ loose)
    (h : front ++ 0x5B :: (literal ++ 0x5D :: back) = front' ++ 0x5B :: (literal' ++ 0x5D :: back')) : literal = literal' := by
  obtain ⟨_, hinner⟩ := append_cons_inj (bracket_before _ hfront) (bracket_before _ hfront') h
  exact (append_cons_inj (loose_closing hliteral) (loose_closing hliteral') hinner).1

theorem mem_literal_form {middle : Language CodePoint} {w : Text} : w ∈ before * ({txt "["} * middle * {txt "]"}) * after ↔
    ∃ front ∈ before, ∃ literal ∈ middle, ∃ back ∈ after, w = front ++ 0x5B :: (literal ++ 0x5D :: back) := by
  have hbracket : txt "[" = [0x5B] := by decide
  have hbracket' : txt "]" = [0x5D] := by decide
  rw [hbracket, hbracket']
  constructor
  · rintro ⟨_, ⟨front, hfront, _, ⟨_, ⟨_, rfl, literal, hliteral, rfl⟩, _, rfl, rfl⟩, rfl⟩, back, hback, rfl⟩
    exact ⟨front, hfront, literal, hliteral, back, hback, by simp⟩
  · rintro ⟨front, hfront, literal, hliteral, back, hback, rfl⟩
    exact ⟨_, ⟨front, hfront, _, ⟨_, ⟨_, rfl, literal, hliteral, rfl⟩, _, rfl, rfl⟩, rfl⟩, back, hback, by simp⟩

/-- The verifier's URIs are those of the grammar. -/
theorem isUri_iff_uri (s : Text) : isUri s = true ↔ s ∈ Rfc3986.uri := by
  rw [uri_eq, ipLiteral, Language.mem_add, mem_literal_form]
  rw [isUri]
  cases hmatch : uriPattern.fullMatch? s with
  | none =>
    refine iff_of_false Bool.false_ne_true fun h => ?_
    have hlanguage : s ∈ uriPattern.language := by
      rw [language_uriPattern, Language.mem_add, mem_literal_form]
      refine h.imp_right ?_
      rintro ⟨front, hfront, literal, hliteral, back, hback, heq⟩
      exact ⟨front, hfront, literal, address_le_loose hliteral, back, hback, heq⟩
    rw [← fullMatch_iff, fullMatch, hmatch] at hlanguage
    cases hlanguage
  | some g =>
    rcases matches_uriPattern (matches_of_fullMatch? hmatch) with ⟨rfl, hnamed⟩ | ⟨front, literal, back, rfl, rfl, hfront, hloose, hback⟩
    · exact iff_of_true rfl (.inl hnamed)
    · dsimp only
      rw [captured_literal]
      dsimp only
      rw [ipv6_or_future]
      constructor
      · intro haddress
        exact .inr ⟨front, hfront, literal, haddress, back, hback, rfl⟩
      · rintro (hnamed | ⟨front', hfront', literal', haddress, back', hback', heq⟩)
        · exact absurd (by simp) (bracket_named _ hnamed)
        · rwa [literal_eq hfront hfront' hloose (address_le_loose haddress) heq]

-- an IPv4 tail, and a zone identifier that the grammar does not have
example : isUri (txt "https://u@[::ffff:192.0.2.1]:8443/a?b#c") = true ∧ isUri (txt "https://[fe80::1%eth0]/") = false := by
  decide +kernel

end AitpVerifier
