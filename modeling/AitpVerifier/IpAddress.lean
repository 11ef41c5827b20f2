import Mathlib.Data.List.GetD
import AitpVerifier.Manifest
import AitpVerifier.Rfc3986

/-!
# IP addresses

The address parsers split a text at its separators and judge the parts; the
grammar's ladder of alternatives counts groups on either side of `::`. Both
read the same list of parts, the empty part at `::` between two runs of groups.
-/
namespace AitpVerifier

open PyText Pattern Rfc3986
open scoped Computability

/-! ### Dotted quads -/

theorem mem_decOctet {w : Text} : w ∈ decOctet ↔
    (∃ a ∈ digit, w = [a]) ∨ (∃ a b, 0x31 ≤ a.val ∧ a.val ≤ 0x39 ∧ b ∈ digit ∧ w = [a, b]) ∨
      ∃ a b c : CodePoint, w = [a, b, c] ∧ c ∈ digit ∧
        ((a.val = 0x31 ∧ b ∈ digit) ∨ (a.val = 0x32 ∧ 0x30 ≤ b.val ∧ b.val ≤ 0x34) ∨
          (a.val = 0x32 ∧ b.val = 0x35 ∧ c.val ≤ 0x35)) := by
  have hone : txt "1" = [0x31] := by decide
  have htwo : txt "2" = [0x32] := by decide
  have hquarter : txt "25" = [0x32, 0x35] := by decide
  have hval1 : (0x31 : CodePoint).val = 0x31 := rfl
  have hval2 : (0x32 : CodePoint).val = 0x32 := rfl
  have hval5 : (0x35 : CodePoint).val = 0x35 := rfl
  rw [decOctet, hone, htwo, hquarter]
  constructor
  · rintro ((((⟨a, ha, rfl⟩ | ⟨_, ⟨a, ha, rfl⟩, _, ⟨b, hb, rfl⟩, rfl⟩) | ⟨_, ⟨_, rfl, _, ⟨b, hb, rfl⟩, rfl⟩, _, ⟨c, hc, rfl⟩, rfl⟩) |
      ⟨_, ⟨_, rfl, _, ⟨b, hb, rfl⟩, rfl⟩, _, ⟨c, hc, rfl⟩, rfl⟩) | ⟨_, rfl, _, ⟨c, hc, rfl⟩, rfl⟩)
    · exact .inl ⟨a, ha, rfl⟩
    · exact .inr (.inl ⟨a, b, ha.1, ha.2, hb, rfl⟩)
    · exact .inr (.inr ⟨_, b, c, rfl, hc, .inl ⟨hval1, hb⟩⟩)
    · exact .inr (.inr ⟨_, b, c, rfl, hc, .inr (.inl ⟨hval2, hb⟩)⟩)
    · exact .inr (.inr ⟨_, _, c, rfl, ⟨hc.1, hc.2.trans (by decide)⟩, .inr (.inr ⟨hval2, hval5, hc.2⟩)⟩)
  · rintro (⟨a, ha, rfl⟩ | ⟨a, b, hlow, hhigh, hb, rfl⟩ | ⟨a, b, c, rfl, hc, hab⟩)
    · exact .inl (.inl (.inl (.inl ⟨a, ha, rfl⟩)))
    · exact .inl (.inl (.inl (.inr ⟨[a], ⟨a, ⟨hlow, hhigh⟩, rfl⟩, [b], ⟨b, hb, rfl⟩, rfl⟩)))
    · rcases hab with ⟨ha, hb⟩ | ⟨ha, hb⟩ | ⟨ha, hb, hlast⟩
      · obtain rfl : a = 0x31 := Fin.ext ha
        exact .inl (.inl (.inr ⟨_, ⟨_, rfl, [b], ⟨b, hb, rfl⟩, rfl⟩, [c], ⟨c, hc, rfl⟩, rfl⟩))
      · obtain rfl : a = 0x32 := Fin.ext ha
        exact .inl (.inr ⟨_, ⟨_, rfl, [b], ⟨b, hb, rfl⟩, rfl⟩, [c], ⟨c, hc, rfl⟩, rfl⟩)
      · obtain rfl : a = 0x32 := Fin.ext ha
        obtain rfl : b = 0x35 := Fin.ext hb
        exact .inr ⟨_, rfl, [c], ⟨c, ⟨hc.1, hlast⟩, rfl⟩, rfl⟩

theorem ipv4Octet_iff {w : Text} : ipv4Octet w = true ↔ w ∈ decOctet := by
  have hzero : txt "0" = [0x30] := by decide
  rw [mem_decOctet]
  rcases w with _ | ⟨a, _ | ⟨b, _ | ⟨c, _ | ⟨d, w⟩⟩⟩⟩
  · simp [ipv4Octet]
  · simp [ipv4Octet, hzero, Json.isDigit, Json.digitsValue, Json.digitValue]
    simp [digit, Fin.ext_iff]
    omega
  · simp [ipv4Octet, hzero, Json.isDigit, Json.digitsValue, Json.digitValue]
    simp [digit, Fin.ext_iff]
    omega
  · simp [ipv4Octet, hzero, Json.isDigit, Json.digitsValue, Json.digitValue]
    simp [digit, Fin.ext_iff]
    omega
  · simp [ipv4Octet]

theorem isDigit_iff {c : CodePoint} : Json.isDigit c = true ↔ c ∈ digit := by
  rw [Json.isDigit, Bool.and_eq_true, decide_eq_true_eq, decide_eq_true_eq]
  rfl

theorem avoids_decOctet {c : CodePoint} (h : c ∉ digit) : Avoids c decOctet := by
  have hsmaller {S : Set CodePoint} (hS : S ⊆ digit) : Avoids c (oneChar S) := avoids_oneChar fun hm => h (hS hm)
  have hliteral {s : Text} (hs : s.all Json.isDigit = true) : Avoids c {s} :=
    avoids_singleton fun hm => h (isDigit_iff.mp (List.all_eq_true.mp hs c hm))
  have hdigit := hsmaller (Set.Subset.refl digit)
  rw [decOctet]
  refine Avoids.add (Avoids.add (Avoids.add (Avoids.add hdigit (Avoids.mul (hsmaller ?_) hdigit)) ?_) ?_) ?_
  · rintro d ⟨hlow, hhigh⟩
    exact ⟨by omega, hhigh⟩
  · exact ((hliteral (by decide)).mul hdigit).mul hdigit
  · refine ((hliteral (by decide)).mul (hsmaller ?_)).mul hdigit
    rintro d ⟨hlow, hhigh⟩
    exact ⟨hlow, by omega⟩
  · refine (hliteral (by decide)).mul (hsmaller ?_)
    rintro d ⟨hlow, hhigh⟩
    exact ⟨hlow, by omega⟩

theorem mem_ipv4address {w : Text} : w ∈ ipv4address ↔
    ∃ a ∈ decOctet, ∃ b ∈ decOctet, ∃ c ∈ decOctet, ∃ d ∈ decOctet, w = [0x2E].intercalate [a, b, c, d] := by
  have hpoint : txt "." = [0x2E] := by decide
  rw [ipv4address, hpoint]
  constructor
  · rintro ⟨_, ⟨_, ⟨_, ⟨_, ⟨_, ⟨a, ha, _, rfl, rfl⟩, b, hb, rfl⟩, _, rfl, rfl⟩, c, hc, rfl⟩, _, rfl, rfl⟩, d, hd, rfl⟩
    exact ⟨a, ha, b, hb, c, hc, d, hd, by simp [List.intercalate_cons_cons]⟩
  · rintro ⟨a, ha, b, hb, c, hc, d, hd, rfl⟩
    exact ⟨_, ⟨_, ⟨_, ⟨_, ⟨_, ⟨a, ha, _, rfl, rfl⟩, b, hb, rfl⟩, _, rfl, rfl⟩, c, hc, rfl⟩, _, rfl, rfl⟩, d, hd,
      by simp [List.intercalate_cons_cons]⟩

theorem isIpv4Address_iff {w : Text} : isIpv4Address w = true ↔ w ∈ ipv4address := by
  have hpoint : (0x2E : CodePoint) ∉ digit := by
    change ¬(0x30 ≤ (0x2E : CodePoint).val ∧ (0x2E : CodePoint).val ≤ 0x39)
    decide
  rw [mem_ipv4address, isIpv4Address, Bool.and_eq_true, beq_iff_eq, List.all_eq_true]
  simp only [ipv4Octet_iff, splitOn_eq]
  constructor
  · rintro ⟨hlength, hall⟩
    obtain ⟨a, b, c, d, hparts⟩ : ∃ a b c d, w.splitOn 0x2E = [a, b, c, d] := by
      rcases hw : w.splitOn 0x2E with _ | ⟨a, _ | ⟨b, _ | ⟨c, _ | ⟨d, _ | ⟨e, rest⟩⟩⟩⟩⟩
      all_goals simp [hw] at hlength
      exact ⟨a, b, c, d, rfl⟩
    rw [hparts] at hall
    refine ⟨a, hall a (by simp), b, hall b (by simp), c, hall c (by simp), d, hall d (by simp), ?_⟩
    rw [← hparts, List.intercalate_splitOn]
  · rintro ⟨a, ha, b, hb, c, hc, d, hd, rfl⟩
    have hall : ∀ o ∈ [a, b, c, d], o ∈ decOctet := by
      simp only [List.forall_mem_cons]
      exact ⟨ha, hb, hc, hd, List.forall_mem_nil _⟩
    rw [List.splitOn_intercalate _ (fun o ho => avoids_decOctet hpoint o (hall o ho)) (List.cons_ne_nil _ _)]
    exact ⟨rfl, hall⟩

/-! ### Groups and quads -/

theorem hexValue_iff {c : CodePoint} : (Json.hexValue? c).isSome = true ↔ c ∈ hexdig := by
  simp only [Json.hexValue?, hexdig, digit, Set.mem_ofPred_eq]
  split_ifs <;> simp_all

theorem ipv6Hextet_iff {part : Text} : part ≠ [] ∧ ipv6Hextet part = true ↔ part ∈ h16 := by
  rw [mem_h16, ipv6Hextet, Bool.and_eq_true, List.all_eq_true, decide_eq_true_eq]
  simp only [hexValue_iff]
  exact and_congr_right fun _ => and_comm

theorem avoids_h16 {c : CodePoint} (h : c ∉ hexdig) : Avoids c h16 := by
  intro w hw hc
  exact h ((mem_h16.mp hw).2.2 c hc)

theorem avoids_ipv4address {c : CodePoint} (hdigit : c ∉ digit) (hpoint : c ≠ 0x2E) : Avoids c ipv4address := by
  have hoctet := avoids_decOctet hdigit
  have hseparator : Avoids c {txt "."} := by
    have hone : txt "." = [0x2E] := by decide
    rw [hone]
    exact avoids_singleton (by simpa using hpoint)
  exact (((((hoctet.mul hseparator).mul hoctet).mul hseparator).mul hoctet).mul hseparator).mul hoctet

theorem point_mem_ipv4address {w : Text} (h : w ∈ ipv4address) : (0x2E : CodePoint) ∈ w := by
  obtain ⟨a, _, b, _, c, _, d, _, rfl⟩ := mem_ipv4address.mp h
  simp [List.intercalate_cons_cons]

/-- A dotted quad at the end is read as two groups. -/
inductive Expands : List Text → List Text → Prop
  | plain {parts} : (∀ last ∈ parts.getLast?, (0x2E : CodePoint) ∉ last) → Expands parts parts
  | quad {front quad} : quad ∈ ipv4address → Expands (front ++ [quad]) (front ++ [txt "0", txt "0"])

theorem ipv6Parts_eq_some {text : Text} {parts : List Text} :
    ipv6Parts text = some parts ↔ Expands (splitOn 0x3A text) parts := by
  rw [ipv6Parts]
  rcases List.eq_nil_or_concat' (splitOn 0x3A text) with hraw | ⟨front, last, hraw⟩
  · rw [splitOn_eq] at hraw
    exact absurd hraw (List.splitOn_ne_nil _ _)
  · rw [hraw, List.getLast?_concat, List.dropLast_concat]
    dsimp only
    simp only [List.contains_iff_mem]
    constructor
    · intro h
      by_cases hpoint : (0x2E : CodePoint) ∈ last
      · rw [if_pos hpoint] at h
        by_cases hquad : isIpv4Address last = true
        · rw [if_pos hquad] at h
          rw [← Option.some.inj h]
          exact .quad (isIpv4Address_iff.mp hquad)
        · rw [if_neg hquad] at h
          cases h
      · rw [if_neg hpoint] at h
        rw [← Option.some.inj h]
        refine .plain fun l hl => ?_
        rw [List.getLast?_concat, Option.mem_some_iff] at hl
        rwa [← hl]
    · intro h
      generalize hr : front ++ [last] = raw at h
      cases h with
      | plain hlast =>
        have hpoint : (0x2E : CodePoint) ∉ last := hlast last (by rw [← hr, List.getLast?_concat]; rfl)
        rw [if_neg hpoint]
      | quad hquad =>
        obtain ⟨rfl, hsame⟩ := List.append_inj' hr rfl
        obtain rfl := (List.cons.inj hsame).1
        rw [if_pos (point_mem_ipv4address hquad), if_pos (isIpv4Address_iff.mpr hquad)]

theorem zeros_groups : Groups [txt "0", txt "0"] := by
  have hzero : txt "0" ∈ h16 := ipv6Hextet_iff.mp (by decide)
  exact List.forall_mem_cons.mpr ⟨hzero, List.forall_mem_singleton.mpr hzero⟩

theorem point_not_mem_hexdig : (0x2E : CodePoint) ∉ hexdig := by
  rw [← hexValue_iff]
  decide

theorem colon_not_mem_hexdig : (0x3A : CodePoint) ∉ hexdig := by
  rw [← hexValue_iff]
  decide

theorem spans_iff {n : Nat} {raw : List Text} : Spans n raw ↔ ∃ parts, Expands raw parts ∧ Groups parts ∧ parts.length = n := by
  constructor
  · rintro (⟨hgroups, hlength⟩ | ⟨front, quad, rfl, hgroups, hquad, hlength⟩)
    · refine ⟨raw, .plain fun last hlast => ?_, hgroups, hlength⟩
      exact avoids_h16 point_not_mem_hexdig last (hgroups last (List.mem_of_getLast? hlast))
    · exact ⟨_, .quad hquad, List.forall_mem_append.mpr ⟨hgroups, zeros_groups⟩, by simpa using hlength⟩
  · rintro ⟨parts, hexpands, hgroups, hlength⟩
    cases hexpands with
    | plain => exact .inl ⟨hgroups, hlength⟩
    | quad hquad => exact .inr ⟨_, _, rfl, (List.forall_mem_append.mp hgroups).1, hquad, by simpa using hlength⟩

theorem colon_not_mem_of_spans {n : Nat} {parts : List Text} (h : Spans n parts) : ∀ part ∈ parts, (0x3A : CodePoint) ∉ part := by
  have hdigit : (0x3A : CodePoint) ∉ digit := fun hm => colon_not_mem_hexdig (.inl hm)
  have hgroup := avoids_h16 colon_not_mem_hexdig
  rcases h with ⟨hgroups, _⟩ | ⟨front, quad, rfl, hgroups, hquad, _⟩
  · exact fun part hm => hgroup part (hgroups part hm)
  · rw [List.forall_mem_append, List.forall_mem_singleton]
    exact ⟨fun part hm => hgroup part (hgroups part hm), avoids_ipv4address hdigit (by decide) quad hquad⟩

/-! ### The parts of an address -/

/-- The groups on one side of `::`, an empty part where there are none. -/
def side (groups : List Text) : List Text := if groups = [] then [[]] else groups

theorem side_ne_nil (groups : List Text) : side groups ≠ [] := by
  rw [side]
  split
  · exact List.cons_ne_nil _ _
  · assumption

theorem side_of_ne_nil {groups : List Text} (h : groups ≠ []) : side groups = groups := if_neg h

theorem filter_side {groups : List Text} (h : Groups groups) : (side groups).filter (· != []) = groups := by
  rw [side]
  split
  · rename_i hnil
    rw [hnil]
    rfl
  · exact List.filter_eq_self.mpr fun g hg => bne_iff_ne.mpr (mem_h16.mp (h g hg)).1

theorem hextets_side {groups : List Text} (h : Groups groups) : (side groups).all ipv6Hextet = true := by
  rw [side]
  split
  · rfl
  · exact List.all_eq_true.mpr fun g hg => (ipv6Hextet_iff.mpr (h g hg)).2

theorem groups_ne_nil {groups : List Text} (h : Groups groups) : ∀ g ∈ groups, g ≠ [] := fun g hg => (mem_h16.mp (h g hg)).1

/-- Eight groups, or at most seven of them around an empty part. -/
def Ipv6Parts (parts : List Text) : Prop :=
  (Groups parts ∧ parts.length = 8) ∨
    ∃ before after, parts = side before ++ [] :: side after ∧ Groups before ∧ Groups after ∧ before.length + after.length ≤ 7

theorem mem_ipv6Skips {parts : List Text} {k : Nat} :
    k ∈ ipv6Skips parts ↔ 1 ≤ k ∧ k + 1 < parts.length ∧ parts.getD k [] = [] := by
  rw [ipv6Skips, List.mem_filterMap]
  constructor
  · rintro ⟨i, hi, hk⟩
    have hlt := List.mem_range.mp hi
    by_cases hnil : parts.getD (i + 1) [] = []
    · rw [if_pos hnil, Option.some.injEq] at hk
      rw [← hk]
      exact ⟨by omega, by omega, hnil⟩
    · rw [if_neg hnil] at hk
      cases hk
  · rintro ⟨hpos, hlt, hnil⟩
    obtain ⟨i, rfl⟩ := Nat.exists_eq_add_of_le' hpos
    exact ⟨i, List.mem_range.mpr (by omega), if_pos hnil⟩

theorem ipv6Skips_nodup (parts : List Text) : (ipv6Skips parts).Nodup := by
  rw [ipv6Skips]
  refine List.Nodup.filterMap ?_ List.nodup_range
  intro i j k hi hj
  rw [Option.mem_def] at hi hj
  split at hi
  · split at hj
    · rw [Option.some.injEq] at hi hj
      omega
    · cases hj
  · cases hi

theorem getD_side {groups : List Text} (h : Groups groups) {i : Nat} (hi : i < (side groups).length)
    (htwo : 2 ≤ (side groups).length) : (side groups).getD i [] ≠ [] := by
  have hne : groups ≠ [] := by
    rintro rfl
    exact absurd htwo (by decide)
  rw [side_of_ne_nil hne] at hi ⊢
  rw [List.getD_eq_getElem _ _ hi]
  exact groups_ne_nil h _ (List.getElem_mem hi)

/-- The only inner part that is empty stands between the sides. -/
theorem side_inner {before after : List Text} (hbefore : Groups before) (hafter : Groups after) {k : Nat} (hpos : 1 ≤ k)
    (hlt : k + 1 < (side before ++ [] :: side after).length) :
    (side before ++ [] :: side after).getD k [] = [] ↔ k = (side before).length := by
  rw [List.length_append, List.length_cons] at hlt
  rcases Nat.lt_trichotomy k (side before).length with hk | hk | hk
  · rw [List.getD_append _ _ _ _ hk]
    exact iff_of_false (getD_side hbefore hk (by omega)) (by omega)
  · rw [List.getD_append_right _ _ _ _ (by omega), hk, Nat.sub_self]
    exact iff_of_true rfl rfl
  · obtain ⟨j, rfl⟩ := Nat.exists_eq_add_of_lt hk
    have hj : (side before).length + j + 1 - (side before).length = j + 1 := by omega
    rw [List.getD_append_right _ _ _ _ (by omega), hj, List.getD_cons_succ]
    exact iff_of_false (getD_side hafter (by omega) (by omega)) (by omega)

theorem ipv6Skips_side {before after : List Text} (hbefore : Groups before) (hafter : Groups after) :
    ipv6Skips (side before ++ [] :: side after) = [(side before).length] := by
  have hpos := List.length_pos_of_ne_nil (side_ne_nil before)
  have hposAfter := List.length_pos_of_ne_nil (side_ne_nil after)
  refine List.perm_singleton.mp ((List.perm_ext_iff_of_nodup (ipv6Skips_nodup _) (List.nodup_singleton _)).mpr fun k => ?_)
  rw [mem_ipv6Skips, List.mem_singleton]
  constructor
  · rintro ⟨hk, hlt, hnil⟩
    exact (side_inner hbefore hafter hk hlt).mp hnil
  · rintro rfl
    have hlt : (side before).length + 1 < (side before ++ [] :: side after).length := by
      rw [List.length_append, List.length_cons]
      omega
    exact ⟨hpos, hlt, (side_inner hbefore hafter hpos hlt).mpr rfl⟩

theorem groups_no_skips {parts : List Text} (h : Groups parts) : ipv6Skips parts = [] := by
  refine List.eq_nil_iff_forall_not_mem.mpr fun k hk => ?_
  obtain ⟨_, hlt, hnil⟩ := mem_ipv6Skips.mp hk
  rw [List.getD_eq_getElem _ _ (Nat.lt_of_succ_lt hlt)] at hnil
  exact groups_ne_nil h _ (List.getElem_mem _) hnil

/-- Parts of which only a single one may be empty. -/
theorem eq_side {parts : List Text} (hne : parts ≠ []) (h : [] ∈ parts → parts.length = 1) :
    parts = side (parts.filter (· != [])) := by
  by_cases hnil : [] ∈ parts
  · obtain ⟨part, rfl⟩ := List.length_eq_one_iff.mp (h hnil)
    rw [← List.mem_singleton.mp hnil]
    rfl
  · have hall : ∀ part ∈ parts, (part != []) = true := by
      intro part hm
      rw [bne_iff_ne]
      rintro rfl
      exact hnil hm
    rw [List.filter_eq_self.mpr hall, side_of_ne_nil hne]

/-- Around the only inner empty part, an empty part is the whole of its side. -/
theorem split_sides {parts : List Text} {k : Nat} (hskips : ipv6Skips parts = [k])
    (hhead : (parts.take k).head? ≠ some [] ∨ (parts.take k).length = 1)
    (hlast : (parts.drop (k + 1)).getLast? ≠ some [] ∨ (parts.drop (k + 1)).length = 1) :
    parts = side ((parts.take k).filter (· != [])) ++ [] :: side ((parts.drop (k + 1)).filter (· != [])) := by
  obtain ⟨hpos, hlt, hnil⟩ := mem_ipv6Skips.mp (by rw [hskips]; exact List.mem_singleton_self k)
  have honly {j : Nat} (hj : 1 ≤ j) (hinner : j + 1 < parts.length) (hempty : parts.getD j [] = []) : j = k := by
    have hm := mem_ipv6Skips.mpr ⟨hj, hinner, hempty⟩
    rw [hskips] at hm
    exact List.mem_singleton.mp hm
  have hfront : (parts.take k).length = k := by
    rw [List.length_take]
    omega
  have hback : (parts.drop (k + 1)).length = parts.length - (k + 1) := List.length_drop
  rw [← eq_side (List.ne_nil_of_length_pos (by omega)), ← eq_side (List.ne_nil_of_length_pos (by omega))]
  · have hk : parts[k] = [] := by rwa [List.getD_eq_getElem _ _ (Nat.lt_of_succ_lt hlt)] at hnil
    rw [← hk, List.getElem_cons_drop, List.take_append_drop]
  · intro hm
    obtain ⟨i, hi, hempty⟩ := List.mem_iff_getElem.mp hm
    rw [List.getElem_drop] at hempty
    refine hlast.resolve_left fun hne => hne ?_
    by_cases hinner : i + 1 < (parts.drop (k + 1)).length
    · have hj := honly (j := k + 1 + i) (by omega) (by omega) (by rw [List.getD_eq_getElem _ _ (by omega), hempty])
      omega
    · rw [List.getLast?_eq_getElem?, List.getElem?_eq_some_iff]
      refine ⟨by omega, ?_⟩
      rw [List.getElem_drop, ← hempty]
      congr 1
      omega
  · intro hm
    obtain ⟨i, hi, hempty⟩ := List.mem_iff_getElem.mp hm
    rw [List.getElem_take] at hempty
    refine hhead.resolve_left fun hne => hne ?_
    by_cases hinner : 1 ≤ i
    · have hj := honly hinner (by omega) (by rw [List.getD_eq_getElem _ _ (by omega), hempty])
      omega
    · rw [List.head?_eq_getElem?, List.getElem?_eq_some_iff]
      refine ⟨by omega, ?_⟩
      rw [List.getElem_take, ← hempty]
      congr 1
      omega

/-! ### The parser -/

section

variable {parts : List Text}

theorem ipv6Parts_of_no_skip (hskips : ipv6Skips parts = []) : Ipv6Parts parts ↔ parts.length = 8 ∧ Groups parts := by
  constructor
  · rintro (⟨hgroups, hlength⟩ | ⟨before, after, rfl, hbefore, hafter, _⟩)
    · exact ⟨hlength, hgroups⟩
    · rw [ipv6Skips_side hbefore hafter] at hskips
      cases hskips
  · rintro ⟨hlength, hgroups⟩
    exact .inl ⟨hgroups, hlength⟩

theorem ipv6Parts_of_skip {k : Nat} (hskips : ipv6Skips parts = [k]) : Ipv6Parts parts ↔
    ((((parts.take k).head? ≠ some [] ∨ (parts.take k).length = 1) ∧
      ((parts.drop (k + 1)).getLast? ≠ some [] ∨ (parts.drop (k + 1)).length = 1)) ∧
      ((parts.take k).filter (· != [])).length + ((parts.drop (k + 1)).filter (· != [])).length < 8) ∧
      (parts.take k).all ipv6Hextet = true ∧ (parts.drop (k + 1)).all ipv6Hextet = true := by
  have hside {groups : List Text} (h : Groups groups) {extreme : Option Text} (hend : extreme = some [] → [] ∈ side groups) :
      extreme ≠ some [] ∨ (side groups).length = 1 := by
    by_cases hnil : groups = []
    · rw [hnil]
      exact .inr rfl
    · refine .inl fun he => ?_
      have hm := hend he
      rw [side_of_ne_nil hnil] at hm
      exact groups_ne_nil h _ hm rfl
  constructor
  · rintro (⟨hgroups, _⟩ | ⟨before, after, rfl, hbefore, hafter, hcount⟩)
    · rw [groups_no_skips hgroups] at hskips
      cases hskips
    · rw [ipv6Skips_side hbefore hafter] at hskips
      obtain rfl := (List.cons.inj hskips).1
      rw [List.take_left, List.append_cons, List.drop_left' (by rw [List.length_append, List.length_singleton]),
        filter_side hbefore, filter_side hafter]
      exact ⟨⟨⟨hside hbefore List.mem_of_head?, hside hafter List.mem_of_getLast?⟩, by omega⟩, hextets_side hbefore,
        hextets_side hafter⟩
  · rintro ⟨⟨⟨hhead, hlast⟩, hcount⟩, hbefore, hafter⟩
    have hgroups {side : List Text} (h : side.all ipv6Hextet = true) : Groups (side.filter (· != [])) := by
      intro g hg
      obtain ⟨hm, hne⟩ := List.mem_filter.mp hg
      exact ipv6Hextet_iff.mp ⟨bne_iff_ne.mp hne, List.all_eq_true.mp h g hm⟩
    exact .inr ⟨_, _, split_sides hskips hhead hlast, hgroups hbefore, hgroups hafter, Nat.le_of_lt_succ hcount⟩

theorem not_ipv6Parts_of_skips {i j : Nat} {rest : List Nat} (hskips : ipv6Skips parts = i :: j :: rest) :
    ¬Ipv6Parts parts := by
  rintro (⟨hgroups, _⟩ | ⟨before, after, rfl, hbefore, hafter, _⟩)
  · rw [groups_no_skips hgroups] at hskips
    cases hskips
  · rw [ipv6Skips_side hbefore hafter] at hskips
    cases hskips

/-- Two groups read from a dotted quad stand behind `::`. -/
theorem sides_quad {front before after : List Text} (h : front ++ [txt "0", txt "0"] = side before ++ [] :: side after) :
    ∃ rest, after = rest ++ [txt "0", txt "0"] ∧ front = side before ++ [] :: rest := by
  have hzero : txt "0" ≠ [] := by decide
  rcases List.eq_nil_or_concat' after with rfl | ⟨rest, last, rfl⟩
  · have hends : [txt "0", txt "0"] = [] :: side [] := (List.append_inj' h rfl).2
    exact absurd (List.cons.inj hends).1 hzero
  · have hne : rest ++ [last] ≠ [] := List.append_ne_nil_of_right_ne_nil _ (List.cons_ne_nil _ _)
    rw [side_of_ne_nil hne] at h
    rcases List.eq_nil_or_concat' rest with rfl | ⟨rest, x, rfl⟩
    · have hends := (List.append_inj' h rfl).2
      exact absurd (List.cons.inj hends).1 hzero
    · rw [show side before ++ [] :: (rest ++ [x] ++ [last]) = (side before ++ [] :: rest) ++ [x, last] by simp] at h
      obtain ⟨hfront, hends⟩ := List.append_inj' h rfl
      obtain ⟨rfl, hlast⟩ := List.cons.inj hends
      obtain ⟨rfl, _⟩ := List.cons.inj hlast
      exact ⟨rest, by simp, hfront⟩

theorem side_length (groups : List Text) : 1 ≤ (side groups).length ∧ (side groups).length ≤ groups.length + 1 ∧
    (groups ≠ [] → (side groups).length = groups.length) := by
  refine ⟨List.length_pos_of_ne_nil (side_ne_nil groups), ?_, fun h => by rw [side_of_ne_nil h]⟩
  rw [side]
  split
  · exact Nat.le_add_left _ _
  · exact Nat.le_succ _

theorem length_of_ipv6Parts {raw : List Text} (hexpands : Expands raw parts) (h : Ipv6Parts parts) :
    3 ≤ raw.length ∧ parts.length ≤ 9 := by
  rcases h with ⟨_, hlength⟩ | ⟨before, after, hparts, _, _, hcount⟩
  · cases hexpands with
    | plain => omega
    | quad =>
      rw [List.length_append] at hlength ⊢
      simp only [List.length_cons, List.length_nil] at hlength ⊢
      simp
      omega
  · obtain ⟨hb, hb', hb''⟩ := side_length before
    obtain ⟨ha, ha', ha''⟩ := side_length after
    have hlength := congrArg List.length hparts
    rw [List.length_append, List.length_cons] at hlength
    refine ⟨?_, ?_⟩
    · cases hexpands with
      | plain => omega
      | quad =>
        obtain ⟨rest, _, rfl⟩ := sides_quad hparts
        simp only [List.length_append, List.length_cons]
        omega
    · -- an empty side is one part, and the other then has at most seven
      by_cases hnb : before = []
      · have hone : (side before).length = 1 := by rw [hnb]; rfl
        by_cases hna : after = []
        · have hone' : (side after).length = 1 := by rw [hna]; rfl
          omega
        · have := ha'' hna
          omega
      · have := hb'' hnb
        omega

end

theorem isIpv6Address_iff_parts {text : Text} :
    isIpv6Address text = true ↔ ∃ parts, Expands (splitOn 0x3A text) parts ∧ Ipv6Parts parts := by
  rw [isIpv6Address]
  cases hparts : ipv6Parts text with
  | none =>
    refine iff_of_false Bool.false_ne_true ?_
    rintro ⟨parts, hexpands, _⟩
    rw [ipv6Parts_eq_some.mpr hexpands] at hparts
    cases hparts
  | some parts =>
    have hexpands := ipv6Parts_eq_some.mp hparts
    have hunique : (∃ parts, Expands (splitOn 0x3A text) parts ∧ Ipv6Parts parts) ↔ Ipv6Parts parts := by
      constructor
      · rintro ⟨parts', hexpands', hformed⟩
        rw [← ipv6Parts_eq_some, hparts, Option.some.injEq] at hexpands'
        rwa [hexpands']
      · intro hformed
        exact ⟨parts, hexpands, hformed⟩
    rw [hunique]
    dsimp only
    simp only [Bool.and_eq_true, decide_eq_true_eq]
    constructor
    · rintro ⟨_, h⟩
      rcases hskips : ipv6Skips parts with _ | ⟨k, _ | ⟨j, rest⟩⟩
      · simp only [hskips, Bool.and_eq_true, beq_iff_eq, List.all_eq_true, Bool.not_eq_true', List.isEmpty_eq_false_iff,
          ipv6Hextet_iff] at h
        exact (ipv6Parts_of_no_skip hskips).mpr h
      · simp only [hskips, Bool.and_eq_true, Bool.or_eq_true, beq_iff_eq, bne_iff_ne, decide_eq_true_eq] at h
        exact (ipv6Parts_of_skip hskips).mpr ⟨h.1.1, h.1.2, h.2⟩
      · rw [hskips] at h
        cases h
    · intro hformed
      refine ⟨length_of_ipv6Parts hexpands hformed, ?_⟩
      rcases hskips : ipv6Skips parts with _ | ⟨k, _ | ⟨j, rest⟩⟩
      · simp only [Bool.and_eq_true, beq_iff_eq, List.all_eq_true, Bool.not_eq_true', List.isEmpty_eq_false_iff,
          ipv6Hextet_iff]
        exact (ipv6Parts_of_no_skip hskips).mp hformed
      · simp only [Bool.and_eq_true, Bool.or_eq_true, beq_iff_eq, bne_iff_ne, decide_eq_true_eq]
        obtain ⟨h, hbefore, hafter⟩ := (ipv6Parts_of_skip hskips).mp hformed
        exact ⟨⟨h, hbefore⟩, hafter⟩
      · exact absurd hformed (not_ipv6Parts_of_skips hskips)

/-! ### The grammar -/

theorem expands_append {front raw parts : List Text} (hne : raw ≠ []) (h : Expands raw parts) :
    Expands (front ++ raw) (front ++ parts) := by
  cases h with
  | plain hlast =>
    refine .plain ?_
    rwa [List.getLast?_append_of_ne_nil _ hne]
  | quad hquad =>
    rw [← List.append_assoc, ← List.append_assoc]
    exact .quad hquad

theorem expands_side {raw parts : List Text} (h : Expands raw parts) : Expands (side raw) (side parts) := by
  cases h with
  | plain hlast =>
    refine .plain fun last hm => ?_
    by_cases hnil : raw = []
    · rw [hnil] at hm
      obtain rfl := Option.mem_some_iff.mp hm
      exact List.not_mem_nil
    · rw [side_of_ne_nil hnil] at hm
      exact hlast last hm
  | @quad front quad hquad =>
    rw [side_of_ne_nil (List.concat_ne_nil quad front), side_of_ne_nil (List.append_ne_nil_of_right_ne_nil _ (List.cons_ne_nil _ _))]
    exact .quad hquad

/-- Only what stands behind `::` is expanded. -/
theorem expands_sides {before after : List Text} {raw : List Text} :
    Expands raw (side before ++ [] :: side after) ↔ ∃ back, raw = side before ++ [] :: side back ∧ Expands back after := by
  constructor
  · intro h
    generalize hparts : side before ++ [] :: side after = parts at h
    cases h with
    | plain hlast =>
      refine ⟨after, hparts.symm, .plain fun last hm => ?_⟩
      rw [← hparts, List.append_cons, List.getLast?_append_of_ne_nil _ (side_ne_nil after)] at hlast
      have hne : after ≠ [] := by
        rintro rfl
        cases hm
      rw [side_of_ne_nil hne] at hlast
      exact hlast last hm
    | @quad front quad hquad =>
      obtain ⟨rest, rfl, rfl⟩ := sides_quad hparts.symm
      refine ⟨rest ++ [quad], ?_, .quad hquad⟩
      rw [side_of_ne_nil (List.append_ne_nil_of_right_ne_nil rest (List.cons_ne_nil quad [])), List.append_assoc, List.cons_append]
  · rintro ⟨back, rfl, h⟩
    rw [List.append_cons _ _ (side back), List.append_cons _ _ (side after)]
    exact expands_append (side_ne_nil back) (expands_side h)

theorem intercalate_side (groups : List Text) : [0x3A].intercalate (side groups) = [0x3A].intercalate groups := by
  by_cases hnil : groups = []
  · rw [hnil]
    rfl
  · rw [side_of_ne_nil hnil]

theorem intercalate_sides (before after : List Text) : [0x3A].intercalate (side before ++ [] :: side after) =
    [0x3A].intercalate before ++ txt "::" ++ [0x3A].intercalate after := by
  have hcolons : txt "::" = [0x3A, 0x3A] := by decide
  rw [← intercalate_side before, ← intercalate_side after, hcolons]
  generalize hs : side before = front
  have hne := side_ne_nil before
  rw [hs] at hne
  clear hs
  induction front with
  | nil => exact absurd rfl hne
  | cons part front ih =>
    cases front with
    | nil => rw [List.singleton_append, List.intercalate_cons_cons, List.intercalate_cons_of_ne_nil (side_ne_nil after)]; simp
    | cons next front =>
      rw [List.cons_append, List.cons_append, List.intercalate_cons_cons, ← List.cons_append, ih (List.cons_ne_nil _ _),
        List.intercalate_cons_cons]
      simp

/-- The parser takes the addresses of the grammar. -/
theorem isIpv6Address_iff {text : Text} : isIpv6Address text = true ↔ text ∈ ipv6address := by
  rw [isIpv6Address_iff_parts, mem_ipv6address]
  have hjoin : [0x3A].intercalate (splitOn 0x3A text) = text := by rw [splitOn_eq, List.intercalate_splitOn]
  constructor
  · rintro ⟨parts, hexpands, ⟨hgroups, hlength⟩ | ⟨before, after, rfl, hbefore, hafter, hcount⟩⟩
    · exact .inl ⟨_, spans_iff.mpr ⟨parts, hexpands, hgroups, hlength⟩, hjoin.symm⟩
    · obtain ⟨back, hraw, hback⟩ := expands_sides.mp hexpands
      refine .inr ⟨after.length, before, back, hbefore, spans_iff.mpr ⟨after, hback, hafter, rfl⟩, hcount, ?_⟩
      rw [← intercalate_sides, ← hraw, hjoin]
  · rintro (⟨raw, hspans, rfl⟩ | ⟨n, before, back, hbefore, hspans, hcount, rfl⟩)
    · obtain ⟨parts, hexpands, hgroups, hlength⟩ := spans_iff.mp hspans
      have hne : raw ≠ [] := by
        rintro rfl
        generalize hr : ([] : List Text) = raw at hexpands
        cases hexpands with
        | plain => rw [← hr] at hlength; cases hlength
        | quad => simp at hr
      rw [splitOn_join hne (colon_not_mem_of_spans hspans)]
      exact ⟨parts, hexpands, .inl ⟨hgroups, hlength⟩⟩
    · obtain ⟨after, hexpands, hafter, hlength⟩ := spans_iff.mp hspans
      have hside {groups : List Text} (h : ∀ part ∈ groups, (0x3A : CodePoint) ∉ part) :
          ∀ part ∈ side groups, (0x3A : CodePoint) ∉ part := by
        by_cases hnil : groups = []
        · rw [hnil]
          exact List.forall_mem_singleton.mpr List.not_mem_nil
        · rwa [side_of_ne_nil hnil]
      have hfront := hside (colon_not_mem_of_spans (.inl ⟨hbefore, rfl⟩))
      have hbehind := hside (colon_not_mem_of_spans hspans)
      rw [← intercalate_sides, splitOn_join (by simp)
        (List.forall_mem_append.mpr ⟨hfront, List.forall_mem_cons.mpr ⟨List.not_mem_nil, hbehind⟩⟩)]
      exact ⟨_, expands_sides.mpr ⟨back, rfl, hexpands⟩, .inr ⟨before, after, rfl, hbefore, hafter, by omega⟩⟩

end AitpVerifier
