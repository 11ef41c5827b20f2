import AitpVerifier.Base64Forms
import AitpVerifier.ReadBack
import AitpVerifier.Recorded

/-!
# Minted tokens read back

The minter escapes its header to ASCII, writes its claims canonically and joins three
base64url segments. The verifier splits the segments, decodes them and scans both texts
to what was minted, unless the `typ` holds a surrogate pair, which the scanner joins.
-/
namespace AitpVerifier

open PyText Checked Json Jcs

/-! ### Surrogates -/

def HighSurrogate (c : CodePoint) : Prop := 0xD800 ≤ c.val ∧ c.val < 0xDC00

def LowSurrogate (c : CodePoint) : Prop := 0xDC00 ≤ c.val ∧ c.val < 0xE000

instance (c : CodePoint) : Decidable (HighSurrogate c) := inferInstanceAs (Decidable (_ ∧ _))

instance (c : CodePoint) : Decidable (LowSurrogate c) := inferInstanceAs (Decidable (_ ∧ _))

/-- A text as the parser reads its escapes: each high surrogate right before a low one
is joined with it. -/
def joinPairs : Text → Text
  | [] => []
  | [c] => [c]
  | c :: d :: s =>
    if HighSurrogate c ∧ LowSurrogate d then
      Fin.ofNat _ (0x10000 + (c.val - 0xD800) * 0x400 + (d.val - 0xDC00)) :: joinPairs s
    else c :: joinPairs (d :: s)

/-- No high surrogate stands right before a low one. -/
def Unjoined (s : Text) : Prop := s.IsChain fun c d => ¬(HighSurrogate c ∧ LowSurrogate d)

theorem joinPairs_length_le (s : Text) : (joinPairs s).length ≤ s.length := by
  induction s using joinPairs.induct with
  | case1 => exact Nat.le_refl _
  | case2 => exact Nat.le_refl _
  | case3 c d s hpair ih =>
    rw [joinPairs, if_pos hpair]
    simp only [List.length_cons]
    omega
  | case4 c d s hnone ih =>
    rw [joinPairs, if_neg hnone]
    simpa using ih

/-- Joining changes nothing exactly when there is nothing to join. -/
theorem joinPairs_eq_self_iff {s : Text} : joinPairs s = s ↔ Unjoined s := by
  induction s using joinPairs.induct with
  | case1 => simp [joinPairs, Unjoined]
  | case2 => simp [joinPairs, Unjoined]
  | case3 c d s hpair ih =>
    have hshort := joinPairs_length_le s
    rw [joinPairs, if_pos hpair]
    constructor
    · intro h
      have hlength := congrArg List.length h
      simp only [List.length_cons] at hlength
      omega
    · intro h
      exact absurd hpair (List.isChain_cons_cons.mp h).1
  | case4 c d s hnone ih =>
    rw [joinPairs, if_neg hnone, List.cons.injEq, ih, Unjoined, Unjoined, List.isChain_cons_cons]
    exact ⟨fun h => ⟨hnone, h.2⟩, fun h => ⟨rfl, h.2⟩⟩

/-! ### One character of `json.dumps` -/

theorem slashU_eq : txt "\\u" = [0x5C, 0x75] := by decide

/-- The four forms a character takes. -/
inductive Dumped (c : CodePoint) : Text → Prop
  | named {e : CodePoint} (he : e ≠ 0x75) (hascii : e.val < 0x80) (hc : namedEscape? e = some c) : Dumped c [0x5C, e]
  | plain (hquote : c ≠ 0x22) (hslash : c ≠ 0x5C) (hlow : 0x20 ≤ c.val) (hhigh : c.val < 0x7F) : Dumped c [c]
  | unit (hc : c.val < 0x10000) : Dumped c (0x5C :: 0x75 :: hex 4 c.val)
  | pair (hc : 0x10000 ≤ c.val) :
      Dumped c (0x5C :: 0x75 :: (hex 4 (0xD800 + (c.val - 0x10000) / 0x400) ++
        0x5C :: 0x75 :: hex 4 (0xDC00 + (c.val - 0x10000) % 0x400)))

theorem dumped (c : CodePoint) : Dumped c (dumpsChar c) := by
  rw [dumpsChar]
  cases hnamed : namedEscape c with
  | some escape =>
    obtain ⟨e, rfl, he, hc⟩ := namedEscape_eq_some hnamed
    have hascii : e.val < 0x80 := by
      by_contra hlarge
      have hnone : namedEscape? e = none := by
        unfold namedEscape?
        iterate 8 rw [if_neg (by rintro rfl; exact hlarge (by decide))]
      rw [hnone] at hc
      cases hc
    exact .named he hascii hc
  | none =>
    obtain ⟨hquote, hslash⟩ := namedEscape_eq_none hnamed
    dsimp only
    split
    · rename_i hplain
      exact .plain hquote hslash hplain.1 (by omega)
    · split
      · rename_i hunit
        rw [slashU_eq]
        exact .unit hunit
      · rename_i hpair
        rw [slashU_eq, List.append_assoc, List.append_assoc]
        exact .pair (Nat.not_lt.mp hpair)

theorem hexDigit_ascii (n : Nat) : (hexDigit (n % 16)).val < 0x80 := by
  have hall : ∀ d < 16, (hexDigit d).val < 0x80 := by decide
  exact hall _ (Nat.mod_lt _ (by decide))

theorem hex_ascii (v : Nat) : ∀ d ∈ hex 4 v, d.val < 0x80 := by
  intro d hd
  simp only [hex, List.nil_append, List.cons_append, List.mem_cons, List.not_mem_nil, or_false] at hd
  rcases hd with rfl | rfl | rfl | rfl <;> exact hexDigit_ascii _

theorem Dumped.ascii {c : CodePoint} {text : Text} (h : Dumped c text) : ∀ d ∈ text, d.val < 0x80 := by
  have hslashU : (0x5C : CodePoint).val < 0x80 ∧ (0x75 : CodePoint).val < 0x80 := by decide
  cases h with
  | named _ hascii => simp [hascii]
  | plain _ _ _ hhigh => simpa using Nat.lt_of_lt_of_le hhigh (by decide)
  | unit => simpa [hslashU.1, hslashU.2] using hex_ascii _
  | pair =>
    simp only [List.mem_cons, List.mem_append, forall_eq_or_imp, hslashU, true_and]
    rintro d (hd | rfl | rfl | hd)
    · exact hex_ascii _ d hd
    · exact hslashU.1
    · exact hslashU.2
    · exact hex_ascii _ d hd

theorem Dumped.ne_nil {c : CodePoint} {text : Text} (h : Dumped c text) : text ≠ [] := by
  cases h <;> exact List.cons_ne_nil _ _

theorem dumpsChar_surrogate {c : CodePoint} (h : HighSurrogate c ∨ LowSurrogate c) :
    dumpsChar c = 0x5C :: 0x75 :: hex 4 c.val := by
  have hrange : 0xD800 ≤ c.val ∧ c.val < 0xE000 := by
    rcases h with hhigh | hlow
    · exact ⟨hhigh.1, hhigh.2.trans (by decide)⟩
    · exact ⟨Nat.le_trans (by decide) hlow.1, hlow.2⟩
  have hnone : namedEscape c = none := by
    unfold namedEscape
    iterate 7 rw [if_neg (by rintro rfl; exact absurd hrange (by decide))]
  rw [dumpsChar, hnone]
  dsimp only
  rw [if_neg (by omega), if_pos (by omega), slashU_eq]
  rfl

section

variable {start rest : Text} {fuel : Nat}

/-- What follows is no escaped low surrogate. -/
def Unpaired (rest : Text) : Prop :=
  ∀ more, rest = 0x5C :: 0x75 :: more → ∃ v tail, hex4? more = some (v, tail) ∧ ¬(0xDC00 ≤ v ∧ v < 0xE000)

theorem unicodeEscape_unpaired {v : Nat} (hv : v < 0x10000) (h : Unpaired rest) :
    unicodeEscape start (hex 4 v ++ rest) = .ok (Fin.ofNat _ v, rest) := by
  by_cases hhigh : 0xD800 ≤ v ∧ v < 0xDC00
  · rw [unicodeEscape, hex4?_hex hv]
    dsimp only
    rw [if_pos hhigh]
    split
    · rename_i backslash u more
      split
      · rename_i hescape
        obtain ⟨low, tail, hlow, hnot⟩ := h more (by rw [hescape.1, hescape.2.1])
        rw [hlow]
        exact if_neg hnot
      · rfl
    · rfl
  · exact unicodeEscape_alone hv hhigh

theorem unicodeEscape_pair {high low : Nat} (hhigh : 0xD800 ≤ high ∧ high < 0xDC00) (hlow : 0xDC00 ≤ low ∧ low < 0xE000)
    (hrest : rest ≠ []) :
    unicodeEscape start (hex 4 high ++ (0x5C :: 0x75 :: (hex 4 low ++ rest))) =
      .ok (Fin.ofNat _ (0x10000 + (high - 0xD800) * 0x400 + (low - 0xDC00)), rest) := by
  have hlength : 4 < (hex 4 low ++ rest).length := by
    have hpos := List.length_pos_iff.mpr hrest
    have hfour : (hex 4 low).length = 4 := rfl
    rw [List.length_append]
    omega
  rw [unicodeEscape, hex4?_hex (by omega)]
  dsimp only
  rw [if_pos hhigh, if_pos ⟨rfl, rfl, hlength⟩, hex4?_hex (by omega)]
  exact if_pos hlow

/-- One character is read back, if it is no high surrogate that what follows pairs. -/
theorem scanString_dumpsChar (c : CodePoint) (h : HighSurrogate c → Unpaired rest) (hrest : rest ≠ []) :
    scanString start (fuel + 1) (dumpsChar c ++ rest) = prepend c (scanString start fuel rest) := by
  have hdumped := dumped c
  generalize dumpsChar c = text at hdumped ⊢
  cases hdumped with
  | named he _ hc => exact scanString_named he hc
  | plain hquote hslash hlow _ => exact scanString_plain hquote hslash hlow
  | unit hc =>
    have hback : Fin.ofNat _ c.val = c := Fin.ofNat_val_eq_self c
    apply scanString_unicode
    by_cases hhigh : HighSurrogate c
    · rw [unicodeEscape_unpaired hc (h hhigh), hback]
    · rw [unicodeEscape_alone hc hhigh, hback]
  | pair hc =>
    have hmax := c.isLt
    have hback : 0x10000 + (0xD800 + (c.val - 0x10000) / 0x400 - 0xD800) * 0x400 +
        (0xDC00 + (c.val - 0x10000) % 0x400 - 0xDC00) = c.val := by omega
    have hpair := @unicodeEscape_pair (0x75 :: (hex 4 (0xD800 + (c.val - 0x10000) / 0x400) ++
        0x5C :: 0x75 :: (hex 4 (0xDC00 + (c.val - 0x10000) % 0x400) ++ rest))) rest
      (0xD800 + (c.val - 0x10000) / 0x400) (0xDC00 + (c.val - 0x10000) % 0x400) (by omega) (by omega) hrest
    rw [hback, Fin.ofNat_val_eq_self] at hpair
    rw [List.cons_append, List.cons_append, List.append_assoc, List.cons_append, List.cons_append]
    exact scanString_unicode hpair

/-- What starts with no low surrogate is dumped as no escaped one. -/
theorem unpaired_dumps {s : Text} (h : ∀ d ∈ s.head?, ¬ LowSurrogate d) :
    Unpaired (s.flatMap dumpsChar ++ 0x22 :: rest) := by
  intro more hmore
  cases s with
  | nil => exact absurd (List.cons.inj hmore).1 (by decide)
  | cons d s =>
    have hlow := h d rfl
    have hdumped := dumped d
    rw [List.flatMap_cons] at hmore
    generalize dumpsChar d = text at hdumped hmore
    cases hdumped with
    | named he _ _ =>
      simp only [List.cons_append, List.cons.injEq] at hmore
      exact absurd hmore.2.1 he
    | plain _ hslash _ _ =>
      simp only [List.cons_append, List.cons.injEq] at hmore
      exact absurd hmore.1 hslash
    | unit hc =>
      simp only [List.cons_append, List.append_assoc, List.cons.injEq, true_and] at hmore
      rw [← hmore, hex4?_hex hc]
      exact ⟨_, _, rfl, hlow⟩
    | pair hc =>
      have hmax := d.isLt
      simp only [List.cons_append, List.append_assoc, List.cons.injEq, true_and] at hmore
      rw [← hmore, hex4?_hex (by omega)]
      exact ⟨_, _, rfl, by omega⟩

/-- A dumped string is read back with its surrogate pairs joined, up to its closing quote. -/
theorem scanString_dumps {s : Text} (hfuel : s.length < fuel) :
    scanString start fuel (s.flatMap dumpsChar ++ 0x22 :: rest) = .ok (joinPairs s, rest) := by
  have hne (s : Text) : s.flatMap dumpsChar ++ 0x22 :: rest ≠ [] := by simp
  induction s using joinPairs.induct generalizing fuel with
  | case1 =>
    obtain ⟨fuel, rfl⟩ := Nat.exists_eq_succ_of_ne_zero (Nat.ne_zero_of_lt hfuel)
    rfl
  | case2 c =>
    obtain ⟨fuel, rfl⟩ := Nat.exists_eq_add_of_le' (Nat.succ_le_of_lt hfuel)
    have hunpaired (_ : HighSurrogate c) : Unpaired (([] : Text).flatMap dumpsChar ++ 0x22 :: rest) :=
      unpaired_dumps fun _ hd _ => Option.some_ne_none _ hd.symm
    change scanString start (fuel + 1 + 1) _ = _
    rw [List.flatMap_cons, List.append_assoc, scanString_dumpsChar c hunpaired (hne _)]
    rfl
  | case3 c d s hpair ih =>
    obtain ⟨fuel, rfl⟩ := Nat.exists_eq_succ_of_ne_zero (Nat.ne_zero_of_lt hfuel)
    have hescape := @unicodeEscape_pair (0x75 :: (hex 4 c.val ++ 0x5C :: 0x75 :: (hex 4 d.val ++
      (s.flatMap dumpsChar ++ 0x22 :: rest)))) _ _ _ hpair.1 hpair.2 (hne s)
    have htext : (c :: d :: s).flatMap dumpsChar ++ 0x22 :: rest = 0x5C :: 0x75 :: (hex 4 c.val ++
        0x5C :: 0x75 :: (hex 4 d.val ++ (s.flatMap dumpsChar ++ 0x22 :: rest))) := by
      rw [List.flatMap_cons, List.flatMap_cons, dumpsChar_surrogate (.inl hpair.1), dumpsChar_surrogate (.inr hpair.2)]
      simp only [List.cons_append, List.append_assoc]
    have hlength : s.length < fuel := by
      simp only [List.length_cons] at hfuel
      omega
    rw [htext, scanString_unicode hescape, ih hlength, joinPairs, if_pos hpair]
    rfl
  | case4 c d s hnone ih =>
    obtain ⟨fuel, rfl⟩ := Nat.exists_eq_succ_of_ne_zero (Nat.ne_zero_of_lt hfuel)
    have hunpaired (hhigh : HighSurrogate c) : Unpaired ((d :: s).flatMap dumpsChar ++ 0x22 :: rest) := by
      refine unpaired_dumps fun e he hlow => hnone ⟨hhigh, ?_⟩
      rw [Option.some.inj he]
      exact hlow
    rw [List.flatMap_cons, List.append_assoc, scanString_dumpsChar c hunpaired (hne _), ih (by simpa using hfuel), joinPairs,
      if_neg hnone]
    rfl

end

theorem length_le_dumps (s : Text) : s.length ≤ (s.flatMap dumpsChar).length := by
  induction s with
  | nil => exact Nat.le_refl _
  | cons c s ih =>
    have hc := List.length_pos_iff.mpr (dumped c).ne_nil
    rw [List.flatMap_cons, List.length_append, List.length_cons]
    omega

theorem dumpsString_eq (s : Text) : dumpsString s = 0x22 :: (s.flatMap dumpsChar ++ [0x22]) := by
  have hquote : txt "\"" = [0x22] := by decide
  rw [dumpsString, hquote]
  rfl

theorem dumpsString_ascii (s : Text) : ∀ d ∈ dumpsString s, d.val < 0x80 := by
  have hquote : (0x22 : CodePoint).val < 0x80 := by decide
  intro d hd
  simp only [dumpsString_eq, List.mem_cons, List.mem_append, List.mem_flatMap, List.not_mem_nil, or_false] at hd
  rcases hd with rfl | ⟨c, _, hc⟩ | rfl
  · exact hquote
  · exact (dumped c).ascii d hc
  · exact hquote

theorem reads_dumps {hooks : Hooks} {room : Nat} (s : Text) : Reads hooks room (dumpsString s) (.str (joinPairs s)) := by
  intro rest _
  have hlength := length_le_dumps s
  have hbody : scanString (0x22 :: (s.flatMap dumpsChar ++ 0x22 :: rest)) ((s.flatMap dumpsChar ++ 0x22 :: rest).length + 1)
      (s.flatMap dumpsChar ++ 0x22 :: rest) = .ok (joinPairs s, rest) := by
    apply scanString_dumps
    rw [List.length_append]
    omega
  rw [dumpsString_eq, List.cons_append, List.append_assoc, List.singleton_append, scanValue, scanOnce.eq_def]
  dsimp only
  rw [if_pos rfl, hbody]
  rfl

/-! ### The header -/

/-- The header is the text of its two members, whatever the strings. -/
theorem jwsHeader_eq (typ alg : Text) :
    jwsHeader typ alg = 0x7B :: (grammar.separated true
      ([(txt "alg", JsonValue.str alg), (txt "typ", .str typ)].map (memberText fun v => dumpsString v.text)) ++ [0x7D]) := by
  have hopen : txt "\x7b\"alg\":" = 0x7B :: (formatString (txt "alg") ++ [0x3A]) := by decide
  have hnext : txt ",\"typ\":" = 0x2C :: (formatString (txt "typ") ++ [0x3A]) := by decide
  have hclose : txt "\x7d" = [0x7D] := by decide
  rw [jwsHeader, hopen, hnext, hclose]
  simp [Document.Grammar.separated, memberText, Document.Grammar.member, grammar, JsonValue.text]

theorem ascii_of_all {text : Text} (h : (text.all fun d => decide (d.val < 0x80)) = true) : ∀ d ∈ text, d.val < 0x80 := by
  intro d hd
  exact of_decide_eq_true (List.all_eq_true.mp h d hd)

theorem jwsHeader_ascii (typ alg : Text) : ∀ d ∈ jwsHeader typ alg, d.val < 0x80 := by
  have hopen : ∀ d ∈ txt "\x7b\"alg\":", d.val < 0x80 := ascii_of_all (by decide)
  have hnext : ∀ d ∈ txt ",\"typ\":", d.val < 0x80 := ascii_of_all (by decide)
  have hclose : ∀ d ∈ txt "\x7d", d.val < 0x80 := ascii_of_all (by decide)
  intro d hd
  simp only [jwsHeader, List.mem_append] at hd
  rcases hd with (((hd | hd) | hd) | hd) | hd
  · exact hopen d hd
  · exact dumpsString_ascii _ d hd
  · exact hnext d hd
  · exact dumpsString_ascii _ d hd
  · exact hclose d hd

/-- The header is read back with the pairs of its strings joined. -/
theorem loads_jwsHeader {I : Interpreter} (hdepth : maxDepth < I.parseDepth) (typ alg : Text) :
    Jcs.loads I (asciiOctets (jwsHeader typ alg)) =
      .ok (.dict [(txt "alg", .str (joinPairs alg)), (txt "typ", .str (joinPairs typ))]) := by
  obtain ⟨room, hroom⟩ := Nat.exists_eq_add_of_lt (Nat.zero_lt_of_lt hdepth)
  have hstring (s : Text) : Reads (strictHooks I) (0 + room) (dumpsString s) (.str (joinPairs s)) ∧ Starts (dumpsString s) :=
    ⟨reads_dumps s, _, _, dumpsString_eq s, rfl, by decide, by decide⟩
  have hread : Reads (strictHooks I) (0 + room + 1) (jwsHeader typ alg)
      (.dict [(txt "alg", .str (joinPairs alg)), (txt "typ", .str (joinPairs typ))]) := by
    rw [jwsHeader_eq]
    refine @reads_dict _ _ _ (fun v => dumpsString v.text) (fun v => .str (joinPairs v.text)) ?_ ?_
    · intro m hm
      exact hstring _
    · have hnames : [txt "alg", txt "typ"].Nodup := by decide
      exact strictHooks_admit _ hnames
  have hstarts : Starts (jwsHeader typ alg) := by
    rw [jwsHeader_eq]
    exact ⟨_, _, rfl, rfl, by decide, by decide⟩
  rw [← hroom] at hread
  exact loads_of_reads hread hstarts (utf8?_ascii (jwsHeader_ascii typ alg))

/-! ### Segments -/

theorem mem_b64urlEncode {data : Bytes} {c : CodePoint} (h : c ∈ b64urlEncode data) : c.val < 0x80 ∧ c ≠ 0x2E := by
  have hall : ∀ n < 64, (sextetChar n).val < 0x80 ∧ sextetChar n ≠ 0x2E := by decide
  obtain ⟨n, hn, rfl⟩ := List.mem_map.mp h
  exact hall n (packSextets_lt n hn)

theorem b64urlEncode_no_dot (data : Bytes) : 0x2E ∉ b64urlEncode data := fun h => (mem_b64urlEncode h).2 rfl

theorem b64urlEncode_isEmpty {data : Bytes} (h : data ≠ []) : (b64urlEncode data).isEmpty = false := by
  rw [List.isEmpty_eq_false_iff]
  intro hnil
  have hback := b64urlDecode_encode data
  rw [hnil] at hback
  exact h (Except.ok.inj hback).symm

/-- What three encoded segments parse to is what they encode. -/
theorem parseCompact_segments {P : Platform} {headerOctets payload signature : Bytes} {header claims : Members}
    (hne : headerOctets ≠ [] ∧ payload ≠ [] ∧ signature ≠ []) (hheader : Jcs.loads P.toInterpreter headerOctets = .ok (.dict header))
    (hclaims : Jcs.loads P.toInterpreter payload = .ok (.dict claims)) (code : String) :
    parseCompact P (.str (b64urlEncode headerOctets ++ txt "." ++ b64urlEncode payload ++ txt "." ++ b64urlEncode signature)) code =
      .ok ⟨header, claims, asciiOctets (b64urlEncode headerOctets ++ txt "." ++ b64urlEncode payload), signature⟩ := by
  have hdot : txt "." = [0x2E] := by decide
  have hparts : ∀ part ∈ [b64urlEncode headerOctets, b64urlEncode payload, b64urlEncode signature], 0x2E ∉ part := by
    simp only [List.mem_cons, List.not_mem_nil, or_false, forall_eq_or_imp, forall_eq]
    exact ⟨b64urlEncode_no_dot _, b64urlEncode_no_dot _, b64urlEncode_no_dot _⟩
  have hsplit := splitOn_join (List.cons_ne_nil _ _) hparts
  have htext : [(0x2E : CodePoint)].intercalate [b64urlEncode headerOctets, b64urlEncode payload, b64urlEncode signature] =
      b64urlEncode headerOctets ++ [0x2E] ++ b64urlEncode payload ++ [0x2E] ++ b64urlEncode signature := by
    simp [List.intercalate]
  rw [htext] at hsplit
  rw [parseCompact, hdot, hsplit]
  dsimp only
  rw [b64urlEncode_isEmpty hne.1, b64urlEncode_isEmpty hne.2.1, b64urlEncode_isEmpty hne.2.2, b64urlDecode_encode,
    b64urlDecode_encode, b64urlDecode_encode]
  simp only [bind_eq_ok, exists_unit, raiseIf_eq_ok, onValueError_eq_ok, loadsObject_eq_ok]
  exact ⟨rfl, _, rfl, _, rfl, _, rfl, _, hheader, _, hclaims, rfl⟩

/-! ### Minting and reading back -/

/-- What the library documents of a signing key: an Ed25519 signature has 64 octets, the
integers of an ECDSA signature lie between zero and the order. -/
def PrivateKey.Signs : PrivateKey → Prop
  | .ed25519 _ sign => ∀ data, (sign data).length = 64
  | .p256 _ sign _ => ∀ data, 0 < (sign data).1 ∧ (sign data).1 < p256N ∧ 0 < (sign data).2 ∧ (sign data).2 < p256N

theorem intToBytes_length (width n : Nat) : (intToBytes width n).length = width := by
  induction width generalizing n with
  | zero => rfl
  | succ width ih => rw [intToBytes, List.length_append, ih, List.length_singleton]

theorem toBytes32_of_lt {n : Int} (hlow : 0 ≤ n) (hhigh : n < 2 ^ 256) : toBytes32 n = .ok (intToBytes 32 n.toNat) := by
  rw [toBytes32, decide_eq_false (Int.not_lt.mpr hlow), decide_eq_false (Int.not_le.mpr hhigh)]
  rfl

/-- A signature in range is written in 64 octets. -/
theorem p256DerToRaw_length {r s : Nat} (hr : r < p256N) (hs : s < p256N) :
    ∃ signature, p256DerToRaw r s = .ok signature ∧ signature.length = 64 := by
  have horder : p256N < 2 ^ 256 := by decide
  have hlow : 0 ≤ (if p256N / 2 < s then (p256N : Int) - s else s) ∧
      (if p256N / 2 < s then (p256N : Int) - s else s) < 2 ^ 256 := by
    split <;> omega
  rw [p256DerToRaw, toBytes32_of_lt (Int.natCast_nonneg r) (by omega), toBytes32_of_lt hlow.1 hlow.2]
  exact ⟨_, rfl, by rw [List.length_append, intToBytes_length, intToBytes_length]⟩

theorem signJose_length {key : PrivateKey} (h : key.Signs) (data : Bytes) :
    ∃ signature, signJose key data = .ok signature ∧ signature.length = 64 := by
  cases key with
  | ed25519 => exact ⟨_, rfl, h data⟩
  | p256 => exact p256DerToRaw_length (h data).2.1 (h data).2.2.2

variable {P : Platform} {key : PrivateKey} {claims : Members}

/-- A minted token parses to its header, its claims in the order written, and the octets that were signed. -/
theorem encodeJws_parses (hsigns : key.Signs) (hdepth : maxDepth < P.parseDepth) (hclaims : Canonicalizable (.dict claims))
    (typ alg : Text) :
    ∃ signed signature members, encodeJws typ claims key alg = .ok (signed ++ txt "." ++ b64urlEncode signature) ∧
      signJose key (asciiOctets signed) = .ok signature ∧ signed.count 0x2E = 1 ∧ (∀ c ∈ signed, c.val < 0x80) ∧
      (JsonValue.dict claims).Same (.dict members) ∧
      ∀ code, parseCompact P (.str (signed ++ txt "." ++ b64urlEncode signature)) code =
        .ok ⟨[(txt "alg", .str (joinPairs alg)), (txt "typ", .str (joinPairs typ))], members, asciiOctets signed, signature⟩ := by
  obtain ⟨payload, hpayload, _⟩ := hclaims.canonicalize
  have hloads := loads_canonicalize (I := P.toInterpreter) hclaims hdepth hpayload
  have hsame := same_arrange hclaims.exact.distinct
  rw [arrange_dict] at hloads hsame
  have hpayload_ne : payload ≠ [] := by
    rintro rfl
    cases hloads
  have hheader_ne : asciiOctets (jwsHeader typ alg) ≠ [] := by
    rw [jwsHeader_eq]
    exact List.cons_ne_nil _ _
  obtain ⟨signature, hsign, hlength⟩ := signJose_length hsigns
    (asciiOctets (b64urlEncode (asciiOctets (jwsHeader typ alg)) ++ txt "." ++ b64urlEncode payload))
  have hsignature_ne : signature ≠ [] := List.ne_nil_of_length_pos (by omega)
  have hdot : txt "." = [0x2E] := by decide
  refine ⟨b64urlEncode (asciiOctets (jwsHeader typ alg)) ++ txt "." ++ b64urlEncode payload, signature, _, ?_, hsign, ?_, ?_, hsame,
    parseCompact_segments ⟨hheader_ne, hpayload_ne, hsignature_ne⟩ (loads_jwsHeader hdepth typ alg) hloads⟩
  · rw [encodeJws, jwsSigningInput, hpayload]
    simp only [ok_bind, hsign]
  · rw [hdot, List.count_append, List.count_append, List.count_eq_zero.mpr (b64urlEncode_no_dot _),
      List.count_eq_zero.mpr (b64urlEncode_no_dot _)]
    rfl
  · intro c hc
    rw [hdot, List.mem_append, List.mem_append, List.mem_singleton] at hc
    rcases hc with (hc | rfl) | hc
    · exact (mem_b64urlEncode hc).1
    · decide
    · exact (mem_b64urlEncode hc).1

/-- A signing key and the identifier of its public key: what one signs the other accepts. -/
structure KeyPair (P : Platform) (key : PrivateKey) (issAid : Text) (aid : Aid) : Prop where
  parses : parseAid P issAid = .ok aid
  signs : key.Signs
  accepts : ∀ data signature, signJose key data = .ok signature → verifyJose P (.agent aid.publicKey) data signature false = true

/-- A token is minted of the claims, it verifies under the identifier to an equal object
whatever the caller's codes, and it parses to a header of exactly the two members and to
the octets up to its second dot. -/
def VerifiesBack (P : Platform) (typ : Text) (claims : Members) (key : PrivateKey) (issAid : Text) (aid : Aid) : Prop :=
  ∃ signed signature, encodeJws typ claims key aid.joseAlg = .ok (signed ++ txt "." ++ signature) ∧ signed.count 0x2E = 1 ∧
    (∀ errors, ∃ found, verifyJws P (.str (signed ++ txt "." ++ signature)) issAid typ errors (fun _ => .ok ()) = .ok found ∧
      (JsonValue.dict claims).Same (.dict found)) ∧
    ∀ code, ∃ parsed, parseCompact P (.str (signed ++ txt "." ++ signature)) code = .ok parsed ∧
      parsed.header = [(txt "alg", .str aid.joseAlg), (txt "typ", .str typ)] ∧ utf8? signed = some parsed.signingInput

theorem joinPairs_joseAlg (aid : Aid) : joinPairs aid.joseAlg = aid.joseAlg := by
  rw [Aid.joseAlg]
  cases aid.alg <;> decide

/-- A minted token verifies back to its claims exactly when its `typ` holds no surrogate
pair, which the parser reads as one character. -/
theorem verifiesBack_iff {issAid : Text} {aid : Aid} (hpair : KeyPair P key issAid aid) (hdepth : maxDepth < P.parseDepth)
    (hclaims : Canonicalizable (.dict claims)) (typ : Text) : VerifiesBack P typ claims key issAid aid ↔ Unjoined typ := by
  obtain ⟨signed, signature, members, hencode, hsign, hcount, hascii, hsame, hparse⟩ :=
    encodeJws_parses hpair.signs hdepth hclaims typ aid.joseAlg
  rw [joinPairs_joseAlg] at hparse
  rw [← joinPairs_eq_self_iff]
  constructor
  · rintro ⟨signed', signature', hencode', _, hverify, _⟩
    obtain ⟨found, hfound, _⟩ := hverify ⟨"", "", ""⟩
    obtain ⟨⟨parsed, _, hparsed, _, _, htyp, _⟩, _⟩ := (verifyJws_eq_ok P).mp hfound
    rw [← Except.ok.inj (hencode.symm.trans hencode')] at hparsed
    obtain rfl := hparsed.unique P ((parseCompact_eq_ok P).mp (hparse ""))
    exact JsonValue.str.inj htyp
  · intro htyp
    rw [htyp] at hparse
    refine ⟨signed, b64urlEncode signature, hencode, hcount, fun errors => ⟨members, ?_, hsame⟩, fun code =>
      ⟨_, hparse code, rfl, utf8?_ascii hascii⟩⟩
    rw [verifyJws_eq_ok]
    exact ⟨⟨_, aid, (parseCompact_eq_ok P).mp (hparse ""), rfl, rfl, rfl, hpair.parses, rfl, hpair.accepts _ _ hsign⟩, rfl⟩

/-! ### Agent A's grant minted -/

/-- Agent A's signature of the octets of its grant, and of others none of its own. -/
def grantSign (data : Bytes) : Bytes :=
  if data == grantRecorded.message then octetsOf grantSignature else List.replicate 64 0

/-- A platform that accepts agent A's signatures. -/
def signingPlatform : Platform where
  toInterpreter := grantRecording.platform.toInterpreter
  sha256 := grantRecording.digest
  ed25519Verify key signature message := key == octetsOf agentA && signature == grantSign message
  p256Point? _ := none
  publicNumbers? _ _ _ := false
  encodeDssSignature _ _ := []
  ecdsaVerify _ _ _ _ _ _ _ := false
  rsaNumbers _ _ := .error (valueError (txt "unsupported"))
  rsaVerify _ _ _ _ _ _ := false
  loadDerCertificate _ := .error (valueError (txt "unsupported"))
  verifyDirectlyIssuedBy _ _ := .error (valueError (txt "unsupported"))

def agentAKey : PrivateKey := .ed25519 (octetsOf agentA) grantSign

def agentAid : Aid := ⟨aidOf agentA, .ed25519, octetsOf agentA, .ed25519 (octetsOf agentA)⟩

theorem agentA_keyPair : KeyPair signingPlatform agentAKey (aidOf agentA) agentAid where
  parses := by decide +kernel
  signs data := by
    have hrecorded : (octetsOf grantSignature).length = 64 := by decide +kernel
    rw [grantSign]
    split
    · exact hrecorded
    · exact List.length_replicate
  accepts data signature h := by
    obtain rfl := Except.ok.inj h
    have hkey : (octetsOf agentA == octetsOf agentA) = true := beq_self_eq_true _
    have hsigned : (grantSign data == grantSign data) = true := beq_self_eq_true _
    exact Bool.and_eq_true_iff.mpr ⟨hkey, hsigned⟩

theorem wellFormed_of_all {s : Text} (h : (s.all fun c => !isSurrogate c) = true) : WellFormed s := by
  intro c hc
  simpa using List.all_eq_true.mp h c hc

theorem grantClaims_canonicalizable : Canonicalizable (.dict grantClaims) := by
  have hstr {s : Text} (h : (s.all fun c => !isSurrogate c) = true) : (JsonValue.str s).Exact := .str (wellFormed_of_all h)
  have hnames {members : Members} (h : (members.all fun m => m.1.all fun c => !isSurrogate c) = true) :
      ∀ m ∈ members, WellFormed m.1 := fun m hm => wellFormed_of_all (List.all_eq_true.mp h m hm)
  have hgrants : (JsonValue.list [.str (txt "read")]).Exact := .list (by simpa using hstr (by decide))
  have hcnf : (JsonValue.dict [(txt "jkt", .str thumbprintB)]).Exact :=
    .dict (by decide) (hnames (by decide +kernel)) (by simpa using hstr (by decide +kernel))
  refine ⟨.dict (by decide +kernel) (hnames (by decide +kernel)) ?_, ?_, ?_⟩
  · simp only [grantClaims, List.mem_cons, List.not_mem_nil, or_false, forall_eq_or_imp, forall_eq]
    exact ⟨hstr (by decide +kernel), hstr (by decide +kernel), hstr (by decide +kernel), hstr (by decide +kernel),
      hstr (by decide +kernel), .int (by decide), .int (by decide), hgrants, hcnf⟩
  · simp [grantClaims, JsonValue.Within, maxDepth]
  · simp [grantClaims, JsonValue.nodes, maxNodesVisited]

theorem verifiesBack_grant :
    VerifiesBack signingPlatform tctTyp grantClaims agentAKey (aidOf agentA) agentAid ↔ Unjoined tctTyp :=
  verifiesBack_iff agentA_keyPair (by decide) grantClaims_canonicalizable tctTyp

/-- A `typ` of two surrogates, which `json.dumps` escapes and `json.loads` joins. -/
def pairTyp : Text := [0xD83D, 0xDE00]

/-- A key pair, and claims within the caps, whose token of that `typ` does not verify back. -/
theorem pairTyp_refused :
    KeyPair signingPlatform agentAKey (aidOf agentA) agentAid ∧ maxDepth < signingPlatform.parseDepth ∧
      Canonicalizable (.dict grantClaims) ∧
      ¬ VerifiesBack signingPlatform pairTyp grantClaims agentAKey (aidOf agentA) agentAid := by
  refine ⟨agentA_keyPair, by decide, grantClaims_canonicalizable, ?_⟩
  rintro ⟨signed, signature, hencode, _, hverify, _⟩
  obtain ⟨found, hfound, _⟩ := hverify ⟨"", "", ""⟩
  have hrefused : ((encodeJws pairTyp grantClaims agentAKey agentAid.joseAlg).bind fun token =>
      verifyJws signingPlatform (.str token) (aidOf agentA) pairTyp ⟨"", "", ""⟩ (fun _ => .ok ())).isOk = false := by
    decide +kernel
  rw [hencode] at hrefused
  exact Bool.false_ne_true (hrefused.symm.trans (isOk_iff.mpr ⟨found, hfound⟩))

end AitpVerifier
