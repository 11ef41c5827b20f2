import AitpVerifier.B64

/-!
# The texts that decode to some octets

A text whose last group is partial leaves bits of its last character to no octet, and
the decoder drops them. Only a text with those bits clear is the one the encoder writes.
-/
namespace AitpVerifier

open PyText Checked

theorem sextetChar_of_sextet {c : CodePoint} {n : Nat} (h : sextet? c = some n) : sextetChar n = c := by
  unfold sextet? at h
  apply Fin.ext
  split_ifs at h <;> simp only [Option.some.injEq] at h <;> subst h <;> simp only [sextetChar, Fin.ofNat] <;>
    split_ifs <;> simp <;> omega

theorem sextet?_sextetChar {n : Nat} (h : n < 64) : sextet? (sextetChar n) = some n := by
  have hall : ∀ m : Fin 64, sextet? (sextetChar m) = some m.val := by decide
  exact hall ⟨n, h⟩

theorem octet_toNat {n : Nat} (h : n < 256) : (UInt8.ofNat n).toNat = n := UInt8.toNat_ofNat_of_lt' h

/-- The bits of the last sextet that no octet takes. -/
def spareSextet : List Nat → Nat
  | [_, b] => b % 16
  | [_, _, c] => c % 4
  | _ :: _ :: _ :: _ :: rest => spareSextet rest
  | _ => 0

/-- The bits of a text's last character that decoding drops. -/
def spareBits (text : Text) : Nat := spareSextet (text.filterMap sextet?)

/-- Octets pack back into the sextets they came from when nothing was dropped. -/
theorem packSextets_eq_iff : ∀ {xs : List Nat} {data : Bytes}, (∀ x ∈ xs, x < 64) → unpackSextets xs = some data →
    (packSextets data = xs ↔ spareSextet xs = 0)
  | [], _, _, h => by
    obtain rfl := Option.some.inj h
    simp [packSextets, spareSextet]
  | [_], _, _, h => nomatch h
  | [a, b], _, hx, h => by
    obtain rfl := Option.some.inj h
    simp only [List.mem_cons, List.not_mem_nil, or_false, forall_eq_or_imp, forall_eq] at hx
    have h1 : (UInt8.ofNat (a * 4 + b / 16)).toNat = a * 4 + b / 16 := octet_toNat (by omega)
    simp only [packSextets, spareSextet, h1, List.cons.injEq, and_true]
    omega
  | [a, b, c], _, hx, h => by
    obtain rfl := Option.some.inj h
    simp only [List.mem_cons, List.not_mem_nil, or_false, forall_eq_or_imp, forall_eq] at hx
    have h1 : (UInt8.ofNat (a * 4 + b / 16)).toNat = a * 4 + b / 16 := octet_toNat (by omega)
    have h2 : (UInt8.ofNat (b % 16 * 16 + c / 4)).toNat = b % 16 * 16 + c / 4 := octet_toNat (by omega)
    simp only [packSextets, spareSextet, h1, h2, List.cons.injEq, and_true]
    omega
  | a :: b :: c :: d :: rest, data, hx, h => by
    rw [unpackSextets, Option.map_eq_some_iff] at h
    obtain ⟨tail, htail, rfl⟩ := h
    have ih := packSextets_eq_iff (fun x hm => hx x (by simp [hm])) htail
    simp only [List.mem_cons, forall_eq_or_imp] at hx
    have h1 : (UInt8.ofNat (a * 4 + b / 16)).toNat = a * 4 + b / 16 := octet_toNat (by omega)
    have h2 : (UInt8.ofNat (b % 16 * 16 + c / 4)).toNat = b % 16 * 16 + c / 4 := octet_toNat (by omega)
    have h3 : (UInt8.ofNat (c % 4 * 64 + d)).toNat = c % 4 * 64 + d := octet_toNat (by omega)
    rw [spareSextet, ← ih]
    simp only [List.cons_append, List.nil_append, packSextets, h1, h2, h3, List.cons.injEq]
    constructor
    · intro hall
      exact hall.2.2.2.2
    · intro htail
      exact ⟨by omega, by omega, by omega, by omega, htail⟩

/-- The characters of a text over the alphabet are those of its sextets. -/
theorem map_sextetChar {text : Text} (h : ∀ c ∈ text, (sextet? c).isSome) :
    (text.filterMap sextet?).map sextetChar = text := by
  induction text with
  | nil => rfl
  | cons c rest ih =>
    obtain ⟨n, hn⟩ := Option.isSome_iff_exists.mp (h c List.mem_cons_self)
    rw [List.filterMap_cons_some hn, List.map_cons, sextetChar_of_sextet hn,
      ih (fun x hm => h x (List.mem_cons_of_mem c hm))]

theorem map_sextetChar_inj : ∀ {xs ys : List Nat}, (∀ x ∈ xs, x < 64) → (∀ y ∈ ys, y < 64) →
    xs.map sextetChar = ys.map sextetChar → xs = ys
  | [], [], _, _, _ => rfl
  | [], _ :: _, _, _, h => nomatch h
  | _ :: _, [], _, _, h => nomatch h
  | x :: xs, y :: ys, hx, hy, h => by
    rw [List.map_cons, List.map_cons, List.cons.injEq] at h
    have hhead : some x = some y := by
      rw [← sextet?_sextetChar (hx x List.mem_cons_self), h.1, sextet?_sextetChar (hy y List.mem_cons_self)]
    rw [Option.some.inj hhead, map_sextetChar_inj (fun z hz => hx z (List.mem_cons_of_mem x hz))
      (fun z hz => hy z (List.mem_cons_of_mem y hz)) h.2]

theorem packSextets_lt : ∀ {data : Bytes}, ∀ n ∈ packSextets data, n < 64
  | [] => by simp [packSextets]
  | [x] => by
    have := x.toNat_lt
    simp only [packSextets, List.mem_cons, List.not_mem_nil, or_false, forall_eq_or_imp, forall_eq]
    omega
  | [x, y] => by
    have := x.toNat_lt
    have := y.toNat_lt
    simp only [packSextets, List.mem_cons, List.not_mem_nil, or_false, forall_eq_or_imp, forall_eq]
    omega
  | x :: y :: z :: rest => by
    have := x.toNat_lt
    have := y.toNat_lt
    have := z.toNat_lt
    have ih := @packSextets_lt rest
    intro n hn
    simp only [packSextets, List.cons_append, List.nil_append, List.mem_cons] at hn
    rcases hn with rfl | rfl | rfl | rfl | hn
    · omega
    · omega
    · omega
    · omega
    · exact ih n hn

/-- The encoder writes a text back exactly when the text's spare bits are clear. -/
theorem b64urlEncode_decode_iff {text : Text} {data : Bytes} (h : b64urlDecode text = .ok data) :
    b64urlEncode data = text ↔ spareBits text = 0 := by
  obtain ⟨halphabet, hdata⟩ := b64urlDecode_eq_ok.mp h
  have hlt := filterMap_sextet_lt text
  rw [spareBits, ← packSextets_eq_iff hlt hdata, b64urlEncode]
  constructor
  · intro he
    apply map_sextetChar_inj packSextets_lt hlt
    rw [he, map_sextetChar halphabet]
  · intro he
    rw [he, map_sextetChar halphabet]

theorem b64urlEncode_decode_zero : b64urlEncode [0] = txt "AA" ↔ spareBits (txt "AA") = 0 :=
  b64urlEncode_decode_iff (by decide +kernel)

/-- Two characters of one octet: the second text is not the one its octet is written as. -/
theorem b64url_two_texts : ¬ ∀ (text : Text) (data : Bytes), b64urlDecode text = .ok data → b64urlEncode data = text := by
  intro h
  have hsecond := h (txt "AB") [0] (by decide +kernel)
  exact absurd hsecond (by decide +kernel)

/-! ### Decoding what the encoder writes -/

theorem unpack_packSextets : ∀ data : Bytes, unpackSextets (packSextets data) = some data
  | [] => rfl
  | [x] => by
    have hx := x.toNat_lt
    have h1 : x.toNat / 4 * 4 + x.toNat % 4 * 16 / 16 = x.toNat := by omega
    simp only [packSextets, unpackSextets, h1, UInt8.ofNat_toNat]
  | [x, y] => by
    have hx := x.toNat_lt
    have hy := y.toNat_lt
    have h1 : x.toNat / 4 * 4 + (x.toNat % 4 * 16 + y.toNat / 16) / 16 = x.toNat := by omega
    have h2 : (x.toNat % 4 * 16 + y.toNat / 16) % 16 * 16 + y.toNat % 16 * 4 / 4 = y.toNat := by omega
    simp only [packSextets, unpackSextets, h1, h2, UInt8.ofNat_toNat]
  | x :: y :: z :: rest => by
    have hx := x.toNat_lt
    have hy := y.toNat_lt
    have hz := z.toNat_lt
    have h1 : x.toNat / 4 * 4 + (x.toNat % 4 * 16 + y.toNat / 16) / 16 = x.toNat := by omega
    have h2 : (x.toNat % 4 * 16 + y.toNat / 16) % 16 * 16 + (y.toNat % 16 * 4 + z.toNat / 64) / 4 = y.toNat := by omega
    have h3 : (y.toNat % 16 * 4 + z.toNat / 64) % 4 * 64 + z.toNat % 64 = z.toNat := by omega
    simp only [packSextets, List.cons_append, List.nil_append, unpackSextets, h1, h2, h3, UInt8.ofNat_toNat,
      unpack_packSextets rest, Option.map_some]

/-- Every octet string has a text. -/
theorem b64urlDecode_encode (data : Bytes) : b64urlDecode (b64urlEncode data) = .ok data := by
  have hsome : ∀ c ∈ b64urlEncode data, (sextet? c).isSome := by
    intro c hc
    obtain ⟨n, hn, rfl⟩ := List.mem_map.mp hc
    rw [sextet?_sextetChar (packSextets_lt n hn)]
    rfl
  have hback : (b64urlEncode data).filterMap sextet? = packSextets data := by
    apply map_sextetChar_inj (filterMap_sextet_lt _) packSextets_lt
    rw [map_sextetChar hsome, b64urlEncode]
  rw [b64urlDecode_eq_ok, hback]
  exact ⟨hsome, unpack_packSextets data⟩

end AitpVerifier
