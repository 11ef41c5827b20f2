import AitpVerifier.Value

/-!
# Unpadded base64url

`b64urlDecode` rejects padding and stray characters itself; what is left is the
standard decoder, which pads the text and drops the unused low bits of the last
character.
-/
namespace AitpVerifier

open PyText Checked

/-- The characters `b64urlDecode` admits. -/
def alphabet : Text :=
  txt "ABCDEFGHIJKLMNOPQRSTUVWXYZ" ++ txt "abcdefghijklmnopqrstuvwxyz" ++ txt "0123456789-_"

/-- The six bits a character of the alphabet stands for. -/
def sextet? (c : CodePoint) : Option Nat :=
  if c.val < 0x3A then
    if 0x30 ≤ c.val then some (c.val + 4) else if c.val = 0x2D then some 62 else none
  else if c.val < 0x5B then
    if 0x41 ≤ c.val then some (c.val - 0x41) else none
  else if c.val < 0x7B then
    if 0x61 ≤ c.val then some (c.val - 71) else if c.val = 0x5F then some 63 else none
  else none

/-- The character for six bits. -/
def sextetChar (n : Nat) : CodePoint :=
  if n < 26 then Fin.ofNat _ (n + 0x41)
  else if n < 52 then Fin.ofNat _ (n + 71)
  else if n < 62 then Fin.ofNat _ (n - 4)
  else if n = 62 then 0x2D else 0x5F

/-- Octets of complete and partial groups: none for a single character left over. -/
def unpackSextets : List Nat → Option Bytes
  | [] => some []
  | [_] => none
  | [a, b] => some [.ofNat (a * 4 + b / 16)]
  | [a, b, c] => some [.ofNat (a * 4 + b / 16), .ofNat (b % 16 * 16 + c / 4)]
  | a :: b :: c :: d :: rest => (unpackSextets rest).map
      ([.ofNat (a * 4 + b / 16), .ofNat (b % 16 * 16 + c / 4), .ofNat (c % 4 * 64 + d)] ++ ·)

def packSextets : Bytes → List Nat
  | [] => []
  | [x] => [x.toNat / 4, x.toNat % 4 * 16]
  | [x, y] => [x.toNat / 4, x.toNat % 4 * 16 + y.toNat / 16, y.toNat % 16 * 4]
  | x :: y :: z :: rest =>
    [x.toNat / 4, x.toNat % 4 * 16 + y.toNat / 16, y.toNat % 16 * 4 + z.toNat / 64, z.toNat % 64] ++
      packSextets rest

/-- Encode as unpadded base64url. -/
def b64urlEncode (data : Bytes) : Text := (packSextets data).map sextetChar

/-- `base64.urlsafe_b64decode` of a text over the alphabet, padded to whole groups. -/
def urlsafeB64decode (text : Text) : PyM Bytes :=
  match unpackSextets (text.filterMap sextet?) with
  | some data => .ok data
  | none => .error (.raised .value (txt "Invalid base64-encoded string: number of data characters (" ++
      decimal text.length ++ txt ") cannot be 1 more than a multiple of 4"))

/-- Decode unpadded base64url; `=` padding and stray characters are a `ValueError`. -/
def b64urlDecode (text : Text) : PyM Bytes := do
  raiseIf (text.any (fun c => (sextet? c).isNone))
    (.raised .value (txt "input contains non-base64url characters (or '=' padding)"))
  urlsafeB64decode text

/-! ### One decoding, several spellings -/

/-- The sextets of a text with the bits no octet takes from the last one cleared away. -/
def trimSextets : List Nat → List Nat
  | [] => []
  | [a] => [a]
  | [a, b] => [a, b / 16]
  | [a, b, c] => [a, b, c / 4]
  | a :: b :: c :: d :: rest => a :: b :: c :: d :: trimSextets rest

theorem sextet?_lt {c : CodePoint} {n : Nat} (h : sextet? c = some n) : n < 64 := by
  unfold sextet? at h
  split_ifs at h <;> simp only [Option.some.injEq] at h <;> omega

theorem octet_inj {m n : Nat} (hm : m < 256) (hn : n < 256) : UInt8.ofNat m = UInt8.ofNat n ↔ m = n := by
  constructor
  · intro h
    have := congrArg UInt8.toNat h
    rwa [UInt8.toNat_ofNat_of_lt' hm, UInt8.toNat_ofNat_of_lt' hn] at this
  · rintro rfl
    rfl

theorem unpackSextets_some : ∀ {xs : List Nat}, xs.length % 4 ≠ 1 → ∃ data, unpackSextets xs = some data
  | [], _ => ⟨_, rfl⟩
  | [_], h => absurd rfl h
  | [_, _], _ => ⟨_, rfl⟩
  | [_, _, _], _ => ⟨_, rfl⟩
  | a :: b :: c :: d :: rest, h => by
    have hrest : rest.length % 4 ≠ 1 := by
      simp only [List.length_cons] at h
      omega
    obtain ⟨data, hdata⟩ := unpackSextets_some hrest
    rw [unpackSextets, hdata]
    exact ⟨_, rfl⟩

/-- Texts of one length decode alike exactly when they agree up to the trimmed bits. -/
theorem unpackSextets_eq_iff : ∀ {xs ys : List Nat}, xs.length = ys.length → (∀ x ∈ xs, x < 64) →
    (∀ y ∈ ys, y < 64) → xs.length % 4 ≠ 1 → (unpackSextets xs = unpackSextets ys ↔ trimSextets xs = trimSextets ys)
  | [], [], _, _, _, _ => by simp [unpackSextets, trimSextets]
  | [_], _, _, _, _, hne => by simp at hne
  | [a, b], [a', b'], _, hx, hy, _ => by
    simp only [List.mem_cons, List.not_mem_nil, or_false, forall_eq_or_imp, forall_eq] at hx hy
    have h := octet_inj (m := a * 4 + b / 16) (n := a' * 4 + b' / 16) (by omega) (by omega)
    simp only [unpackSextets, trimSextets, Option.some.injEq, List.cons.injEq, and_true, h]
    omega
  | [a, b, c], [a', b', c'], _, hx, hy, _ => by
    simp only [List.mem_cons, List.not_mem_nil, or_false, forall_eq_or_imp, forall_eq] at hx hy
    have h1 := octet_inj (m := a * 4 + b / 16) (n := a' * 4 + b' / 16) (by omega) (by omega)
    have h2 := octet_inj (m := b % 16 * 16 + c / 4) (n := b' % 16 * 16 + c' / 4) (by omega) (by omega)
    simp only [unpackSextets, trimSextets, Option.some.injEq, List.cons.injEq, and_true, h1, h2]
    omega
  | a :: b :: c :: d :: xs, a' :: b' :: c' :: d' :: ys, hl, hx, hy, hne => by
    simp only [List.length_cons, Nat.add_right_cancel_iff] at hl hne
    have hx' : ∀ x ∈ xs, x < 64 := fun x hm => hx x (by simp [hm])
    have hy' : ∀ y ∈ ys, y < 64 := fun y hm => hy y (by simp [hm])
    have ih := unpackSextets_eq_iff hl hx' hy' (by omega)
    obtain ⟨data, hdata⟩ := unpackSextets_some (show xs.length % 4 ≠ 1 by omega)
    obtain ⟨data', hdata'⟩ := unpackSextets_some (show ys.length % 4 ≠ 1 by omega)
    rw [hdata, hdata', Option.some.injEq] at ih
    simp only [List.mem_cons, forall_eq_or_imp] at hx hy
    have h1 := octet_inj (m := a * 4 + b / 16) (n := a' * 4 + b' / 16) (by omega) (by omega)
    have h2 := octet_inj (m := b % 16 * 16 + c / 4) (n := b' % 16 * 16 + c' / 4) (by omega) (by omega)
    have h3 := octet_inj (m := c % 4 * 64 + d) (n := c' % 4 * 64 + d') (by omega) (by omega)
    -- three octets fix all four sextets, the rest is the induction
    simp only [unpackSextets, trimSextets, hdata, hdata', Option.map_some, Option.some.injEq, List.cons_append,
      List.nil_append, List.cons.injEq, h1, h2, h3, ih]
    constructor
    · rintro ⟨e1, e2, e3, hrest⟩
      exact ⟨by omega, by omega, by omega, by omega, hrest⟩
    · rintro ⟨rfl, rfl, rfl, rfl, hrest⟩
      exact ⟨rfl, rfl, rfl, hrest⟩

theorem b64urlDecode_eq_ok {text : Text} {data : Bytes} :
    b64urlDecode text = .ok data ↔
      (∀ c ∈ text, (sextet? c).isSome) ∧ unpackSextets (text.filterMap sextet?) = some data := by
  simp only [b64urlDecode, bind_eq_ok, exists_unit, raiseIf_eq_ok, List.any_eq_false, Bool.not_eq_true,
    Option.isNone_eq_false_iff, urlsafeB64decode]
  refine and_congr_right fun _ => ?_
  cases unpackSextets (text.filterMap sextet?) <;> simp

/-- A text over the alphabet has one sextet a character. -/
theorem length_filterMap_sextet {text : Text} (h : ∀ c ∈ text, (sextet? c).isSome) :
    (text.filterMap sextet?).length = text.length := by
  induction text with
  | nil => rfl
  | cons c rest ih =>
    obtain ⟨n, hn⟩ := Option.isSome_iff_exists.mp (h c List.mem_cons_self)
    rw [List.filterMap_cons_some hn, List.length_cons, ih (fun x hm => h x (List.mem_cons_of_mem _ hm)),
      List.length_cons]

theorem filterMap_sextet_lt (text : Text) : ∀ n ∈ text.filterMap sextet?, n < 64 := by
  intro n hm
  obtain ⟨c, _, hc⟩ := List.mem_filterMap.mp hm
  exact sextet?_lt hc

end AitpVerifier
