import AitpVerifier.Minted

/-!
# The strict form of a P-256 signature

The order of the group is odd, so of `s` and `n - s` exactly one is at most half of it.
The verifier takes that one alone, unless it is told to allow both, and the signer writes
it whichever of the two the library gave.
-/
namespace AitpVerifier

open PyText Checked

variable (P : Platform)

/-! ### The lower half of an odd order -/

section HalfOrder

variable {n s : Nat}

/-- The lower of `s` and its negative modulo `n`. -/
def lowForm (n s : Nat) : Nat := if n / 2 < s then n - s else s

theorem lowForm_of_low (h : s ≤ n / 2) : lowForm n s = s := if_neg (Nat.not_lt.mpr h)

theorem lowForm_of_high (h : n / 2 < s) : lowForm n s = n - s := if_pos h

/-- The negative is high exactly when the number itself is low. -/
theorem half_lt_sub (hodd : n % 2 = 1) : n / 2 < n - s ↔ s ≤ n / 2 := by
  omega

theorem lowForm_sub (hodd : n % 2 = 1) (hs : s ≤ n) : lowForm n (n - s) = lowForm n s := by
  by_cases hlow : s ≤ n / 2
  · rw [lowForm_of_high ((half_lt_sub hodd).mpr hlow), lowForm_of_low hlow, Nat.sub_sub_self hs]
  · rw [lowForm_of_low (Nat.not_lt.mp (mt (half_lt_sub hodd).mp hlow)), lowForm_of_high (Nat.not_le.mp hlow)]

end HalfOrder

/-! ### Numbers of a fixed width -/

theorem intFromBytes_concat (data : Bytes) (b : UInt8) : intFromBytes (data ++ [b]) = intFromBytes data * 256 + b.toNat := by
  rw [intFromBytes, List.foldl_append]
  rfl

theorem intFromBytes_intToBytes {width n : Nat} (h : n < 256 ^ width) : intFromBytes (intToBytes width n) = n := by
  induction width generalizing n with
  | zero =>
    have hzero : n = 0 := by simpa using h
    rw [hzero]
    rfl
  | succ width ih =>
    have hhigh : n / 256 < 256 ^ width := Nat.div_lt_of_lt_mul (by rwa [Nat.pow_succ'] at h)
    have hbyte : (UInt8.ofNat (n % 256)).toNat = n % 256 := UInt8.toNat_ofNat_of_lt (Nat.mod_lt n (by decide))
    rw [intToBytes, intFromBytes_concat, ih hhigh, hbyte]
    omega

/-- The raw encoding of a signature: 32 octets for each number. -/
def rawOf (r s : Nat) : Bytes := intToBytes 32 r ++ intToBytes 32 s

theorem rawOf_length (r s : Nat) : (rawOf r s).length = 64 := by
  rw [rawOf, List.length_append, intToBytes_length, intToBytes_length]

theorem intFromBytes_rawOf {r s : Nat} (hr : r < 256 ^ 32) (hs : s < 256 ^ 32) :
    intFromBytes ((rawOf r s).take 32) = r ∧ intFromBytes ((rawOf r s).drop 32) = s := by
  rw [rawOf, List.take_left' (intToBytes_length 32 r), List.drop_left' (intToBytes_length 32 r)]
  exact ⟨intFromBytes_intToBytes hr, intFromBytes_intToBytes hs⟩

/-! ### What is accepted, and what is written -/

theorem p256N_odd : p256N % 2 = 1 := by decide

theorem p256N_fits : p256N < 256 ^ 32 := by decide

/-- The octets are taken as a signature. -/
def RawAccepted (sig : Bytes) (allowHighS : Bool) : Prop := (p256RawToDer P sig allowHighS).isOk = true

/-- Taken are 64 octets of two numbers in range, the second low unless high is allowed. -/
theorem rawAccepted_iff {sig : Bytes} {allowHighS : Bool} : RawAccepted P sig allowHighS ↔
    sig.length = 64 ∧ (0 < intFromBytes (sig.take 32) ∧ intFromBytes (sig.take 32) < p256N) ∧
      (0 < intFromBytes (sig.drop 32) ∧ intFromBytes (sig.drop 32) < p256N) ∧
      (allowHighS = true ∨ intFromBytes (sig.drop 32) ≤ p256N / 2) := by
  rw [RawAccepted, isOk_iff, p256RawToDer]
  simp only [bind_eq_ok, exists_unit, raiseIf_eq_ok, bne_eq_false_iff_eq, Bool.not_eq_false', Bool.and_eq_true,
    Bool.and_eq_false_iff, decide_eq_true_eq, decide_eq_false_iff_not, not_lt, exists_and_left, and_assoc, Except.ok.injEq,
    exists_eq', and_true, or_comm]

theorem rawAccepted_rawOf {r s : Nat} {allowHighS : Bool} (hr : 0 < r ∧ r < p256N) (hs : 0 < s ∧ s < p256N) :
    RawAccepted P (rawOf r s) allowHighS ↔ allowHighS = true ∨ s ≤ p256N / 2 := by
  have hfits := p256N_fits
  obtain ⟨hfirst, hsecond⟩ := intFromBytes_rawOf (hr.2.trans hfits) (hs.2.trans hfits)
  rw [rawAccepted_iff, hfirst, hsecond, and_iff_right (rawOf_length r s), and_iff_right hr, and_iff_right hs]

theorem p256DerToRaw_eq {r s : Nat} (hr : r < p256N) (hs : s < p256N) :
    p256DerToRaw r s = .ok (rawOf r (lowForm p256N s)) := by
  have hfits : p256N < 2 ^ 256 := by decide
  have hcast : (if p256N / 2 < s then (p256N : Int) - s else s) = (lowForm p256N s : Int) := by
    rw [lowForm]
    split
    · rw [Int.ofNat_sub hs.le]
    · rfl
  have hlow : lowForm p256N s ≤ p256N := by
    rw [lowForm]
    split <;> omega
  rw [p256DerToRaw, hcast, toBytes32_of_lt (Int.natCast_nonneg r) (by omega), toBytes32_of_lt (Int.natCast_nonneg _) (by omega)]
  rfl

/-- Convert a DER signature to raw, with the library's reading of DER. -/
def derToRaw (decodeDssSignature : Bytes → PyM (Nat × Nat)) (der : Bytes) : PyM Bytes := do
  let (r, s) ← decodeDssSignature der
  p256DerToRaw r s

/-- The library's decoding of DER is the inverse of its encoding, on numbers in range. -/
def DerInverse (decodeDssSignature : Bytes → PyM (Nat × Nat)) : Prop :=
  ∀ r s, 0 < r ∧ r < p256N → 0 < s ∧ s < p256N → decodeDssSignature (P.encodeDssSignature r s) = .ok (r, s)

section Twins

variable {r s : Nat} (hr : 0 < r ∧ r < p256N) (hs : 0 < s ∧ s < p256N)

include hs in
theorem twin_inRange : 0 < p256N - s ∧ p256N - s < p256N := by
  omega

include hr hs in
theorem strict_iff : RawAccepted P (rawOf r s) false ↔ s ≤ p256N / 2 := by
  rw [rawAccepted_rawOf P hr hs, or_iff_right Bool.false_ne_true]

include hr hs in
/-- The strict verifier takes one of a signature and its twin, and not the other. -/
theorem strict_xor : Xor (RawAccepted P (rawOf r s) false) (RawAccepted P (rawOf r (p256N - s)) false) := by
  rw [strict_iff P hr hs, strict_iff P hr (twin_inRange hs), xor_iff_not_iff', ← half_lt_sub p256N_odd, Nat.not_lt]

include hr hs in
theorem lowForm_accepted : RawAccepted P (rawOf r (lowForm p256N s)) false := by
  by_cases hlow : s ≤ p256N / 2
  · rw [lowForm_of_low hlow]
    exact (strict_iff P hr hs).mpr hlow
  · rw [lowForm_of_high (Nat.not_le.mp hlow)]
    exact (strict_iff P hr (twin_inRange hs)).mpr (Nat.not_lt.mp (mt (half_lt_sub p256N_odd).mp hlow))

include hr hs in
theorem loose_accepted : RawAccepted P (rawOf r s) true := (rawAccepted_rawOf P hr hs).mpr (.inl rfl)

include hr hs in
/-- The signer writes the low form, whichever of the two the library gave. -/
theorem derToRaw_eq {decodeDssSignature : Bytes → PyM (Nat × Nat)} (hinverse : DerInverse P decodeDssSignature) :
    derToRaw decodeDssSignature (P.encodeDssSignature r s) = .ok (rawOf r (lowForm p256N s)) := by
  rw [derToRaw, hinverse r s hr hs, ok_bind]
  exact p256DerToRaw_eq hr.2 hs.2

end Twins

/-- Of the two raw encodings of a signature the verifier takes exactly one where it is
strict and both where it is not, and the signer writes that one. Numbers out of range and
other lengths it takes in neither mode. -/
theorem p256_strictForm (decodeDssSignature : Bytes → PyM (Nat × Nat))
    (hinverse : DerInverse P decodeDssSignature) :
    (∀ r s, 0 < r ∧ r < p256N → 0 < s ∧ s < p256N →
      Xor (RawAccepted P (rawOf r s) false) (RawAccepted P (rawOf r (p256N - s)) false) ∧
      RawAccepted P (rawOf r s) true ∧ RawAccepted P (rawOf r (p256N - s)) true ∧
      ∃ raw, (raw = rawOf r s ∨ raw = rawOf r (p256N - s)) ∧ RawAccepted P raw false ∧
        derToRaw decodeDssSignature (P.encodeDssSignature r s) = .ok raw ∧
        derToRaw decodeDssSignature (P.encodeDssSignature r (p256N - s)) = .ok raw) ∧
    (∀ sig allowHighS, sig.length = 64 →
      (intFromBytes (sig.take 32) = 0 ∨ p256N ≤ intFromBytes (sig.take 32) ∨
        intFromBytes (sig.drop 32) = 0 ∨ p256N ≤ intFromBytes (sig.drop 32)) → ¬ RawAccepted P sig allowHighS) ∧
    ∀ sig allowHighS, sig.length ≠ 64 → ¬ RawAccepted P sig allowHighS := by
  refine ⟨fun r s hr hs => ?_, fun sig allowHighS _ hrange haccepted => ?_, fun sig allowHighS hlength haccepted => ?_⟩
  · have htwin := twin_inRange hs
    refine ⟨strict_xor P hr hs, loose_accepted P hr hs, loose_accepted P hr htwin, rawOf r (lowForm p256N s), ?_,
      lowForm_accepted P hr hs, derToRaw_eq P hr hs hinverse, ?_⟩
    · rw [lowForm]
      split
      · exact .inr rfl
      · exact .inl rfl
    · rw [← lowForm_sub p256N_odd hs.2.le]
      exact derToRaw_eq P hr htwin hinverse
  · have hin := (rawAccepted_iff P).mp haccepted
    omega
  · exact hlength ((rawAccepted_iff P).mp haccepted).1

/-! ### The DER of a signature -/

/-- The octets of an INTEGER: as few as leave its highest bit clear. -/
def derInteger (n : Nat) : Bytes :=
  let width := bitLength n / 8 + 1
  [0x02, .ofNat width] ++ intToBytes width n

/-- A SEQUENCE of two INTEGERs. -/
def encodeDer (r s : Nat) : Bytes :=
  let body := derInteger r ++ derInteger s
  [0x30, .ofNat body.length] ++ body

/-- The INTEGER in front, and what follows it. -/
def readDerInteger (der : Bytes) : PyM (Nat × Bytes) :=
  match der with
  | tag :: width :: rest =>
    if tag = 0x02 then .ok (intFromBytes (rest.take width.toNat), rest.drop width.toNat)
    else .error (valueError (txt "Invalid DER"))
  | _ => .error (valueError (txt "Invalid DER"))

def decodeDer (der : Bytes) : PyM (Nat × Nat) := do
  let (r, rest) ← readDerInteger (der.drop 2)
  let (s, _) ← readDerInteger rest
  .ok (r, s)

theorem lt_pow_bitLength (n : Nat) : n < 256 ^ (bitLength n / 8 + 1) := by
  have hbits : n < 2 ^ bitLength n := by
    rw [bitLength]
    split
    · rename_i hzero
      rw [hzero]
      decide
    · exact Nat.lt_log2_self
  calc n < 2 ^ bitLength n := hbits
    _ ≤ 2 ^ (8 * (bitLength n / 8 + 1)) := Nat.pow_le_pow_right (by decide) (by omega)
    _ = 256 ^ (bitLength n / 8 + 1) := Nat.pow_mul 2 8 _

theorem readDerInteger_derInteger {n : Nat} (h : n < p256N) (rest : Bytes) :
    readDerInteger (derInteger n ++ rest) = .ok (n, rest) := by
  have hwidth : bitLength n / 8 + 1 < 256 := by
    rw [bitLength]
    split
    · decide
    · rename_i hne
      have hlog : Nat.log2 n < 256 := (Nat.log2_lt hne).mpr (h.trans (by decide))
      omega
  have hread : readDerInteger (derInteger n ++ rest) =
      .ok (intFromBytes ((intToBytes (bitLength n / 8 + 1) n ++ rest).take (UInt8.ofNat (bitLength n / 8 + 1)).toNat),
        (intToBytes (bitLength n / 8 + 1) n ++ rest).drop (UInt8.ofNat (bitLength n / 8 + 1)).toNat) := rfl
  have hsize : (UInt8.ofNat (bitLength n / 8 + 1)).toNat = bitLength n / 8 + 1 := UInt8.toNat_ofNat_of_lt hwidth
  rw [hread, hsize, List.take_left' (intToBytes_length _ n), List.drop_left' (intToBytes_length _ n),
    intFromBytes_intToBytes (lt_pow_bitLength n)]

/-- A platform that writes DER. -/
def derPlatform : Platform := { signingPlatform with encodeDssSignature := encodeDer }

theorem derInverse_decodeDer : DerInverse derPlatform decodeDer := by
  intro r s hr hs
  have hbody : (derPlatform.encodeDssSignature r s).drop 2 = derInteger r ++ (derInteger s ++ []) := by
    rw [List.append_nil]
    rfl
  rw [decodeDer, hbody, readDerInteger_derInteger hr.2, ok_bind]
  dsimp only
  rw [readDerInteger_derInteger hs.2, ok_bind]

/-- At the half order the low twin is `n / 2`, and the high one the next number up. -/
theorem p256_strictForm_half : Xor (RawAccepted derPlatform (rawOf 1 (p256N / 2)) false)
    (RawAccepted derPlatform (rawOf 1 (p256N - p256N / 2)) false) :=
  ((p256_strictForm derPlatform decodeDer derInverse_decodeDer).1 1 (p256N / 2) (by decide) (by decide)).1

end AitpVerifier
