import AitpVerifier.B64

/-!
# Ed25519, ECDSA P-256 and RSA verification

`Crypto` is the third-party cryptography library as this package calls it;
`Platform` adds the interpreter. Everything the verifier decides about a key or
a signature before it calls the library is defined here.
-/
namespace AitpVerifier

open PyText Checked

inductive Curve where
  | p256 | p384 | p521
  deriving DecidableEq, Repr

inductive HashAlgorithm where
  | sha256 | sha384 | sha512
  deriving DecidableEq, Repr

inductive RsaPadding where
  | pkcs1v15 | pss
  deriving DecidableEq, Repr

/-! ### X.509 certificates, as the library presents them -/

inductive GeneralName where
  | uri : Text → GeneralName
  | other : GeneralName
  deriving DecidableEq, Repr

inductive ExtensionValue where
  | basicConstraints : (ca : Bool) → (pathLength : Option Nat) → ExtensionValue
  | keyUsage : (digitalSignature keyCertSign crlSign : Bool) → ExtensionValue
  | subjectAlternativeName : List GeneralName → ExtensionValue
  | nameConstraints : (permitted excluded : Option (List GeneralName)) → ExtensionValue
  | other : ExtensionValue
  deriving DecidableEq, Repr

structure Extension where
  oid : Text
  critical : Bool
  value : ExtensionValue
  deriving DecidableEq, Repr

/-- A public key object of the library. -/
inductive NativeKey where
  | ed25519 : (raw : Bytes) → NativeKey
  | ec : Curve → (x y : Nat) → NativeKey
  | rsa : (n e : Nat) → NativeKey
  | other : NativeKey
  deriving DecidableEq, Repr

/-- A loaded certificate. Its properties are parsed when read, so each can raise. -/
structure Certificate where
  der : Bytes
  isV3 : PyM Bool
  notValidBefore : PyM Int
  notValidAfter : PyM Int
  extensions : PyM (List Extension)
  publicKey : PyM NativeKey

/-- The primitives the package imports. `p256Point?` is `from_encoded_point` on
SECP256R1, `publicNumbers?` the check `EllipticCurvePublicNumbers.public_key`
makes, `rsaNumbers` the same for RSA; a verification is a verdict. -/
structure Crypto where
  sha256 : Bytes → Bytes
  ed25519Verify : (key signature message : Bytes) → Bool
  p256Point? : Bytes → Option (Nat × Nat)
  publicNumbers? : Curve → (x y : Nat) → Bool
  encodeDssSignature : (r s : Nat) → Bytes
  ecdsaVerify : Curve → (x y : Nat) → HashAlgorithm → (prehashed : Bool) → (der message : Bytes) → Bool
  rsaNumbers : (n e : Nat) → PyM Unit
  rsaVerify : (n e : Nat) → RsaPadding → HashAlgorithm → (signature message : Bytes) → Bool
  loadDerCertificate : Bytes → PyM Certificate
  verifyDirectlyIssuedBy : (cert issuer : Certificate) → PyM Unit

structure Platform extends Interpreter, Crypto

/-! ### Keys -/

/-- An agent's algorithm: the only two an AID names. -/
inductive KeyAlg where
  | ed25519 | p256
  deriving DecidableEq, Repr

def KeyAlg.text : KeyAlg → Text
  | .ed25519 => txt "ed25519"
  | .p256 => txt "p256"

/-- An agent's verifying key, tagged with its algorithm. -/
inductive AgentKey where
  | ed25519 : (raw : Bytes) → AgentKey
  | p256 : (x y : Nat) → AgentKey
  deriving DecidableEq, Repr

def AgentKey.alg : AgentKey → KeyAlg
  | .ed25519 _ => .ed25519
  | .p256 .. => .p256

/-- A verifying key. RSA is issuer key material only. -/
inductive PublicKey where
  | agent : AgentKey → PublicKey
  | rsa : (n e : Nat) → PublicKey
  deriving DecidableEq, Repr

def valueError (message : Text) : PyErr := .raised .value message

/-- `int.from_bytes(data, "big")`. -/
def intFromBytes (data : Bytes) : Nat := data.foldl (fun n b => n * 256 + b.toNat) 0

/-- `n.to_bytes(width, "big")` for an `n` that fits. -/
def intToBytes : (width n : Nat) → Bytes
  | 0, _ => []
  | width + 1, n => intToBytes width (n / 256) ++ [.ofNat (n % 256)]

def bitLength (n : Nat) : Nat := if n = 0 then 0 else Nat.log2 n + 1

/-- The order of the P-256 group. -/
def p256N : Nat := 0xFFFFFFFF00000000FFFFFFFFFFFFFFFFBCE6FAADA7179E84F3B9CAC2FC632551

def minRsaModulusBits : Nat := 2048
def maxRsaModulusBits : Nat := 8192
def maxRsaExponentBits : Nat := 33

variable (P : Platform)

/-- Convert a raw `R||S` signature to DER: both parts in range, and `S` low
unless `allowHighS`. -/
def p256RawToDer (sig : Bytes) (allowHighS : Bool) : PyM Bytes := do
  raiseIf (sig.length != 64)
    (valueError (txt "ES256 signature must be 64 raw bytes, got " ++ decimal sig.length))
  let r := intFromBytes (sig.take 32)
  let s := intFromBytes (sig.drop 32)
  raiseIf (!(decide (0 < r ∧ r < p256N) && decide (0 < s ∧ s < p256N)))
    (valueError (txt "P-256 signature R or S is out of range"))
  raiseIf (decide (p256N / 2 < s) && !allowHighS) (valueError (txt "P-256 signature is high-S (S > n/2)"))
  .ok (P.encodeDssSignature r s)

/-- Build from the raw encoding embedded in an AID: 32 bytes, or a compressed point. -/
def fromRaw (alg : KeyAlg) (raw : Bytes) : PyM AgentKey :=
  match alg with
  | .ed25519 => do
    raiseIf (raw.length != 32)
      (valueError (txt "ed25519 public key must be 32 bytes, got " ++ decimal raw.length))
    .ok (.ed25519 raw)
  | .p256 => do
    raiseIf (raw.length != 33)
      (valueError (txt "p256 public key must be 33 SEC1-compressed bytes, got " ++ decimal raw.length))
    match P.p256Point? raw with
    | some (x, y) => .ok (.p256 x y)
    | none => .error (valueError (txt "Invalid EC key"))

/-- Build a verification-only RSA key from a JWK's `n` and `e`: bounded, and
minimally encoded. -/
def fromRsaNumbers (n e : Bytes) : PyM PublicKey := do
  let nInt := intFromBytes n
  let bits := bitLength nInt
  raiseIf (!decide (minRsaModulusBits ≤ bits ∧ bits ≤ maxRsaModulusBits))
    (valueError (txt "RSA modulus must be between 2048 and 8192 bits, got " ++ decimal bits))
  raiseIf (decide (1 < n.length) && n.head? == some 0)
    (valueError (txt "RSA modulus 'n' is not minimally encoded (leading zero byte), got " ++
      decimal n.length ++ txt " bytes for a " ++ decimal bits ++ txt "-bit value"))
  let eInt := intFromBytes e
  let eBits := bitLength eInt
  raiseIf (decide (maxRsaExponentBits < eBits))
    (valueError (txt "RSA public exponent must be at most 33 bits, got " ++ decimal eBits))
  raiseIf (decide (1 < e.length) && e.head? == some 0)
    (valueError (txt "RSA public exponent 'e' is not minimally encoded (leading zero byte), got " ++
      decimal e.length ++ txt " bytes for a " ++ decimal eBits ++ txt "-bit value"))
  P.rsaNumbers nInt eInt
  .ok (.rsa nInt eInt)

/-- Verify a JCS-profile or proof-of-possession signature over a SHA-256 digest.
No RSA key reaches this profile. -/
def verifyDigest (key : AgentKey) (digest sig : Bytes) : Bool :=
  match key with
  | .ed25519 raw => P.ed25519Verify raw sig digest
  | .p256 x y =>
    match p256RawToDer P sig false with
    | .ok der => P.ecdsaVerify .p256 x y .sha256 true der digest
    | .error _ => false

/-- Verify a compact-JWS signature over the transmitted bytes. -/
def verifyJose (key : PublicKey) (signingInput sig : Bytes) (idpToken : Bool) : Bool :=
  match key with
  | .agent (.ed25519 raw) => P.ed25519Verify raw sig signingInput
  | .agent (.p256 x y) =>
    match p256RawToDer P sig idpToken with
    | .ok der => P.ecdsaVerify .p256 x y .sha256 false der signingInput
    | .error _ => false
  | .rsa n e => P.rsaVerify n e .pkcs1v15 .sha256 sig signingInput

/-! ### Signing -/

/-- A signing key, by its raw public key and what the library signs with it: the octets of
an Ed25519 signature, or the two integers `decode_dss_signature` finds in an ECDSA
signature of a message, or of a digest. -/
inductive PrivateKey where
  | ed25519 : (raw : Bytes) → (sign : Bytes → Bytes) → PrivateKey
  | p256 : (raw : Bytes) → (sign signPrehashed : Bytes → Nat × Nat) → PrivateKey

def PrivateKey.alg : PrivateKey → KeyAlg
  | .ed25519 .. => .ed25519
  | .p256 .. => .p256

def PrivateKey.rawPublic : PrivateKey → Bytes
  | .ed25519 raw _ => raw
  | .p256 raw _ _ => raw

/-- `n.to_bytes(32, "big")`. -/
def toBytes32 (n : Int) : PyM Bytes := do
  raiseIf (decide (n < 0)) (.raised .overflow (txt "can't convert negative int to unsigned"))
  raiseIf (decide (2 ^ 256 ≤ n)) (.raised .overflow (txt "int too big to convert"))
  .ok (intToBytes 32 n.toNat)

/-- Convert a DER signature to raw `R||S`, normalised to low `S`. -/
def p256DerToRaw (r s : Nat) : PyM Bytes := do
  let s : Int := if p256N / 2 < s then p256N - s else s
  let rOctets ← toBytes32 r
  let sOctets ← toBytes32 s
  .ok (rOctets ++ sOctets)

/-- Sign a SHA-256 digest. -/
def signDigest (key : PrivateKey) (digest : Bytes) : PyM Bytes :=
  match key with
  | .ed25519 _ sign => .ok (sign digest)
  | .p256 _ _ signPrehashed => p256DerToRaw (signPrehashed digest).1 (signPrehashed digest).2

/-- Sign the octets of a compact JWS. -/
def signJose (key : PrivateKey) (signingInput : Bytes) : PyM Bytes :=
  match key with
  | .ed25519 _ sign => .ok (sign signingInput)
  | .p256 _ sign _ => p256DerToRaw (sign signingInput).1 (sign signingInput).2

end AitpVerifier
