import AitpVerifier.Jwk
import AitpVerifier.Jws

/-!
# A platform that answers from a recording

Digests and Ed25519 signatures come from a table of what the real primitives
returned, everything else is refused. The verifier runs on it as it runs on the
real platform, for inputs the table covers.
-/
namespace AitpVerifier

open PyText

/-- A signature a signer made: its identifier, the signature field, the message. -/
structure RecordedSignature where
  signer : Text
  signature : Text
  message : Bytes

structure Recording where
  digests : List (Bytes × Text)
  signatures : List RecordedSignature

/-- Octets of a base64url text, for the recording's own entries. -/
def octetsOf (text : Text) : Bytes := (unpackSextets (text.filterMap sextet?)).getD []

def Recording.digest (r : Recording) (message : Bytes) : Bytes :=
  ((r.digests.find? (fun d => d.1 == message)).map (fun d => octetsOf d.2)).getD []

def Recording.genuine (r : Recording) (key signature message : Bytes) : Bool :=
  r.signatures.any (fun s => s.message == message && octetsOf s.signature == signature && octetsOf s.signer == key)

/-- The platform of a recording. -/
def Recording.platform (r : Recording) : Platform where
  isPrintable c := decide (0xA0 < c.val ∧ c.val < 0x250)
  decimalValue _ := none
  reprDepth := 200
  parseDepth := 900
  decodeErrorText _ := txt "'utf-8' codec can't decode"
  fromTimestamp now := .ok now
  sha256 := r.digest
  ed25519Verify := r.genuine
  p256Point? _ := none
  publicNumbers? _ _ _ := false
  encodeDssSignature _ _ := []
  ecdsaVerify _ _ _ _ _ _ _ := false
  rsaNumbers _ _ := .error (valueError (txt "unsupported"))
  rsaVerify _ _ _ _ _ _ := false
  loadDerCertificate _ := .error (valueError (txt "unsupported"))
  verifyDirectlyIssuedBy _ _ := .error (valueError (txt "unsupported"))

/-! ### Three agents -/

def agentA : Text := txt "iojj3XQJ8ZX9UtstPLpdcspn" ++ txt "Cb8dlBIb83SIAbQPb1w"

def agentB : Text := txt "gTl3Dqh9F19Wo1Rmw0x-zMuN" ++ txt "ipG07jeiXfYPW4_Js5Q"

def agentC : Text := txt "7UkoxijRwsbq6QM4kFmVYSlZ" ++ txt "JzpcY_k2NsFGFKyHN9E"

/-- The octets of a computation known to succeed. -/
def octetsFrom (x : PyM Bytes) : Bytes :=
  match x with
  | .ok data => data
  | .error _ => []

/-- The untagged AID of an identifier. -/
def aidOf (ident : Text) : Text := txt "aid:pubkey:" ++ ident

/-- A minted Ed25519 token with the given signature segment. -/
def mintedToken (typ : Text) (claims : Members) (signature : Text) : JsonValue :=
  match jwsSigningInput typ (txt "EdDSA") claims with
  | .ok input => .str (input ++ txt "." ++ signature)
  | .error _ => .null

/-- The recorded signature of a minted token. -/
def mintedSignature (signer typ : Text) (claims : Members) (signature : Text) : RecordedSignature where
  signer
  signature
  message := match jwsSigningInput typ (txt "EdDSA") claims with
    | .ok input => asciiOctets input
    | .error _ => []

/-- The thumbprint of agent B's key. -/
def thumbprintB : Text := txt "aVBtapLd11SUVKIMGJfPzOEDuN0s" ++ txt "XcmzJQNVT-_sKEU"

/-- The recorded digest of an Ed25519 identifier's canonical JWK. -/
def recordedThumbprint (ident digest : Text) : Bytes × Text :=
  (canonicalJwk ⟨[], .ed25519, octetsOf ident, .ed25519 []⟩, digest)

/-- The claims of a capability agent A grants agent B. -/
def grantClaims : Members :=
  [(txt "ver", .str (txt "aitp/0.3")), (txt "jti", .str (txt "0b7e8a52-4c1d-4e3f-9a6b-2d5c8f1e7a90")),
    (txt "iss", .str (aidOf agentA)), (txt "sub", .str (aidOf agentB)), (txt "aud", .str (aidOf agentB)),
    (txt "iat", .int 1711900000), (txt "exp", .int 1711990000), (txt "grants", .list [.str (txt "read")]),
    (txt "cnf", .dict [(txt "jkt", .str thumbprintB)])]

def grantSignature : Text :=
  txt "F7LEl0YgzPylm-N7thPFWVpZekoDVVEhLphbMQY4" ++
    txt "kAeOukEcdb0LxBF5QP5-tjSNdmt9EDfj_UaNi7IR" ++ txt "7ZTvAg"

def grantToken : JsonValue := mintedToken (txt "aitp-tct+jwt") grantClaims grantSignature

def grantRecorded : RecordedSignature := mintedSignature agentA (txt "aitp-tct+jwt") grantClaims grantSignature

/-- An empty deny list of an agent's. -/
def emptyDenyList (issuer : Text) : Members :=
  [(txt "version", .str (txt "aitp/0.3")), (txt "issuer", .str (aidOf issuer)),
    (txt "published_at", .int 1711899400), (txt "expires_at", .int 1711903600), (txt "entries", .list [])]

def snapshotOf (issuer signature : Text) : JsonValue :=
  .dict [(txt "revocation_list", .dict (emptyDenyList issuer)), (txt "signature", .str signature)]

/-- The recorded digest of an empty deny list. -/
def snapshotDigest (issuer digest : Text) : Bytes × Text :=
  (octetsFrom (Jcs.canonicalize (.dict (emptyDenyList issuer))), digest)

def snapshotSignatureA : Text :=
  txt "JHejnFMmcocbXg1M1vPN2PpjRo5rNzliYRtzHbA1" ++
    txt "lpCCRB0jjjc-982lhwj2tC9LHwPWH_t2ylPpe6sL" ++ txt "5r94DA"

def snapshotSignatureB : Text :=
  txt "RMD_9d7bRDWBVODI6q4gv2ISE7e_q8LlYG11UALw" ++
    txt "izKPhefDTK1KDO7h9ZCTiv-8bPcLievHC4gafdhb" ++ txt "f2bKBg"

def snapshotSignatureC : Text :=
  txt "P4PeW3bRp3H37gPPcF8d6aOj6e9bjU7nli0vWYc9" ++
    txt "RDH-IVjcjEF2CVsqffjH5zkz_vw_wN2u1RDvDHeK" ++ txt "d1LJDQ"

def snapshotDigestA : Text := txt "aMfFPwNVD0chajz2VTCMxPFf" ++ txt "QnLn4R0znAEYZcYJpRg"

def snapshotDigestB : Text := txt "ypdxGvD0bOMpHPckfOBX-chd" ++ txt "rG6k_89E5spbxInj0vM"

def snapshotDigestC : Text := txt "dvvYtiElsYNVjgIEZg-giAmN" ++ txt "Xb5wnn7_ajOzgCbDK6Q"

/-- The thumbprint of agent C's key. -/
def thumbprintC : Text := txt "nRIE2VmKdMjL1JD7tbV7fXVg" ++ txt "Xxmv0GKnMFWRUJMTf9Q"

/-- The thumbprint of agent A's key. -/
def thumbprintA : Text := txt "UDDReOZl1ipXAfp9wYsm13sD" ++ txt "BMK5og--QWdBjzuf6o4"

end AitpVerifier
