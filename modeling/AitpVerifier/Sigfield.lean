import AitpVerifier.Aid
import AitpVerifier.Fields

/-!
# Algorithm-tagged signature fields and proof inputs

A signature field may name its algorithm with an `ed25519.` or `p256.` tag; an
untagged one is Ed25519. What it names must be the signer's own algorithm.
-/
namespace AitpVerifier

open PyText Checked

/-- The algorithm a signature string declares, and its body. -/
def splitTag (sig : Text) : Text × Text :=
  if sig.contains 0x2E then
    let (tag, _, body) := partition 0x2E sig
    (tag, body)
  else (txt "ed25519", sig)

variable (P : Platform)

/-- The raw signature octets, with the tag held to `alg`. -/
def decodeTaggedSignatureFor (sig : JsonValue) (alg : KeyAlg) (sigErr : String) : PyM Bytes :=
  match sig with
  | .str s => do
    let (tag, body) := splitTag s
    raiseIf (!(tag == txt "ed25519" || tag == txt "p256"))
      (AitpError sigErr (txt "unknown signature algorithm tag: " ++ P.reprStr tag))
    raiseIf (tag != alg.text) (AitpError sigErr
      (txt "signature algorithm " ++ P.reprStr tag ++ txt " != signer algorithm " ++ P.reprStr alg.text))
    let raw ← onValueError (b64urlDecode body) sigErr (txt "signature is not valid base64url: " ++ ·)
    raiseIf (raw.length != 64)
      (AitpError sigErr (txt "signature must be 64 raw bytes, got " ++ decimal raw.length))
    .ok raw
  | _ => .error (AitpError sigErr (txt "signature is " ++ sig.typeName ++ txt ", not a string"))

/-- `decodeTaggedSignatureFor` with an agent as the signer. -/
def decodeTaggedSignature (sig : JsonValue) (aid : Aid) (sigErr : String) : PyM Bytes :=
  decodeTaggedSignatureFor P sig aid.alg sigErr

/-- The octets a signature field decodes to under the tag rules for `alg`. -/
def TaggedSignature (sig : JsonValue) (alg : KeyAlg) (raw : Bytes) : Prop :=
  ∃ s, sig = .str s ∧ (splitTag s).1 = alg.text ∧ b64urlDecode (splitTag s).2 = .ok raw ∧ raw.length = 64

theorem KeyAlg.text_known (alg : KeyAlg) : (alg.text == txt "ed25519" || alg.text == txt "p256") = true := by
  cases alg <;> decide

theorem decodeTaggedSignatureFor_eq_ok {sig : JsonValue} {alg : KeyAlg} {sigErr : String} {raw : Bytes} :
    decodeTaggedSignatureFor P sig alg sigErr = .ok raw ↔ TaggedSignature sig alg raw := by
  cases sig with
  | str s =>
    simp only [decodeTaggedSignatureFor, TaggedSignature, bind_eq_ok, exists_unit, raiseIf_eq_ok,
      onValueError_eq_ok, JsonValue.str.injEq, exists_eq_left', bne_eq_false_iff_eq, Except.ok.injEq]
    constructor
    · rintro ⟨_, ht, decoded, hd, hl, rfl⟩
      exact ⟨ht, hd, hl⟩
    · rintro ⟨ht, hd, hl⟩
      exact ⟨by simpa only [ht, Bool.not_eq_false'] using alg.text_known, ht, raw, hd, hl, rfl⟩
  | _ => simp [decodeTaggedSignatureFor, TaggedSignature]

/-- A signature field that decodes under the signer's tag rules and verifies over `digest`. -/
def FieldVerifies (aid : Aid) (sig : JsonValue) (digest : Bytes) : Prop :=
  ∃ raw, TaggedSignature sig aid.alg raw ∧ verifyDigest P aid.publicKey digest raw

/-- A body's `signature` member verifies over the canonical form of the rest of it. -/
def BodySigned (body : Members) (aid : Aid) : Prop :=
  ∃ octets, Jcs.canonicalize (.dict (body.without (txt "signature"))) = .ok octets ∧
    FieldVerifies P aid (body.get (txt "signature")) (P.sha256 octets)

/-- Octets of a text known to be ASCII. -/
def asciiOctets (s : Text) : Bytes := s.map (fun c => .ofNat c.val)

/-! ### The handshake proof input -/

def nul : Text := [0]

def pinnedKeyDomain : Text := txt "aitp-pinned-key-v1" ++ nul
def spiffeX509Domain : Text := txt "aitp-spiffe-x509-v1" ++ nul

/-- `text.encode("utf-8")`. -/
def encodeUtf8 (s : Text) : PyM Bytes :=
  match utf8? s with
  | some octets => .ok octets
  | none => .error (.raised .unicode (txt "'utf-8' codec can't encode: surrogates not allowed"))

theorem encodeUtf8_eq_ok {s : Text} {octets : Bytes} : encodeUtf8 s = .ok octets ↔ utf8? s = some octets := by
  rw [encodeUtf8]
  cases utf8? s <;> simp

/-- Five fields after a domain prefix, each but the last closed by a NUL. -/
def handshakeProofInput (domain : Text) (senderAid receiverAid messageId : JsonValue) (timestamp : Int)
    (popNonce : JsonValue) : PyM Bytes := do
  let sender ← encodeUtf8 (← senderAid.asText (txt "encode"))
  let receiver ← encodeUtf8 (← receiverAid.asText (txt "encode"))
  let message ← encodeUtf8 (← messageId.asText (txt "encode"))
  let time ← intText timestamp
  let nonce ← popNonce.b64urlDecode
  .ok (asciiOctets domain ++ sender ++ [0] ++ receiver ++ [0] ++ message ++ [0] ++ asciiOctets time ++ [0] ++ nonce)

end AitpVerifier
