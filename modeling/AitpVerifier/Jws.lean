import AitpVerifier.Jwk

/-!
# Compact JWS

Three non-empty segments, a header of exactly `alg` and `typ`, an algorithm
pinned by the signer's AID, and a signature over the transmitted octets.
-/
namespace AitpVerifier

open PyText Checked

structure ParsedJws where
  header : Members
  claims : Members
  signingInput : Bytes
  signature : Bytes

variable (P : Platform)

/-- A segment's JSON. -/
def loadsObject (data : Bytes) (structuralCode : String) : PyM JsonValue :=
  rescue (Jcs.loads P.toInterpreter data) (fun e =>
    some (AitpError structuralCode (txt "segment is not valid JSON: " ++ e.text)))

/-- Strictly parse a compact JWS; every defect carries `structuralCode`. -/
def parseCompact (token : JsonValue) (structuralCode : String) : PyM ParsedJws :=
  match token with
  | .str text =>
    match splitOn 0x2E text with
    | [headerPart, payloadPart, signaturePart] => do
      raiseIf (headerPart.isEmpty || payloadPart.isEmpty || signaturePart.isEmpty)
        (AitpError structuralCode (txt "compact JWS must have three non-empty segments"))
      let decode := fun part => onValueError (b64urlDecode part) structuralCode
        (txt "segment is not valid base64url: " ++ ·)
      let headerBytes ← decode headerPart
      let payloadBytes ← decode payloadPart
      let signature ← decode signaturePart
      let header ← loadsObject P headerBytes structuralCode
      let claims ← loadsObject P payloadBytes structuralCode
      match header, claims with
      | .dict header, .dict claims =>
        .ok ⟨header, claims, asciiOctets (headerPart ++ txt "." ++ payloadPart), signature⟩
      | _, _ => .error (AitpError structuralCode (txt "header and payload must be JSON objects"))
    | _ => .error (AitpError structuralCode (txt "compact JWS must have three non-empty segments"))
  | _ => .error (AitpError structuralCode (txt "token is not a string"))

/-- The claims of a structurally valid token, before any verification. -/
def peekClaims (token : JsonValue) (structuralCode : String) : PyM Members := do
  let parsed ← parseCompact P token structuralCode
  .ok parsed.claims

/-- The codes a caller gives each step of `verifyJws`. -/
structure JwsErrors where
  typErr : String
  algErr : String
  sigErr : String

/-- Whether a header holds exactly `alg` and `typ`. -/
def exactHeader (header : Members) : Bool :=
  header.has (txt "alg") && header.has (txt "typ") &&
    header.names.all (fun k => k == txt "alg" || k == txt "typ")

/-- Parse and verify a compact JWS under `issAid`'s key: header, `typ`,
`afterTypCheck`, `alg`, signature. -/
def verifyJws (token : JsonValue) (issAid expectedTyp : Text) (errors : JwsErrors)
    (afterTypCheck : Members → PyM Unit) : PyM Members := do
  let parsed ← parseCompact P token errors.sigErr
  raiseIf (!exactHeader parsed.header) (AitpError errors.algErr
    (txt "JWS header must contain exactly alg and typ, got " ++ reprSorted P parsed.header.names))
  let typ := parsed.header.get (txt "typ")
  raiseWith (!typ.eq (.str expectedTyp)) (do
    .ok (AitpError errors.typErr (txt "typ " ++ (← describeValue P typ) ++ txt " != " ++ P.reprStr expectedTyp)))
  afterTypCheck parsed.claims
  let aid ← parseAid P issAid
  let alg := parsed.header.get (txt "alg")
  raiseWith (!alg.eq (.str aid.joseAlg)) (do
    .ok (AitpError errors.algErr (txt "alg " ++ (← describeValue P alg) ++ txt " != AID-pinned " ++
      P.reprStr aid.joseAlg)))
  raiseIf (!verifyJose P (.agent aid.publicKey) parsed.signingInput parsed.signature false)
    (AitpError errors.sigErr (txt "compact JWS signature verification failed"))
  .ok parsed.claims

/-! ### Minting -/

/-- One character in `json.dumps` of a string: escaped unless it is printable ASCII, as
two surrogates beyond the basic plane. -/
def dumpsChar (c : CodePoint) : Text :=
  match Jcs.namedEscape c with
  | some escape => escape
  | none =>
    if 0x20 ≤ c.val ∧ c.val ≤ 0x7E then [c]
    else if c.val < 0x10000 then txt "\\u" ++ hex 4 c.val
    else txt "\\u" ++ hex 4 (0xD800 + (c.val - 0x10000) / 0x400) ++ txt "\\u" ++ hex 4 (0xDC00 + (c.val - 0x10000) % 0x400)

/-- `json.dumps(s)`. -/
def dumpsString (s : Text) : Text := txt "\"" ++ s.flatMap dumpsChar ++ txt "\""

/-- The protected header, in its fixed member order. -/
def jwsHeader (typ alg : Text) : Text :=
  txt "\x7b\"alg\":" ++ dumpsString alg ++ txt ",\"typ\":" ++ dumpsString typ ++ txt "\x7d"

/-- What a minted token signs: the header and the canonical form of the claims. -/
def jwsSigningInput (typ alg : Text) (claims : Members) : PyM Text := do
  let payload ← Jcs.canonicalize (.dict claims)
  .ok (b64urlEncode (asciiOctets (jwsHeader typ alg)) ++ txt "." ++ b64urlEncode payload)

/-- Mint a compact JWS. -/
def encodeJws (typ : Text) (claims : Members) (privateKey : PrivateKey) (alg : Text) : PyM Text := do
  let signingInput ← jwsSigningInput typ alg claims
  let signature ← signJose privateKey (asciiOctets signingInput)
  .ok (signingInput ++ txt "." ++ b64urlEncode signature)

/-! ### What acceptance establishes -/

/-- The one thing a text parses to; the structural code only names the failure. -/
def ParsesTo (token : JsonValue) (parsed : ParsedJws) : Prop := ∃ code, parseCompact P token code = .ok parsed

theorem loadsObject_eq_ok {data : Bytes} {code : String} {value : JsonValue} :
    loadsObject P data code = .ok value ↔ Jcs.loads P.toInterpreter data = .ok value := rescue_eq_ok

theorem parseCompact_code {token : JsonValue} {parsed : ParsedJws} {code : String}
    (h : parseCompact P token code = .ok parsed) (code' : String) : parseCompact P token code' = .ok parsed := by
  unfold parseCompact at h ⊢
  split at h <;> try contradiction
  split at h <;> try contradiction
  simp only [bind_eq_ok, exists_unit, raiseIf_eq_ok, onValueError_eq_ok, loadsObject_eq_ok] at h ⊢
  obtain ⟨hne, hb, hh, pb, hp, sb, hs, header, hl, claims, hc, h⟩ := h
  refine ⟨hne, hb, hh, pb, hp, sb, hs, header, hl, claims, hc, ?_⟩
  split at h <;> simp_all

theorem parseCompact_eq_ok {token : JsonValue} {parsed : ParsedJws} {code : String} :
    parseCompact P token code = .ok parsed ↔ ParsesTo P token parsed :=
  ⟨fun h => ⟨code, h⟩, fun ⟨_, h⟩ => parseCompact_code P h code⟩

theorem ParsesTo.unique {token : JsonValue} {a b : ParsedJws} (ha : ParsesTo P token a) (hb : ParsesTo P token b) :
    a = b := by
  have h : parseCompact P token "" = .ok a := (parseCompact_eq_ok P).mpr ha
  rw [(parseCompact_eq_ok P).mpr hb] at h
  exact (Except.ok.inj h).symm

theorem peekClaims_eq_ok {token : JsonValue} {claims : Members} {code : String} :
    peekClaims P token code = .ok claims ↔ ∃ parsed, ParsesTo P token parsed ∧ parsed.claims = claims := by
  simp [peekClaims, bind_eq_ok, parseCompact_eq_ok]

/-- A token of type `typ` whose header pins the algorithm of `issAid` and whose
signature verifies under that identifier's key. -/
def SignedToken (token : JsonValue) (issAid typ : Text) (claims : Members) : Prop :=
  ∃ parsed aid, ParsesTo P token parsed ∧ parsed.claims = claims ∧ exactHeader parsed.header ∧
    parsed.header.get (txt "typ") = .str typ ∧ parseAid P issAid = .ok aid ∧
    parsed.header.get (txt "alg") = .str aid.joseAlg ∧
    verifyJose P (.agent aid.publicKey) parsed.signingInput parsed.signature false

theorem verifyJws_eq_ok {token : JsonValue} {issAid typ : Text} {errors : JwsErrors} {check : Members → PyM Unit}
    {claims : Members} :
    verifyJws P token issAid typ errors check = .ok claims ↔
      SignedToken P token issAid typ claims ∧ check claims = .ok () := by
  simp only [verifyJws, SignedToken, bind_eq_ok, exists_unit, parseCompact_eq_ok, raiseIf_eq_ok, raiseWith_eq_ok,
    Except.ok.injEq, Bool.not_eq_false', JsonValue.eq_str]
  constructor
  · rintro ⟨parsed, hp, hh, ht, hc, aid, ha, hg, hv, rfl⟩
    exact ⟨⟨parsed, aid, hp, rfl, hh, ht, ha, hg, hv⟩, hc⟩
  · rintro ⟨⟨parsed, aid, hp, rfl, hh, ht, ha, hg, hv⟩, hc⟩
    exact ⟨parsed, hp, hh, ht, hc, aid, ha, hg, hv, rfl⟩

theorem SignedToken.parses {token : JsonValue} {issAid typ : Text} {claims : Members}
    (h : SignedToken P token issAid typ claims) : ∃ parsed, ParsesTo P token parsed ∧ parsed.claims = claims := by
  obtain ⟨parsed, _, hp, hc, _⟩ := h
  exact ⟨parsed, hp, hc⟩

/-- The claims read before verification are the claims verified. -/
theorem SignedToken.claims_unique {token : JsonValue} {issAid typ : Text} {claims peeked : Members}
    (h : SignedToken P token issAid typ claims) (hp : ∃ parsed, ParsesTo P token parsed ∧ parsed.claims = peeked) :
    peeked = claims := by
  obtain ⟨a, ha, rfl⟩ := h.parses
  obtain ⟨b, hb, rfl⟩ := hp
  rw [ParsesTo.unique P ha hb]

/-- A token that verifies under the key of the issuer it names. -/
def IssuedToken (token : JsonValue) (typ : Text) (claims : Members) : Prop :=
  ∃ iss, claims.get (txt "iss") = .str iss ∧ SignedToken P token iss typ claims

/-- Reading the issuer before the signature is checked changes nothing. -/
theorem issuedToken_iff {token : JsonValue} {typ : Text} {claims : Members} (hi : ∃ s, claims.get (txt "iss") = .str s) :
    IssuedToken P token typ claims ↔
      ∃ peeked, (∃ parsed, ParsesTo P token parsed ∧ parsed.claims = peeked) ∧
        ∃ iss, P.toStr (peeked.get (txt "iss")) = .ok iss ∧ SignedToken P token iss typ claims := by
  constructor
  · rintro ⟨iss, hi, hc⟩
    exact ⟨claims, hc.parses, iss, by simp [hi, Interpreter.toStr], hc⟩
  · rintro ⟨peeked, hp, issText, hs, hc⟩
    obtain rfl := hc.claims_unique P hp
    obtain ⟨iss, hi⟩ := hi
    rw [hi] at hs
    obtain rfl : iss = issText := by simpa [Interpreter.toStr] using hs
    exact ⟨iss, hi, hc⟩

/-- The issuer of a verified token is an identifier that parses. -/
theorem IssuedToken.issuer_parses {token : JsonValue} {typ : Text} {claims : Members}
    (h : IssuedToken P token typ claims) : ∃ aid, parseAid P (claims.get (txt "iss")).text = .ok aid := by
  obtain ⟨iss, hi, _, aid, _, _, _, _, ha, _⟩ := h
  rw [hi]
  exact ⟨aid, ha⟩

/-- A token has one set of claims to verify. -/
theorem IssuedToken.unique {token : JsonValue} {typ typ' : Text} {a b : Members} (ha : IssuedToken P token typ a)
    (hb : IssuedToken P token typ' b) : a = b := by
  obtain ⟨_, _, ha⟩ := ha
  obtain ⟨_, _, hb⟩ := hb
  exact hb.claims_unique P ha.parses

end AitpVerifier
