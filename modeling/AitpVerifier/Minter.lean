import AitpVerifier.Runner

/-!
# The fixture minter

Fixtures hold placeholders where signatures and tokens belong. The minter resolves the
times, mints the tokens from the claims beside them, innermost first, and signs the
documents with the known-answer keys. It is no part of the verifier.
-/
namespace AitpVerifier

open PyText Checked

/-! ### The minter's errors -/

/-- What minting fails with: an exception of the code it calls, or a placeholder that
cannot be materialised. -/
inductive MintError where
  | python : PyErr → MintError
  | minter : (message : Text) → MintError
  deriving DecidableEq, Repr

abbrev MintM := Except MintError

/-- A call of code that knows no minter error. -/
def python {α : Type} (x : PyM α) : MintM α := x.mapError .python

@[simp] theorem python_eq_ok {α : Type} {x : PyM α} {a : α} : python x = .ok a ↔ x = .ok a := by
  cases x <;> simp [python, Except.mapError]

variable (P : Platform)

/-! ### Times -/

mutual
/-- Every time placeholder of a value resolved at the clock `now`. -/
def resolveTimes (now : Int) : JsonValue → PyM JsonValue
  | .str s => resolveTime P now s
  | .list items => do
    let resolved ← resolveItems now items
    .ok (.list resolved)
  | .dict members => do
    let resolved ← resolveMembers now members
    .ok (.dict resolved)
  | value => .ok value

def resolveItems (now : Int) : List JsonValue → PyM (List JsonValue)
  | [] => .ok []
  | value :: rest => do
    let resolved ← resolveTimes now value
    let others ← resolveItems now rest
    .ok (resolved :: others)

def resolveMembers (now : Int) : Members → PyM Members
  | [] => .ok []
  | (key, value) :: rest => do
    let resolved ← resolveTimes now value
    let others ← resolveMembers now rest
    .ok ((key, resolved) :: others)
end

/-- A text stays what it is, or it becomes a number. -/
theorem resolveTime_eq_ok {now : Int} {s : Text} {value : JsonValue} (h : resolveTime P now s = .ok value) :
    value = .str s ∨ ∃ n, value = .int n := by
  unfold resolveTime at h
  extract_lets body offset at h
  split at h
  · exact .inr ⟨now, (Except.ok.inj h).symm⟩
  · split at h
    · simp only [bind_eq_ok, Except.ok.injEq] at h
      obtain ⟨n, _, rfl⟩ := h
      exact .inr ⟨now - n, rfl⟩
    · simp only [bind_eq_ok, Except.ok.injEq] at h
      obtain ⟨n, _, rfl⟩ := h
      exact .inr ⟨now + n, rfl⟩
    · exact .inl (Except.ok.inj h).symm

/-! ### Tokens -/

/-- What becomes of a minted token. -/
inductive TokenVariant where
  | normal | tamper | algNone | wrongAlg | any
  deriving DecidableEq, Repr

/-- Placeholder, `typ` and variant. -/
def jwsTokens : List (Text × Text × TokenVariant) :=
  [(txt "__JWS_TCT__", txt "aitp-tct+jwt", .normal), (txt "__JWS_GRANT_VOUCHER__", txt "aitp-grant+jwt", .normal),
    (txt "__JWS_DELEGATION__", txt "aitp-delegation+jwt", .normal), (txt "__JWS_TCT_TAMPERED_SIG__", txt "aitp-tct+jwt", .tamper),
    (txt "__JWS_DELEGATION_TAMPERED_SIG__", txt "aitp-delegation+jwt", .tamper),
    (txt "__JWS_VOUCHER_TAMPERED_SIG__", txt "aitp-grant+jwt", .tamper), (txt "__JWS_TCT_ALG_NONE__", txt "aitp-tct+jwt", .algNone),
    (txt "__JWS_TCT_WRONG_ALG__", txt "aitp-tct+jwt", .wrongAlg), (txt "__ANY_JWS__", txt "aitp-delegation+jwt", .any)]

/-- `raw[-1] ^= 0x01`. The index error of an empty signature is no one's to catch. -/
def flipLastBit (raw : Bytes) : PyM Bytes :=
  match raw.getLast? with
  | some last => .ok (raw.dropLast ++ [last ^^^ 1])
  | none => .error (.raised .key (txt "bytearray index out of range"))

/-- Flip the last bit of a token's signature. -/
def tamperLastSigByte (token : Text) : PyM Text :=
  match splitOn 0x2E token with
  | [header, payload, signature] => do
    let raw ← flipLastBit (← b64urlDecode signature)
    .ok (header ++ txt "." ++ payload ++ txt "." ++ b64urlEncode raw)
  | parts => .error (valueError (if parts.length < 3 then
      txt "not enough values to unpack (expected 3, got " ++ decimal parts.length ++ txt ")"
    else txt "too many values to unpack (expected 3)"))

/-- The token of one member, where the member holds a placeholder and its claims stand beside it. -/
def mintSibling (mint : Text → JsonValue → MintM Text) (out : Members) (base : Text) : MintM Members :=
  match out.get? (base ++ txt "_claims"), out.get base with
  | some claims, .str placeholder =>
    if (jwsTokens.lookup placeholder).isSome then do
      let token ← mint placeholder claims
      .ok (out.insert base (.str token))
    else .ok out
  | _, _ => .ok out

def mintSiblings (mint : Text → JsonValue → MintM Text) : Members → List Text → MintM Members
  | out, [] => .ok out
  | out, base :: rest => do
    let out ← mintSibling mint out base
    mintSiblings mint out rest

/-- The hops of a chain, and the commitment to them where it is left open. -/
def mintChain (mint : Text → JsonValue → MintM Text) (out : Members) : MintM Members :=
  if out.has (txt "chain") && out.has (txt "chain_claims") then do
    let chainClaims ← python (out.get (txt "chain_claims")).elements
    let chain ← collect (fun claims => do
      let token ← mint (txt "__JWS_DELEGATION__") claims
      .ok (JsonValue.str token)) chainClaims
    let out := out.insert (txt "chain") (.list chain)
    if (out.get (txt "chain_hash")).eq (.str (txt "__COMPUTED_CHAIN_HASH__")) then do
      let hash ← python (computeChainHash P chain)
      .ok (out.insert (txt "chain_hash") (.str hash))
    else .ok out
  else .ok out

/-- Without the members that only the minter reads. -/
def stripClaims (out : Members) : Members := out.filter fun m => !(txt "_claims").isSuffixOf m.1

/-- A claims object with its nested tokens minted and its times resolved. -/
def mintClaimsObject (now : Int) (mint : Text → JsonValue → MintM Text) (claims : JsonValue) : MintM Members := do
  match ← python (resolveTimes P now claims) with
  | .dict out => do
    let out ← mintSiblings mint out (Members.names out)
    let out ← mintChain P mint out
    .ok (stripClaims out)
  | other => .error (.python (.raised .attribute (txt "'" ++ other.typeName ++ txt "' object has no attribute 'keys'")))

/-- The key that signs a claims object, by its `iss`. -/
def signingKey (keys : KatKeys) (claims : Members) : MintM PrivateKey := do
  let iss := claims.get (txt "iss")
  python (raiseIf (!iss.hashable) (JsonValue.unhashable iss))
  match iss.isStr, keys.lookup iss.text with
  | true, some key => .ok key
  | _, _ => do .error (.minter (txt "no KAT signing key for iss " ++ (← python (P.repr iss))))

/-- The first two segments of a token under a header of the minter's own. -/
def forgedInput (typ alg : Text) (claims : Members) : PyM Text := do
  let payload ← Jcs.canonicalize (.dict claims)
  .ok (b64urlEncode (asciiOctets (txt "\x7b\"alg\":\"" ++ alg ++ txt "\",\"typ\":\"" ++ typ ++ txt "\"\x7d")) ++ txt "." ++
    b64urlEncode payload)

/-- Sign the claims object of a variant. -/
def signToken (typ : Text) (variant : TokenVariant) (claims : Members) (key : PrivateKey) : PyM Text :=
  let joseAlg := if key.alg = .ed25519 then txt "EdDSA" else txt "ES256"
  match variant with
  | .algNone => do
    let signingInput ← forgedInput typ (txt "none") claims
    .ok (signingInput ++ txt "." ++ b64urlEncode (List.replicate 64 0))
  | .wrongAlg => do
    let signingInput ← forgedInput typ (txt "ES256") claims
    let sig ← signJose key (asciiOctets signingInput)
    .ok (signingInput ++ txt "." ++ b64urlEncode sig)
  | .tamper => do tamperLastSigByte (← encodeJws typ claims key joseAlg)
  | .normal | .any => encodeJws typ claims key joseAlg

/-- Mint a token and those nested in its claims, as deep as the interpreter recurses. -/
def mintToken (keys : KatKeys) (now : Int) : Nat → Text → JsonValue → MintM Text
  | 0, _, _ => .error (.python (.raised .recursion (txt "maximum recursion depth exceeded")))
  | depth + 1, placeholder, claims =>
    match jwsTokens.lookup placeholder with
    | none => .error (.minter (txt "unknown JWS placeholder: " ++ placeholder))
    | some (typ, variant) => do
      let signingClaims ← mintClaimsObject P now (mintToken keys now depth) claims
      let key ← signingKey P keys signingClaims
      python (signToken typ variant signingClaims key)

/-! ### Documents -/

/-- Sign an envelope with its sender's key. -/
def signEnvelope (keys : KatKeys) (env : Members) : PyM Members := do
  let sender ← env.index (txt "sender")
  let agentId ← sender.item (txt "agent_id")
  let digest := P.sha256 (← envelopeSigningInput env)
  let key ← keys.item P agentId
  let sig ← envWireSig key digest
  .ok (env.insert (txt "signature") (.str sig))

/-- A signature field with its last bit flipped. A tagged one does not decode. -/
def tamperSigStr (sig : Text) : PyM Text := do
  let raw ← flipLastBit (← b64urlDecode sig)
  .ok (b64urlEncode raw)

/-- The proof of possession of a Manifest, for the two placeholders it may hold. -/
def signPossession (key : PrivateKey) (pop : JsonValue) : PyM JsonValue :=
  if !pop.truthy then .ok pop
  else do
    let signature ← pop.attrGet (txt "signature") .null
    if signature.eq (.str (txt "__VALID_POP_SIG__")) then do
      let challenge ← pop.item (txt "challenge")
      let sig ← envWireSig key (P.sha256 (← challenge.b64urlDecode))
      .ok (.dict (pop.members.insert (txt "signature") (.str sig)))
    else if signature.eq (.str (txt "__INVALID_POP_SIG__")) then do
      let sig ← envWireSig key (P.sha256 (asciiOctets (txt "aitp-invalid-pop")))
      .ok (.dict (pop.members.insert (txt "signature") (.str sig)))
    else .ok pop

/-- A Manifest with its proof of possession signed, where it has one. -/
def signManifestPossession (key : PrivateKey) (man : Members) : PyM Members :=
  match man.get? (txt "proof_of_possession") with
  | some pop => do
    let pop ← signPossession P key pop
    .ok (man.insert (txt "proof_of_possession") pop)
  | none => .ok man

/-- A Manifest signed over the rest of it, where it holds a placeholder. -/
def signManifestBody (key : PrivateKey) (man : Members) : PyM Members :=
  let signature := man.get (txt "signature")
  let tampered := signature.eq (.str (txt "__TAMPERED_SIGNATURE__"))
  if signature.eq (.str (txt "__VALID_MANIFEST_SIG__")) || tampered then do
    let sig ← envWireSig key (P.sha256 (← Jcs.canonicalize (.dict (man.without (txt "signature")))))
    let sig ← if tampered then tamperSigStr sig else .ok sig
    .ok (man.insert (txt "signature") (.str sig))
  else .ok man

/-- Sign a Manifest with the key of its `aid`. -/
def signManifest (keys : KatKeys) (man : Members) : MintM Members := do
  let aid ← python (man.index (txt "aid"))
  python (raiseIf (!aid.hashable) (JsonValue.unhashable aid))
  match aid.isStr, keys.lookup aid.text with
  | true, some key => do
    let man ← python (signManifestPossession P key man)
    python (signManifestBody P key man)
  | _, _ => do
    .error (.minter (txt "no KAT signing key for manifest aid " ++ (← python (P.toStr aid)) ++
      txt " (one-shot key not pinned in spec)"))

/-- The placeholders a snapshot's signature may hold. -/
def snapshotPlaceholders : List Text := [txt "__VALID_A_SIG__", txt "__VALID_B_SIG__", txt "__VALID_MANIFEST_SIG__"]

/-- Sign a revocation snapshot with its issuer's key, where it holds a placeholder. -/
def signRevocation (keys : KatKeys) (snapshot : Members) : PyM Members :=
  if !(snapshot.get (txt "signature")).isIn (snapshotPlaceholders.map .str) then .ok snapshot
  else do
    let body ← snapshot.index (txt "revocation_list")
    let key ← keys.item P (← body.item (txt "issuer"))
    let sig ← envWireSig key (P.sha256 (← Jcs.canonicalize body))
    .ok (snapshot.insert (txt "signature") (.str sig))

/-! ### Session bundles -/

/-- A participant with its token minted, as the wire holds it. -/
def mintParticipant (mint : Text → JsonValue → MintM Text) (p : Members) : MintM Members :=
  match p.get? (txt "tct_claims"), p.get (txt "tct") with
  | some claims, .str placeholder =>
    if (jwsTokens.lookup placeholder).isSome then do
      let token ← mint placeholder claims
      .ok (stripClaims (p.insert (txt "tct") (.str token)))
    else .ok (stripClaims p)
  | _, _ => .ok (stripClaims p)

/-- Sign a bundle's body with its coordinator's key, where it holds the placeholder. -/
def signBundle (keys : KatKeys) (body : Members) : PyM Members :=
  if (body.get (txt "signature")).eq (.str (txt "__VALID_A_SIG__")) then do
    let key ← keys.item P (← body.index (txt "coordinator"))
    let sig ← envWireSig key (P.sha256 (← Jcs.canonicalize (.dict (body.without (txt "signature")))))
    .ok (body.insert (txt "signature") (.str sig))
  else .ok body

/-- A bundle's body with its participants' tokens minted, then signed. -/
def mintBundle (keys : KatKeys) (mint : Text → JsonValue → MintM Text) (body : Members) : MintM Members := do
  let body ← match body.get? (txt "participants") with
    | some participants => do
      let entries ← python participants.elements
      let minted ← collect (fun p => match p with
        | .dict p => do .ok (JsonValue.dict (← mintParticipant mint p))
        | other => .error (.python (.raised .attribute (txt "'" ++ other.typeName ++ txt "' object has no attribute 'get'")))) entries
      .ok (body.insert (txt "participants") (.list minted))
    | none => .ok body
  python (signBundle P keys body)

end AitpVerifier
