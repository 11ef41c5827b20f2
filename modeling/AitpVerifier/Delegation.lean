import AitpVerifier.Tct

/-!
# Grant vouchers and delegation tokens

A single-hop token carries the voucher its issuer was granted. A multi-hop token
carries a chain of such tokens, oldest first; the hop loop threads the previous
hop, its scope, the identifiers seen and the root voucher.
-/
namespace AitpVerifier

open PyText Checked

/-! ### Vouchers -/

def voucherClaimFields : List Text :=
  [txt "ver", txt "iss", txt "sub", txt "grants", txt "iat", txt "exp", txt "src_jti", txt "ext"]

def voucherRequiredClaims : List Text :=
  [txt "ver", txt "iss", txt "sub", txt "grants", txt "iat", txt "exp", txt "src_jti"]

def voucherClaimTypes : List (Text × PyType) :=
  [(txt "ver", .str), (txt "iss", .str), (txt "sub", .str), (txt "grants", .list), (txt "iat", .int),
    (txt "exp", .int), (txt "src_jti", .str)]

def voucherTyp : Text := txt "aitp-grant+jwt"

def voucherErrors : JwsErrors := ⟨"TOKEN_TYP_MISMATCH", "TOKEN_ALG_MISMATCH", "DELEGATION_INVALID_VOUCHER"⟩

def invalidVoucher (message : Text) : PyErr := AitpError "DELEGATION_INVALID_VOUCHER" message

/-- No check between `typ` and `alg`. -/
def noCheck (_ : Members) : PyM Unit := .ok ()

variable (P : Platform)

def checkVoucherClaimsShape (claims : Members) (shapeCode : String) : PyM Unit := do
  requireMembers P claims voucherRequiredClaims shapeCode (txt "grant voucher claims")
  checkTypes claims voucherClaimTypes shapeCode (txt "grant voucher claims")
  raiseIf (!(claims.get (txt "grants")).items.all JsonValue.isStr)
    (AitpError shapeCode (txt "grant voucher claims.grants must be an array of strings"))
  rejectUnknownFields P (.dict claims) voucherClaimFields shapeCode (txt "grant voucher claims")

def verifyGrantVoucher (inp : Members) (now : Int) : PyM Members := do
  let token ← inp.index (txt "voucher_token")
  let peeked ← peekClaims P token "DELEGATION_INVALID_VOUCHER"
  let iss ← P.toStr (peeked.get (txt "iss"))
  let claims ← verifyJws P token iss voucherTyp voucherErrors noCheck
  checkVoucherClaimsShape P claims "DELEGATION_INVALID_VOUCHER"
  checkVer P claims
  raiseIf (!(claims.get (txt "grants")).truthy) (invalidVoucher (txt "voucher grants must be non-empty"))
  checkExp P claims now (AitpError "DELEGATION_EXPIRED" (txt "voucher exp is in the past"))
  .ok [(txt "grants", claims.get (txt "grants"))]

/-! ### Delegation claims -/

def maxDelegationHops : Nat := 3

def multihopFeature : Text := txt "experimental-multihop-delegation"

def delegationClaimFields : List Text :=
  [txt "ver", txt "iss", txt "sub", txt "aud", txt "scope", txt "exp", txt "cnf", txt "voucher", txt "jti",
    txt "chain", txt "chain_hash", txt "ext"]

def delegationCnfFields : List Text := [txt "jkt"]

def delegationRequiredClaims : List Text :=
  [txt "ver", txt "iss", txt "sub", txt "aud", txt "scope", txt "exp", txt "cnf"]

def delegationClaimTypes : List (Text × PyType) :=
  [(txt "ver", .str), (txt "iss", .str), (txt "sub", .str), (txt "aud", .str), (txt "scope", .list),
    (txt "exp", .int), (txt "cnf", .dict), (txt "voucher", .str), (txt "jti", .str), (txt "chain", .list),
    (txt "chain_hash", .str)]

def delegationTyp : Text := txt "aitp-delegation+jwt"

def delegationErrors : JwsErrors := ⟨"TOKEN_TYP_MISMATCH", "TOKEN_ALG_MISMATCH", "DELEGATION_INVALID_SIGNATURE"⟩

def delegationInvalid (message : Text) : PyErr := AitpError "DELEGATION_INVALID_SIGNATURE" message

def delegationExpired (message : Text) : PyErr := AitpError "DELEGATION_EXPIRED" message

def checkDelegationClaimsShape (claims : Members) (shapeCode : String) : PyM Unit := do
  requireMembers P claims delegationRequiredClaims shapeCode (txt "delegation claims")
  checkTypes claims delegationClaimTypes shapeCode (txt "delegation claims")
  raiseIf (!(claims.get (txt "scope")).items.all JsonValue.isStr)
    (AitpError shapeCode (txt "delegation claims.scope must be an array of strings"))
  rejectUnknownFields P (.dict claims) delegationClaimFields shapeCode (txt "delegation claims")
  rejectUnknownFields P (claims.get (txt "cnf")) delegationCnfFields shapeCode (txt "delegation claims.cnf")

/-- `entry.encode("ascii")` of a chain entry. -/
def encodeAscii (entry : JsonValue) : PyM Bytes := do
  let text ← entry.asText (txt "encode")
  match ascii? text with
  | some octets => .ok octets
  | none => .error (.raised .unicode (txt "'ascii' codec can't encode: ordinal not in range(128)"))

/-- The digest-array commitment over the chain's tokens. -/
def computeChainHash (chain : List JsonValue) : PyM Text := do
  let digests ← collect (fun entry => do
    let octets ← encodeAscii entry
    .ok (JsonValue.str (b64urlEncode (P.sha256 octets)))) chain
  let bytes ← Jcs.canonicalize (.list digests)
  .ok (b64urlEncode (P.sha256 bytes))

/-- With a Manifest source supplied, it must designate each hop issuer's key. -/
def resolveIssuer (inp : Members) (iss : JsonValue) (now : Int) : PyM Unit :=
  match inp.get? (txt "issuer_manifests") with
  | none => .ok ()
  | some manifests => do
    let aid ← P.toStr iss
    let _ ← resolveKeyFromManifests P aid manifests now
    .ok ()

/-- A delegation token of the run, verified under its own issuer's key, with its
shape, its audience and its issuer checked. -/
def verifyHopJws (inp : Members) (token : JsonValue) (now : Int) : PyM Members := do
  let peeked ← peekClaims P token "DELEGATION_INVALID_SIGNATURE"
  resolveIssuer P inp (peeked.get (txt "iss")) now
  let iss ← P.toStr (peeked.get (txt "iss"))
  let claims ← verifyJws P token iss delegationTyp delegationErrors noCheck
  checkDelegationClaimsShape P claims "DELEGATION_INVALID_SIGNATURE"
  .ok claims

/-- `iss` differs from `sub`. -/
def checkSelfDelegation (claims : Members) : PyM Unit :=
  raiseIf ((claims.get (txt "iss")).eq (claims.get (txt "sub"))) (delegationInvalid (txt "self-delegation"))

def checkDelegationAud (claims : Members) (selfAid : Text) (message : Text) : PyM Unit :=
  raiseIf (!(claims.get (txt "aud")).eq (.str selfAid)) (AitpError "DELEGATION_AUDIENCE_MISMATCH" message)

/-- The root authority: a voucher the verifier issued and signed. -/
def verifyRootVoucher (claims : Members) (selfAid : Text) (missing : Text) : PyM Members :=
  match claims.get (txt "voucher") with
  | .str voucher => do
    let peeked ← peekClaims P (.str voucher) "DELEGATION_INVALID_VOUCHER"
    raiseIf (!(peeked.get (txt "iss")).eq (.str selfAid))
      (invalidVoucher (txt "voucher not issued by this verifier"))
    let vclaims ← verifyJws P (.str voucher) selfAid voucherTyp voucherErrors noCheck
    checkVoucherClaimsShape P vclaims "DELEGATION_INVALID_VOUCHER"
    .ok vclaims
  | _ => .error (invalidVoucher missing)

/-- The first token against the voucher: its issuer, its expiry, its scope. -/
def checkAgainstVoucher (claims vclaims : Members) (now : Int) (lacked expired exceeded : Text) : PyM Unit := do
  raiseIf (!(vclaims.get (txt "sub")).eq (claims.get (txt "iss"))) (invalidVoucher lacked)
  let vexp ← P.toInt (vclaims.get (txt "exp"))
  let exp ← P.toInt (claims.get (txt "exp"))
  raiseIf (decide (vexp ≤ now) || decide (vexp < exp)) (delegationExpired expired)
  raiseIf (!JsonValue.subset (claims.get (txt "scope")).items (vclaims.get (txt "grants")).items)
    (AitpError "DELEGATION_SCOPE_EXCEEDED" exceeded)

/-! ### Revocation -/

/-- One supplied record: its trusted body, or nothing when it may be discarded. -/
def snapshotBody (selfAid : Text) (record : JsonValue) : PyM (Option Members) :=
  match verifySnapshotTrust P (record.members.get (txt "snapshot")) with
  | .ok body => .ok (some body)
  | .error (.aitp code message retryable) =>
    match record.members.get (txt "issuer_aid") with
    | .str label =>
      if label = selfAid then .error (.aitp code message retryable) else .ok none
    | _ => .error (.aitp code message retryable)
  | .error e => .error e

/-- Every supplied snapshot that verifies, in input order. -/
def verifiedSnapshotBodies (inp : Members) (selfAid : Text) : PyM (List Members) :=
  match inp.get (txt "revocation_snapshots") with
  | .null => .ok []
  | .list records => do
    let bodies ← collect (snapshotBody P selfAid) records
    .ok (bodies.filterMap id)
  | other => .error (AitpError "REVOCATION_SNAPSHOT_INVALID"
      (txt "revocation_snapshots must be an array, got " ++ other.typeName))

def delegationAbsence (mode : FailMode) (detail : Text) : PyM Unit :=
  raiseIf (mode == .failClosed) (AitpError "DELEGATION_SOURCE_TCT_REVOKED"
    (txt "no trusted, applicable revocation snapshot for this verifier's own deny list (" ++ detail ++
      txt "); fail_closed treats unknown revocation status as revoked"))

/-- The bodies a policy leaves usable, in order. -/
def freshBodies (policy : Members) (now : Int) : List Members → PyM (List Members)
  | [] => .ok []
  | body :: rest => do
    let stale ← snapshotIsStale P body policy now
    let fresh ← freshBodies policy now rest
    .ok (if stale then fresh else body :: fresh)

/-- The root voucher's source token against the verifier's own deny list. -/
def checkSourceTctRevocation (inp : Members) (bodies : List Members) (selfAid : Text) (srcJti : JsonValue)
    (now : Int) : PyM Unit := do
  let own := bodies.filter (fun body => (body.get (txt "issuer")).eq (.str selfAid))
  let applicable ← freshBodies P (policyOf inp) now own
  if applicable.isEmpty then
    delegationAbsence (policyFailMode inp)
      (if own.isEmpty then txt "no trusted snapshot signed by this verifier was supplied"
        else txt "every snapshot signed by this verifier is expired or stale")
  else
    raiseIf (applicable.any (fun body => lists body srcJti))
      (AitpError "DELEGATION_SOURCE_TCT_REVOKED" (txt "source TCT revoked"))

/-! ### The single hop -/

def verifySingleHop (inp : Members) (token : JsonValue) (selfAid : Text) (now : Int) : PyM JsonValue := do
  let claims ← verifyHopJws P inp token now
  checkSelfDelegation claims
  checkDelegationAud claims selfAid (txt "delegation aud is not this verifier")
  checkExp P claims now (delegationExpired (txt "delegation exp in the past"))
  let vclaims ← verifyRootVoucher P claims selfAid (txt "single-hop delegation must carry a voucher")
  checkAgainstVoucher P claims vclaims now (txt "voucher.sub != delegator (delegator lacked the grant)")
    (txt "voucher expired or delegation outlives voucher") (txt "scope exceeds the voucher grants")
  let bodies ← verifiedSnapshotBodies P inp selfAid
  checkSourceTctRevocation P inp bodies selfAid (vclaims.get (txt "src_jti")) now
  .ok (claims.get (txt "scope"))

/-! ### The hop loop -/

/-- What the loop carries from hop to hop; `prev` is absent before the root hop. -/
structure ChainState where
  prev : Option Members
  prevScope : List JsonValue
  seenJti : List JsonValue
  rootVoucher : Members

def ChainState.start : ChainState := ⟨none, [], [], []⟩

/-- A hop's own checks: token, version, parties, key binding, identifier, expiry. -/
def verifyHop (inp : Members) (hop : JsonValue) (selfAid : Text) (seenJti : List JsonValue) (now : Int) :
    PyM Members := do
  let hc ← verifyHopJws P inp hop now
  raiseIf (!(hc.get (txt "ver")).eq (.str protocolVersion)) (AitpError "UNKNOWN_VERSION" (txt "unknown ver"))
  checkSelfDelegation hc
  checkDelegationAud hc selfAid (txt "hop aud is not this verifier")
  let sub ← onValueError (parseAid P (hc.get (txt "sub")).text) "DELEGATION_INVALID_VOUCHER"
    (txt "hop claims.sub is not a valid AID: " ++ ·)
  checkCnf P hc sub (invalidVoucher (txt "hop cnf.jkt does not bind sub key"))
  let jti := hc.get (txt "jti")
  raiseIf (!jti.truthy || jti.isIn seenJti) (invalidVoucher (txt "hop jti missing or not unique"))
  checkExp P hc now (delegationExpired (txt "hop expired"))
  .ok hc

/-- A later hop against its predecessor: continuity, expiry, scope. -/
def checkAgainstPrevious (hc prev : Members) (prevScope : List JsonValue) : PyM Unit := do
  raiseIf (hc.has (txt "voucher")) (invalidVoucher (txt "only the root hop may carry a voucher"))
  raiseIf (!(hc.get (txt "iss")).eq (prev.get (txt "sub")))
    (invalidVoucher (txt "hop iss != previous hop sub (broken continuity)"))
  let exp ← P.toInt (hc.get (txt "exp"))
  let prevExp ← P.toInt (prev.get (txt "exp"))
  raiseIf (decide (prevExp < exp)) (delegationExpired (txt "hop outlives its predecessor"))
  raiseIf (!JsonValue.subset (hc.get (txt "scope")).items prevScope)
    (AitpError "DELEGATION_SCOPE_EXCEEDED" (txt "hop scope exceeds its predecessor"))

/-- The authority a hop acts under: the voucher it carries at the root, and what its
predecessor had after that. The result is the run's root voucher. -/
def hopAuthority (state : ChainState) (hc : Members) (selfAid : Text) (now : Int) : PyM Members :=
  match state.prev with
  | none => do
    let vclaims ← verifyRootVoucher P hc selfAid (txt "root hop must carry a voucher")
    checkAgainstVoucher P hc vclaims now (txt "voucher.sub != root delegator")
      (txt "voucher expired or hop outlives voucher") (txt "root scope exceeds voucher grants")
    .ok vclaims
  | some prev => do
    checkAgainstPrevious P hc prev state.prevScope
    .ok state.rootVoucher

/-- One iteration of the hop loop. -/
def stepHop (inp : Members) (selfAid : Text) (now : Int) (state : ChainState) (hop : JsonValue) : PyM ChainState := do
  let hc ← verifyHop P inp hop selfAid state.seenJti now
  let rootVoucher ← hopAuthority P state hc selfAid now
  .ok ⟨some hc, (hc.get (txt "scope")).items, hc.get (txt "jti") :: state.seenJti, rootVoucher⟩

def runHops (inp : Members) (selfAid : Text) (now : Int) : ChainState → List JsonValue → PyM ChainState
  | state, [] => .ok state
  | state, hop :: rest => do
    let state ← stepHop P inp selfAid now state hop
    runHops inp selfAid now state rest

/-! ### The multi-hop token -/

/-- One hop of the revocation sweep, over the fresh trusted bodies. -/
def sweepHop (mode : FailMode) (fresh : List Members) (hop : JsonValue) : PyM Unit := do
  let hc ← peekClaims P hop "DELEGATION_INVALID_SIGNATURE"
  let iss ← P.toStr (hc.get (txt "iss"))
  let own := fresh.filter (fun body => (body.get (txt "issuer")).eq (.str iss))
  raiseIf (own.any (fun body => lists body (hc.get (txt "jti"))))
    (AitpError "DELEGATION_SOURCE_TCT_REVOKED" (txt "a hop jti is revoked"))
  raiseIf (own.isEmpty && mode == .failClosed) (AitpError "DELEGATION_SOURCE_TCT_REVOKED"
    (txt "no fresh, trusted revocation snapshot for a hop issuer; " ++
      txt "fail_closed treats unknown revocation status as revoked"))

/-- The chain member and its commitment, before any per-hop work: the hops,
oldest first, the outer token last. -/
def chainHops (outer : Members) (token : JsonValue) : PyM (List JsonValue) := do
  let chain := outer.get (txt "chain")
  let length ← chain.length
  raiseIf (decide (maxDelegationHops + 1 < length + 2))
    (AitpError "DELEGATION_HOP_LIMIT_EXCEEDED" (txt "delegation chain too long"))
  let entries ← chain.elements
  let hash ← computeChainHash P entries
  raiseIf (!(outer.get (txt "chain_hash")).eq (.str hash)) (AitpError "DELEGATION_CHAIN_HASH_MISMATCH"
    (txt "chain_hash != recomputed digest-array commitment"))
  match chain with
  | .list chain => .ok (chain ++ [token])
  | .str _ => .error (.raised .type (txt "can only concatenate str (not \"list\") to str"))
  | _ => .error (.raised .type (txt "unsupported operand type(s) for +: '" ++ chain.typeName ++ txt "' and 'list'"))

def verifyMultihop (inp : Members) (token : JsonValue) (outer : Members) (selfAid : Text) (now : Int) :
    PyM JsonValue := do
  let hops ← chainHops P outer token
  let final ← runHops P inp selfAid now ChainState.start hops
  let bodies ← verifiedSnapshotBodies P inp selfAid
  checkSourceTctRevocation P inp bodies selfAid (final.rootVoucher.get (txt "src_jti")) now
  let fresh ← freshBodies P (policyOf inp) now bodies
  forEach (sweepHop P (policyFailMode inp) fresh) hops
  match final.prev with
  | some last => .ok (last.get (txt "scope"))
  | none => .error (.raised .assertion [])

/-- The retired object-shaped token is only ever rejected. -/
def rejectV01ObjectToken (token : Members) : PyM Unit := do
  raiseIf (token.get (txt "chain")).truthy
    (AitpError "DELEGATION_MULTIHOP_NOT_SUPPORTED" (txt "v0.1 object token with a non-empty chain"))
  .error (delegationInvalid (txt "v0.1 object-shaped delegation token is not a compact JWS"))

/-- The compact token, or the error its absence is reported by. -/
def checkTokenPresent (inp : Members) (token : JsonValue) : PyM Unit :=
  let object := inp.get (txt "delegation")
  if token.isNull && object.isDict then rejectV01ObjectToken object.members
  else raiseIf (!token.isStr) (delegationInvalid (txt "delegation_token is absent or not a compact JWS string"))

/-- The two paths, told apart by the mere presence of `chain`. -/
def delegationGrants (inp : Members) (token : JsonValue) (outer : Members) (selfAid : Text) (now : Int) :
    PyM JsonValue :=
  if outer.has (txt "chain") then verifyMultihop P inp token outer selfAid now
  else verifySingleHop P inp token selfAid now

def verifyDelegationToken (inp : Members) (now : Int) : PyM Members := do
  let token := inp.get (txt "delegation_token")
  checkTokenPresent inp token
  let outer ← peekClaims P token "DELEGATION_INVALID_SIGNATURE"
  raiseIf (outer.has (txt "chain") && !(inp.get (txt "_feature")).eq (.str multihopFeature))
    (AitpError "DELEGATION_MULTIHOP_NOT_SUPPORTED" (txt "chain claim requires RFC-AITP-0011 opt-in"))
  match inp.get (txt "self_aid") with
  | .str selfAid => do
    let grants ← delegationGrants P inp token outer selfAid now
    .ok [(txt "grants", grants)]
  | _ => .error (AitpError "DELEGATION_AUDIENCE_MISMATCH"
      (txt "no verifier AID to match the delegation aud against"))

/-! ### What acceptance establishes -/

/-- The structural rules of a voucher's claims. -/
structure VoucherShape (claims : Members) : Prop where
  shaped : Shaped claims voucherRequiredClaims voucherClaimTypes
  grants : (claims.get (txt "grants")).items.all JsonValue.isStr
  known : ∀ key ∈ claims.names, key ∈ voucherClaimFields

theorem checkVoucherClaimsShape_eq_ok {claims : Members} {shapeCode : String} :
    checkVoucherClaimsShape P claims shapeCode = .ok () ↔ VoucherShape claims := by
  simp only [checkVoucherClaimsShape, bind_eq_ok, exists_unit, raiseIf_eq_ok, requireMembers_eq_ok, checkTypes_eq_ok,
    rejectUnknownFields_eq_ok, JsonValue.dict.injEq, exists_eq_left', Bool.not_eq_false']
  constructor
  · rintro ⟨hr, ht, hg, hk⟩
    exact ⟨⟨hr, ht⟩, hg, hk⟩
  · rintro ⟨⟨hr, ht⟩, hg, hk⟩
    exact ⟨hr, ht, hg, hk⟩

theorem VoucherShape.iss {claims : Members} (h : VoucherShape claims) : ∃ s, claims.get (txt "iss") = .str s :=
  h.shaped.str (by simp [voucherRequiredClaims]) (by simp [voucherClaimTypes])

theorem VoucherShape.srcJti {claims : Members} (h : VoucherShape claims) : ∃ s, claims.get (txt "src_jti") = .str s :=
  h.shaped.str (by simp [voucherRequiredClaims]) (by simp [voucherClaimTypes])

theorem VoucherShape.toInt_exp {claims : Members} (h : VoucherShape claims) :
    P.toInt (claims.get (txt "exp")) = .ok (claims.get (txt "exp")).intValue :=
  toInt_of_admits P (h.shaped.admits (by simp [voucherRequiredClaims]) (by simp [voucherClaimTypes]))

/-- The structural rules of a delegation token's claims. -/
structure DelegationShape (claims : Members) : Prop where
  shaped : Shaped claims delegationRequiredClaims delegationClaimTypes
  scope : (claims.get (txt "scope")).items.all JsonValue.isStr
  known : ∀ key ∈ claims.names, key ∈ delegationClaimFields
  cnfKnown : ∀ key ∈ (claims.get (txt "cnf")).members.names, key ∈ delegationCnfFields

theorem checkDelegationClaimsShape_eq_ok {claims : Members} {shapeCode : String} :
    checkDelegationClaimsShape P claims shapeCode = .ok () ↔ DelegationShape claims := by
  simp only [checkDelegationClaimsShape, bind_eq_ok, exists_unit, raiseIf_eq_ok, requireMembers_eq_ok,
    checkTypes_eq_ok, rejectUnknownFields_eq_ok, JsonValue.dict.injEq, exists_eq_left', Bool.not_eq_false']
  constructor
  · rintro ⟨hr, ht, hs, hk, cnf, hc, hck⟩
    exact ⟨⟨hr, ht⟩, hs, hk, by simpa only [hc, JsonValue.members] using hck⟩
  · rintro ⟨⟨hr, ht⟩, hs, hk, hck⟩
    obtain ⟨cnf, hc⟩ := Shaped.dict ⟨hr, ht⟩ (k := txt "cnf") (by simp [delegationRequiredClaims])
      (by simp [delegationClaimTypes])
    exact ⟨hr, ht, hs, hk, cnf, hc, by simpa only [hc, JsonValue.members] using hck⟩

namespace DelegationShape

variable {claims : Members} (h : DelegationShape claims)

include h

theorem iss : ∃ s, claims.get (txt "iss") = .str s :=
  h.shaped.str (by simp [delegationRequiredClaims]) (by simp [delegationClaimTypes])

theorem sub : ∃ s, claims.get (txt "sub") = .str s :=
  h.shaped.str (by simp [delegationRequiredClaims]) (by simp [delegationClaimTypes])

theorem toInt_exp : P.toInt (claims.get (txt "exp")) = .ok (claims.get (txt "exp")).intValue :=
  toInt_of_admits P (h.shaped.admits (by simp [delegationRequiredClaims]) (by simp [delegationClaimTypes]))

/-- The identifier, when there is one, is a string. -/
theorem jti (hj : (claims.get (txt "jti")).truthy) : ∃ s, claims.get (txt "jti") = .str s := by
  cases hg : claims.get? (txt "jti") with
  | none => simp [Members.get, hg, JsonValue.truthy] at hj
  | some value =>
    have hv := h.shaped.typed (txt "jti", .str) (by simp [delegationClaimTypes]) value hg
    rw [Members.get_of_get? hg]
    cases value <;> simp_all [JsonValue.admits, JsonValue.isInstance, JsonValue.isBool]

end DelegationShape

/-- A delegation token verified under its own issuer's key. -/
structure HopToken (token : JsonValue) (claims : Members) : Prop where
  signed : IssuedToken P token delegationTyp claims
  shape : DelegationShape claims

theorem verifyHopJws_eq_ok {inp : Members} {token : JsonValue} {now : Int} {claims : Members} :
    verifyHopJws P inp token now = .ok claims ↔
      HopToken P token claims ∧ resolveIssuer P inp (claims.get (txt "iss")) now = .ok () := by
  simp only [verifyHopJws, bind_eq_ok, exists_unit, peekClaims_eq_ok, verifyJws_eq_ok, noCheck,
    checkDelegationClaimsShape_eq_ok, and_true, Except.ok.injEq]
  constructor
  · rintro ⟨peeked, hp, hr, iss, hs, c, hc, hd, rfl⟩
    obtain rfl := hc.claims_unique P hp
    exact ⟨⟨(issuedToken_iff P hd.iss).mpr ⟨_, hp, iss, hs, hc⟩, hd⟩, hr⟩
  · rintro ⟨⟨⟨iss, hi, hc⟩, hd⟩, hr⟩
    exact ⟨claims, hc.parses, hr, iss, by simp [hi, Interpreter.toStr], claims, hc, hd, rfl⟩

/-- A voucher the verifier issued and signed, carried by `claims`. -/
structure RootVoucher (claims : Members) (selfAid : Text) (vclaims : Members) : Prop where
  carried : ∃ voucher, claims.get (txt "voucher") = .str voucher ∧
    SignedToken P (.str voucher) selfAid voucherTyp vclaims
  iss : vclaims.get (txt "iss") = .str selfAid
  shape : VoucherShape vclaims

theorem verifyRootVoucher_eq_ok {claims : Members} {selfAid missing : Text} {vclaims : Members} :
    verifyRootVoucher P claims selfAid missing = .ok vclaims ↔ RootVoucher P claims selfAid vclaims := by
  unfold verifyRootVoucher
  cases hv : claims.get (txt "voucher") with
  | str voucher =>
    simp only [bind_eq_ok, exists_unit, raiseIf_eq_ok, peekClaims_eq_ok, verifyJws_eq_ok, noCheck,
      checkVoucherClaimsShape_eq_ok, and_true, Except.ok.injEq, Bool.not_eq_false', JsonValue.eq_str]
    constructor
    · rintro ⟨peeked, hp, hi, c, hc, hs, rfl⟩
      obtain rfl := hc.claims_unique P hp
      exact ⟨⟨voucher, hv, hc⟩, hi, hs⟩
    · rintro ⟨⟨v, hv', hc⟩, hi, hs⟩
      obtain rfl : v = voucher := by simpa [hv] using hv'.symm
      exact ⟨vclaims, hc.parses, hi, vclaims, hc, hs, rfl⟩
  | _ =>
    simp only [reduceCtorEq, false_iff]
    rintro ⟨⟨v, hv', _⟩, _, _⟩
    rw [hv] at hv'
    cases hv'

/-- A first token within its voucher. -/
structure WithinVoucher (claims vclaims : Members) (now : Int) : Prop where
  granted : vclaims.get (txt "sub") = claims.get (txt "iss")
  live : now < (vclaims.get (txt "exp")).intValue
  exp : (claims.get (txt "exp")).intValue ≤ (vclaims.get (txt "exp")).intValue
  scope : (claims.get (txt "scope")).items ⊆ (vclaims.get (txt "grants")).items

theorem checkAgainstVoucher_eq_ok {claims vclaims : Members} {now : Int} {lacked expired exceeded : Text}
    (hc : DelegationShape claims) (hv : VoucherShape vclaims) :
    checkAgainstVoucher P claims vclaims now lacked expired exceeded = .ok () ↔ WithinVoucher claims vclaims now := by
  obtain ⟨iss, hi⟩ := hc.iss
  simp only [checkAgainstVoucher, bind_eq_ok, exists_unit, raiseIf_eq_ok, hi, hc.toInt_exp, hv.toInt_exp,
    Except.ok.injEq, exists_eq_left', Bool.not_eq_false', JsonValue.eq_str, Bool.or_eq_false_iff,
    decide_eq_false_iff_not, not_le, not_lt, JsonValue.subset_iff hc.scope]
  constructor
  · rintro ⟨hs, ⟨hl, he⟩, hg⟩
    exact ⟨by rw [hi, hs], hl, he, hg⟩
  · rintro ⟨hs, hl, he, hg⟩
    exact ⟨by rw [hs, hi], ⟨hl, he⟩, hg⟩

/-- What every delegation token of a run satisfies, on either path. -/
structure HopClaims (selfAid : Text) (claims : Members) (now : Int) : Prop where
  notSelf : claims.get (txt "iss") ≠ claims.get (txt "sub")
  aud : claims.get (txt "aud") = .str selfAid
  live : now < (claims.get (txt "exp")).intValue

theorem checkSelfDelegation_eq_ok {claims : Members} (hc : DelegationShape claims) :
    checkSelfDelegation claims = .ok () ↔ claims.get (txt "iss") ≠ claims.get (txt "sub") := by
  obtain ⟨sub, hs⟩ := hc.sub
  rw [checkSelfDelegation, raiseIf_eq_ok, hs, ← Bool.not_eq_true, JsonValue.eq_str]

theorem checkDelegationAud_eq_ok {claims : Members} {selfAid message : Text} :
    checkDelegationAud claims selfAid message = .ok () ↔ claims.get (txt "aud") = .str selfAid := by
  simp [checkDelegationAud, raiseIf_eq_ok]

end AitpVerifier
