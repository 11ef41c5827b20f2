import AitpVerifier.Delegation

/-!
# Session Trust Bundles

A coordinator signs a set of participants, each with a token it issued to them.
Shape, version, expiry and the expiry window come before the signature; the
tokens are verified after it.
-/
namespace AitpVerifier

open PyText Checked

def bundleBodyFields : List Text :=
  [txt "version", txt "session_id", txt "coordinator", txt "issued_at", txt "expires_at", txt "participants",
    txt "extensions", txt "signature"]

def participantFields : List Text := [txt "aid", txt "tct"]

def requiredBundleBodyFields : List Text :=
  [txt "version", txt "session_id", txt "coordinator", txt "issued_at", txt "expires_at", txt "participants",
    txt "signature"]

def bundleBodyTypes : List (Text × PyType) :=
  [(txt "version", .str), (txt "session_id", .str), (txt "coordinator", .str), (txt "issued_at", .int),
    (txt "expires_at", .int), (txt "participants", .list), (txt "extensions", .dict), (txt "signature", .str)]

def requiredParticipantFields : List Text := [txt "aid", txt "tct"]

def participantTypes : List (Text × PyType) := [(txt "aid", .str), (txt "tct", .str)]

def bundleInvalid (message : Text) : PyErr := AitpError "SESSION_BUNDLE_INVALID" message

def participantTctInvalid (message : Text) : PyErr := AitpError "BUNDLE_PARTICIPANT_TCT_INVALID" message

def bundleErrors : JwsErrors :=
  ⟨"BUNDLE_PARTICIPANT_TCT_INVALID", "BUNDLE_PARTICIPANT_TCT_INVALID", "BUNDLE_PARTICIPANT_TCT_INVALID"⟩

/-- An unknown claim of an embedded token is a token-level failure of the bundle. -/
def remapUnknownField {α : Type} (x : PyM α) : PyM α :=
  rescue x (fun
    | .aitp code message _ => if code = "UNKNOWN_FIELD" then some (participantTctInvalid message) else none
    | .raised .. => none)

variable (P : Platform)

/-- The transport wrapper holds `session_bundle` and nothing else. -/
def unwrapBundle (outer : JsonValue) : PyM JsonValue :=
  match outer with
  | .dict wrapper => do
    raiseIf (!Members.has wrapper (txt "session_bundle"))
      (bundleInvalid (txt "transport wrapper has no session_bundle member"))
    let extra := (Members.names wrapper).filter (fun k => k != txt "session_bundle")
    raiseIf (!extra.isEmpty) (bundleInvalid (txt "transport wrapper carries non-wrapper member(s) [" ++
      joinWith (txt ", ") (sortTexts (extra.map P.reprStr)) ++ txt "]"))
    .ok (Members.get wrapper (txt "session_bundle"))
  | _ => .error (bundleInvalid (txt "transport wrapper is " ++ outer.typeName ++ txt ", not an object"))

def checkParticipantShape (p : JsonValue) : PyM Unit :=
  match p with
  | .dict members => do
    requireMembers P members requiredParticipantFields "SESSION_BUNDLE_INVALID" (txt "participant entry")
    checkTypes members participantTypes "SESSION_BUNDLE_INVALID" (txt "participant entry")
    rejectUnknownFields P p participantFields "SESSION_BUNDLE_INVALID" (txt "participant entry")
  | _ => .error (bundleInvalid (txt "participant entry is " ++ p.typeName ++ txt ", not an object"))

/-- The body and its participants, before any semantic check. -/
def checkBundleShape (value : JsonValue) : PyM Members :=
  match value with
  | .dict body => do
    requireMembers P body requiredBundleBodyFields "SESSION_BUNDLE_INVALID" (txt "session bundle body")
    checkTypes body bundleBodyTypes "SESSION_BUNDLE_INVALID" (txt "session bundle body")
    rejectUnknownFields P value bundleBodyFields "SESSION_BUNDLE_INVALID" (txt "session bundle body")
    forEach (checkParticipantShape P) (Members.get body (txt "participants")).items
    .ok body
  | _ => .error (bundleInvalid (txt "session bundle body is " ++ value.typeName ++ txt ", not an object"))

/-- A participant's declared expiry, read before its signature is verified. -/
def peekExp (p : Members) : PyM Int := do
  let claims ← peekClaims P (p.get (txt "tct")) "BUNDLE_PARTICIPANT_TCT_INVALID"
  remapUnknownField (checkTctClaimsShape P claims "BUNDLE_PARTICIPANT_TCT_INVALID")
  P.toInt (claims.get (txt "exp"))

/-- The first pass over the participants: the bundle expires with the earliest token. -/
def checkExpiryWindow (body : Members) (participants : List Members) : PyM Unit := do
  let tctExps ← collect (peekExp P) participants
  let expiresAt ← P.toInt (body.get (txt "expires_at"))
  raiseIf (some expiresAt != tctExps.min?)
    (AitpError "BUNDLE_EXPIRY_WINDOW_INVARIANT" (txt "expires_at != min participant TCT exp"))

/-- The coordinator's signature over the body, under the key its Manifest designates. -/
def verifyBundleSignature (body : Members) (coord : Aid) : PyM Unit := do
  let raw ← decodeTaggedSignature P (body.get (txt "signature")) coord "BUNDLE_INVALID_SIGNATURE"
  let bytes ← canonicalBytes (.dict (body.without (txt "signature"))) "SESSION_BUNDLE_INVALID" (txt "session bundle body")
  raiseIf (!verifyDigest P coord.publicKey (P.sha256 bytes) raw)
    (AitpError "BUNDLE_INVALID_SIGNATURE" (txt "coordinator signature invalid"))

/-- The second pass, one participant: the token, the Manifest cap, issuer, audience. -/
def verifyParticipant (coordinator : JsonValue) (coordManifest : Members) (p : Members) : PyM Unit := do
  let peeked ← peekClaims P (p.get (txt "tct")) "BUNDLE_PARTICIPANT_TCT_INVALID"
  let iss ← P.toStr (peeked.get (txt "iss"))
  let claims ← remapUnknownField (verifyJws P (p.get (txt "tct")) iss tctTyp bundleErrors
    (fun c => checkTctClaimsShape P c "BUNDLE_PARTICIPANT_TCT_INVALID"))
  let outlives ← outlivesManifest P claims (.dict coordManifest)
  raiseIf outlives (participantTctInvalid (txt "participant TCT outlives the coordinator Manifest"))
  raiseIf (!(claims.get (txt "iss")).eq coordinator)
    (AitpError "BUNDLE_COORDINATOR_ISSUER_MISMATCH" (txt "participant TCT iss != coordinator"))
  raiseIf (!(claims.get (txt "aud")).eq (p.get (txt "aid")))
    (AitpError "BUNDLE_AUDIENCE_MISMATCH" (txt "participant TCT aud != participant AID"))

def participantsOf (body : Members) : List Members := (body.get (txt "participants")).items.map JsonValue.members

/-- Version, expiry and the window, ahead of any key. -/
def checkBundleTimes (body : Members) (now : Int) : PyM Unit := do
  raiseWith (!(body.get (txt "version")).eq (.str protocolVersion)) (do
    .ok (AitpError "BUNDLE_VERSION_MISMATCH" (txt "unknown bundle version " ++ (← P.repr (body.get (txt "version"))))))
  let expiresAt ← P.toInt (body.get (txt "expires_at"))
  raiseIf (decide (expiresAt ≤ now)) (AitpError "BUNDLE_EXPIRED" (txt "session bundle expired"))
  raiseIf (participantsOf body).isEmpty
    (AitpError "BUNDLE_EMPTY_PARTICIPANTS" (txt "session bundle has no participants"))
  checkExpiryWindow P body (participantsOf body)

def verifySessionBundle (inp : Members) (now : Option Int) : PyM Members := do
  let now ← clockOf P inp now
  let selfAid ← inp.index (txt "self_aid")
  let outer ← inp.index (txt "session_bundle")
  let body ← checkBundleShape P (← unwrapBundle P outer)
  checkBundleTimes P body now
  let coordinator := body.get (txt "coordinator")
  let _ ← onValueError (parseAid P coordinator.text) "SESSION_BUNDLE_INVALID"
    (txt "session bundle coordinator is not a valid AID: " ++ ·)
  let (coord, coordManifest) ← resolveManifest P coordinator.text (inp.get (txt "coordinator_manifest")) now
  verifyBundleSignature P body coord
  forEach (verifyParticipant P coordinator coordManifest) (participantsOf body)
  raiseIf (!selfAid.hashable) (JsonValue.unhashable selfAid)
  raiseIf (!selfAid.isIn ((participantsOf body).map (fun p => p.get (txt "aid"))))
    (AitpError "BUNDLE_NOT_MEMBER" (txt "verifier AID is not a bundle participant"))
  .ok okResult

/-! ### What acceptance establishes -/

theorem remapUnknownField_eq_ok {α : Type} {x : PyM α} {a : α} : remapUnknownField x = .ok a ↔ x = .ok a :=
  rescue_eq_ok

/-- What the two passes establish of one participant. -/
structure ParticipantAccepted (coordinator : JsonValue) (man p : Members) (now : Int) (claims : Members) : Prop where
  signed : IssuedToken P (p.get (txt "tct")) tctTyp claims
  shape : TctShape claims
  live : now < (claims.get (txt "exp")).intValue
  withinManifest : outlivesManifest P claims (.dict man) = .ok false
  issuer : claims.get (txt "iss") = coordinator
  aud : claims.get (txt "aud") = p.get (txt "aid")

/-- An accepted bundle: its body, the coordinator's Manifest, its participants. -/
structure BundleAccepted (inp : Members) (now : Int) (body man : Members) : Prop where
  wrapped : ∃ wrapper, inp.get? (txt "session_bundle") = some (.dict wrapper) ∧
    Members.get wrapper (txt "session_bundle") = .dict body
  version : body.get (txt "version") = .str protocolVersion
  manifest : (manifestCandidates (inp.get (txt "coordinator_manifest"))).find?
    (namesAid (body.get (txt "coordinator")).text) = some (.dict man)
  manifestVerified : ∃ r, verifyManifest P [(txt "manifest", .dict man), (txt "now", .int now)] now = .ok r
  participants : ∀ p ∈ participantsOf body, ∃ claims,
    ParticipantAccepted P (body.get (txt "coordinator")) man p now claims

theorem unwrapBundle_eq_ok {outer value : JsonValue} (h : unwrapBundle P outer = .ok value) :
    ∃ wrapper, outer = .dict wrapper ∧ Members.get wrapper (txt "session_bundle") = value := by
  cases outer with
  | dict wrapper =>
    simp only [unwrapBundle, bind_eq_ok, exists_unit, Except.ok.injEq] at h
    exact ⟨wrapper, rfl, h.2.2⟩
  | _ => simp [unwrapBundle] at h

theorem checkParticipantShape_eq_ok {p : JsonValue} (h : checkParticipantShape P p = .ok ()) :
    ∃ members, p = .dict members ∧ Shaped members requiredParticipantFields participantTypes := by
  cases p with
  | dict members =>
    simp only [checkParticipantShape, bind_eq_ok, exists_unit, requireMembers_eq_ok, checkTypes_eq_ok] at h
    exact ⟨members, rfl, h.1, h.2.1⟩
  | _ => simp [checkParticipantShape] at h

theorem checkBundleShape_eq_ok {value : JsonValue} {body : Members} (h : checkBundleShape P value = .ok body) :
    value = .dict body ∧ Shaped body requiredBundleBodyFields bundleBodyTypes ∧
      ∀ p ∈ participantsOf body, Shaped p requiredParticipantFields participantTypes := by
  cases value with
  | dict obj =>
    simp only [checkBundleShape, bind_eq_ok, exists_unit, requireMembers_eq_ok, checkTypes_eq_ok, forEach_eq_ok,
      Except.ok.injEq] at h
    obtain ⟨hr, ht, _, hp, rfl⟩ := h
    refine ⟨rfl, ⟨hr, ht⟩, fun p hm => ?_⟩
    obtain ⟨entry, hentry, rfl⟩ := List.mem_map.mp hm
    obtain ⟨members, rfl, hs⟩ := checkParticipantShape_eq_ok P (hp entry hentry)
    exact hs
  | _ => simp [checkBundleShape] at h

/-- The bundle expires with its earliest token, so no token expires before it. -/
theorem checkExpiryWindow_le {body : Members} {participants : List Members} {expiresAt : Int}
    (h : checkExpiryWindow P body participants = .ok ()) (he : P.toInt (body.get (txt "expires_at")) = .ok expiresAt)
    {p : Members} (hp : p ∈ participants) : ∃ exp, peekExp P p = .ok exp ∧ expiresAt ≤ exp := by
  simp only [checkExpiryWindow, bind_eq_ok, he, Except.ok.injEq, exists_eq_left', raiseIf_eq_ok,
    bne_eq_false_iff_eq] at h
  obtain ⟨exps, hexps, hmin⟩ := h
  obtain ⟨exp, hexp, hpeek⟩ := exists_mem_of_collect hexps hp
  exact ⟨exp, hpeek, (List.min?_eq_some_iff.mp hmin.symm).2 exp hexp⟩

theorem verifyParticipant_eq_ok {coordinator : JsonValue} {man p : Members} {now : Int} {expiresAt : Int}
    (hp : Shaped p requiredParticipantFields participantTypes) (hc : ∃ s, coordinator = .str s)
    (hexp : ∃ exp, peekExp P p = .ok exp ∧ expiresAt ≤ exp) (hnow : now < expiresAt)
    (h : verifyParticipant P coordinator man p = .ok ()) :
    ∃ claims, ParticipantAccepted P coordinator man p now claims := by
  obtain ⟨c, rfl⟩ := hc
  obtain ⟨aid, ha⟩ := hp.str (k := txt "aid") (by simp [requiredParticipantFields]) (by simp [participantTypes])
  simp only [verifyParticipant, bind_eq_ok, exists_unit, peekClaims_eq_ok, remapUnknownField_eq_ok, verifyJws_eq_ok,
    checkTctClaimsShape_eq_ok, raiseIf_eq_ok, Bool.not_eq_false', ha, JsonValue.eq_str] at h
  obtain ⟨peeked, hpeek, iss, hs, claims, ⟨hsigned, hshape⟩, outlives, ho, rfl, hi, haud⟩ := h
  refine ⟨claims, (issuedToken_iff P hshape.iss).mpr ⟨peeked, hpeek, iss, hs, hsigned⟩, hshape, ?_, ho, hi,
    by rw [haud, ha]⟩
  -- the expiry peeked before the signature is the verified token's own
  obtain ⟨exp, he, hle⟩ := hexp
  simp only [peekExp, bind_eq_ok, exists_unit, peekClaims_eq_ok, remapUnknownField_eq_ok,
    checkTctClaimsShape_eq_ok] at he
  obtain ⟨early, hearly, _, he⟩ := he
  obtain rfl := hsigned.claims_unique P hearly
  rw [hshape.toInt_exp, Except.ok.injEq] at he
  omega

/-- An accepting run, step by step. -/
structure BundleRun (inp : Members) (now : Int) (body man : Members) (coord : Aid) : Prop where
  wrapped : ∃ wrapper, inp.get? (txt "session_bundle") = some (.dict wrapper) ∧
    unwrapBundle P (.dict wrapper) = .ok (.dict body)
  shape : checkBundleShape P (.dict body) = .ok body
  times : checkBundleTimes P body now = .ok ()
  resolved : resolveManifest P (body.get (txt "coordinator")).text (inp.get (txt "coordinator_manifest")) now =
    .ok (coord, man)
  signed : BodySigned P body coord
  participants : ∀ p ∈ participantsOf body, verifyParticipant P (body.get (txt "coordinator")) man p = .ok ()
  member : ∃ selfAid, inp.get? (txt "self_aid") = some selfAid ∧
    selfAid.isIn ((participantsOf body).map (fun p => p.get (txt "aid")))

theorem verifyBundleSignature_eq_ok {body : Members} {coord : Aid} :
    verifyBundleSignature P body coord = .ok () ↔ BodySigned P body coord := by
  simp only [verifyBundleSignature, decodeTaggedSignature, bind_eq_ok, decodeTaggedSignatureFor_eq_ok,
    canonicalBytes_eq_ok, raiseIf_eq_ok, Bool.not_eq_false', BodySigned, FieldVerifies]
  constructor
  · rintro ⟨raw, hr, octets, ho, hv⟩
    exact ⟨octets, ho, raw, hr, hv⟩
  · rintro ⟨octets, ho, raw, hr, hv⟩
    exact ⟨raw, hr, octets, ho, hv⟩

theorem verifySessionBundle_run {inp : Members} {clock : Option Int} {now : Int} {r : Members}
    (hclock : clockOf P inp clock = .ok now) (h : verifySessionBundle P inp clock = .ok r) :
    ∃ body man coord, BundleRun P inp now body man coord := by
  simp only [verifySessionBundle, hclock, bind_eq_ok, exists_unit, Members.index_eq_ok, raiseIf_eq_ok, forEach_eq_ok,
    verifyBundleSignature_eq_ok, Except.ok.injEq, exists_eq_left', Bool.not_eq_false', Prod.exists] at h
  obtain ⟨selfAid, hself, outer, houter, value, hvalue, body, hbody, htimes, _, _, coord, man, hman, hsigned, hparts, _,
    hmember, _⟩ := h
  obtain ⟨wrapper, rfl, _⟩ := unwrapBundle_eq_ok P hvalue
  obtain ⟨rfl, _, _⟩ := checkBundleShape_eq_ok P hbody
  exact ⟨body, man, coord, ⟨wrapper, houter, hvalue⟩, hbody, htimes, hman, hsigned, hparts, selfAid, hself, hmember⟩

theorem checkBundleTimes_eq_ok {body : Members} {now : Int} (h : checkBundleTimes P body now = .ok ()) :
    body.get (txt "version") = .str protocolVersion ∧
      ∃ expiresAt, P.toInt (body.get (txt "expires_at")) = .ok expiresAt ∧ now < expiresAt ∧
        participantsOf body ≠ [] ∧ checkExpiryWindow P body (participantsOf body) = .ok () := by
  simp only [checkBundleTimes, bind_eq_ok, exists_unit, raiseWith_eq_ok, raiseIf_eq_ok, Bool.not_eq_false',
    JsonValue.eq_str, decide_eq_false_iff_not, not_le, List.isEmpty_eq_false_iff] at h
  exact h

namespace BundleRun

variable {inp body man : Members} {now : Int} {coord : Aid} (h : BundleRun P inp now body man coord)

include h

theorem coordinator : ∃ s, body.get (txt "coordinator") = .str s := by
  obtain ⟨_, hshape, _⟩ := checkBundleShape_eq_ok P h.shape
  exact hshape.str (by simp [requiredBundleBodyFields]) (by simp [bundleBodyTypes])

/-- The token of each participant passed both passes. -/
theorem participant {p : Members} (hp : p ∈ participantsOf body) :
    ∃ claims, ParticipantAccepted P (body.get (txt "coordinator")) man p now claims := by
  obtain ⟨_, _, hentries⟩ := checkBundleShape_eq_ok P h.shape
  obtain ⟨_, expiresAt, he, hlive, _, hwindow⟩ := checkBundleTimes_eq_ok P h.times
  exact verifyParticipant_eq_ok P (hentries p hp) (h.coordinator P) (checkExpiryWindow_le P hwindow he hp) hlive
    (h.participants p hp)

end BundleRun

theorem verifySessionBundle_accepted {inp : Members} {clock : Option Int} {now : Int} {r : Members}
    (hclock : clockOf P inp clock = .ok now) (h : verifySessionBundle P inp clock = .ok r) :
    ∃ body man, BundleAccepted P inp now body man := by
  obtain ⟨body, man, coord, hrun⟩ := verifySessionBundle_run P hclock h
  obtain ⟨wrapper, houter, hwrap⟩ := hrun.wrapped
  obtain ⟨_, heq, hbody⟩ := unwrapBundle_eq_ok P hwrap
  obtain rfl := JsonValue.dict.inj heq
  obtain ⟨hversion, _⟩ := checkBundleTimes_eq_ok P hrun.times
  obtain ⟨hfind, hverified, _⟩ := resolveManifest_eq_ok P hrun.resolved
  exact ⟨body, man, ⟨wrapper, houter, hbody⟩, hversion, hfind, hverified, fun _ hp => hrun.participant P hp⟩

end AitpVerifier
