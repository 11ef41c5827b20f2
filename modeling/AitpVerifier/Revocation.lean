import AitpVerifier.Envelope

/-!
# Revocation snapshots

Trust in a snapshot is structure, then member set, then signature. What a policy
makes of a trusted, stale, foreign or missing one comes after.
-/
namespace AitpVerifier

open PyText Checked

def snapshotFields : List Text := [txt "revocation_list", txt "signature"]

def revocationBodyFields : List Text :=
  [txt "version", txt "issuer", txt "published_at", txt "expires_at", txt "entries", txt "extensions"]

def entryFields : List Text := [txt "jti", txt "revoked_at", txt "reason"]

def revocationBodyTypes : List (Text × PyType) :=
  [(txt "version", .str), (txt "issuer", .str), (txt "published_at", .int), (txt "expires_at", .int),
    (txt "entries", .list), (txt "extensions", .dict)]

def entryTypes : List (Text × PyType) :=
  [(txt "jti", .str), (txt "revoked_at", .int), (txt "reason", .str)]

def requiredRevocationBodyFields : List Text :=
  [txt "version", txt "issuer", txt "published_at", txt "expires_at", txt "entries"]

def requiredEntryFields : List Text := [txt "jti", txt "revoked_at"]

/-- The three modes of a revocation policy. -/
inductive FailMode where
  | failClosed | failOpen | softFail
  deriving DecidableEq, Repr

/-- Anything that is not one of the three names resolves to `failClosed`. -/
def resolveFailMode (value : JsonValue) : FailMode :=
  if value.eq (.str (txt "fail_open")) then .failOpen
  else if value.eq (.str (txt "soft_fail")) then .softFail
  else .failClosed

/-- The caller's policy, or the empty default. -/
def policyOf (inp : Members) : Members :=
  match inp.get (txt "policy") with
  | .dict policy => policy
  | _ => []

/-- The mode applied to an absent snapshot. -/
def policyFailMode (inp : Members) : FailMode :=
  resolveFailMode (((policyOf inp).get? (txt "fail_mode")).getD (.str (txt "fail_closed")))

variable (P : Platform)

/-- Whether a bound that converts is exceeded; one that does not converts to stale. -/
def staleBeyond (maxStaleness : JsonValue) (age : Int) : PyM Bool :=
  match P.toInt maxStaleness with
  | .ok bound => .ok (decide (bound < age))
  | .error e =>
    if e.isKind .type || e.isValueError || e.isKind .overflow then .ok true else .error e

/-- Past its own expiry, or published longer ago than the policy allows. -/
def snapshotIsStale (body policy : Members) (now : Int) : PyM Bool := do
  let expiresAt ← P.toInt (body.get (txt "expires_at"))
  if expiresAt ≤ now then .ok true
  else match policy.get (txt "max_staleness_secs") with
    | .null => .ok false
    | maxStaleness => do
      let publishedAt ← P.toInt (body.get (txt "published_at"))
      staleBeyond P maxStaleness (now - publishedAt)

/-- One entry's structure. -/
def checkEntryShape (entry : JsonValue) (i : Nat) : PyM Unit :=
  let what := txt "revocation_list entries[" ++ decimal i ++ txt "]"
  match entry with
  | .dict members => do
    requireMembers P members requiredEntryFields "REVOCATION_SNAPSHOT_INVALID" what
    checkTypes members entryTypes "REVOCATION_SNAPSHOT_INVALID" what
  | _ => .error (AitpError "REVOCATION_SNAPSHOT_INVALID"
      (what ++ txt " is " ++ entry.typeName ++ txt ", not an object"))

/-- The body's structure, before any signature work. -/
def checkRevocationBodyShape (body : Members) : PyM Unit := do
  requireMembers P body requiredRevocationBodyFields "REVOCATION_SNAPSHOT_INVALID" (txt "revocation_list")
  checkTypes body revocationBodyTypes "REVOCATION_SNAPSHOT_INVALID" (txt "revocation_list")
  raiseWith (!(body.get (txt "version")).eq (.str protocolVersion)) (do
    .ok (AitpError "REVOCATION_SNAPSHOT_INVALID" (txt "revocation_list version is " ++
      (← P.repr (body.get (txt "version"))) ++ txt ", not " ++ P.reprStr protocolVersion)))
  forEach (fun entry => checkEntryShape P entry.1 entry.2) (body.get (txt "entries")).items.zipIdx

/-- Schema conformance of a snapshot: its wrapper and the body it carries. -/
def validateSnapshotShape (snapshot : JsonValue) : PyM (Members × Members) :=
  match snapshot with
  | .dict wrapper => do
    requireMembers P wrapper snapshotFields "REVOCATION_SNAPSHOT_INVALID" (txt "revocation snapshot")
    raiseIf (!(Members.get wrapper (txt "signature")).isStr) (AitpError "REVOCATION_SNAPSHOT_INVALID"
      (txt "revocation snapshot signature is " ++ (Members.get wrapper (txt "signature")).typeName ++
        txt ", not a string"))
    match Members.get wrapper (txt "revocation_list") with
    | .dict body => do
      checkRevocationBodyShape P body
      .ok (wrapper, body)
    | other => .error (AitpError "REVOCATION_SNAPSHOT_INVALID"
        (txt "revocation_list is " ++ other.typeName ++ txt ", not an object"))
  | _ => .error (AitpError "REVOCATION_SNAPSHOT_INVALID"
      (txt "revocation snapshot is " ++ snapshot.typeName ++ txt ", not an object"))

/-- Everything needed to trust a snapshot's contents, before any policy. -/
def verifySnapshotTrust (snapshot : JsonValue) : PyM Members := do
  let (wrapper, body) ← validateSnapshotShape P snapshot
  rejectUnknownFields P (.dict wrapper) snapshotFields "REVOCATION_SNAPSHOT_INVALID" (txt "revocation snapshot")
  rejectUnknownFields P (.dict body) revocationBodyFields "REVOCATION_SNAPSHOT_INVALID" (txt "revocation_list")
  forEach (fun entry =>
    rejectUnknownFields P entry entryFields "REVOCATION_SNAPSHOT_INVALID" (txt "revocation_list entry"))
    (body.get (txt "entries")).items
  let issuer ← onValueError (parseAid P (body.get (txt "issuer")).text) "REVOCATION_SNAPSHOT_INVALID"
    (txt "revocation_list issuer is not a valid AID: " ++ ·)
  let raw ← decodeTaggedSignature P (wrapper.get (txt "signature")) issuer "REVOCATION_SNAPSHOT_SIGNATURE_INVALID"
  let bytes ← canonicalBytes (.dict body) "REVOCATION_SNAPSHOT_INVALID" (txt "revocation_list")
  raiseIf (!verifyDigest P issuer.publicKey (P.sha256 bytes) raw)
    (AitpError "REVOCATION_SNAPSHOT_SIGNATURE_INVALID"
      (txt "snapshot signature does not verify under the issuing peer's key"))
  .ok body

/-- Whether a trusted body lists `jti`. -/
def lists (body : Members) (jti : JsonValue) : Bool :=
  (body.get (txt "entries")).items.any (fun entry => (entry.members.get (txt "jti")).eq jti)

/-- The clock a caller gives, or the input's own. -/
def clockOf (inp : Members) (now : Option Int) : PyM Int :=
  match now with
  | some now => .ok now
  | none => do P.toInt (← inp.index (txt "now"))

def verifyRevocationSnapshot (inp : Members) (now : Option Int) : PyM Members := do
  let now ← clockOf P inp now
  let body ← verifySnapshotTrust P (← inp.index (txt "snapshot"))
  let issuerOk := (body.get (txt "issuer")).eq (inp.get (txt "expected_issuer"))
  let unusable ← if issuerOk then snapshotIsStale P body (policyOf inp) now else .ok true
  if unusable then
    match policyFailMode inp with
    | .failClosed => .error (AitpError "TCT_REVOKED" (txt "no fresh valid revocation snapshot (fail_closed)"))
    | _ => .ok [(txt "revoked", .bool false), (txt "stale", .bool true)]
  else do
    let queried := inp.get (txt "queried_jti")
    raiseIf (!queried.isNull && lists body queried) (AitpError "TCT_REVOKED" (txt "queried jti is on the deny list"))
    .ok [(txt "revoked", .bool false)]

/-! ### What trust establishes -/

/-- The structural rules of a deny list. -/
structure RevocationBody (body : Members) : Prop where
  shaped : Shaped body requiredRevocationBodyFields revocationBodyTypes
  version : body.get (txt "version") = .str protocolVersion
  entries : ∀ entry ∈ (body.get (txt "entries")).items,
    ∃ members, entry = .dict members ∧ Shaped members requiredEntryFields entryTypes

/-- A snapshot whose body its own issuer signed. -/
structure TrustedSnapshot (snapshot : JsonValue) (body : Members) : Prop where
  shape : RevocationBody body
  signed : ∃ wrapper issuer bytes, snapshot = .dict wrapper ∧ Members.get wrapper (txt "revocation_list") = .dict body ∧
    parseAid P (body.get (txt "issuer")).text = .ok issuer ∧ Jcs.canonicalize (.dict body) = .ok bytes ∧
    FieldVerifies P issuer (Members.get wrapper (txt "signature")) (P.sha256 bytes)

theorem checkEntryShape_eq_ok {entry : JsonValue} {i : Nat} :
    checkEntryShape P entry i = .ok () ↔
      ∃ members, entry = .dict members ∧ Shaped members requiredEntryFields entryTypes := by
  cases entry with
  | dict members =>
    simp only [checkEntryShape, bind_eq_ok, exists_unit, requireMembers_eq_ok, checkTypes_eq_ok, JsonValue.dict.injEq,
      exists_eq_left']
    constructor
    · intro h
      exact ⟨h.1, h.2⟩
    · intro h
      exact ⟨h.1, h.2⟩
  | _ => simp [checkEntryShape]

theorem checkRevocationBodyShape_eq_ok {body : Members} :
    checkRevocationBodyShape P body = .ok () ↔ RevocationBody body := by
  simp only [checkRevocationBodyShape, bind_eq_ok, exists_unit, requireMembers_eq_ok, checkTypes_eq_ok, raiseWith_eq_ok,
    forEach_eq_ok, checkEntryShape_eq_ok, Bool.not_eq_false', JsonValue.eq_str]
  constructor
  · rintro ⟨hr, ht, hv, he⟩
    refine ⟨⟨hr, ht⟩, hv, fun entry hm => ?_⟩
    obtain ⟨i, hi⟩ := List.mem_iff_getElem?.mp hm
    exact he (entry, i) (List.mem_zipIdx_iff_getElem?.mpr hi)
  · rintro ⟨⟨hr, ht⟩, hv, he⟩
    exact ⟨hr, ht, hv, fun entry hm => he entry.1 (List.fst_mem_of_mem_zipIdx hm)⟩

/-- The structural rules of a snapshot: its wrapper, and the deny list it carries. -/
structure SnapshotShape (wrapper body : Members) : Prop where
  present : ∀ key ∈ snapshotFields, wrapper.has key
  signature : (wrapper.get (txt "signature")).isStr
  list : wrapper.get (txt "revocation_list") = .dict body
  body : RevocationBody body

theorem validateSnapshotShape_iff {snapshot : JsonValue} {wrapper body : Members} :
    validateSnapshotShape P snapshot = .ok (wrapper, body) ↔ snapshot = .dict wrapper ∧ SnapshotShape wrapper body := by
  cases snapshot with
  | dict obj =>
    simp only [validateSnapshotShape, bind_eq_ok, exists_unit, requireMembers_eq_ok, raiseIf_eq_ok, Bool.not_eq_false']
    cases hb : Members.get obj (txt "revocation_list") with
    | dict list =>
      simp only [bind_eq_ok, exists_unit, checkRevocationBodyShape_eq_ok, Except.ok.injEq, Prod.mk.injEq,
        JsonValue.dict.injEq]
      constructor
      · rintro ⟨hp, hsig, hs, rfl, rfl⟩
        exact ⟨rfl, hp, hsig, hb, hs⟩
      · rintro ⟨rfl, hp, hsig, hlist, hs⟩
        obtain rfl := JsonValue.dict.inj (hb.symm.trans hlist)
        exact ⟨hp, hsig, hs, rfl, rfl⟩
    | _ =>
      simp only [reduceCtorEq, and_false, false_iff, JsonValue.dict.injEq, not_and]
      rintro rfl hs
      have hlist := hs.list
      rw [hb] at hlist
      cases hlist
  | _ => simp [validateSnapshotShape]

theorem validateSnapshotShape_eq_ok {snapshot : JsonValue} {wrapper body : Members}
    (h : validateSnapshotShape P snapshot = .ok (wrapper, body)) :
    snapshot = .dict wrapper ∧ wrapper.get (txt "revocation_list") = .dict body ∧ RevocationBody body := by
  obtain ⟨hwrapper, hs⟩ := (validateSnapshotShape_iff P).mp h
  exact ⟨hwrapper, hs.list, hs.body⟩

theorem verifySnapshotTrust_trusted {snapshot : JsonValue} {body : Members}
    (h : verifySnapshotTrust P snapshot = .ok body) : TrustedSnapshot P snapshot body := by
  simp only [verifySnapshotTrust, bind_eq_ok, exists_unit, decodeTaggedSignature, onValueError_eq_ok,
    decodeTaggedSignatureFor_eq_ok, canonicalBytes_eq_ok, raiseIf_eq_ok, Bool.not_eq_false', Except.ok.injEq] at h
  obtain ⟨⟨wrapper, list⟩, hshape, _, _, _, issuer, hi, raw, hraw, bytes, hb, hv, rfl⟩ := h
  obtain ⟨rfl, hlist, hs⟩ := validateSnapshotShape_eq_ok P hshape
  exact ⟨hs, wrapper, issuer, bytes, rfl, hlist, hi, hb, raw, hraw, hv⟩

namespace RevocationBody

variable {body : Members} (h : RevocationBody body)

include h

theorem toInt_expiresAt :
    P.toInt (body.get (txt "expires_at")) = .ok (body.get (txt "expires_at")).intValue :=
  toInt_of_admits P (h.shaped.admits (by simp [requiredRevocationBodyFields]) (by simp [revocationBodyTypes]))

theorem toInt_publishedAt :
    P.toInt (body.get (txt "published_at")) = .ok (body.get (txt "published_at")).intValue :=
  toInt_of_admits P (h.shaped.admits (by simp [requiredRevocationBodyFields]) (by simp [revocationBodyTypes]))

theorem issuer : ∃ s, body.get (txt "issuer") = .str s :=
  h.shaped.str (by simp [requiredRevocationBodyFields]) (by simp [revocationBodyTypes])

end RevocationBody

/-- Within its own expiry and within the policy's bound, where there is one. -/
structure Fresh (body policy : Members) (now : Int) : Prop where
  live : now < (body.get (txt "expires_at")).intValue
  recent : policy.get (txt "max_staleness_secs") = .null ∨
    ∃ bound, P.toInt (policy.get (txt "max_staleness_secs")) = .ok bound ∧
      now - (body.get (txt "published_at")).intValue ≤ bound

theorem staleBeyond_eq_false {maxStaleness : JsonValue} {age : Int} :
    staleBeyond P maxStaleness age = .ok false ↔ ∃ bound, P.toInt maxStaleness = .ok bound ∧ age ≤ bound := by
  unfold staleBeyond
  cases P.toInt maxStaleness with
  | ok bound => simp
  | error e =>
    simp only [reduceCtorEq, false_and, exists_false, iff_false]
    split <;> simp

theorem snapshotIsStale_eq_false {body policy : Members} {now : Int} (h : RevocationBody body) :
    snapshotIsStale P body policy now = .ok false ↔ Fresh P body policy now := by
  simp only [snapshotIsStale, bind_eq_ok, h.toInt_expiresAt, Except.ok.injEq, exists_eq_left']
  by_cases hl : (body.get (txt "expires_at")).intValue ≤ now
  · simp only [if_pos hl, Except.ok.injEq, Bool.true_eq_false, false_iff]
    intro hf
    have := hf.live
    omega
  · rw [if_neg hl]
    have hlive : now < (body.get (txt "expires_at")).intValue := by omega
    cases hp : policy.get (txt "max_staleness_secs") with
    | null => exact ⟨fun _ => ⟨hlive, .inl hp⟩, fun _ => rfl⟩
    | _ =>
      simp only [bind_eq_ok, h.toInt_publishedAt, Except.ok.injEq, exists_eq_left', staleBeyond_eq_false]
      constructor
      · rintro ⟨bound, hb, ha⟩
        exact ⟨hlive, .inr ⟨bound, by rw [hp]; exact hb, ha⟩⟩
      · rintro ⟨_, hr⟩
        rcases hr with hr | ⟨bound, hb, ha⟩
        · rw [hp] at hr
          cases hr
        · exact ⟨bound, by rw [← hp]; exact hb, ha⟩

/-- A bound that does not convert counts as stale, whichever way it fails to. -/
theorem staleBeyond_ok (maxStaleness : JsonValue) (age : Int) : ∃ stale, staleBeyond P maxStaleness age = .ok stale := by
  have hconvert : FailsWith (fun e => (e.isKind .type || e.isValueError || e.isKind .overflow) = true)
      (P.toInt maxStaleness) := by
    unfold Interpreter.toInt
    split
    · exact .ok
    · exact .ok
    · split
      · exact .error rfl
      · exact .error rfl
      · exact .ok
    · dsimp only
      split
      · exact .error rfl
      · exact (FailsWith.raiseIf (p := fun e : PyErr => (e.isKind .type || e.isValueError || e.isKind .overflow) = true) rfl).bind
          fun _ _ => .ok
    · exact .error rfl
  unfold staleBeyond
  split
  · exact ⟨_, rfl⟩
  · rename_i e he
    rw [if_pos (hconvert e he)]
    exact ⟨true, rfl⟩

theorem snapshotIsStale_ok {body : Members} (h : RevocationBody body) (policy : Members) (now : Int) :
    ∃ stale, snapshotIsStale P body policy now = .ok stale := by
  rw [snapshotIsStale, h.toInt_expiresAt P, ok_bind]
  split
  · exact ⟨true, rfl⟩
  · split
    · exact ⟨false, rfl⟩
    · rw [h.toInt_publishedAt P, ok_bind]
      exact staleBeyond_ok P _ _

/-- A deny list without the identifier. -/
theorem lists_eq_false {body : Members} {jti : Text} :
    lists body (.str jti) = false ↔
      ∀ entry ∈ (body.get (txt "entries")).items, entry.members.get (txt "jti") ≠ .str jti := by
  simp only [lists, List.any_eq_false, JsonValue.eq_str, ne_eq]

end AitpVerifier
