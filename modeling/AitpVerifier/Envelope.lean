import Mathlib.Data.Rat.Floor
import Mathlib.Tactic.Linarith
import AitpVerifier.Pattern
import AitpVerifier.Recorded

/-!
# Envelope verification

Replay window, then version, structure, member set, and the signature over the
domain tag and the canonical form of everything but the signature itself.
-/
namespace AitpVerifier

open PyText Checked

def protocolVersion : Text := txt "aitp/0.3"

/-- The pinned conformance clock. -/
def referenceClock : Int := 1711900000

def envelopeFields : List Text :=
  [txt "version", txt "message_type", txt "message_id", txt "timestamp", txt "sender", txt "payload",
    txt "signature", txt "extensions"]

def senderFields : List Text := [txt "agent_id"]

def requiredEnvelopeFields : List Text :=
  [txt "version", txt "message_type", txt "message_id", txt "timestamp", txt "sender", txt "payload",
    txt "signature"]

def envelopeTypes : List (Text × PyType) :=
  [(txt "version", .str), (txt "message_type", .str), (txt "message_id", .str), (txt "timestamp", .int),
    (txt "sender", .dict), (txt "payload", .dict), (txt "signature", .str), (txt "extensions", .dict)]

def requiredSenderFields : List Text := [txt "agent_id"]

def senderTypes : List (Text × PyType) := [(txt "agent_id", .str)]

/-- `[A-Za-z0-9_-]`. -/
def base64urlClass : Pattern := .oneOf [(0x41, 0x5A), (0x61, 0x7A), (0x30, 0x39), (0x5F, 0x5F), (0x2D, 0x2D)]

/-- `((ed25519|p256)\.)?[A-Za-z0-9_-]{86}`. -/
def signaturePattern : Pattern :=
  .seq (.opt (.seq (.alt (.literal (txt "ed25519")) (.literal (txt "p256"))) (.literal (txt "."))))
    (.times 86 base64urlClass)

/-- Sixteen ASCII characters and a NUL. -/
def envelopeDomainTag : Text := txt "aitp-envelope-v2" ++ nul

variable (P : Platform)

/-- The domain tag, then the canonical form of the envelope without its signature. -/
def envelopeSigningInput (env : Members) : PyM Bytes := do
  let body ← canonicalBytes (.dict (env.without (txt "signature"))) "INVALID_ENVELOPE" (txt "envelope")
  .ok (asciiOctets envelopeDomainTag ++ body)

/-- The version first: an absent one counts as unknown. -/
def checkEnvelopeVersion (env : Members) : PyM Unit :=
  raiseWith (!(env.get (txt "version")).eq (.str protocolVersion)) (do
    .ok (AitpError "UNKNOWN_VERSION" (txt "unknown envelope version " ++ (← P.repr (env.get (txt "version"))))))

/-- The schema's rules beyond presence, type and member set. -/
def checkEnvelopeGrammar (env : Members) : PyM Unit := do
  raiseWith ((env.get (txt "timestamp")).ltInt 0) (do
    .ok (AitpError "INVALID_ENVELOPE" (txt "envelope timestamp must be >= 0, got " ++
      (← P.toStr (env.get (txt "timestamp"))))))
  raiseIf (!signaturePattern.fullMatch (env.get (txt "signature")).text) (AitpError "INVALID_ENVELOPE"
    (txt "envelope signature must be an optional ed25519./p256. tag and 86 base64url characters"))

def checkSenderShape (sender : Members) : PyM Unit := do
  requireMembers P sender requiredSenderFields "INVALID_ENVELOPE" (txt "envelope.sender")
  checkTypes sender senderTypes "INVALID_ENVELOPE" (txt "envelope.sender")
  rejectUnknownFields P (.dict sender) senderFields "INVALID_ENVELOPE" (txt "envelope.sender")

/-- Structural validation, before anything is dereferenced. -/
def validateEnvelopeShape (env : JsonValue) : PyM Members :=
  match env with
  | .dict env => do
    checkEnvelopeVersion P env
    requireMembers P env requiredEnvelopeFields "INVALID_ENVELOPE" (txt "envelope")
    checkTypes env envelopeTypes "INVALID_ENVELOPE" (txt "envelope")
    rejectUnknownFields P (.dict env) envelopeFields "INVALID_ENVELOPE" (txt "envelope")
    checkEnvelopeGrammar P env
    checkSenderShape P (Members.get env (txt "sender")).members
    .ok env
  | _ => .error (AitpError "INVALID_ENVELOPE" (txt "envelope is " ++ env.typeName ++ txt ", not an object"))

/-- `env["sender"]["agent_id"]`. -/
def senderAgentId (env : Members) : JsonValue := (env.get (txt "sender")).members.get (txt "agent_id")

/-- The envelope's own signature, under the sender's key. -/
def verifyEnvelopeSignature (env : Members) (aid : Aid) (sigErr : String) (message : Text) : PyM Unit := do
  let raw ← decodeTaggedSignature P (env.get (txt "signature")) aid sigErr
  let input ← envelopeSigningInput env
  raiseIf (!verifyDigest P aid.publicKey (P.sha256 input) raw) (AitpError sigErr message)

/-- The replay window. It judges a timestamp only once that is a Python int. -/
def checkTimestampWindow (rawEnv : JsonValue) (now tolerance : Int) : PyM Unit :=
  match rawEnv with
  | .dict env =>
    match Members.get env (txt "timestamp") with
    | .int ts => raiseIf (decide (tolerance < |now - ts|))
        (AitpError "TIMESTAMP_EXPIRED" (txt "envelope timestamp outside tolerance window"))
    | _ => .ok ()
  | _ => .ok ()

/-- The result `{"ok": True}`. -/
def okResult : Members := [(txt "ok", .bool true)]

/-- The capability branch: the requested capability against an active token's grants. -/
def checkCapability (inp : Members) : PyM Members := do
  let active ← inp.index (txt "active_tct")
  let claims ← peekClaims P active "INVALID_SIGNATURE"
  let grants := (claims.get? (txt "grants")).getD (.list [])
  let granted ← (← inp.index (txt "requested_capability")).inContainer grants
  raiseIf (!granted) (AitpError "POLICY_VIOLATION" (txt "requested capability not granted by the active TCT"))
  .ok okResult

/-- The envelope branch. -/
def verifyEnvelopeProper (inp : Members) (now : Int) : PyM Members := do
  let rawEnv ← inp.index (txt "envelope")
  let tolerance ← P.toInt ((inp.get? (txt "tolerance_seconds")).getD (.int 300))
  checkTimestampWindow rawEnv now tolerance
  let env ← validateEnvelopeShape P rawEnv
  let aid ← onValueError (parseAid P (senderAgentId env).text) "INVALID_ENVELOPE"
    (txt "envelope sender agent_id is not a valid AID: " ++ ·)
  verifyEnvelopeSignature P env aid "INVALID_SIGNATURE" (txt "envelope signature verification failed")
  .ok okResult

/-- Verify an envelope, or answer one of the scenarios dispatched from the input's shape. -/
def verifyEnvelope (inp : Members) (now : Int) : PyM Members := do
  raiseIf (inp.has (txt "manifest_fetch") || inp.has (txt "needed_key_for"))
    (.aitp "KEY_RESOLUTION_FAILED" (txt "peer key could not be resolved") true)
  if inp.has (txt "active_tct") && inp.has (txt "requested_capability") then checkCapability P inp
  else verifyEnvelopeProper P inp now

/-! ### What acceptance establishes -/

/-- The structural rules of an envelope. -/
structure EnvelopeShape (env : Members) : Prop where
  version : env.get (txt "version") = .str protocolVersion
  shaped : Shaped env requiredEnvelopeFields envelopeTypes
  known : ∀ key ∈ env.names, key ∈ envelopeFields
  timestamp : (env.get (txt "timestamp")).ltInt 0 = false
  signature : signaturePattern.fullMatch (env.get (txt "signature")).text
  senderShaped : Shaped (env.get (txt "sender")).members requiredSenderFields senderTypes
  senderKnown : ∀ key ∈ (env.get (txt "sender")).members.names, key ∈ senderFields

theorem validateEnvelopeShape_eq_ok {value : JsonValue} {env : Members} :
    validateEnvelopeShape P value = .ok env ↔ value = .dict env ∧ EnvelopeShape env := by
  cases value with
  | dict obj =>
    simp only [validateEnvelopeShape, checkEnvelopeVersion, checkEnvelopeGrammar, checkSenderShape, bind_eq_ok,
      exists_unit, raiseIf_eq_ok, raiseWith_eq_ok, requireMembers_eq_ok, checkTypes_eq_ok,
      rejectUnknownFields_eq_ok, JsonValue.dict.injEq, exists_eq_left', Bool.not_eq_false', JsonValue.eq_str,
      Except.ok.injEq]
    constructor
    · rintro ⟨hv, hr, ht, hk, ⟨hn, hs⟩, ⟨hsr, hst, hsk⟩, rfl⟩
      exact ⟨rfl, hv, ⟨hr, ht⟩, hk, hn, hs, ⟨hsr, hst⟩, hsk⟩
    · rintro ⟨rfl, hv, ⟨hr, ht⟩, hk, hn, hs, ⟨hsr, hst⟩, hsk⟩
      exact ⟨hv, hr, ht, hk, ⟨hn, hs⟩, ⟨hsr, hst, hsk⟩, rfl⟩
  | _ => simp [validateEnvelopeShape]

/-- The rules hold with another value of a member, when that value meets the rules on it. -/
theorem EnvelopeShape.insert {env : Members} {key : Text} {value : JsonValue} (h : EnvelopeShape env)
    (hfield : key ∈ envelopeFields) (hversion : key ≠ txt "version") (hsender : key ≠ txt "sender")
    (htyped : ∀ entry ∈ envelopeTypes, key = entry.1 → value.admits entry.2)
    (htime : ((env.insert key value).get (txt "timestamp")).ltInt 0 = false)
    (hsignature : signaturePattern.fullMatch ((env.insert key value).get (txt "signature")).text) :
    EnvelopeShape (env.insert key value) := by
  have hsame : (env.insert key value).get (txt "sender") = env.get (txt "sender") := Members.get_insert_of_ne hsender
  refine ⟨?_, ⟨fun name hk => ?_, ?_⟩, fun name hk => ?_, htime, hsignature, ?_, ?_⟩
  · rw [Members.get_insert_of_ne hversion, h.version]
  · rw [Members.has, Members.get?_insert]
    split
    · rfl
    · exact h.shaped.present name hk
  · rintro ⟨name, type⟩ hk found hv
    rw [Members.get?_insert] at hv
    split at hv
    · rename_i heq
      obtain rfl := Option.some.inj hv
      exact htyped (name, type) hk heq
    · exact h.shaped.typed (name, type) hk found hv
  · rcases Members.mem_names_insert hk with rfl | hk
    · exact hfield
    · exact h.known name hk
  · rw [hsame]
    exact h.senderShaped
  · rw [hsame]
    exact h.senderKnown

/-- The rules hold of an envelope under any signature of the right form. -/
theorem EnvelopeShape.resigned {env : Members} {s : Text} (h : EnvelopeShape env) (hs : signaturePattern.fullMatch s) :
    EnvelopeShape (env.insert (txt "signature") (.str s)) := by
  apply h.insert (by decide) (by decide) (by decide)
  · intro entry hk he
    have hstr : ∀ entry ∈ envelopeTypes, txt "signature" = entry.1 → entry.2 = .str := by decide
    rw [hstr entry hk he]
    rfl
  · rw [Members.get_insert_of_ne (by decide)]
    exact h.timestamp
  · rw [Members.get_insert_self]
    exact hs

/-- The envelope's `signature` verifies under `aid`'s key. -/
def EnvelopeSigned (env : Members) (aid : Aid) : Prop :=
  ∃ input, envelopeSigningInput env = .ok input ∧ FieldVerifies P aid (env.get (txt "signature")) (P.sha256 input)

/-- The envelope's `signature` verifies under the key of its own sender. -/
def EnvelopeAuthentic (env : Members) : Prop :=
  ∃ aid, parseAid P (senderAgentId env).text = .ok aid ∧ EnvelopeSigned P env aid

theorem verifyEnvelopeSignature_eq_ok {env : Members} {aid : Aid} {sigErr : String} {message : Text} :
    verifyEnvelopeSignature P env aid sigErr message = .ok () ↔ EnvelopeSigned P env aid := by
  simp only [verifyEnvelopeSignature, decodeTaggedSignature, bind_eq_ok, raiseIf_eq_ok, Bool.not_eq_false',
    decodeTaggedSignatureFor_eq_ok, EnvelopeSigned, FieldVerifies]
  constructor
  · rintro ⟨raw, hr, input, hi, hv⟩
    exact ⟨input, hi, raw, hr, hv⟩
  · rintro ⟨input, hi, raw, hr, hv⟩
    exact ⟨raw, hr, input, hi, hv⟩

/-- Authenticity as a check of its own. -/
def checkEnvelopeAuthentic (env : Members) : PyM Unit := do
  let aid ← parseAid P (senderAgentId env).text
  verifyEnvelopeSignature P env aid "INVALID_SIGNATURE" (txt "envelope signature invalid")

theorem checkEnvelopeAuthentic_eq_ok {env : Members} :
    checkEnvelopeAuthentic P env = .ok () ↔ EnvelopeAuthentic P env := by
  simp only [checkEnvelopeAuthentic, EnvelopeAuthentic, bind_eq_ok, verifyEnvelopeSignature_eq_ok]

instance (env : Members) : Decidable (EnvelopeAuthentic P env) := decidable_of_iff _ (checkEnvelopeAuthentic_eq_ok P)

/-- An input of the envelope branch, its tolerance an integer or the default. -/
structure EnvelopeInput (inp : Members) (rawEnv : JsonValue) (tolerance : Int) : Prop where
  envelope : inp.get? (txt "envelope") = some rawEnv
  noScenario : (inp.has (txt "manifest_fetch") || inp.has (txt "needed_key_for")) = false
  noCapability : (inp.has (txt "active_tct") && inp.has (txt "requested_capability")) = false
  tolerance : (inp.get? (txt "tolerance_seconds")).getD (.int 300) = .int tolerance

/-- An envelope of the right shape whose signature verifies under its sender's key. -/
def GenuineEnvelope (rawEnv : JsonValue) : Prop :=
  ∃ env, rawEnv = .dict env ∧ EnvelopeShape env ∧ EnvelopeAuthentic P env

theorem verifyEnvelope_eq_ok {inp : Members} {rawEnv : JsonValue} {tolerance now : Int} {r : Members}
    (h : EnvelopeInput inp rawEnv tolerance) :
    verifyEnvelope P inp now = .ok r ↔
      checkTimestampWindow rawEnv now tolerance = .ok () ∧ GenuineEnvelope P rawEnv ∧ okResult = r := by
  have hi : inp.index (txt "envelope") = .ok rawEnv := by rw [Members.index, h.envelope]
  have ht : P.toInt ((inp.get? (txt "tolerance_seconds")).getD (.int 300)) = .ok tolerance := by
    rw [h.tolerance]
    rfl
  simp only [verifyEnvelope, verifyEnvelopeProper, h.noScenario, h.noCapability, hi, ht, bind_eq_ok, exists_unit,
    raiseIf_eq_ok, validateEnvelopeShape_eq_ok, onValueError_eq_ok, verifyEnvelopeSignature_eq_ok, true_and,
    Bool.false_eq_true, if_false, Except.ok.injEq, exists_eq_left', GenuineEnvelope, EnvelopeAuthentic]
  constructor
  · rintro ⟨hw, env, ⟨he, hs⟩, aid, ha, hg, hr⟩
    exact ⟨hw, ⟨env, he, hs, aid, ha, hg⟩, hr⟩
  · rintro ⟨hw, ⟨env, he, hs, aid, ha, hg⟩, hr⟩
    exact ⟨hw, env, ⟨he, hs⟩, aid, ha, hg, hr⟩

/-! ### The replay window -/

/-- The number a JSON integer denotes, in either of its spellings. -/
def JsonValue.number : JsonValue → ℚ
  | .int i => i
  | .float f => f.toRat
  | _ => 0

def JsonValue.isFloat : JsonValue → Bool
  | .float _ => true
  | _ => false

/-- An integer timestamp is judged by the window. -/
theorem checkTimestampWindow_int {env : Members} {ts now tolerance : Int} (h : env.get (txt "timestamp") = .int ts) :
    checkTimestampWindow (.dict env) now tolerance = .ok () ↔ |now - ts| ≤ tolerance := by
  simp [checkTimestampWindow, h, raiseIf_eq_ok]

/-- A float timestamp is not judged at all. -/
theorem checkTimestampWindow_float {env : Members} {f : Binary64} {now tolerance : Int}
    (h : env.get (txt "timestamp") = .float f) : checkTimestampWindow (.dict env) now tolerance = .ok () := by
  simp [checkTimestampWindow, h]

theorem EnvelopeShape.timestamp_spelling {env : Members} (h : EnvelopeShape env) :
    (∃ i, env.get (txt "timestamp") = .int i) ∨ ∃ f, env.get (txt "timestamp") = .float f := by
  rcases h.shaped.int (k := txt "timestamp") (by simp [requiredEnvelopeFields]) (by simp [envelopeTypes]) with
    ⟨i, hi⟩ | ⟨f, hf, _⟩
  · exact .inl ⟨i, hi⟩
  · exact .inr ⟨f, hf⟩

/-- Some clock lies further from `x` than any bound. -/
theorem exists_clock_beyond (x : ℚ) (tolerance : Int) : ∃ now : Int, (tolerance : ℚ) < |(now : ℚ) - x| := by
  refine ⟨⌈x⌉ + |tolerance| + 1, ?_⟩
  have hx : x ≤ ⌈x⌉ := Int.le_ceil x
  have ht : (tolerance : ℚ) ≤ |(tolerance : ℚ)| := le_abs_self _
  refine lt_of_lt_of_le ?_ (le_abs_self _)
  push_cast
  linarith

/-- Acceptance keeps the clock inside the window at every time exactly when the
timestamp is not spelled as a float, or the envelope is not genuine to begin with. -/
theorem verifyEnvelope_inWindow_iff (inp : Members) (rawEnv : JsonValue) (tolerance : Int)
    (h : EnvelopeInput inp rawEnv tolerance) :
    (∀ (now : Int) (r : Members), verifyEnvelope P inp now = .ok r →
        |(now : ℚ) - (rawEnv.members.get (txt "timestamp")).number| ≤ tolerance) ↔
      ((rawEnv.members.get (txt "timestamp")).isFloat = false ∨ ¬ GenuineEnvelope P rawEnv) := by
  constructor
  · intro hw
    by_contra hc
    rw [not_or, Bool.not_eq_false, not_not] at hc
    obtain ⟨hf, env, rfl, hs, ha⟩ := hc
    rcases hs.timestamp_spelling with ⟨i, hi⟩ | ⟨f, hts⟩
    · simp [JsonValue.members, hi, JsonValue.isFloat] at hf
    · obtain ⟨now, hnow⟩ := exists_clock_beyond f.toRat tolerance
      have hok : verifyEnvelope P inp now = .ok okResult := (verifyEnvelope_eq_ok P h).mpr
        ⟨checkTimestampWindow_float hts, ⟨env, rfl, hs, ha⟩, rfl⟩
      have hle := hw now _ hok
      simp only [JsonValue.members, hts, JsonValue.number] at hle
      exact absurd hle (not_le.mpr hnow)
  · rintro hc now r hr
    obtain ⟨hw, hg, _⟩ := (verifyEnvelope_eq_ok P h).mp hr
    have hf := hc.resolve_right (not_not.mpr hg)
    obtain ⟨env, rfl, hs, _⟩ := hg
    rcases hs.timestamp_spelling with ⟨i, hi⟩ | ⟨f, hts⟩
    · rw [checkTimestampWindow_int hi] at hw
      simp only [JsonValue.members, hi, JsonValue.number]
      exact_mod_cast hw
    · simp [JsonValue.members, hts, JsonValue.isFloat] at hf

def helloSignature : Text :=
  txt "7SiBCUZqDEi9rJHtPY9A4gwSjTVi0d6cLMTeSVgZ" ++
    txt "R-MBR5JNF2s8zj5jNDDeoMuOlhFus_ppRf1Ji6fC" ++ txt "4My1CA"

def helloDigest : Text := txt "erdnvqLK4mfxVrCJv684Yq61BMJ9qax780csIW5O" ++ txt "rGA"

/-- An envelope whose timestamp is left open. -/
def helloEnvelope (timestamp : JsonValue) : Members :=
  [(txt "version", .str protocolVersion), (txt "message_type", .str (txt "mutual_hello")),
    (txt "message_id", .str (txt "0b7e8a52-4c1d-4e3f-9a6b-2d5c8f1e7a90")), (txt "timestamp", timestamp),
    (txt "sender", .dict [(txt "agent_id", .str (aidOf agentA))]), (txt "payload", .dict []),
    (txt "signature", .str helloSignature)]

def helloInput (timestamp : JsonValue) : Members := [(txt "envelope", .dict (helloEnvelope timestamp))]

/-- The digest and signature of the envelope dated `referenceClock`. -/
def helloRecording : Recording where
  digests := [(octetsFrom (envelopeSigningInput (helloEnvelope (.int referenceClock))), helloDigest)]
  signatures := [⟨agentA, helloSignature, octetsOf helloDigest⟩]

/-- The two spellings of one timestamp: the integer is held to the window. -/
theorem verifyEnvelope_inWindow_intSpelling :
    (verifyEnvelope helloRecording.platform (helloInput (.int referenceClock)) referenceClock).isOk ∧
      ∀ (now : Int) (r : Members),
        verifyEnvelope helloRecording.platform (helloInput (.int referenceClock)) now = .ok r →
        |(now : ℚ) - ((JsonValue.dict (helloEnvelope (.int referenceClock))).members.get (txt "timestamp")).number| ≤
          (300 : Int) :=
  ⟨by decide +kernel,
    (verifyEnvelope_inWindow_iff helloRecording.platform (helloInput (.int referenceClock)) _ 300
      ⟨by decide +kernel, by decide +kernel, by decide +kernel, by decide +kernel⟩).mpr (.inl (by decide +kernel))⟩

/-- The same signed octets with the timestamp spelled `1711900000.0` pass three years later. -/
theorem verifyEnvelope_floatSpelling_outOfWindow :
    (verifyEnvelope helloRecording.platform
        (helloInput (.float (.round false 1711900000 1))) (referenceClock + 94608000)).isOk ∧
      ¬ |((referenceClock + 94608000 : Int) : ℚ) -
        ((helloEnvelope (.float (.round false 1711900000 1))).get (txt "timestamp")).number| ≤ (300 : Int) := by
  constructor
  · decide +kernel
  · have hn : ((helloEnvelope (.float (.round false 1711900000 1))).get (txt "timestamp")).number = 1711900000 := by
      decide +kernel
    rw [hn]
    norm_num [referenceClock]

end AitpVerifier
