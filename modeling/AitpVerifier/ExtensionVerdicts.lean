import AitpVerifier.ExtensionBundle
import AitpVerifier.ExtensionChain
import AitpVerifier.ExtensionHandshake

/-!
# Extensions and verdicts

What stands in a reserved slot of a verified document has no part in a verdict: a call
accepted with one set of contents is accepted with any other. A snapshot that is only
discarded is another matter. Signed again it would be trusted, and speak.
-/
namespace AitpVerifier

open PyText Checked

variable (P : Platform)

/-- A call of a verifier of documents with a reserved slot. -/
inductive DocumentCall where
  | envelope (inp : Members) (now : Int)
  | manifest (inp : Members) (now : Int)
  | revocationSnapshot (inp : Members) (clock : Option Int)
  | sessionBundle (inp : Members) (clock : Option Int)
  | tct (inp : Members) (now : Int)
  | tctAsIssuer (inp : Members) (now : Int)
  | grantVoucher (inp : Members) (now : Int)
  | delegationToken (inp : Members) (now : Int)
  | handshakePayload (inp : Members) (now : Int)

def DocumentCall.run : DocumentCall → PyM Members
  | .envelope inp now => verifyEnvelope P inp now
  | .manifest inp now => verifyManifest P inp now
  | .revocationSnapshot inp clock => verifyRevocationSnapshot P inp clock
  | .sessionBundle inp clock => verifySessionBundle P inp clock
  | .tct inp now => verifyTct P inp now
  | .tctAsIssuer inp now => verifyTctAsIssuer P inp now
  | .grantVoucher inp now => verifyGrantVoucher P inp now
  | .delegationToken inp now => verifyDelegationToken P inp now
  | .handshakePayload inp now => verifyHandshakePayload P inp now

/-- The same call with other objects in reserved slots, and what covers them signed and
committed to again. A snapshot beside a token is as it was unless it was trusted. -/
inductive Replaced : DocumentCall → DocumentCall → Prop
  | envelope {inp inp' env env' : Members} (now : Int) : SameBut [txt "envelope"] inp inp' →
      inp.get? (txt "envelope") = some (.dict env) → inp'.get? (txt "envelope") = some (.dict env') →
      MessageResigned P (fun _ _ => True) env env' → Replaced (.envelope inp now) (.envelope inp' now)
  | manifest {inp inp' : Members} {man man' : JsonValue} (now : Int) : SameBut [txt "manifest"] inp inp' →
      inp.get? (txt "manifest") = some man → inp'.get? (txt "manifest") = some man' → ManifestAlike P man man' →
      Replaced (.manifest inp now) (.manifest inp' now)
  | revocationSnapshot {inp inp' body body' : Members} {snapshot snapshot' : JsonValue} (clock : Option Int) :
      SameBut [txt "snapshot"] inp inp' → inp.get? (txt "snapshot") = some snapshot →
      inp'.get? (txt "snapshot") = some snapshot' → SnapshotResigned P snapshot snapshot' body body' →
      Replaced (.revocationSnapshot inp clock) (.revocationSnapshot inp' clock)
  | sessionBundle {inp inp' : Members} (clock : Option Int) : BundleAlike P inp inp' →
      Replaced (.sessionBundle inp clock) (.sessionBundle inp' clock)
  | tct {inp inp' : Members} (now : Int) : TctInputAlike P inp inp' → Replaced (.tct inp now) (.tct inp' now)
  | tctAsIssuer {inp inp' : Members} (now : Int) : IssuerInputAlike P inp inp' →
      Replaced (.tctAsIssuer inp now) (.tctAsIssuer inp' now)
  | grantVoucher {inp inp' : Members} {token token' : JsonValue} (now : Int) : SameBut [txt "voucher_token"] inp inp' →
      inp.get? (txt "voucher_token") = some token → inp'.get? (txt "voucher_token") = some token' →
      TokenAlike P ExtRefilled token token' → Replaced (.grantVoucher inp now) (.grantVoucher inp' now)
  | delegationToken {inp inp' : Members} (now : Int) : DelegationAlike P inp inp' →
      Replaced (.delegationToken inp now) (.delegationToken inp' now)
  | handshakePayload {inp inp' : Members} (now : Int) : HandshakeAlike P inp inp' →
      Replaced (.handshakePayload inp now) (.handshakePayload inp' now)

/-- No verdict turns on what stands in a reserved slot. -/
theorem replaced_accepted (call call' : DocumentCall) (r : Members) (h : Replaced P call call')
    (hr : call.run P = .ok r) : call'.run P = .ok r := by
  cases h with
  | envelope now hrest henv henv' halike => exact verifyEnvelope_alike P hrest henv henv' halike hr
  | manifest now hrest hman hman' halike => exact verifyManifest_resigned P hman hman' hrest halike hr
  | revocationSnapshot clock hrest hsnapshot hsnapshot' halike =>
    exact verifyRevocationSnapshot_resigned P hsnapshot hsnapshot' hrest halike hr
  | sessionBundle clock halike => exact verifySessionBundle_alike P halike hr
  | tct now halike => exact verifyTct_alike P halike hr
  | tctAsIssuer now halike => exact verifyTctAsIssuer_alike P halike hr
  | grantVoucher now _ htoken htoken' halike => exact verifyGrantVoucher_alike P htoken htoken' halike hr
  | delegationToken now halike => exact verifyDelegationToken_alike P halike hr
  | handshakePayload now halike => exact verifyHandshakePayload_alike P halike hr

/-! ### Agent A's grant with two sets of extensions -/

def extendedClaims (contents : Members) : Members := grantClaims ++ [(txt "ext", .dict contents)]

def plainSignature : Text :=
  txt "Xh2GkqeOUMk8FU_yHb-ZJI5dy2ucqhIbUD20wH9Z" ++
    txt "f3DOAxn-z3Y4gJ-5FdxrNNTXk6JdI-gzgODjGDJ7" ++ txt "zprtDA"

def notedSignature : Text :=
  txt "6WCzjjoh-x2T6nJhTK64w65yKYqfiCf54JsnyyMp" ++
    txt "3VQIcdjhDcpoPLD9wb_8wDvXHZzInMXaGTq3QQiW" ++ txt "N0KyDQ"

def note : Members := [(txt "note", .str (txt "x"))]

def plainToken : JsonValue := mintedToken tctTyp (extendedClaims []) plainSignature

def notedToken : JsonValue := mintedToken tctTyp (extendedClaims note) notedSignature

/-- Agent A's deny list, with the grant on it. -/
def grantDenied (contents : Members) : Members :=
  [(txt "version", .str (txt "aitp/0.3")), (txt "issuer", .str (aidOf agentA)), (txt "published_at", .int 1711899400),
    (txt "expires_at", .int 1711903600),
    (txt "entries", .list [.dict [(txt "jti", .str (txt "0b7e8a52-4c1d-4e3f-9a6b-2d5c8f1e7a90")),
      (txt "revoked_at", .int 1711899000)]]),
    (txt "extensions", .dict contents)]

def deniedDigest : Text := txt "_JYsIuEt_CynNLmJbvH_OnhbE-EpWv1cfDAykwqM" ++ txt "hSQ"

def deniedSignature : Text :=
  txt "NiTPrKoJ4gsil6Kvi2wKamvXcfHzwB4KXU2D7-Ui" ++
    txt "H1bU5LHELa9c5ktNNNPbhs3Qxneck9PTaymTzc1m" ++ txt "_M2ADw"

def deniedSnapshot (contents : Members) (signature : Text) : JsonValue :=
  .dict [(txt "revocation_list", .dict (grantDenied contents)), (txt "signature", .str signature)]

def extensionRecording : Recording where
  digests := [recordedThumbprint agentB thumbprintB, snapshotDigest agentA snapshotDigestA,
    (octetsFrom (Jcs.canonicalize (.dict (grantDenied note))), deniedDigest)]
  signatures := [mintedSignature agentA tctTyp (extendedClaims []) plainSignature,
    mintedSignature agentA tctTyp (extendedClaims note) notedSignature,
    ⟨agentA, snapshotSignatureA, octetsOf snapshotDigestA⟩, ⟨agentA, deniedSignature, octetsOf deniedDigest⟩]

/-- What a text parses to. -/
def parsedOf (token : JsonValue) : ParsedJws :=
  match parseCompact P token "" with
  | .ok parsed => parsed
  | .error _ => ⟨[], [], [], []⟩

theorem parsesTo_parsedOf {token : JsonValue} (h : (parseCompact P token "").isOk) :
    ParsesTo P token (parsedOf P token) := by
  obtain ⟨parsed, hparsed⟩ := isOk_iff.mp h
  refine ⟨"", ?_⟩
  rw [parsedOf, hparsed]

theorem notedToken_reissued : TokenAlike extensionRecording.platform ExtRefilled plainToken notedToken := by
  refine .inr ⟨parsedOf extensionRecording.platform plainToken, parsedOf extensionRecording.platform notedToken,
    parsesTo_parsedOf _ (by decide +kernel), parsesTo_parsedOf _ (by decide +kernel), by decide +kernel, ?_, by decide +kernel⟩
  exact ⟨by decide +kernel, .inr ⟨note, by decide +kernel⟩⟩

theorem replaced_accepted_tct :
    (DocumentCall.tct (answeredInput plainToken) referenceClock).run extensionRecording.platform =
        .ok [(txt "grants", .list [.str (txt "read")])] ∧
      (DocumentCall.tct (answeredInput notedToken) referenceClock).run extensionRecording.platform =
        .ok [(txt "grants", .list [.str (txt "read")])] := by
  have haccepted : (DocumentCall.tct (answeredInput plainToken) referenceClock).run extensionRecording.platform =
      .ok [(txt "grants", .list [.str (txt "read")])] := by decide +kernel
  have hreplaced : Replaced extensionRecording.platform (.tct (answeredInput plainToken) referenceClock)
      (.tct (answeredInput notedToken) referenceClock) := by
    apply Replaced.tct
    constructor
    · decide +kernel
    · exact ⟨plainToken, notedToken, rfl, rfl, notedToken_reissued⟩
    · exact .inl rfl
    · exact .inl rfl
  exact ⟨haccepted, replaced_accepted _ _ _ _ hreplaced haccepted⟩

/-- The grant beside a deny list, taken where it can be had. -/
def deniedInput (snapshot : JsonValue) : Members :=
  [(txt "tct_token", plainToken), (txt "policy", .dict [(txt "fail_mode", .str (txt "soft_fail"))]),
    (txt "issuer_revocation_list", .dict [(txt "snapshot", snapshot)])]

/-- The signed list is any unsigned one with other extensions, signed by its issuer. -/
theorem deniedSnapshot_resigned (contents : Members) (signature : Text) :
    SnapshotResigned extensionRecording.platform (deniedSnapshot contents signature) (deniedSnapshot note deniedSignature)
      (grantDenied contents) (grantDenied note) := by
  have htrust : verifySnapshotTrust extensionRecording.platform (deniedSnapshot note deniedSignature) =
      .ok (grantDenied note) := by decide +kernel
  obtain ⟨_, wrapper, issuer, octets, heq, _, hissuer, hoctets, hverifies⟩ := verifySnapshotTrust_trusted _ htrust
  have hextensions : SameBut [txt "extensions"] (grantDenied contents) (grantDenied note) := by
    intro key hk
    have hne : txt "extensions" ≠ key := fun h => hk (by rw [h]; exact List.mem_singleton_self _)
    simp [grantDenied, Members.get?, hne]
  have hwrapper : SameBut [txt "revocation_list", txt "signature"]
      [(txt "revocation_list", .dict (grantDenied contents)), (txt "signature", .str signature)] wrapper := by
    intro key hk
    rw [List.mem_pair, not_or] at hk
    rw [← JsonValue.dict.inj heq]
    simp [Members.get?, Ne.symm hk.1, Ne.symm hk.2]
  refine ⟨⟨hextensions, .inr ⟨note, rfl⟩⟩, _, wrapper, rfl, heq, rfl, ?_, hwrapper, ?_⟩
  · rw [← JsonValue.dict.inj heq]
    rfl
  · intro named hnamed
    obtain rfl := Except.ok.inj (hissuer.symm.trans hnamed)
    exact ⟨octets, hoctets, hverifies⟩

/-- A deny list nobody signed is discarded and the grant accepted; the same list with
other extensions, signed, revokes it. -/
theorem discarded_extensions_judged :
    verifyTct extensionRecording.platform (deniedInput (deniedSnapshot [] (.replicate 86 0x41))) referenceClock =
        .ok [(txt "grants", .list [.str (txt "read")])] ∧
      SnapshotResigned extensionRecording.platform (deniedSnapshot [] (.replicate 86 0x41))
        (deniedSnapshot note deniedSignature) (grantDenied []) (grantDenied note) ∧
      Raises (verifyTct extensionRecording.platform (deniedInput (deniedSnapshot note deniedSignature)) referenceClock)
        "TCT_REVOKED" := by
  refine ⟨by decide +kernel, deniedSnapshot_resigned _ _, ?_⟩
  decide +kernel

end AitpVerifier
