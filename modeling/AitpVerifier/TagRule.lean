import Mathlib.Logic.Relation
import AitpVerifier.HelloAccepted
import AitpVerifier.MemberSets
import AitpVerifier.Presenter

/-!
# Where a signature's tag counts

One decoder holds a signature field to the tag rule, and every step that verifies
such a field goes through it but one: the round-2 proof of possession of a commit
reads what follows its last point.
-/
namespace AitpVerifier

open PyText Checked

/-- An optional tag that names the signer's algorithm, none standing for Ed25519, then
64 octets in base64url without another point. -/
def TagRule (sig : JsonValue) (alg : KeyAlg) : Prop :=
  ∃ body octets, 0x2E ∉ body ∧ b64urlDecode body = .ok octets ∧ octets.length = 64 ∧
    ((sig = .str body ∧ alg = .ed25519) ∨ sig = .str (alg.text ++ txt "." ++ body))

/-! ### The decoder enforces the rule -/

theorem point_not_mem {body : Text} {octets : Bytes} (h : b64urlDecode body = .ok octets) : (0x2E : CodePoint) ∉ body := by
  intro hm
  have hsextet := (b64urlDecode_eq_ok.mp h).1 0x2E hm
  have hnone : sextet? 0x2E = none := by decide
  rw [hnone] at hsextet
  cases hsextet

theorem KeyAlg.text_eq_ed25519 {alg : KeyAlg} (h : txt "ed25519" = alg.text) : alg = .ed25519 := by
  cases alg with
  | ed25519 => rfl
  | p256 => exact absurd h (by decide)

theorem TaggedSignature.rule {sig : JsonValue} {alg : KeyAlg} {raw : Bytes} (h : TaggedSignature sig alg raw) :
    TagRule sig alg := by
  obtain ⟨s, rfl, htag, hdecode, hlength⟩ := h
  refine ⟨(splitTag s).2, raw, point_not_mem hdecode, hdecode, hlength, ?_⟩
  unfold splitTag at htag ⊢
  split at htag
  · rename_i hpoint
    right
    have hsplit := partition_of_mem (List.contains_iff_mem.mp hpoint)
    rw [if_pos hpoint, JsonValue.str.injEq, List.append_assoc, ← htag]
    exact hsplit
  · rename_i hpoint
    left
    exact ⟨by rw [if_neg hpoint], KeyAlg.text_eq_ed25519 htag⟩

/-! ### What a commit's decoder reads -/

theorem popBody_of_not_mem {s : Text} (h : (0x2E : CodePoint) ∉ s) : popBody s = s := by
  rw [popBody, splitOn_eq, List.splitOn_eq_singleton h]
  rfl

/-- The body of a proof is what follows its last point, whatever stands before that. -/
theorem popBody_append {tag body : Text} (h : (0x2E : CodePoint) ∉ body) : popBody (tag ++ txt "." ++ body) = body := by
  rw [List.append_assoc]
  change (splitOn 0x2E (tag ++ 0x2E :: body)).getLastD [] = body
  rw [splitOn_eq, List.splitOn_append_cons_self, List.splitOn_eq_singleton h]
  simp

variable (P : Platform)

/-- A key only accepts 64 octets, when the library's Ed25519 does. -/
theorem length_of_verifyDigest (hlib : ∀ key sig message, P.ed25519Verify key sig message = true → sig.length = 64)
    {key : AgentKey} {digest sig : Bytes} (h : verifyDigest P key digest sig = true) : sig.length = 64 := by
  cases key with
  | ed25519 raw => exact hlib raw sig digest h
  | p256 x y =>
    simp only [verifyDigest] at h
    split at h
    · rename_i der hder
      simp only [p256RawToDer, bind_eq_ok, exists_unit, raiseIf_eq_ok, bne_eq_false_iff_eq] at hder
      exact hder.1
    · cases h

/-! ### The calls and the signatures each of them verifies -/

/-- A call of one of the verifiers that read signature fields. -/
inductive Call where
  | envelope (inp : Members) (now : Int)
  | manifest (inp : Members) (now : Int)
  | snapshotTrust (snapshot : JsonValue)
  | sessionBundle (inp : Members) (clock : Option Int)
  | tctAsIssuer (inp : Members) (now : Int)
  | identity (descriptor env : Members) (selfAid : JsonValue) (config : IdentityConfig) (now : Int)
  | handshakePayload (inp : Members) (now : Int)

def Call.Accepts : Call → Prop
  | .envelope inp now => ∃ r, verifyEnvelope P inp now = .ok r
  | .manifest inp now => ∃ r, verifyManifest P inp now = .ok r
  | .snapshotTrust snapshot => ∃ body, verifySnapshotTrust P snapshot = .ok body
  | .sessionBundle inp clock => ∃ r, verifySessionBundle P inp clock = .ok r
  | .tctAsIssuer inp now => ∃ r, verifyTctAsIssuer P inp now = .ok r
  | .identity descriptor env selfAid config now => verifyIdentity P descriptor env selfAid config now = .ok ()
  | .handshakePayload inp now => ∃ r, verifyHandshakePayload P inp now = .ok r

/-- The input of the Manifest check inside another call. -/
def manifestInput (man : Members) (now : Int) : Members := [(txt "manifest", .dict man), (txt "now", .int now)]

/-- A message outside a simulated exchange. -/
structure Message (inp env : Members) : Prop where
  notPair : (inp.has (txt "peer_a") && inp.has (txt "peer_b")) = false
  envelope : inp.get (txt "envelope") = .dict env

/-- The calls an accepting call makes and accepts itself. -/
inductive Call.Runs : Call → Call → Prop
  | coordinatorManifest {inp wrapper body man : Members} {clock : Option Int} {now : Int} : clockOf P inp clock = .ok now →
      inp.get? (txt "session_bundle") = some (.dict wrapper) → wrapper.get (txt "session_bundle") = .dict body →
      (manifestCandidates (inp.get (txt "coordinator_manifest"))).find?
        (namesAid (body.get (txt "coordinator")).text) = some (.dict man) →
      Call.Runs (.sessionBundle inp clock) (.manifest (manifestInput man now) now)
  | revocationList {inp revlist body : Members} {now : Int} : inp.get (txt "issuer_revocation_list") = .dict revlist →
      verifySnapshotTrust P (revlist.get (txt "snapshot")) = .ok body →
      Call.Runs (.tctAsIssuer inp now) (.snapshotTrust (revlist.get (txt "snapshot")))
  | helloManifest {inp env man : Members} {now : Int} : Message inp env → messageType env ∈ bootstrapTypes →
      (payloadOf env).get (txt "manifest") = .dict man →
      Call.Runs (.handshakePayload inp now) (.manifest (manifestInput man now) now)
  | helloIdentity {inp env descriptor : Members} {now : Int} : Message inp env → messageType env ∈ bootstrapTypes →
      (payloadOf env).get (txt "identity") = .dict descriptor →
      Call.Runs (.handshakePayload inp now) (.identity descriptor env (receiverAid inp) (identityConfig inp) now)

/-- A commit payload an exchange verifies, with the input it is verified against: the
message's own, or that of one simulated side. -/
inductive CommitOf (inp : Members) : Members → JsonValue → Prop
  | message {env : Members} : Message inp env → messageType env ∈ commitTypes →
      CommitOf inp inp (env.get (txt "payload"))
  | side {side : Text} {peer payload : JsonValue} : (inp.has (txt "peer_a") && inp.has (txt "peer_b")) = true →
      side ∈ [txt "peer_a", txt "peer_b"] → inp.get? side = some peer →
      peer.attrGet (txt "received_payload") (.dict []) = .ok payload → CommitOf inp peer.members payload

/-- A round-2 proof that is judged, and the sender it is judged under: the payload
carries a string and the verifier sent a nonce. -/
def JudgedPop (inp : Members) (pop : Text) (sender : Aid) : Prop :=
  ∃ own payload named text, CommitOf inp own payload ∧ payload.members.get (txt "pop_signature") = .str pop ∧
    (selfNonce own).truthy ∧ resolveSender P own (payload.members.get (txt "tct")) = .ok named ∧
    P.toStr named = .ok text ∧ parseAid P text = .ok sender

/-- The signature fields a call verifies itself, with the algorithm of each signer. -/
inductive Call.Verifies : Call → JsonValue → KeyAlg → Prop
  | envelope {inp env : Members} {now : Int} {sender : Aid} :
      (inp.has (txt "active_tct") && inp.has (txt "requested_capability")) = false →
      inp.get (txt "envelope") = .dict env → parseAid P (senderAgentId env).text = .ok sender →
      Call.Verifies (.envelope inp now) (env.get (txt "signature")) sender.alg
  | manifest {inp body : Members} {now : Int} {aid : Aid} : inp.get? (txt "manifest") = some (.dict body) →
      parseAid P (body.get (txt "aid")).text = .ok aid →
      Call.Verifies (.manifest inp now) (body.get (txt "signature")) aid.alg
  | manifestPop {inp body : Members} {now : Int} {aid : Aid} : inp.get? (txt "manifest") = some (.dict body) →
      parseAid P (body.get (txt "aid")).text = .ok aid →
      Call.Verifies (.manifest inp now) ((body.get (txt "proof_of_possession")).members.get (txt "signature")) aid.alg
  | snapshot {wrapper body : Members} {issuer : Aid} : wrapper.get (txt "revocation_list") = .dict body →
      parseAid P (body.get (txt "issuer")).text = .ok issuer →
      Call.Verifies (.snapshotTrust (.dict wrapper)) (wrapper.get (txt "signature")) issuer.alg
  | bundle {inp wrapper body : Members} {clock : Option Int} {coordinator : Aid} :
      inp.get? (txt "session_bundle") = some (.dict wrapper) → wrapper.get (txt "session_bundle") = .dict body →
      parseAid P (body.get (txt "coordinator")).text = .ok coordinator →
      Call.Verifies (.sessionBundle inp clock) (body.get (txt "signature")) coordinator.alg
  | popEnvelope {inp env : Members} {now : Int} {sender : Aid} : inp.get (txt "envelope") = .dict env →
      parseAid P (senderAgentId env).text = .ok sender →
      Call.Verifies (.tctAsIssuer inp now) (env.get (txt "signature")) sender.alg
  | popResponse {inp env claims : Members} {token : JsonValue} {now : Int} {sub : Aid} :
      inp.get (txt "envelope") = .dict env → inp.get? (txt "tct_token") = some token → Carries P token claims →
      parseAid P (claims.get (txt "sub")).text = .ok sub →
      Call.Verifies (.tctAsIssuer inp now) ((payloadOf env).get (txt "pop_signature")) sub.alg
  | pinnedProof {descriptor env : Members} {selfAid : JsonValue} {config : IdentityConfig} {now : Int} {sender : Aid} :
      descriptor.get (txt "type") = .str (txt "pinned_key") → parseAid P (senderAgentId env).text = .ok sender →
      Call.Verifies (.identity descriptor env selfAid config now) (descriptor.get (txt "proof")) sender.alg
  | x509Proof {descriptor env : Members} {selfAid : JsonValue} {config : IdentityConfig} {now : Int} {leaf : Certificate}
      {issuers : List Certificate} {key : AgentKey} : descriptor.get (txt "type") = .str (txt "spiffe") →
      descriptor.get (txt "svid_type") = .str (txt "x509-svid") →
      Spiffe.chainOf P (descriptor.get (txt "x5c")) = .ok (leaf, issuers) → Spiffe.leafKey leaf = .ok key →
      Call.Verifies (.identity descriptor env selfAid config now) (descriptor.get (txt "proof")) key.alg
  | helloEnvelope {inp env : Members} {now : Int} {sender : Aid} : Message inp env → messageType env ∈ bootstrapTypes →
      parseAid P (senderAgentId env).text = .ok sender →
      Call.Verifies (.handshakePayload inp now) (env.get (txt "signature")) sender.alg
  | commitPop {inp : Members} {now : Int} {pop : Text} {sender : Aid} : JudgedPop P inp pop sender →
      Call.Verifies (.handshakePayload inp now) (.str pop) sender.alg

/-- A signature field verified somewhere in a call. -/
def Call.Verified (call : Call) (sig : JsonValue) (alg : KeyAlg) : Prop :=
  ∃ inner, Relation.ReflTransGen (Call.Runs P) call inner ∧ inner.Verifies P sig alg

/-! ### An accepting call accepts what it runs -/

theorem Message.accepted {inp env : Members} {now : Int} {r : Members} (hm : Message inp env)
    (h : verifyHandshakePayload P inp now = .ok r) : EnvelopeShape env ∧ verifyMessage P inp env now = .ok r :=
  verifyHandshakePayload_message P hm.notPair hm.envelope h

/-- The accepted greeting behind a bootstrap message. -/
theorem Message.hello {inp env : Members} {now : Int} {r : Members} (hm : Message inp env)
    (ht : messageType env ∈ bootstrapTypes) (h : verifyHandshakePayload P inp now = .ok r) :
    ∃ man descriptor key, HelloAccepted P inp now env man descriptor key := by
  obtain ⟨hshape, hmessage⟩ := hm.accepted P h
  exact verifyBootstrap_accepted P hshape (verifyMessage_bootstrap P ht hmessage)

theorem Call.Runs.accepts {call inner : Call} (hr : Call.Runs P call inner) (h : call.Accepts P) : inner.Accepts P := by
  cases hr with
  | coordinatorManifest hclock hw hb hfind =>
    obtain ⟨r, h⟩ := h
    obtain ⟨body, man, coord, hrun⟩ := verifySessionBundle_run P hclock h
    obtain rfl := hrun.body_unique hw hb
    obtain ⟨hfound, hverified, _⟩ := resolveManifest_eq_ok P hrun.resolved
    obtain rfl := JsonValue.dict.inj (Option.some.inj (hfind.symm.trans hfound))
    exact hverified
  | revocationList _ htrusted => exact ⟨_, htrusted⟩
  | helloManifest hm ht hman =>
    obtain ⟨r, h⟩ := h
    obtain ⟨man, descriptor, key, haccepted⟩ := hm.hello P ht h
    obtain rfl := JsonValue.dict.inj (haccepted.manifest.symm.trans hman)
    exact haccepted.manifestVerified
  | helloIdentity hm ht hdescriptor =>
    obtain ⟨r, h⟩ := h
    obtain ⟨man, descriptor, key, haccepted⟩ := hm.hello P ht h
    obtain rfl := JsonValue.dict.inj (haccepted.descriptor.symm.trans hdescriptor)
    exact haccepted.identityVerified

/-- Every call inside an accepting call accepts. -/
theorem Call.accepts_of_runs {call inner : Call} (hr : Relation.ReflTransGen (Call.Runs P) call inner)
    (h : call.Accepts P) : inner.Accepts P := by
  induction hr with
  | refl => exact h
  | tail _ hlast ih => exact hlast.accepts P ih

/-- No call runs an exchange of its own. -/
theorem Call.eq_of_runs_handshake {call : Call} {inp : Members} {now : Int}
    (hr : Relation.ReflTransGen (Call.Runs P) call (.handshakePayload inp now)) : call = .handshakePayload inp now := by
  cases hr.cases_tail with
  | inl heq => exact heq.symm
  | inr hlast =>
    obtain ⟨_, _, hlast⟩ := hlast
    cases hlast

/-! ### Every step but one uses the decoder -/

theorem FieldVerifies.rule {aid : Aid} {sig : JsonValue} {digest : Bytes} (h : FieldVerifies P aid sig digest) :
    TagRule sig aid.alg := by
  obtain ⟨raw, htagged, _⟩ := h
  exact htagged.rule

theorem EnvelopeSigned.rule {env : Members} {aid : Aid} (h : EnvelopeSigned P env aid) :
    TagRule (env.get (txt "signature")) aid.alg := by
  obtain ⟨_, _, hsig⟩ := h
  exact hsig.rule P

theorem BodySigned.rule {body : Members} {aid : Aid} (h : BodySigned P body aid) :
    TagRule (body.get (txt "signature")) aid.alg := by
  obtain ⟨_, _, hsig⟩ := h
  exact hsig.rule P

theorem verifyEnvelope_authentic {inp env : Members} {now : Int} {r : Members}
    (hpath : (inp.has (txt "active_tct") && inp.has (txt "requested_capability")) = false)
    (he : inp.get (txt "envelope") = .dict env) (h : verifyEnvelope P inp now = .ok r) : EnvelopeAuthentic P env := by
  simp only [verifyEnvelope, hpath, Bool.false_eq_true, if_false, verifyEnvelopeProper, bind_eq_ok, exists_unit,
    Members.index_eq_ok, validateEnvelopeShape_eq_ok, onValueError_eq_ok, verifyEnvelopeSignature_eq_ok] at h
  obtain ⟨_, raw, hraw, _, _, _, found, ⟨rfl, _⟩, sender, hsender, hsigned, _⟩ := h
  obtain rfl := JsonValue.dict.inj ((Members.get_of_get? hraw).symm.trans he)
  exact ⟨sender, hsender, hsigned⟩

/-- Both signatures of an accepted `pop_response`. -/
theorem presenterOf_signed {inp claims env : Members} {now : Int} {presenter : JsonValue}
    (he : inp.get (txt "envelope") = .dict env) (h : presenterOf P inp claims now = .ok presenter) :
    EnvelopeAuthentic P env ∧ ∃ sub raw, parseAid P (claims.get (txt "sub")).text = .ok sub ∧
      TaggedSignature ((payloadOf env).get (txt "pop_signature")) sub.alg raw := by
  have hpresent : (!(inp.get (txt "envelope")).isNull) = true := by
    rw [he]
    rfl
  simp only [presenterOf, if_pos hpresent, bind_eq_ok, presenterFromPop_eq_ok] at h
  obtain ⟨sub, ⟨found, _, _, hresponse, _, _, hproof⟩, _⟩ := h
  obtain rfl := JsonValue.dict.inj (he.symm.trans hresponse.envelope)
  obtain ⟨aid, hparse, raw, htagged, _⟩ := hproof.proof
  refine ⟨hresponse.authentic, aid, raw, ?_, htagged⟩
  rw [Members.get_of_get? hproof.claim]
  exact hparse

theorem verifyIdentity_pinned {descriptor env : Members} {selfAid : JsonValue} {config : IdentityConfig} {now : Int}
    (ht : descriptor.get (txt "type") = .str (txt "pinned_key"))
    (h : verifyIdentity P descriptor env selfAid config now = .ok ()) :
    verifyPinnedKey P descriptor env selfAid config.trustStore = .ok () := by
  have hspiffe : (JsonValue.str (txt "pinned_key")).eq (.str (txt "spiffe")) = false := by decide
  have hoidc : (JsonValue.str (txt "pinned_key")).eq (.str (txt "oidc")) = false := by decide
  have hpinned : (JsonValue.str (txt "pinned_key")).eq (.str (txt "pinned_key")) = true := by decide
  simp only [verifyIdentity, ht, hspiffe, hoidc, hpinned, Bool.false_and, Bool.false_eq_true, if_false, if_true,
    bind_eq_ok, exists_unit] at h
  exact h.2.2

theorem verifyIdentity_spiffe {descriptor env : Members} {selfAid : JsonValue} {config : IdentityConfig} {now : Int}
    (ht : descriptor.get (txt "type") = .str (txt "spiffe"))
    (h : verifyIdentity P descriptor env selfAid config now = .ok ()) :
    verifySpiffe P descriptor env selfAid config.spiffeBundles now = .ok () := by
  have hspiffe : (JsonValue.str (txt "spiffe")).eq (.str (txt "spiffe")) = true := by decide
  have hoidc : (JsonValue.str (txt "spiffe")).eq (.str (txt "oidc")) = false := by decide
  have hpinned : (JsonValue.str (txt "spiffe")).eq (.str (txt "pinned_key")) = false := by decide
  simp only [verifyIdentity, ht, hspiffe, hoidc, hpinned, Bool.true_and, Bool.false_eq_true, if_false, bind_eq_ok,
    exists_unit] at h
  obtain ⟨_, h⟩ := h
  split at h
  · exact h
  · simp [bind_eq_ok] at h

/-- The proof of an X509-SVID is a tagged signature of its leaf's key. -/
theorem verifyIdentity_x509 {descriptor env : Members} {selfAid : JsonValue} {config : IdentityConfig} {now : Int}
    {leaf : Certificate} {issuers : List Certificate} {key : AgentKey}
    (ht : descriptor.get (txt "type") = .str (txt "spiffe"))
    (hsvid : descriptor.get (txt "svid_type") = .str (txt "x509-svid"))
    (hchain : Spiffe.chainOf P (descriptor.get (txt "x5c")) = .ok (leaf, issuers)) (hleaf : Spiffe.leafKey leaf = .ok key)
    (h : verifyIdentity P descriptor env selfAid config now = .ok ()) :
    ∃ raw, TaggedSignature (descriptor.get (txt "proof")) key.alg raw := by
  cases verifySpiffe_proven P ht (verifyIdentity_spiffe P ht h) with
  | oidc htype _ => exact absurd (JsonValue.str.inj (ht.symm.trans htype)) (by decide)
  | pinnedKey htype _ => exact absurd (JsonValue.str.inj (ht.symm.trans htype)) (by decide)
  | jwtSvid _ hproven => exact absurd (JsonValue.str.inj (hsvid.symm.trans hproven.svidType)) (by decide)
  | x509Svid _ hproven =>
    obtain ⟨_, raw, _, htagged, _⟩ := hproven.signed
    obtain ⟨rfl, rfl⟩ := Prod.mk.inj (Except.ok.inj (hchain.symm.trans hproven.chain))
    obtain rfl := Except.ok.inj (hleaf.symm.trans hproven.leafKey)
    exact ⟨raw, htagged⟩

/-! ### The round-2 proof -/

/-- The signature of an accepted round-2 proof verifies under the sender. -/
theorem verifyCommit_pop {inp : Members} {payload selfAid grants named : JsonValue} {now : Int} {pop text : Text}
    {sender : Aid} (h : verifyCommit P inp payload selfAid now = .ok grants)
    (hpop : payload.members.get (txt "pop_signature") = .str pop) (hnonce : (selfNonce inp).truthy)
    (hnamed : resolveSender P inp (payload.members.get (txt "tct")) = .ok named) (htext : P.toStr named = .ok text)
    (hparse : parseAid P text = .ok sender) :
    ∃ sig digest, b64urlDecode (popBody pop) = .ok sig ∧ verifyDigest P sender.publicKey digest sig := by
  simp only [verifyCommit, bind_eq_ok, exists_unit, hnamed, Except.ok.injEq, exists_eq_left', checkCommitPop_eq_ok,
    hpop] at h
  obtain ⟨_, _, hjudged, _⟩ := h
  obtain ⟨s, found, key, sig, challenge, hs, hfound, hkey, hsig, _, hverified⟩ := hjudged rfl hnonce
  obtain rfl := JsonValue.str.inj hs
  obtain rfl := Except.ok.inj (htext.symm.trans hfound)
  obtain rfl := Except.ok.inj (hparse.symm.trans hkey)
  exact ⟨sig, _, hsig, hverified⟩

/-- An accepted exchange accepted each commit payload it verified. -/
theorem CommitOf.accepted {inp own : Members} {payload : JsonValue} {now : Int} {r : Members}
    (hc : CommitOf inp own payload) (h : verifyHandshakePayload P inp now = .ok r) :
    ∃ selfAid grants, verifyCommit P own payload selfAid now = .ok grants := by
  cases hc with
  | message hm ht =>
    obtain ⟨grants, hg⟩ := verifyMessage_commit P ht (hm.accepted P h).2
    exact ⟨_, grants, hg⟩
  | @side side peer _ hpair hside hp hpay =>
    have hcommit {grants : JsonValue} (hv : verifyCommitSide P inp side now = .ok grants) :
        ∃ selfAid grants, verifyCommit P peer.members payload selfAid now = .ok grants := by
      simp only [verifyCommitSide, bind_eq_ok, Members.index_eq_ok, hp, Option.some.injEq, exists_eq_left', hpay,
        Except.ok.injEq] at hv
      obtain ⟨selfAid, _, hv⟩ := hv
      exact ⟨selfAid, grants, hv⟩
    simp only [verifyHandshakePayload, hpair, if_true, bind_eq_ok] at h
    obtain ⟨_, ha, _, hb, _⟩ := h
    cases List.mem_cons.mp hside with
    | inl heq =>
      subst heq
      exact hcommit ha
    | inr hm =>
      obtain rfl := List.mem_singleton.mp hm
      exact hcommit hb

/-- What stands before the one point of a text is the algorithm, or there is no point and
the algorithm is Ed25519. -/
def PlainlyTagged (s : Text) (alg : KeyAlg) : Prop :=
  ∃ body : Text, 0x2E ∉ body ∧ ((s = body ∧ alg = .ed25519) ∨ s = alg.text ++ txt "." ++ body)

theorem TagRule.plainlyTagged {s : Text} {alg : KeyAlg} (h : TagRule (.str s) alg) : PlainlyTagged s alg := by
  obtain ⟨body, _, hpoint, _, _, hform⟩ := h
  simp only [JsonValue.str.injEq] at hform
  exact ⟨body, hpoint, hform⟩

theorem PlainlyTagged.popBody_eq {s body : Text} {alg : KeyAlg} (hpoint : (0x2E : CodePoint) ∉ body)
    (h : (s = body ∧ alg = .ed25519) ∨ s = alg.text ++ txt "." ++ body) : popBody s = body := by
  cases h with
  | inl h => rw [h.1, popBody_of_not_mem hpoint]
  | inr h => rw [h, popBody_append hpoint]

/-- A plainly tagged proof that verified obeys the rule. -/
theorem JudgedPop.rule {inp : Members} {now : Int} {pop : Text} {sender : Aid} {r : Members}
    (hlib : ∀ key sig message, P.ed25519Verify key sig message = true → sig.length = 64)
    (hj : JudgedPop P inp pop sender) (h : verifyHandshakePayload P inp now = .ok r)
    (ht : PlainlyTagged pop sender.alg) : TagRule (.str pop) sender.alg := by
  obtain ⟨own, payload, named, text, hc, hpop, hnonce, hnamed, htext, hparse⟩ := hj
  obtain ⟨selfAid, grants, hv⟩ := hc.accepted P h
  obtain ⟨sig, digest, hsig, hverified⟩ := verifyCommit_pop P hv hpop hnonce hnamed htext hparse
  obtain ⟨body, hpoint, hform⟩ := ht
  rw [PlainlyTagged.popBody_eq hpoint hform] at hsig
  refine ⟨body, sig, hpoint, hsig, length_of_verifyDigest P hlib hverified, ?_⟩
  simpa only [JsonValue.str.injEq] using hform

/-- What a call verifies itself obeys the rule, the round-2 proof aside. -/
theorem Call.Verifies.rule {call : Call} {sig : JsonValue} {alg : KeyAlg} (hv : call.Verifies P sig alg)
    (h : call.Accepts P) :
    TagRule sig alg ∨ ∃ inp now pop sender, call = .handshakePayload inp now ∧ JudgedPop P inp pop sender ∧
      sig = .str pop ∧ alg = sender.alg := by
  cases hv with
  | commitPop hj => exact .inr ⟨_, _, _, _, rfl, hj, rfl, rfl⟩
  | envelope hpath he hsender =>
    left
    obtain ⟨r, h⟩ := h
    obtain ⟨sender, hfound, hsigned⟩ := verifyEnvelope_authentic P hpath he h
    obtain rfl := Except.ok.inj (hsender.symm.trans hfound)
    exact hsigned.rule P
  | manifest hman haid =>
    left
    obtain ⟨r, h⟩ := h
    obtain ⟨body, aid, hfound, haccepted, _⟩ := (verifyManifest_eq_ok P).mp h
    obtain rfl := JsonValue.dict.inj (Option.some.inj (hman.symm.trans hfound))
    obtain rfl := Except.ok.inj (haid.symm.trans haccepted.key)
    exact haccepted.signed.rule P
  | manifestPop hman haid =>
    left
    obtain ⟨r, h⟩ := h
    obtain ⟨body, aid, hfound, haccepted, _⟩ := (verifyManifest_eq_ok P).mp h
    obtain rfl := JsonValue.dict.inj (Option.some.inj (hman.symm.trans hfound))
    obtain rfl := Except.ok.inj (haid.symm.trans haccepted.key)
    obtain ⟨_, _, hsig⟩ := haccepted.possession
    exact hsig.rule P
  | snapshot hbody hissuer =>
    left
    obtain ⟨_, h⟩ := h
    obtain ⟨_, wrapper, issuer, _, hwrapper, hlist, hparse, _, hsig⟩ := verifySnapshotTrust_trusted P h
    obtain rfl := JsonValue.dict.inj hwrapper
    obtain rfl := JsonValue.dict.inj (hbody.symm.trans hlist)
    obtain rfl := Except.ok.inj (hissuer.symm.trans hparse)
    exact hsig.rule P
  | @bundle inp _ _ clock _ hw hb hcoord =>
    left
    obtain ⟨r, h⟩ := h
    rcases hclock : clockOf P inp clock with e | now
    · simp [verifySessionBundle, hclock, bind_eq_ok] at h
    · obtain ⟨body, man, coord, hrun⟩ := verifySessionBundle_run P hclock h
      obtain rfl := hrun.body_unique hw hb
      obtain ⟨_, _, hparse⟩ := resolveManifest_eq_ok P hrun.resolved
      obtain rfl := Except.ok.inj (hcoord.symm.trans hparse)
      exact hrun.signed.rule P
  | popEnvelope he hsender =>
    left
    obtain ⟨r, h⟩ := h
    obtain ⟨claims, haccepted, _⟩ := (verifyTctAsIssuer_eq_ok P).mp h
    obtain ⟨sender, hfound, hsigned⟩ := (presenterOf_signed P he haccepted.presenter).1
    obtain rfl := Except.ok.inj (hsender.symm.trans hfound)
    exact hsigned.rule P
  | popResponse he ht hcarries hsub =>
    left
    obtain ⟨r, h⟩ := h
    obtain ⟨claims, haccepted, _⟩ := (verifyTctAsIssuer_eq_ok P).mp h
    obtain ⟨token, hfound, _, _, hsigned⟩ := haccepted.signed
    obtain rfl := Option.some.inj (ht.symm.trans hfound)
    obtain rfl := hsigned.claims_unique P hcarries
    obtain ⟨sub, raw, hparse, htagged⟩ := (presenterOf_signed P he haccepted.presenter).2
    obtain rfl := Except.ok.inj (hsub.symm.trans hparse)
    exact htagged.rule
  | pinnedProof ht hsender =>
    left
    obtain ⟨_, sender, hproven⟩ := verifyPinnedKey_proven P (verifyIdentity_pinned P ht h)
    obtain ⟨_, _, hsig⟩ := hproven.signed
    obtain rfl := Except.ok.inj (hsender.symm.trans hproven.parses)
    exact hsig.rule P
  | x509Proof ht hsvid hchain hleaf =>
    left
    obtain ⟨raw, htagged⟩ := verifyIdentity_x509 P ht hsvid hchain hleaf h
    exact htagged.rule
  | helloEnvelope hm ht hsender =>
    left
    obtain ⟨r, h⟩ := h
    obtain ⟨man, descriptor, key, haccepted⟩ := hm.hello P ht h
    obtain rfl := Except.ok.inj (hsender.symm.trans haccepted.senderKey)
    exact haccepted.envelopeSigned.rule P

/-- In an accepting run every signature obeys the tag rule exactly when the round-2 proofs
it judges are plainly tagged. -/
theorem tagRule_iff (call : Call)
    (hlib : ∀ key sig message, P.ed25519Verify key sig message = true → sig.length = 64) (h : call.Accepts P) :
    (∀ sig alg, call.Verified P sig alg → TagRule sig alg) ↔
      ∀ inp now, call = .handshakePayload inp now → ∀ pop sender, JudgedPop P inp pop sender →
        PlainlyTagged pop sender.alg := by
  constructor
  · rintro hall inp now rfl pop sender hj
    exact (hall _ _ ⟨_, .refl, .commitPop hj⟩).plainlyTagged
  · intro hall sig alg hverified
    obtain ⟨inner, hr, hv⟩ := hverified
    have hinner := Call.accepts_of_runs P hr h
    cases hv.rule P hinner with
    | inl hrule => exact hrule
    | inr hpop =>
      obtain ⟨inp, now, pop, sender, rfl, hj, rfl, rfl⟩ := hpop
      obtain ⟨r, hinner⟩ := hinner
      exact hj.rule P hlib hinner (hall inp now (Call.eq_of_runs_handshake P hr) pop sender hj)

/-- A recording verifies signatures of the length of its entries only. -/
theorem Recording.length_of_genuine {recording : Recording} {n : Nat}
    (h : ∀ entry ∈ recording.signatures, (octetsOf entry.signature).length = n) {key sig message : Bytes}
    (hg : recording.platform.ed25519Verify key sig message = true) : sig.length = n := by
  obtain ⟨entry, hm, hentry⟩ := List.any_eq_true.mp hg
  simp only [Bool.and_eq_true, beq_iff_eq] at hentry
  rw [← hentry.1.2]
  exact h entry hm

/-- The commit of agent A, its proof untagged. -/
theorem tagRule_iff_commit :
    (∀ sig alg, (Call.handshakePayload (commitInput honestCommit) referenceClock).Verified commitRecording.platform sig alg →
        TagRule sig alg) ↔
      ∀ inp now, Call.handshakePayload (commitInput honestCommit) referenceClock = .handshakePayload inp now →
        ∀ pop sender, JudgedPop commitRecording.platform inp pop sender → PlainlyTagged pop sender.alg :=
  tagRule_iff commitRecording.platform (.handshakePayload (commitInput honestCommit) referenceClock)
    (fun _ _ _ h => Recording.length_of_genuine (by decide +kernel) h)
    ⟨[(txt "grants", .list [.str (txt "read")])], by decide +kernel⟩

/-- Agent A's commit with a tag that names no algorithm of the protocol. -/
def foreignCommit : Members :=
  commitEnvelope agentA [(txt "pop_signature", .str (txt "rsa." ++ popByA))] commitSignature

/-- The proof of that commit is judged under agent A's key. -/
theorem foreignCommit_judged : ∃ sender, sender.alg = .ed25519 ∧
    JudgedPop commitRecording.platform (commitInput foreignCommit) (txt "rsa." ++ popByA) sender := by
  have hparse : ∃ sender : Aid, sender.alg = .ed25519 ∧ parseAid commitRecording.platform (aidOf agentA) = .ok sender :=
    ⟨⟨aidOf agentA, .ed25519, octetsOf agentA, .ed25519 (octetsOf agentA)⟩, rfl, by decide +kernel⟩
  obtain ⟨sender, halg, hparse⟩ := hparse
  exact ⟨sender, halg, commitInput foreignCommit, foreignCommit.get (txt "payload"), .str (aidOf agentA), aidOf agentA,
    .message ⟨rfl, rfl⟩ (by decide), by decide, by decide, by decide +kernel, rfl, hparse⟩

/-- The exchange is accepted, although the signature it verified breaks the rule. -/
theorem tagRule_broken : ∃ call : Call, call.Accepts commitRecording.platform ∧
    ∃ sig alg, call.Verified commitRecording.platform sig alg ∧ ¬ TagRule sig alg := by
  obtain ⟨sender, halg, hj⟩ := foreignCommit_judged
  refine ⟨.handshakePayload (commitInput foreignCommit) referenceClock,
    ⟨[(txt "grants", .list [.str (txt "read")])], by decide +kernel⟩, _, _, ⟨_, .refl, .commitPop hj⟩, ?_⟩
  intro hrule
  obtain ⟨body, hpoint, hform⟩ := hrule.plainlyTagged
  have hin : (0x2E : CodePoint) ∈ txt "rsa." ++ popByA := by decide
  cases hform with
  | inl h =>
    rw [h.1] at hin
    exact hpoint hin
  | inr h =>
    -- the tags differ in their first character
    rw [halg] at h
    have hhead : some (0x72 : CodePoint) = some 0x65 := congrArg List.head? h
    exact absurd hhead (by decide)

end AitpVerifier
