import AitpVerifier.Minter
import AitpVerifier.OnlyDefect
import AitpVerifier.StrictSignatures

/-!
# Documents the minter signs

The minter signs an envelope, a Manifest, a session bundle and a revocation snapshot over
what their verifiers hash. Under the key a document names its signer by, the signature
passes, so the verdict is the one of the remaining checks.
-/
namespace AitpVerifier

open PyText Checked

variable (P : Platform)

/-! ### What the library signs, the verifier accepts -/

/-- What the library documents of ECDSA: the two integers of a signature lie between zero
and the order, and they verify as they are and with the second one negated. -/
def EcdsaSigns (x y : Nat) (prehashed : Bool) (sign : Bytes → Nat × Nat) : Prop :=
  ∀ data, (0 < (sign data).1 ∧ (sign data).1 < p256N) ∧ (0 < (sign data).2 ∧ (sign data).2 < p256N) ∧
    ∀ s ∈ [(sign data).2, p256N - (sign data).2],
      P.ecdsaVerify .p256 x y .sha256 prehashed (P.encodeDssSignature (sign data).1 s) data = true

/-- What the library documents of a key pair. An Ed25519 signature has 64 octets and
verifies, an ECDSA signature of a message or of a digest does too. -/
def SignsFor (key : PrivateKey) (publicKey : AgentKey) : Prop :=
  match key, publicKey with
  | .ed25519 _ sign, .ed25519 raw => ∀ data, (sign data).length = 64 ∧ P.ed25519Verify raw (sign data) data = true
  | .p256 _ sign signPrehashed, .p256 x y => EcdsaSigns P x y false sign ∧ EcdsaSigns P x y true signPrehashed
  | _, _ => False

/-- Each identifier of the table stands beside the key it designates. -/
def TrueKeys (keys : KatKeys) : Prop :=
  ∀ text key aid, keys.lookup text = some key → parseAid P text = .ok aid → SignsFor P key aid.publicKey

variable {P}

theorem lowForm_mem {n s : Nat} : lowForm n s ∈ [s, n - s] := by
  rw [lowForm]
  split <;> simp

/-- The raw form of an ECDSA signature is taken, and it verifies. -/
theorem EcdsaSigns.verifies {x y : Nat} {prehashed : Bool} {sign : Bytes → Nat × Nat} (h : EcdsaSigns P x y prehashed sign)
    (data : Bytes) : ∃ raw der, p256DerToRaw (sign data).1 (sign data).2 = .ok raw ∧ raw.length = 64 ∧
      p256RawToDer P raw false = .ok der ∧ P.ecdsaVerify .p256 x y .sha256 prehashed der data = true := by
  obtain ⟨hr, hs, hverify⟩ := h data
  refine ⟨_, _, p256DerToRaw_eq hr.2 hs.2, rawOf_length _ _, ?_, hverify _ lowForm_mem⟩
  have hfits := p256N_fits
  have hlow : lowForm p256N (sign data).2 ≤ p256N := by
    rw [lowForm]
    split <;> omega
  obtain ⟨hfirst, hsecond⟩ := intFromBytes_rawOf (hr.2.trans hfits) (hlow.trans_lt hfits)
  obtain ⟨der, hder⟩ := isOk_iff.mp (lowForm_accepted P hr hs)
  rw [hder]
  simp only [p256RawToDer, bind_eq_ok, exists_unit, Except.ok.injEq, hfirst, hsecond] at hder
  rw [hder.2.2.2]

/-- What is signed of a digest has 64 octets and verifies. -/
theorem SignsFor.verifies {key : PrivateKey} {publicKey : AgentKey} (h : SignsFor P key publicKey) (digest : Bytes) :
    ∃ raw, signDigest key digest = .ok raw ∧ raw.length = 64 ∧ verifyDigest P publicKey digest raw = true := by
  cases key with
  | ed25519 own sign =>
    cases publicKey with
    | ed25519 raw => exact ⟨_, rfl, h digest⟩
    | p256 => exact h.elim
  | p256 own sign signPrehashed =>
    cases publicKey with
    | ed25519 => exact h.elim
    | p256 x y =>
      obtain ⟨raw, der, hraw, hlength, hder, hverify⟩ := h.2.verifies digest
      refine ⟨raw, hraw, hlength, ?_⟩
      rw [verifyDigest, hder]
      exact hverify

/-- What is signed of a token has 64 octets and verifies. -/
theorem SignsFor.verifiesJose {key : PrivateKey} {publicKey : AgentKey} (h : SignsFor P key publicKey) (message : Bytes) :
    ∃ raw, signJose key message = .ok raw ∧ raw.length = 64 ∧ verifyJose P (.agent publicKey) message raw false = true := by
  cases key with
  | ed25519 own sign =>
    cases publicKey with
    | ed25519 raw => exact ⟨_, rfl, h message⟩
    | p256 => exact h.elim
  | p256 own sign signPrehashed =>
    cases publicKey with
    | ed25519 => exact h.elim
    | p256 x y =>
      obtain ⟨raw, der, hraw, hlength, hder, hverify⟩ := h.1.verifies message
      refine ⟨raw, hraw, hlength, ?_⟩
      rw [verifyJose, hder]
      exact hverify

theorem SignsFor.alg {key : PrivateKey} {publicKey : AgentKey} (h : SignsFor P key publicKey) : key.alg = publicKey.alg := by
  cases key <;> cases publicKey <;> first | rfl | exact h.elim

theorem fromRaw_alg {alg : KeyAlg} {raw : Bytes} {key : AgentKey} (h : fromRaw P alg raw = .ok key) : key.alg = alg := by
  cases alg with
  | ed25519 =>
    simp only [fromRaw, bind_eq_ok, exists_unit, Except.ok.injEq] at h
    rw [← h.2]
    rfl
  | p256 =>
    simp only [fromRaw, bind_eq_ok, exists_unit] at h
    obtain ⟨_, hkey⟩ := h
    cases hpoint : P.p256Point? raw with
    | some point =>
      rw [hpoint] at hkey
      rw [← Except.ok.inj hkey]
      rfl
    | none =>
      rw [hpoint] at hkey
      cases hkey

theorem splitTag_untagged (data : Bytes) : splitTag (b64urlEncode data) = (txt "ed25519", b64urlEncode data) := by
  rw [splitTag, if_neg]
  simpa using b64urlEncode_no_dot data

theorem splitTag_tagged (data : Bytes) : splitTag (txt "p256." ++ b64urlEncode data) = (txt "p256", b64urlEncode data) := by
  have htag : txt "p256." = txt "p256" ++ [0x2E] := by decide
  have hfree : (0x2E : CodePoint) ∉ txt "p256" := by decide
  rw [splitTag, htag, List.append_assoc, List.singleton_append, if_pos (by simp), partition_append hfree]

/-- A minted signature field decodes under its signer's tag rule and verifies. -/
theorem envWireSig_verifies {key : PrivateKey} {text : Text} {aid : Aid} (hparse : parseAid P text = .ok aid)
    (h : SignsFor P key aid.publicKey) (digest : Bytes) :
    ∃ sig, envWireSig key digest = .ok sig ∧ FieldVerifies P aid (.str sig) digest := by
  obtain ⟨raw, hsign, hlength, hverify⟩ := h.verifies digest
  have halg : key.alg = aid.alg := h.alg.trans (fromRaw_alg ((parseAid_eq_ok P).mp hparse).2.2.2.2)
  refine ⟨(if key.alg = .p256 then txt "p256." else []) ++ b64urlEncode raw, ?_, raw, ⟨_, rfl, ?_⟩, hverify⟩
  · rw [envWireSig, hsign]
    rfl
  · cases hkey : key.alg with
    | ed25519 =>
      rw [if_neg (by decide), List.nil_append, splitTag_untagged, b64urlDecode_encode, ← halg, hkey]
      exact ⟨rfl, rfl, hlength⟩
    | p256 =>
      rw [if_pos rfl, splitTag_tagged, b64urlDecode_encode, ← halg, hkey]
      exact ⟨rfl, rfl, hlength⟩

/-! ### Documents signed by the table -/

theorem without_insert (obj : Members) (key : Text) (value : JsonValue) : (obj.insert key value).without key = obj.without key := by
  induction obj with
  | nil => simp [Members.insert, Members.without]
  | cons member rest ih =>
    obtain ⟨k, v⟩ := member
    by_cases hk : k = key
    · simp [Members.insert, Members.without, hk]
    · rw [Members.insert, if_neg hk]
      simp only [Members.without, List.filter_cons] at ih ⊢
      rw [ih]

theorem item_dict_eq_ok {value found : JsonValue} {key : Text} :
    value.item key = .ok found ↔ ∃ members, value = .dict members ∧ Members.get? members key = some found := by
  cases value <;> simp [JsonValue.item, Members.index_eq_ok]

theorem katItem_eq_ok {keys : KatKeys} {value : JsonValue} {key : PrivateKey} :
    keys.item P value = .ok key ↔ ∃ text, value = .str text ∧ keys.lookup text = some key := by
  simp only [KatKeys.item, bind_eq_ok, exists_unit, raiseIf_eq_ok, Bool.not_eq_false']
  cases value with
  | str text =>
    simp only [JsonValue.hashable, true_and, JsonValue.str.injEq, exists_eq_left', KatKeys.index]
    cases keys.lookup text <;> simp
  | _ => simp [bind_eq_ok]

section

variable {keys : KatKeys} (hkeys : TrueKeys P keys)

include hkeys

/-- A field signed with the key of an identifier verifies under the identifier. -/
theorem TrueKeys.fieldVerifies {text sig : Text} {key : PrivateKey} {aid : Aid} {digest : Bytes}
    (hkey : keys.lookup text = some key) (hparse : parseAid P text = .ok aid) (hsig : envWireSig key digest = .ok sig) :
    FieldVerifies P aid (.str sig) digest := by
  obtain ⟨minted, hminted, hverifies⟩ := envWireSig_verifies hparse (hkeys text key aid hkey hparse) digest
  rwa [← Except.ok.inj (hminted.symm.trans hsig)]

theorem signEnvelope_signed {env signed : Members} (h : signEnvelope P keys env = .ok signed) {aid : Aid}
    (hparse : parseAid P (senderAgentId env).text = .ok aid) : EnvelopeSigned P signed aid := by
  simp only [signEnvelope, bind_eq_ok, Members.index_eq_ok, item_dict_eq_ok, katItem_eq_ok, Except.ok.injEq] at h
  obtain ⟨sender, hsender, agentId, ⟨members, rfl, hagent⟩, input, hinput, key, ⟨text, rfl, hkey⟩, sig, hsig, rfl⟩ := h
  have hid : senderAgentId env = .str text := by
    rw [senderAgentId, Members.get_of_get? hsender]
    exact Members.get_of_get? hagent
  rw [hid] at hparse
  refine ⟨input, ?_, ?_⟩
  · rw [envelopeSigningInput, without_insert]
    exact hinput
  · rw [Members.get_insert_self]
    exact hkeys.fieldVerifies hkey hparse hsig

/-- The signature of a body signed over the rest of it. -/
theorem TrueKeys.bodySigned {body : Members} {octets : Bytes} {text sig : Text} {key : PrivateKey} {aid : Aid}
    (hoctets : Jcs.canonicalize (.dict (body.without (txt "signature"))) = .ok octets) (hkey : keys.lookup text = some key)
    (hparse : parseAid P text = .ok aid) (hsig : envWireSig key (P.sha256 octets) = .ok sig) :
    BodySigned P (body.insert (txt "signature") (.str sig)) aid := by
  refine ⟨octets, ?_, ?_⟩
  · rw [without_insert]
    exact hoctets
  · rw [Members.get_insert_self]
    exact hkeys.fieldVerifies hkey hparse hsig

theorem signBundle_signed {body signed : Members} (hplaceholder : body.get (txt "signature") = .str (txt "__VALID_A_SIG__"))
    (h : signBundle P keys body = .ok signed) {coord : Aid} (hparse : parseAid P (body.get (txt "coordinator")).text = .ok coord) :
    BodySigned P signed coord := by
  rw [signBundle, if_pos (by rw [hplaceholder, JsonValue.eq_str])] at h
  simp only [bind_eq_ok, Members.index_eq_ok, katItem_eq_ok, Except.ok.injEq] at h
  obtain ⟨value, hcoordinator, key, ⟨text, rfl, hkey⟩, octets, hoctets, sig, hsig, rfl⟩ := h
  rw [Members.get_of_get? hcoordinator] at hparse
  exact hkeys.bodySigned hoctets hkey hparse hsig

omit hkeys in
theorem signBundle_kept {body signed : Members} (h : signBundle P keys body = .ok signed) {key : Text} (hkey : key ≠ txt "signature") :
    signed.get? key = body.get? key := by
  unfold signBundle at h
  split at h
  · simp only [bind_eq_ok, Except.ok.injEq] at h
    obtain ⟨_, _, _, _, _, _, _, _, rfl⟩ := h
    rw [Members.get?_insert, if_neg (Ne.symm hkey)]
  · rw [Except.ok.inj h]

/-- A signed proof of possession, in place of its placeholder. -/
theorem signPossession_proven {pop : Members} {text : Text} {key : PrivateKey} {aid : Aid} {signed : JsonValue}
    (hplaceholder : pop.get (txt "signature") = .str (txt "__VALID_POP_SIG__")) (hkey : keys.lookup text = some key)
    (hparse : parseAid P text = .ok aid) (h : signPossession P key (.dict pop) = .ok signed) :
    ∃ sig challenge, signed = .dict (pop.insert (txt "signature") (.str sig)) ∧
      b64urlDecode (pop.get (txt "challenge")).text = .ok challenge ∧ FieldVerifies P aid (.str sig) (P.sha256 challenge) := by
  have htruthy : (JsonValue.dict pop).truthy = true := by
    cases pop with
    | nil => cases hplaceholder
    | cons => rfl
  have hsignature : (JsonValue.dict pop).attrGet (txt "signature") .null = .ok (.str (txt "__VALID_POP_SIG__")) := by
    rw [← hplaceholder]
    rfl
  simp only [signPossession, htruthy, Bool.not_true, Bool.false_eq_true, if_false, hsignature, ok_bind] at h
  rw [if_pos ((JsonValue.eq_str _ _).mpr rfl)] at h
  simp only [bind_eq_ok, item_dict_eq_ok, JsonValue.dict.injEq, exists_eq_left', JsonValue.b64urlDecode_eq_ok,
    Except.ok.injEq] at h
  obtain ⟨value, hvalue, octets, ⟨s, rfl, hdecode⟩, sig, hsig, rfl⟩ := h
  refine ⟨sig, octets, rfl, ?_, hkeys.fieldVerifies hkey hparse hsig⟩
  rw [Members.get_of_get? hvalue]
  exact hdecode

end

/-- A Manifest the minter signs twice: the challenge, then the whole. -/
structure ManifestPlaceholders (man pop : Members) : Prop where
  possession : man.get? (txt "proof_of_possession") = some (.dict pop)
  challenge : pop.get (txt "signature") = .str (txt "__VALID_POP_SIG__")
  signature : man.get (txt "signature") = .str (txt "__VALID_MANIFEST_SIG__")

/-- A signed Manifest proves possession and is signed, and names the same `aid`. -/
theorem signManifest_signed {keys : KatKeys} (hkeys : TrueKeys P keys) {man pop signed : Members}
    (hplaceholders : ManifestPlaceholders man pop) (h : signManifest P keys man = .ok signed) :
    signed.get (txt "aid") = man.get (txt "aid") ∧ ∀ aid, parseAid P (man.get (txt "aid")).text = .ok aid →
      PossessionProven P signed aid ∧ BodySigned P signed aid := by
  simp only [signManifest, bind_eq_ok, exists_unit, python_eq_ok, Members.index_eq_ok] at h
  obtain ⟨value, haid, _, h⟩ := h
  rw [Members.get_of_get? haid]
  split at h
  · rename_i key hstr hkey
    simp only [bind_eq_ok, python_eq_ok, signManifestPossession, hplaceholders.possession,
      Except.ok.injEq] at h
    obtain ⟨_, ⟨proven, hproven, rfl⟩, h⟩ := h
    rw [signManifestBody, Members.get_insert_of_ne (by decide), hplaceholders.signature] at h
    have hvalid : (JsonValue.str (txt "__VALID_MANIFEST_SIG__")).eq (.str (txt "__VALID_MANIFEST_SIG__")) = true := by decide
    have hother : (JsonValue.str (txt "__VALID_MANIFEST_SIG__")).eq (.str (txt "__TAMPERED_SIGNATURE__")) = false := by decide
    simp only [hvalid, hother, Bool.or_false, if_true, Bool.false_eq_true, if_false, bind_eq_ok, Except.ok.injEq,
      exists_eq_left'] at h
    obtain ⟨octets, hoctets, sig, hsig, rfl⟩ := h
    refine ⟨?_, fun aid hparse => ?_⟩
    · rw [Members.get_insert_of_ne (by decide), Members.get_insert_of_ne (by decide)]
      exact Members.get_of_get? haid
    · obtain ⟨popSig, challenge, rfl, hchallenge, hverifies⟩ :=
        signPossession_proven hkeys hplaceholders.challenge hkey hparse hproven
      refine ⟨⟨challenge, ?_, ?_⟩, hkeys.bodySigned hoctets hkey hparse hsig⟩
      · rw [Members.get_insert_of_ne (by decide), Members.get_insert_self, JsonValue.members,
          Members.get_insert_of_ne (by decide)]
        exact hchallenge
      · rw [Members.get_insert_of_ne (by decide), Members.get_insert_self, JsonValue.members, Members.get_insert_self]
        exact hverifies
  · simp [bind_eq_ok] at h

theorem signRevocation_signed {keys : KatKeys} (hkeys : TrueKeys P keys) {snapshot signed body : Members}
    (hlist : snapshot.get? (txt "revocation_list") = some (.dict body))
    (hplaceholder : (snapshot.get (txt "signature")).isIn (snapshotPlaceholders.map .str))
    (h : signRevocation P keys snapshot = .ok signed) :
    ∃ octets sig, Jcs.canonicalize (.dict body) = .ok octets ∧ signed = snapshot.insert (txt "signature") (.str sig) ∧
      ∀ issuer, parseAid P (body.get (txt "issuer")).text = .ok issuer →
        FieldVerifies P issuer (.str sig) (P.sha256 octets) := by
  rw [signRevocation, hplaceholder, Bool.not_true, if_neg Bool.false_ne_true] at h
  simp only [bind_eq_ok, Members.index_eq_ok, hlist, Option.some.injEq, exists_eq_left', item_dict_eq_ok,
    JsonValue.dict.injEq, katItem_eq_ok, Except.ok.injEq] at h
  obtain ⟨value, hissuer, key, ⟨text, rfl, hkey⟩, octets, hoctets, sig, hsig, rfl⟩ := h
  refine ⟨octets, sig, hoctets, rfl, fun issuer hparse => ?_⟩
  rw [Members.get_of_get? hissuer] at hparse
  exact hkeys.fieldVerifies hkey hparse hsig

/-! ### What is left of the verdicts -/

variable (P)

/-- What a Manifest satisfies but for its two signatures. -/
structure ManifestStanding (inp : Members) (now : Int) (body : Members) : Prop where
  structured : ManifestStructured P inp now body
  known : ∀ key ∈ body.names, key ∈ manifestFields
  popKnown : ∀ key ∈ (body.get (txt "proof_of_possession")).members.names, key ∈ popFields
  hintKnown : ∀ key ∈ (body.get (txt "identity_hint")).members.names, key ∈ identityHintFields
  live : ∃ clock, P.toInt ((inp.get? (txt "now")).getD (.int now)) = .ok clock ∧
    clock < (body.get (txt "expires_at")).intValue
  key : ∃ aid, parseAid P (body.get (txt "aid")).text = .ok aid

/-- What a snapshot satisfies but for its signature. -/
structure SnapshotStanding (snapshot body : Members) : Prop where
  shape : RevocationBody body
  known : ∀ key ∈ snapshot.names, key ∈ snapshotFields
  bodyKnown : ∀ key ∈ body.names, key ∈ revocationBodyFields
  entriesKnown : ∀ entry ∈ (body.get (txt "entries")).items, ∀ key ∈ entry.members.names, key ∈ entryFields
  issuer : ∃ issuer, parseAid P (body.get (txt "issuer")).text = .ok issuer

variable {P}

theorem manifestAccepted_iff {inp body : Members} {now : Int} {aid : Aid} : ManifestAccepted P inp now body aid ↔
    ManifestStanding P inp now body ∧ parseAid P (body.get (txt "aid")).text = .ok aid ∧ PossessionProven P body aid ∧
      BodySigned P body aid := by
  constructor
  · intro h
    obtain ⟨clock, hclock, hlive⟩ := h.live
    exact ⟨⟨⟨h.shaped, h.popShaped, h.hintShaped, ⟨clock, hclock⟩, h.version, h.grammar, h.hint⟩, h.known, h.popKnown,
      h.hintKnown, ⟨clock, hclock, hlive⟩, ⟨aid, h.key⟩⟩, h.key, h.possession, h.signed⟩
  · rintro ⟨hstanding, hkey, hpossession, hsigned⟩
    have hs := hstanding.structured
    exact ⟨hs.shaped, hs.popShaped, hs.hintShaped, hs.version, hs.grammar, hs.hint, hstanding.known, hstanding.popKnown,
      hstanding.hintKnown, hstanding.live, hkey, hpossession, hsigned⟩

theorem verifySnapshotTrust_eq_ok {wrapper body trusted : Members} (hlist : wrapper.get (txt "revocation_list") = .dict body) :
    verifySnapshotTrust P (.dict wrapper) = .ok trusted ↔ SnapshotStanding P wrapper body ∧ SnapshotShape wrapper body ∧
      trusted = body ∧ ∃ issuer octets, parseAid P (body.get (txt "issuer")).text = .ok issuer ∧
        Jcs.canonicalize (.dict body) = .ok octets ∧ FieldVerifies P issuer (wrapper.get (txt "signature")) (P.sha256 octets) := by
  simp only [verifySnapshotTrust, bind_eq_ok, exists_unit, decodeTaggedSignature, onValueError_eq_ok,
    decodeTaggedSignatureFor_eq_ok, canonicalBytes_eq_ok, raiseIf_eq_ok, Bool.not_eq_false', Except.ok.injEq,
    Prod.exists, validateSnapshotShape_iff, rejectUnknownFields_eq_ok, forEach_eq_ok, JsonValue.dict.injEq,
    exists_eq_left']
  constructor
  · rintro ⟨found, list, ⟨rfl, hshape⟩, hknown, hbody, hentries, issuer, hissuer, raw, hraw, octets, hoctets, hverifies, rfl⟩
    obtain rfl := JsonValue.dict.inj (hlist.symm.trans hshape.list)
    refine ⟨⟨hshape.body, hknown, hbody, ?_, ⟨issuer, hissuer⟩⟩, hshape, rfl, issuer, octets, hissuer, hoctets, raw, hraw,
      hverifies⟩
    intro entry hm
    obtain ⟨members, rfl, hmembers⟩ := hentries entry hm
    exact hmembers
  · rintro ⟨hstanding, hshape, rfl, issuer, octets, hissuer, hoctets, raw, hraw, hverifies⟩
    refine ⟨wrapper, trusted, ⟨rfl, hshape⟩, hstanding.known, hstanding.bodyKnown, ?_, issuer, hissuer, raw, hraw, octets,
      hoctets, hverifies, rfl⟩
    intro entry hm
    obtain ⟨members, rfl, _⟩ := hstanding.shape.entries entry hm
    exact ⟨members, rfl, hstanding.entriesKnown _ hm⟩

/-- A snapshot signed by the table is trusted when the rest of it stands. -/
theorem signedSnapshot_trusted {keys : KatKeys} (hkeys : TrueKeys P keys) {snapshot signed body trusted : Members}
    (hlist : snapshot.get? (txt "revocation_list") = some (.dict body))
    (hplaceholder : (snapshot.get (txt "signature")).isIn (snapshotPlaceholders.map .str))
    (h : signRevocation P keys snapshot = .ok signed) :
    verifySnapshotTrust P (.dict signed) = .ok trusted ↔ SnapshotStanding P signed body ∧ trusted = body := by
  obtain ⟨octets, sig, hoctets, rfl, hverifies⟩ := signRevocation_signed hkeys hlist hplaceholder h
  have hlist' : (snapshot.insert (txt "signature") (.str sig)).get? (txt "revocation_list") = some (.dict body) := by
    rw [Members.get?_insert, if_neg (by decide)]
    exact hlist
  rw [verifySnapshotTrust_eq_ok (Members.get_of_get? hlist'), Members.get_insert_self]
  constructor
  · rintro ⟨hstanding, _, htrusted, _⟩
    exact ⟨hstanding, htrusted⟩
  · rintro ⟨hstanding, htrusted⟩
    obtain ⟨issuer, hissuer⟩ := hstanding.issuer
    refine ⟨hstanding, ⟨?_, ?_, Members.get_of_get? hlist', hstanding.shape⟩, htrusted, issuer, octets, hissuer, hoctets,
      hverifies issuer hissuer⟩
    · rw [snapshotFields, List.forall_mem_cons, List.forall_mem_singleton]
      refine ⟨by rw [Members.has, hlist']; rfl, ?_⟩
      rw [Members.has, Members.get?_insert, if_pos rfl]
      rfl
    · rw [Members.get_insert_self]
      rfl

/-! ### Bundles with their tokens minted -/

theorem get?_stripClaims {out : Members} {key : Text} (h : (txt "_claims").isSuffixOf key = false) :
    (stripClaims out).get? key = out.get? key := by
  induction out with
  | nil => rfl
  | cons member rest ih =>
    obtain ⟨name, value⟩ := member
    rw [stripClaims, List.filter_cons]
    split
    · rw [Members.get?, Members.get?, ← ih, stripClaims]
    · rename_i hout
      rw [Members.get?, if_neg, ← ih, stripClaims]
      rintro rfl
      simp [h] at hout

/-- The participant the wire holds: the token minted in its placeholder's place, and no claims beside it. -/
structure ParticipantMinted (mint : Text → JsonValue → MintM Text) (own minted : Members) : Prop where
  token : ∀ claims placeholder, own.get? (txt "tct_claims") = some claims → own.get (txt "tct") = .str placeholder →
    (jwsTokens.lookup placeholder).isSome → ∃ token, mint placeholder claims = .ok token ∧ minted.get? (txt "tct") = some (.str token)
  kept : ∀ key, key ≠ txt "tct" → (txt "_claims").isSuffixOf key = false → minted.get? key = own.get? key

theorem mintParticipant_minted {mint : Text → JsonValue → MintM Text} {own minted : Members}
    (h : mintParticipant mint own = .ok minted) : ParticipantMinted mint own minted := by
  unfold mintParticipant at h
  split at h
  · rename_i claims placeholder hclaims htct
    split at h
    · simp only [bind_eq_ok, Except.ok.injEq] at h
      obtain ⟨token, htoken, rfl⟩ := h
      constructor
      · intro claims' placeholder' hclaims' htct' _
        obtain rfl := Option.some.inj (hclaims.symm.trans hclaims')
        obtain rfl := JsonValue.str.inj (htct.symm.trans htct')
        exact ⟨token, htoken, by rw [get?_stripClaims (by decide), Members.get?_insert, if_pos rfl]⟩
      · intro key hkey hclaims
        rw [get?_stripClaims hclaims, Members.get?_insert, if_neg (Ne.symm hkey)]
    · rename_i hnone
      obtain rfl := Except.ok.inj h
      constructor
      · intro _ placeholder' _ htct' hsome
        obtain rfl := JsonValue.str.inj (htct.symm.trans htct')
        exact absurd hsome hnone
      · exact fun key _ hclaims => get?_stripClaims hclaims
  · rename_i hother
    obtain rfl := Except.ok.inj h
    exact ⟨fun claims placeholder hclaims htct _ => absurd htct (hother claims placeholder hclaims),
      fun key _ hclaims => get?_stripClaims hclaims⟩

/-- A minted bundle is the signed one, its participants minted first when it has any. -/
theorem mintBundle_signs {keys : KatKeys} {mint : Text → JsonValue → MintM Text} {body signed : Members}
    (h : mintBundle P keys mint body = .ok signed) : ∃ placed, signBundle P keys placed = .ok signed ∧
      (∀ key, key ≠ txt "participants" → placed.get? key = body.get? key) ∧
        ∀ entries, body.get? (txt "participants") = some (.list entries) → ∃ minted,
          placed.get? (txt "participants") = some (.list minted) ∧ List.Forall₂ (fun entry participant => ∃ own found,
            entry = .dict own ∧ participant = .dict found ∧ ParticipantMinted mint own found) entries minted := by
  rw [mintBundle] at h
  cases hparticipants : body.get? (txt "participants") with
  | none =>
    rw [hparticipants] at h
    exact ⟨body, python_eq_ok.mp h, fun _ _ => rfl, nofun⟩
  | some participants =>
    rw [hparticipants] at h
    simp only [bind_eq_ok, python_eq_ok, Except.ok.injEq] at h
    obtain ⟨entries, hentries, minted, hminted, _, rfl, h⟩ := h
    refine ⟨_, h, fun key hkey => by rw [Members.get?_insert, if_neg (Ne.symm hkey)], ?_⟩
    rintro items heq
    obtain rfl := Option.some.inj heq
    obtain rfl : items = entries := Except.ok.inj hentries
    refine ⟨minted, by rw [Members.get?_insert, if_pos rfl], (collect_eq_ok.mp hminted).imp fun entry participant hentry => ?_⟩
    cases entry with
    | dict own =>
      simp only [bind_eq_ok, Except.ok.injEq] at hentry
      obtain ⟨found, hfound, rfl⟩ := hentry
      exact ⟨own, found, rfl, rfl, mintParticipant_minted hfound⟩
    | null | bool | int | float | str | list => cases hentry

/-! ### The verdict of a signed document -/

theorem mintedEnvelope_verifies {keys : KatKeys} (hkeys : TrueKeys P keys) {env signed inp : Members} {tolerance : Int} {now : Int}
    {r : Members} (h : signEnvelope P keys env = .ok signed) (hinp : EnvelopeInput inp (.dict signed) tolerance) :
    verifyEnvelope P inp now = .ok r ↔ checkTimestampWindow (.dict signed) now tolerance = .ok () ∧ EnvelopeShape signed ∧
      (∃ aid, parseAid P (senderAgentId signed).text = .ok aid) ∧ okResult = r := by
  have hsender : senderAgentId signed = senderAgentId env := by
    simp only [signEnvelope, bind_eq_ok, Except.ok.injEq] at h
    obtain ⟨_, _, _, _, _, _, _, _, _, _, rfl⟩ := h
    rw [senderAgentId, Members.get_insert_of_ne (by decide), senderAgentId]
  rw [verifyEnvelope_eq_ok P hinp]
  refine and_congr_right fun _ => ?_
  constructor
  · rintro ⟨⟨found, hfound, hshape, aid, hparse, _⟩, hr⟩
    obtain rfl := JsonValue.dict.inj hfound
    exact ⟨hshape, ⟨aid, hparse⟩, hr⟩
  · rintro ⟨hshape, ⟨aid, hparse⟩, hr⟩
    exact ⟨⟨signed, rfl, hshape, aid, hparse, signEnvelope_signed hkeys h (hsender ▸ hparse)⟩, hr⟩

theorem mintedManifest_verifies {keys : KatKeys} (hkeys : TrueKeys P keys) {man pop signed inp : Members} {now : Int} {r : Members}
    (hplaceholders : ManifestPlaceholders man pop) (h : signManifest P keys man = .ok signed)
    (hman : inp.get? (txt "manifest") = some (.dict signed)) :
    verifyManifest P inp now = .ok r ↔ ManifestStanding P inp now signed ∧ [(txt "aid", man.get (txt "aid"))] = r := by
  obtain ⟨haid, hsigned⟩ := signManifest_signed hkeys hplaceholders h
  rw [verifyManifest_eq_ok]
  constructor
  · rintro ⟨body, aid, hbody, haccepted, hr⟩
    obtain rfl : signed = body := JsonValue.dict.inj (Option.some.inj (hman.symm.trans hbody))
    exact ⟨(manifestAccepted_iff.mp haccepted).1, haid ▸ hr⟩
  · rintro ⟨hstanding, hr⟩
    obtain ⟨aid, hparse⟩ := hstanding.key
    obtain ⟨hpossession, hbody⟩ := hsigned aid (haid ▸ hparse)
    exact ⟨signed, aid, hman, manifestAccepted_iff.mpr ⟨hstanding, hparse, hpossession, hbody⟩, haid ▸ hr⟩

theorem signedBundle_verifies {keys : KatKeys} (hkeys : TrueKeys P keys) {body signed : Members} {coord : Aid}
    (hplaceholder : body.get (txt "signature") = .str (txt "__VALID_A_SIG__")) (h : signBundle P keys body = .ok signed)
    (hparse : parseAid P (body.get (txt "coordinator")).text = .ok coord) : verifyBundleSignature P signed coord = .ok () := by
  rw [verifyBundleSignature_eq_ok]
  exact signBundle_signed hkeys hplaceholder h hparse

/-- A bundle is signed over the participants minted into it. -/
theorem mintedBundle_verifies {keys : KatKeys} (hkeys : TrueKeys P keys) {mint : Text → JsonValue → MintM Text}
    {body signed : Members} {coord : Aid} {entries : List JsonValue}
    (hplaceholder : body.get (txt "signature") = .str (txt "__VALID_A_SIG__"))
    (hentries : body.get? (txt "participants") = some (.list entries)) (h : mintBundle P keys mint body = .ok signed)
    (hparse : parseAid P (body.get (txt "coordinator")).text = .ok coord) : verifyBundleSignature P signed coord = .ok () ∧
      ∃ minted, signed.get? (txt "participants") = some (.list minted) ∧ List.Forall₂ (fun entry participant => ∃ own found,
        entry = .dict own ∧ participant = .dict found ∧ ParticipantMinted mint own found) entries minted := by
  obtain ⟨placed, hsigned, hkept, hparticipants⟩ := mintBundle_signs h
  have hsame {key : Text} (hkey : key ≠ txt "participants") : placed.get key = body.get key := by
    rw [Members.get, hkept key hkey, Members.get]
  rw [← hsame (by decide)] at hplaceholder hparse
  refine ⟨signedBundle_verifies hkeys hplaceholder hsigned hparse, ?_⟩
  obtain ⟨minted, hminted, hall⟩ := hparticipants entries hentries
  refine ⟨minted, ?_, hall⟩
  rw [signBundle_kept hsigned (by decide), hminted]

/-- What the minter signs with a table of true keys passes the signature step of its
verifier: an envelope, a Manifest and a snapshot are accepted when all else about them
stands, and a bundle's signature verifies under its coordinator, also where the tokens of
its participants are minted first. -/
theorem minted_documents_verify {keys : KatKeys} (hkeys : TrueKeys P keys) :
    (∀ env signed inp tolerance now r, signEnvelope P keys env = .ok signed → EnvelopeInput inp (.dict signed) tolerance →
      (verifyEnvelope P inp now = .ok r ↔ checkTimestampWindow (.dict signed) now tolerance = .ok () ∧ EnvelopeShape signed ∧
        (∃ aid, parseAid P (senderAgentId signed).text = .ok aid) ∧ okResult = r)) ∧
    (∀ man pop signed inp now r, ManifestPlaceholders man pop → signManifest P keys man = .ok signed →
      inp.get? (txt "manifest") = some (.dict signed) →
      (verifyManifest P inp now = .ok r ↔ ManifestStanding P inp now signed ∧ [(txt "aid", man.get (txt "aid"))] = r)) ∧
    (∀ snapshot body signed trusted, snapshot.get? (txt "revocation_list") = some (.dict body) →
      (snapshot.get (txt "signature")).isIn (snapshotPlaceholders.map .str) → signRevocation P keys snapshot = .ok signed →
      (verifySnapshotTrust P (.dict signed) = .ok trusted ↔ SnapshotStanding P signed body ∧ trusted = body)) ∧
    (∀ body signed coord, body.get (txt "signature") = .str (txt "__VALID_A_SIG__") → signBundle P keys body = .ok signed →
      parseAid P (body.get (txt "coordinator")).text = .ok coord → verifyBundleSignature P signed coord = .ok ()) ∧
    (∀ mint body signed coord entries, body.get (txt "signature") = .str (txt "__VALID_A_SIG__") →
      body.get? (txt "participants") = some (.list entries) → mintBundle P keys mint body = .ok signed →
      parseAid P (body.get (txt "coordinator")).text = .ok coord → verifyBundleSignature P signed coord = .ok () ∧
        ∃ minted, signed.get? (txt "participants") = some (.list minted) ∧ List.Forall₂ (fun entry participant => ∃ own found,
          entry = .dict own ∧ participant = .dict found ∧ ParticipantMinted mint own found) entries minted) := by
  refine ⟨?_, ?_, ?_, ?_, ?_⟩
  · intro env signed inp tolerance now r h hinp
    exact mintedEnvelope_verifies hkeys h hinp
  · intro man pop signed inp now r hplaceholders h hman
    exact mintedManifest_verifies hkeys hplaceholders h hman
  · intro snapshot body signed trusted hlist hplaceholder h
    exact signedSnapshot_trusted hkeys hlist hplaceholder h
  · intro body signed coord hplaceholder h hparse
    exact signedBundle_verifies hkeys hplaceholder h hparse
  · intro mint body signed coord entries hplaceholder hentries h hparse
    exact mintedBundle_verifies hkeys hplaceholder hentries h hparse

/-! ### The recorded agents sign -/

/-- What is recorded of a signer's, and octets of no signature beyond it. -/
def Recording.sign (r : Recording) (signer : Text) (data : Bytes) : Bytes :=
  ((r.signatures.find? fun s => s.signer == signer && s.message == data).map fun s => octetsOf s.signature).getD
    (List.replicate 64 0)

/-- The platform of a recording, which takes of each signer what that signer signs. -/
def Recording.signing (r : Recording) (signers : List Text) : Platform :=
  { r.platform with
    ed25519Verify := fun key signature message => signers.any fun signer => octetsOf signer == key && r.sign signer message == signature }

def Recording.keys (r : Recording) (signers : List Text) : KatKeys :=
  signers.map fun signer => (aidOf signer, .ed25519 (octetsOf signer) (r.sign signer))

theorem Recording.sign_length {r : Recording} (hlength : ∀ s ∈ r.signatures, (octetsOf s.signature).length = 64) (signer : Text)
    (data : Bytes) : (r.sign signer data).length = 64 := by
  rw [Recording.sign]
  cases hfound : r.signatures.find? fun s => s.signer == signer && s.message == data with
  | some s => exact hlength s (List.mem_of_find?_eq_some hfound)
  | none => exact List.length_replicate

theorem Recording.keys_lookup {r : Recording} {signers : List Text} {text : Text} {key : PrivateKey}
    (h : (r.keys signers).lookup text = some key) :
    ∃ signer ∈ signers, text = aidOf signer ∧ key = .ed25519 (octetsOf signer) (r.sign signer) := by
  obtain ⟨before, after, hsplit, _⟩ := List.lookup_eq_some_iff.mp h
  have hmem : (text, key) ∈ r.keys signers := by
    rw [hsplit]
    exact List.mem_append_right before List.mem_cons_self
  obtain ⟨signer, hsigner, heq⟩ := List.mem_map.mp hmem
  obtain ⟨rfl, rfl⟩ := Prod.mk.inj heq
  exact ⟨signer, hsigner, rfl, rfl⟩

theorem Recording.keys_sign {r : Recording} (hlength : ∀ s ∈ r.signatures, (octetsOf s.signature).length = 64)
    {signers : List Text} {text : Text} {key : PrivateKey} (h : (r.keys signers).lookup text = some key) : key.Signs := by
  obtain ⟨signer, _, _, rfl⟩ := Recording.keys_lookup h
  exact Recording.sign_length hlength signer

/-- Signers whose identifiers parse to their octets have true keys. -/
theorem Recording.keys_true {r : Recording} {signers : List Text}
    (hlength : ∀ s ∈ r.signatures, (octetsOf s.signature).length = 64)
    (hparse : ∀ signer ∈ signers, parseAid (r.signing signers) (aidOf signer) =
      .ok ⟨aidOf signer, .ed25519, octetsOf signer, .ed25519 (octetsOf signer)⟩) : TrueKeys (r.signing signers) (r.keys signers) := by
  intro text key aid hkey haid
  obtain ⟨signer, hsigner, rfl, rfl⟩ := Recording.keys_lookup hkey
  rw [← Except.ok.inj ((hparse signer hsigner).symm.trans haid)]
  intro data
  refine ⟨Recording.sign_length hlength signer data, List.any_eq_true.mpr ⟨signer, hsigner, ?_⟩⟩
  rw [Bool.and_eq_true_iff, beq_iff_eq, beq_iff_eq]
  exact ⟨rfl, rfl⟩

def recordedAgents : List Text := [agentA, agentB, agentC]

theorem delegationKeys_true : TrueKeys (delegationRecording.signing recordedAgents) (delegationRecording.keys recordedAgents) :=
  Recording.keys_true (by decide +kernel) (by decide +kernel)

/-- Agent A's empty deny list before it is signed. -/
def unsignedDenyList : Members := [(txt "revocation_list", .dict (emptyDenyList agentA)), (txt "signature", .str (txt "__VALID_A_SIG__"))]

/-- Signed, it is what agent A published, and it stands. -/
theorem minted_documents_verify_denyList :
    signRevocation (delegationRecording.signing recordedAgents) (delegationRecording.keys recordedAgents) unsignedDenyList =
      .ok (snapshotOf agentA snapshotSignatureA).members ∧
      SnapshotStanding (delegationRecording.signing recordedAgents) (snapshotOf agentA snapshotSignatureA).members
        (emptyDenyList agentA) := by
  have hsigned : signRevocation (delegationRecording.signing recordedAgents) (delegationRecording.keys recordedAgents)
      unsignedDenyList = .ok (snapshotOf agentA snapshotSignatureA).members := by decide +kernel
  have htrusted : verifySnapshotTrust (delegationRecording.signing recordedAgents)
      (.dict (snapshotOf agentA snapshotSignatureA).members) = .ok (emptyDenyList agentA) := by decide +kernel
  refine ⟨hsigned, ?_⟩
  exact (((minted_documents_verify delegationKeys_true).2.2.1 unsignedDenyList (emptyDenyList agentA) _ _ rfl (by decide)
    hsigned).mp htrusted).1

end AitpVerifier
