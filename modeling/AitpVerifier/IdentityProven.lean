import AitpVerifier.Participants

/-!
# What an accepted identity proves

Four procedures, one for each kind of proof. Each ends in a signature that
verified under a key the receiver trusts, over a statement that names this
sender, this receiver and this nonce.
-/
namespace AitpVerifier

open PyText Checked

variable (P : Platform)

/-! ### The algorithm of an issuer key is read off its structure -/

/-- The one header `alg` a key's structure allows. -/
def PublicKey.structuralAlg : PublicKey → Text
  | .agent (.ed25519 _) => txt "EdDSA"
  | .agent (.p256 ..) => txt "ES256"
  | .rsa .. => txt "RS256"

def IssuerKey.Structural (key : IssuerKey) : Prop := key.joseAlg = key.publicKey.structuralAlg

theorem fromRaw_ed25519 {raw : Bytes} {key : AgentKey} (h : fromRaw P .ed25519 raw = .ok key) : key = .ed25519 raw := by
  simp only [fromRaw, bind_eq_ok, exists_unit, Except.ok.injEq] at h
  exact h.2.symm

theorem fromRaw_p256 {raw : Bytes} {key : AgentKey} (h : fromRaw P .p256 raw = .ok key) : ∃ x y, key = .p256 x y := by
  simp only [fromRaw, bind_eq_ok, exists_unit] at h
  obtain ⟨_, h⟩ := h
  split at h
  · rename_i x y _
    exact ⟨x, y, (Except.ok.inj h).symm⟩
  · cases h

theorem fromRsaNumbers_rsa {n e : Bytes} {key : PublicKey} (h : fromRsaNumbers P n e = .ok key) :
    ∃ n e, key = .rsa n e := by
  simp only [fromRsaNumbers, bind_eq_ok, exists_unit, Except.ok.injEq] at h
  obtain ⟨_, _, _, _, _, rfl⟩ := h
  exact ⟨_, _, rfl⟩

theorem okpKey_structural {value : Members} {kid : Option Text} {key : IssuerKey} (h : okpKey P value kid = .ok key) :
    key.Structural := by
  simp only [okpKey, bind_eq_ok, exists_unit, Except.ok.injEq] at h
  obtain ⟨_, _, _, _, native, hn, rfl⟩ := h
  rw [fromRaw_ed25519 P hn]
  rfl

theorem ecKey_structural {value : Members} {kid : Option Text} {key : IssuerKey} (h : ecKey P value kid = .ok key) :
    key.Structural := by
  simp only [ecKey, bind_eq_ok, exists_unit, Except.ok.injEq] at h
  obtain ⟨_, _, _, _, _, _, _, rfl⟩ := h
  rfl

theorem rsaKey_structural {value : Members} {kid : Option Text} {key : IssuerKey} (h : rsaKey P value kid = .ok key) :
    key.Structural := by
  simp only [rsaKey, bind_eq_ok, Except.ok.injEq] at h
  obtain ⟨_, _, _, _, native, hn, rfl⟩ := h
  obtain ⟨n, e, rfl⟩ := fromRsaNumbers_rsa P hn
  rfl

theorem issuerKeyFromJwk_structural {value : JsonValue} {key : IssuerKey} (h : issuerKeyFromJwk P value = .ok key) :
    key.Structural := by
  cases value with
  | dict jwk =>
    simp only [issuerKeyFromJwk, bind_eq_ok] at h
    obtain ⟨kid, _, h⟩ := h
    split at h
    · exact okpKey_structural P h
    · split at h
      · exact ecKey_structural P h
      · split at h
        · exact rsaKey_structural P h
        · simp [bind_eq_ok] at h
  | _ => simp [issuerKeyFromJwk] at h

theorem issuerKeyFromConfig_structural {text : Text} {key : IssuerKey} (h : issuerKeyFromConfig P text = .ok key) :
    key.Structural := by
  unfold issuerKeyFromConfig at h
  split at h
  · simp only [bind_eq_ok, Except.ok.injEq] at h
    obtain ⟨_, _, native, hn, rfl⟩ := h
    rw [fromRaw_ed25519 P hn]
    rfl
  · split at h
    · simp only [bind_eq_ok, Except.ok.injEq] at h
      obtain ⟨_, _, native, hn, rfl⟩ := h
      obtain ⟨x, y, rfl⟩ := fromRaw_p256 P hn
      rfl
    · cases h

theorem appendCandidate_structural {out out' : List IssuerKey} {parse : PyM IssuerKey}
    (hparse : ∀ key, parse = .ok key → key.Structural) (hout : ∀ key ∈ out, key.Structural)
    (h : appendCandidate out parse = .ok out') : ∀ key ∈ out', key.Structural := by
  simp only [appendCandidate, bind_eq_ok, exists_unit, Except.ok.injEq] at h
  obtain ⟨_, key, hk, rfl⟩ := h
  intro found hm
  cases List.mem_append.mp hm with
  | inl hm => exact hout found hm
  | inr hm =>
    rw [List.mem_singleton.mp hm]
    exact hparse key hk

/-- What a step keeps, a walk over items keeps. -/
theorem walkItems_keeps {α β : Type} {step : α → β → PyM β} {Keeps : β → Prop} {items : List α} {acc acc' : β}
    (hstep : ∀ item acc acc', Keeps acc → step item acc = .ok acc' → Keeps acc') (hacc : Keeps acc)
    (h : walkItems step items acc = .ok acc') : Keeps acc' := by
  induction items generalizing acc with
  | nil =>
    rw [← Except.ok.inj h]
    exact hacc
  | cons item rest ih =>
    simp only [walkItems, bind_eq_ok] at h
    obtain ⟨next, hn, h⟩ := h
    exact ih (hstep item acc next hacc hn) h

/-- Every candidate the walk collects is structural: by induction on the room left. -/
theorem issuerKeysWalk_structural {room : Nat} {value : JsonValue} {walk walk' : Walk}
    (hw : ∀ key ∈ walk.1, key.Structural) (h : issuerKeysWalk P room value walk = .ok walk') :
    ∀ key ∈ walk'.1, key.Structural := by
  induction room generalizing value walk walk' with
  | zero =>
    obtain ⟨out, visits⟩ := walk
    simp [issuerKeysWalk, bind_eq_ok] at h
  | succ room ih =>
    obtain ⟨out, visits⟩ := walk
    simp only [issuerKeysWalk, bind_eq_ok] at h
    obtain ⟨visited, _, h⟩ := h
    cases value with
    | null =>
      rw [← Except.ok.inj h]
      exact hw
    | str text =>
      simp only [bind_eq_ok, Except.ok.injEq] at h
      obtain ⟨next, hn, rfl⟩ := h
      exact appendCandidate_structural (fun _ => issuerKeyFromConfig_structural P) hw hn
    | dict members =>
      simp only at h
      split at h
      · simp only [bind_eq_ok, Except.ok.injEq] at h
        obtain ⟨next, hn, rfl⟩ := h
        exact @walkItems_keeps _ _ _ (fun out : List IssuerKey => ∀ key ∈ out, key.Structural) _ _ _
          (fun _ _ _ hacc hs => appendCandidate_structural (fun _ => issuerKeyFromJwk_structural P) hacc hs) hw hn
      · cases h
      · simp only [bind_eq_ok, Except.ok.injEq] at h
        obtain ⟨next, hn, rfl⟩ := h
        exact appendCandidate_structural (fun _ => issuerKeyFromJwk_structural P) hw hn
    | list items =>
      exact @walkItems_keeps _ _ (issuerKeysWalk P room) (fun walk : Walk => ∀ key ∈ walk.1, key.Structural) _
        (out, visited) _ (fun _ _ _ hacc hs => ih hacc hs) hw h
    | _ => cases h

theorem issuerKeysFrom_structural {value : JsonValue} {candidates : List IssuerKey}
    (h : issuerKeysFrom P value = .ok candidates) : ∀ key ∈ candidates, key.Structural := by
  simp only [issuerKeysFrom, bind_eq_ok, Except.ok.injEq] at h
  obtain ⟨walk, hwalk, rfl⟩ := h
  exact issuerKeysWalk_structural P (by simp) hwalk

/-! ### The key a header names -/

/-- The one candidate of the header's `kid`, or the only candidate when it has none. -/
def SelectedKey (candidates : List IssuerKey) (kid : JsonValue) (key : IssuerKey) : Prop :=
  (kid = .null ∧ candidates = [key]) ∨
    ∃ text, kid = .str text ∧ candidates.filter (fun c => c.kid == some text) = [key]

theorem isNull_iff {value : JsonValue} : value.isNull = true ↔ value = .null := by
  cases value <;> simp [JsonValue.isNull]

/-- Only a string names a candidate. -/
theorem kidMatches_iff {own : Option Text} {kid : JsonValue} :
    ((own.map JsonValue.str).any (fun k => k.eq kid)) = true ↔ ∃ text, kid = .str text ∧ own = some text := by
  cases own with
  | none => simp
  | some text => simp [JsonValue.str_eq]

theorem selectIssuerKey_eq_ok {candidates : List IssuerKey} {kid : JsonValue} {key : IssuerKey}
    (h : selectIssuerKey P candidates kid = .ok key) : SelectedKey candidates kid key := by
  unfold selectIssuerKey at h
  split at h
  · rename_i hnull
    split at h
    · left
      exact ⟨isNull_iff.mp hnull, by rw [Except.ok.inj h]⟩
    · cases h
  · split at h
    · rename_i found hfound
      obtain rfl := Except.ok.inj h
      have hmem : found ∈ candidates.filter (fun c => (c.kid.map JsonValue.str).any (fun k => k.eq kid)) := by
        rw [hfound]
        exact List.mem_singleton.mpr rfl
      obtain ⟨text, rfl, _⟩ := kidMatches_iff.mp (List.mem_filter.mp hmem).2
      refine .inr ⟨text, rfl, ?_⟩
      rw [← hfound]
      apply List.filter_congr
      intro c _
      rw [Bool.eq_iff_iff, kidMatches_iff]
      simp
    · simp [bind_eq_ok] at h

theorem SelectedKey.mem {candidates : List IssuerKey} {kid : JsonValue} {key : IssuerKey}
    (h : SelectedKey candidates kid key) : key ∈ candidates := by
  cases h with
  | inl h =>
    rw [h.2]
    exact List.mem_singleton.mpr rfl
  | inr h =>
    obtain ⟨text, _, hf⟩ := h
    have hmem : key ∈ candidates.filter (fun c => c.kid == some text) := by
      rw [hf]
      exact List.mem_singleton.mpr rfl
    exact (List.mem_filter.mp hmem).1

/-! ### The claims of an identity token -/

/-- Claims bound to this message: subject, lifetime, nonce, and the sender's key. -/
structure ClaimsBound (claims identity env : Members) (now : Int) : Prop where
  subject : (claims.get (txt "sub")).eq (identity.get (txt "subject"))
  expires : ∃ exp, claims.get (txt "exp") = .int exp ∧ now < exp
  issued : ∃ iat, claims.get (txt "iat") = .int iat ∧ |now - iat| ≤ 300
  nonceSent : (env.get (txt "payload")).members.get (txt "pop_nonce") ≠ .null
  nonce : (claims.get (txt "nonce")).eq ((env.get (txt "payload")).members.get (txt "pop_nonce"))
  confirmed : ∃ sender, parseAid P (senderAgentId env).text = .ok sender ∧
    (claims.get (txt "cnf")).members.get (txt "jkt") = .str (thumbprint P sender)

theorem freshIat_iff {iat : JsonValue} {now : Int} :
    Spiffe.freshIat iat now = true ↔ ∃ i, iat = .int i ∧ |now - i| ≤ 300 := by
  cases iat <;> simp [Spiffe.freshIat]

theorem nonceMatches_iff {nonce popNonce : JsonValue} :
    Spiffe.nonceMatches nonce popNonce = true ↔ nonce ≠ .null ∧ popNonce ≠ .null ∧ nonce.eq popNonce := by
  simp only [Spiffe.nonceMatches, Bool.and_eq_true, Bool.not_eq_true', ← Bool.not_eq_true, isNull_iff, and_assoc, ne_eq]

/-- A proof that parses is the descriptor's own member. -/
theorem parsesTo_proof {identity : Members} {parsed : ParsedJws}
    (h : ParsesTo P ((identity.get? (txt "proof")).getD (.str [])) parsed) : ParsesTo P (identity.get (txt "proof")) parsed := by
  cases hp : identity.get? (txt "proof") with
  | none =>
    rw [hp, Option.getD_none] at h
    obtain ⟨_, h⟩ := h
    cases h
  | some proof =>
    rw [hp, Option.getD_some] at h
    rwa [Members.get_of_get? hp]

/-! ### OIDC -/

/-- An identity token of a trusted issuer, verified under that issuer's one key. -/
structure OidcProven (identity env : Members) (selfAid : JsonValue) (config : IdentityConfig) (now : Int)
    (issuer : Text) (parsed : ParsedJws) (candidates : List IssuerKey) (key : IssuerKey) : Prop where
  named : identity.get (txt "issuer") = .str issuer
  trusted : issuer ∈ config.trustAnchors
  parses : ParsesTo P (identity.get (txt "proof")) parsed
  resolved : issuerKeysFrom P (config.issuerKeys.members.get issuer) = .ok candidates
  selected : SelectedKey candidates (parsed.header.get (txt "kid")) key
  alg : parsed.header.get (txt "alg") = .str key.publicKey.structuralAlg
  signed : verifyJose P key.publicKey parsed.signingInput parsed.signature true
  iss : parsed.claims.get (txt "iss") = .str issuer
  aud : (parsed.claims.get (txt "aud")).eq selfAid
  claims : ClaimsBound P parsed.claims identity env now

theorem checkOidcClaims_eq_ok {claims identity env : Members} {issuer : Text} {selfAid : JsonValue} {now : Int}
    (hself : selfAid.truthy) (h : checkOidcClaims P claims identity env issuer selfAid now = .ok ()) :
    claims.get (txt "iss") = .str issuer ∧ (claims.get (txt "aud")).eq selfAid ∧ ClaimsBound P claims identity env now := by
  simp only [checkOidcClaims, bind_eq_ok, exists_unit, raiseIf_eq_ok, Bool.not_eq_false', Bool.and_eq_false_iff, hself,
    Bool.true_eq_false, false_or, JsonValue.eq_str, Spiffe.futureExp_eq_true, freshIat_iff, nonceMatches_iff] at h
  obtain ⟨hiss, hsub, hexp, hiat, _, haud, ⟨_, hsent, hnonce⟩, sender, hs, hj⟩ := h
  exact ⟨hiss, haud, hsub, hexp, hiat, hsent, hnonce, sender, hs, hj⟩

theorem checkOidcHeader_eq_ok {header : Members} {alg : Text} (h : checkOidcHeader P header = .ok alg) :
    header.get (txt "alg") = .str alg := by
  simp only [checkOidcHeader, bind_eq_ok, exists_unit, raiseWith_eq_ok, Bool.or_eq_false_iff, Bool.not_eq_false',
    JsonValue.isStr_iff, Except.ok.injEq] at h
  obtain ⟨_, ⟨⟨s, hs⟩, _⟩, rfl⟩ := h
  rw [hs, JsonValue.text]

theorem resolveIssuerKeys_eq_ok {issuerKeys : JsonValue} {issuer : Text} {candidates : List IssuerKey}
    (h : resolveIssuerKeys P issuerKeys issuer = .ok candidates) :
    issuerKeysFrom P (issuerKeys.members.get issuer) = .ok candidates := by
  simp only [resolveIssuerKeys, bind_eq_ok, exists_unit, rescue_eq_ok, Except.ok.injEq] at h
  obtain ⟨found, hf, _, rfl⟩ := h
  exact hf

theorem verifyOidc_proven {identity env : Members} {selfAid : JsonValue} {config : IdentityConfig} {now : Int}
    (hself : selfAid.truthy)
    (h : verifyOidc P identity env selfAid config.trustAnchors config.issuerKeys now = .ok ()) :
    ∃ issuer parsed candidates key, OidcProven P identity env selfAid config now issuer parsed candidates key := by
  simp only [verifyOidc, bind_eq_ok, exists_unit] at h
  obtain ⟨_, h⟩ := h
  split at h
  · rename_i issuer hissuer
    simp only [verifyOidcSignature, bind_eq_ok, exists_unit, raiseIf_eq_ok, Bool.not_eq_false', List.contains_iff_mem,
      bne_eq_false_iff_eq, Except.ok.injEq] at h
    obtain ⟨htrusted, parsed, ⟨_, hparse, alg, halg, candidates, hcand, key, hkey, rfl, hsig, rfl⟩, hclaims⟩ := h
    have hparse := (parseCompact_eq_ok P).mp hparse
    have hcand := resolveIssuerKeys_eq_ok P hcand
    have hkey := selectIssuerKey_eq_ok P hkey
    have hstruct : key.Structural := issuerKeysFrom_structural P hcand key hkey.mem
    obtain ⟨hiss, haud, hbound⟩ := checkOidcClaims_eq_ok P hself hclaims
    refine ⟨issuer, _, candidates, key, hissuer, htrusted, parsesTo_proof P hparse, hcand, hkey, ?_, hsig, hiss, haud, hbound⟩
    rw [← hstruct]
    exact checkOidcHeader_eq_ok P halg
  · cases h

/-! ### Pinned keys -/

/-- The five-field input of this message to this receiver. -/
def MessageProofInput (domain : Text) (env : Members) (selfAid : JsonValue) (octets : Bytes) : Prop :=
  ∃ timestamp nonce, P.toInt (env.get (txt "timestamp")) = .ok timestamp ∧
    (env.get (txt "payload")).item (txt "pop_nonce") = .ok nonce ∧
    handshakeProofInput domain (senderAgentId env) selfAid (env.get (txt "message_id")) timestamp nonce = .ok octets

theorem pinnedKeyProofInput_eq_ok {env : Members} {selfAid : JsonValue} {octets : Bytes}
    (h : pinnedKeyProofInput P env selfAid = .ok octets) : MessageProofInput P pinnedKeyDomain env selfAid octets := by
  simp only [pinnedKeyProofInput, bind_eq_ok] at h
  obtain ⟨timestamp, ht, nonce, hn, h⟩ := h
  exact ⟨timestamp, nonce, ht, hn, h⟩

/-- The sender's own key, pinned in the receiver's store, signed this message. -/
structure PinnedKeyProven (identity env : Members) (selfAid trustStore : JsonValue) (pub : Text) (sender : Aid) :
    Prop where
  noIssuer : identity.has (txt "issuer") = false
  publicKey : identity.get (txt "public_key") = .str pub
  parses : parseAid P (senderAgentId env).text = .ok sender
  decodes : b64urlDecode pub = .ok sender.rawKey
  length : pub.length = identLength sender.alg
  stored : (sender.alg, sender.rawKey) ∈ trustStore.items.filterMap (trustStoreEntry P)
  signed : ∃ octets, MessageProofInput P pinnedKeyDomain env selfAid octets ∧
    FieldVerifies P sender (identity.get (txt "proof")) (P.sha256 octets)

theorem pinnedKeyProof_eq_ok {identity env : Members} {selfAid trustStore : JsonValue} {sender : Aid} {octets sig : Bytes}
    (h : pinnedKeyProof P identity env selfAid trustStore = .ok (sender, octets, sig)) :
    ∃ pub, identity.get (txt "public_key") = .str pub ∧ parseAid P (senderAgentId env).text = .ok sender ∧
      pub.length = identLength sender.alg ∧ b64urlDecode pub = .ok sender.rawKey ∧
      (sender.alg, sender.rawKey) ∈ trustStore.items.filterMap (trustStoreEntry P) ∧
      MessageProofInput P pinnedKeyDomain env selfAid octets ∧
      TaggedSignature (identity.get (txt "proof")) sender.alg sig := by
  unfold pinnedKeyProof at h
  split at h
  · rename_i pub hpub
    rw [bind_eq_ok] at h
    obtain ⟨own, hs, h⟩ := h
    by_cases hlength : pub.length ≠ identLength own.alg
    · simp [hlength, bind_eq_ok, raiseIf_eq_ok] at h
    · simp only [hlength, if_false, decodeTaggedSignature, bind_eq_ok, exists_unit, raiseIf_eq_ok, Bool.not_eq_false',
        List.contains_iff_mem, decodeTaggedSignatureFor_eq_ok, Except.ok.injEq, Prod.mk.injEq, exists_eq_left',
        beq_iff_eq] at h
      obtain ⟨raw, hraw, rfl, hstored, _, hinput, _, htagged, rfl, rfl, rfl⟩ := h
      exact ⟨pub, hpub, hs, not_not.mp hlength, hraw, hstored, pinnedKeyProofInput_eq_ok P hinput, htagged⟩
  · cases h

theorem verifyPinnedKey_proven {identity env : Members} {selfAid trustStore : JsonValue}
    (h : verifyPinnedKey P identity env selfAid trustStore = .ok ()) :
    ∃ pub sender, PinnedKeyProven P identity env selfAid trustStore pub sender := by
  simp only [verifyPinnedKey, bind_eq_ok, exists_unit, raiseIf_eq_ok, rescue_eq_ok, Bool.not_eq_false', Prod.exists] at h
  obtain ⟨hissuer, sender, octets, sig, hproof, hverified⟩ := h
  obtain ⟨pub, hpub, hs, hlength, hraw, hstored, hinput, htagged⟩ := pinnedKeyProof_eq_ok P hproof
  exact ⟨pub, sender, hissuer, hpub, hs, hraw, hlength, hstored, octets, hinput, sig, htagged, hverified⟩

/-! ### SPIFFE identifiers and bundles -/

/-- A canonical SPIFFE ID: its trust domain and its non-empty path. -/
structure SpiffeId (value : JsonValue) (trustDomain path : Text) : Prop where
  text : value = .str (txt "spiffe://" ++ trustDomain ++ (txt "/" ++ path))
  short : ∃ octets, utf8? (txt "spiffe://" ++ trustDomain ++ (txt "/" ++ path)) = some octets ∧ octets.length ≤ 2048
  domainLength : trustDomain.length ≤ 255
  domain : Spiffe.trustDomainPattern.fullMatch trustDomain
  segments : ∀ segment ∈ splitOn 0x2F path, segment ∉ [[], txt ".", txt ".."] ∧
    Spiffe.pathSegmentPattern.fullMatch segment

theorem parseSpiffeId_eq_ok {value : JsonValue} {trustDomain path : Text}
    (h : Spiffe.parseSpiffeId P value = .ok (trustDomain, path)) :
    ∃ rest, path = txt "/" ++ rest ∧ SpiffeId value trustDomain rest := by
  cases value with
  | str s =>
    simp only [Spiffe.parseSpiffeId, bind_eq_ok, exists_unit, raiseIf_eq_ok, Bool.not_eq_false', Bool.or_eq_false_iff,
      decide_eq_false_iff_not, not_lt, forEach_eq_ok, Except.ok.injEq, Prod.mk.injEq] at h
    obtain ⟨octets, hoctets, hshort, hpre, ⟨hlength, hdomain⟩, hslash, hsegments, rfl, rfl⟩ := h
    obtain ⟨after, rfl⟩ := List.isPrefixOf_iff_prefix.mp hpre
    have hdrop : (txt "spiffe://" ++ after).drop 9 = after := List.drop_left' rfl
    rw [hdrop] at hlength hdomain hslash hsegments ⊢
    rcases hp : partition 0x2F after with ⟨trustDomain, slash, path⟩
    rw [hp] at hlength hdomain hslash hsegments
    simp only at hlength hdomain hslash hsegments ⊢
    subst hslash
    have hafter : after = trustDomain ++ (txt "/" ++ path) := partition_eq_append hp
    have hutf : utf8? (txt "spiffe://" ++ after) = some octets := encodeUtf8_eq_ok.mp hoctets
    rw [hafter, ← List.append_assoc] at hutf
    refine ⟨path, rfl, ?_, ⟨octets, hutf, hshort⟩, hlength, hdomain, ?_⟩
    · rw [hafter, List.append_assoc]
    · intro segment hm
      have hs := hsegments segment hm
      simp only [← Bool.not_eq_true, List.contains_iff_mem] at hs
      exact ⟨hs.1, hs.2⟩
  | _ => simp [Spiffe.parseSpiffeId, bind_eq_ok] at h

/-- Whether an entry of a bundle store names a trust domain. -/
def entryNames (trustDomain : Text) (entry : JsonValue) : Bool :=
  (entry.members.get (txt "trust_domain")).eq (.str trustDomain)

/-- A scan answers with the entry of the domain, the only one that names it, or with
what it was given when none does. -/
theorem scanStore_eq_ok {trustDomain : Text} {seen : List Text} {found result : JsonValue} {entries : List JsonValue}
    (h : Spiffe.scanStore trustDomain seen found entries = .ok result) :
    (entries.filter (entryNames trustDomain) = [] ∧ result = found) ∨
      (trustDomain ∉ seen ∧ ∃ entry, entries.filter (entryNames trustDomain) = [entry] ∧
        result = entry.members.get (txt "bundle")) := by
  induction entries generalizing seen found with
  | nil =>
    left
    exact ⟨rfl, (Except.ok.inj h).symm⟩
  | cons entry rest ih =>
    rw [Spiffe.scanStore] at h
    split at h
    · rename_i td htd
      simp only [bind_eq_ok, exists_unit, raiseIf_eq_ok, ← Bool.not_eq_true, List.contains_iff_mem] at h
      obtain ⟨hseen, h⟩ := h
      by_cases hsame : td = trustDomain
      · subst hsame
        have hnames : entryNames td entry = true := by rw [entryNames, htd, JsonValue.eq_str]
        rw [if_pos rfl] at h
        rw [List.filter_cons_of_pos hnames]
        right
        cases ih h with
        | inl hrest => exact ⟨hseen, entry, by rw [hrest.1], hrest.2⟩
        | inr hrest => exact absurd List.mem_cons_self hrest.1
      · have hnames : ¬ entryNames trustDomain entry = true := by
          rw [entryNames, htd, JsonValue.eq_str, JsonValue.str.injEq]
          exact hsame
        rw [if_neg hsame] at h
        rw [List.filter_cons_of_neg hnames]
        cases ih h with
        | inl hrest => exact .inl hrest
        | inr hrest => exact .inr ⟨fun hm => hrest.1 (List.mem_cons_of_mem _ hm), hrest.2⟩
    · cases h

/-- The bundle of a trust domain: that of the one entry of the store that names it. -/
def BundleOf (store : JsonValue) (trustDomain : Text) (bundle : JsonValue) : Prop :=
  ∃ entries entry, store = .list entries ∧ entries.filter (entryNames trustDomain) = [entry] ∧
    entry.members.get (txt "bundle") = bundle

theorem bundleFor_eq_ok {store bundle : JsonValue} {trustDomain : Text}
    (h : Spiffe.bundleFor store trustDomain = .ok bundle) : BundleOf store trustDomain bundle := by
  cases store with
  | list entries =>
    simp only [Spiffe.bundleFor, bind_eq_ok, exists_unit, raiseIf_eq_ok, Except.ok.injEq] at h
    obtain ⟨found, hscan, hnull, rfl⟩ := h
    cases scanStore_eq_ok hscan with
    | inl hnone => simp [hnone.2, JsonValue.isNull] at hnull
    | inr hone =>
      obtain ⟨_, entry, hentry, rfl⟩ := hone
      exact ⟨entries, entry, rfl, hentry, rfl⟩
  | _ => cases h

/-- The keys of a bundle for one use. -/
def keysOfUse (bundle : JsonValue) (use : Text) : List Members :=
  (((bundle.members.get (txt "keys")).items).filter
    (fun k => k.isDict && (k.members.get (txt "use")).eq (.str use))).map JsonValue.members

theorem candidateKeys_eq_ok {bundle : JsonValue} {use trustDomain : Text} {candidates : List Members}
    (h : Spiffe.candidateKeys bundle use trustDomain = .ok candidates) : candidates = keysOfUse bundle use := by
  unfold Spiffe.candidateKeys at h
  split at h
  · rename_i keys hkeys
    simp only [bind_eq_ok, exists_unit, Except.ok.injEq] at h
    rw [← h.2, keysOfUse, hkeys]
    rfl
  · cases h

/-! ### JWT-SVID -/

/-- The key types and the own `alg` under which a bundle key may verify. -/
def JwkAdmits (jwk : Members) (alg : Text) : Prop :=
  (jwk.has (txt "alg") → jwk.get (txt "alg") = .str alg) ∧
    if (txt "ES").isPrefixOf alg then
      jwk.get (txt "kty") = .str (txt "EC") ∧ jwk.get (txt "crv") = .str (Spiffe.esCurve alg).1
    else jwk.get (txt "kty") = .str (txt "RSA")

/-- The library verified the signature under the numbers the bundle key holds. -/
def JwkVerifies (jwk : Members) (alg : Text) (signingInput sig : Bytes) : Prop :=
  if (txt "ES").isPrefixOf alg then
    ∃ x y, decodeJwkMember P jwk (txt "x") = .ok x ∧ decodeJwkMember P jwk (txt "y") = .ok y ∧
      P.ecdsaVerify (Spiffe.esCurve alg).2.1 (intFromBytes x) (intFromBytes y) (Spiffe.jwtSvidHash alg) false
        (P.encodeDssSignature (intFromBytes (sig.take (Spiffe.esCurve alg).2.2))
          (intFromBytes (sig.drop (Spiffe.esCurve alg).2.2))) signingInput
  else
    ∃ n e, decodeJwkMember P jwk (txt "n") = .ok n ∧ decodeJwkMember P jwk (txt "e") = .ok e ∧
      P.rsaVerify (intFromBytes n) (intFromBytes e)
        (if (txt "RS").isPrefixOf alg then RsaPadding.pkcs1v15 else RsaPadding.pss) (Spiffe.jwtSvidHash alg) sig
        signingInput

theorem verifyEsSignature_eq_ok {jwk : Members} {alg : Text} {signingInput sig : Bytes}
    (h : Spiffe.verifyEsSignature P jwk alg signingInput sig = .ok true) :
    (jwk.get (txt "kty") = .str (txt "EC") ∧ jwk.get (txt "crv") = .str (Spiffe.esCurve alg).1) ∧
      ∃ x y, decodeJwkMember P jwk (txt "x") = .ok x ∧ decodeJwkMember P jwk (txt "y") = .ok y ∧
        P.ecdsaVerify (Spiffe.esCurve alg).2.1 (intFromBytes x) (intFromBytes y) (Spiffe.jwtSvidHash alg) false
          (P.encodeDssSignature (intFromBytes (sig.take (Spiffe.esCurve alg).2.2))
            (intFromBytes (sig.drop (Spiffe.esCurve alg).2.2))) signingInput := by
  simp only [Spiffe.verifyEsSignature, bind_eq_ok, exists_unit, raiseWith_eq_ok, Bool.or_eq_false_iff,
    Bool.not_eq_false', JsonValue.eq_str] at h
  obtain ⟨hkey, x, hx, y, hy, _, _, h⟩ := h
  split at h
  · cases h
  · exact ⟨hkey, x, y, hx, hy, Except.ok.inj h⟩

theorem verifyRsaSignature_eq_ok {jwk : Members} {alg : Text} {signingInput sig : Bytes}
    (h : Spiffe.verifyRsaSignature P jwk alg signingInput sig = .ok true) :
    jwk.get (txt "kty") = .str (txt "RSA") ∧
      ∃ n e, decodeJwkMember P jwk (txt "n") = .ok n ∧ decodeJwkMember P jwk (txt "e") = .ok e ∧
        P.rsaVerify (intFromBytes n) (intFromBytes e)
          (if (txt "RS").isPrefixOf alg then RsaPadding.pkcs1v15 else RsaPadding.pss) (Spiffe.jwtSvidHash alg) sig
          signingInput := by
  simp only [Spiffe.verifyRsaSignature, bind_eq_ok, exists_unit, raiseWith_eq_ok, Bool.not_eq_false',
    JsonValue.eq_str, Except.ok.injEq] at h
  obtain ⟨hkey, n, hn, e, he, _, _, hv⟩ := h
  exact ⟨hkey, n, e, hn, he, hv⟩

theorem verifyJwtSvidSignature_eq_ok {jwk : Members} {alg : Text} {signingInput sig : Bytes}
    (h : Spiffe.verifyJwtSvidSignature P jwk alg signingInput sig = .ok true) :
    JwkAdmits jwk alg ∧ JwkVerifies P jwk alg signingInput sig := by
  simp only [Spiffe.verifyJwtSvidSignature, bind_eq_ok, exists_unit, raiseWith_eq_ok, Bool.and_eq_false_imp,
    Bool.not_eq_false', JsonValue.eq_str] at h
  obtain ⟨hown, h⟩ := h
  unfold JwkAdmits JwkVerifies
  by_cases hes : (txt "ES").isPrefixOf alg = true
  · rw [if_pos hes] at h
    rw [if_pos hes, if_pos hes]
    obtain ⟨hkey, hverified⟩ := verifyEsSignature_eq_ok P h
    exact ⟨⟨hown, hkey⟩, hverified⟩
  · rw [if_neg hes] at h
    rw [if_neg hes, if_neg hes]
    obtain ⟨hkey, hverified⟩ := verifyRsaSignature_eq_ok P h
    exact ⟨⟨hown, hkey⟩, hverified⟩

/-- A JWT-SVID of the subject's own trust domain. -/
structure JwtSvidProven (identity env : Members) (selfAid store : JsonValue) (now : Int) (trustDomain path : Text)
    (bundle : JsonValue) (parsed : ParsedJws) (jwk : Members) (alg kid : Text) : Prop where
  svidType : identity.get (txt "svid_type") = .str (txt "jwt-svid")
  subject : SpiffeId (identity.get (txt "subject")) trustDomain path
  ownBundle : BundleOf store trustDomain bundle
  parses : ParsesTo P (identity.get (txt "proof")) parsed
  headerKid : parsed.header.get (txt "kid") = .str kid
  headerAlg : parsed.header.get (txt "alg") = .str alg
  algKnown : alg ∈ Spiffe.jwtSvidAlgs
  key : (keysOfUse bundle (txt "jwt-svid")).filter (fun jwk => (jwk.get (txt "kid")).eq (.str kid)) = [jwk]
  admits : JwkAdmits jwk alg
  signed : JwkVerifies P jwk alg parsed.signingInput parsed.signature
  aud : Spiffe.soleAudience (parsed.claims.get (txt "aud")) = selfAid
  claims : ClaimsBound P parsed.claims identity env now

theorem selectJwtSvidKey_eq_ok {header : Members} {candidates : List Members} {jwk : Members} {alg : Text}
    (h : Spiffe.selectJwtSvidKey P header candidates = .ok (jwk, alg)) :
    header.get (txt "alg") = .str alg ∧ alg ∈ Spiffe.jwtSvidAlgs ∧ ∃ kid, header.get (txt "kid") = .str kid ∧
      candidates.filter (fun jwk => (jwk.get (txt "kid")).eq (.str kid)) = [jwk] := by
  simp only [Spiffe.selectJwtSvidKey, bind_eq_ok, exists_unit, raiseIf_eq_ok, raiseWith_eq_ok, Bool.or_eq_false_iff,
    Bool.not_eq_false', JsonValue.isStr_iff, List.contains_iff_mem] at h
  obtain ⟨_, _, ⟨hknown, own, hown⟩, _, h⟩ := h
  split at h
  · rename_i kid hkid
    split at h
    · rename_i found hfound
      simp only [Except.ok.injEq, Prod.mk.injEq] at h
      obtain ⟨rfl, rfl⟩ := h
      rw [hown, JsonValue.text] at hknown
      exact ⟨by rw [hown, JsonValue.text], by rwa [hown, JsonValue.text], kid, hkid, hfound⟩
    · cases h
  · simp at h

theorem checkJwtSvidClaims_eq_ok {claims identity env : Members} {selfAid : JsonValue} {now : Int}
    (h : Spiffe.checkJwtSvidClaims P claims identity env selfAid now = .ok ()) :
    Spiffe.soleAudience (claims.get (txt "aud")) = selfAid ∧ ClaimsBound P claims identity env now := by
  simp only [Spiffe.checkJwtSvidClaims, bind_eq_ok, exists_unit, raiseIf_eq_ok, Bool.not_eq_false',
    Bool.or_eq_false_iff, JsonValue.eq_str, Spiffe.futureExp_eq_true, freshIat_iff, nonceMatches_iff, JsonValue.isStr_iff] at h
  obtain ⟨hsub, ⟨aud, ha⟩, ⟨_, haud⟩, hexp, hiat, ⟨_, hsent, hnonce⟩, sender, hs, hj⟩ := h
  rw [ha, JsonValue.str_eq] at haud
  exact ⟨by rw [ha, haud], hsub, hexp, hiat, hsent, hnonce, sender, hs, hj⟩

/-! ### X509-SVID -/

/-- A certificate the library reports as issued by the next. -/
def Issues (cert issuer : Certificate) : Prop := P.verifyDirectlyIssuedBy cert issuer = .ok ()

theorem issuedBy_eq_ok {cert issuer : Certificate} : Spiffe.issuedBy P cert issuer = .ok true ↔ Issues P cert issuer := by
  unfold Spiffe.issuedBy Issues
  cases P.verifyDirectlyIssuedBy cert issuer with
  | ok u => simp
  | error e =>
    simp only [reduceCtorEq, iff_false]
    split <;> simp

theorem checkPathEntry_issued {trustDomain : Text} {atTime : Int} {i : Nat} {cert issuer : Certificate}
    (h : Spiffe.checkPathEntry P trustDomain atTime i cert (some issuer) = .ok ()) : Issues P cert issuer := by
  have hlast : (do
      let issued ← Spiffe.issuedBy P cert issuer
      raiseIf (!issued) (Spiffe.fail ((if i = 0 then txt "X509-SVID leaf" else txt "x5c[" ++ decimal i ++ txt "]") ++
        txt " is not issued by x5c[" ++ decimal (i + 1) ++ txt "]"))) = .ok () := by
    by_cases hi : i = 0
    · simp only [Spiffe.checkPathEntry, if_pos hi, bind_eq_ok, exists_unit] at h ⊢
      obtain ⟨_, _, _, _, _, _, hissued⟩ := h
      exact hissued
    · simp only [Spiffe.checkPathEntry, if_neg hi, bind_eq_ok, exists_unit] at h ⊢
      obtain ⟨_, _, _, _, _, _, _, hissued⟩ := h
      exact hissued
  simp only [bind_eq_ok, raiseIf_eq_ok, Bool.not_eq_false'] at hlast
  obtain ⟨issued, hissued, rfl⟩ := hlast
  exact (issuedBy_eq_ok P).mp hissued

/-- Along an accepted path each certificate is issued by the next. -/
theorem checkPath_issued {trustDomain : Text} {atTime : Int} {i : Nat} {certs : List Certificate}
    (h : Spiffe.checkPath P trustDomain atTime i certs = .ok ()) : certs.IsChain (Issues P) := by
  induction certs generalizing i with
  | nil => exact .nil
  | cons cert rest ih =>
    simp only [Spiffe.checkPath, bind_eq_ok, exists_unit] at h
    obtain ⟨hentry, hrest⟩ := h
    cases rest with
    | nil => exact .singleton cert
    | cons issuer rest => exact .cons_cons (checkPathEntry_issued P hentry) (ih hrest)

theorem findAnchor_eq_some {last anchor : Certificate} {anchors : List Certificate}
    (h : Spiffe.findAnchor P last anchors = .ok (some anchor)) : anchor ∈ anchors ∧ Issues P last anchor := by
  induction anchors with
  | nil => simp [Spiffe.findAnchor] at h
  | cons first rest ih =>
    simp only [Spiffe.findAnchor, bind_eq_ok] at h
    obtain ⟨issued, hissued, h⟩ := h
    cases issued with
    | true =>
      obtain rfl : first = anchor := by simpa using h
      exact ⟨List.mem_cons_self, (issuedBy_eq_ok P).mp hissued⟩
    | false =>
      obtain ⟨hm, hi⟩ := ih (by simpa using h)
      exact ⟨List.mem_cons_of_mem _ hm, hi⟩

/-- An X.509-SVID that chains to the subject's own trust domain, and a proof under
its leaf key. -/
structure X509SvidProven (identity env : Members) (selfAid store : JsonValue) (trustDomain path : Text)
    (bundle : JsonValue) (leaf : Certificate) (issuers anchors : List Certificate) (key : AgentKey) : Prop where
  svidType : identity.get (txt "svid_type") = .str (txt "x509-svid")
  subject : SpiffeId (identity.get (txt "subject")) trustDomain path
  ownBundle : BundleOf store trustDomain bundle
  chain : Spiffe.chainOf P (identity.get (txt "x5c")) = .ok (leaf, issuers)
  leafNames : ∃ names uri, Spiffe.ext? leaf Spiffe.subjectAlternativeNameOid =
    .ok (some (.subjectAlternativeName names)) ∧ names.filterMap Spiffe.uriValue? = [uri] ∧
      identity.get (txt "subject") = .str uri
  leafKey : Spiffe.leafKey leaf = .ok key
  path : (leaf :: issuers).IsChain (Issues P)
  certificates : Spiffe.anchors P (keysOfUse bundle (txt "x509-svid")) = .ok anchors
  anchored : ∃ anchor ∈ anchors, Issues P (issuers.getLastD leaf) anchor
  signed : ∃ octets raw, MessageProofInput P spiffeX509Domain env selfAid octets ∧
    TaggedSignature (identity.get (txt "proof")) key.alg raw ∧ verifyDigest P key (P.sha256 octets) raw

/-- The leaf's one URI name is the subject. -/
theorem checkLeaf_names {leaf : Certificate} {subject : JsonValue} (h : Spiffe.checkLeaf leaf subject = .ok ()) :
    ∃ names uri, Spiffe.ext? leaf Spiffe.subjectAlternativeNameOid = .ok (some (.subjectAlternativeName names)) ∧
      names.filterMap Spiffe.uriValue? = [uri] ∧ subject = .str uri := by
  simp only [Spiffe.checkLeaf] at h
  rw [bind_eq_ok] at h
  obtain ⟨san, hsan, h⟩ := h
  split at h
  · rename_i uri huri
    rw [bind_eq_ok] at h
    obtain ⟨_, hsubject, _⟩ := h
    rw [raiseIf_eq_ok, Bool.not_eq_false', JsonValue.eq_str] at hsubject
    split at huri
    · rename_i names
      exact ⟨names, uri, hsan, huri, hsubject⟩
    · cases huri
  · cases h

theorem checkChain_eq_ok {leaf : Certificate} {issuers anchors : List Certificate} {trustDomain : Text} {atTime : Int}
    (h : Spiffe.checkChain P leaf issuers anchors trustDomain atTime = .ok ()) :
    (leaf :: issuers).IsChain (Issues P) ∧ ∃ anchor ∈ anchors, Issues P (issuers.getLastD leaf) anchor := by
  simp only [Spiffe.checkChain, bind_eq_ok, exists_unit] at h
  obtain ⟨hpath, found, hfound, h⟩ := h
  cases found with
  | none => cases h
  | some anchor =>
    obtain ⟨hm, hi⟩ := findAnchor_eq_some P hfound
    exact ⟨checkPath_issued P hpath, anchor, hm, hi⟩

/-! ### Every accepted identity -/

/-- What an accepted descriptor proves, by its type. -/
inductive IdentityProven (identity env : Members) (selfAid : JsonValue) (config : IdentityConfig) (now : Int) : Prop
  | oidc {issuer : Text} {parsed : ParsedJws} {candidates : List IssuerKey} {key : IssuerKey} :
      identity.get (txt "type") = .str (txt "oidc") →
      OidcProven P identity env selfAid config now issuer parsed candidates key →
      IdentityProven identity env selfAid config now
  | pinnedKey {pub : Text} {sender : Aid} : identity.get (txt "type") = .str (txt "pinned_key") →
      PinnedKeyProven P identity env selfAid config.trustStore pub sender →
      IdentityProven identity env selfAid config now
  | jwtSvid {trustDomain path : Text} {bundle : JsonValue} {parsed : ParsedJws} {jwk : Members} {alg kid : Text} :
      identity.get (txt "type") = .str (txt "spiffe") →
      JwtSvidProven P identity env selfAid config.spiffeBundles now trustDomain path bundle parsed jwk alg kid →
      IdentityProven identity env selfAid config now
  | x509Svid {trustDomain path : Text} {bundle : JsonValue} {leaf : Certificate} {issuers anchors : List Certificate}
      {key : AgentKey} : identity.get (txt "type") = .str (txt "spiffe") →
      X509SvidProven P identity env selfAid config.spiffeBundles trustDomain path bundle leaf issuers anchors key →
      IdentityProven identity env selfAid config now

theorem verifySpiffe_proven {identity env : Members} {selfAid : JsonValue} {config : IdentityConfig} {now : Int}
    (htype : identity.get (txt "type") = .str (txt "spiffe"))
    (h : verifySpiffe P identity env selfAid config.spiffeBundles now = .ok ()) :
    IdentityProven P identity env selfAid config now := by
  simp only [verifySpiffe, rescue_eq_ok, Spiffe.verifyDescriptor, bind_eq_ok, exists_unit, raiseIf_eq_ok,
    raiseWith_eq_ok, Bool.or_eq_false_iff, Bool.not_eq_false', JsonValue.isStr_iff, Prod.exists] at h
  obtain ⟨_, _, ⟨⟨svid, hsvid⟩, hknown⟩, _, trustDomain, path, hsubject, bundle, hbundle, candidates, hkeys, h⟩ := h
  obtain ⟨rest, rfl, hid⟩ := parseSpiffeId_eq_ok P hsubject
  have hbundle := bundleFor_eq_ok hbundle
  have hkeys := candidateKeys_eq_ok hkeys
  rw [hsvid, JsonValue.text] at hkeys h
  by_cases hjwt : svid = txt "jwt-svid"
  · subst hjwt
    simp only [if_true, Spiffe.verifyJwtSvid, bind_eq_ok, raiseIf_eq_ok, exists_unit, Bool.not_eq_false',
      Prod.exists] at h
    obtain ⟨parsed, hparse, jwk, alg, hkey, valid, hvalid, rfl, hclaims⟩ := h
    obtain ⟨halg, hknown, kid, hkid, hone⟩ := selectJwtSvidKey_eq_ok P hkey
    obtain ⟨hadmits, hverified⟩ := verifyJwtSvidSignature_eq_ok P hvalid
    obtain ⟨haud, hbound⟩ := checkJwtSvidClaims_eq_ok P hclaims
    rw [hkeys] at hone
    exact .jwtSvid htype ⟨hsvid, hid, hbundle, parsesTo_proof P ((parseCompact_eq_ok P).mp hparse), hkid, halg, hknown,
      hone, hadmits, hverified, haud, hbound⟩
  · rw [if_neg hjwt] at h
    simp only [Spiffe.verifyX509Svid, decodeTaggedSignatureFor_eq_ok, bind_eq_ok, raiseIf_eq_ok, exists_unit,
      Bool.not_eq_false', Prod.exists] at h
    obtain ⟨leaf, issuers, hchain, anchors, hanchors, domain, _, hdomain, atTime, _, hleaf, key, hkey, hpath, octets,
      hinput, raw, hraw, hverified⟩ := h
    have hx509 : svid = txt "x509-svid" := by
      simp only [hsvid, JsonValue.text, Spiffe.svidTypes, List.contains_iff_mem, List.mem_cons, List.not_mem_nil,
        or_false] at hknown
      exact hknown.resolve_left hjwt
    subst hx509
    obtain ⟨hissued, hanchored⟩ := checkChain_eq_ok P hpath
    simp only [Spiffe.spiffeX509ProofInput, bind_eq_ok] at hinput
    obtain ⟨timestamp, ht, nonce, hn, hinput⟩ := hinput
    rw [hkeys] at hanchors
    exact .x509Svid htype ⟨hsvid, hid, hbundle, hchain, checkLeaf_names hleaf, hkey, hissued, hanchors, hanchored, octets,
      raw, ⟨timestamp, nonce, ht, hn, hinput⟩, hraw, hverified⟩

/-- Every accepted identity of a named receiver is proven, and bound to the sender. -/
theorem verifyIdentity_proven (identity env : Members) (selfAid : JsonValue) (config : IdentityConfig) (now : Int)
    (hself : selfAid.truthy) (h : verifyIdentity P identity env selfAid config now = .ok ()) :
    IdentityProven P identity env selfAid config now := by
  simp only [verifyIdentity, bind_eq_ok, exists_unit] at h
  obtain ⟨_, h⟩ := h
  split at h
  · rename_i hspiffe
    rw [Bool.and_eq_true, JsonValue.eq_str] at hspiffe
    exact verifySpiffe_proven P hspiffe.1 h
  · rw [bind_eq_ok] at h
    obtain ⟨_, _, h⟩ := h
    split at h
    · rename_i hoidc
      obtain ⟨issuer, parsed, candidates, key, hproven⟩ := verifyOidc_proven P hself h
      exact .oidc ((JsonValue.eq_str _ _).mp hoidc) hproven
    · split at h
      · rename_i hpinned
        obtain ⟨pub, sender, hproven⟩ := verifyPinnedKey_proven P h
        exact .pinnedKey ((JsonValue.eq_str _ _).mp hpinned) hproven
      · simp [bind_eq_ok] at h

/-! ### A recorded acknowledgement: agent A answers agent B -/

def ackNonce : Text := txt "BwcHBwcHBwcHBwcHBwcHBw"

def ackEcho : Text := txt "CAgICAgICAgICAgICAgICA"

def pinnedProof : Text :=
  txt "HkR_1ddMAJ6xDI9-6uJUiOhegSp5X-Gqw7WuTA-u" ++
    txt "oI7txNTlu5h5Ec-Q6F3i5PTukdyZGOXHd6vH_7CU" ++ txt "R6sUCQ"

def pinnedDigest : Text := txt "N67iO3DaCPFZ-WD_UzCJ_f18" ++ txt "bv-fxWYzu9HAmYdL8jY"

def ackSignature : Text :=
  txt "cIr0K9NbGFUm289SJglnYXdVNbuhl9rLh30L2dg-" ++
    txt "hxSSfp_oWWNNaDt1D20TNGoVbQ6Xa-hL2WVuawKV" ++ txt "9vQODw"

def ackDigest : Text := txt "F-OJ5uWmTNJ0BR7g51niABzm" ++ txt "lNLPNLzueClDCpu8RR0"

def pinnedIdentity : Members :=
  [(txt "type", .str (txt "pinned_key")), (txt "subject", .str (txt "a")), (txt "public_key", .str agentA),
    (txt "proof", .str pinnedProof)]

/-- The acknowledgement, its signature left open. -/
def ackBody (signature : Members) : Members :=
  [(txt "version", .str protocolVersion), (txt "message_type", .str (txt "mutual_hello_ack")),
    (txt "message_id", .str (txt "5d1c7b0e-93a4-4f5e-8b6d-0e2f9c8a7b61")), (txt "timestamp", .int referenceClock),
    (txt "sender", .dict [(txt "agent_id", .str (aidOf agentA))]),
    (txt "payload", .dict [(txt "identity", .dict pinnedIdentity), (txt "manifest", .dict coordinatorManifest),
      (txt "requested_grants", .list []), (txt "pop_nonce", .str ackNonce), (txt "pop_nonce_echo", .str ackEcho)])] ++
  signature

def ackEnvelope : Members := ackBody [(txt "signature", .str ackSignature)]

def ackRecording : Recording where
  digests := [(octetsOf coordinatorChallenge, challengeDigest),
    (octetsFrom (Jcs.canonicalize (.dict (coordinatorBody []))), manifestDigest),
    (octetsFrom (handshakeProofInput pinnedKeyDomain (.str (aidOf agentA)) (.str (aidOf agentB))
      (.str (txt "5d1c7b0e-93a4-4f5e-8b6d-0e2f9c8a7b61")) referenceClock (.str ackNonce)), pinnedDigest),
    (octetsFrom (envelopeSigningInput (ackBody [])), ackDigest)]
  signatures := [⟨agentA, challengeSignature, octetsOf challengeDigest⟩,
    ⟨agentA, manifestSignature, octetsOf manifestDigest⟩, ⟨agentA, pinnedProof, octetsOf pinnedDigest⟩,
    ⟨agentA, ackSignature, octetsOf ackDigest⟩]

/-- A receiver that pins agent A's key. -/
def pinningConfig : IdentityConfig where
  trustAnchors := []
  trustStore := .list [.str agentA]
  issuerKeys := .dict []
  spiffeBundles := .null

/-- Agent A's pinned key, presented to agent B. -/
theorem verifyIdentity_proven_pinned :
    IdentityProven ackRecording.platform pinnedIdentity ackEnvelope (.str (aidOf agentB)) pinningConfig referenceClock :=
  verifyIdentity_proven ackRecording.platform pinnedIdentity ackEnvelope (.str (aidOf agentB)) pinningConfig
    referenceClock (by decide +kernel) (by decide +kernel)

end AitpVerifier
