import AitpVerifier.SameBut

/-!
# Documents with other extensions

Each signed document, with another object in its reserved slot and signed again. The
checks of the document see neither, so it is accepted as it was, as an object alike in
every other member.
-/
namespace AitpVerifier

open PyText Checked

variable (P : Platform)

/-! ### Manifests -/

/-- A Manifest with other extensions, signed again by the key it names. -/
structure ManifestResigned (body body' : Members) : Prop where
  resigned : Resigned (txt "extensions") body body'
  signed : ∀ aid, parseAid P (body.get (txt "aid")).text = .ok aid → BodySigned P body' aid

/-- The same Manifest, or one resigned. -/
def ManifestAlike (man man' : JsonValue) : Prop :=
  man' = man ∨ ∃ body body', man = .dict body ∧ man' = .dict body' ∧ ManifestResigned P body body'

variable {body body' : Members}

theorem Resigned.get {slot key : Text} (h : Resigned slot body body') (hk : key ∉ [slot, txt "signature"]) :
    body'.get key = body.get key := h.rest.get hk

theorem BodySigned.pattern {aid : Aid} (h : BodySigned P body aid) :
    signaturePattern.fullMatch (body.get (txt "signature")).text = true := by
  obtain ⟨_, _, _, htagged, _⟩ := h
  exact htagged.pattern

theorem validateGrammar_resigned (h : Resigned (txt "extensions") body body')
    (hpattern : signaturePattern.fullMatch (body'.get (txt "signature")).text = true)
    (hg : validateGrammar P body = .ok ()) : validateGrammar P body' = .ok () := by
  have hrules : forEach (checkArray P body') arrayItemRules = forEach (checkArray P body) arrayItemRules := by
    apply forEach_congr
    intro rule hrule
    have hkey : rule.1 ∉ [txt "extensions", txt "signature"] := by
      have hall : ∀ rule ∈ arrayItemRules, rule.1 ∉ [txt "extensions", txt "signature"] := by
        simp only [arrayItemRules, List.forall_mem_cons]
        decide
      exact hall rule hrule
    rw [checkArray, h.get hkey, checkArray]
  simp only [validateGrammar, bind_eq_ok, exists_unit, hrules] at hg ⊢
  rw [h.get (by decide), h.get (by decide), h.get (by decide), h.get (by decide), h.get (by decide), h.get (by decide)]
  obtain ⟨haid, hname, hendpoint, hitems, hpublished, hexpires, hchallenge, hpop, _⟩ := hg
  refine ⟨haid, hname, hendpoint, hitems, hpublished, hexpires, hchallenge, hpop, ?_⟩
  rw [hpattern]
  rfl

theorem ManifestAccepted.resigned {inp inp' : Members} {now : Int} {aid : Aid}
    (ha : ManifestAccepted P inp now body aid) (hinp : SameBut [txt "manifest"] inp inp')
    (h : ManifestResigned P body body') : ManifestAccepted P inp' now body' aid := by
  have hsigned := h.signed aid ha.key
  have hr := h.resigned
  constructor
  · exact hr.shaped ha.shaped (by decide) (by decide)
  · rw [hr.get (by decide)]
    exact ha.popShaped
  · rw [hr.get (by decide)]
    exact ha.hintShaped
  · rw [hr.get (by decide), hinp _ (by decide)]
    exact ha.version
  · exact validateGrammar_resigned P hr hsigned.pattern ha.grammar
  · rw [hr.get (by decide)]
    exact ha.hint
  · exact hr.rest.known ha.known (by decide)
  · rw [hr.get (by decide)]
    exact ha.popKnown
  · rw [hr.get (by decide)]
    exact ha.hintKnown
  · rw [hr.get (by decide), hinp _ (by decide)]
    exact ha.live
  · rw [hr.get (by decide)]
    exact ha.key
  · have hpossession := ha.possession
    rw [PossessionProven] at hpossession ⊢
    rw [hr.get (by decide)]
    exact hpossession
  · exact hsigned

theorem verifyManifest_resigned {inp inp' : Members} {man man' : JsonValue} {now : Int} {r : Members}
    (hman : inp.get? (txt "manifest") = some man) (hman' : inp'.get? (txt "manifest") = some man')
    (hinp : SameBut [txt "manifest"] inp inp') (h : ManifestAlike P man man')
    (hr : verifyManifest P inp now = .ok r) : verifyManifest P inp' now = .ok r := by
  obtain ⟨body, aid, hbody, ha, hresult⟩ := (verifyManifest_eq_ok P).mp hr
  obtain rfl := Option.some.inj (hman.symm.trans hbody)
  cases h with
  | inl heq =>
    subst heq
    refine (verifyManifest_eq_ok P).mpr ⟨body, aid, hman', ?_, hresult⟩
    exact ⟨ha.shaped, ha.popShaped, ha.hintShaped, by rw [hinp _ (by decide)]; exact ha.version, ha.grammar, ha.hint,
      ha.known, ha.popKnown, ha.hintKnown, by rw [hinp _ (by decide)]; exact ha.live, ha.key, ha.possession, ha.signed⟩
  | inr hresigned =>
    obtain ⟨first, body', hfirst, rfl, hresigned⟩ := hresigned
    obtain rfl := JsonValue.dict.inj hfirst
    refine (verifyManifest_eq_ok P).mpr ⟨body', aid, hman', ha.resigned P hinp hresigned, ?_⟩
    rw [hresigned.resigned.get (by decide)]
    exact hresult

/-! ### Resolving a key from alike Manifests -/

/-- Candidates alike one by one. -/
def ManifestsAlike (manifests manifests' : JsonValue) : Prop :=
  List.Forall₂ (ManifestAlike P) (manifestCandidates manifests) (manifestCandidates manifests')

theorem ManifestAlike.namesAid {man man' : JsonValue} (h : ManifestAlike P man man') (aid : Text) :
    AitpVerifier.namesAid aid man' = AitpVerifier.namesAid aid man := by
  cases h with
  | inl heq => rw [heq]
  | inr hresigned =>
    obtain ⟨body, body', rfl, rfl, hresigned⟩ := hresigned
    rw [AitpVerifier.namesAid, hresigned.resigned.get (by decide), AitpVerifier.namesAid]

/-- The first Manifest that names an agent stands at the same place among alike ones. -/
theorem find_alike {mans mans' : List JsonValue} {aid : Text} {man : JsonValue}
    (h : List.Forall₂ (ManifestAlike P) mans mans') (hfind : mans.find? (namesAid aid) = some man) :
    ∃ man', mans'.find? (namesAid aid) = some man' ∧ ManifestAlike P man man' := by
  induction h with
  | nil => cases hfind
  | @cons first first' rest rest' hfirst _ ih =>
    rw [List.find?_cons] at hfind ⊢
    rw [hfirst.namesAid P aid]
    cases hnames : namesAid aid first with
    | true =>
      rw [hnames] at hfind
      rw [← Option.some.inj hfind]
      exact ⟨first', rfl, hfirst⟩
    | false =>
      rw [hnames] at hfind
      exact ih hfind

/-- A key resolved from Manifests is resolved from alike ones, with an alike Manifest. -/
theorem resolveManifest_alike {aid : Text} {manifests manifests' : JsonValue} {now : Int} {key : Aid} {man : Members}
    (h : ManifestsAlike P manifests manifests') (hr : resolveManifest P aid manifests now = .ok (key, man)) :
    ∃ man', resolveManifest P aid manifests' now = .ok (key, man') ∧
      SameBut [txt "extensions", txt "signature"] man man' := by
  obtain ⟨hfind, ⟨r, hverified⟩, hkey⟩ := resolveManifest_eq_ok P hr
  obtain ⟨found, hfound, halike⟩ := find_alike P h hfind
  have hverified' : verifyManifest P [(txt "manifest", found), (txt "now", .int now)] now = .ok r := by
    exact verifyManifest_resigned P rfl rfl (.head _ _ _ _) halike hverified
  refine ⟨found.members, ?_, ?_⟩
  · rw [resolveManifest, hfound]
    simp only [hverified', hkey, ok_bind]
    rfl
  · cases halike with
    | inl heq =>
      rw [heq]
      exact .refl _ _
    | inr hresigned =>
      obtain ⟨body, body', hbody, rfl, hresigned⟩ := hresigned
      obtain rfl := JsonValue.dict.inj hbody
      exact hresigned.resigned.rest

/-! ### Snapshots -/

/-- A snapshot whose deny list has other extensions, signed again by its issuer. -/
structure SnapshotResigned (snapshot snapshot' : JsonValue) (body body' : Members) : Prop where
  refilled : Refilled (txt "extensions") body body'
  wrapped : ∃ wrapper wrapper' : Members, snapshot = .dict wrapper ∧ snapshot' = .dict wrapper' ∧
    wrapper.get (txt "revocation_list") = .dict body ∧ wrapper'.get? (txt "revocation_list") = some (.dict body') ∧
    SameBut [txt "revocation_list", txt "signature"] wrapper wrapper' ∧
    ∀ issuer, parseAid P (body.get (txt "issuer")).text = .ok issuer → ∃ octets,
      Jcs.canonicalize (.dict body') = .ok octets ∧
        FieldVerifies P issuer (wrapper'.get (txt "signature")) (P.sha256 octets)

theorem RevocationBody.refilled (hs : RevocationBody body) (h : Refilled (txt "extensions") body body') :
    RevocationBody body' := by
  constructor
  · exact h.shaped hs.shaped (by decide)
  · rw [h.rest.get (by decide)]
    exact hs.version
  · rw [h.rest.get (by decide)]
    exact hs.entries

/-- A trusted snapshot stays trusted. -/
theorem verifySnapshotTrust_resigned {snapshot snapshot' : JsonValue} (h : SnapshotResigned P snapshot snapshot' body body')
    (hr : verifySnapshotTrust P snapshot = .ok body) : verifySnapshotTrust P snapshot' = .ok body' := by
  obtain ⟨wrapper, wrapper', rfl, rfl, hlist, hlist', hrest, hsigned⟩ := h.wrapped
  have hrefilled := h.refilled
  simp only [verifySnapshotTrust, bind_eq_ok, exists_unit, decodeTaggedSignature, onValueError_eq_ok,
    decodeTaggedSignatureFor_eq_ok, canonicalBytes_eq_ok, raiseIf_eq_ok, Bool.not_eq_false', Except.ok.injEq,
    Prod.exists, validateSnapshotShape_iff, rejectUnknownFields_eq_ok, forEach_eq_ok, JsonValue.dict.injEq,
    exists_eq_left'] at hr ⊢
  obtain ⟨wrapper₀, body₀, ⟨rfl, hshape⟩, hwrapper, hbody, hentries, issuer, hissuer, _, _, _, _, _, rfl⟩ := hr
  obtain ⟨octets, hoctets, raw, htagged, hverifies⟩ := hsigned issuer hissuer
  have hshape' : SnapshotShape wrapper' body' := by
    constructor
    · rw [snapshotFields, List.forall_mem_cons, List.forall_mem_singleton]
      obtain ⟨s, hs, _⟩ := htagged
      exact ⟨by rw [Members.has, hlist']; rfl, Members.has_of_get_str hs⟩
    · obtain ⟨s, hs, _⟩ := htagged
      rw [hs]
      rfl
    · rw [Members.get, hlist']
      rfl
    · exact hshape.body.refilled hrefilled
  refine ⟨wrapper', body', ⟨rfl, hshape'⟩, hrest.known hwrapper (by decide), hrefilled.rest.known hbody (by decide), ?_,
    issuer, ?_, raw, htagged, octets, hoctets, hverifies, rfl⟩
  · rw [hrefilled.rest.get (by decide)]
    exact hentries
  · rw [hrefilled.rest.get (by decide)]
    exact hissuer

/-- The same snapshot, or a trusted one resigned. -/
def SnapshotAlike (snapshot snapshot' : JsonValue) : Prop :=
  snapshot' = snapshot ∨ ∃ body body', verifySnapshotTrust P snapshot = .ok body ∧
    SnapshotResigned P snapshot snapshot' body body'

/-- Trust is the same, and so is what is trusted but for its extensions. -/
theorem verifySnapshotTrust_alike {snapshot snapshot' : JsonValue} (h : SnapshotAlike P snapshot snapshot') :
    verifySnapshotTrust P snapshot' = verifySnapshotTrust P snapshot ∨
      ∃ body body', verifySnapshotTrust P snapshot = .ok body ∧ verifySnapshotTrust P snapshot' = .ok body' ∧
        SameBut [txt "extensions"] body body' := by
  cases h with
  | inl heq => exact .inl (by rw [heq])
  | inr hresigned =>
    obtain ⟨body, body', htrust, hresigned⟩ := hresigned
    exact .inr ⟨body, body', htrust, verifySnapshotTrust_resigned P hresigned htrust, hresigned.refilled.rest⟩

theorem snapshotIsStale_alike (h : SameBut [txt "extensions"] body body') (policy : Members) (now : Int) :
    snapshotIsStale P body' policy now = snapshotIsStale P body policy now := by
  rw [snapshotIsStale, h.get (by decide), h.get (by decide), snapshotIsStale]

theorem lists_alike (h : SameBut [txt "extensions"] body body') (jti : JsonValue) : lists body' jti = lists body jti := by
  rw [lists, h.get (by decide), lists]

theorem policyOf_alike {slots : List Text} {inp inp' : Members} (h : SameBut slots inp inp')
    (hslots : txt "policy" ∉ slots) : policyOf inp' = policyOf inp := by
  rw [policyOf, h.get hslots, policyOf]

theorem policyFailMode_alike {slots : List Text} {inp inp' : Members} (h : SameBut slots inp inp')
    (hslots : txt "policy" ∉ slots) : policyFailMode inp' = policyFailMode inp := by
  rw [policyFailMode, policyOf_alike h hslots, policyFailMode]

/-- The same snapshot, or one resigned. -/
theorem verifyRevocationSnapshot_resigned {inp inp' : Members} {snapshot snapshot' : JsonValue} {clock : Option Int}
    {r : Members} (hsnapshot : inp.get? (txt "snapshot") = some snapshot)
    (hsnapshot' : inp'.get? (txt "snapshot") = some snapshot') (hinp : SameBut [txt "snapshot"] inp inp')
    (h : SnapshotResigned P snapshot snapshot' body body') (hr : verifyRevocationSnapshot P inp clock = .ok r) :
    verifyRevocationSnapshot P inp' clock = .ok r := by
  have hclock : clockOf P inp' clock = clockOf P inp clock := by
    cases clock with
    | some now => rfl
    | none => rw [clockOf, hinp.index (by decide), clockOf]
  have hindex : inp.index (txt "snapshot") = .ok snapshot := Members.index_eq_ok.mpr hsnapshot
  have hindex' : inp'.index (txt "snapshot") = .ok snapshot' := Members.index_eq_ok.mpr hsnapshot'
  simp only [verifyRevocationSnapshot, hclock, hindex, hindex', ok_bind] at hr ⊢
  obtain ⟨now, hnow, hr⟩ := bind_eq_ok.mp hr
  obtain ⟨trusted, htrust, hr⟩ := bind_eq_ok.mp hr
  have hbody : trusted = body := by
    obtain ⟨wrapper, _, rfl, _, hlist, _⟩ := h.wrapped
    obtain ⟨_, wrapper₀, _, _, heq, hlist₀, _⟩ := verifySnapshotTrust_trusted P htrust
    obtain rfl := JsonValue.dict.inj heq
    exact JsonValue.dict.inj (hlist₀.symm.trans hlist)
  subst hbody
  have hrest := h.refilled.rest
  rw [hnow, ok_bind, verifySnapshotTrust_resigned P h htrust, ok_bind, hrest.get (by decide), hinp.get (by decide),
    hinp.get (by decide), policyFailMode_alike hinp (by decide), policyOf_alike hinp (by decide),
    snapshotIsStale_alike P hrest, lists_alike hrest]
  exact hr

/-! ### Trust Context Tokens -/

/-- The same token, or one reissued with claims that differ as `R` says. -/
def TokenAlike (R : Members → Members → Prop) (token token' : JsonValue) : Prop :=
  token' = token ∨ Reissued P R token token'

/-- A Manifest only read, never verified. -/
def ReadManifestAlike (man man' : JsonValue) : Prop :=
  man' = man ∨ ∃ body body' : Members, man = .dict body ∧ man' = .dict body' ∧
    SameBut [txt "extensions", txt "signature"] body body'

/-- A fetched revocation source, around an alike snapshot. -/
def SourceAlike (source source' : JsonValue) : Prop :=
  source' = source ∨ ∃ list list' : Members, source = .dict list ∧ source' = .dict list' ∧
    SnapshotAlike P (list.get (txt "snapshot")) (list'.get (txt "snapshot"))

variable {claims claims' inp inp' : Members}

theorem outlivesManifest_alike (hclaims : claims'.get (txt "exp") = claims.get (txt "exp")) {man man' : JsonValue}
    (h : ReadManifestAlike man man') : outlivesManifest P claims' man' = outlivesManifest P claims man := by
  cases h with
  | inl heq => rw [outlivesManifest, hclaims, heq, outlivesManifest]
  | inr hbodies =>
    obtain ⟨body, body', rfl, rfl, hrest⟩ := hbodies
    rw [outlivesManifest, hclaims, JsonValue.item, hrest.index (by decide), outlivesManifest, JsonValue.item]

theorem checkManifestCap_alike (hclaims : claims'.get (txt "exp") = claims.get (txt "exp"))
    (h : ReadManifestAlike (inp.get (txt "issuer_manifest")) (inp'.get (txt "issuer_manifest"))) (what : Text) :
    checkManifestCap P claims' inp' what = checkManifestCap P claims inp what := by
  have houtlives := outlivesManifest_alike P hclaims h
  unfold checkManifestCap
  cases h with
  | inl heq =>
    rw [heq] at houtlives ⊢
    cases hman : inp.get (txt "issuer_manifest") with
    | null => rfl
    | _ =>
      rw [hman] at houtlives
      dsimp only
      rw [houtlives]
  | inr hbodies =>
    obtain ⟨body, body', hman, hman', _⟩ := hbodies
    rw [hman, hman'] at houtlives ⊢
    dsimp only
    rw [houtlives]

theorem checkTrustedSnapshot_alike {slots : List Text} (hiss : claims'.get (txt "iss") = claims.get (txt "iss"))
    (hjti : claims'.get (txt "jti") = claims.get (txt "jti")) (hinp : SameBut slots inp inp')
    (hslots : txt "policy" ∉ slots) (h : SameBut [txt "extensions"] body body') (now : Int) :
    checkTrustedSnapshot P claims' inp' body' now = checkTrustedSnapshot P claims inp body now := by
  rw [checkTrustedSnapshot, h.get (by decide), hiss, hjti, policyFailMode_alike hinp hslots, policyOf_alike hinp hslots,
    snapshotIsStale_alike P h, lists_alike h, checkTrustedSnapshot]

theorem checkRevocation_alike {slots : List Text} (hiss : claims'.get (txt "iss") = claims.get (txt "iss"))
    (hjti : claims'.get (txt "jti") = claims.get (txt "jti")) (hinp : SameBut slots inp inp')
    (hslots : txt "policy" ∉ slots)
    (h : SourceAlike P (inp.get (txt "issuer_revocation_list")) (inp'.get (txt "issuer_revocation_list"))) (now : Int) :
    checkRevocation P claims' inp' now = checkRevocation P claims inp now := by
  have htrusted {body body' : Members} (hb : SameBut [txt "extensions"] body body') :=
    checkTrustedSnapshot_alike P hiss hjti hinp hslots hb now
  unfold checkRevocation
  rw [policyFailMode_alike hinp hslots]
  cases h with
  | inl heq =>
    rw [heq]
    cases inp.get (txt "issuer_revocation_list") with
    | dict list =>
      dsimp only
      cases verifySnapshotTrust P (Members.get list (txt "snapshot")) with
      | ok body => exact htrusted (.refl _ _)
      | error e => cases e <;> rfl
    | _ => rfl
  | inr hlists =>
    obtain ⟨list, list', hlist, hlist', hsnapshot⟩ := hlists
    rw [hlist, hlist']
    dsimp only
    cases verifySnapshotTrust_alike P hsnapshot with
    | inl hsame =>
      rw [hsame]
      cases verifySnapshotTrust P (Members.get list (txt "snapshot")) with
      | ok body => exact htrusted (.refl _ _)
      | error e => cases e <;> rfl
    | inr htrust =>
      obtain ⟨body, body', hbody, hbody', hrest⟩ := htrust
      rw [hbody, hbody']
      exact htrusted hrest

/-- An input with alike documents wherever `verifyTct` reads one. -/
structure TctInputAlike (inp inp' : Members) : Prop where
  rest : SameBut [txt "tct_token", txt "issuer_manifest", txt "issuer_revocation_list"] inp inp'
  token : ∃ token token', inp.get? (txt "tct_token") = some token ∧ inp'.get? (txt "tct_token") = some token' ∧
    TokenAlike P ExtRefilled token token'
  manifest : ReadManifestAlike (inp.get (txt "issuer_manifest")) (inp'.get (txt "issuer_manifest"))
  source : SourceAlike P (inp.get (txt "issuer_revocation_list")) (inp'.get (txt "issuer_revocation_list"))

/-- The claims of an alike token. -/
theorem TokenAlike.issued {R : Members → Members → Prop} {token token' : JsonValue} {typ : Text}
    (h : TokenAlike P R token token') (hrefl : ∀ c, R c c)
    (hiss : ∀ c c', R c c' → c'.get (txt "iss") = c.get (txt "iss")) (hi : IssuedToken P token typ claims) :
    ∃ claims', R claims claims' ∧ IssuedToken P token' typ claims' := by
  cases h with
  | inl heq => exact ⟨claims, hrefl claims, heq ▸ hi⟩
  | inr hreissued => exact hreissued.signed P hiss hi

theorem TokenAlike.refilled {token token' : JsonValue} {typ : Text} (h : TokenAlike P ExtRefilled token token')
    (hi : IssuedToken P token typ claims) : ∃ claims', ExtRefilled claims claims' ∧ IssuedToken P token' typ claims' :=
  h.issued P (fun _ => .refl _ _) (fun _ _ hc => hc.get (by decide)) hi

theorem ParsesTo.text {token : JsonValue} {parsed : ParsedJws} (h : ParsesTo P token parsed) : ∃ s, token = .str s := by
  obtain ⟨code, h⟩ := h
  cases token with
  | str s => exact ⟨s, rfl⟩
  | _ => cases h

/-- The claims an alike token parses to. -/
theorem TokenAlike.peeked {R : Members → Members → Prop} {token token' : JsonValue} {code : String}
    (h : TokenAlike P R token token') (hrefl : ∀ c, R c c) (hpeek : peekClaims P token code = .ok claims) :
    ∃ claims', R claims claims' ∧ peekClaims P token' code = .ok claims' := by
  cases h with
  | inl heq =>
    rw [heq]
    exact ⟨claims, hrefl claims, hpeek⟩
  | inr hreissued =>
    obtain ⟨first, parsed', hfirst, hparsed', _, hclaims, _⟩ := hreissued
    obtain ⟨parsed, hparsed, rfl⟩ := (peekClaims_eq_ok P).mp hpeek
    obtain rfl := hfirst.unique P hparsed
    exact ⟨parsed'.claims, hclaims, (peekClaims_eq_ok P).mpr ⟨parsed', hparsed', rfl⟩⟩

/-- A token accepted stays accepted, for the same grants. -/
theorem verifyTct_alike {now : Int} {r : Members} (h : TctInputAlike P inp inp') (hr : verifyTct P inp now = .ok r) :
    verifyTct P inp' now = .ok r := by
  obtain ⟨claims, ha, hresult⟩ := (verifyTct_eq_ok P).mp hr
  obtain ⟨token, token', htoken, htoken', halike⟩ := h.token
  obtain ⟨first, hfirst, hissued⟩ := ha.signed
  obtain rfl := Option.some.inj (htoken.symm.trans hfirst)
  obtain ⟨claims', hclaims, hissued'⟩ := halike.refilled P hissued
  have haccepted : TctAccepted P inp' now claims' := by
    constructor
    · exact ⟨token', htoken', hissued'⟩
    · exact ha.shape.refilled hclaims
    · rw [hclaims.get (by decide)]
      exact ha.ver
    · rw [h.rest.get (by decide), hclaims.get (by decide)]
      exact ha.aud
    · exact ha.grant.refilled P hclaims
    · rw [checkManifestCap_alike P (hclaims.get (by decide)) h.manifest]
      exact ha.cap
    · rw [checkRevocation_alike P (hclaims.get (by decide)) (hclaims.get (by decide)) h.rest (by decide) h.source]
      exact ha.revocation
  refine (verifyTct_eq_ok P).mpr ⟨claims', haccepted, ?_⟩
  rw [hclaims.get (by decide)]
  exact hresult

/-! ### Grant vouchers -/

/-- A voucher accepted stays accepted, for the same grants. -/
theorem verifyGrantVoucher_alike {now : Int} {r : Members} {token token' : JsonValue}
    (htoken : inp.get? (txt "voucher_token") = some token) (htoken' : inp'.get? (txt "voucher_token") = some token')
    (h : TokenAlike P ExtRefilled token token') (hr : verifyGrantVoucher P inp now = .ok r) :
    verifyGrantVoucher P inp' now = .ok r := by
  simp only [verifyGrantVoucher, bind_eq_ok, exists_unit, Members.index_eq_ok, htoken, htoken', Option.some.injEq,
    exists_eq_left', peekClaims_eq_ok, verifyJws_eq_ok, noCheck, and_true, checkVoucherClaimsShape_eq_ok] at hr ⊢
  obtain ⟨peeked, hpeeked, iss, hiss, claims, hsigned, hshape, hrest⟩ := hr
  have hissued := (issuedToken_iff P hshape.iss).mpr ⟨peeked, hpeeked, iss, hiss, hsigned⟩
  obtain ⟨claims', hclaims, hissued'⟩ := h.refilled P hissued
  have hshape' := hshape.refilled hclaims
  obtain ⟨peeked', hpeeked', iss', hiss', hsigned'⟩ := (issuedToken_iff P hshape'.iss).mp hissued'
  refine ⟨peeked', hpeeked', iss', hiss', claims', hsigned', hshape', ?_⟩
  rw [checkVer, checkExp, hclaims.get (by decide), hclaims.get (by decide), hclaims.get (by decide)]
  exact hrest

end AitpVerifier
