import AitpVerifier.Delegation
import AitpVerifier.Extensions

/-!
# Delegation tokens with other extensions

A chain whose tokens, whose voucher or whose Manifests and snapshots carry other
extensions runs through the hop loop as it did, hop by hop.
-/
namespace AitpVerifier

open PyText Checked

variable (P : Platform)

/-- Claims of a delegation token, alike but for `ext`, for the voucher's, and for a chain
nobody reads: the chain that counts is the outer token's. -/
structure HopAlike (claims claims' : Members) : Prop where
  rest : SameBut [txt "ext", txt "voucher", txt "chain", txt "chain_hash"] claims claims'
  voucher : claims'.get? (txt "voucher") = claims.get? (txt "voucher") ∨
    ∃ voucher voucher', claims.get? (txt "voucher") = some voucher ∧ claims'.get? (txt "voucher") = some voucher' ∧
      TokenAlike P ExtRefilled voucher voucher'
  chain : claims'.get? (txt "chain") = claims.get? (txt "chain") ∨ claims.has (txt "chain") = true ∧
    ∃ entries, claims'.get? (txt "chain") = some (.list entries)
  chainHash : claims'.get? (txt "chain_hash") = claims.get? (txt "chain_hash") ∨
    ∃ hash, claims'.get? (txt "chain_hash") = some (.str hash)

/-- Claims of the outer token, its chain as it was or alike hop by hop and committed to
again. -/
structure OuterAlike (claims claims' : Members) : Prop where
  hop : HopAlike P claims claims'
  chain : claims'.get? (txt "chain") = claims.get? (txt "chain") ∧
      claims'.get? (txt "chain_hash") = claims.get? (txt "chain_hash") ∨
    ∃ entries entries' hash, claims.get? (txt "chain") = some (.list entries) ∧
      claims'.get? (txt "chain") = some (.list entries') ∧
      List.Forall₂ (TokenAlike P (HopAlike P)) entries entries' ∧ computeChainHash P entries' = .ok hash ∧
      claims'.get? (txt "chain_hash") = some (.str hash)

variable {claims claims' inp inp' : Members} {token token' : JsonValue}

namespace HopAlike

theorem refl (claims : Members) : HopAlike P claims claims := ⟨.refl _ _, .inl rfl, .inl rfl, .inl rfl⟩

variable (h : HopAlike P claims claims')

include h

theorem get {key : Text} (hk : key ∉ [txt "ext", txt "voucher", txt "chain", txt "chain_hash"]) :
    claims'.get key = claims.get key := h.rest.get hk

theorem hasVoucher : claims'.has (txt "voucher") = claims.has (txt "voucher") := by
  rw [Members.has, Members.has]
  cases h.voucher with
  | inl hsame => rw [hsame]
  | inr hvouchers =>
    obtain ⟨voucher, voucher', hvoucher, hvoucher', _⟩ := hvouchers
    rw [hvoucher, hvoucher']
    rfl

theorem hasChain : claims'.has (txt "chain") = claims.has (txt "chain") := by
  cases h.chain with
  | inl hsame => rw [Members.has, hsame, Members.has]
  | inr hchains =>
    obtain ⟨hhas, entries, hentries⟩ := hchains
    rw [hhas, Members.has, hentries]
    rfl

/-- The voucher carried is alike. -/
theorem voucherToken : TokenAlike P ExtRefilled (claims.get (txt "voucher")) (claims'.get (txt "voucher")) := by
  cases h.voucher with
  | inl hsame => exact .inl (by rw [Members.get, hsame, Members.get])
  | inr hvouchers =>
    obtain ⟨voucher, voucher', hvoucher, hvoucher', halike⟩ := hvouchers
    rw [Members.get_of_get? hvoucher, Members.get_of_get? hvoucher']
    exact halike

theorem shape (hs : DelegationShape claims) : DelegationShape claims' := by
  constructor
  · apply h.rest.shaped hs.shaped
    · intro key hk hrequired
      have hoptional : ∀ key ∈ [txt "ext", txt "voucher", txt "chain", txt "chain_hash"],
          key ∉ delegationRequiredClaims := by decide
      exact absurd hrequired (hoptional key hk)
    · intro entry he hin value hv
      have htypes : ∀ entry ∈ delegationClaimTypes, (entry.1 ≠ txt "ext") ∧ (entry.1 = txt "voucher" → entry.2 = .str) ∧
          (entry.1 = txt "chain" → entry.2 = .list) ∧ (entry.1 = txt "chain_hash" → entry.2 = .str) := by decide
      obtain ⟨hext, hvoucher, hchain, hhash⟩ := htypes entry he
      simp only [List.mem_cons, List.not_mem_nil, or_false] at hin
      rcases hin with hslot | hslot | hslot | hslot
      · exact absurd hslot hext
      · cases h.voucher with
        | inl hsame =>
          rw [hslot, hsame, ← hslot] at hv
          exact hs.shaped.typed entry he value hv
        | inr hvouchers =>
          obtain ⟨first, voucher', hfirst, hvoucher', halike⟩ := hvouchers
          rw [hslot, hvoucher'] at hv
          obtain rfl := Option.some.inj hv
          cases halike with
          | inl heq =>
            rw [← hslot] at hfirst
            rw [heq]
            exact hs.shaped.typed entry he first hfirst
          | inr hreissued =>
            obtain ⟨_, parsed', _, hparsed', _⟩ := hreissued
            obtain ⟨s, rfl⟩ := hparsed'.text
            rw [hvoucher hslot]
            rfl
      · cases h.chain with
        | inl hsame =>
          rw [hslot, hsame, ← hslot] at hv
          exact hs.shaped.typed entry he value hv
        | inr hchains =>
          obtain ⟨_, entries, hentries⟩ := hchains
          rw [hslot, hentries] at hv
          rw [← Option.some.inj hv, hchain hslot]
          rfl
      · cases h.chainHash with
        | inl hsame =>
          rw [hslot, hsame, ← hslot] at hv
          exact hs.shaped.typed entry he value hv
        | inr hhashes =>
          obtain ⟨text, htext⟩ := hhashes
          rw [hslot, htext] at hv
          rw [← Option.some.inj hv, hhash hslot]
          rfl
  · rw [h.get P (by decide)]
    exact hs.scope
  · exact h.rest.known hs.known (by decide)
  · rw [h.get P (by decide)]
    exact hs.cnfKnown

end HopAlike

theorem OuterAlike.refl (claims : Members) : OuterAlike P claims claims := ⟨.refl P _, .inl ⟨rfl, rfl⟩⟩

/-! ### The issuers' Manifests -/

/-- The Manifest source as it was, or with alike Manifests. -/
def IssuersAlike (source source' : Option JsonValue) : Prop :=
  source' = source ∨ ∃ manifests manifests', source = some manifests ∧ source' = some manifests' ∧
    ManifestsAlike P manifests manifests'

theorem resolveIssuer_alike {iss : JsonValue} {now : Int}
    (h : IssuersAlike P (inp.get? (txt "issuer_manifests")) (inp'.get? (txt "issuer_manifests")))
    (hr : resolveIssuer P inp iss now = .ok ()) : resolveIssuer P inp' iss now = .ok () := by
  rw [resolveIssuer] at hr ⊢
  cases h with
  | inl hsame =>
    rw [hsame]
    exact hr
  | inr hsources =>
    obtain ⟨manifests, manifests', hmanifests, hmanifests', halike⟩ := hsources
    rw [hmanifests] at hr
    rw [hmanifests']
    simp only [resolveKeyFromManifests, bind_eq_ok, Prod.exists] at hr ⊢
    obtain ⟨aid, haid, key, ⟨resolved, man, hresolved, hkey⟩, hdone⟩ := hr
    obtain ⟨man', hman', _⟩ := resolveManifest_alike P halike hresolved
    exact ⟨aid, haid, key, ⟨resolved, man', hman', hkey⟩, hdone⟩

/-! ### The supplied snapshots -/

/-- A supplied record around an alike snapshot. -/
def RecordAlike (record record' : JsonValue) : Prop :=
  record' = record ∨ ∃ labelled labelled' : Members, record = .dict labelled ∧ record' = .dict labelled' ∧
    SameBut [txt "snapshot"] labelled labelled' ∧ SnapshotAlike P (labelled.get (txt "snapshot")) (labelled'.get (txt "snapshot"))

/-- The records as they were, or alike one by one. -/
def RecordsAlike (records records' : JsonValue) : Prop :=
  records' = records ∨ ∃ items items', records = .list items ∧ records' = .list items' ∧
    List.Forall₂ (RecordAlike P) items items'

/-- Bodies alike but for their extensions. -/
abbrev BodiesAlike (bodies bodies' : List Members) : Prop := List.Forall₂ (SameBut [txt "extensions"]) bodies bodies'

theorem snapshotBody_alike {selfAid : Text} {record record' : JsonValue} {body : Option Members}
    (h : RecordAlike P record record') (hr : snapshotBody P selfAid record = .ok body) :
    ∃ body', snapshotBody P selfAid record' = .ok body' ∧ Option.Rel (SameBut [txt "extensions"]) body body' := by
  have hrefl (body : Option Members) : Option.Rel (SameBut [txt "extensions"]) body body := by
    cases body with
    | none => exact .none
    | some body => exact .some (.refl _ _)
  cases h with
  | inl hsame => exact ⟨body, hsame ▸ hr, hrefl body⟩
  | inr hlabels =>
    obtain ⟨labelled, labelled', rfl, rfl, hrest, hsnapshot⟩ := hlabels
    have hread (m : Members) : (JsonValue.dict m).members = m := rfl
    cases verifySnapshotTrust_alike P hsnapshot with
    | inl htrust =>
      refine ⟨body, ?_, hrefl body⟩
      rw [snapshotBody, hread] at hr ⊢
      rw [htrust, hrest.get (by decide)]
      exact hr
    | inr htrusted =>
      obtain ⟨first, body', hfirst, hbody', halike⟩ := htrusted
      rw [snapshotBody, hread, hfirst] at hr
      refine ⟨some body', ?_, ?_⟩
      · rw [snapshotBody, hread, hbody']
      · rw [← Except.ok.inj hr]
        exact .some halike

theorem filterMap_alike {bodies bodies' : List (Option Members)}
    (h : List.Forall₂ (Option.Rel (SameBut [txt "extensions"])) bodies bodies') :
    BodiesAlike (bodies.filterMap id) (bodies'.filterMap id) := by
  induction h with
  | nil => exact .nil
  | cons hfirst _ ih =>
    cases hfirst with
    | none => exact ih
    | some hbody => exact .cons hbody ih

theorem verifiedSnapshotBodies_alike {selfAid : Text} {bodies : List Members}
    (h : RecordsAlike P (inp.get (txt "revocation_snapshots")) (inp'.get (txt "revocation_snapshots")))
    (hr : verifiedSnapshotBodies P inp selfAid = .ok bodies) :
    ∃ bodies', verifiedSnapshotBodies P inp' selfAid = .ok bodies' ∧ BodiesAlike bodies bodies' := by
  rw [verifiedSnapshotBodies] at hr ⊢
  cases h with
  | inl hsame =>
    rw [hsame]
    exact ⟨bodies, hr, List.forall₂_same.mpr fun _ _ => .refl _ _⟩
  | inr hitems =>
    obtain ⟨items, items', hlist, hlist', halike⟩ := hitems
    rw [hlist] at hr
    rw [hlist']
    obtain ⟨found, hfound, hresult⟩ := bind_eq_ok.mp hr
    obtain ⟨found', hfound', hsame⟩ := collect_alike halike (fun _ _ _ h hr => snapshotBody_alike P h hr) hfound
    rw [← Except.ok.inj hresult]
    exact ⟨found'.filterMap id, bind_eq_ok.mpr ⟨found', hfound', rfl⟩, filterMap_alike hsame⟩

theorem freshBodies_alike {policy : Members} {now : Int} {bodies bodies' fresh : List Members}
    (h : BodiesAlike bodies bodies') (hr : freshBodies P policy now bodies = .ok fresh) :
    ∃ fresh', freshBodies P policy now bodies' = .ok fresh' ∧ BodiesAlike fresh fresh' := by
  induction h generalizing fresh with
  | nil =>
    cases hr
    exact ⟨[], rfl, .nil⟩
  | cons hbody _ ih =>
    rw [freshBodies] at hr ⊢
    obtain ⟨stale, hstale, hr⟩ := bind_eq_ok.mp hr
    obtain ⟨rest, hrest, hresult⟩ := bind_eq_ok.mp hr
    obtain ⟨rest', hrest', halike⟩ := ih hrest
    rw [snapshotIsStale_alike P hbody, hstale, ok_bind, hrest', ok_bind]
    rw [← Except.ok.inj hresult]
    cases stale with
    | true => exact ⟨rest', rfl, halike⟩
    | false => exact ⟨_, rfl, .cons hbody halike⟩

theorem checkSourceTctRevocation_alike {slots : List Text} {bodies bodies' : List Members} {selfAid : Text}
    {srcJti : JsonValue} {now : Int} (hrest : SameBut slots inp inp') (hslots : txt "policy" ∉ slots)
    (h : BodiesAlike bodies bodies') (hr : checkSourceTctRevocation P inp bodies selfAid srcJti now = .ok ()) :
    checkSourceTctRevocation P inp' bodies' selfAid srcJti now = .ok () := by
  have hissuer (body body' : Members) (hbody : SameBut [txt "extensions"] body body') :
      (body'.get (txt "issuer")).eq (.str selfAid) = (body.get (txt "issuer")).eq (.str selfAid) := by
    rw [hbody.get (by decide)]
  have hown := filter_alike h hissuer
  rw [checkSourceTctRevocation] at hr ⊢
  obtain ⟨applicable, happlicable, hr⟩ := bind_eq_ok.mp hr
  obtain ⟨applicable', happlicable', halike⟩ := freshBodies_alike P hown happlicable
  have hlists : applicable'.any (fun body => lists body srcJti) = applicable.any (fun body => lists body srcJti) :=
    any_alike halike fun _ _ hbody => lists_alike hbody srcJti
  rw [policyOf_alike hrest hslots, happlicable', ok_bind, isEmpty_alike halike, isEmpty_alike hown, hlists,
    policyFailMode_alike hrest hslots]
  exact hr

/-! ### One hop -/

/-- What a delegation run reads of the verifier's own input. -/
structure DelegationContext (inp inp' : Members) : Prop where
  rest : SameBut [txt "delegation_token", txt "issuer_manifests", txt "revocation_snapshots"] inp inp'
  issuers : IssuersAlike P (inp.get? (txt "issuer_manifests")) (inp'.get? (txt "issuer_manifests"))
  records : RecordsAlike P (inp.get (txt "revocation_snapshots")) (inp'.get (txt "revocation_snapshots"))

variable {selfAid : Text} {now : Int} {vclaims : Members}

theorem verifyHopJws_alike (hcontext : DelegationContext P inp inp') (h : TokenAlike P (HopAlike P) token token')
    (hr : verifyHopJws P inp token now = .ok claims) :
    ∃ claims', verifyHopJws P inp' token' now = .ok claims' ∧ HopAlike P claims claims' := by
  rw [verifyHopJws_eq_ok] at hr
  obtain ⟨hhop, hissuer⟩ := hr
  obtain ⟨claims', hclaims, hissued'⟩ :=
    h.issued P (.refl P) (fun _ _ hc => hc.get P (by decide)) hhop.signed
  refine ⟨claims', (verifyHopJws_eq_ok P).mpr ⟨⟨hissued', hclaims.shape P hhop.shape⟩, ?_⟩, hclaims⟩
  rw [hclaims.get P (by decide)]
  exact resolveIssuer_alike P hcontext.issuers hissuer

/-- The voucher a hop carries verifies again, with alike claims. -/
theorem verifyRootVoucher_alike {missing : Text} (h : HopAlike P claims claims')
    (hr : verifyRootVoucher P claims selfAid missing = .ok vclaims) :
    ∃ vclaims', verifyRootVoucher P claims' selfAid missing = .ok vclaims' ∧ ExtRefilled vclaims vclaims' := by
  obtain ⟨⟨voucher, hvoucher, hsigned⟩, hiss, hshape⟩ := (verifyRootVoucher_eq_ok P).mp hr
  have hissued : IssuedToken P (claims.get (txt "voucher")) voucherTyp vclaims := by
    rw [hvoucher]
    exact ⟨selfAid, hiss, hsigned⟩
  obtain ⟨vclaims', hvclaims, hissued'⟩ := (h.voucherToken P).refilled P hissued
  have hiss' : vclaims'.get (txt "iss") = .str selfAid := by
    rw [hvclaims.get (by decide)]
    exact hiss
  obtain ⟨iss, heq, hsigned'⟩ := hissued'
  obtain rfl := JsonValue.str.inj (hiss'.symm.trans heq)
  obtain ⟨parsed, hparsed, _⟩ := hsigned'.parses
  obtain ⟨text, htext⟩ := hparsed.text
  refine ⟨vclaims', (verifyRootVoucher_eq_ok P).mpr ⟨⟨text, htext, ?_⟩, hiss', hshape.refilled hvclaims⟩, hvclaims⟩
  rw [← htext]
  exact hsigned'

theorem checkAgainstVoucher_alike {vclaims' : Members} {lacked expired exceeded : Text} (h : HopAlike P claims claims')
    (hv : ExtRefilled vclaims vclaims') : checkAgainstVoucher P claims' vclaims' now lacked expired exceeded =
      checkAgainstVoucher P claims vclaims now lacked expired exceeded := by
  rw [checkAgainstVoucher, hv.get (by decide), hv.get (by decide), hv.get (by decide), h.get P (by decide),
    h.get P (by decide), h.get P (by decide), checkAgainstVoucher]

/-- The state of the loop, over alike hops. -/
structure ChainAlike (state state' : ChainState) : Prop where
  prev : Option.Rel (HopAlike P) state.prev state'.prev
  prevScope : state'.prevScope = state.prevScope
  seenJti : state'.seenJti = state.seenJti
  rootVoucher : ExtRefilled state.rootVoucher state'.rootVoucher

variable {state state' final : ChainState} {hop hop' : JsonValue}

theorem verifyHop_alike {seenJti : List JsonValue} (hcontext : DelegationContext P inp inp')
    (h : TokenAlike P (HopAlike P) hop hop') (hr : verifyHop P inp hop selfAid seenJti now = .ok claims) :
    ∃ claims', verifyHop P inp' hop' selfAid seenJti now = .ok claims' ∧ HopAlike P claims claims' := by
  rw [verifyHop] at hr ⊢
  obtain ⟨hc, hhop, hr⟩ := bind_eq_ok.mp hr
  obtain ⟨hc', hhop', halike⟩ := verifyHopJws_alike P hcontext h hhop
  rw [hhop', ok_bind, checkSelfDelegation, checkDelegationAud, checkExp]
  simp only [checkCnf, halike.get P (by decide : txt "ver" ∉ _), halike.get P (by decide : txt "iss" ∉ _),
    halike.get P (by decide : txt "sub" ∉ _), halike.get P (by decide : txt "aud" ∉ _),
    halike.get P (by decide : txt "cnf" ∉ _), halike.get P (by decide : txt "jti" ∉ _),
    halike.get P (by decide : txt "exp" ∉ _)]
  simp only [checkSelfDelegation, checkDelegationAud, checkExp, checkCnf, bind_eq_ok, exists_unit, Except.ok.injEq] at hr ⊢
  obtain ⟨hver, hself, haud, sub, hsub, hcnf, hjti, hexp, rfl⟩ := hr
  exact ⟨hc', ⟨hver, hself, haud, sub, hsub, hcnf, hjti, hexp, rfl⟩, halike⟩

theorem checkAgainstPrevious_alike {prev prev' : Members} {prevScope : List JsonValue} (h : HopAlike P claims claims')
    (hprev : HopAlike P prev prev') :
    checkAgainstPrevious P claims' prev' prevScope = checkAgainstPrevious P claims prev prevScope := by
  rw [checkAgainstPrevious, h.hasVoucher P, h.get P (by decide), hprev.get P (by decide), h.get P (by decide),
    hprev.get P (by decide), h.get P (by decide), checkAgainstPrevious]

theorem hopAuthority_alike (hstate : ChainAlike P state state') (h : HopAlike P claims claims')
    (hr : hopAuthority P state claims selfAid now = .ok vclaims) :
    ∃ vclaims', hopAuthority P state' claims' selfAid now = .ok vclaims' ∧ ExtRefilled vclaims vclaims' := by
  rw [hopAuthority] at hr ⊢
  have hprev := hstate.prev
  cases hp : state.prev with
  | none =>
    rw [hp] at hprev hr
    cases hp' : state'.prev with
    | none =>
      obtain ⟨voucher, hvoucher, hr⟩ := bind_eq_ok.mp hr
      obtain ⟨_, hwithin, hresult⟩ := bind_eq_ok.mp hr
      obtain ⟨voucher', hvoucher', halike⟩ := verifyRootVoucher_alike P h hvoucher
      rw [← Except.ok.inj hresult]
      refine ⟨voucher', ?_, halike⟩
      rw [hvoucher', ok_bind, checkAgainstVoucher_alike P h halike, hwithin]
      rfl
    | some prev' =>
      rw [hp'] at hprev
      cases hprev
  | some prev =>
    rw [hp] at hprev hr
    cases hp' : state'.prev with
    | none =>
      rw [hp'] at hprev
      cases hprev
    | some prev' =>
      rw [hp'] at hprev
      cases hprev with
      | some hprev =>
        obtain ⟨_, hagainst, hresult⟩ := bind_eq_ok.mp hr
        rw [← Except.ok.inj hresult]
        refine ⟨state'.rootVoucher, ?_, hstate.rootVoucher⟩
        dsimp only
        rw [hstate.prevScope, checkAgainstPrevious_alike P h hprev, hagainst]
        rfl

/-- One iteration of the loop keeps the states alike. -/
theorem stepHop_alike (hcontext : DelegationContext P inp inp') (hstate : ChainAlike P state state')
    (h : TokenAlike P (HopAlike P) hop hop') (hr : stepHop P inp selfAid now state hop = .ok final) :
    ∃ final', stepHop P inp' selfAid now state' hop' = .ok final' ∧ ChainAlike P final final' := by
  rw [stepHop] at hr ⊢
  obtain ⟨hc, hhop, hr⟩ := bind_eq_ok.mp hr
  obtain ⟨voucher, hvoucher, hresult⟩ := bind_eq_ok.mp hr
  obtain ⟨hc', hhop', halike⟩ := verifyHop_alike P hcontext h hhop
  obtain ⟨voucher', hvoucher', hroot⟩ := hopAuthority_alike P hstate halike hvoucher
  rw [hstate.seenJti, hhop', ok_bind, hvoucher', ok_bind]
  rw [← Except.ok.inj hresult]
  have hscope : hc'.get (txt "scope") = hc.get (txt "scope") := halike.get P (by decide)
  have hjti : hc'.get (txt "jti") = hc.get (txt "jti") := halike.get P (by decide)
  rw [hscope, hjti]
  exact ⟨_, rfl, .some halike, rfl, rfl, hroot⟩

/-- The loop keeps the states alike: by induction on the hops. -/
theorem runHops_alike {hops hops' : List JsonValue} (hcontext : DelegationContext P inp inp')
    (h : List.Forall₂ (TokenAlike P (HopAlike P)) hops hops') (hstate : ChainAlike P state state')
    (hr : runHops P inp selfAid now state hops = .ok final) :
    ∃ final', runHops P inp' selfAid now state' hops' = .ok final' ∧ ChainAlike P final final' := by
  induction h generalizing state state' with
  | nil =>
    rw [← Except.ok.inj hr]
    exact ⟨state', rfl, hstate⟩
  | cons hfirst _ ih =>
    rw [runHops] at hr ⊢
    obtain ⟨next, hnext, hrest⟩ := bind_eq_ok.mp hr
    obtain ⟨next', hnext', hnextAlike⟩ := stepHop_alike P hcontext hstate hfirst hnext
    rw [hnext', ok_bind]
    exact ih hnextAlike hrest

/-! ### The whole token -/

theorem TokenAlike.mono {R R' : Members → Members → Prop} (h : TokenAlike P R token token')
    (hsub : ∀ c c', R c c' → R' c c') : TokenAlike P R' token token' := by
  cases h with
  | inl heq => exact .inl heq
  | inr hreissued =>
    obtain ⟨parsed, parsed', hparsed, hparsed', hheader, hclaims, hsigned⟩ := hreissued
    exact .inr ⟨parsed, parsed', hparsed, hparsed', hheader, hsub _ _ hclaims, hsigned⟩

theorem verifySingleHop_alike {scope : JsonValue} (hcontext : DelegationContext P inp inp')
    (h : TokenAlike P (HopAlike P) token token') (hr : verifySingleHop P inp token selfAid now = .ok scope) :
    verifySingleHop P inp' token' selfAid now = .ok scope := by
  rw [verifySingleHop] at hr ⊢
  obtain ⟨hc, hhop, hr⟩ := bind_eq_ok.mp hr
  obtain ⟨hc', hhop', halike⟩ := verifyHopJws_alike P hcontext h hhop
  simp only [checkSelfDelegation, checkDelegationAud, checkExp, bind_eq_ok, exists_unit] at hr
  obtain ⟨hself, haud, hexp, voucher, hvoucher, hwithin, bodies, hbodies, hsource, hresult⟩ := hr
  obtain ⟨voucher', hvoucher', hroot⟩ := verifyRootVoucher_alike P halike hvoucher
  obtain ⟨bodies', hbodies', hbodiesAlike⟩ := verifiedSnapshotBodies_alike P hcontext.records hbodies
  rw [hhop', ok_bind]
  simp only [checkSelfDelegation, checkDelegationAud, checkExp, bind_eq_ok, exists_unit]
  rw [halike.get P (by decide), halike.get P (by decide), halike.get P (by decide), halike.get P (by decide),
    halike.get P (by decide)]
  refine ⟨hself, haud, hexp, voucher', hvoucher', ?_, bodies', hbodies', ?_, hresult⟩
  · rw [checkAgainstVoucher_alike P halike hroot]
    exact hwithin
  · rw [hroot.get (by decide)]
    exact checkSourceTctRevocation_alike P hcontext.rest (by decide) hbodiesAlike hsource

theorem sweepHop_alike {mode : FailMode} {fresh fresh' : List Members} (hfresh : BodiesAlike fresh fresh')
    (h : TokenAlike P (HopAlike P) hop hop') (hr : sweepHop P mode fresh hop = .ok ()) :
    sweepHop P mode fresh' hop' = .ok () := by
  rw [sweepHop] at hr ⊢
  obtain ⟨hc, hpeek, hr⟩ := bind_eq_ok.mp hr
  obtain ⟨hc', halike, hpeek'⟩ := h.peeked P (.refl P) hpeek
  obtain ⟨iss, hiss, hr⟩ := bind_eq_ok.mp hr
  have hissuer (body body' : Members) (hbody : SameBut [txt "extensions"] body body') :
      (body'.get (txt "issuer")).eq (.str iss) = (body.get (txt "issuer")).eq (.str iss) := by
    rw [hbody.get (by decide)]
  have hown := filter_alike hfresh hissuer
  have hjti : hc'.get (txt "jti") = hc.get (txt "jti") := halike.get P (by decide)
  have hlists := any_alike hown fun _ _ hbody => lists_alike hbody (hc.get (txt "jti"))
  rw [hpeek', ok_bind, halike.get P (by decide), hiss, ok_bind, hjti]
  simp only [hlists, isEmpty_alike hown]
  exact hr

/-- The hops of a token whose chain is an array: few enough, and committed to. -/
theorem chainHops_list {outer : Members} {entries hops : List JsonValue} (hentries : outer.get (txt "chain") = .list entries) :
    chainHops P outer token = .ok hops ↔ entries.length < maxDelegationHops ∧
      ∃ hash, computeChainHash P entries = .ok hash ∧ outer.get (txt "chain_hash") = .str hash ∧ entries ++ [token] = hops := by
  simp [chainHops, hentries, JsonValue.length, JsonValue.elements, bind_eq_ok, raiseIf_eq_ok, ok_bind]

/-- The hops of an alike outer token are alike one by one. -/
theorem chainHops_alike {outer outer' : Members} {hops : List JsonValue} (h : OuterAlike P outer outer')
    (htoken : TokenAlike P (HopAlike P) token token') (hr : chainHops P outer token = .ok hops) :
    ∃ hops', chainHops P outer' token' = .ok hops' ∧ List.Forall₂ (TokenAlike P (HopAlike P)) hops hops' := by
  have happend {chain chain' : List JsonValue} (hchain : List.Forall₂ (TokenAlike P (HopAlike P)) chain chain') :
      List.Forall₂ (TokenAlike P (HopAlike P)) (chain ++ [token]) (chain' ++ [token']) :=
    List.rel_append hchain (.cons htoken .nil)
  cases h.chain with
  | inl hsame =>
    have hchain' : outer'.get (txt "chain") = outer.get (txt "chain") := by rw [Members.get, hsame.1, Members.get]
    have hhash' : outer'.get (txt "chain_hash") = outer.get (txt "chain_hash") := by rw [Members.get, hsame.2, Members.get]
    cases hchain : outer.get (txt "chain") with
    | list entries =>
      rw [hchain] at hchain'
      obtain ⟨hlength, hash, hcommit, hhash, rfl⟩ := (chainHops_list P hchain).mp hr
      refine ⟨entries ++ [token'], (chainHops_list P hchain').mpr ⟨hlength, hash, hcommit, ?_, rfl⟩, ?_⟩
      · rw [hhash', hhash]
      · exact happend (List.forall₂_same.mpr fun _ _ => .inl rfl)
    | _ =>
      simp only [chainHops, hchain, bind_eq_ok] at hr
      obtain ⟨_, _, _, _, _, _, _, _, _, _, hr⟩ := hr
      cases hr
  | inr hchains =>
    obtain ⟨entries, entries', hash', hentries, hentries', halike, hcommit', hhash'⟩ := hchains
    obtain ⟨hlength, _, _, _, rfl⟩ := (chainHops_list P (Members.get_of_get? hentries)).mp hr
    refine ⟨entries' ++ [token'], (chainHops_list P (Members.get_of_get? hentries')).mpr ?_, happend halike⟩
    rw [← halike.length_eq]
    exact ⟨hlength, hash', hcommit', Members.get_of_get? hhash', rfl⟩

theorem verifyMultihop_alike {outer outer' : Members} {scope : JsonValue} (hcontext : DelegationContext P inp inp')
    (h : OuterAlike P outer outer') (htoken : TokenAlike P (HopAlike P) token token')
    (hr : verifyMultihop P inp token outer selfAid now = .ok scope) :
    verifyMultihop P inp' token' outer' selfAid now = .ok scope := by
  simp only [verifyMultihop, bind_eq_ok, exists_unit] at hr ⊢
  obtain ⟨hops, hhops, final, hfinal, bodies, hbodies, hsource, fresh, hfresh, hswept, hresult⟩ := hr
  obtain ⟨hops', hhops', halike⟩ := chainHops_alike P h htoken hhops
  have hstart : ChainAlike P .start .start := ⟨.none, rfl, rfl, .refl _ _⟩
  obtain ⟨final', hfinal', hstate⟩ := runHops_alike P hcontext halike hstart hfinal
  obtain ⟨bodies', hbodies', hbodiesAlike⟩ := verifiedSnapshotBodies_alike P hcontext.records hbodies
  obtain ⟨fresh', hfresh', hfreshAlike⟩ := freshBodies_alike P hbodiesAlike hfresh
  rw [policyOf_alike hcontext.rest (by decide), policyFailMode_alike hcontext.rest (by decide)]
  refine ⟨hops', hhops', final', hfinal', bodies', hbodies', ?_, fresh', hfresh', ?_, ?_⟩
  · rw [hstate.rootVoucher.get (by decide)]
    exact checkSourceTctRevocation_alike P hcontext.rest (by decide) hbodiesAlike hsource
  · exact forEach_alike halike (fun _ _ hhop hr => sweepHop_alike P hfreshAlike hhop hr) hswept
  · have hprev := hstate.prev
    cases hp : final.prev with
    | none =>
      rw [hp] at hresult
      cases hresult
    | some last =>
      rw [hp] at hprev hresult
      cases hp' : final'.prev with
      | none =>
        rw [hp'] at hprev
        cases hprev
      | some last' =>
        rw [hp'] at hprev
        cases hprev with
        | some hlast =>
          dsimp only
          rw [hlast.get P (by decide)]
          exact hresult

/-- An input with an alike token, alike Manifests or alike snapshots. -/
structure DelegationAlike (inp inp' : Members) : Prop where
  context : DelegationContext P inp inp'
  token : TokenAlike P (OuterAlike P) (inp.get (txt "delegation_token")) (inp'.get (txt "delegation_token"))

/-- A delegation accepted stays accepted, for the same grants. -/
theorem verifyDelegationToken_alike {r : Members} (h : DelegationAlike P inp inp')
    (hr : verifyDelegationToken P inp now = .ok r) : verifyDelegationToken P inp' now = .ok r := by
  have hrest := h.context.rest
  simp only [verifyDelegationToken, bind_eq_ok, exists_unit] at hr ⊢
  obtain ⟨hpresent, outer, hpeek, hfeature, hr⟩ := hr
  obtain ⟨outer', houter, hpeek'⟩ := h.token.peeked P (.refl P) hpeek
  have htoken := h.token.mono P fun _ _ houter => houter.hop
  obtain ⟨parsed', hparsed', _⟩ := (peekClaims_eq_ok P).mp hpeek'
  obtain ⟨text, htext⟩ := hparsed'.text
  refine ⟨?_, outer', hpeek', ?_, ?_⟩
  · rw [htext]
    rfl
  · rw [houter.hop.hasChain P, hrest.get (by decide)]
    exact hfeature
  · rw [hrest.get (by decide : txt "self_aid" ∉ _)]
    cases hself : inp.get (txt "self_aid") with
    | str selfAid =>
      rw [hself] at hr
      obtain ⟨grants, hgrants, hresult⟩ := bind_eq_ok.mp hr
      refine bind_eq_ok.mpr ⟨grants, ?_, hresult⟩
      rw [delegationGrants] at hgrants ⊢
      rw [houter.hop.hasChain P]
      split at hgrants
      · rename_i hchain
        rw [if_pos hchain]
        exact verifyMultihop_alike P h.context houter htoken hgrants
      · rename_i hchain
        rw [if_neg hchain]
        exact verifySingleHop_alike P h.context htoken hgrants
    | _ =>
      rw [hself] at hr
      cases hr

end AitpVerifier
