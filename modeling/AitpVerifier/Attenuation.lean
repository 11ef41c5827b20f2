import AitpVerifier.Delegation

/-!
# Delegation runs

The tokens an accepted delegation verified, oldest first, and what holds between
them: authority starts at a voucher the verifier signed and only narrows.
-/
namespace AitpVerifier

open PyText Checked

/-- A delegation token of a run, with the claims it carries. -/
structure Hop where
  token : JsonValue
  claims : Members

namespace Hop

def scope (hop : Hop) : List JsonValue := (hop.claims.get (txt "scope")).items

def exp (hop : Hop) : Int := (hop.claims.get (txt "exp")).intValue

def jti (hop : Hop) : JsonValue := hop.claims.get (txt "jti")

/-- A hop continues the one before it and holds no more than it. -/
structure Follows (prev hop : Hop) : Prop where
  continuity : hop.claims.get (txt "iss") = prev.claims.get (txt "sub")
  exp : hop.exp ≤ prev.exp
  scope : hop.scope ⊆ prev.scope

/-- Holding no more and no longer is transitive, continuity is not. -/
def Narrows (prev hop : Hop) : Prop := hop.exp ≤ prev.exp ∧ hop.scope ⊆ prev.scope

theorem Follows.narrows {prev hop : Hop} (h : Follows prev hop) : Narrows prev hop := ⟨h.exp, h.scope⟩

theorem Narrows.trans {a b c : Hop} (hab : Narrows a b) (hbc : Narrows b c) : Narrows a c :=
  ⟨hbc.1.trans hab.1, List.Subset.trans hbc.2 hab.2⟩

end Hop

variable (P : Platform)

/-- A hop's token verified under its own issuer's key, addressed to the verifier. -/
structure Hop.Verified (selfAid : Text) (now : Int) (hop : Hop) : Prop where
  token : HopToken P hop.token hop.claims
  claims : HopClaims selfAid hop.claims now

/-- A chain of verified hops under a voucher the verifier issued. -/
structure DelegationRun (selfAid : Text) (now : Int) (hops : List Hop) (voucher : Members) : Prop where
  verified : ∀ hop ∈ hops, hop.Verified P selfAid now
  chain : hops.IsChain Hop.Follows
  root : ∀ first ∈ hops.head?, RootVoucher P first.claims selfAid voucher ∧ WithinVoucher first.claims voucher now
  rootOnly : ∀ hop ∈ hops.tail, hop.claims.has (txt "voucher") = false
  distinct : (hops.map Hop.jti).Nodup

/-- The run of a root hop within its voucher. -/
theorem DelegationRun.ofRoot {selfAid : Text} {now : Int} {hop : Hop} {voucher : Members}
    (hv : hop.Verified P selfAid now) (hr : RootVoucher P hop.claims selfAid voucher)
    (hw : WithinVoucher hop.claims voucher now) : DelegationRun P selfAid now [hop] voucher where
  verified := by simpa using hv
  chain := .singleton _
  root := by simpa using ⟨hr, hw⟩
  rootOnly := by simp
  distinct := by simp

/-- A run grows by a hop that follows its last one. -/
theorem DelegationRun.extend {selfAid : Text} {now : Int} {done : List Hop} {last hop : Hop} {voucher : Members}
    (h : DelegationRun P selfAid now done voucher) (hlast : done.getLast? = some last)
    (hv : hop.Verified P selfAid now) (hf : last.Follows hop) (hno : hop.claims.has (txt "voucher") = false)
    (hj : hop.jti ∉ done.map Hop.jti) : DelegationRun P selfAid now (done ++ [hop]) voucher := by
  have hne : done ≠ [] := by
    rintro rfl
    simp at hlast
  refine ⟨?_, ?_, ?_, ?_, ?_⟩
  · intro h' hm
    rcases List.mem_append.mp hm with hm | hm
    · exact h.verified h' hm
    · rw [List.mem_singleton.mp hm]
      exact hv
  · refine List.isChain_append.mpr ⟨h.chain, .singleton _, fun a ha b hb => ?_⟩
    rw [hlast, Option.mem_some_iff] at ha
    simp only [List.head?_cons, Option.mem_some_iff] at hb
    subst ha hb
    exact hf
  · intro first hm
    rw [List.head?_append_of_ne_nil _ hne] at hm
    exact h.root first hm
  · intro h' hm
    rw [List.tail_append_of_ne_nil hne] at hm
    rcases List.mem_append.mp hm with hm | hm
    · exact h.rootOnly h' hm
    · rw [List.mem_singleton.mp hm]
      exact hno
  · rw [List.map_append, List.map_singleton, List.nodup_append]
    refine ⟨h.distinct, by simp, fun a ha b hb => ?_⟩
    rw [List.mem_singleton.mp hb]
    rintro rfl
    exact hj ha

/-! ### The hop loop -/

/-- What a hop of a multi-hop token satisfies beyond `Hop.Verified`. -/
structure HopBinding (claims : Members) : Prop where
  ver : claims.get (txt "ver") = .str protocolVersion
  cnf : ∃ sub, parseAid P (claims.get (txt "sub")).text = .ok sub ∧
    (claims.get (txt "cnf")).members.get (txt "jkt") = .str (thumbprint P sub)
  jti : (claims.get (txt "jti")).truthy

theorem verifyHop_eq_ok {inp : Members} {token : JsonValue} {selfAid : Text} {seenJti : List JsonValue} {now : Int}
    {hc : Members} :
    verifyHop P inp token selfAid seenJti now = .ok hc ↔
      Hop.Verified P selfAid now ⟨token, hc⟩ ∧ HopBinding P hc ∧ hc.get (txt "jti") ∉ seenJti ∧
        resolveIssuer P inp (hc.get (txt "iss")) now = .ok () := by
  have hmem (hs : DelegationShape hc) (hj : (hc.get (txt "jti")).truthy) :
      (hc.get (txt "jti")).isIn seenJti = false ↔ hc.get (txt "jti") ∉ seenJti := by
    obtain ⟨jti, hj⟩ := hs.jti hj
    simp only [JsonValue.isIn, hj, List.any_eq_false, JsonValue.eq_str]
    exact ⟨fun h hm => h _ hm rfl, fun h x hx he => h (he ▸ hx)⟩
  simp only [verifyHop, bind_eq_ok, exists_unit, verifyHopJws_eq_ok, raiseIf_eq_ok, Bool.not_eq_false',
    JsonValue.eq_str, checkDelegationAud_eq_ok, onValueError_eq_ok, checkCnf, Bool.or_eq_false_iff, Except.ok.injEq]
  constructor
  · rintro ⟨c, ⟨ht, hr⟩, hv, hsd, ha, sub, hsub, hcnf, ⟨hj, hseen⟩, hexp, rfl⟩
    rw [checkSelfDelegation_eq_ok ht.shape] at hsd
    rw [checkExp_eq_ok P (ht.shape.toInt_exp P)] at hexp
    exact ⟨⟨ht, hsd, ha, hexp⟩, ⟨hv, ⟨sub, hsub, hcnf⟩, hj⟩, (hmem ht.shape hj).mp hseen, hr⟩
  · rintro ⟨⟨ht, hsd, ha, hexp⟩, ⟨hv, ⟨sub, hsub, hcnf⟩, hj⟩, hseen, hr⟩
    refine ⟨hc, ⟨ht, hr⟩, hv, (checkSelfDelegation_eq_ok ht.shape).mpr hsd, ha, sub, hsub, hcnf,
      ⟨hj, (hmem ht.shape hj).mpr hseen⟩, (checkExp_eq_ok P (ht.shape.toInt_exp P)).mpr hexp, rfl⟩

theorem checkAgainstPrevious_eq_ok {hop prev : Hop} (hc : DelegationShape hop.claims)
    (hp : DelegationShape prev.claims) :
    checkAgainstPrevious P hop.claims prev.claims prev.scope = .ok () ↔
      hop.claims.has (txt "voucher") = false ∧ prev.Follows hop := by
  obtain ⟨sub, hs⟩ := hp.sub
  simp only [checkAgainstPrevious, bind_eq_ok, exists_unit, raiseIf_eq_ok, hs, hc.toInt_exp, hp.toInt_exp,
    Except.ok.injEq, exists_eq_left', Bool.not_eq_false', JsonValue.eq_str, decide_eq_false_iff_not, not_lt,
    JsonValue.subset_iff hc.scope]
  constructor
  · rintro ⟨hv, hi, he, hsc⟩
    exact ⟨hv, by rw [hi, hs], he, hsc⟩
  · rintro ⟨hv, hi, he, hsc⟩
    exact ⟨hv, by rw [hi, hs], he, hsc⟩

/-- The caller's Manifests, where there are any, designate every hop issuer's key. -/
def IssuersResolved (inp : Members) (now : Int) (hops : List Hop) : Prop :=
  ∀ hop ∈ hops, resolveIssuer P inp (hop.claims.get (txt "iss")) now = .ok ()

/-- The loop's state after the hops `done`. -/
structure ChainInvariant (inp : Members) (selfAid : Text) (now : Int) (done : List Hop) (state : ChainState) : Prop where
  run : DelegationRun P selfAid now done state.rootVoucher
  resolved : IssuersResolved P inp now done
  bound : ∀ hop ∈ done, HopBinding P hop.claims
  prev : state.prev = done.getLast?.map Hop.claims
  prevScope : ∀ last ∈ done.getLast?, state.prevScope = last.scope
  seenJti : ∀ jti, jti ∈ state.seenJti ↔ jti ∈ done.map Hop.jti

theorem ChainInvariant.start {inp : Members} {selfAid : Text} {now : Int} :
    ChainInvariant P inp selfAid now [] ChainState.start where
  run := ⟨by simp, .nil, by simp, by simp, by simp⟩
  resolved := by simp [IssuersResolved]
  bound := by simp
  prev := rfl
  prevScope := by simp
  seenJti := by simp [ChainState.start]

/-- One iteration verifies one more hop and keeps the invariant. -/
theorem ChainInvariant.step {inp : Members} {selfAid : Text} {now : Int} {done : List Hop} {state next : ChainState}
    {token : JsonValue} (hi : ChainInvariant P inp selfAid now done state)
    (h : stepHop P inp selfAid now state token = .ok next) :
    ∃ hop : Hop, hop.token = token ∧ ChainInvariant P inp selfAid now (done ++ [hop]) next := by
  simp only [stepHop, bind_eq_ok, verifyHop_eq_ok, Except.ok.injEq] at h
  obtain ⟨hc, ⟨hv, hb, hseen, hresolved⟩, rootVoucher, hroot, rfl⟩ := h
  refine ⟨⟨token, hc⟩, rfl, ?_, ?_, ?_, by simp, by simp [Hop.scope], ?_⟩
  · -- the root hop comes with its voucher, a later one follows its predecessor
    rcases List.eq_nil_or_concat' done with rfl | ⟨init, last, rfl⟩
    · have hp : state.prev = none := hi.prev
      simp only [hopAuthority, hp, bind_eq_ok, exists_unit, verifyRootVoucher_eq_ok, Except.ok.injEq] at hroot
      obtain ⟨vclaims, hr, hw, rfl⟩ := hroot
      rw [checkAgainstVoucher_eq_ok P hv.token.shape hr.shape] at hw
      exact .ofRoot P hv hr hw
    · have hlast : (init ++ [last]).getLast? = some last := by simp
      have hp : state.prev = some last.claims := by rw [hi.prev, hlast]; rfl
      have hps : state.prevScope = last.scope := hi.prevScope last hlast
      have hl : DelegationShape last.claims := (hi.run.verified last (by simp)).token.shape
      simp only [hopAuthority, hp, hps, bind_eq_ok, exists_unit, Except.ok.injEq] at hroot
      obtain ⟨hcheck, rfl⟩ := hroot
      obtain ⟨hno, hf⟩ := (@checkAgainstPrevious_eq_ok P ⟨token, hc⟩ _ hv.token.shape hl).mp hcheck
      exact hi.run.extend P hlast hv hf hno (fun hm => hseen ((hi.seenJti _).mpr hm))
  · intro hop hm
    rcases List.mem_append.mp hm with hm | hm
    · exact hi.resolved hop hm
    · rw [List.mem_singleton.mp hm]
      exact hresolved
  · intro hop hm
    rcases List.mem_append.mp hm with hm | hm
    · exact hi.bound hop hm
    · rw [List.mem_singleton.mp hm]
      exact hb
  · intro jti
    simp [hi.seenJti, Hop.jti, or_comm]

/-- The loop over any tokens keeps the invariant, one hop a token. -/
theorem ChainInvariant.hops {inp : Members} {selfAid : Text} {now : Int} {done : List Hop} {state final : ChainState}
    {tokens : List JsonValue} (hi : ChainInvariant P inp selfAid now done state)
    (h : runHops P inp selfAid now state tokens = .ok final) :
    ∃ more : List Hop, more.map Hop.token = tokens ∧ ChainInvariant P inp selfAid now (done ++ more) final := by
  induction tokens generalizing done state with
  | nil =>
    obtain rfl : state = final := by simpa [runHops] using h
    exact ⟨[], rfl, by simpa using hi⟩
  | cons token rest ih =>
    obtain ⟨next, hs, hr⟩ := bind_eq_ok.mp h
    obtain ⟨hop, rfl, hi'⟩ := hi.step P hs
    obtain ⟨more, rfl, hi''⟩ := ih hi' hr
    exact ⟨hop :: more, rfl, by simpa using hi''⟩

/-! ### Both paths -/

/-- A multi-hop token lists at most two predecessors. -/
theorem chainHops_eq_ok {outer : Members} {token : JsonValue} {tokens : List JsonValue}
    (h : chainHops P outer token = .ok tokens) :
    tokens = (outer.get (txt "chain")).items ++ [token] ∧ tokens.length ≤ maxDelegationHops := by
  simp only [chainHops, bind_eq_ok, exists_unit, raiseIf_eq_ok, decide_eq_false_iff_not, not_lt] at h
  obtain ⟨length, hl, hle, _, _, _, _, _, h⟩ := h
  cases hc : outer.get (txt "chain") with
  | list chain =>
    rw [hc] at h hl
    obtain rfl : chain ++ [token] = tokens := by simpa using h
    obtain rfl : chain.length = length := by simpa [JsonValue.length] using hl
    simp only [List.length_append, List.length_singleton]
    exact ⟨rfl, by omega⟩
  | _ => simp [hc] at h

/-- The revocation steps of a run: the source token, and on a chain every hop. -/
structure RevocationSwept (inp : Members) (now : Int) (selfAid : Text) (hops : List Hop) (voucher : Members)
    (chained : Bool) : Prop where
  source : ∃ bodies, verifiedSnapshotBodies P inp selfAid = .ok bodies ∧
    checkSourceTctRevocation P inp bodies selfAid (voucher.get (txt "src_jti")) now = .ok ()
  sweep : chained → ∃ bodies fresh, verifiedSnapshotBodies P inp selfAid = .ok bodies ∧
    freshBodies P (policyOf inp) now bodies = .ok fresh ∧
    ∀ hop ∈ hops, sweepHop P (policyFailMode inp) fresh hop.token = .ok ()

/-- An accepted delegation: its run, oldest hop first, and the checks around it. -/
structure AcceptedRun (inp : Members) (now : Int) (selfAid : Text) (hops : List Hop) (last : Hop)
    (voucher : Members) : Prop where
  self : inp.get (txt "self_aid") = .str selfAid
  run : DelegationRun P selfAid now hops voucher
  resolved : IssuersResolved P inp now hops
  atMost : hops.length ≤ maxDelegationHops
  outer : hops.getLast? = some last
  token : last.token = inp.get (txt "delegation_token")
  /-- The outer token's `chain` lists the other hops. -/
  chain : hops.map Hop.token = (last.claims.get (txt "chain")).items ++ [last.token]
  bound : last.claims.has (txt "chain") → ∀ hop ∈ hops, HopBinding P hop.claims
  revocation : RevocationSwept P inp now selfAid hops voucher (last.claims.has (txt "chain"))

/-- The run of the single-hop path. -/
theorem verifySingleHop_run {inp : Members} {token : JsonValue} {selfAid : Text} {now : Int} {grants : JsonValue}
    (h : verifySingleHop P inp token selfAid now = .ok grants) :
    ∃ hop voucher, hop.token = token ∧ hop.claims.get (txt "scope") = grants ∧
      DelegationRun P selfAid now [hop] voucher ∧ IssuersResolved P inp now [hop] ∧
      RevocationSwept P inp now selfAid [hop] voucher false := by
  simp only [verifySingleHop, bind_eq_ok, exists_unit, verifyHopJws_eq_ok, checkDelegationAud_eq_ok,
    verifyRootVoucher_eq_ok, Except.ok.injEq] at h
  obtain ⟨claims, ⟨ht, hresolved⟩, hsd, ha, hexp, voucher, hr, hw, bodies, hbodies, hsource, hg⟩ := h
  rw [checkSelfDelegation_eq_ok ht.shape] at hsd
  rw [checkExp_eq_ok P (ht.shape.toInt_exp P)] at hexp
  rw [checkAgainstVoucher_eq_ok P ht.shape hr.shape] at hw
  exact ⟨⟨token, claims⟩, voucher, rfl, hg, .ofRoot P ⟨ht, hsd, ha, hexp⟩ hr hw,
    by simpa [IssuersResolved] using hresolved, ⟨bodies, hbodies, hsource⟩, by simp⟩

/-- The run of the multi-hop path. -/
theorem verifyMultihop_run {inp : Members} {token : JsonValue} {outer : Members} {selfAid : Text} {now : Int}
    {grants : JsonValue} (h : verifyMultihop P inp token outer selfAid now = .ok grants) :
    ∃ hops last voucher, hops.map Hop.token = (outer.get (txt "chain")).items ++ [token] ∧
      hops.length ≤ maxDelegationHops ∧ hops.getLast? = some last ∧ last.claims.get (txt "scope") = grants ∧
      DelegationRun P selfAid now hops voucher ∧ IssuersResolved P inp now hops ∧
      (∀ hop ∈ hops, HopBinding P hop.claims) ∧ RevocationSwept P inp now selfAid hops voucher true := by
  simp only [verifyMultihop, bind_eq_ok, exists_unit, forEach_eq_ok] at h
  obtain ⟨tokens, htokens, final, hrun, bodies, hbodies, hsource, fresh, hfresh, hsweep, h⟩ := h
  obtain ⟨rfl, hle⟩ := chainHops_eq_ok P htokens
  obtain ⟨hops, hmap, hi⟩ := (ChainInvariant.start P).hops P hrun
  rw [List.nil_append] at hi
  have hlen : hops.length = ((outer.get (txt "chain")).items ++ [token]).length := by rw [← hmap, List.length_map]
  have hswept : RevocationSwept P inp now selfAid hops final.rootVoucher true := by
    refine ⟨⟨bodies, hbodies, hsource⟩, fun _ => ⟨bodies, fresh, hbodies, hfresh, fun hop hm => hsweep _ ?_⟩⟩
    rw [← hmap]
    exact List.mem_map_of_mem hm
  rw [hi.prev] at h
  cases hl : hops.getLast? with
  | none => simp [hl] at h
  | some last =>
    have hg : last.claims.get (txt "scope") = grants := by simpa [hl] using h
    exact ⟨hops, last, final.rootVoucher, hmap, hlen ▸ hle, hl, hg, hi.run, hi.resolved, hi.bound, hswept⟩

/-- The claims of a run's hop are those its token parses to. -/
theorem DelegationRun.claims_eq {selfAid : Text} {now : Int} {hops : List Hop} {voucher outer : Members} {hop : Hop}
    (h : DelegationRun P selfAid now hops voucher) (hm : hop ∈ hops)
    (hp : ∃ parsed, ParsesTo P hop.token parsed ∧ parsed.claims = outer) : outer = hop.claims := by
  obtain ⟨_, _, hsigned⟩ := (h.verified hop hm).token.signed
  exact hsigned.claims_unique P hp

/-- Every accepted delegation has a run, whose last hop's scope is what it grants. -/
theorem verifyDelegationToken_run {inp : Members} {now : Int} {r : Members}
    (h : verifyDelegationToken P inp now = .ok r) :
    ∃ selfAid hops last voucher, AcceptedRun P inp now selfAid hops last voucher ∧
      r = [(txt "grants", last.claims.get (txt "scope"))] := by
  simp only [verifyDelegationToken, bind_eq_ok, exists_unit, raiseIf_eq_ok, peekClaims_eq_ok] at h
  obtain ⟨_, outer, hpeek, _, h⟩ := h
  cases hself : inp.get (txt "self_aid") with
  | str selfAid =>
    simp only [hself, bind_eq_ok, Except.ok.injEq] at h
    obtain ⟨grants, hg, rfl⟩ := h
    unfold delegationGrants at hg
    split at hg
    · rename_i hchain
      obtain ⟨hops, last, voucher, hmap, hle, hl, rfl, hrun, hresolved, hbound, hswept⟩ := verifyMultihop_run P hg
      have htoken : last.token = inp.get (txt "delegation_token") := by
        have hlast := congrArg List.getLast? hmap
        rw [List.getLast?_map, hl, List.getLast?_append, List.getLast?_singleton] at hlast
        exact Option.some.inj hlast
      obtain rfl := hrun.claims_eq P (List.mem_of_getLast? hl) (htoken ▸ hpeek)
      exact ⟨selfAid, hops, last, voucher,
        ⟨hself, hrun, hresolved, hle, hl, htoken, by rw [hmap, htoken], fun _ => hbound, by rwa [hchain]⟩, rfl⟩
    · rename_i hchain
      obtain ⟨hop, voucher, htoken, rfl, hrun, hresolved, hswept⟩ := verifySingleHop_run P hg
      obtain rfl := hrun.claims_eq P (List.mem_singleton_self hop) (htoken ▸ hpeek)
      have hnone : hop.claims.get (txt "chain") = .null := by
        rw [Members.get, Option.not_isSome_iff_eq_none.mp hchain]
        rfl
      refine ⟨selfAid, [hop], hop, voucher, ⟨hself, hrun, hresolved, by simp [maxDelegationHops], rfl, htoken, ?_, ?_, ?_⟩, rfl⟩
      · simp [hnone, JsonValue.items]
      · exact fun hc => absurd hc hchain
      · rwa [Bool.eq_false_iff.mpr hchain]
  | _ => simp [hself] at h

/-! ### Authority only narrows -/

/-- Along a run every hop narrows down to the last one. -/
theorem DelegationRun.narrows_last {selfAid : Text} {now : Int} {hops : List Hop} {voucher : Members} {last : Hop}
    (h : DelegationRun P selfAid now hops voucher) (hl : hops.getLast? = some last) :
    ∀ hop ∈ hops, hop = last ∨ hop.Narrows last := by
  obtain ⟨init, rfl⟩ := List.getLast?_eq_some_iff.mp hl
  have hchain : (init ++ [last]).IsChain Hop.Narrows := h.chain.imp fun _ _ hf => hf.narrows
  have : IsTrans Hop Hop.Narrows := ⟨fun _ _ _ => Hop.Narrows.trans⟩
  have hpair := List.isChain_iff_pairwise.mp hchain
  intro hop hm
  rcases List.mem_append.mp hm with hm | hm
  · exact .inr ((List.pairwise_append.mp hpair).2.2 hop hm last (by simp))
  · exact .inl (List.mem_singleton.mp hm)

/-- What an accepted delegation grants, and the run that grants it. -/
structure Attenuation (inp : Members) (now : Int) (grants : JsonValue) (selfAid : Text) (hops : List Hop)
    (voucher : Members) : Prop where
  self : inp.get (txt "self_aid") = .str selfAid
  run : DelegationRun P selfAid now hops voucher
  atMost : hops.length ≤ maxDelegationHops
  /-- The outer token is the last hop; its `chain` lists the others. -/
  outer : ∃ last, hops.getLast? = some last ∧ last.token = inp.get (txt "delegation_token") ∧
    last.claims.get (txt "scope") = grants ∧
    hops.map Hop.token = (last.claims.get (txt "chain")).items ++ [last.token]
  withinVoucher : grants.items ⊆ (voucher.get (txt "grants")).items
  withinHops : ∀ hop ∈ hops, grants.items ⊆ hop.scope
  expiry : ∀ last ∈ hops.getLast?, last.exp ≤ (voucher.get (txt "exp")).intValue ∧ ∀ hop ∈ hops, last.exp ≤ hop.exp

/-- The bounds of a run's last hop follow from the run. -/
theorem AcceptedRun.attenuation {inp : Members} {now : Int} {selfAid : Text} {hops : List Hop} {last : Hop}
    {voucher : Members} (h : AcceptedRun P inp now selfAid hops last voucher) :
    Attenuation P inp now (last.claims.get (txt "scope")) selfAid hops voucher := by
  have hnarrow := h.run.narrows_last P h.outer
  have hscope : ∀ hop ∈ hops, last.scope ⊆ hop.scope := fun hop hm => by
    rcases hnarrow hop hm with rfl | hn
    · exact List.Subset.refl _
    · exact hn.2
  have hexp : ∀ hop ∈ hops, last.exp ≤ hop.exp := fun hop hm => by
    rcases hnarrow hop hm with rfl | hn
    · exact le_refl _
    · exact hn.1
  have hmem : last ∈ hops := List.mem_of_getLast? h.outer
  obtain ⟨first, hfirst⟩ : ∃ first, hops.head? = some first := by
    cases hops with
    | nil => cases hmem
    | cons first rest => exact ⟨first, rfl⟩
  obtain ⟨_, hw⟩ := h.run.root first hfirst
  have hmem : first ∈ hops := List.mem_of_mem_head? hfirst
  refine ⟨h.self, h.run, h.atMost, ⟨last, h.outer, h.token, rfl, h.chain⟩, ?_, hscope, ?_⟩
  · exact List.Subset.trans (hscope first hmem) hw.scope
  · intro l hl
    rw [h.outer, Option.mem_some_iff] at hl
    subst hl
    exact ⟨(hexp first hmem).trans hw.exp, hexp⟩

/-- Accepted delegations only narrow authority: from a voucher the verifier issued,
hop by hop, to the grants returned. -/
theorem verifyDelegationToken_attenuates (inp : Members) (now : Int) (r : Members)
    (h : verifyDelegationToken P inp now = .ok r) :
    ∃ grants selfAid hops voucher, r = [(txt "grants", grants)] ∧ Attenuation P inp now grants selfAid hops voucher := by
  obtain ⟨selfAid, hops, last, voucher, haccepted, hr⟩ := verifyDelegationToken_run P h
  exact ⟨_, selfAid, hops, voucher, hr, haccepted.attenuation P⟩

/-! ### A recorded run: agent A's grant to B, delegated to C and on -/

/-- The grant agent A gave agent B. -/
def voucherClaims : Members :=
  [(txt "ver", .str (txt "aitp/0.3")), (txt "iss", .str (aidOf agentA)), (txt "sub", .str (aidOf agentB)),
    (txt "grants", .list [.str (txt "read"), .str (txt "write")]), (txt "iat", .int 1711900000),
    (txt "exp", .int 1711990000), (txt "src_jti", .str (txt "c1"))]

def voucherSignature : Text :=
  txt "geA_OToUvvllX5vTHYCOs9ISlocwb95UKZOoWFye" ++
    txt "i_DAmg1P9U0Ok12eHovbZfe68T-VbLkfmoq37JTV" ++ txt "OgaZAQ"

def voucherToken : JsonValue := mintedToken voucherTyp voucherClaims voucherSignature

/-- Agent B delegates to agent C; the version is left open. -/
def firstHopClaims (ver : Text) : Members :=
  [(txt "ver", .str ver), (txt "iss", .str (aidOf agentB)), (txt "sub", .str (aidOf agentC)),
    (txt "aud", .str (aidOf agentA)), (txt "scope", .list [.str (txt "read")]), (txt "exp", .int 1711986400),
    (txt "cnf", .dict [(txt "jkt", .str thumbprintC)]), (txt "jti", .str (txt "d1")), (txt "voucher", voucherToken)]

def firstHopSignature : Text :=
  txt "KZJUWw_zNzMqhzHtyp6Qt6zlEIbXk3YlN6ElVmXT" ++
    txt "00oscyi76oVwhI3l81Z5N5Ogf7wgjpU1yf2iVYGt" ++ txt "Ik1_BA"

def firstHopToken : JsonValue := mintedToken delegationTyp (firstHopClaims protocolVersion) firstHopSignature

def firstHopDigest : Text := txt "FAePQh1tVQO_D2ixJwuO9qOP" ++ txt "d7WVRsjtZzoXeTDXxgI"

def chainHash : Text := txt "rVoLoIgjy068-15U4Jy5fflY" ++ txt "i-HT7buooNmfxFBP3B8"

/-- Agent C delegates on, for less time. -/
def lastHopClaims : Members :=
  [(txt "ver", .str (txt "aitp/0.3")), (txt "iss", .str (aidOf agentC)), (txt "sub", .str (aidOf agentB)),
    (txt "aud", .str (aidOf agentA)), (txt "scope", .list [.str (txt "read")]), (txt "exp", .int 1711903600),
    (txt "cnf", .dict [(txt "jkt", .str thumbprintB)]), (txt "jti", .str (txt "d2")),
    (txt "chain", .list [firstHopToken]), (txt "chain_hash", .str chainHash)]

def lastHopSignature : Text :=
  txt "sFlc3hktU-Mp1jW1HfbAqNKl5yCFYhTnFNFppkxl" ++
    txt "O-NsNKjjGDPCfezwVb4K_R4vTAvNrSsL-GkN77lq" ++ txt "3SHzAA"

def lastHopToken : JsonValue := mintedToken delegationTyp lastHopClaims lastHopSignature

/-- What agent A verifies, with every issuer's deny list at hand. -/
def delegationInput (token : JsonValue) : Members :=
  [(txt "delegation_token", token), (txt "self_aid", .str (aidOf agentA)), (txt "_feature", .str multihopFeature),
    (txt "revocation_snapshots", .list
      [.dict [(txt "snapshot", snapshotOf agentA snapshotSignatureA)],
        .dict [(txt "issuer_aid", .str (aidOf agentB)), (txt "snapshot", snapshotOf agentB snapshotSignatureB)],
        .dict [(txt "issuer_aid", .str (aidOf agentC)), (txt "snapshot", snapshotOf agentC snapshotSignatureC)]])]

def delegationRecording : Recording where
  digests := [recordedThumbprint agentB thumbprintB, recordedThumbprint agentC thumbprintC,
    (asciiOctets firstHopToken.text, firstHopDigest),
    (octetsFrom (Jcs.canonicalize (.list [.str firstHopDigest])), chainHash),
    snapshotDigest agentA snapshotDigestA, snapshotDigest agentB snapshotDigestB, snapshotDigest agentC snapshotDigestC]
  signatures := [mintedSignature agentA voucherTyp voucherClaims voucherSignature,
    mintedSignature agentB delegationTyp (firstHopClaims protocolVersion) firstHopSignature,
    mintedSignature agentC delegationTyp lastHopClaims lastHopSignature,
    ⟨agentA, snapshotSignatureA, octetsOf snapshotDigestA⟩, ⟨agentB, snapshotSignatureB, octetsOf snapshotDigestB⟩,
    ⟨agentC, snapshotSignatureC, octetsOf snapshotDigestC⟩]

theorem lastHop_accepted :
    verifyDelegationToken delegationRecording.platform (delegationInput lastHopToken) referenceClock =
      .ok [(txt "grants", .list [.str (txt "read")])] := by
  decide +kernel

/-- The two-token run narrows agent A's grant. -/
theorem verifyDelegationToken_attenuates_lastHop :
    ∃ grants selfAid hops voucher, [(txt "grants", .list [.str (txt "read")])] = [(txt "grants", grants)] ∧
      Attenuation delegationRecording.platform (delegationInput lastHopToken) referenceClock grants selfAid hops voucher :=
  verifyDelegationToken_attenuates delegationRecording.platform (delegationInput lastHopToken) referenceClock _
    lastHop_accepted

end AitpVerifier
