import AitpVerifier.MintedDocuments
import AitpVerifier.Mislabelling

/-!
# The issuers a delegation fixture leaves out

The harness adds a fresh, empty snapshot for each issuer of a delegation fixture that no
supplied record is labelled with. Such an issuer may then stay silent under `fail_closed`,
unless the policy refuses even a list published now. What was supplied decides as before.
-/
namespace AitpVerifier

open PyText Checked DenyList

variable (P : Platform)

/-! ### What was supplied -/

/-- A supplied record carries the issuer's label. -/
def Labelled (records : List JsonValue) (issuer : Text) : Prop :=
  ∃ record ∈ records, record.members.get (txt "issuer_aid") = .str issuer

/-- The policy accepts a list published at the time it is read. -/
def AdmitsToday (policy : Members) : Prop :=
  policy.get (txt "max_staleness_secs") = .null ∨
    ∃ bound, P.toInt (policy.get (txt "max_staleness_secs")) = .ok bound ∧ 0 ≤ bound

/-- The supplied snapshots clear the identifier for its issuer, who has to be known only
under a label of its own or under a policy that refuses every list. -/
def Heard (inp : Members) (records : List JsonValue) (now : Int) (issuer : Text) (jti : JsonValue) : Prop :=
  Cleared (policyFailMode inp = .failClosed ∧ (Labelled records issuer ∨ ¬ AdmitsToday P (policyOf inp)))
    {body | AnswersFor P inp now issuer body} Lists jti

def HopHeard (inp : Members) (records : List JsonValue) (now : Int) (hop : JsonValue) : Prop :=
  ∃ claims iss, peekClaims P hop "DELEGATION_INVALID_SIGNATURE" = .ok claims ∧ claims.get (txt "iss") = .str iss ∧
    Heard P inp records now iss (claims.get (txt "jti"))

/-- A delegation cleared by what was supplied. -/
structure FindingHeard (inp : Members) (records : List JsonValue) (now : Int) (finding : DelegationFinding) : Prop where
  source : Heard P inp records now finding.selfAid finding.srcJti
  swept : ∀ hops, finding.swept = some hops → ∀ hop ∈ hops, HopHeard P inp records now hop

/-! ### One added snapshot -/

/-- The deny list of an added snapshot. -/
def emptyBody (now : Int) (issuer : Text) : Members :=
  [(txt "version", .str protocolVersion), (txt "issuer", .str issuer), (txt "published_at", .int now),
    (txt "expires_at", .int (now + 3600)), (txt "entries", .list [])]

theorem emptyBody_names (now : Int) (issuer : Text) : (emptyBody now issuer).names = requiredRevocationBodyFields := rfl

theorem emptyBody_shape (now : Int) (issuer : Text) : RevocationBody (emptyBody now issuer) where
  shaped := by
    constructor
    · intro key hk
      exact Members.mem_names_iff.mp (emptyBody_names now issuer ▸ hk)
    · intro entry hm value hv
      simp only [revocationBodyTypes, List.mem_cons, List.not_mem_nil, or_false] at hm
      rcases hm with rfl | rfl | rfl | rfl | rfl | rfl <;> cases hv <;> rfl
  version := rfl
  entries := by
    intro entry hm
    cases hm

theorem emptyBody_lists (now : Int) (issuer : Text) (jti : JsonValue) : ¬ Lists (emptyBody now issuer) jti := by
  intro h
  cases h

theorem emptyBody_fresh {now : Int} {issuer : Text} {policy : Members} :
    Fresh P (emptyBody now issuer) policy now ↔ AdmitsToday P policy := by
  have hpublished : ((emptyBody now issuer).get (txt "published_at")).intValue = now := rfl
  have hexpires : ((emptyBody now issuer).get (txt "expires_at")).intValue = now + 3600 := rfl
  constructor
  · intro h
    have hrecent := h.recent
    rwa [hpublished, Int.sub_self] at hrecent
  · intro h
    constructor
    · rw [hexpires]
      omega
    · rw [hpublished, Int.sub_self]
      exact h

/-- A record the harness adds: the issuer's label over its signed, empty deny list. -/
structure AddedRecord (keys : KatKeys) (now : Int) (issuer : Text) (record : JsonValue) : Prop where
  label : record.members.get (txt "issuer_aid") = .str issuer
  trusted : (∃ aid, parseAid P issuer = .ok aid) →
    verifySnapshotTrust P (record.members.get (txt "snapshot")) = .ok (emptyBody now issuer)

variable {P}

theorem emptySnapshot_added {keys : KatKeys} (hkeys : TrueKeys P keys) {now : Int} {issuer : Text} {record : JsonValue}
    (h : emptySnapshot P keys now (.str issuer) = .ok record) : AddedRecord P keys now issuer record := by
  simp only [emptySnapshot, bind_eq_ok, Except.ok.injEq] at h
  obtain ⟨key, hkey, octets, hoctets, sig, hsig, rfl⟩ := h
  have hlookup : keys.lookup issuer = some key := by
    rw [KatKeys.index] at hkey
    cases hfound : keys.lookup issuer <;> simp_all
  refine ⟨rfl, ?_⟩
  rintro ⟨aid, hparse⟩
  have hlist : Members.get [(txt "revocation_list", .dict (emptyBody now issuer)), (txt "signature", .str sig)]
      (txt "revocation_list") = .dict (emptyBody now issuer) := rfl
  refine (verifySnapshotTrust_eq_ok hlist).mpr ⟨⟨emptyBody_shape now issuer, ?_, ?_, ?_, ⟨aid, hparse⟩⟩,
    ⟨?_, rfl, rfl, emptyBody_shape now issuer⟩, rfl, aid, octets, hparse, hoctets, hkeys.fieldVerifies hlookup hparse hsig⟩
  · exact fun key hk => hk
  · rw [emptyBody_names]
    decide
  · intro entry hm
    cases hm
  · intro key hk
    exact Members.mem_names_iff.mp hk

/-- A time placeholder resolves to a number, which is no one's key. -/
theorem emptySnapshot_resolved {keys : KatKeys} {now : Int} {s : Text} {value record : JsonValue}
    (hvalue : resolveTime P now s = .ok value) (h : emptySnapshot P keys now value = .ok record) : value = .str s := by
  have hnumber (n : Int) : emptySnapshot P keys now (.int n) ≠ .ok record := by
    simp [emptySnapshot, bind_eq_ok]
  rcases resolveTime_eq_ok P hvalue with rfl | ⟨n, rfl⟩
  · rfl
  · exact absurd h (hnumber n)

/-! ### The input with its issuers covered -/

/-- What the harness makes of a delegation input: a record behind the supplied ones for
each named issuer that none of them is labelled with. -/
structure Covering (keys : KatKeys) (inp : Members) (records : List JsonValue) (named : List JsonValue) (now : Int)
    (out : Members) (added : List JsonValue) : Prop where
  rest : AgreeExcept [txt "revocation_snapshots"] inp out
  list : out.get (txt "revocation_snapshots") = .list (records ++ added)
  forth : ∀ record ∈ added, ∃ issuer, .str issuer ∈ named ∧ ¬ Labelled records issuer ∧ AddedRecord P keys now issuer record
  back : ∀ issuer, .str issuer ∈ named → ¬ Labelled records issuer → ∃ record ∈ added, AddedRecord P keys now issuer record

theorem labelled_iff {records : List JsonValue} {issuer : Text} :
    (JsonValue.str issuer).isIn ((records.filter JsonValue.isDict).map fun r => r.members.get (txt "issuer_aid")) = true ↔
      Labelled records issuer := by
  rw [JsonValue.isIn, List.any_map, List.any_eq_true]
  simp only [Function.comp_apply, JsonValue.eq_str, List.mem_filter]
  constructor
  · rintro ⟨record, ⟨hm, _⟩, hlabel⟩
    exact ⟨record, hm, hlabel⟩
  · rintro ⟨record, hm, hlabel⟩
    refine ⟨record, ⟨hm, ?_⟩, hlabel⟩
    cases record with
    | dict members => rfl
    | _ => cases hlabel

theorem coverUnsuppliedIssuers_covering {keys : KatKeys} (hkeys : TrueKeys P keys) {inp out : Members}
    {records : List JsonValue} (hrecords : inp.get (txt "revocation_snapshots") = .list records)
    (h : coverUnsuppliedIssuers P inp keys = .ok out) :
    ∃ claims hopIssuers now added, unverifiedClaims P (inp.get (txt "delegation_token")) = .ok claims ∧
      collect (fun hop => do
        let hopClaims ← unverifiedClaims P hop
        .ok (hopClaims.get (txt "iss"))) (claims.get (txt "chain")).items = .ok hopIssuers ∧
      P.toInt ((inp.get? (txt "now")).getD (.int referenceClock)) = .ok now ∧
      Covering (P := P) keys inp records (inp.get (txt "self_aid") :: claims.get (txt "iss") :: hopIssuers) now out added := by
  rw [coverUnsuppliedIssuers, hrecords] at h
  simp only [bind_eq_ok, exists_unit] at h
  obtain ⟨claims, hclaims, hopIssuers, hhops, _, now, hnow, _, h⟩ := h
  generalize hnamed : inp.get (txt "self_aid") :: claims.get (txt "iss") :: hopIssuers = named at h ⊢
  generalize hissuers : (((named.filter JsonValue.isStr).map JsonValue.text).eraseDups.filter fun aid =>
    !(JsonValue.str aid).isIn ((records.filter JsonValue.isDict).map fun r => r.members.get (txt "issuer_aid"))) = issuers at h
  have hmem (issuer : Text) : issuer ∈ issuers ↔ .str issuer ∈ named ∧ ¬ Labelled records issuer := by
    rw [← hissuers, List.mem_filter, List.mem_eraseDups, List.mem_map, ← labelled_iff, Bool.not_eq_eq_eq_not, Bool.not_true,
      Bool.not_eq_true]
    refine and_congr_left fun _ => ?_
    constructor
    · rintro ⟨value, hvalue, rfl⟩
      obtain ⟨hm, hstr⟩ := List.mem_filter.mp hvalue
      cases value with
      | str s => exact hm
      | _ => cases hstr
    · intro hm
      exact ⟨.str issuer, List.mem_filter.mpr ⟨hm, rfl⟩, rfl⟩
  by_cases hempty : issuers.isEmpty
  · rw [if_pos hempty] at h
    obtain rfl := Except.ok.inj h
    rw [List.isEmpty_iff] at hempty
    subst hempty hnamed
    refine ⟨claims, hopIssuers, now, [], hclaims, hhops, hnow, fun _ _ => rfl, by rw [List.append_nil, hrecords], ?_, ?_⟩
    · intro record hm
      cases hm
    · intro issuer hm hfree
      cases (hmem issuer).mpr ⟨hm, hfree⟩
  · rw [if_neg hempty] at h
    simp only [bind_eq_ok, Except.ok.injEq] at h
    obtain ⟨resolved, hresolved, signed, hsigned, rfl⟩ := h
    subst hnamed
    refine ⟨claims, hopIssuers, now, signed, hclaims, hhops, hnow, agreeExcept_insert _ _ _, Members.get_insert_self _ _ _, ?_, ?_⟩
    · intro record hm
      obtain ⟨value, hvalue, hrecord⟩ := (mem_collect hsigned).mp hm
      obtain ⟨issuer, hissuer, hresolve⟩ := (mem_collect hresolved).mp hvalue
      obtain rfl := emptySnapshot_resolved hresolve hrecord
      exact ⟨issuer, ((hmem issuer).mp hissuer).1, ((hmem issuer).mp hissuer).2, emptySnapshot_added hkeys hrecord⟩
    · intro issuer hm hfree
      obtain ⟨value, hvalue, hresolve⟩ := exists_mem_of_collect hresolved ((hmem issuer).mpr ⟨hm, hfree⟩)
      obtain ⟨record, hadded, hrecord⟩ := exists_mem_of_collect hsigned hvalue
      obtain rfl := emptySnapshot_resolved hresolve hrecord
      exact ⟨record, hadded, emptySnapshot_added hkeys hrecord⟩

/-! ### The issuers a delegation looks up -/

variable (P) in
/-- An identifier that parses. -/
def ParsedIssuer (value : JsonValue) : Prop := ∃ issuer aid, value = .str issuer ∧ parseAid P issuer = .ok aid

/-- The parties of a delegation whose checks passed: the verifier and the issuer of each
of its tokens, the outer one and those of its chain. -/
structure DelegationParties (P : Platform) (inp : Members) (finding : DelegationFinding) (outer : Members) : Prop where
  peeked : peekClaims P (inp.get (txt "delegation_token")) "DELEGATION_INVALID_SIGNATURE" = .ok outer
  self : inp.get (txt "self_aid") = .str finding.selfAid
  selfParsed : ParsedIssuer P (.str finding.selfAid)
  outerParsed : ParsedIssuer P (outer.get (txt "iss"))
  hopParsed : ∀ hop ∈ (outer.get (txt "chain")).items, ∃ claims,
    peekClaims P hop "DELEGATION_INVALID_SIGNATURE" = .ok claims ∧ ParsedIssuer P (claims.get (txt "iss"))
  swept : ∀ hops, finding.swept = some hops → hops = (outer.get (txt "chain")).items ++ [inp.get (txt "delegation_token")]

theorem HopToken.parties {token : JsonValue} {claims : Members} (h : HopToken P token claims) :
    peekClaims P token "DELEGATION_INVALID_SIGNATURE" = .ok claims ∧ ParsedIssuer P (claims.get (txt "iss")) := by
  obtain ⟨iss, hiss, hsigned⟩ := h.signed
  refine ⟨(peekClaims_eq_ok P).mpr hsigned.parses, ?_⟩
  obtain ⟨_, aid, _, _, _, _, hparse, _⟩ := hsigned
  exact ⟨iss, aid, hiss, hparse⟩

theorem RootVoucher.selfParsed {claims vclaims : Members} {selfAid : Text} (h : RootVoucher P claims selfAid vclaims) :
    ParsedIssuer P (.str selfAid) := by
  obtain ⟨_, _, _, aid, _, _, _, _, hparse, _⟩ := h.carried
  exact ⟨selfAid, aid, rfl, hparse⟩

theorem delegationChecks_parties {inp : Members} {now : Int} {finding : DelegationFinding}
    (h : delegationChecks P inp now = .ok finding) : ∃ outer, DelegationParties P inp finding outer := by
  simp only [delegationChecks, bind_eq_ok, exists_unit] at h
  obtain ⟨_, outer, hpeek, _, h⟩ := h
  refine ⟨outer, ?_⟩
  cases hself : inp.get (txt "self_aid") with
  | str selfAid =>
    simp only [hself, delegationPathChecks] at h
    split at h
    · simp only [multihopChecks, bind_eq_ok, Except.ok.injEq] at h
      obtain ⟨tokens, htokens, final, hrun, rfl⟩ := h
      obtain ⟨done, hmap, hi⟩ := (ChainInvariant.start P).hops P hrun
      rw [List.nil_append] at hi
      have hlist := (chainHops_eq_ok P htokens).1
      have hverified (token : JsonValue) (hm : token ∈ tokens) : ∃ claims, HopToken P token claims := by
        rw [← hmap] at hm
        obtain ⟨hop, hhop, rfl⟩ := List.mem_map.mp hm
        exact ⟨hop.claims, (hi.run.verified hop hhop).token⟩
      obtain ⟨claims, houter⟩ := hverified (inp.get (txt "delegation_token")) (by rw [hlist]; simp)
      have hsame : outer = claims := Except.ok.inj (hpeek.symm.trans houter.parties.1)
      obtain ⟨first, hfirst⟩ : ∃ first, done.head? = some first := by
        cases done with
        | nil =>
          rw [hlist] at hmap
          simp at hmap
        | cons first rest => exact ⟨first, rfl⟩
      refine ⟨hpeek, hself, (hi.run.root first hfirst).1.selfParsed, hsame ▸ houter.parties.2, ?_, ?_⟩
      · intro hop hm
        obtain ⟨claims, htoken⟩ := hverified hop (by rw [hlist]; exact List.mem_append_left _ hm)
        exact ⟨claims, htoken.parties⟩
      · rintro hops ⟨⟩
        exact hlist
    · rename_i hnone
      simp only [singleHopChecks, bind_eq_ok, exists_unit, Except.ok.injEq, verifyHopJws_eq_ok, verifyRootVoucher_eq_ok] at h
      obtain ⟨claims, ⟨htoken, _⟩, _, _, _, voucher, hvoucher, _, rfl⟩ := h
      have hsame : outer = claims := Except.ok.inj (hpeek.symm.trans htoken.parties.1)
      have hchain : (outer.get (txt "chain")).items = [] := by
        rw [Bool.not_eq_true, Members.has, Option.isSome_eq_false_iff, Option.isNone_iff_eq_none] at hnone
        rw [Members.get, hnone]
        rfl
      refine ⟨hpeek, hself, hvoucher.selfParsed, hsame ▸ htoken.parties.2, ?_, ?_⟩
      · rw [hchain]
        intro hop hm
        cases hm
      · intro hops hswept
        cases hswept
  | _ => simp [hself] at h

/-- Every issuer that is looked up was named to the harness, and every name parses. -/
theorem DelegationParties.named {inp : Members} {finding : DelegationFinding} {outer claims : Members}
    {hopIssuers : List JsonValue} (h : DelegationParties P inp finding outer)
    (hclaims : unverifiedClaims P (inp.get (txt "delegation_token")) = .ok claims)
    (hhops : collect (fun hop => do
        let hopClaims ← unverifiedClaims P hop
        .ok (hopClaims.get (txt "iss"))) (claims.get (txt "chain")).items = .ok hopIssuers) :
    (∀ value ∈ inp.get (txt "self_aid") :: claims.get (txt "iss") :: hopIssuers, ParsedIssuer P value) ∧
      ∀ hops, finding.swept = some hops → ∀ hop ∈ hops, ∃ hopClaims iss,
        peekClaims P hop "DELEGATION_INVALID_SIGNATURE" = .ok hopClaims ∧ hopClaims.get (txt "iss") = .str iss ∧
          .str iss ∈ inp.get (txt "self_aid") :: claims.get (txt "iss") :: hopIssuers := by
  have hunverified {token : JsonValue} {peeked : Members}
      (hp : peekClaims P token "DELEGATION_INVALID_SIGNATURE" = .ok peeked) : unverifiedClaims P token = .ok peeked := by
    obtain ⟨parsed, hparsed, rfl⟩ := (peekClaims_eq_ok P).mp hp
    exact unverifiedClaims_eq_ok P ((parseCompact_eq_ok P).mpr hparsed)
  obtain rfl : outer = claims := Except.ok.inj ((hunverified h.peeked).symm.trans hclaims)
  constructor
  · intro value hm
    rcases List.mem_cons.mp hm with rfl | hm
    · rw [h.self]
      exact h.selfParsed
    · rcases List.mem_cons.mp hm with rfl | hm
      · exact h.outerParsed
      · obtain ⟨hop, hhop, hvalue⟩ := (mem_collect hhops).mp hm
        obtain ⟨hopClaims, hpeek, hparsed⟩ := h.hopParsed hop hhop
        rw [hunverified hpeek, ok_bind, Except.ok.injEq] at hvalue
        exact hvalue ▸ hparsed
  · intro hops hswept hop hm
    rw [h.swept hops hswept, List.mem_append, List.mem_singleton] at hm
    rcases hm with hm | rfl
    · obtain ⟨hopClaims, hpeek, iss, _, hiss, _⟩ := h.hopParsed hop hm
      obtain ⟨value, hvalue, hstep⟩ := exists_mem_of_collect hhops hm
      rw [hunverified hpeek, ok_bind, Except.ok.injEq, hiss] at hstep
      exact ⟨hopClaims, iss, hpeek, hiss, hstep ▸ List.mem_cons_of_mem _ (List.mem_cons_of_mem _ hvalue)⟩
    · obtain ⟨iss, _, hiss, _⟩ := h.outerParsed
      exact ⟨outer, iss, h.peeked, hiss, hiss ▸ List.mem_cons_of_mem _ List.mem_cons_self⟩

/-! ### Clearance with the issuers covered -/

section

variable {keys : KatKeys} {inp out : Members} {records named added : List JsonValue} {now : Int}
  (h : Covering (P := P) keys inp records named now out added) (hrecords : inp.get (txt "revocation_snapshots") = .list records)
  (hparsed : ∀ value ∈ named, ParsedIssuer P value)

include h hparsed

/-- What an added record holds, once its issuer parses. -/
theorem Covering.trusted {record : JsonValue} (hm : record ∈ added) : ∃ issuer, .str issuer ∈ named ∧ ¬ Labelled records issuer ∧
    record.members.get (txt "issuer_aid") = .str issuer ∧
    verifySnapshotTrust P (record.members.get (txt "snapshot")) = .ok (emptyBody now issuer) := by
  obtain ⟨issuer, hnamed, hfree, hadded⟩ := h.forth record hm
  refine ⟨issuer, hnamed, hfree, hadded.label, hadded.trusted ?_⟩
  obtain ⟨found, aid, hfound, hparse⟩ := hparsed _ hnamed
  obtain rfl := JsonValue.str.inj hfound
  exact ⟨aid, hparse⟩

include hrecords

theorem Covering.supplied_iff {body : Members} : Supplied P out body ↔
    Supplied P inp body ∨ ∃ issuer, .str issuer ∈ named ∧ ¬ Labelled records issuer ∧ body = emptyBody now issuer := by
  constructor
  · rintro ⟨all, record, hall, hm, htrusted⟩
    rw [h.list, JsonValue.list.injEq] at hall
    rw [← hall, List.mem_append] at hm
    rcases hm with hm | hm
    · exact .inl ⟨records, record, hrecords, hm, htrusted⟩
    · obtain ⟨issuer, hnamed, hfree, _, hempty⟩ := h.trusted hparsed hm
      exact .inr ⟨issuer, hnamed, hfree, Except.ok.inj (htrusted.symm.trans hempty)⟩
  · rintro (⟨all, record, hall, hm, htrusted⟩ | ⟨issuer, hnamed, hfree, rfl⟩)
    · rw [hrecords, JsonValue.list.injEq] at hall
      subst hall
      exact ⟨_, record, h.list, List.mem_append_left _ hm, htrusted⟩
    · obtain ⟨record, hm, hadded⟩ := h.back issuer hnamed hfree
      obtain ⟨found, aid, hfound, hparse⟩ := hparsed _ hnamed
      obtain rfl := JsonValue.str.inj hfound
      exact ⟨_, record, h.list, List.mem_append_right _ hm, hadded.trusted ⟨aid, hparse⟩⟩

theorem Covering.snapshotsPass_iff {selfAid : Text} : SnapshotsPass P out selfAid ↔ SnapshotsPass P inp selfAid := by
  rw [SnapshotsPass, SnapshotsPass, suppliedRecords, h.list, suppliedRecords, hrecords]
  simp only [Option.some.injEq, exists_eq_left', List.mem_append, or_imp, forall_and, and_iff_left_iff_imp]
  intro _ record hm
  obtain ⟨issuer, _, _, _, htrusted⟩ := h.trusted hparsed hm
  exact recordPasses_of_trusted ⟨_, htrusted⟩

/-- A named issuer is cleared once the harness has covered it when what was supplied
clears it. -/
theorem Covering.clearedFor_iff {issuer : Text} (hnamed : .str issuer ∈ named) {jti : JsonValue} :
    ClearedFor P out now issuer jti ↔ Heard P inp records now issuer jti := by
  have hpolicy : policyOf out = policyOf inp := by
    rw [policyOf, policyOf, h.rest.get (by decide)]
  have hmode : policyFailMode out = policyFailMode inp := by rw [policyFailMode, policyFailMode, hpolicy]
  have hanswers (body : Members) : AnswersFor P out now issuer body ↔ AnswersFor P inp now issuer body ∨
      ¬ Labelled records issuer ∧ AdmitsToday P (policyOf inp) ∧ body = emptyBody now issuer := by
    constructor
    · rintro ⟨hsupplied, hissuer, hfresh⟩
      rw [hpolicy] at hfresh
      rcases (h.supplied_iff hrecords hparsed).mp hsupplied with hsupplied | ⟨found, _, hfree, rfl⟩
      · exact .inl ⟨hsupplied, hissuer, hfresh⟩
      · obtain rfl : found = issuer := JsonValue.str.inj hissuer
        exact .inr ⟨hfree, (emptyBody_fresh P).mp hfresh, rfl⟩
    · rintro (⟨hsupplied, hissuer, hfresh⟩ | ⟨hfree, hadmits, rfl⟩)
      · exact ⟨(h.supplied_iff hrecords hparsed).mpr (.inl hsupplied), hissuer, hpolicy ▸ hfresh⟩
      · exact ⟨(h.supplied_iff hrecords hparsed).mpr (.inr ⟨issuer, hnamed, hfree, rfl⟩), rfl,
          hpolicy ▸ (emptyBody_fresh P).mpr hadmits⟩
  rw [ClearedFor, Heard, hmode]
  constructor
  · intro hc
    constructor
    · rintro ⟨hstrict, hknown⟩
      obtain ⟨body, hbody⟩ := hc.known hstrict
      rcases (hanswers body).mp hbody with hbody | ⟨hfree, hadmits, _⟩
      · exact ⟨body, hbody⟩
      · exact absurd hknown (not_or.mpr ⟨hfree, not_not.mpr hadmits⟩)
    · intro body hbody
      exact hc.undenied body ((hanswers body).mpr (.inl hbody))
  · intro hc
    constructor
    · intro hstrict
      by_cases hknown : Labelled records issuer ∨ ¬ AdmitsToday P (policyOf inp)
      · obtain ⟨body, hbody⟩ := hc.known ⟨hstrict, hknown⟩
        exact ⟨body, (hanswers body).mpr (.inl hbody)⟩
      · rw [not_or, not_not] at hknown
        exact ⟨_, (hanswers _).mpr (.inr ⟨hknown.1, hknown.2, rfl⟩)⟩
    · intro body hbody
      rcases (hanswers body).mp hbody with hbody | ⟨_, _, rfl⟩
      · exact hc.undenied body hbody
      · exact emptyBody_lists now issuer jti

end

theorem Covering.findingCleared_iff {keys : KatKeys} {inp out outer claims : Members} {records hopIssuers added : List JsonValue}
    {now : Int} {finding : DelegationFinding}
    (h : Covering (P := P) keys inp records (inp.get (txt "self_aid") :: claims.get (txt "iss") :: hopIssuers) now out added)
    (hrecords : inp.get (txt "revocation_snapshots") = .list records) (hparties : DelegationParties P inp finding outer)
    (hclaims : unverifiedClaims P (inp.get (txt "delegation_token")) = .ok claims)
    (hhops : collect (fun hop => do
        let hopClaims ← unverifiedClaims P hop
        .ok (hopClaims.get (txt "iss"))) (claims.get (txt "chain")).items = .ok hopIssuers) :
    FindingCleared P out now finding ↔ FindingHeard P inp records now finding := by
  obtain ⟨hparsed, hnamed⟩ := hparties.named hclaims hhops
  have hiff {issuer : Text} (hm : .str issuer ∈ inp.get (txt "self_aid") :: claims.get (txt "iss") :: hopIssuers) (jti : JsonValue) :
      ClearedFor P out now issuer jti ↔ Heard P inp records now issuer jti := h.clearedFor_iff hrecords hparsed hm
  have hself : .str finding.selfAid ∈ inp.get (txt "self_aid") :: claims.get (txt "iss") :: hopIssuers := by
    rw [hparties.self]
    exact List.mem_cons_self
  constructor
  · intro hc
    refine ⟨(hiff hself _).mp hc.source, fun hops hswept hop hm => ?_⟩
    obtain ⟨hopClaims, iss, hpeek, hiss, hmem⟩ := hnamed hops hswept hop hm
    obtain ⟨found, text, hfound, htext, hcleared⟩ := hc.swept hops hswept hop hm
    obtain rfl := Except.ok.inj (hpeek.symm.trans hfound)
    rw [hiss] at htext
    obtain rfl : iss = text := Except.ok.inj htext
    exact ⟨hopClaims, iss, hpeek, hiss, (hiff hmem _).mp hcleared⟩
  · intro hc
    refine ⟨(hiff hself _).mpr hc.source, fun hops hswept hop hm => ?_⟩
    obtain ⟨hopClaims, iss, hpeek, hiss, hmem⟩ := hnamed hops hswept hop hm
    obtain ⟨found, text, hfound, htext, hheard⟩ := hc.swept hops hswept hop hm
    obtain rfl := Except.ok.inj (hpeek.symm.trans hfound)
    obtain rfl : iss = text := JsonValue.str.inj (hiss.symm.trans htext)
    exact ⟨hopClaims, iss, hpeek, by rw [hiss]; rfl, (hiff hmem _).mpr hheard⟩

/-! ### The fixture's verdict -/

theorem onAitpError_report {x : PyM Members} {result : Members} :
    onAitpError (do
      let result ← x
      .ok ((none, result) : Report)) reportError = .ok (none, result) ↔ x = .ok result := by
  cases x with
  | ok found => simp only [onAitpError, ok_bind, Except.ok.injEq, Prod.mk.injEq, true_and]
  | error e => cases e <;> simp [onAitpError, error_bind, reportError]

/-- With its issuers covered, a delegation input is run as it is. -/
theorem runOperation_delegation {keys : KatKeys} {inp out : Members} {records added : List JsonValue} {now : Int}
    (hcover : coverUnsuppliedIssuers P inp keys = .ok out) (hrest : AgreeExcept [txt "revocation_snapshots"] inp out)
    (hlist : out.get (txt "revocation_snapshots") = .list (records ++ added))
    (hnow : P.toInt ((inp.get? (txt "now")).getD (.int referenceClock)) = .ok now) {accept : Bool} {result : Members} :
    runOperation P (txt "verify_delegation_token") (verifyDelegationToken P) inp keys accept = .ok (none, result) ↔
      verifyDelegationToken P out now = .ok result := by
  have hhas : out.has (txt "revocation_snapshots") = true := by
    apply Members.has_of_get
    rw [hlist]
    exact JsonValue.noConfusion
  have hhandshake : txt "verify_delegation_token" ≠ txt "verify_handshake_payload" := by decide
  rw [hrest (txt "now") (by decide)] at hnow
  have hconventions : revocationConventions P (txt "verify_delegation_token") out = .ok out := by
    unfold revocationConventions
    rw [if_pos rfl, if_pos hhas]
  simp only [runOperation, if_true, hcover, ok_bind, hconventions, if_neg hhandshake, hnow]
  exact onAitpError_report

/-- A delegation fixture that supplies revocation snapshots is accepted exactly when its
tokens pass, no supplied record ends the call, and the supplied snapshots clear the source
token and every hop. An issuer without a record of its own is taken as not revoked, in
every mode, unless the policy's bound refuses a list of the same second. -/
theorem fixture_delegation_verdict {keys : KatKeys} (hkeys : TrueKeys P keys) {inp : Members} {records : List JsonValue}
    (hrecords : inp.get (txt "revocation_snapshots") = .list records) {accept : Bool} {result : Members} :
    runOperation P (txt "verify_delegation_token") (verifyDelegationToken P) inp keys accept = .ok (none, result) ↔
      (coverUnsuppliedIssuers P inp keys).isOk = true ∧ ∃ now finding,
        P.toInt ((inp.get? (txt "now")).getD (.int referenceClock)) = .ok now ∧ delegationChecks P inp now = .ok finding ∧
          SnapshotsPass P inp finding.selfAid ∧ FindingHeard P inp records now finding ∧
            ∃ grants, finding.grants = .ok grants ∧ [(txt "grants", grants)] = result := by
  cases hcover : coverUnsuppliedIssuers P inp keys with
  | error e =>
    rw [runOperation, if_pos rfl, hcover, error_bind]
    simp [Except.isOk, Except.toBool]
  | ok out =>
    obtain ⟨claims, hopIssuers, now, added, hclaims, hhops, hnow, h⟩ := coverUnsuppliedIssuers_covering hkeys hrecords hcover
    have hchecks (clock : Int) : delegationChecks P inp clock = delegationChecks P out clock :=
      (h.rest.mono (by decide)).delegationChecks P clock
    have hcleared {finding : DelegationFinding} (hfinding : delegationChecks P inp now = .ok finding) :
        SnapshotsPass P out finding.selfAid ∧ FindingCleared P out now finding ↔
          SnapshotsPass P inp finding.selfAid ∧ FindingHeard P inp records now finding := by
      obtain ⟨outer, hparties⟩ := delegationChecks_parties hfinding
      rw [h.findingCleared_iff hrecords hparties hclaims hhops,
        h.snapshotsPass_iff hrecords (hparties.named hclaims hhops).1]
    rw [runOperation_delegation hcover h.rest h.list hnow, verifyDelegationToken_eq_ok]
    constructor
    · rintro ⟨finding, hfinding, hpass, hc, hgrants⟩
      rw [← hchecks] at hfinding
      obtain ⟨hpass, hheard⟩ := (hcleared hfinding).mp ⟨hpass, hc⟩
      exact ⟨rfl, now, finding, hnow, hfinding, hpass, hheard, hgrants⟩
    · rintro ⟨_, clock, finding, hclock, hfinding, hpass, hheard, hgrants⟩
      obtain rfl : now = clock := Except.ok.inj (hnow.symm.trans hclock)
      obtain ⟨hpass, hc⟩ := (hcleared hfinding).mpr ⟨hpass, hheard⟩
      exact ⟨finding, hchecks now ▸ hfinding, hpass, hc, hgrants⟩

/-! ### A chain without a single snapshot -/

def addedDigestA : Text := txt "FmZTAXf2E_PT8yhxk_sg-19P" ++ txt "GzQXoqOjvJQAA43yFBE"

def addedDigestB : Text := txt "1NcwimjBR6PPkq7eSpVWg3aP" ++ txt "aY7SC4AQwoPWeV9xX-I"

def addedDigestC : Text := txt "MLPWEYXBm4eq4gr5yvVvpvi9" ++ txt "NnH0kLAUUjA4y0VJJjA"

def addedSignatureA : Text :=
  txt "Mfq3KOV2acy1scoCSbHzsshxGZ4Cwx1ymU1i4TC8" ++
    txt "vA0mEaMrtehV5z0HUzTEyEfHeZf-BiBKFEZerURt" ++ txt "wtNeBw"

def addedSignatureB : Text :=
  txt "TpV1oalBfLnftbLKS35QN__6Knmww-LtSRnsrZB5" ++
    txt "VXA9LdI4U_CZREhqx92fH79WHHm-xWd1JL8sa5tf" ++ txt "AseNBw"

def addedSignatureC : Text :=
  txt "UI0ygOlZyB9iS3JYmd6KNRiIj7MjvHhH-Q-n0DvW" ++
    txt "NXHCRE13BCf-p--OJ4Imbpth80dEek_72a8JZGWo" ++ txt "d_I6BA"

/-- The recorded digest of an added deny list. -/
def addedDigest (issuer digest : Text) : Bytes × Text :=
  (octetsFrom (Jcs.canonicalize (.dict (emptyBody referenceClock (aidOf issuer)))), digest)

/-- The chain, and what its three agents sign of the lists added for them. -/
def coveredRecording : Recording where
  digests := delegationRecording.digests ++
    [addedDigest agentA addedDigestA, addedDigest agentB addedDigestB, addedDigest agentC addedDigestC]
  signatures := delegationRecording.signatures ++
    [⟨agentA, addedSignatureA, octetsOf addedDigestA⟩, ⟨agentB, addedSignatureB, octetsOf addedDigestB⟩,
      ⟨agentC, addedSignatureC, octetsOf addedDigestC⟩]

def coveredPlatform : Platform := coveredRecording.signing recordedAgents

def coveredKeys : KatKeys := coveredRecording.keys recordedAgents

theorem coveredKeys_true : TrueKeys coveredPlatform coveredKeys := Recording.keys_true (by decide +kernel) (by decide +kernel)

def silentFixture : Members :=
  [(txt "delegation_token", lastHopToken), (txt "self_aid", .str (aidOf agentA)), (txt "_feature", .str multihopFeature),
    (txt "revocation_snapshots", .list [])]

/-- Under `fail_closed` the chain is accepted on no snapshot at all. -/
theorem fixture_delegation_verdict_silent :
    policyFailMode silentFixture = .failClosed ∧
      runOperation coveredPlatform (txt "verify_delegation_token") (verifyDelegationToken coveredPlatform) silentFixture
        coveredKeys false = .ok (none, [(txt "grants", .list [.str (txt "read")])]) ∧
      ∃ now finding, delegationChecks coveredPlatform silentFixture now = .ok finding ∧
        FindingHeard coveredPlatform silentFixture [] now finding := by
  have haccepted : runOperation coveredPlatform (txt "verify_delegation_token") (verifyDelegationToken coveredPlatform)
      silentFixture coveredKeys false = .ok (none, [(txt "grants", .list [.str (txt "read")])]) := by
    decide +kernel
  have hrecords : silentFixture.get (txt "revocation_snapshots") = .list [] := rfl
  obtain ⟨_, now, finding, _, hfinding, _, hheard, _⟩ := (fixture_delegation_verdict coveredKeys_true hrecords).mp haccepted
  exact ⟨by decide +kernel, haccepted, now, finding, hfinding, hheard⟩

end AitpVerifier
