import AitpVerifier.AdapterLoop
import AitpVerifier.Attenuation
import AitpVerifier.Leaks

/-!
# What the adapter answers with

Whatever an operation returns is finite, short and nearly flat, but for one member: the
statement of an attestation is whatever its token carries.
-/
namespace AitpVerifier

open PyText Checked Json JsonGrammar

/-! ### Simple values -/

namespace JsonValue

theorem Nests.mono {v : JsonValue} {m n : Nat} (h : v.Nests m) (hle : m ≤ n) : v.Nests n := by
  induction v using JsonValue.induct generalizing m n with
  | list items ih =>
    cases m with
    | zero => exact h.elim
    | succ m =>
      obtain ⟨n, rfl⟩ := Nat.exists_eq_add_of_le' hle
      exact fun item hitem => ih item hitem (h item hitem) (Nat.le_add_left m n)
  | dict members ih =>
    cases m with
    | zero => exact h.elim
    | succ m =>
      obtain ⟨n, rfl⟩ := Nat.exists_eq_add_of_le' hle
      exact fun p hp => ih p hp (h p hp) (Nat.le_add_left m n)
  | _ => cases n <;> trivial

/-- Finite numbers, short integers, and one container at most. -/
structure Simple (v : JsonValue) : Prop where
  finite : v.Finite
  short : v.Short
  nests : v.Nests 1

theorem simple_str (s : Text) : (JsonValue.str s).Simple := ⟨.str, .str, trivial⟩

theorem simple_bool (b : Bool) : (JsonValue.bool b).Simple := ⟨.bool, .bool, trivial⟩

theorem simple_strings {items : List JsonValue} (h : items.all isStr) : (JsonValue.list items).Simple := by
  have hstr (item : JsonValue) (hitem : item ∈ items) : ∃ s, item = .str s := isStr_iff.mp (List.all_eq_true.mp h item hitem)
  refine ⟨.list fun item hitem => ?_, .list fun item hitem => ?_, fun item hitem => ?_⟩ <;>
    obtain ⟨s, rfl⟩ := hstr item hitem
  · exact .str
  · exact .str
  · trivial

end JsonValue

/-- Every member of a result is simple. -/
def Members.Simple (result : Members) : Prop := ∀ m ∈ result, m.2.Simple

theorem Members.simple_nil : Members.Simple [] := nofun

theorem Members.simple_cons {name : Text} {value : JsonValue} {rest : Members} (hvalue : value.Simple)
    (hrest : Members.Simple rest) : Members.Simple ((name, value) :: rest) := List.forall_mem_cons.mpr ⟨hvalue, hrest⟩

theorem Members.simple_single {name : Text} {value : JsonValue} (h : value.Simple) : Members.Simple [(name, value)] :=
  Members.simple_cons h Members.simple_nil

/-! ### What the operations return -/

variable {P : Platform}

theorem Shaped.simple_strings {claims : Members} {required : List Text} {types : List (Text × PyType)} {key : Text}
    (h : Shaped claims required types) (hr : key ∈ required) (ht : (key, .list) ∈ types)
    (hall : (claims.get key).items.all JsonValue.isStr) : (claims.get key).Simple := by
  obtain ⟨items, hitems⟩ := h.list hr ht
  rw [hitems] at hall ⊢
  exact JsonValue.simple_strings hall

theorem TctShape.simple_grants {claims : Members} (h : TctShape claims) : (claims.get (txt "grants")).Simple :=
  h.shaped.simple_strings (by simp [tctRequiredClaims]) (by simp [tctClaimTypes]) h.grants

theorem okResult_simple : Members.Simple okResult := Members.simple_single (JsonValue.simple_bool true)

theorem verifyEnvelope_simple {inp r : Members} {now : Int} (h : verifyEnvelope P inp now = .ok r) : r.Simple := by
  simp only [verifyEnvelope, bind_eq_ok, exists_unit] at h
  obtain ⟨_, h⟩ := h
  have hok : r = okResult := by
    split at h
    · simp only [checkCapability, bind_eq_ok, exists_unit, Except.ok.injEq] at h
      obtain ⟨_, _, _, _, _, _, _, _, _, hr⟩ := h
      exact hr.symm
    · simp only [verifyEnvelopeProper, bind_eq_ok, exists_unit, Except.ok.injEq] at h
      obtain ⟨_, _, _, _, _, _, _, _, _, _, hr⟩ := h
      exact hr.symm
  exact hok ▸ okResult_simple

theorem verifyManifest_simple {inp r : Members} {now : Int} (h : verifyManifest P inp now = .ok r) : r.Simple := by
  obtain ⟨body, aid, _, haccepted, rfl⟩ := (verifyManifest_eq_ok P).mp h
  obtain ⟨s, hs⟩ := haccepted.shaped.str (k := txt "aid") (by simp [requiredManifestFields]) (by simp [manifestTypes])
  rw [hs]
  exact Members.simple_single (JsonValue.simple_str s)

theorem verifyTct_simple {inp r : Members} {now : Int} (h : verifyTct P inp now = .ok r) : r.Simple := by
  obtain ⟨claims, haccepted, rfl⟩ := (verifyTct_eq_ok P).mp h
  exact Members.simple_single haccepted.shape.simple_grants

theorem verifyTctAsIssuer_simple {inp r : Members} {now : Int} (h : verifyTctAsIssuer P inp now = .ok r) : r.Simple := by
  obtain ⟨claims, haccepted, rfl⟩ := (verifyTctAsIssuer_eq_ok P).mp h
  obtain ⟨sub, hsub⟩ := haccepted.shape.sub
  rw [hsub]
  exact Members.simple_cons (JsonValue.simple_str sub) (Members.simple_single haccepted.shape.simple_grants)

theorem verifyGrantVoucher_simple {inp r : Members} {now : Int} (h : verifyGrantVoucher P inp now = .ok r) : r.Simple := by
  simp only [verifyGrantVoucher, bind_eq_ok, exists_unit, checkVoucherClaimsShape_eq_ok, Except.ok.injEq] at h
  obtain ⟨_, _, _, _, _, _, claims, _, hshape, _, _, _, rfl⟩ := h
  exact Members.simple_single (hshape.shaped.simple_strings (by simp [voucherRequiredClaims]) (by simp [voucherClaimTypes])
    hshape.grants)

theorem verifyDelegationToken_simple {inp r : Members} {now : Int} (h : verifyDelegationToken P inp now = .ok r) :
    r.Simple := by
  obtain ⟨selfAid, hops, last, voucher, hrun, rfl⟩ := verifyDelegationToken_run P h
  have hshape := (hrun.run.verified last (List.mem_of_getLast? hrun.outer)).token.shape
  exact Members.simple_single (hshape.shaped.simple_strings (by simp [delegationRequiredClaims]) (by simp [delegationClaimTypes])
    hshape.scope)

theorem verifyRevocationSnapshot_simple {inp r : Members} {now : Option Int} (h : verifyRevocationSnapshot P inp now = .ok r) :
    r.Simple := by
  have hstale (h : [(txt "revoked", .bool false), (txt "stale", .bool true)] = r) : r.Simple := by
    rw [← h]
    exact Members.simple_cons (JsonValue.simple_bool _) (Members.simple_single (JsonValue.simple_bool _))
  have hfresh {x : PyM Unit} (h : (x >>= fun _ => .ok [(txt "revoked", .bool false)] : PyM Members) = .ok r) : r.Simple := by
    obtain ⟨_, _, h⟩ := bind_eq_ok.mp h
    cases h
    exact Members.simple_single (JsonValue.simple_bool _)
  simp only [verifyRevocationSnapshot, bind_eq_ok] at h
  obtain ⟨_, _, _, _, body, _, h⟩ := h
  split at h
  · obtain ⟨unusable, _, h⟩ := bind_eq_ok.mp h
    cases unusable with
    | true =>
      rw [if_pos rfl] at h
      split at h
      · cases h
      · exact hstale (Except.ok.inj h)
    | false => exact hfresh h
  · split at h
    · cases h
    · exact hstale (Except.ok.inj h)

theorem verifyCommit_simple {inp : Members} {payload selfAid grants : JsonValue} {now : Int}
    (h : verifyCommit P inp payload selfAid now = .ok grants) : grants.Simple := by
  obtain ⟨claims, htoken, rfl⟩ := verifyCommit_token P h
  exact htoken.shape.simple_grants

theorem verifyHandshakePayload_simple {inp r : Members} {now : Int} (h : verifyHandshakePayload P inp now = .ok r) :
    r.Simple := by
  rw [verifyHandshakePayload] at h
  split at h
  · simp only [verifyCommitSide, bind_eq_ok, Except.ok.injEq] at h
    obtain ⟨_, _, grants, ⟨_, _, _, _, _, _, hcommit⟩, rfl⟩ := h
    exact Members.simple_single (verifyCommit_simple hcommit)
  · simp only [bind_eq_ok] at h
    obtain ⟨env, _, h⟩ := h
    rw [verifyMessage] at h
    split at h
    · simp only [verifyBootstrap, bind_eq_ok, exists_unit, Except.ok.injEq] at h
      obtain ⟨_, _, _, _, _, _, _, _, _, rfl⟩ := h
      exact okResult_simple
    · split at h
      · simp only [bind_eq_ok, Except.ok.injEq] at h
        obtain ⟨grants, hcommit, rfl⟩ := h
        exact Members.simple_single (verifyCommit_simple hcommit)
      · cases h

theorem verifySessionBundle_simple {inp r : Members} {now : Option Int} (h : verifySessionBundle P inp now = .ok r) :
    r.Simple := by
  simp only [verifySessionBundle, bind_eq_ok, exists_unit, Except.ok.injEq] at h
  obtain ⟨_, _, _, _, _, _, _, _, _, _, _, _, _, _, _, _, _, _, _, rfl⟩ := h
  exact okResult_simple

/-! ### The statement of an attestation -/

/-- The member of a token's `ext` that a request names. -/
def statementNamed (claims params : Members) : JsonValue :=
  (claims.get (txt "ext")).members.get (params.get (txt "expected_ext_key")).text

theorem attestationStatement_eq_ok {claims : Members} {key statement : JsonValue}
    (h : attestationStatement P claims key = .ok statement) :
    statement = (claims.get (txt "ext")).members.get key.text := by
  have hnamed {present : Bool} {e : PyM PyErr} {value : JsonValue}
      (h : (raiseWith (!present) e >>= fun _ => .ok value : PyM JsonValue) = .ok statement) : statement = value := by
    obtain ⟨_, _, h⟩ := bind_eq_ok.mp h
    exact (Except.ok.inj h).symm
  simp only [attestationStatement] at h
  split at h
  · obtain ⟨present, _, h⟩ := bind_eq_ok.mp h
    exact hnamed h
  · exact hnamed h

theorem verifyAttestation_statement {inp r : Members} {now : Int} (h : verifyAttestation P inp now = .ok r) :
    ∃ parsed, ParsesTo P (inp.get (txt "tct_token")) parsed ∧ r = [(txt "statement", statementNamed parsed.claims inp)] := by
  simp only [verifyAttestation, verifyTctJws, bind_eq_ok, exists_unit, Members.index_eq_ok,
    verifyJws_eq_ok, Except.ok.injEq] at h
  obtain ⟨token, htoken, key, hkey, _, _, _, _, _, claims, ⟨hsigned, _⟩, _, _, _, statement, hstatement, _, _, rfl⟩ := h
  obtain ⟨parsed, hparsed, rfl⟩ := hsigned.parses
  refine ⟨parsed, Members.get_of_get? htoken ▸ hparsed, ?_⟩
  rw [statementNamed, Members.get_of_get? hkey, attestationStatement_eq_ok hstatement]

/-- What a token states was scanned, so its integers are short. -/
theorem statementNamed_short {token : JsonValue} {parsed : ParsedJws} (h : ParsesTo P token parsed) (params : Members) :
    (statementNamed parsed.claims params).Short := by
  obtain ⟨_, _, _, hclaims⟩ := h.loaded P
  have hext := Members.get_short (Jcs.loads_short hclaims) (txt "ext")
  rw [statementNamed]
  cases hvalue : parsed.claims.get (txt "ext") with
  | dict members =>
    rw [hvalue] at hext
    exact Members.get_short hext _
  | _ => exact .null

/-! ### The conventions -/

theorem Members.get?_append_ne (obj : Members) {key other : Text} {value : JsonValue} (h : key ≠ other) :
    Members.get? (obj ++ [(key, value)]) other = obj.get? other := by
  induction obj with
  | nil => exact if_neg h
  | cons m rest ih =>
    rw [List.cons_append, Members.get?, Members.get?, ih]

theorem Members.get?_setDefault (obj : Members) {key other : Text} {value : JsonValue} (h : key ≠ other) :
    (obj.setDefault key value).get? other = obj.get? other := by
  rw [Members.setDefault]
  split
  · rfl
  · exact Members.get?_append_ne obj h

/-- The conventions for revocation fill in a policy and touch the snapshot, nothing else. -/
theorem revocationConventions_get? {op key : Text} {inp out : Members} (hpolicy : txt "policy" ≠ key)
    (hlist : txt "issuer_revocation_list" ≠ key) (h : revocationConventions P op inp = .ok out) :
    out.get? key = inp.get? key := by
  have hfill {obj : Members} {value : JsonValue} (hobj : obj.get? key = inp.get? key) :
      (obj.setDefault (txt "policy") value).get? key = inp.get? key := (Members.get?_setDefault obj hpolicy).trans hobj
  rw [revocationConventions] at h
  split at h
  · cases h
    split
    · rfl
    · exact hfill rfl
  split at h
  · cases h
    rfl
  split at h
  · cases h
    exact hfill rfl
  · have hmode {obj : Members} {mode : JsonValue} (hobj : obj.get? key = inp.get? key)
        (h : (.ok (if mode.isNull then obj else obj.setDefault (txt "policy") (.dict [(txt "fail_mode", mode)])) : PyM Members) =
          .ok out) : out.get? key = inp.get? key := by
      cases h
      split
      · exact hobj
      · exact hfill hobj
    dsimp only at h
    split at h
    · refine hmode ?_ h
      rw [Members.get?_insert, if_neg hlist]
    · obtain ⟨_, _, h⟩ := bind_eq_ok.mp h
      refine hmode ?_ h
      exact Members.get?_without hlist.symm
    · obtain ⟨_, _, h⟩ := bind_eq_ok.mp h
      cases h
  · cases h
    rfl

/-- A report of what a verifier returned. An attestation's saw the request's own arguments,
the conventions for revocation apart. -/
structure Returned (op : Text) (verifier : Verifier) (inp : Members) (report : Report) : Prop where
  accepted : report.1 = none
  verified : ∃ seen now, verifier seen now = .ok report.2 ∧ (op = txt "verify_attestation" →
    ∀ key, txt "policy" ≠ key → txt "issuer_revocation_list" ≠ key → seen.get? key = inp.get? key)

theorem runOperation_report {op : Text} {verifier : Verifier} {inp : Members} {keys : KatKeys} {accept : Bool} {report : Report}
    (h : runOperation P op verifier inp keys accept = .ok report) :
    Returned op verifier inp report ∨ ∃ code message, report = reportError code message := by
  have hlast {seen : Members} (hkept : op = txt "verify_attestation" →
        ∀ key, txt "policy" ≠ key → txt "issuer_revocation_list" ≠ key → seen.get? key = inp.get? key)
      (h : (P.toInt ((seen.get? (txt "now")).getD (.int referenceClock)) >>= fun now => onAitpError (do
        let result ← verifier seen now
        .ok (none, result)) reportError) = .ok report) :
      Returned op verifier inp report ∨ ∃ code message, report = reportError code message := by
    obtain ⟨now, _, h⟩ := bind_eq_ok.mp h
    cases hv : verifier seen now with
    | ok result =>
      rw [hv] at h
      cases h
      exact .inl ⟨rfl, seen, now, hv, hkept⟩
    | error e =>
      rw [hv] at h
      cases e with
      | aitp code message =>
        cases h
        exact .inr ⟨code, message, rfl⟩
      | raised kind text => cases h
  have hother {name : Text} (hop : op = name) (hne : name ≠ txt "verify_attestation") {p : Prop} :
      op = txt "verify_attestation" → p := fun hattestation => absurd (hop.symm.trans hattestation) hne
  rw [runOperation] at h
  split at h
  · rename_i hdelegation
    obtain ⟨_, _, h⟩ := bind_eq_ok.mp h
    obtain ⟨_, _, h⟩ := bind_eq_ok.mp h
    rw [if_neg (by rw [hdelegation]; decide)] at h
    exact hlast (hother hdelegation (by decide)) h
  · obtain ⟨out, hout, h⟩ := bind_eq_ok.mp h
    cases hout
    obtain ⟨out, hout, h⟩ := bind_eq_ok.mp h
    dsimp only at h
    split at h
    · rename_i hhandshake
      obtain ⟨_, _, h⟩ := bind_eq_ok.mp h
      obtain ⟨_, _, h⟩ := bind_eq_ok.mp h
      exact hlast (hother hhandshake (by decide)) h
    · exact hlast (fun _ key hpolicy hlist => revocationConventions_get? hpolicy hlist hout) h

/-- Every operation of the registry but one returns a simple result. -/
theorem operations_simple {entry : Text × Verifier} (h : entry ∈ operations P) (hother : entry.1 ≠ txt "verify_attestation")
    {inp r : Members} {now : Int} (hr : entry.2 inp now = .ok r) : r.Simple := by
  simp only [operations, List.mem_cons, List.not_mem_nil, or_false] at h
  rcases h with rfl | rfl | rfl | rfl | rfl | rfl | rfl | rfl | rfl | rfl
  · exact verifyEnvelope_simple hr
  · exact verifyManifest_simple hr
  · exact verifyTct_simple hr
  · exact verifyTctAsIssuer_simple hr
  · exact absurd rfl hother
  · exact verifyGrantVoucher_simple hr
  · exact verifyDelegationToken_simple hr
  · exact verifyRevocationSnapshot_simple hr
  · exact verifyHandshakePayload_simple hr
  · exact verifySessionBundle_simple hr

/-! ### The answers to requests -/

variable {D : Deployment}

def Response.result : Response → Members
  | .ok _ result => result
  | .err .. => []

/-- An answer to this request, without a statement. -/
structure Response.Plain (response : Response) (rid : Text) : Prop where
  named : response.id = rid
  simple : response.result.Simple

theorem plain_err (rid : Text) (code : String) (message : Text) : (Response.err rid code message).Plain rid :=
  ⟨rfl, Members.simple_nil⟩

theorem plain_done (rid : Text) : (Response.ok rid []).Plain rid := ⟨rfl, Members.simple_nil⟩

def Tidy (rid : Text) (handled : PyM Response × AdapterState) : Prop := ∀ response, handled.1 = .ok response → response.Plain rid

theorem tidy_ok {rid : Text} {response : Response} {s : AdapterState} (h : response.Plain rid) : Tidy rid (.ok response, s) := by
  intro found hfound
  cases hfound
  exact h

theorem tidy_error {rid : Text} {e : PyErr} {s : AdapterState} : Tidy rid (.error e, s) := nofun

theorem respond_plain (rid : Text) {report : Report} (h : report.2.Simple) : (respond rid report).Plain rid := by
  rw [respond]
  split
  · exact ⟨rfl, h⟩
  · exact plain_err rid _ _

theorem reportError_simple (code : String) (message : Text) : (reportError code message).2.Simple :=
  Members.simple_single (JsonValue.simple_str message)

theorem sideEffect_simple (name : Text) (value : Bool) : (sideEffect name value).2.Simple := by
  have hdict : (JsonValue.dict [(name, .bool value)]).Simple :=
    ⟨.dict (List.forall_mem_singleton.mpr .bool), .dict (List.forall_mem_singleton.mpr .bool), List.forall_mem_singleton.mpr trivial⟩
  exact Members.simple_single hdict

theorem sessionOp_simple {s s' : AdapterState} {random : Bytes} {params : Members} {report : Report} {sessionOp : SessionOp}
    (h : sessionOp.run P s random params = .ok (report, s')) : report.2.Simple := by
  cases sessionOp with
  | issuePopChallenge =>
    simp only [SessionOp.run, issuePopChallenge, bind_eq_ok, Except.ok.injEq, Prod.mk.injEq] at h
    obtain ⟨_, _, _, _, _, _, rfl, _⟩ := h
    exact Members.simple_single (JsonValue.simple_str _)
  | producePopResponse =>
    obtain ⟨claims, _, h⟩ := bind_eq_ok.mp h
    cases hpresenter : presenterFromPop P (popInput s params) claims s.clock with
    | ok presenter =>
      rw [hpresenter] at h
      cases h
      exact Members.simple_nil
    | error e =>
      rw [hpresenter] at h
      cases e with
      | aitp code message =>
        cases h
        exact reportError_simple code message
      | raised kind text => cases h
  | verifyPopResponse =>
    cases h
    rw [verifyPopResponse]
    split
    · exact reportError_simple _ _
    · exact Members.simple_single (JsonValue.simple_str _)
  | authorizeCapabilityInvocation =>
    obtain ⟨_, _, h⟩ := bind_eq_ok.mp h
    obtain ⟨required, _, h⟩ := bind_eq_ok.mp h
    cases required <;> cases h <;> exact sideEffect_simple _ _
  | expectPopChallengeIssued =>
    cases h
    exact sideEffect_simple _ _
  | withholdPopResponse =>
    cases h
    rw [withholdPopResponse]
    split
    · exact reportError_simple _ _
    · exact sideEffect_simple _ _

theorem initResult_simple : (initResult P D).Simple := by
  have hops : ((supportedOps P).map JsonValue.str).all JsonValue.isStr := by simp [JsonValue.isStr]
  exact Members.simple_cons (JsonValue.simple_str _) <| Members.simple_cons (JsonValue.simple_str _) <|
    Members.simple_cons (JsonValue.simple_str _) <| Members.simple_cons (JsonValue.simple_strings hops) <|
    Members.simple_single (JsonValue.simple_strings rfl)

theorem init_tidy (s : AdapterState) (rid : Text) (params : Members) : Tidy rid (init P D s rid params) := by
  rw [init]
  split
  · intro response h
    obtain ⟨_, _, h⟩ := bind_eq_ok.mp h
    cases h
    exact plain_err rid _ _
  · split
    · exact tidy_ok ⟨rfl, initResult_simple⟩
    · split
      · exact tidy_ok (plain_err rid _ _)
      · exact tidy_error

theorem setClock_tidy (s : AdapterState) (rid : Text) (params : Members) : Tidy rid (answered (setClock s rid params)) := by
  rw [setClock]
  split
  · exact tidy_ok (plain_done rid)
  · exact tidy_ok (plain_err rid _ _)

theorem setFeatures_tidy (s : AdapterState) (rid : Text) (params : Members) : Tidy rid (answered (setFeatures s rid params)) := by
  rw [setFeatures]
  split
  · split
    · exact tidy_ok (plain_done rid)
    · exact tidy_ok (plain_err rid _ _)
  · exact tidy_ok (plain_err rid _ _)

theorem replayCheck_tidy (s : AdapterState) (rid mid : Text) : Tidy rid (answered (replayCheck s rid mid)) := by
  rw [replayCheck]
  split
  · exact tidy_ok (plain_err rid _ _)
  · exact tidy_ok (plain_done rid)

theorem runSession_tidy (s : AdapterState) (random : Bytes) (rid : Text) (sessionOp : SessionOp) (params : Members) :
    Tidy rid (runSession P s random rid sessionOp params) := by
  rw [runSession]
  cases hrun : sessionOp.run P s random params with
  | ok reported => exact tidy_ok (respond_plain rid (@sessionOp_simple P s reported.2 random params reported.1 sessionOp hrun))
  | error e => exact tidy_error

/-- An operation is refused, or it ran and its report is the answer. -/
theorem verifyOperation_cases (s : AdapterState) (rid op : Text) (verifier : Verifier) (params : Members) :
    Tidy rid (verifyOperation P D s rid op verifier params) ∨
      (missingArgument op params = none ∧ invalidArgument P op params = none ∧ ∃ keys report, s.katKeys D = .ok keys ∧
        runOperation P op verifier (operationInput s op params) keys true = .ok report ∧
        (verifyOperation P D s rid op verifier params).1 = .ok (respond rid report)) := by
  rw [verifyOperation]
  cases hmissing : missingArgument op params with
  | some missing => exact .inl (tidy_ok (plain_err rid _ _))
  | none =>
    cases hinvalid : invalidArgument P op params with
    | some invalid => exact .inl (tidy_ok (plain_err rid _ _))
    | none =>
      cases hkeys : s.katKeys D with
      | error e => exact .inl tidy_error
      | ok keys =>
        dsimp only
        cases hrun : runOperation P op verifier (operationInput s op params) keys true with
        | ok report => exact .inr ⟨rfl, rfl, keys, report, rfl, hrun, rfl⟩
        | error e =>
          refine .inl ?_
          dsimp only
          split
          · exact tidy_ok (plain_err rid _ _)
          · exact tidy_error

theorem dispatch_tidy {s : AdapterState} {random : Bytes} {rid op : Text} {params : Members}
    (hother : op ≠ txt "verify_attestation") : Tidy rid (dispatch P D s random rid op params) := by
  rw [dispatch]
  split
  · exact init_tidy s rid params
  split
  · exact tidy_ok (plain_done rid)
  split
  · exact setClock_tidy s rid params
  split
  · exact setFeatures_tidy s rid params
  split
  · exact tidy_ok (plain_done rid)
  cases namedMessage op params with
  | some mid => exact replayCheck_tidy s rid mid
  | none =>
    dsimp only
    cases sessionOps.lookup op with
    | some sessionOp => exact runSession_tidy s random rid sessionOp params
    | none =>
      cases hlookup : (operations P).lookup op with
      | none => exact tidy_ok (plain_err rid _ _)
      | some verifier =>
        dsimp only
        rcases verifyOperation_cases s rid op verifier params with hrefused | ⟨_, _, keys, report, _, hrun, hanswer⟩
        · exact hrefused
        · intro response h
          cases hanswer.symm.trans h
          refine respond_plain rid ?_
          rcases runOperation_report hrun with ⟨_, seen, now, hverified, _⟩ | ⟨code, message, rfl⟩
          · obtain ⟨first, rest, hsplit, _⟩ := List.lookup_eq_some_iff.mp hlookup
            have hentry : (op, verifier) ∈ operations P := hsplit ▸ List.mem_append_right first List.mem_cons_self
            exact operations_simple hentry hother hverified
          · exact reportError_simple code message

variable (P D) in
/-- The request asks for an attestation that verifies, and this is what the token states
under the key the request names. -/
structure Attests (s : AdapterState) (request : Members) (statement : JsonValue) : Prop where
  op : request.get (txt "op") = .str (txt "verify_attestation")
  verified : ∃ params keys result, requestParams request = .dict params ∧
    missingArgument (txt "verify_attestation") params = none ∧ invalidArgument P (txt "verify_attestation") params = none ∧
    s.katKeys D = .ok keys ∧ runOperation P (txt "verify_attestation") (verifyAttestation P)
      (operationInput s (txt "verify_attestation") params) keys true = .ok (none, result) ∧
    ∃ claims, claimsOf P params = .ok claims ∧ statement = statementNamed claims params

theorem operationInput_get? {s : AdapterState} {params : Members} {key : Text} (hkey : key ≠ txt "now") :
    (operationInput s (txt "verify_attestation") params).get? key = params.get? key := by
  have hfeature : featureGatedOps.lookup (txt "verify_attestation") = none := by decide
  rw [operationInput, hfeature]
  dsimp only
  rw [Members.get?, if_neg hkey.symm, Members.get?_without hkey]

/-- An attestation that verifies returns what the request's token states. -/
theorem attestation_report {s : AdapterState} {params : Members} {keys : KatKeys} {report : Report}
    (h : runOperation P (txt "verify_attestation") (verifyAttestation P)
      (operationInput s (txt "verify_attestation") params) keys true = .ok report) :
    (∃ code message, report = reportError code message) ∨ ∃ parsed, ParsesTo P (params.get (txt "tct_token")) parsed ∧
      report = (none, [(txt "statement", statementNamed parsed.claims params)]) := by
  rcases runOperation_report h with ⟨haccepted, seen, now, hverified, hkept⟩ | herror
  · obtain ⟨parsed, hparsed, hresult⟩ := verifyAttestation_statement hverified
    have hget {key : Text} (hpolicy : txt "policy" ≠ key) (hlist : txt "issuer_revocation_list" ≠ key) (hnow : key ≠ txt "now") :
        seen.get key = params.get key := by
      rw [Members.get, hkept rfl key hpolicy hlist, operationInput_get? hnow, Members.get]
    rw [hget (by decide) (by decide) (by decide)] at hparsed
    refine .inr ⟨parsed, hparsed, Prod.ext haccepted ?_⟩
    rw [hresult, statementNamed, statementNamed, @hget (txt "expected_ext_key") (by decide) (by decide) (by decide)]
  · exact .inl herror

theorem dispatch_attestation (s : AdapterState) (random : Bytes) (rid : Text) (params : Members) :
    dispatch P D s random rid (txt "verify_attestation") params =
      verifyOperation P D s rid (txt "verify_attestation") (verifyAttestation P) params := by
  have hunnamed : namedMessage (txt "verify_attestation") params = none := by
    rw [namedMessage, if_neg]
    rintro ⟨hop | hop, _⟩
    · exact absurd hop (by decide)
    · exact absurd hop (by decide)
  have hsession : sessionOps.lookup (txt "verify_attestation") = none := by decide
  have hlookup : (operations P).lookup (txt "verify_attestation") = some (verifyAttestation P) := rfl
  rw [dispatch, if_neg (by decide), if_neg (by decide), if_neg (by decide), if_neg (by decide), if_neg (by decide), hunnamed,
    hsession, hlookup]

theorem Attests.response {s : AdapterState} {request : Members} {statement : JsonValue} (h : Attests P D s request statement)
    (random : Bytes) :
    (handle P D s random request).1 = .ok (requestId request) [(txt "statement", statement)] ∧ statement.Short := by
  obtain ⟨params, keys, result, hparams, hmissing, hinvalid, hkeys, hrun, claims, hclaims, rfl⟩ := h.verified
  rcases attestation_report hrun with ⟨code, message, heq⟩ | ⟨parsed, hparsed, heq⟩
  · cases heq
  · obtain ⟨_, rfl⟩ := Prod.mk.inj heq
    have hread := unverifiedClaims_eq_ok P ((parseCompact_eq_ok P).mpr hparsed)
    cases hclaims.symm.trans hread
    refine ⟨?_, statementNamed_short hparsed params⟩
    rw [handle_dispatches P h.op hparams, dispatch_attestation, verifyOperation, hmissing, hinvalid, hkeys]
    dsimp only
    rw [hrun]
    rfl

/-- Every answer is plain, but for the statement of an attestation. -/
theorem handle_response (s : AdapterState) (random : Bytes) (request : Members) :
    (handle P D s random request).1.Plain (requestId request) ∨ ∃ statement, Attests P D s request statement := by
  rcases handle_cases P s random request (D := D) with ⟨op, params, hop, hparams, hhandle⟩ | hrefused
  · have hcaught {handled : PyM Response × AdapterState} (h : Tidy (requestId request) handled) :
        (caught (requestId request) op handled).1.Plain (requestId request) := by
      obtain ⟨answer, after⟩ := handled
      cases answer with
      | ok response => exact h response rfl
      | error e => exact plain_err _ _ _
    rw [hhandle]
    by_cases hattestation : op = txt "verify_attestation"
    · subst hattestation
      rw [dispatch_attestation]
      rcases verifyOperation_cases s (requestId request) _ (verifyAttestation P) params (D := D) with
        hrefused | ⟨hmissing, hinvalid, keys, report, hkeys, hrun, hanswer⟩
      · exact .inl (hcaught hrefused)
      · rcases attestation_report hrun with ⟨code, message, rfl⟩ | ⟨parsed, hparsed, rfl⟩
        · refine .inl (hcaught fun response h => ?_)
          cases hanswer.symm.trans h
          exact respond_plain _ (reportError_simple code message)
        · exact .inr ⟨_, hop, params, keys, _, hparams, hmissing, hinvalid, hkeys, hrun, parsed.claims,
            unverifiedClaims_eq_ok P ((parseCompact_eq_ok P).mpr hparsed), rfl⟩
    · exact .inl (hcaught (dispatch_tidy hattestation))
  · rw [hrefused]
    exact .inl (plain_err _ _ _)

/-! ### Writing an answer -/

variable {E : Encoder}

/-- What is written of an answer is its document and the end of a line. -/
theorem write_eq_ok {response : Response} {text : Text} :
    response.write E = .ok text ↔ ∃ body, dumps E.levels response.value = .ok body ∧ text = body ++ [0x0A] := by
  simp only [Response.write, bind_eq_ok, Except.ok.injEq]
  exact exists_congr fun body => and_congr_right fun _ => eq_comm

theorem value_short {response : Response} (h : ∀ m ∈ response.result, m.2.Short) : response.value.Short := by
  cases response with
  | ok rid result =>
    refine .dict fun m hm => ?_
    simp only [List.mem_cons, List.not_mem_nil, or_false] at hm
    rcases hm with rfl | rfl | rfl
    · exact .str
    · exact .bool
    · exact .dict h
  | err rid code message =>
    refine .dict fun m hm => ?_
    simp only [List.mem_cons, List.not_mem_nil, or_false] at hm
    rcases hm with rfl | rfl | rfl | rfl
    · exact .str
    · exact .bool
    · exact .str
    · exact .str

theorem value_finite_iff {response : Response} : response.value.Finite ↔ ∀ m ∈ response.result, m.2.Finite := by
  cases response with
  | ok rid result => simp [Response.value, Response.result, JsonValue.finite_dict, JsonValue.Finite.str, JsonValue.Finite.bool]
  | err rid code message =>
    simp [Response.value, Response.result, JsonValue.finite_dict, JsonValue.Finite.str, JsonValue.Finite.bool]

theorem value_nests_iff {response : Response} :
    response.value.Nests E.levels ↔ ∀ m ∈ response.result, m.2.Nests (E.levels - 2) := by
  obtain ⟨spare, hspare⟩ := Nat.exists_eq_add_of_le' E.deep
  have hroom : E.levels - 2 = spare + 1 := by omega
  rw [hspare, show spare + 3 - 2 = spare + 1 from rfl]
  cases response with
  | ok rid result => simp [Response.value, Response.result, JsonValue.Nests]
  | err rid code message => simp [Response.value, Response.result, JsonValue.Nests]

/-- An answer becomes one line of JSON when its result is finite and not too deep. -/
theorem write_iff {response : Response} (hshort : ∀ m ∈ response.result, m.2.Short) :
    (∃ body, response.write E = .ok (body ++ [0x0A]) ∧ Element body) ↔
      ∀ m ∈ response.result, m.2.Finite ∧ m.2.Nests (E.levels - 2) := by
  have hwritten : (∃ body, response.write E = .ok (body ++ [0x0A]) ∧ Element body) ↔
      response.value.Nests E.levels ∧ response.value.Finite := by
    constructor
    · rintro ⟨body, hwrite, helement⟩
      obtain ⟨text, hdumps, htext⟩ := write_eq_ok.mp hwrite
      obtain rfl := List.append_cancel_right htext
      exact ⟨(dumps_isOk.mp (isOk_iff.mpr ⟨body, hdumps⟩)).2, (dumps_element_iff hdumps).mp helement⟩
    · rintro ⟨hnests, hfinite⟩
      obtain ⟨body, hdumps⟩ := isOk_iff.mp (dumps_isOk.mpr ⟨value_short hshort, hnests⟩)
      exact ⟨body, write_eq_ok.mpr ⟨body, hdumps, rfl⟩, (dumps_element_iff hdumps).mpr hfinite⟩
  rw [hwritten, value_nests_iff, value_finite_iff, and_comm, ← forall₂_and]

theorem write_simple {response : Response} (h : response.result.Simple) :
    ∃ body, response.write E = .ok (body ++ [0x0A]) ∧ Element body := by
  have hroom : 1 ≤ E.levels - 2 := by
    have := E.deep
    omega
  exact (write_iff fun m hm => (h m hm).short).mpr fun m hm => ⟨(h m hm).finite, (h m hm).nests.mono hroom⟩

end AitpVerifier
