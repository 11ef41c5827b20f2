import AitpVerifier.DenyList
import AitpVerifier.Leaks
import AitpVerifier.RevocationLast

/-!
# The revocation steps as clearance

What a token's own check, the source-token check and the sweep decide is whether an
identifier is cleared against the trusted, fresh snapshots of its issuer. The order of
the records, their number and their labels are gone from the statement.
-/
namespace AitpVerifier

open PyText Checked DenyList

variable (P : Platform)

/-- The deny list names the identifier. -/
def Lists (body : Members) (jti : JsonValue) : Prop := lists body jti = true

/-! ### A token's own snapshot -/

/-- The snapshot an input carries for its token's issuer. -/
def carriedSnapshot (inp : Members) : Option JsonValue :=
  match inp.get (txt "issuer_revocation_list") with
  | .dict revlist => some (Members.get revlist (txt "snapshot"))
  | _ => none

/-- The carried snapshot, when it is trusted, the issuer's and fresh. -/
def CarriedAnswer (inp : Members) (now : Int) (claims body : Members) : Prop :=
  (∃ snapshot, carriedSnapshot inp = some snapshot ∧ verifySnapshotTrust P snapshot = .ok body) ∧
    (body.get (txt "issuer")).eq (claims.get (txt "iss")) = true ∧ Fresh P body (policyOf inp) now

/-- Verifying the carried snapshot fails outside the package's own errors. -/
def CarriedEscapes (inp : Members) : Prop :=
  ∃ snapshot, carriedSnapshot inp = some snapshot ∧ Leaks (verifySnapshotTrust P snapshot)

theorem tctAbsence_eq_ok {mode : FailMode} {detail : Text} : tctAbsence mode detail = .ok () ↔ mode ≠ .failClosed := by
  rw [tctAbsence, raiseIf_eq_ok, beq_eq_false_iff_ne]

theorem delegationAbsence_eq_ok {mode : FailMode} {detail : Text} :
    delegationAbsence mode detail = .ok () ↔ mode ≠ .failClosed := by
  rw [delegationAbsence, raiseIf_eq_ok, beq_eq_false_iff_ne]

/-- With no answer, clearance is a matter of the mode. -/
theorem cleared_of_silent {strict : Prop} {answers : Set Members} {jti : JsonValue} (h : ∀ body, body ∉ answers) :
    Cleared strict answers Lists jti ↔ ¬ strict := by
  constructor
  · intro hc hs
    obtain ⟨body, hb⟩ := hc.known hs
    exact h body hb
  · intro hs
    exact ⟨fun hs' => absurd hs' hs, fun body hb => absurd hb (h body)⟩

theorem checkRevocation_eq_ok {claims inp : Members} {now : Int} :
    checkRevocation P claims inp now = .ok () ↔ ¬ CarriedEscapes P inp ∧
      Cleared (policyFailMode inp = .failClosed) {body | CarriedAnswer P inp now claims body} Lists (claims.get (txt "jti")) := by
  unfold checkRevocation
  cases hlist : inp.get (txt "issuer_revocation_list") with
  | dict revlist =>
    have hcarried : carriedSnapshot inp = some (Members.get revlist (txt "snapshot")) := by rw [carriedSnapshot, hlist]
    simp only [CarriedEscapes, CarriedAnswer, hcarried, Option.some.injEq, exists_eq_left']
    cases ht : verifySnapshotTrust P (Members.get revlist (txt "snapshot")) with
    | error e =>
      cases e with
      | aitp code message retryable =>
        rw [cleared_of_silent (by simp), tctAbsence_eq_ok, leaks_error]
        exact (and_iff_right (not_not_intro coded_aitp)).symm
      | raised kind message =>
        rw [leaks_error]
        exact iff_of_false error_ne_ok fun h => h.1 not_coded_raised
    | ok body =>
      have hbody := (verifySnapshotTrust_trusted P ht).shape
      obtain ⟨stale, hstale⟩ := snapshotIsStale_ok P hbody (policyOf inp) now
      have hfresh : snapshotIsStale P body (policyOf inp) now = .ok false ↔ Fresh P body (policyOf inp) now :=
        snapshotIsStale_eq_false P hbody
      have hsilent : ¬ Leaks (.ok body : PyM Members) := nofun
      simp only [checkTrustedSnapshot, Except.ok.injEq, hsilent, not_false_eq_true, true_and]
      cases hissuer : (body.get (txt "issuer")).eq (claims.get (txt "iss")) with
      | false =>
        rw [Bool.not_false, if_pos rfl, tctAbsence_eq_ok, cleared_of_silent]
        rintro _ ⟨rfl, heq, _⟩
        rw [hissuer] at heq
        cases heq
      | true =>
        rw [Bool.not_true, if_neg Bool.false_ne_true, hstale, ok_bind]
        rw [hstale] at hfresh
        cases stale with
        | true =>
          rw [if_pos rfl, tctAbsence_eq_ok, cleared_of_silent]
          rintro _ ⟨rfl, _, hf⟩
          cases hfresh.mpr hf
        | false =>
          rw [if_neg Bool.false_ne_true, raiseIf_eq_ok]
          constructor
          · intro hl
            refine ⟨fun _ => ⟨body, rfl, hissuer, hfresh.mp rfl⟩, ?_⟩
            rintro _ ⟨rfl, _⟩ hdenied
            rw [Lists, hl] at hdenied
            cases hdenied
          · intro hc
            exact Bool.eq_false_iff.mpr (hc.undenied body ⟨rfl, hissuer, hfresh.mp rfl⟩)
  | _ =>
    have hcarried : carriedSnapshot inp = none := by rw [carriedSnapshot, hlist]
    simp only [CarriedEscapes, CarriedAnswer, hcarried]
    rw [cleared_of_silent (by simp), tctAbsence_eq_ok]
    simp

/-! ### The snapshots of a delegation -/

/-- A record that does not end the call: trusted, or refused under another issuer's label. -/
def RecordPasses (selfAid : Text) (record : JsonValue) : Prop :=
  ¬ Leaks (verifySnapshotTrust P (record.members.get (txt "snapshot"))) ∧
    ((∃ body, verifySnapshotTrust P (record.members.get (txt "snapshot")) = .ok body) ∨
      ∃ label, record.members.get (txt "issuer_aid") = .str label ∧ label ≠ selfAid)

theorem snapshotBody_isOk {selfAid : Text} {record : JsonValue} :
    (∃ body, snapshotBody P selfAid record = .ok body) ↔ RecordPasses P selfAid record := by
  unfold snapshotBody RecordPasses
  cases verifySnapshotTrust P (record.members.get (txt "snapshot")) with
  | ok body => exact iff_of_true ⟨_, rfl⟩ ⟨nofun, .inl ⟨body, rfl⟩⟩
  | error e =>
    rw [leaks_error]
    cases e with
    | aitp code message retryable =>
      cases record.members.get (txt "issuer_aid") with
      | str label => by_cases h : label = selfAid <;> simp [h, coded_aitp]
      | _ => simp
    | raised kind message => simp [not_coded_raised]

/-- The supplied records, when they are a list at all. -/
def suppliedRecords (inp : Members) : Option (List JsonValue) :=
  match inp.get (txt "revocation_snapshots") with
  | .null => some []
  | .list records => some records
  | _ => none

/-- The snapshots step ends the call on none of the records. -/
def SnapshotsPass (inp : Members) (selfAid : Text) : Prop :=
  ∃ records, suppliedRecords inp = some records ∧ ∀ record ∈ records, RecordPasses P selfAid record

theorem verifiedSnapshotBodies_isOk {inp : Members} {selfAid : Text} :
    (∃ bodies, verifiedSnapshotBodies P inp selfAid = .ok bodies) ↔ SnapshotsPass P inp selfAid := by
  unfold verifiedSnapshotBodies SnapshotsPass suppliedRecords
  cases inp.get (txt "revocation_snapshots") with
  | null => simp
  | list records =>
    simp only [Option.some.injEq, exists_eq_left', ← snapshotBody_isOk, ← isOk_iff]
    rw [map_isOk, collect_isOk, List.all_eq_true]
  | _ => simp

/-- The identifier is cleared for its issuer by the supplied snapshots. -/
def ClearedFor (inp : Members) (now : Int) (issuer : Text) (jti : JsonValue) : Prop :=
  Cleared (policyFailMode inp = .failClosed) {body | AnswersFor P inp now issuer body} Lists jti

/-- Clearance over a list of all answers, the two tests the code makes of it. -/
theorem cleared_iff_list {strict : Prop} {p : Members → Prop} {found : List Members} {jti : JsonValue}
    (hmem : ∀ body, body ∈ found ↔ p body) :
    Cleared strict {body | p body} Lists jti ↔ (strict → found.isEmpty = false) ∧ found.any (fun body => lists body jti) = false := by
  constructor
  · intro h
    constructor
    · intro hs
      obtain ⟨body, hb⟩ := h.known hs
      exact List.isEmpty_eq_false_iff_exists_mem.mpr ⟨body, (hmem body).mpr hb⟩
    · rw [List.any_eq_false]
      intro body hb
      exact h.undenied body ((hmem body).mp hb)
  · rintro ⟨hne, hany⟩
    constructor
    · intro hs
      obtain ⟨body, hb⟩ := List.isEmpty_eq_false_iff_exists_mem.mp (hne hs)
      exact ⟨body, (hmem body).mp hb⟩
    · intro body hb
      exact List.any_eq_false.mp hany body ((hmem body).mpr hb)

theorem freshBodies_ok (policy : Members) (now : Int) {bodies : List Members} (h : ∀ body ∈ bodies, RevocationBody body) :
    ∃ fresh, freshBodies P policy now bodies = .ok fresh := by
  induction bodies with
  | nil => exact ⟨[], rfl⟩
  | cons body rest ih =>
    obtain ⟨stale, hstale⟩ := snapshotIsStale_ok P (h body List.mem_cons_self) policy now
    obtain ⟨fresh, hfresh⟩ := ih fun b hb => h b (List.mem_cons_of_mem _ hb)
    exact ⟨_, by rw [freshBodies, hstale, ok_bind, hfresh, ok_bind]⟩

section Bodies

variable {inp : Members} {selfAid : Text} {bodies : List Members} {now : Int}
  (hb : verifiedSnapshotBodies P inp selfAid = .ok bodies)

include hb

theorem bodies_shape : ∀ body ∈ bodies, RevocationBody body := fun _ hm =>
  supplied_shape P ((mem_verifiedSnapshotBodies P hb).mp hm)

theorem checkSourceTctRevocation_eq_ok {srcJti : JsonValue} :
    checkSourceTctRevocation P inp bodies selfAid srcJti now = .ok () ↔ ClearedFor P inp now selfAid srcJti := by
  have hshape : ∀ body ∈ bodies.filter (fun body => (body.get (txt "issuer")).eq (.str selfAid)), RevocationBody body :=
    fun body hm => bodies_shape P hb body (List.mem_of_mem_filter hm)
  obtain ⟨applicable, happ⟩ := freshBodies_ok P (policyOf inp) now hshape
  have hmem (body : Members) : body ∈ applicable ↔ AnswersFor P inp now selfAid body := by
    rw [mem_freshBodies P hshape happ, List.mem_filter, JsonValue.eq_str, mem_verifiedSnapshotBodies P hb]
    constructor
    · rintro ⟨⟨hs, hi⟩, hf⟩
      exact ⟨hs, hi, hf⟩
    · rintro ⟨hs, hi, hf⟩
      exact ⟨⟨hs, hi⟩, hf⟩
  rw [ClearedFor, cleared_iff_list hmem, checkSourceTctRevocation, happ, ok_bind]
  cases hempty : applicable.isEmpty with
  | true =>
    rw [if_pos rfl, delegationAbsence_eq_ok, List.isEmpty_iff.mp hempty]
    simp
  | false =>
    rw [if_neg Bool.false_ne_true, raiseIf_eq_ok]
    simp

/-- A hop of the sweep is cleared for the issuer it names. -/
def HopCleared (inp : Members) (now : Int) (hop : JsonValue) : Prop :=
  ∃ claims iss, peekClaims P hop "DELEGATION_INVALID_SIGNATURE" = .ok claims ∧ P.toStr (claims.get (txt "iss")) = .ok iss ∧
    ClearedFor P inp now iss (claims.get (txt "jti"))

theorem sweepHop_eq_ok {fresh : List Members} (hfresh : freshBodies P (policyOf inp) now bodies = .ok fresh)
    {hop : JsonValue} : sweepHop P (policyFailMode inp) fresh hop = .ok () ↔ HopCleared P inp now hop := by
  have hmem (iss : Text) (body : Members) :
      body ∈ fresh.filter (fun body => (body.get (txt "issuer")).eq (.str iss)) ↔ AnswersFor P inp now iss body := by
    rw [List.mem_filter, mem_freshBodies P (bodies_shape P hb) hfresh, JsonValue.eq_str, mem_verifiedSnapshotBodies P hb]
    constructor
    · rintro ⟨⟨hs, hf⟩, hi⟩
      exact ⟨hs, hi, hf⟩
    · rintro ⟨hs, hi, hf⟩
      exact ⟨⟨hs, hf⟩, hi⟩
  simp only [sweepHop, bind_eq_ok, exists_unit, raiseIf_eq_ok, HopCleared]
  refine exists_congr fun claims => ?_
  rw [← exists_and_left]
  refine exists_congr fun iss => and_congr_right fun _ => and_congr_right fun _ => ?_
  rw [ClearedFor, cleared_iff_list (hmem iss), and_comm]
  refine and_congr_left fun _ => ?_
  cases policyFailMode inp <;> simp

theorem sweepChain_eq_ok {swept : Option (List JsonValue)} :
    sweepChain P inp bodies now swept = .ok () ↔ ∀ hops, swept = some hops → ∀ hop ∈ hops, HopCleared P inp now hop := by
  cases swept with
  | none => simp [sweepChain]
  | some hops =>
    obtain ⟨fresh, hfresh⟩ := freshBodies_ok P (policyOf inp) now (bodies_shape P hb)
    simp only [sweepChain, hfresh, ok_bind, forEach_eq_ok, sweepHop_eq_ok P hb hfresh, Option.some.injEq, forall_eq']

end Bodies

/-- What a delegation still needs once its token, voucher and hops have passed: cleared
by the supplied snapshots, the source token and every swept hop. -/
structure FindingCleared (inp : Members) (now : Int) (finding : DelegationFinding) : Prop where
  source : ClearedFor P inp now finding.selfAid finding.srcJti
  swept : ∀ hops, finding.swept = some hops → ∀ hop ∈ hops, HopCleared P inp now hop

theorem DelegationFinding.conclude_eq_ok {inp : Members} {now : Int} {finding : DelegationFinding} {r : Members} :
    finding.conclude P inp now = .ok r ↔ SnapshotsPass P inp finding.selfAid ∧ FindingCleared P inp now finding ∧
      ∃ grants, finding.grants = .ok grants ∧ [(txt "grants", grants)] = r := by
  rw [DelegationFinding.conclude, ← verifiedSnapshotBodies_isOk]
  simp only [bind_eq_ok, exists_unit, Except.ok.injEq]
  constructor
  · rintro ⟨bodies, hb, hsource, hswept, hgrants⟩
    exact ⟨⟨bodies, hb⟩, ⟨(checkSourceTctRevocation_eq_ok P hb).mp hsource, (sweepChain_eq_ok P hb).mp hswept⟩, hgrants⟩
  · rintro ⟨⟨bodies, hb⟩, hcleared, hgrants⟩
    exact ⟨bodies, hb, (checkSourceTctRevocation_eq_ok P hb).mpr hcleared.source,
      (sweepChain_eq_ok P hb).mpr hcleared.swept, hgrants⟩

/-- A delegation is accepted when its checks pass, no record ends the call and the
supplied snapshots clear it. -/
theorem verifyDelegationToken_eq_ok {inp : Members} {now : Int} {r : Members} :
    verifyDelegationToken P inp now = .ok r ↔ ∃ finding, delegationChecks P inp now = .ok finding ∧
      SnapshotsPass P inp finding.selfAid ∧ FindingCleared P inp now finding ∧
        ∃ grants, finding.grants = .ok grants ∧ [(txt "grants", grants)] = r := by
  simp only [verifyDelegationToken_staged, bind_eq_ok, DelegationFinding.conclude_eq_ok]

/-- A token is accepted when its checks pass and its carried snapshot clears it. -/
theorem verifyTct_cleared {inp : Members} {now : Int} {r : Members} :
    verifyTct P inp now = .ok r ↔ ∃ finding, tctChecks P inp now = .ok finding ∧ ¬ CarriedEscapes P inp ∧
      Cleared (policyFailMode inp = .failClosed) {body | CarriedAnswer P inp now finding.claims body} Lists
        (finding.claims.get (txt "jti")) ∧ finding.result = r := by
  simp only [verifyTct_staged, TctFinding.conclude, bind_eq_ok, exists_unit, checkRevocation_eq_ok, Except.ok.injEq, and_assoc]

end AitpVerifier
