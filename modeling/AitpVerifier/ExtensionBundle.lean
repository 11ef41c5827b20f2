import AitpVerifier.Extensions
import AitpVerifier.SessionBundle

/-!
# Session Trust Bundles with other extensions

A bundle with another object in its own slot, and with participants' tokens reissued,
under a Manifest with other extensions: both passes over the participants come out the
same.
-/
namespace AitpVerifier

open PyText Checked

variable (P : Platform)

/-- A participant entry around an alike token. -/
def ParticipantAlike (p p' : JsonValue) : Prop :=
  ∃ (entry entry' : Members) (token token' : JsonValue), p = .dict entry ∧ p' = .dict entry' ∧
    SameBut [txt "tct"] entry entry' ∧ entry.get? (txt "tct") = some token ∧ entry'.get? (txt "tct") = some token' ∧
    TokenAlike P ExtRefilled token token'

/-- A bundle body with other extensions and alike participants, signed again by the
coordinator. -/
structure BodyResigned (body body' : Members) : Prop where
  rest : SameBut [txt "participants", txt "extensions", txt "signature"] body body'
  extensions : body'.get? (txt "extensions") = body.get? (txt "extensions") ∨
    ∃ contents : Members, body'.get? (txt "extensions") = some (.dict contents)
  participants : ∃ entries entries', body.get (txt "participants") = .list entries ∧
    body'.get? (txt "participants") = some (.list entries') ∧ List.Forall₂ (ParticipantAlike P) entries entries'
  signed : ∀ coord, parseAid P (body.get (txt "coordinator")).text = .ok coord → BodySigned P body' coord

variable {body body' claims : Members} {token token' p p' : JsonValue}

/-! ### One participant -/

namespace ParticipantAlike

theorem shape (h : ParticipantAlike P p p') (hr : checkParticipantShape P p = .ok ()) :
    checkParticipantShape P p' = .ok () := by
  obtain ⟨entry, entry', token, token', rfl, rfl, hrest, htoken, htoken', halike⟩ := h
  have hread : (JsonValue.dict entry).members = entry := rfl
  simp only [checkParticipantShape, bind_eq_ok, exists_unit, requireMembers_eq_ok, checkTypes_eq_ok,
    rejectUnknownFields_eq_ok, JsonValue.dict.injEq, exists_eq_left'] at hr ⊢
  obtain ⟨hpresent, htyped, hknown⟩ := hr
  have hshaped' : Shaped entry' requiredParticipantFields participantTypes := by
    apply hrest.shaped ⟨hpresent, htyped⟩
    · intro key hk _
      rw [List.mem_singleton.mp hk, Members.has, htoken']
      rfl
    · intro e he hin value hv
      have hslot := List.mem_singleton.mp hin
      have hstr : ∀ e ∈ participantTypes, e.1 = txt "tct" → e.2 = .str := by decide
      rw [hslot, htoken'] at hv
      rw [← Option.some.inj hv, hstr e he hslot]
      cases halike with
      | inl heq =>
        rw [heq]
        rw [← hslot] at htoken
        rw [← hstr e he hslot]
        exact htyped e he token htoken
      | inr hreissued =>
        obtain ⟨_, parsed', _, hparsed', _⟩ := hreissued
        obtain ⟨s, rfl⟩ := hparsed'.text
        rfl
  exact ⟨hshaped'.present, hshaped'.typed, hrest.known hknown (by decide)⟩

/-- The participant's own identifier is the same, and its token alike. -/
theorem members (h : ParticipantAlike P p p') :
    p'.members.get (txt "aid") = p.members.get (txt "aid") ∧
      TokenAlike P ExtRefilled (p.members.get (txt "tct")) (p'.members.get (txt "tct")) := by
  obtain ⟨entry, entry', token, token', rfl, rfl, hrest, htoken, htoken', halike⟩ := h
  have hread (entry : Members) : (JsonValue.dict entry).members = entry := rfl
  rw [hread, hread, Members.get_of_get? htoken, Members.get_of_get? htoken']
  exact ⟨hrest.get (by decide), halike⟩

theorem peekExp {exp : Int} (h : ParticipantAlike P p p') (hr : AitpVerifier.peekExp P p.members = .ok exp) :
    AitpVerifier.peekExp P p'.members = .ok exp := by
  simp only [AitpVerifier.peekExp, bind_eq_ok, exists_unit, remapUnknownField_eq_ok, checkTctClaimsShape_eq_ok] at hr ⊢
  obtain ⟨claims, hpeek, hshape, hexp⟩ := hr
  obtain ⟨claims', hclaims, hpeek'⟩ := (h.members P).2.peeked P (fun _ => .refl _ _) hpeek
  refine ⟨claims', hpeek', hshape.refilled hclaims, ?_⟩
  rw [hclaims.get (by decide)]
  exact hexp

theorem verify {coordinator : JsonValue} {man man' : Members} (h : ParticipantAlike P p p')
    (hman : SameBut [txt "extensions", txt "signature"] man man')
    (hr : verifyParticipant P coordinator man p.members = .ok ()) :
    verifyParticipant P coordinator man' p'.members = .ok () := by
  obtain ⟨haid, halike⟩ := h.members P
  simp only [verifyParticipant, bind_eq_ok, exists_unit, peekClaims_eq_ok, remapUnknownField_eq_ok, verifyJws_eq_ok,
    checkTctClaimsShape_eq_ok] at hr ⊢
  obtain ⟨peeked, hpeek, iss, hiss, claims, ⟨hsigned, hshape⟩, outlives, houtlives, hrest⟩ := hr
  have hissued := (issuedToken_iff P hshape.iss).mpr ⟨peeked, hpeek, iss, hiss, hsigned⟩
  obtain ⟨claims', hclaims, hissued'⟩ := halike.refilled P hissued
  have hshape' := hshape.refilled hclaims
  obtain ⟨peeked', hpeek', iss', hiss', hsigned'⟩ := (issuedToken_iff P hshape'.iss).mp hissued'
  refine ⟨peeked', hpeek', iss', hiss', claims', ⟨hsigned', hshape'⟩, outlives, ?_, ?_⟩
  · rw [outlivesManifest_alike P (hclaims.get (by decide)) (.inr ⟨man, man', rfl, rfl, hman⟩)]
    exact houtlives
  · rw [hclaims.get (by decide), hclaims.get (by decide), haid]
    exact hrest

end ParticipantAlike

/-! ### The body -/

namespace BodyResigned

variable (h : BodyResigned P body body')

include h

theorem get {key : Text} (hk : key ∉ [txt "participants", txt "extensions", txt "signature"]) :
    body'.get key = body.get key := h.rest.get hk

theorem entries : List.Forall₂ (ParticipantAlike P) (body.get (txt "participants")).items
    (body'.get (txt "participants")).items := by
  obtain ⟨entries, entries', hentries, hentries', halike⟩ := h.participants
  rw [hentries, Members.get_of_get? hentries']
  exact halike

theorem participantsOf : List.Forall₂ (fun p p' => ∃ entry entry', p = entry.members ∧ p' = entry'.members ∧
    ParticipantAlike P entry entry') (AitpVerifier.participantsOf body) (AitpVerifier.participantsOf body') := by
  rw [AitpVerifier.participantsOf, AitpVerifier.participantsOf, List.forall₂_map_left_iff, List.forall₂_map_right_iff]
  exact (h.entries P).imp fun entry entry' halike => ⟨entry, entry', rfl, rfl, halike⟩

/-- The participants' identifiers are the same, in order. -/
theorem aids : (AitpVerifier.participantsOf body').map (fun p => p.get (txt "aid")) =
    (AitpVerifier.participantsOf body).map (fun p => p.get (txt "aid")) := by
  have hall := h.participantsOf P
  generalize AitpVerifier.participantsOf body = ps, AitpVerifier.participantsOf body' = ps' at hall
  induction hall with
  | nil => rfl
  | cons hfirst _ ih =>
    obtain ⟨entry, entry', rfl, rfl, halike⟩ := hfirst
    rw [List.map_cons, List.map_cons, ih, (halike.members P).1]

theorem shape {coord : Aid} (hcoord : parseAid P (body.get (txt "coordinator")).text = .ok coord)
    (hr : checkBundleShape P (.dict body) = .ok body) : checkBundleShape P (.dict body') = .ok body' := by
  obtain ⟨entries, entries', _, hentries', _⟩ := h.participants
  obtain ⟨_, _, _, ⟨text, htext, _⟩, _⟩ := h.signed coord hcoord
  simp only [checkBundleShape, bind_eq_ok, exists_unit, requireMembers_eq_ok, checkTypes_eq_ok, and_true,
    rejectUnknownFields_eq_ok, JsonValue.dict.injEq, exists_eq_left'] at hr ⊢
  obtain ⟨hpresent, htyped, hknown, hparts⟩ := hr
  have hshaped : Shaped body requiredBundleBodyFields bundleBodyTypes := ⟨hpresent, htyped⟩
  have hshaped' : Shaped body' requiredBundleBodyFields bundleBodyTypes := by
    apply h.rest.shaped hshaped
    · intro key hk hrequired
      simp only [List.mem_cons, List.not_mem_nil, or_false] at hk
      rcases hk with rfl | rfl | rfl
      · rw [Members.has, hentries']
        rfl
      · exact absurd hrequired (by decide)
      · exact Members.has_of_get_str htext
    · intro entry he hin value hv
      have htypes : ∀ entry ∈ bundleBodyTypes, (entry.1 = txt "participants" → entry.2 = .list) ∧
          (entry.1 = txt "extensions" → entry.2 = .dict) ∧ (entry.1 = txt "signature" → entry.2 = .str) := by decide
      obtain ⟨hlist, hdict, hstr⟩ := htypes entry he
      simp only [List.mem_cons, List.not_mem_nil, or_false] at hin
      rcases hin with hslot | hslot | hslot
      · rw [hslot, hentries'] at hv
        rw [← Option.some.inj hv, hlist hslot]
        rfl
      · cases h.extensions with
        | inl hsame =>
          rw [hslot, hsame, ← hslot] at hv
          exact htyped entry he value hv
        | inr hcontents =>
          obtain ⟨contents, hcontents⟩ := hcontents
          rw [hslot, hcontents] at hv
          rw [← Option.some.inj hv, hdict hslot]
          rfl
      · rw [hslot] at hv
        rw [Members.get_of_get? hv] at htext
        rw [htext, hstr hslot]
        rfl
  refine ⟨hshaped'.present, hshaped'.typed, h.rest.known hknown (by decide), ?_⟩
  exact forEach_alike (h.entries P) (fun _ _ halike => halike.shape P) hparts

theorem times {now : Int} (hr : checkBundleTimes P body now = .ok ()) : checkBundleTimes P body' now = .ok () := by
  have hempty : (AitpVerifier.participantsOf body').isEmpty = (AitpVerifier.participantsOf body).isEmpty := by
    rw [← List.isEmpty_map, h.aids P, List.isEmpty_map]
  have hexps {exps : List Int} (hexps : collect (peekExp P) (AitpVerifier.participantsOf body) = .ok exps) :
      collect (peekExp P) (AitpVerifier.participantsOf body') = .ok exps := by
    have hstep (p p' : Members) (exp : Int)
        (hp : ∃ entry entry', p = entry.members ∧ p' = entry'.members ∧ ParticipantAlike P entry entry')
        (hpeek : peekExp P p = .ok exp) : ∃ exp', peekExp P p' = .ok exp' ∧ exp = exp' := by
      obtain ⟨entry, entry', rfl, rfl, halike⟩ := hp
      exact ⟨exp, halike.peekExp P hpeek, rfl⟩
    obtain ⟨exps', hexps', hsame⟩ := collect_alike (h.participantsOf P) hstep hexps
    rw [List.forall₂_eq_eq_eq] at hsame
    rw [hsame]
    exact hexps'
  simp only [checkBundleTimes, checkExpiryWindow, hempty, h.get P (by decide : txt "version" ∉ _),
    h.get P (by decide : txt "expires_at" ∉ _), bind_eq_ok, exists_unit] at hr ⊢
  obtain ⟨hversion, expiresAt, hexpires, hlive, hpresent, exps, hcollect, hwindow⟩ := hr
  exact ⟨hversion, expiresAt, hexpires, hlive, hpresent, exps, hexps hcollect, hwindow⟩

end BodyResigned

/-! ### The whole bundle -/

variable {inp inp' : Members}

/-- An input with a resigned bundle, or alike Manifests of its coordinator. -/
structure BundleAlike (inp inp' : Members) : Prop where
  rest : SameBut [txt "session_bundle", txt "coordinator_manifest"] inp inp'
  bundle : ∃ wrapper wrapper' body body' : Members, inp.get? (txt "session_bundle") = some (.dict wrapper) ∧
    inp'.get? (txt "session_bundle") = some (.dict wrapper') ∧ SameBut [txt "session_bundle"] wrapper wrapper' ∧
    wrapper.get (txt "session_bundle") = .dict body ∧ wrapper'.get? (txt "session_bundle") = some (.dict body') ∧
    BodyResigned P body body'
  manifests : ManifestsAlike P (inp.get (txt "coordinator_manifest")) (inp'.get (txt "coordinator_manifest"))

theorem unwrapBundle_alike {wrapper wrapper' : Members} {value value' : JsonValue}
    (hrest : SameBut [txt "session_bundle"] wrapper wrapper') (hvalue' : wrapper'.get? (txt "session_bundle") = some value')
    (hr : unwrapBundle P (.dict wrapper) = .ok value) : unwrapBundle P (.dict wrapper') = .ok value' := by
  have hextra (w : Members) : (!(w.names.filter fun k => k != txt "session_bundle").isEmpty) = false ↔
      ∀ key ∈ w.names, key ∈ [txt "session_bundle"] := by
    simp [List.filter_eq_nil_iff]
  simp only [unwrapBundle, bind_eq_ok, exists_unit, raiseIf_eq_ok, hextra, Bool.not_eq_false', Except.ok.injEq] at hr ⊢
  refine ⟨?_, hrest.known hr.2.1 (by decide), Members.get_of_get? hvalue'⟩
  rw [Members.has, hvalue']
  rfl

/-- A bundle accepted stays accepted. -/
theorem verifySessionBundle_alike {clock : Option Int} {r : Members} (h : BundleAlike P inp inp')
    (hr : verifySessionBundle P inp clock = .ok r) : verifySessionBundle P inp' clock = .ok r := by
  obtain ⟨wrapper, wrapper', body, body', hwrapper, hwrapper', hrest, hbody, hbody', hresigned⟩ := h.bundle
  have hclock : clockOf P inp' clock = clockOf P inp clock := by
    cases clock with
    | some now => rfl
    | none => rw [clockOf, h.rest.index (by decide), clockOf]
  have hindex : inp.index (txt "session_bundle") = .ok (.dict wrapper) := Members.index_eq_ok.mpr hwrapper
  have hindex' : inp'.index (txt "session_bundle") = .ok (.dict wrapper') := Members.index_eq_ok.mpr hwrapper'
  simp only [verifySessionBundle, hclock, h.rest.index (by decide : txt "self_aid" ∉ _), hindex, hindex', ok_bind,
    bind_eq_ok, exists_unit, Prod.exists, onValueError_eq_ok, forEach_eq_ok, verifyBundleSignature_eq_ok] at hr ⊢
  obtain ⟨now, hnow, selfAid, hself, value, hvalue, checked, hchecked, htimes, named, hnamed, coord, man, hman, hsigned,
    hparts, hhash, hmember, hresult⟩ := hr
  obtain ⟨_, heq, hget⟩ := unwrapBundle_eq_ok P hvalue
  obtain rfl := JsonValue.dict.inj heq
  rw [hbody] at hget
  subst hget
  obtain ⟨heq, _, _⟩ := checkBundleShape_eq_ok P hchecked
  obtain rfl := JsonValue.dict.inj heq
  obtain ⟨_, _, hkey⟩ := resolveManifest_eq_ok P hman
  obtain ⟨man', hman', hmanifest⟩ := resolveManifest_alike P h.manifests hman
  have hcoordinator : body'.get (txt "coordinator") = body.get (txt "coordinator") := hresigned.get P (by decide)
  refine ⟨now, hnow, selfAid, hself, .dict body', unwrapBundle_alike P hrest hbody' hvalue, body',
    hresigned.shape P hkey hchecked, hresigned.times P htimes, named, ?_, coord, man', ?_, hresigned.signed coord hkey, ?_,
    hhash, ?_, hresult⟩
  · rw [hcoordinator]
    exact hnamed
  · rw [hcoordinator]
    exact hman'
  · rw [hcoordinator, ← forEach_eq_ok]
    refine forEach_alike (hresigned.participantsOf P) ?_ (forEach_eq_ok.mpr hparts)
    rintro _ _ ⟨entry, entry', rfl, rfl, halike⟩ hverified
    exact halike.verify P hmanifest hverified
  · rw [hresigned.aids P]
    exact hmember

end AitpVerifier
