import AitpVerifier.Participants

/-!
# Accepted bundles are internally consistent

The bundle's expiry is the only one compared with the clock. It reaches every
participant through the window, which the first pass computes on claims nothing
has verified yet; the second pass verifies the same claims.
-/
namespace AitpVerifier

open PyText Checked

variable (P : Platform)

/-- The expiry a token's claims declare. -/
def expiryOf (claims : Members) : Int := (claims.get (txt "exp")).intValue

/-- A participant whose token the coordinator signed for it. -/
structure TokenOfCoordinator (coordinator : JsonValue) (p claims : Members) : Prop where
  signed : SignedToken P (p.get (txt "tct")) coordinator.text tctTyp claims
  issuer : claims.get (txt "iss") = coordinator
  audience : claims.get (txt "aud") = p.get (txt "aid")

/-- A bundle with the Manifest of its coordinator and the claims of its tokens, one
for each participant in order. -/
structure ConsistentBundle (inp : Members) (now : Int) (body man : Members) (tokens : List Members) : Prop where
  wrapped : ∃ wrapper, inp.get? (txt "session_bundle") = some (.dict wrapper) ∧
    Members.get wrapper (txt "session_bundle") = .dict body
  supplied : .dict man ∈ manifestCandidates (inp.get (txt "coordinator_manifest"))
  manifest : ∃ r, verifyManifest P [(txt "manifest", .dict man), (txt "now", .int now)] now = .ok r
  names : man.get (txt "aid") = body.get (txt "coordinator")
  signed : ∃ coord, parseAid P (body.get (txt "coordinator")).text = .ok coord ∧ BodySigned P body coord
  nonempty : participantsOf body ≠ []
  issued : List.Forall₂ (TokenOfCoordinator P (body.get (txt "coordinator"))) (participantsOf body) tokens
  window : (tokens.map expiryOf).min? = some (body.get (txt "expires_at")).intValue
  live : ∀ claims ∈ tokens, now < (body.get (txt "expires_at")).intValue ∧
    (body.get (txt "expires_at")).intValue ≤ expiryOf claims ∧ expiryOf claims ≤ (man.get (txt "expires_at")).intValue
  member : ∃ p ∈ participantsOf body, inp.get? (txt "self_aid") = some (p.get (txt "aid"))

/-! ### The first pass reads what the second verifies -/

/-- The expiry peeked before the signature is the verified token's own. -/
theorem ParticipantAccepted.peeked {coordinator : JsonValue} {man p claims : Members} {now exp : Int}
    (h : ParticipantAccepted P coordinator man p now claims) (hp : peekExp P p = .ok exp) : expiryOf claims = exp := by
  simp only [peekExp, bind_eq_ok, exists_unit, peekClaims_eq_ok, remapUnknownField_eq_ok, checkTctClaimsShape_eq_ok] at hp
  obtain ⟨early, hearly, _, he⟩ := hp
  obtain ⟨_, _, hsigned⟩ := h.signed
  obtain rfl := hsigned.claims_unique P hearly
  rw [h.shape.toInt_exp, Except.ok.injEq] at he
  exact he

theorem ParticipantAccepted.ofCoordinator {coordinator : JsonValue} {man p claims : Members} {now : Int}
    (h : ParticipantAccepted P coordinator man p now claims) : TokenOfCoordinator P coordinator p claims := by
  obtain ⟨iss, hi, hs⟩ := h.signed
  refine ⟨?_, h.issuer, h.aud⟩
  rw [← h.issuer, hi]
  exact hs

/-- An accepted participant's token ends no later than the Manifest it was checked against. -/
theorem ParticipantAccepted.capped {coordinator : JsonValue} {man p claims : Members} {now : Int}
    (h : ParticipantAccepted P coordinator man p now claims) (hman : (man.get (txt "expires_at")).admits .int)
    (hhas : man.has (txt "expires_at")) : expiryOf claims ≤ (man.get (txt "expires_at")).intValue := by
  have hitem : (JsonValue.dict man).item (txt "expires_at") = .ok (man.get (txt "expires_at")) := by
    rw [JsonValue.item, Members.index, Members.get?_of_has hhas]
  have hcap := h.withinManifest
  simp only [outlivesManifest, h.shape.toInt_exp, hitem, toInt_of_admits P hman, bind_eq_ok, Except.ok.injEq,
    exists_eq_left', decide_eq_false_iff_not, not_lt] at hcap
  exact hcap

/-- Participants read in order by the two passes: the tokens verified are those peeked. -/
theorem exists_tokens {coordinator : JsonValue} {man : Members} {now : Int} {participants : List Members}
    {exps : List Int} (hpeek : List.Forall₂ (fun p exp => peekExp P p = .ok exp) participants exps)
    (haccepted : ∀ p ∈ participants, ∃ claims, ParticipantAccepted P coordinator man p now claims) :
    ∃ tokens, List.Forall₂ (fun p claims => ParticipantAccepted P coordinator man p now claims) participants tokens ∧
      tokens.map expiryOf = exps := by
  induction hpeek with
  | nil => exact ⟨[], .nil, rfl⟩
  | @cons p exp rest exps hp _ ih =>
    obtain ⟨claims, hc⟩ := haccepted p List.mem_cons_self
    obtain ⟨tokens, htokens, hmap⟩ := ih fun p hm => haccepted p (List.mem_cons_of_mem _ hm)
    refine ⟨claims :: tokens, .cons hc htokens, ?_⟩
    rw [List.map_cons, hc.peeked P hp, hmap]

theorem BundleRun.member_aid {inp body man : Members} {now : Int} {coord : Aid} (h : BundleRun P inp now body man coord) :
    ∃ p ∈ participantsOf body, inp.get? (txt "self_aid") = some (p.get (txt "aid")) := by
  obtain ⟨_, _, hentries⟩ := checkBundleShape_eq_ok P h.shape
  obtain ⟨selfAid, hself, hin⟩ := h.member
  simp only [JsonValue.isIn, List.any_map, List.any_eq_true, Function.comp_apply] at hin
  obtain ⟨p, hp, heq⟩ := hin
  obtain ⟨aid, ha⟩ := (hentries p hp).str (k := txt "aid") (by simp [requiredParticipantFields]) (by simp [participantTypes])
  rw [ha, JsonValue.str_eq] at heq
  exact ⟨p, hp, by rw [hself, ha, heq]⟩

/-- Every accepted bundle is consistent: one coordinator, its Manifest, its signature
and its tokens, with the bundle's expiry between the clock and each of theirs. -/
theorem verifySessionBundle_consistent (inp : Members) (clock : Option Int) (now : Int) (r : Members)
    (hclock : clockOf P inp clock = .ok now) (h : verifySessionBundle P inp clock = .ok r) :
    ∃ body man tokens, ConsistentBundle P inp now body man tokens := by
  obtain ⟨body, man, coord, hrun⟩ := verifySessionBundle_run P hclock h
  obtain ⟨_, expiresAt, he, hlive, hne, hwindow⟩ := checkBundleTimes_eq_ok P hrun.times
  obtain ⟨_, hshape, _⟩ := checkBundleShape_eq_ok P hrun.shape
  obtain ⟨wrapper, houter, hwrap⟩ := hrun.wrapped
  obtain ⟨_, heq, hbody⟩ := unwrapBundle_eq_ok P hwrap
  obtain rfl := JsonValue.dict.inj heq
  obtain ⟨hfind, hverified, hkey⟩ := resolveManifest_eq_ok P hrun.resolved
  obtain ⟨hnames, hman⟩ := resolveManifest_accepted P hrun.resolved
  obtain ⟨coordinator, hc⟩ := hrun.coordinator P
  have hexpires : expiresAt = (body.get (txt "expires_at")).intValue := by
    rw [toInt_of_admits P (hshape.admits (by simp [requiredBundleBodyFields]) (by simp [bundleBodyTypes])),
      Except.ok.injEq] at he
    exact he.symm
  -- the first pass fixes the window, and the tokens of the second have its expiries
  simp only [checkExpiryWindow, bind_eq_ok, he, Except.ok.injEq, exists_eq_left', raiseIf_eq_ok,
    bne_eq_false_iff_eq, collect_eq_ok] at hwindow
  obtain ⟨exps, hexps, hmin⟩ := hwindow
  obtain ⟨tokens, htokens, hmap⟩ := exists_tokens P hexps fun _ hp => hrun.participant P hp
  rw [hexpires] at hmin hlive
  have hwin : (tokens.map expiryOf).min? = some (body.get (txt "expires_at")).intValue := by rw [hmap, hmin]
  refine ⟨body, man, tokens, ⟨wrapper, houter, hbody⟩, List.mem_of_find?_eq_some hfind, hverified, ?_,
    ⟨coord, hkey, hrun.signed⟩, hne, htokens.imp fun _ _ ht => ht.ofCoordinator P, hwin, ?_, hrun.member_aid P⟩
  · rw [hnames, hc]
    rfl
  · intro claims hm
    obtain ⟨p, _, ht⟩ := mem_of_forall₂ htokens hm
    refine ⟨hlive, (List.min?_eq_some_iff.mp hwin).2 _ (List.mem_map_of_mem hm), ht.capped P hman.expiresAt ?_⟩
    exact hman.shaped.present (txt "expires_at") (by simp [requiredManifestFields])

/-- The recorded bundle of agents A and B. -/
theorem verifySessionBundle_consistent_recorded :
    ∃ body man tokens, ConsistentBundle bundleRecording.platform (bundleInput grantToken bundleSignature) referenceClock
      body man tokens :=
  verifySessionBundle_consistent bundleRecording.platform (bundleInput grantToken bundleSignature) (some referenceClock)
    referenceClock okResult rfl bundle_accepted

end AitpVerifier
