import AitpVerifier.Adapter

/-!
# Fixtures are isolated

Beside the clock and the features nothing outlives the beginning of a fixture but the
loaded keys, and an adapter that has loaded its keys answers as one that will. Within a
fixture a message id is refused exactly when it was accepted before.
-/
namespace AitpVerifier

open PyText

variable (P : Platform) (D : Deployment)

/-! ### Keys loaded now or later -/

/-- The adapter with its keys loaded, where they load. -/
def AdapterState.settled (s : AdapterState) : AdapterState := { s with keys := (s.katKeys D).toOption }

theorem settled_katKeys (s : AdapterState) : (s.settled D).katKeys D = s.katKeys D := by
  rw [AdapterState.settled, AdapterState.katKeys, AdapterState.katKeys]
  cases s.keys with
  | some keys => rfl
  | none => cases D.loadKeys <;> rfl

theorem settled_loaded {s : AdapterState} {keys : KatKeys} (h : s.katKeys D = .ok keys) :
    { s with keys := some keys } = s.settled D := by
  rw [AdapterState.settled, h]
  rfl

theorem settled_settled (s : AdapterState) : (s.settled D).settled D = s.settled D := by
  rw [AdapterState.settled, settled_katKeys]
  rfl

/-- A handler that does not care whether the keys are loaded. -/
def Settles {α : Type} (f : AdapterState → α × AdapterState) : Prop :=
  ∀ s, f (s.settled D) = ((f s).1, (f s).2.settled D)

theorem init_settles (rid : Text) (params : Members) : Settles D fun s => init P D s rid params := by
  intro s
  simp only [init, settled_katKeys]
  split
  · rfl
  · cases hkeys : s.katKeys D with
    | ok keys =>
      dsimp only
      rw [settled_loaded D hkeys, settled_settled, settled_loaded D ((settled_katKeys D s).trans hkeys), settled_settled]
    | error e => rfl

theorem setClock_settles (rid : Text) (params : Members) : Settles D fun s => setClock s rid params := by
  intro s
  simp only [setClock]
  split <;> rfl

theorem setFeatures_settles (rid : Text) (params : Members) : Settles D fun s => setFeatures s rid params := by
  intro s
  simp only [setFeatures]
  split
  · split <;> rfl
  · rfl

theorem replayCheck_settles (rid mid : Text) : Settles D fun s => replayCheck s rid mid := by
  intro s
  have hseen : (s.settled D).seenMessageIds = s.seenMessageIds := rfl
  simp only [replayCheck, hseen]
  split <;> rfl

theorem verifyOperation_settles (rid op : Text) (verifier : Verifier) (params : Members) :
    Settles D fun s => verifyOperation P D s rid op verifier params := by
  intro s
  have hinput : operationInput (s.settled D) op params = operationInput s op params := rfl
  simp only [verifyOperation, settled_katKeys, hinput]
  cases missingArgument op params with
  | some missing => rfl
  | none =>
    cases invalidArgument P op params with
    | some invalid => rfl
    | none =>
      cases hkeys : s.katKeys D with
      | error e => rfl
      | ok keys =>
        dsimp only
        rw [settled_loaded D hkeys, settled_settled, settled_loaded D ((settled_katKeys D s).trans hkeys), settled_settled]

theorem producePopResponse_settled (s : AdapterState) (params : Members) :
    producePopResponse P (s.settled D) params = (producePopResponse P s params >>= fun r => .ok (r.1, r.2.settled D)) := by
  have hinput : popInput (s.settled D) params = popInput s params := rfl
  have hclock : (s.settled D).clock = s.clock := rfl
  simp only [producePopResponse, hinput, hclock, bind_assoc]
  congr 1
  funext claims
  cases presenterFromPop P (popInput s params) claims s.clock with
  | ok presenter => rfl
  | error e => cases e <;> rfl

theorem issuePopChallenge_settled (s : AdapterState) (random : Bytes) (params : Members) :
    issuePopChallenge P (s.settled D) random params = (issuePopChallenge P s random params >>= fun r => .ok (r.1, r.2.settled D)) := by
  simp only [issuePopChallenge, bind_assoc]
  rfl

theorem authorizeCapabilityInvocation_settled (s : AdapterState) (params : Members) :
    authorizeCapabilityInvocation P (s.settled D) params =
      (authorizeCapabilityInvocation P s params >>= fun r => .ok (r.1, r.2.settled D)) := by
  simp only [authorizeCapabilityInvocation, bind_assoc]
  congr 1
  funext claims
  congr 1
  funext required
  cases required <;> rfl

theorem SessionOp.run_settled (s : AdapterState) (random : Bytes) (params : Members) (sessionOp : SessionOp) :
    sessionOp.run P (s.settled D) random params = (sessionOp.run P s random params >>= fun r => .ok (r.1, r.2.settled D)) := by
  cases sessionOp with
  | issuePopChallenge => exact issuePopChallenge_settled P D s random params
  | producePopResponse => exact producePopResponse_settled P D s params
  | authorizeCapabilityInvocation => exact authorizeCapabilityInvocation_settled P D s params
  | _ => rfl

theorem runSession_settles (random : Bytes) (rid : Text) (sessionOp : SessionOp) (params : Members) :
    Settles D fun s => runSession P s random rid sessionOp params := by
  intro s
  simp only [runSession, SessionOp.run_settled]
  cases sessionOp.run P s random params <;> rfl

theorem answered_settles {f : AdapterState → Response × AdapterState} (h : Settles D f) :
    Settles D fun s => answered (f s) :=
  fun s => congrArg answered (h s)

theorem dispatch_settles (random : Bytes) (rid op : Text) (params : Members) :
    Settles D fun s => dispatch P D s random rid op params := by
  intro s
  simp only [dispatch]
  split
  · exact init_settles P D rid params s
  split
  · rfl
  split
  · exact answered_settles D (setClock_settles D rid params) s
  split
  · exact answered_settles D (setFeatures_settles D rid params) s
  split
  · rfl
  cases namedMessage op params with
  | some mid => exact answered_settles D (replayCheck_settles D rid mid) s
  | none =>
    cases sessionOps.lookup op with
    | some sessionOp => exact runSession_settles P D random rid sessionOp params s
    | none =>
      cases (operations P).lookup op with
      | some verifier => exact verifyOperation_settles P D rid op verifier params s
      | none => rfl

/-- An adapter that has its keys loaded answers as one that has yet to load them. -/
theorem handle_settles (random : Bytes) (request : Members) : Settles D fun s => handle P D s random request := by
  intro s
  by_cases hread : ∃ op params, request.get (txt "op") = .str op ∧ requestParams request = .dict params
  · obtain ⟨op, params, hop, hparams⟩ := hread
    simp only [handle_dispatches P hop hparams, dispatch_settles P D random (requestId request) op params s]
    generalize dispatch P D s random (requestId request) op params = handled
    obtain ⟨answer, s'⟩ := handled
    cases answer <;> rfl
  · simp only [handle_malformed P fun op params hop hparams => hread ⟨op, params, hop, hparams⟩]

/-! ### The next fixture -/

theorem exchange_settled (s : AdapterState) (arrival : Arrival) :
    (exchange P D (s.settled D) arrival).response = (exchange P D s arrival).response ∧
      (exchange P D (s.settled D) arrival).after = (exchange P D s arrival).after.settled D :=
  Prod.mk.inj (handle_settles P D arrival.2 arrival.1 s)

theorem responses_settled (s : AdapterState) (arrivals : List Arrival) :
    responses P D (s.settled D) arrivals = responses P D s arrivals := by
  induction arrivals generalizing s with
  | nil => rfl
  | cons arrival rest ih =>
    obtain ⟨hresponse, hafter⟩ := exchange_settled P D s arrival
    rw [responses, responses, exchanges, exchanges, List.map_cons, List.map_cons, hresponse, hafter]
    exact congrArg _ (ih (exchange P D s arrival).after)

/-- At the beginning of a fixture the keys, the clock and the features are all there is. -/
theorem beginFixture_settled {s s' : AdapterState} (hkeys : s.katKeys D = s'.katKeys D) (hclock : s.clock = s'.clock)
    (hfeatures : s.features = s'.features) : s.beginFixture.settled D = s'.beginFixture.settled D := by
  have hload : s.beginFixture.katKeys D = s'.beginFixture.katKeys D := hkeys
  rw [AdapterState.settled, AdapterState.settled, hload, AdapterState.beginFixture, AdapterState.beginFixture, hclock, hfeatures]

/-! ### Message ids within a fixture -/

/-- The id was accepted, and no fixture began since. -/
def AcceptedSince (earlier : List Exchange) (mid : Text) : Prop :=
  ∃ before accepted between, earlier = before ++ accepted :: between ∧ accepted.Names mid ∧ accepted.response.isOk = true ∧
    ∀ other ∈ between, ¬ other.Begins

def Response.errorCode : Response → Option String
  | .ok .. => none
  | .err _ code _ => some code

variable {D}

theorem exchange_named {s : AdapterState} {arrival : Arrival} {mid : Text} (h : (exchange P D s arrival).Names mid) :
    ∃ rid, (exchange P D s arrival).response = (replayCheck s rid mid).1 ∧
      (exchange P D s arrival).after = (replayCheck s rid mid).2 := by
  obtain ⟨op, params, hop, hparams, hnamed⟩ := h
  have hnames : arrival.1.get (txt "op") = .str op := hop
  have hcarries : requestParams arrival.1 = .dict params := hparams
  refine ⟨requestId arrival.1, ?_⟩
  rw [exchange, handle_dispatches P hnames hcarries, dispatch_named P hnamed]
  exact ⟨rfl, rfl⟩

theorem replayCheck_errorCode {s : AdapterState} {rid mid : Text} :
    (replayCheck s rid mid).1.errorCode = some "REPLAY_DETECTED" ↔ mid ∈ s.seenMessageIds := by
  rw [replayCheck]
  split
  · exact iff_of_true rfl ‹_›
  · exact iff_of_false (Option.some_ne_none "REPLAY_DETECTED").symm ‹_›

theorem replayCheck_isOk {s : AdapterState} {rid mid : Text} : (replayCheck s rid mid).1.isOk = true ↔ mid ∉ s.seenMessageIds := by
  rw [replayCheck]
  split
  · exact iff_of_false Bool.false_ne_true (not_not_intro ‹_›)
  · exact iff_of_true rfl ‹_›

theorem mem_replayCheck {s : AdapterState} {rid mid other : Text} :
    other ∈ (replayCheck s rid mid).2.seenMessageIds ↔ other = mid ∨ other ∈ s.seenMessageIds := by
  rw [replayCheck]
  split
  · rename_i hseen
    exact ⟨.inr, fun h => h.elim (fun heq => heq ▸ hseen) id⟩
  · exact Finset.mem_insert

/-- What one step does to the message ids seen. -/
theorem mem_exchange {s : AdapterState} {arrival : Arrival} {mid : Text} :
    mid ∈ (exchange P D s arrival).after.seenMessageIds ↔ ¬ (exchange P D s arrival).Begins ∧
      (mid ∈ s.seenMessageIds ∨ (exchange P D s arrival).Names mid ∧ (exchange P D s arrival).response.isOk = true) := by
  by_cases hbegin : (exchange P D s arrival).Begins
  · rw [exchange_begins P hbegin]
    exact iff_of_false (Finset.notMem_empty mid) fun h => h.1 hbegin
  rw [and_iff_right hbegin]
  by_cases hnamed : ∃ other, (exchange P D s arrival).Names other
  · obtain ⟨other, hother⟩ := hnamed
    obtain ⟨rid, hresponse, hafter⟩ := exchange_named P hother
    rw [hafter, hresponse, mem_replayCheck]
    constructor
    · rintro (rfl | hseen)
      · by_cases hseen : mid ∈ s.seenMessageIds
        · exact .inl hseen
        · exact .inr ⟨hother, replayCheck_isOk.mpr hseen⟩
      · exact .inl hseen
    · rintro (hseen | ⟨hmid, _⟩)
      · exact .inr hseen
      · obtain ⟨op, params, hop, hparams, hname⟩ := hother
        obtain ⟨op', params', hop', hparams', hname'⟩ := hmid
        obtain rfl := JsonValue.str.inj (hop.symm.trans hop')
        obtain rfl := JsonValue.dict.inj (hparams.symm.trans hparams')
        exact .inl (Option.some.inj (hname'.symm.trans hname))
  · rw [(exchange_keeps P D hbegin).seen hnamed]
    exact ⟨.inl, fun h => h.elim id fun hmid => absurd ⟨mid, hmid.1⟩ hnamed⟩

/-- An id is among those seen exactly when the fixture accepted it. -/
theorem mem_afterAll {s : AdapterState} (hs : s.seenMessageIds = ∅) {mid : Text} (arrivals : List Arrival) :
    mid ∈ (afterAll P D s arrivals).seenMessageIds ↔ AcceptedSince (exchanges P D s arrivals) mid := by
  induction arrivals using List.reverseRecOn with
  | nil =>
    rw [afterAll, hs, exchanges]
    refine iff_of_false (Finset.notMem_empty mid) ?_
    rintro ⟨before, accepted, between, hsplit, _⟩
    cases before <;> cases hsplit
  | append_singleton arrivals last ih =>
    rw [afterAll_append, exchanges_append, afterAll, afterAll, mem_exchange, ih]
    constructor
    · rintro ⟨hbegin, ⟨before, accepted, between, hsplit, hmid, hok, hbetween⟩ | ⟨hmid, hok⟩⟩
      · refine ⟨before, accepted, between ++ [exchange P D (afterAll P D s arrivals) last], ?_, hmid, hok, ?_⟩
        · rw [hsplit, List.append_assoc, List.cons_append, exchanges, exchanges]
        · rw [List.forall_mem_append, List.forall_mem_singleton]
          exact ⟨hbetween, hbegin⟩
      · exact ⟨_, _, [], rfl, hmid, hok, List.forall_mem_nil _⟩
    · rintro ⟨before, accepted, between, hsplit, hmid, hok, hbetween⟩
      rw [exchanges, exchanges] at hsplit
      -- the last step accepted the id, or an earlier one did
      cases between using List.reverseRecOn with
      | nil =>
        obtain ⟨rfl, hlast⟩ := List.append_inj' hsplit rfl
        obtain rfl := List.singleton_inj.mp hlast
        refine ⟨?_, .inr ⟨hmid, hok⟩⟩
        rintro ⟨hop, _⟩
        obtain ⟨op, params, hnames, _, hnamed⟩ := hmid
        obtain rfl := JsonValue.str.inj (hop.symm.trans hnames)
        rw [namedMessage, if_neg] at hnamed
        · cases hnamed
        · rintro ⟨h | h, _⟩ <;> revert h <;> decide
      | append_singleton between other =>
        rw [← List.cons_append, ← List.append_assoc] at hsplit
        obtain ⟨hearlier, hlast⟩ := List.append_inj' hsplit rfl
        obtain rfl := List.singleton_inj.mp hlast
        rw [List.forall_mem_append, List.forall_mem_singleton] at hbetween
        exact ⟨hbetween.2, .inl ⟨before, accepted, between, hearlier, hmid, hok, hbetween.1⟩⟩

/-- What two adapters with the same keys, the same clock and the same features answer in
a fixture does not depend on what came before it, and a step that names a message alone
is a replay exactly when the fixture accepted that message. -/
theorem fixtures_isolated :
    (∀ (keys keys' : Option KatKeys) (earlier earlier' : List Arrival) (begun begun' : Arrival),
        (AdapterState.start keys).katKeys D = (AdapterState.start keys').katKeys D →
        (afterAll P D (AdapterState.start keys) earlier).clock = (afterAll P D (AdapterState.start keys') earlier').clock →
        (afterAll P D (AdapterState.start keys) earlier).features = (afterAll P D (AdapterState.start keys') earlier').features →
        (exchange P D (afterAll P D (AdapterState.start keys) earlier) begun).Begins →
        (exchange P D (afterAll P D (AdapterState.start keys') earlier') begun').Begins →
        ∀ arrivals, responses P D (afterAll P D (AdapterState.start keys) (earlier ++ [begun])) arrivals =
          responses P D (afterAll P D (AdapterState.start keys') (earlier' ++ [begun'])) arrivals) ∧
      ∀ (keys : Option KatKeys) (arrivals : List Arrival) (earlier later : List Exchange) (e : Exchange) (mid : Text),
        exchanges P D (AdapterState.start keys) arrivals = earlier ++ e :: later → e.Names mid →
        (e.response.errorCode = some "REPLAY_DETECTED" ↔ AcceptedSince earlier mid) ∧
          (e.response.isOk = true ↔ ¬ AcceptedSince earlier mid) := by
  constructor
  · intro keys keys' earlier earlier' begun begun' hkeys hclock hfeatures hbegun hbegun' arrivals
    have hload : (afterAll P D (AdapterState.start keys) earlier).katKeys D =
        (afterAll P D (AdapterState.start keys') earlier').katKeys D := by
      rw [afterAll_katKeys, afterAll_katKeys, hkeys]
    rw [afterAll_append, afterAll_append, afterAll, afterAll, afterAll, afterAll, exchange_begins P hbegun,
      exchange_begins P hbegun', ← responses_settled, beginFixture_settled D hload hclock hfeatures, responses_settled]
  · intro keys arrivals earlier later e mid hsplit hmid
    obtain ⟨first, arrival, rest, _, rfl, rfl⟩ := exchanges_split P D hsplit
    obtain ⟨rid, hresponse, _⟩ := exchange_named P hmid
    have hempty : (AdapterState.start keys).seenMessageIds = ∅ := rfl
    rw [hresponse, replayCheck_errorCode, replayCheck_isOk, mem_afterAll P hempty]
    exact ⟨Iff.rfl, Iff.rfl⟩

def handshakeStep (mid : Text) : Arrival := asks (txt "process_handshake_message") [(txt "message_id", .str mid)]

def fixtureStep : Arrival := asks (txt "begin_fixture") []

/-- An adapter that saw a message before and one that is new, then a fixture: both accept
the message, and refuse it when it comes again. -/
theorem fixtures_isolated_handshakes :
    responses helloRecording.platform installed (afterAll helloRecording.platform installed (AdapterState.start (some []))
        ([handshakeStep (txt "m")] ++ [fixtureStep])) [handshakeStep (txt "m"), handshakeStep (txt "m")] =
      responses helloRecording.platform installed (afterAll helloRecording.platform installed (AdapterState.start none)
        ([] ++ [fixtureStep])) [handshakeStep (txt "m"), handshakeStep (txt "m")] ∧
    ((exchange helloRecording.platform installed (afterAll helloRecording.platform installed (AdapterState.start none)
        [fixtureStep, handshakeStep (txt "m")]) (handshakeStep (txt "m"))).response.errorCode = some "REPLAY_DETECTED" ↔
      AcceptedSince (exchanges helloRecording.platform installed (AdapterState.start none) [fixtureStep, handshakeStep (txt "m")]) (txt "m")) := by
  have hnames : namedMessage (txt "process_handshake_message") [(txt "message_id", .str (txt "m"))] = some (txt "m") := by decide
  constructor
  · exact (fixtures_isolated helloRecording.platform).1 (some []) none [handshakeStep (txt "m")] [] fixtureStep fixtureStep rfl rfl rfl
      ⟨rfl, by decide⟩ ⟨rfl, by decide⟩ [handshakeStep (txt "m"), handshakeStep (txt "m")]
  · exact ((fixtures_isolated helloRecording.platform).2 none [fixtureStep, handshakeStep (txt "m"), handshakeStep (txt "m")] _ [] _ (txt "m") rfl
      ⟨_, _, rfl, rfl, hnames⟩).1

end AitpVerifier
