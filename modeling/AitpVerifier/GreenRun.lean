import AitpVerifier.ConformancePack
import AitpVerifier.Recorded

/-!
# Green runs and passing gates

The walk settles every fixture it considers at one outcome, and its exit code is zero when
none settles at a failure and none behind the claim at a skip. The report's gate asks for
more: something to cover the claim, and no row whose id a later fixture has taken over.
-/
namespace AitpVerifier.Conformance

open PyText Checked

variable (I : Interpreter)

/-! ### What the walk leaves -/

/-- The outcome a file settles at: its own in scope, a skip elsewhere. -/
def PackFile.settled (file : PackFile) : RunStatus :=
  match inScope file.fixture with
  | .ok true => file.status
  | _ => .skip

def PackFile.fid (file : PackFile) : JsonValue := file.fixture.get (txt "id")

/-- What the walk has recorded of the files it considered. -/
structure Walked (claim : Claim) (done : List PackFile) (res : PackResult) : Prop where
  rows : List.Forall₂ (fun file row => rowOf I file = .ok row) done res.rows
  failed : res.counts .fail = 0 ↔ ∀ file ∈ done, file.settled ≠ .fail
  violations : res.violations = [] ↔ ∀ file ∈ done, file.settled = .skip → gates file.fixture claim = false
  fixtures : res.fixtures = (done.map fun file => (file.fid, file.fixture)).reverse

theorem walked_empty (claim : Claim) : Walked I claim [] .empty where
  rows := .nil
  failed := by simp [PackResult.empty]
  violations := by simp [PackResult.empty]
  fixtures := rfl

theorem rowOf_settled {file : PackFile} {row : Row} (h : rowOf I file = .ok row) :
    row.status = file.settled ∧ row.id = file.fid := by
  rw [rowOf, bind_eq_ok] at h
  obtain ⟨executed, hscope, h⟩ := h
  rw [PackFile.settled, hscope]
  cases executed with
  | true =>
    rw [if_pos rfl, Except.ok.injEq] at h
    rw [← h]
    exact ⟨rfl, rfl⟩
  | false =>
    rw [if_neg Bool.false_ne_true, bind_eq_ok] at h
    obtain ⟨feature, _, h⟩ := h
    rw [Except.ok.injEq] at h
    rw [← h]
    exact ⟨rfl, rfl⟩

theorem violationsOf_eq_nil {claim : Claim} {fixture : Members} {row : Row} {violations : List Text}
    (h : violationsOf I claim fixture row = .ok violations) :
    violations = [] ↔ (row.status = .skip → gates fixture claim = false) := by
  rw [violationsOf] at h
  by_cases hskip : row.status = .skip ∧ gates fixture claim
  · rw [if_pos hskip, bind_eq_ok] at h
    obtain ⟨fid, _, h⟩ := h
    rw [Except.ok.injEq] at h
    rw [← h, hskip.2]
    simp [hskip.1]
  · rw [if_neg hskip, Except.ok.injEq] at h
    rw [← h]
    simpa using hskip

/-- A recorded row counts as one more of its status. -/
theorem counted_fail (counts : RunStatus → Nat) (status : RunStatus) :
    Function.update counts status (counts status + 1) .fail = 0 ↔ counts .fail = 0 ∧ status ≠ .fail := by
  by_cases hs : status = .fail
  · rw [hs, Function.update_self]
    simp
  · rw [Function.update_of_ne (Ne.symm hs)]
    exact (and_iff_left hs).symm

theorem record_walked {claim : Claim} {done : List PackFile} {res next : PackResult} {file : PackFile}
    (hw : Walked I claim done res) (hc : considered file.fixture = true) (h : record I claim res file = .ok next) :
    Walked I claim (done ++ [file]) next := by
  rw [record, if_pos hc] at h
  simp only [bind_eq_ok, exists_unit, Except.ok.injEq] at h
  obtain ⟨_, row, hrow, violations, hviolations, rfl⟩ := h
  have hsettled := rowOf_settled I hrow
  constructor
  · exact List.rel_append hw.rows (.cons hrow .nil)
  · rw [counted_fail, hw.failed, hsettled.1]
    simp [or_imp, forall_and]
  · rw [List.append_eq_nil_iff, hw.violations, violationsOf_eq_nil I hviolations, hsettled.1]
    simp [or_imp, forall_and]
  · rw [List.map_append, List.reverse_append, ← hw.fixtures]
    rfl

theorem walk_walked {claim : Claim} {done files : List PackFile} {res last : PackResult} (hw : Walked I claim done res)
    (h : walk I claim res files = .ok last) : Walked I claim (done ++ files.filter fun file => considered file.fixture) last := by
  induction files generalizing done res with
  | nil =>
    rw [walk, Except.ok.injEq] at h
    rw [List.filter_nil, List.append_nil, ← h]
    exact hw
  | cons file rest ih =>
    rw [walk, bind_eq_ok] at h
    obtain ⟨next, hnext, h⟩ := h
    by_cases hc : considered file.fixture = true
    · rw [List.filter_cons, if_pos hc, ← List.singleton_append, ← List.append_assoc]
      exact ih (record_walked I hw hc hnext) h
    · rw [record, if_neg hc, Except.ok.injEq] at hnext
      rw [List.filter_cons, if_neg hc]
      exact ih (hnext ▸ hw) h

theorem runPack_walked {claim : Claim} {files : List PackFile} {res : PackResult} (h : runPack I claim files = .ok res) :
    Walked I claim (files.filter fun file => considered file.fixture) res :=
  walk_walked I (walked_empty I claim) h

/-- A run is green when nothing failed and nothing behind the claim was skipped. -/
theorem exitCode_eq_zero {claim : Claim} {done : List PackFile} {res : PackResult} (hw : Walked I claim done res) :
    res.exitCode = 0 ↔ ∀ file ∈ done, file.settled ≠ .fail ∧ (file.settled = .skip → gates file.fixture claim = false) := by
  have hcode : res.exitCode = 0 ↔ res.counts .fail = 0 ∧ res.violations = [] := by
    simp only [PackResult.exitCode, ite_eq_right_iff, one_ne_zero, imp_false, not_or, not_not, ne_eq]
  rw [hcode, hw.failed, hw.violations]
  exact forall₂_and.symm

/-! ### What the report reads -/

/-- The fixture that an id names last. -/
def lastOf (fixtures : List Members) (fid : JsonValue) : Option Members :=
  fixtures.reverse.find? fun fixture => (fixture.get (txt "id")).eq fid

/-- A fixture with a name and a tier. -/
structure Scenario (fixture : Members) : Prop where
  id : ∃ fid, fixture.get (txt "id") = .str fid
  status : ∃ tier : Tier, fixture.get? (txt "status") = some (.str tier.text)

/-- The last fixture of an id has that id, and is the last of its own. -/
theorem lastOf_spec {fixtures : List Members} {fixture last : Members} {fid : Text}
    (hid : fixture.get (txt "id") = .str fid) (h : lastOf fixtures (fixture.get (txt "id")) = some last) :
    last ∈ fixtures ∧ last.get (txt "id") = fixture.get (txt "id") := by
  rw [lastOf] at h
  have hmem := List.mem_of_find?_eq_some h
  have heq := List.find?_some h
  rw [hid] at heq ⊢
  exact ⟨List.mem_reverse.mp hmem, by simpa using heq⟩

theorem exists_lastOf {fixtures : List Members} {fixture : Members} {fid : Text}
    (hid : fixture.get (txt "id") = .str fid) (hmem : fixture ∈ fixtures) :
    ∃ last, lastOf fixtures (fixture.get (txt "id")) = some last := by
  rw [← Option.isSome_iff_exists, lastOf, List.find?_isSome]
  exact ⟨fixture, List.mem_reverse.mpr hmem, by rw [hid, JsonValue.eq_str]⟩

/-- The fixtures a walk considered. -/
def scenarios (done : List PackFile) : List Members := done.map PackFile.fixture

theorem fixture_eq_ok {claim : Claim} {done : List PackFile} {res : PackResult} (hw : Walked I claim done res) {fid : JsonValue}
    {last : Members} (h : lastOf (scenarios done) fid = some last) : res.fixture I fid = .ok last := by
  have hfind : (done.reverse.find? fun file => file.fid.eq fid).map PackFile.fixture = some last := by
    rw [← h, lastOf, scenarios, ← List.map_reverse, List.find?_map]
    rfl
  obtain ⟨file, hfile, rfl⟩ := Option.map_eq_some_iff.mp hfind
  have hentry : (res.fixtures.find? fun entry => entry.1.eq fid) = some (file.fid, file.fixture) := by
    rw [hw.fixtures, ← List.map_reverse, List.find?_map]
    exact congrArg (Option.map _) hfile
  rw [PackResult.fixture, hentry]

/-- What a report row says of a file: its outcome, under the fixture that its id names last. -/
def Reported (done : List PackFile) (file : PackFile) (row : ReportRow) : Prop :=
  ∃ last tier, lastOf (scenarios done) file.fid = some last ∧ row.id = file.fid ∧ row.status = .str (Tier.text tier) ∧
    row.feature = last.get (txt "feature") ∧ row.outcome = file.settled.outcome

theorem reportRow_reported {claim : Claim} {done : List PackFile} {res : PackResult} (hw : Walked I claim done res)
    (hscenarios : ∀ fixture ∈ scenarios done, Scenario fixture) {file : PackFile} (hfile : file ∈ done) {row : Row}
    (hrow : rowOf I file = .ok row) :
    ∃ reported, reportRow I res row = .ok reported ∧ Reported done file reported := by
  have hmem : file.fixture ∈ scenarios done := List.mem_map_of_mem hfile
  obtain ⟨fid, hid⟩ := (hscenarios _ hmem).id
  obtain ⟨last, hlast⟩ := exists_lastOf hid hmem
  obtain ⟨tier, htier⟩ := (hscenarios last (lastOf_spec hid hlast).1).status
  obtain ⟨hstatus, hsame⟩ := rowOf_settled I hrow
  refine ⟨⟨row.id, .str tier.text, last.get (txt "feature"), last.get (txt "required_for_core"), row.status.outcome,
    if row.status = .pass then none else some row.detail⟩, ?_, last, tier, hlast, hsame, rfl, rfl, by rw [hstatus]⟩
  have hfound : res.fixture I file.fid = .ok last := fixture_eq_ok I hw hlast
  rw [reportRow, hsame, hfound, ok_bind, Members.index_eq_ok.mpr htier, ok_bind]

theorem results_reported {claim : Claim} {done : List PackFile} {res : PackResult} (hw : Walked I claim done res)
    (hscenarios : ∀ fixture ∈ scenarios done, Scenario fixture) :
    ∃ results, collect (reportRow I res) res.rows = .ok results ∧ List.Forall₂ (Reported done) done results := by
  have hrows {files : List PackFile} {rows : List Row} (hfiles : files ⊆ done)
      (h : List.Forall₂ (fun file row => rowOf I file = .ok row) files rows) :
      ∃ results, collect (reportRow I res) rows = .ok results ∧ List.Forall₂ (Reported done) files results := by
    induction h with
    | nil => exact ⟨[], rfl, .nil⟩
    | @cons file row files rows hrow _ ih =>
      rw [List.cons_subset] at hfiles
      obtain ⟨reported, hreport, hreported⟩ := reportRow_reported I hw hscenarios hfiles.1 hrow
      obtain ⟨results, hresults, hall⟩ := ih hfiles.2
      exact ⟨reported :: results, by rw [collect, hreport, ok_bind, hresults, ok_bind], .cons hreported hall⟩
  exact hrows (List.Subset.refl done) hw.rows

theorem tierOf_text (tier : Tier) : tierOf I (.str tier.text) = .ok tier := by
  cases tier <;> rfl

theorem totals_isOk {done files : List PackFile} {results : List ReportRow} (h : List.Forall₂ (Reported done) files results) :
    ∃ totals, totalsOf I results = .ok totals := by
  have hcounted : ∃ counted, collect (fun row : ReportRow => tierOf I row.status >>= fun tier => .ok (tier, row.outcome)) results =
      .ok counted := by
    rw [← isOk_iff, collect_isOk, List.all_eq_true]
    intro row hrow
    obtain ⟨file, _, last, tier, _, _, htier, _⟩ := mem_of_forall₂ h hrow
    rw [htier, tierOf_text, ok_bind]
    rfl
  obtain ⟨counted, hcounted⟩ := hcounted
  exact ⟨_, by rw [totalsOf, hcounted, ok_bind]⟩

theorem outcome_pass {status : RunStatus} : status.outcome = txt "pass" ↔ status = .pass := by
  cases status <;> decide

/-- Nothing blocks the claim when every row passed whose id names a fixture behind it. -/
theorem blockingOf_eq {claim gated : Claim} {done files : List PackFile} {res : PackResult} {results : List ReportRow}
    (hw : Walked I claim done res) (h : List.Forall₂ (Reported done) files results) :
    ∃ blocking, blockingOf I res gated results = .ok blocking ∧
      (blocking = [] ↔ ∀ file ∈ files, ∀ last, lastOf (scenarios done) file.fid = some last → gates last gated = true →
        file.settled = .pass) := by
  induction h with
  | nil => exact ⟨[], rfl, by simp⟩
  | @cons file row files rows hrow _ ih =>
    obtain ⟨blocked, hblocked, hnone⟩ := ih
    obtain ⟨last, tier, hlast, hid, _, _, houtcome⟩ := hrow
    have hfound : res.fixture I row.id = .ok last := by
      rw [hid]
      exact fixture_eq_ok I hw hlast
    refine ⟨_, by rw [blockingOf, hfound, ok_bind, hblocked, ok_bind], ?_⟩
    have hpassed : row.outcome = txt "pass" ↔ file.settled = .pass := by rw [houtcome, outcome_pass]
    rw [List.forall_mem_cons, ← hnone, hlast, ← hpassed]
    by_cases hblocks : gates last gated = true ∧ row.outcome ≠ txt "pass"
    · rw [if_pos hblocks]
      exact iff_of_false (List.cons_ne_nil _ _) fun hall => hblocks.2 (hall.1 last rfl hblocks.1)
    · rw [if_neg hblocks]
      rw [ne_eq, not_and_not_right] at hblocks
      refine (and_iff_right ?_).symm
      intro found heq hgates
      rw [← Option.some.inj heq] at hgates
      exact hblocks hgates

theorem covers_iff {claim : Claim} {done files : List PackFile} {results : List ReportRow}
    (h : List.Forall₂ (Reported done) files results) : covers results claim = true ↔
      ∀ feature ∈ claim.feature, ∃ file ∈ files, ∃ last, lastOf (scenarios done) file.fid = some last ∧
        last.get (txt "feature") = .str feature := by
  have hany (feature : Text) : (results.any fun row => row.feature.eq (.str feature)) = true ↔
      ∃ file ∈ files, ∃ last, lastOf (scenarios done) file.fid = some last ∧ last.get (txt "feature") = .str feature := by
    induction h with
    | nil => simp
    | @cons file row files rows hrow _ ih =>
      obtain ⟨last, tier, hlast, _, _, hfeature, _⟩ := hrow
      rw [List.any_cons, Bool.or_eq_true, ih, List.exists_mem_cons_iff, hlast, JsonValue.eq_str, hfeature]
      simp
  rw [covers]
  cases claim.feature with
  | none => simp
  | some feature => simp [hany]

/-- The entry the report has for a claim. -/
def Report.gate (report : Report) (claim : Claim) : Option Gate := report.gates.find? fun gate => gate.name = claim.name

theorem name_inj {claim claim' : Claim} (h : claim.name = claim'.name) : claim = claim' := by
  cases claim <;> cases claim' <;> first | rfl | exact absurd h (by decide)

theorem gate_of_collect {res : PackResult} {results : List ReportRow} {evaluated : List Claim} {gateList : List Gate}
    (h : collect (gateOf I res results) evaluated = .ok gateList) {claim : Claim} (hmem : claim ∈ evaluated) :
    ∃ gate, gateOf I res results claim = .ok gate ∧ (gateList.find? fun gate => gate.name = claim.name) = some gate := by
  rw [collect_eq_ok] at h
  induction h with
  | nil => cases hmem
  | @cons first gate evaluated gateList hgate _ ih =>
    have hname : gate.name = first.name := by
      rw [gateOf, bind_eq_ok] at hgate
      obtain ⟨blocking, _, hgate⟩ := hgate
      rw [Except.ok.injEq] at hgate
      rw [← hgate]
    by_cases heq : first = claim
    · refine ⟨gate, heq ▸ hgate, ?_⟩
      rw [List.find?_cons_of_pos]
      rw [hname, heq, decide_eq_true_eq]
    · obtain ⟨found, hfound, hfind⟩ := ih ((List.mem_cons.mp hmem).resolve_left (Ne.symm heq))
      refine ⟨found, hfound, ?_⟩
      rw [List.find?_cons_of_neg, hfind]
      rw [hname, decide_eq_true_eq]
      exact fun hsame => heq (name_inj hsame)

/-- The report of a walk has an entry for every claim it evaluates. The claim passed when a
fixture covers it and every row passed whose id names a fixture behind it. -/
theorem buildReport_passed {claim : Claim} {done : List PackFile} {res : PackResult} (hw : Walked I claim done res)
    (hscenarios : ∀ fixture ∈ scenarios done, Scenario fixture) {features : List Text}
    (hfeatures : evaluates features claim = true) :
    ∃ report gate, buildReport I res features = .ok report ∧ report.gate claim = some gate ∧
      (gate.passed = true ↔
        (∀ feature ∈ claim.feature, ∃ file ∈ done, ∃ last, lastOf (scenarios done) file.fid = some last ∧
          last.get (txt "feature") = .str feature) ∧
        ∀ file ∈ done, ∀ last, lastOf (scenarios done) file.fid = some last → gates last claim = true →
          file.settled = .pass) := by
  obtain ⟨results, hresults, hreported⟩ := results_reported I hw hscenarios
  obtain ⟨totals, htotals⟩ := totals_isOk I hreported
  have hgates : ∃ gateList, collect (gateOf I res results) (allClaims.filter (evaluates features)) = .ok gateList := by
    rw [← isOk_iff, collect_isOk, List.all_eq_true]
    intro other _
    have hblocks : ∃ blocking, blockingOf I res other results = .ok blocking := (blockingOf_eq I hw hreported).imp fun _ h => h.1
    obtain ⟨blocking, hblocking⟩ := hblocks
    rw [gateOf, hblocking, ok_bind]
    rfl
  obtain ⟨gateList, hgateList⟩ := hgates
  have hmem : claim ∈ allClaims.filter (evaluates features) := by
    rw [List.mem_filter]
    exact ⟨by cases claim <;> decide, hfeatures⟩
  obtain ⟨gate, hgate, hfind⟩ := gate_of_collect I hgateList hmem
  obtain ⟨blocking, hblocking, hnone⟩ := blockingOf_eq I hw hreported
  refine ⟨⟨features, results, totals, gateList⟩, gate, ?_, hfind, ?_⟩
  · rw [buildReport, hresults, ok_bind, htotals, ok_bind, hgateList, ok_bind]
  · rw [gateOf, hblocking, ok_bind, Except.ok.injEq] at hgate
    rw [← hgate, Bool.and_eq_true, covers_iff hreported, List.isEmpty_iff, hnone]

/-! ### Packs -/

/-- The files of a pack: whatever the runner considers has a name and a tier. -/
structure Pack where
  fixtures : List Members
  scenario : ∀ fixture ∈ fixtures, considered fixture = true → Scenario fixture

def Pack.considered (pack : Pack) : List Members := pack.fixtures.filter Conformance.considered

/-- Every run of the pack that exits zero has a report whose entry for the claim passed,
whatever its fixtures come to. -/
def GreenIsPassing (pack : Pack) (claim : Claim) : Prop :=
  ∀ (files : List PackFile) (res : PackResult) (features : List Text), files.map PackFile.fixture = pack.fixtures →
    runPack I claim files = .ok res → res.exitCode = 0 → evaluates features claim = true →
    ∃ report gate, buildReport I res features = .ok report ∧ report.gate claim = some gate ∧ gate.passed = true

/-- Some run of the pack exits zero: every fixture is in scope, or can be reported as skipped
and is not behind the claim. -/
def GreenPossible (pack : Pack) (claim : Claim) : Prop :=
  ∀ fixture ∈ pack.considered, inScope fixture = .ok true ∨
    inScope fixture = .ok false ∧ gates fixture claim = false ∧ ∃ feature, I.toStr (fixture.get (txt "feature")) = .ok feature

/-- An extension claim has a fixture of its feature that is the last of its id. -/
def Covered (pack : Pack) (claim : Claim) : Prop :=
  ∀ feature ∈ claim.feature, ∃ fixture ∈ pack.considered,
    lastOf pack.considered (fixture.get (txt "id")) = some fixture ∧ fixture.get (txt "feature") = .str feature

/-- No fixture behind the claim takes the id of an earlier one that is not. -/
def Unshadowed (pack : Pack) (claim : Claim) : Prop :=
  ∀ fixture ∈ pack.considered, ∀ last, lastOf pack.considered (fixture.get (txt "id")) = some last →
    gates last claim = true → gates fixture claim = true

theorem Pack.scenarios (pack : Pack) {fixture : Members} (h : fixture ∈ pack.considered) : Scenario fixture :=
  pack.scenario fixture (List.mem_of_mem_filter h) (List.of_mem_filter h)

theorem considered_of_files {pack : Pack} {files : List PackFile} (h : files.map PackFile.fixture = pack.fixtures) :
    Conformance.scenarios (files.filter fun file => Conformance.considered file.fixture) = pack.considered := by
  rw [Conformance.scenarios, Pack.considered, ← h, List.filter_map]
  rfl

/-- A claim is covered when some fixture's id names one of its feature last. -/
theorem covered_iff {pack : Pack} {claim : Claim} : Covered pack claim ↔
    ∀ feature ∈ claim.feature, ∃ fixture ∈ pack.considered, ∃ last,
      lastOf pack.considered (fixture.get (txt "id")) = some last ∧ last.get (txt "feature") = .str feature := by
  refine forall₂_congr fun feature _ => ?_
  constructor
  · rintro ⟨fixture, hfixture, hlast, hfeature⟩
    exact ⟨fixture, hfixture, fixture, hlast, hfeature⟩
  · rintro ⟨fixture, hfixture, last, hlast, hfeature⟩
    obtain ⟨fid, hid⟩ := (pack.scenarios hfixture).id
    obtain ⟨hmem, hsame⟩ := lastOf_spec hid hlast
    exact ⟨last, hmem, hsame ▸ hlast, hfeature⟩

theorem settled_inScope {file : PackFile} (h : inScope file.fixture = .ok true) : file.settled = file.status := by
  rw [PackFile.settled, h]

theorem settled_outOfScope {file : PackFile} (h : inScope file.fixture = .ok false) : file.settled = .skip := by
  rw [PackFile.settled, h]

/-- A row comes of a fixture in scope, or of one whose feature can be printed. -/
theorem rowOf_isOk {file : PackFile} : (∃ row, rowOf I file = .ok row) ↔ inScope file.fixture = .ok true ∨
    inScope file.fixture = .ok false ∧ ∃ feature, I.toStr (file.fixture.get (txt "feature")) = .ok feature := by
  rw [rowOf]
  cases inScope file.fixture with
  | error e => exact iff_of_false (by simp [error_bind]) (by simp)
  | ok executed =>
    rw [ok_bind]
    cases executed with
    | true => exact iff_of_true ⟨_, rfl⟩ (.inl rfl)
    | false =>
      rw [if_neg Bool.false_ne_true]
      cases I.toStr (file.fixture.get (txt "feature")) with
      | error e => exact iff_of_false (by simp [error_bind]) (by simp)
      | ok feature => exact iff_of_true ⟨_, rfl⟩ (.inr ⟨rfl, feature, rfl⟩)

theorem record_isOk {claim : Claim} {res : PackResult} {file : PackFile} (hscenario : Scenario file.fixture)
    (hrow : ∃ row, rowOf I file = .ok row) : ∃ next, record I claim res file = .ok next := by
  obtain ⟨fid, hid⟩ := hscenario.id
  obtain ⟨row, hrow⟩ := hrow
  have hviolations : ∃ violations, violationsOf I claim file.fixture row = .ok violations := by
    rw [violationsOf]
    split
    · rw [(rowOf_settled I hrow).2, PackFile.fid, hid]
      exact ⟨_, rfl⟩
    · exact ⟨[], rfl⟩
  obtain ⟨violations, hviolations⟩ := hviolations
  rw [record]
  split
  · rw [hid]
    dsimp only
    rw [hrow, ok_bind, hviolations]
    exact ⟨_, rfl⟩
  · exact ⟨res, rfl⟩

theorem walk_isOk {claim : Claim} {files : List PackFile} {res : PackResult}
    (h : ∀ file ∈ files, considered file.fixture = true → Scenario file.fixture ∧ ∃ row, rowOf I file = .ok row) :
    ∃ last, walk I claim res files = .ok last := by
  induction files generalizing res with
  | nil => exact ⟨res, rfl⟩
  | cons file rest ih =>
    rw [List.forall_mem_cons] at h
    have hnext : ∃ next, record I claim res file = .ok next := by
      by_cases hc : considered file.fixture = true
      · exact record_isOk I (h.1 hc).1 (h.1 hc).2
      · exact ⟨res, by rw [record, if_neg hc]⟩
    obtain ⟨next, hnext⟩ := hnext
    have hrest : ∃ last, walk I claim next rest = .ok last := ih h.2
    obtain ⟨last, hlast⟩ := hrest
    exact ⟨last, by rw [walk, hnext, ok_bind, hlast]⟩

/-- What a green run shows of the pack. -/
theorem greenPossible_of_green {pack : Pack} {claim : Claim} {files : List PackFile} {res : PackResult}
    (hfiles : files.map PackFile.fixture = pack.fixtures) (h : runPack I claim files = .ok res) (hgreen : res.exitCode = 0) :
    GreenPossible I pack claim := by
  have hw := runPack_walked I h
  intro fixture hfixture
  rw [← considered_of_files hfiles] at hfixture
  obtain ⟨file, hfile, rfl⟩ := List.mem_map.mp hfixture
  obtain ⟨row, _, hrow⟩ := mem_of_forall₂ hw.rows.flip hfile
  rcases (rowOf_isOk I).mp ⟨row, hrow⟩ with hin | ⟨hout, hprinted⟩
  · exact .inl hin
  · exact .inr ⟨hout, ((exitCode_eq_zero I hw).mp hgreen file hfile).2 (settled_outOfScope hout), hprinted⟩

/-- A file that passes if it is behind the claim, and is skipped if it is not. -/
def leastFile (claim : Claim) (fixture : Members) : PackFile := ⟨fixture, if gates fixture claim then .pass else .skip, []⟩

/-- The run that is green with the fewest passes. -/
theorem leastRun_green {pack : Pack} {claim : Claim} (h : GreenPossible I pack claim) :
    ∃ res, runPack I claim (pack.fixtures.map (leastFile claim)) = .ok res ∧ res.exitCode = 0 ∧
      ∀ fixture ∈ pack.considered, (leastFile claim fixture).settled = .pass ↔ gates fixture claim = true := by
  have hsettled (fixture : Members) (hfixture : fixture ∈ pack.considered) :
      (leastFile claim fixture).settled = if gates fixture claim then .pass else .skip := by
    rcases h fixture hfixture with hin | ⟨hout, hbehind, _⟩
    · exact settled_inScope hin
    · rw [hbehind, if_neg Bool.false_ne_true]
      exact settled_outOfScope hout
  have hdone : ∀ file ∈ pack.fixtures.map (leastFile claim), considered file.fixture = true →
      Scenario file.fixture ∧ ∃ row, rowOf I file = .ok row := by
    intro file hfile hc
    obtain ⟨fixture, hmem, rfl⟩ := List.mem_map.mp hfile
    have hfixture : fixture ∈ pack.considered := List.mem_filter.mpr ⟨hmem, hc⟩
    exact ⟨pack.scenarios hfixture, (rowOf_isOk I).mpr ((h fixture hfixture).imp_right fun hout => ⟨hout.1, hout.2.2⟩)⟩
  have hrun : ∃ res, runPack I claim (pack.fixtures.map (leastFile claim)) = .ok res := walk_isOk I hdone
  obtain ⟨res, hres⟩ := hrun
  refine ⟨res, hres, ?_, fun fixture hfixture => ?_⟩
  · rw [exitCode_eq_zero I (runPack_walked I hres)]
    intro file hfile
    obtain ⟨hfile, hc⟩ := List.mem_filter.mp hfile
    obtain ⟨fixture, hmem, rfl⟩ := List.mem_map.mp hfile
    rw [hsettled fixture (List.mem_filter.mpr ⟨hmem, hc⟩), leastFile]
    cases gates fixture claim <;> decide
  · rw [hsettled fixture hfixture]
    cases gates fixture claim <;> decide

/-- The entry of a pack's report, in terms of the pack. -/
theorem report_passed {pack : Pack} {claim : Claim} {files : List PackFile} {res : PackResult} {features : List Text}
    (hfiles : files.map PackFile.fixture = pack.fixtures) (hres : runPack I claim files = .ok res)
    (hfeatures : evaluates features claim = true) :
    ∃ report gate, buildReport I res features = .ok report ∧ report.gate claim = some gate ∧
      (gate.passed = true ↔ Covered pack claim ∧
        ∀ file ∈ files, considered file.fixture = true → ∀ last, lastOf pack.considered file.fid = some last →
          gates last claim = true → file.settled = .pass) := by
  have hdone := considered_of_files hfiles
  have hscenarios : ∀ fixture ∈ scenarios (files.filter fun file => considered file.fixture), Scenario fixture := by
    rw [hdone]
    exact fun fixture => pack.scenarios
  obtain ⟨report, gate, hreport, hgate, hpassed⟩ := buildReport_passed I (runPack_walked I hres) hscenarios hfeatures
  refine ⟨report, gate, hreport, hgate, hpassed.trans (and_congr ?_ ?_)⟩
  · rw [hdone, covered_iff, ← hdone]
    simp only [scenarios, List.mem_map, exists_exists_and_eq_and]
    rfl
  · rw [hdone]
    simp only [List.mem_filter, and_imp]

/-- A green run is a passing gate exactly when, of a pack that some run is green for, an
extension claim is covered and no fixture behind the claim shadows one that is not. -/
theorem greenIsPassing_iff (pack : Pack) (claim : Claim) :
    GreenIsPassing I pack claim ↔ (GreenPossible I pack claim → Covered pack claim ∧ Unshadowed pack claim) := by
  constructor
  · intro hpassing hpossible
    obtain ⟨res, hres, hgreen, hsettled⟩ := leastRun_green I hpossible
    have hfiles : (pack.fixtures.map (leastFile claim)).map PackFile.fixture = pack.fixtures := by
      rw [List.map_map]
      exact List.map_id _
    have hfeatures : evaluates claim.feature.toList claim = true := by
      cases claim <;> decide
    obtain ⟨report, gate, hreport, hgate, hpassed⟩ := report_passed I hfiles hres hfeatures
    obtain ⟨report', gate', hreport', hgate', htrue⟩ := hpassing _ res _ hfiles hres hgreen hfeatures
    obtain rfl := Except.ok.inj (hreport.symm.trans hreport')
    obtain rfl := Option.some.inj (hgate.symm.trans hgate')
    obtain ⟨hcovered, hpass⟩ := hpassed.mp htrue
    refine ⟨hcovered, fun fixture hfixture last hlast hgates => ?_⟩
    obtain ⟨hmem, hc⟩ := List.mem_filter.mp hfixture
    exact (hsettled fixture hfixture).mp (hpass _ (List.mem_map_of_mem hmem) hc last hlast hgates)
  · intro hcondition files res features hfiles hres hgreen hfeatures
    obtain ⟨hcovered, hunshadowed⟩ := hcondition (greenPossible_of_green I hfiles hres hgreen)
    obtain ⟨report, gate, hreport, hgate, hpassed⟩ := report_passed I hfiles hres hfeatures
    refine ⟨report, gate, hreport, hgate, hpassed.mpr ⟨hcovered, fun file hfile hc last hlast hgates => ?_⟩⟩
    have hfixture : file.fixture ∈ pack.considered := by
      rw [Pack.considered, ← hfiles]
      exact List.mem_filter.mpr ⟨List.mem_map_of_mem hfile, hc⟩
    have hbehind := hunshadowed file.fixture hfixture last hlast hgates
    obtain ⟨hfail, hskip⟩ := (exitCode_eq_zero I (runPack_walked I hres)).mp hgreen file (List.mem_filter.mpr ⟨hfile, hc⟩)
    cases hstatus : file.settled with
    | pass => rfl
    | fail => exact absurd hstatus hfail
    | skip => exact absurd (hskip hstatus) (by rw [hbehind]; exact Bool.noConfusion)

/-! ### A run that is green with nothing behind its claim -/

def coreFixture : Members :=
  [(txt "id", .str (txt "env-001")), (txt "status", .str (txt "core")), (txt "input", .dict [(txt "sequence", .list [])])]

def corePack : Pack where
  fixtures := [coreFixture]
  scenario fixture h _ := by
    rw [List.mem_singleton] at h
    rw [h]
    exact ⟨⟨_, rfl⟩, .core, rfl⟩

/-- With one core fixture in the pack, a run for the self-attestation claim exits zero and
its report says that the claim did not pass. -/
theorem corePack_green_not_passing :
    ¬ GreenIsPassing (Recording.platform ⟨[], []⟩).toInterpreter corePack .selfAttestation := by
  intro hpassing
  have hres : ∃ res, runPack (Recording.platform ⟨[], []⟩).toInterpreter .selfAttestation [⟨coreFixture, .pass, txt "sequence"⟩] =
      .ok res ∧ res.exitCode = 0 := ⟨_, rfl, by decide⟩
  obtain ⟨res, hres, hgreen⟩ := hres
  have hfeatures : evaluates supportedFeatures .selfAttestation = true := by decide +kernel
  have hfiles : [PackFile.mk coreFixture .pass (txt "sequence")].map PackFile.fixture = corePack.fixtures := rfl
  obtain ⟨report, gate, hreport, hgate, htrue⟩ := hpassing _ res _ hfiles hres hgreen hfeatures
  obtain ⟨report', gate', hreport', hgate', hpassed⟩ := report_passed _ hfiles hres hfeatures
  obtain rfl := Except.ok.inj (hreport.symm.trans hreport')
  obtain rfl := Option.some.inj (hgate.symm.trans hgate')
  obtain ⟨fixture, hfixture, _, hfeature⟩ := (hpassed.mp htrue).1 (txt "aitp-self-attestation") rfl
  have hcore : fixture = coreFixture := List.mem_singleton.mp (List.mem_of_mem_filter hfixture)
  rw [hcore] at hfeature
  cases hfeature

end AitpVerifier.Conformance
