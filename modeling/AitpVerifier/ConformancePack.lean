import AitpVerifier.Value

/-!
# The conformance pack

The runner walks the files of a pack in order: it records a row for each fixture it
considers, and the skips behind the claim. Its exit code is read off that walk. The report
filters the same rows again, through the fixture that was last under each row's id.
-/
namespace AitpVerifier.Conformance

open PyText Checked

variable (I : Interpreter)

/-! ### Fixtures and claims -/

inductive RunStatus where
  | pass | fail | skip
  deriving DecidableEq

/-- `OUTCOMES`. -/
def RunStatus.outcome : RunStatus → Text
  | .pass => txt "pass"
  | .fail => txt "fail"
  | .skip => txt "skip"

def supportedFeatures : List Text :=
  [txt "experimental-multihop-delegation", txt "experimental-session-bundle", txt "experimental-spiffe-identity",
    txt "aitp-self-attestation"]

/-- The claims a run can gate on. -/
inductive Claim where
  | core | pinnedAdmission | selfAttestation
  deriving DecidableEq

def Claim.name : Claim → Text
  | .core => txt "AITP v0.3"
  | .pinnedAdmission => txt "AITP v0.3 pinned-admission"
  | .selfAttestation => txt "AITP v0.3 self-attestation"

/-- The feature an extension claim gates on. -/
def Claim.feature : Claim → Option Text
  | .core => none
  | .pinnedAdmission => some (txt "aitp-pinned-admission")
  | .selfAttestation => some (txt "aitp-self-attestation")

/-- `CLAIMS`, in the order of its entries. -/
def allClaims : List Claim := [.core, .pinnedAdmission, .selfAttestation]

/-- `fixture.get("status", "core") == "core"`. -/
def isCore (fixture : Members) : Bool := ((fixture.get? (txt "status")).getD (.str (txt "core"))).eq (.str (txt "core"))

/-- A core fixture's flag. Absent counts as required, and only `true` itself sets it. -/
def isRequired (fixture : Members) : Bool :=
  isCore fixture && decide ((fixture.get? (txt "required_for_core")).getD (.bool true) = .bool true)

/-- Whether the runner executes the fixture. -/
def inScope (fixture : Members) : PyM Bool :=
  let feature := fixture.get (txt "feature")
  if feature = .null then .ok (isCore fixture)
  else do
    raiseIf (!feature.hashable) feature.unhashable
    .ok (feature.isIn (supportedFeatures.map .str))

/-- Whether the fixture is behind the claim. -/
def gates (fixture : Members) (claim : Claim) : Bool :=
  match claim.feature with
  | none => isRequired fixture
  | some feature => (fixture.get (txt "feature")).eq (.str feature)

/-! ### The walk -/

/-- A file of the pack, with what `run_fixture` returns for it where it is executed. -/
structure PackFile where
  fixture : Members
  status : RunStatus
  detail : Text

structure Row where
  status : RunStatus
  id : JsonValue
  detail : Text

/-- Per-fixture rows plus the claim gate's verdict; the newest fixture of an id comes first. -/
structure PackResult where
  counts : RunStatus → Nat
  rows : List Row
  violations : List Text
  fixtures : List (JsonValue × Members)

def PackResult.empty : PackResult := ⟨fun _ => 0, [], [], []⟩

def PackResult.exitCode (res : PackResult) : Nat := if res.counts .fail ≠ 0 ∨ res.violations ≠ [] then 1 else 0

/-- A scenario fixture that is not reserved. -/
def considered (fixture : Members) : Bool :=
  fixture.has (txt "id") && fixture.has (txt "input") && decide (fixture.get (txt "status") ≠ .str (txt "reserved"))

/-- The row of a fixture: what running it returns, or a skip where it is out of scope. -/
def rowOf (file : PackFile) : PyM Row := do
  let fid := file.fixture.get (txt "id")
  let executed ← inScope file.fixture
  if executed then .ok ⟨file.status, fid, file.detail⟩
  else do
    let feature ← I.toStr (file.fixture.get (txt "feature"))
    .ok ⟨.skip, fid, txt "feature " ++ feature ++ txt " not implemented"⟩

/-- The violation that a row comes to, if any. -/
def violationsOf (claim : Claim) (fixture : Members) (row : Row) : PyM (List Text) :=
  if row.status = .skip ∧ gates fixture claim then do
    let fid ← I.toStr row.id
    .ok [fid ++ txt ": SKIP of a fixture behind the claim — " ++ row.detail]
  else .ok []

/-- One file of the walk. -/
def record (claim : Claim) (res : PackResult) (file : PackFile) : PyM PackResult :=
  if considered file.fixture then do
    let fid := file.fixture.get (txt "id")
    raiseIf (!fid.hashable) fid.unhashable
    let row ← rowOf I file
    let violations ← violationsOf I claim file.fixture row
    .ok
      { counts := Function.update res.counts row.status (res.counts row.status + 1)
        rows := res.rows ++ [row]
        violations := res.violations ++ violations
        fixtures := (fid, file.fixture) :: res.fixtures }
  else .ok res

/-- The files left, from a result. -/
def walk (claim : Claim) (res : PackResult) : List PackFile → PyM PackResult
  | [] => .ok res
  | file :: rest => do
    let next ← record I claim res file
    walk claim next rest

/-- `run_pack`, without `--only`. -/
def runPack (claim : Claim) (files : List PackFile) : PyM PackResult := walk I claim .empty files

/-! ### The report -/

inductive Tier where
  | core | extension | draft
  deriving DecidableEq

def Tier.text : Tier → Text
  | .core => txt "core"
  | .extension => txt "extension"
  | .draft => txt "draft"

structure ReportRow where
  id : JsonValue
  status : JsonValue
  feature : JsonValue
  requiredForCore : JsonValue
  outcome : Text
  /-- Present unless the fixture passed. -/
  reason : Option Text

structure Gate where
  name : Text
  passed : Bool
  criteria : Text
  /-- Present where not empty. -/
  blocking : List JsonValue

structure Report where
  featuresEnabled : List Text
  results : List ReportRow
  totals : Tier → Text → Nat
  gates : List Gate

/-- `res.fixtures[fid]`. -/
def PackResult.fixture (res : PackResult) (fid : JsonValue) : PyM Members :=
  match res.fixtures.find? fun entry => entry.1.eq fid with
  | some entry => .ok entry.2
  | none => do .error (.raised .key (← I.repr fid))

def reportRow (res : PackResult) (row : Row) : PyM ReportRow := do
  let fixture ← res.fixture I row.id
  let status ← fixture.index (txt "status")
  .ok
    { id := row.id
      status := status
      feature := fixture.get (txt "feature")
      requiredForCore := fixture.get (txt "required_for_core")
      outcome := row.status.outcome
      reason := if row.status = .pass then none else some row.detail }

/-- The key of `totals` that a row's status is. -/
def tierOf (status : JsonValue) : PyM Tier := do
  raiseIf (!status.hashable) status.unhashable
  match [Tier.core, .extension, .draft].find? fun tier => status.eq (.str tier.text) with
  | some tier => .ok tier
  | none => do .error (.raised .key (← I.repr status))

def totalsOf (results : List ReportRow) : PyM (Tier → Text → Nat) := do
  let counted ← collect (fun row => do
    let tier ← tierOf I row.status
    .ok (tier, row.outcome)) results
  .ok fun tier outcome => counted.count (tier, outcome)

/-- The rows behind the claim that did not pass. -/
def blockingOf (res : PackResult) (claim : Claim) : List ReportRow → PyM (List JsonValue)
  | [] => .ok []
  | row :: rest => do
    let fixture ← res.fixture I row.id
    let blocked ← blockingOf res claim rest
    .ok (if gates fixture claim ∧ row.outcome ≠ txt "pass" then row.id :: blocked else blocked)

/-- Whether the report has anything behind the claim; the core claim needs nothing. -/
def covers (results : List ReportRow) (claim : Claim) : Bool :=
  match claim.feature with
  | none => true
  | some feature => results.any fun row => row.feature.eq (.str feature)

def gateOf (res : PackResult) (results : List ReportRow) (claim : Claim) : PyM Gate := do
  let blocking ← blockingOf I res claim results
  .ok
    { name := claim.name
      passed := covers results claim && blocking.isEmpty
      criteria := if claim.feature = none then txt "core-required-all-pass" else txt "feature-all-pass"
      blocking := blocking }

/-- Whether the report evaluates the claim: an extension claim only when its feature is enabled. -/
def evaluates (features : List Text) (claim : Claim) : Bool := claim.feature.all features.contains

/-- `build_report`, but for the provenance it copies. -/
def buildReport (res : PackResult) (features : List Text) : PyM Report := do
  let results ← collect (reportRow I res) res.rows
  let totals ← totalsOf I results
  let gateList ← collect (gateOf I res results) (allClaims.filter (evaluates features))
  .ok { featuresEnabled := features, results := results, totals := totals, gates := gateList }

end AitpVerifier.Conformance
