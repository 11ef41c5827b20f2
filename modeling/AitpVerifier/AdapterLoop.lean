import AitpVerifier.Adapter
import AitpVerifier.JsonDumps

/-!
# The adapter's loop

One request a line comes in, one response a line goes out. What `json.loads` raises beside
a syntax error is no malformed request: nothing catches it, and the process ends.
-/
namespace AitpVerifier

open PyText Checked Json

/-! ### Reading a request -/

/-- `MalformedRequest(message)`. -/
def MalformedRequest (message : Text) : PyErr := .raised .malformedRequest message

section

variable (I : Interpreter)

def noDuplicateKeys (pairs : Members) : PyM JsonValue := do
  let rec go (out : Members) : Members → PyM JsonValue
    | [] => .ok (.dict out)
    | (key, value) :: rest =>
      if out.has key then .error (MalformedRequest (txt "duplicate JSON key " ++ I.reprStr key))
      else go (out ++ [(key, value)]) rest
  go [] pairs

def noConstant (name : Text) : PyM JsonValue := .error (MalformedRequest (txt "non-JSON number " ++ name))

def requestHooks : Hooks := ⟨noDuplicateKeys I, noConstant⟩

/-- One request line, strictly: UTF-8, JSON, no duplicate key at any depth, an object. -/
def parseRequest (line : Bytes) : PyM Members :=
  match utf8Decode? line with
  | none => .error (MalformedRequest (txt "request is not UTF-8: " ++ I.decodeErrorText line))
  | some text => do
    let request ← rescue (Json.loads I (requestHooks I) text) (fun e =>
      if e.isKind .jsonDecode then some (MalformedRequest (txt "request is not JSON: " ++ e.text)) else none)
    match request with
    | .dict members => .ok members
    | _ => .error (MalformedRequest (txt "request is not a JSON object"))

end

/-- A character `bytes.strip` drops. -/
def isAsciiSpace (b : UInt8) : Bool := b == 0x20 || (0x09 ≤ b.toNat && b.toNat ≤ 0x0D)

/-- `not line.strip()`. -/
def isBlank (line : Bytes) : Bool := line.all isAsciiSpace

/-- `line.rstrip(b"\r\n")`. -/
def rstripEnd (line : Bytes) : Bytes := (line.reverse.dropWhile fun b => b == 0x0D || b == 0x0A).reverse

/-! ### Writing a response -/

/-- How deep the encoder writes before the stack is exhausted. -/
structure Encoder where
  levels : Nat
  deep : 3 ≤ levels

def Response.value : Response → JsonValue
  | .ok rid result => .dict [(txt "id", .str rid), (txt "ok", .bool true), (txt "result", .dict result)]
  | .err rid code message =>
    .dict [(txt "id", .str rid), (txt "ok", .bool false), (txt "error_code", .str (txt code)), (txt "message", .str message)]

def Response.id : Response → Text
  | .ok rid _ => rid
  | .err rid _ _ => rid

variable (P : Platform) (D : Deployment) (E : Encoder)

/-- `_write`. -/
def Response.write (response : Response) : PyM Text := do
  let text ← dumps E.levels response.value
  .ok (text ++ [0x0A])

/-! ### The loop -/

/-- A line of stdin, and the octets drawn while it is handled. -/
abbrev Line := Bytes × Bytes

def parseLine (line : Line) : PyM Members := parseRequest P.toInterpreter (rstripEnd line.1)

/-- `request.get("op") == "shutdown"`. -/
def isShutdown (request : Members) : Bool := (request.get (txt "op")).eq (.str (txt "shutdown"))

/-- One line that is not blank: the line written, whether it was the last, and the state left. -/
def serveLine (s : AdapterState) (line : Line) : PyM (Text × Bool × AdapterState) :=
  match parseLine P line with
  | .error e =>
    if e.isKind .malformedRequest then do
      let text ← (malformedRequest (txt "unknown") e.text).write E
      .ok (text, false, s)
    else .error e
  | .ok request => do
    let handled := handle P D s line.2 request
    let text ← handled.1.write E
    .ok (text, isShutdown request, handled.2)

/-- What was written, and the exit code or the exception it ended in. -/
structure Service where
  written : List Text
  ended : PyM Int

def Service.after (text : Text) (rest : Service) : Service := ⟨text :: rest.written, rest.ended⟩

def serve (s : AdapterState) : List Line → Service
  | [] => ⟨[], .ok 0⟩
  | line :: rest =>
    if isBlank line.1 then serve s rest
    else match serveLine P D E s line with
      | .error e => ⟨[], .error e⟩
      | .ok (text, true, _) => ⟨[text], .ok 0⟩
      | .ok (text, false, s') => (serve s' rest).after text

/-! ### What reading raises -/

section

variable {I : Interpreter}

/-- Both hooks for pairs let the same objects through. -/
theorem noDuplicateKeys_alike (pairs : Members) :
    (∃ v, noDuplicateKeys I pairs = .ok v ∧ Jcs.rejectDuplicateKeys I pairs = .ok v) ∨
      ∃ e, noDuplicateKeys I pairs = .error e ∧ e.isKind .malformedRequest = true := by
  have hgo (out rest : Members) :
      (∃ v, noDuplicateKeys.go I out rest = .ok v ∧ Jcs.rejectDuplicateKeys.go I out rest = .ok v) ∨
        ∃ e, noDuplicateKeys.go I out rest = .error e ∧ e.isKind .malformedRequest = true := by
    induction rest generalizing out with
    | nil => exact .inl ⟨_, rfl, rfl⟩
    | cons m rest ih =>
      obtain ⟨key, value⟩ := m
      rw [noDuplicateKeys.go, Jcs.rejectDuplicateKeys.go]
      split
      · exact .inr ⟨_, rfl, rfl⟩
      · exact ih _
  exact hgo [] pairs

theorem requestHooks_strict : Strict .malformedRequest (requestHooks I) where
  pairs members v h := by
    rcases noDuplicateKeys_alike (I := I) members with ⟨_, hv, hreject⟩ | ⟨_, he, _⟩
    · cases hv.symm.trans h
      exact Jcs.rejectDuplicateKeys_eq_ok hreject
    · cases he.symm.trans h
  refused members e h := by
    rcases noDuplicateKeys_alike (I := I) members with ⟨_, hv, _⟩ | ⟨_, he, hkind⟩
    · cases hv.symm.trans h
    · cases he.symm.trans h
      exact hkind
  constant _ := ⟨_, rfl, rfl⟩

variable (I) in
/-- The scan of a line comes to no integer of too many digits and no container too deep. -/
def Readable (line : Bytes) : Prop :=
  ∀ document, utf8Decode? line = some document → document.head? ≠ some 0xFEFF →
    ∀ q, Relation.ReflTransGen (Next (requestHooks I)) (.value I.parseDepth (skipSpace document)) q →
      ¬ q.TooDeep ∧ ¬ q.LongInteger

/-- A line leaves the process running when it can be read, as a request or as none. -/
theorem readable_iff {line : Bytes} :
    Readable I line ↔ FailsWith (fun e => e.isKind .malformedRequest = true) (parseRequest I line) := by
  cases hdecode : utf8Decode? line with
  | none =>
    refine iff_of_true (fun document hdocument => by cases hdecode.symm.trans hdocument) ?_
    rw [parseRequest, hdecode]
    exact .error rfl
  | some document =>
    have hfaults := @renamed_failsWith_iff _ _ (@requestHooks_strict I) (by decide) I document
      (fun e => MalformedRequest (txt "request is not JSON: " ++ e.text)) fun _ => rfl
    have hreadable : Readable I line ↔ (document.head? ≠ some 0xFEFF → ∀ q, Relation.ReflTransGen (Next (requestHooks I))
        (.value I.parseDepth (skipSpace document)) q → ¬ q.TooDeep ∧ ¬ q.LongInteger) :=
      ⟨fun h => h document hdecode, fun h document' hdocument => Option.some.inj (hdecode.symm.trans hdocument) ▸ h⟩
    rw [hreadable, hfaults, parseRequest, hdecode]
    constructor
    · intro hloads
      refine hloads.bind fun value _ => ?_
      cases value with
      | dict members => exact .ok
      | _ => exact .error rfl
    · intro hrequest e he
      refine hrequest e ?_
      dsimp only
      rw [he]
      rfl

end

end AitpVerifier
