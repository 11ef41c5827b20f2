import AitpVerifier.Json

/-!
# JSON canonicalization

Compact JSON, member names sorted by UTF-16 code unit, ECMAScript number text,
minimal escaping. The serializer is capped in depth and in nodes visited; both
caps are tested on entry to a value.
-/
namespace AitpVerifier

open PyText Checked

def JcsError (message : Text) : PyErr := .raised .jcs message

namespace Jcs

variable (P : Interpreter)

def rejectDuplicateKeys (pairs : Members) : PyM JsonValue := do
  let rec go (obj : Members) : Members → PyM JsonValue
    | [] => .ok (.dict obj)
    | (key, value) :: rest =>
      if obj.has key then .error (JcsError (txt "duplicate object member name: " ++ P.reprStr key))
      else go (obj ++ [(key, value)]) rest
  go [] pairs

def rejectConstant (name : Text) : PyM JsonValue :=
  .error (JcsError (txt "non-finite JSON constant not allowed: " ++ name))

/-- Parse JSON octets strictly: valid UTF-8, no duplicate members, no NaN or Infinity. -/
def loads (data : Bytes) : PyM JsonValue :=
  match utf8Decode? data with
  | none => .error (JcsError (txt "input is not valid UTF-8: " ++ P.decodeErrorText data))
  | some text =>
    rescue (Json.loads P ⟨rejectDuplicateKeys P, rejectConstant⟩ text) (fun e =>
      if e.isKind .jsonDecode then some (JcsError (txt "invalid JSON: " ++ e.text)) else none)

/-! ### Numbers -/

/-- The value of a decimal exponent with an optional sign. -/
def exponentValue (s : Text) : Int :=
  let (negative, digits) := splitSign s
  if negative then -(Json.digitsValue digits : Int) else Json.digitsValue digits

/-- `text.lower().partition("e")` of a `repr`, with the exponent read. -/
def splitExponent (text : Text) : Text × Int :=
  let (mantissa, found, exponent) := partition 0x65 text
  if found then (mantissa, exponentValue exponent) else (text, 0)

def stripTrailingZeros (s : Text) : Text := (s.reverse.dropWhile (· == 0x30)).reverse

/-- The significant digits of a positive `repr`, and the place of the point before them. -/
def shortestDigits (text : Text) : PyM (Text × Int) := do
  let (mantissa, exponent) := splitExponent text
  let (intPart, _, fracPart) := partition 0x2E mantissa
  let allDigits := intPart ++ fracPart
  let stripped := allDigits.dropWhile (· == 0x30)
  let n := intPart.length + exponent - (allDigits.length - stripped.length : Nat)
  let digits := stripTrailingZeros stripped
  raiseIf digits.isEmpty (JcsError (txt "internal: zero reached digit extraction"))
  .ok (digits, n)

def zeros (n : Int) : Text := List.replicate n.toNat 0x30

/-- The ECMAScript formatting bands. -/
def numberBody (digits : Text) (n : Int) : Text :=
  let k : Int := digits.length
  if k ≤ n ∧ n ≤ 21 then digits ++ zeros (n - k)
  else if 0 < n ∧ n ≤ 21 then digits.take n.toNat ++ txt "." ++ digits.drop n.toNat
  else if -6 < n ∧ n ≤ 0 then txt "0." ++ zeros (-n) ++ digits
  else
    let exponent := n - 1
    let expText := if 0 ≤ exponent then txt "e+" ++ decimal exponent.toNat else txt "e-" ++ decimal (-exponent).toNat
    if k = 1 then digits ++ expText else digits.take 1 ++ txt "." ++ digits.drop 1 ++ expText

def formatFloat (value : Binary64) : PyM Text :=
  match value with
  | .finite negative mantissa scale _ =>
    if mantissa = 0 then .ok (txt "0")
    else do
      let (digits, n) ← shortestDigits (Binary64.reprMagnitude mantissa scale)
      .ok ((if negative then txt "-" else []) ++ numberBody digits n)
  | _ => .error (JcsError (txt "NaN and Infinity are not valid JSON numbers"))

/-- An integer is formatted as the double it converts to. -/
def formatInt (value : Int) : PyM Text :=
  match Binary64.ofInt? value with
  | some f => formatFloat f
  | none => do
    let text ← intText value
    .error (JcsError (txt "integer magnitude exceeds IEEE 754 range: " ++ text))

/-! ### Strings -/

def namedEscape (c : CodePoint) : Option Text :=
  if c = 0x08 then some (txt "\\b")
  else if c = 0x09 then some (txt "\\t")
  else if c = 0x0A then some (txt "\\n")
  else if c = 0x0C then some (txt "\\f")
  else if c = 0x0D then some (txt "\\r")
  else if c = 0x22 then some (txt "\\\"")
  else if c = 0x5C then some (txt "\\\\")
  else none

def escapeChar (c : CodePoint) : Text :=
  match namedEscape c with
  | some escape => escape
  | none => if c.val < 0x20 then txt "\\u" ++ hex 4 c.val else [c]

def formatString (value : Text) : Text := txt "\"" ++ value.flatMap escapeChar ++ txt "\""

/-! ### Structure -/

def maxDepth : Nat := 256
def maxNodesVisited : Nat := 200000

/-- The sort key of a member name: the octets of its UTF-16-BE form. -/
def sortKey (name : Text) : PyM (List Nat) :=
  match utf16be? name with
  | some octets => .ok (octets.map UInt8.toNat)
  | none => .error (.raised .unicode (txt "'utf-16-be' codec can't encode: surrogates not allowed"))

/-- `sorted(names, key=sortKey)`. -/
def sortNames (names : List Text) : PyM (List Text) := do
  let keys ← collect sortKey names
  .ok (((keys.zip names).insertionSort (fun a b => a.1 ≤ b.1)).map Prod.snd)

/-- Count a visited node. -/
def visit (visits : Nat) : PyM Nat := do
  raiseIf (decide (maxNodesVisited < visits + 1))
    (JcsError (txt "JSON value visits more than 200000 nodes while canonicalizing"))
  .ok (visits + 1)

/-- A serializer takes the nodes visited so far and returns its output and the new count. -/
abbrev Serializer (α : Type) := α → Nat → PyM (Text × Nat)

/-- The parts of a container, comma separated. -/
def serializeParts {α : Type} (step : Serializer α) (first : Bool) : Serializer (List α)
  | [], visits => .ok ([], visits)
  | part :: rest, visits => do
    let (out, visits) ← step part visits
    let (more, visits) ← serializeParts step false rest visits
    .ok ((if first then [] else txt ",") ++ out ++ more, visits)

/-- `_serialize`, with `room` levels left before the depth cap. -/
def serialize : Nat → Serializer JsonValue
  | 0, _, visits => do
    let _ ← visit visits
    .error (JcsError (txt "JSON nesting exceeds the maximum canonicalizable depth (256)"))
  | room + 1, value, visits => do
    let visits ← visit visits
    match value with
    | .null => .ok (txt "null", visits)
    | .bool b => .ok (if b then txt "true" else txt "false", visits)
    | .str s => .ok (formatString s, visits)
    | .int i => do
      let text ← formatInt i
      .ok (text, visits)
    | .float f => do
      let text ← formatFloat f
      .ok (text, visits)
    | .list items => do
      let (out, visits) ← serializeParts (serialize room) true items visits
      .ok (txt "[" ++ out ++ txt "]", visits)
    | .dict members => do
      let names ← sortNames (Members.names members)
      let (out, visits) ← serializeParts (fun name visits => do
        let (text, visits) ← serialize room (Members.get members name) visits
        .ok (formatString name ++ txt ":" ++ text, visits)) true names visits
      .ok (txt "\x7b" ++ out ++ txt "\x7d", visits)

/-- The canonical form as text. -/
def dumps (value : JsonValue) : PyM Text := do
  let (out, _) ← serialize (maxDepth + 1) value 0
  .ok out

/-- The canonical form as UTF-8 octets. -/
def canonicalize (value : JsonValue) : PyM Bytes := do
  let out ← dumps value
  match utf8? out with
  | some octets => .ok octets
  | none => .error (.raised .unicode (txt "'utf-8' codec can't encode: surrogates not allowed"))

end Jcs

end AitpVerifier
