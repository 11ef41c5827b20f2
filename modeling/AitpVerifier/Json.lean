import AitpVerifier.Value

/-!
# `json.loads`

CPython's scanner: the value grammar of RFC 8259 plus the `NaN` and `Infinity`
constants, with the two hooks the package installs. A parse error carries what
was left to read, from which the reported line and column follow. Every call
consumes a character or descends into one, so twice the length is fuel enough.
-/
namespace AitpVerifier.Json

open PyText Checked

structure Hooks where
  objectPairs : Members → PyM JsonValue
  parseConstant : Text → PyM JsonValue

inductive ScanError where
  | malformed : (message rest : Text) → ScanError
  | raised : PyErr → ScanError

abbrev Scan := Except ScanError

def raising {α : Type} (x : PyM α) (rest : Text) : Scan (α × Text) :=
  match x with
  | .ok a => .ok (a, rest)
  | .error e => .error (.raised e)

def isWhitespace (c : CodePoint) : Bool := c == 0x20 || c == 0x09 || c == 0x0A || c == 0x0D

def skipSpace (s : Text) : Text := s.dropWhile isWhitespace

def isDigit (c : CodePoint) : Bool := 0x30 ≤ c.val && c.val ≤ 0x39

def digitValue (c : CodePoint) : Nat := c.val - 0x30

def digitsValue (digits : Text) : Nat := digits.foldl (fun n c => 10 * n + digitValue c) 0

/-- `int(text)` of the scanner's digits, within CPython's digit limit. -/
def parseInt (negative : Bool) (digits : Text) : PyM JsonValue := do
  raiseIf (decide (maxIntDigits < digits.length)) tooManyDigits
  .ok (.int (if negative then -(digitsValue digits : Int) else digitsValue digits))

/-- The integer part: one zero, or digits that do not start with zero. -/
def integerPart (s : Text) : Text × Text :=
  match s with
  | [] => ([], [])
  | c :: rest => if c = 0x30 then ([c], rest) else (s.takeWhile isDigit, s.dropWhile isDigit)

/-- The fraction's digits, when a point and a digit follow. -/
def fractionPart (s : Text) : Option (Text × Text) :=
  match s with
  | p :: d :: rest =>
    if p = 0x2E ∧ isDigit d then some ((d :: rest).takeWhile isDigit, (d :: rest).dropWhile isDigit) else none
  | _ => none

/-- The exponent, when `e`, an optional sign and a digit follow. -/
def exponentPart (s : Text) : Option (Int × Text) :=
  match s with
  | [] => none
  | e :: rest =>
    if e = 0x65 ∨ e = 0x45 then
      let (negative, body) := splitSign rest
      match body.takeWhile isDigit with
      | [] => none
      | digits =>
        let value : Int := digitsValue digits
        some (if negative then -value else value, body.dropWhile isDigit)
    else none

/-- A number, after its sign. -/
def scanUnsigned (negative : Bool) (start s : Text) : Scan (JsonValue × Text) :=
  let (whole, rest) := integerPart s
  if whole.isEmpty then .error (.malformed (txt "Expecting value") start)
  else
    let (fraction, rest₁) := (fractionPart rest).getD ([], rest)
    let (exponent, rest₂) := (exponentPart rest₁).getD (0, rest₁)
    if fraction.isEmpty ∧ exponentPart rest₁ = none then raising (parseInt negative whole) rest
    else .ok (.float (.ofDecimal negative (digitsValue (whole ++ fraction)) (exponent - fraction.length)), rest₂)

def hexValue? (c : CodePoint) : Option Nat :=
  let v := c.val
  if 0x30 ≤ v ∧ v ≤ 0x39 then some (v - 0x30)
  else if 0x61 ≤ v ∧ v ≤ 0x66 then some (v - 0x57)
  else if 0x41 ≤ v ∧ v ≤ 0x46 then some (v - 0x37)
  else none

/-- The four hexadecimal digits of an escape. -/
def hex4? : Text → Option (Nat × Text)
  | a :: b :: c :: d :: rest => do
    let a ← hexValue? a
    let b ← hexValue? b
    let c ← hexValue? c
    let d ← hexValue? d
    some (a * 0x1000 + b * 0x100 + c * 0x10 + d, rest)
  | _ => none

/-- The character after a one-letter escape. -/
def namedEscape? (c : CodePoint) : Option CodePoint :=
  if c = 0x22 then some 0x22
  else if c = 0x5C then some 0x5C
  else if c = 0x2F then some 0x2F
  else if c = 0x62 then some 0x08
  else if c = 0x66 then some 0x0C
  else if c = 0x6E then some 0x0A
  else if c = 0x72 then some 0x0D
  else if c = 0x74 then some 0x09
  else none

def invalidUnicodeEscape (rest : Text) : ScanError := .malformed (txt "Invalid \\uXXXX escape") rest

/-- The code point of a `\u` escape, joining a surrogate pair. A high surrogate
with no low one after it stands for itself. -/
def unicodeEscape (start s : Text) : Scan (CodePoint × Text) :=
  match hex4? s with
  | none => .error (invalidUnicodeEscape start)
  | some (high, rest) =>
    let alone : Scan (CodePoint × Text) := .ok (Fin.ofNat _ high, rest)
    if 0xD800 ≤ high ∧ high < 0xDC00 then
      match rest with
      | backslash :: u :: more =>
        if backslash = 0x5C ∧ u = 0x75 ∧ 4 < more.length then
          match hex4? more with
          | none => .error (invalidUnicodeEscape more)
          | some (low, rest₁) =>
            if 0xDC00 ≤ low ∧ low < 0xE000 then
              .ok (Fin.ofNat _ (0x10000 + (high - 0xD800) * 0x400 + (low - 0xDC00)), rest₁)
            else alone
        else alone
      | _ => alone
    else alone

/-- A string's characters up to its closing quote; `start` is the opening one. -/
def scanString (start : Text) : Nat → Text → Scan (Text × Text)
  | 0, _ => .error (.malformed (txt "Unterminated string starting at") start)
  | _ + 1, [] => .error (.malformed (txt "Unterminated string starting at") start)
  | fuel + 1, c :: rest =>
    if c = 0x22 then .ok ([], rest)
    else if c = 0x5C then
      match rest with
      | [] => .error (.malformed (txt "Unterminated string starting at") start)
      | e :: more =>
        if e = 0x75 then do
          let (point, rest₁) ← unicodeEscape rest more
          let (tail, rest₂) ← scanString start fuel rest₁
          .ok (point :: tail, rest₂)
        else match namedEscape? e with
          | none => .error (.malformed (txt "Invalid \\escape") (c :: rest))
          | some point => do
            let (tail, rest₂) ← scanString start fuel more
            .ok (point :: tail, rest₂)
    else if c.val < 0x20 then .error (.malformed (txt "Invalid control character at") (c :: rest))
    else do
      let (tail, rest₂) ← scanString start fuel rest
      .ok (c :: tail, rest₂)

def tooDeep : ScanError :=
  .raised (.raised .recursion (txt "maximum recursion depth exceeded while decoding a JSON document"))

mutual
/-- `scan_once`, `room` levels of containers before the stack is exhausted. -/
def scanOnce (hooks : Hooks) : Nat → Nat → Text → Scan (JsonValue × Text)
  | 0, _, s => .error (.malformed (txt "Expecting value") s)
  | fuel + 1, room, s =>
    match s with
    | [] => .error (.malformed (txt "Expecting value") s)
    | c :: rest =>
      if c = 0x22 then do
        let (value, rest₁) ← scanString s (rest.length + 1) rest
        .ok (.str value, rest₁)
      else if c = 0x7B then
        match room with
        | 0 => .error tooDeep
        | room + 1 => do
          let (members, rest₁) ← scanMembers hooks fuel room true (skipSpace rest)
          raising (hooks.objectPairs members) rest₁
      else if c = 0x5B then
        match room with
        | 0 => .error tooDeep
        | room + 1 => do
          let (items, rest₁) ← scanItems hooks fuel room true (skipSpace rest)
          .ok (.list items, rest₁)
      else if (txt "null").isPrefixOf s then .ok (.null, s.drop 4)
      else if (txt "true").isPrefixOf s then .ok (.bool true, s.drop 4)
      else if (txt "false").isPrefixOf s then .ok (.bool false, s.drop 5)
      else if (txt "NaN").isPrefixOf s then raising (hooks.parseConstant (txt "NaN")) (s.drop 3)
      else if (txt "Infinity").isPrefixOf s then raising (hooks.parseConstant (txt "Infinity")) (s.drop 8)
      else if (txt "-Infinity").isPrefixOf s then raising (hooks.parseConstant (txt "-Infinity")) (s.drop 9)
      else if c = 0x2D then scanUnsigned true s rest
      else if isDigit c then scanUnsigned false s s
      else .error (.malformed (txt "Expecting value") s)
/-- An array's items; only the first position admits the closing bracket. -/
def scanItems (hooks : Hooks) : Nat → Nat → Bool → Text → Scan (List JsonValue × Text)
  | 0, _, _, s => .error (.malformed (txt "Expecting value") s)
  | fuel + 1, room, first, s =>
    if first ∧ s.head? = some 0x5D then .ok ([], s.drop 1)
    else do
      let (item, rest) ← scanOnce hooks fuel room s
      let rest₁ := skipSpace rest
      match rest₁ with
      | [] => .error (.malformed (txt "Expecting ',' delimiter") rest₁)
      | c :: rest₂ =>
        if c = 0x5D then .ok ([item], rest₂)
        else if c = 0x2C then do
          let (items, rest₃) ← scanItems hooks fuel room false (skipSpace rest₂)
          .ok (item :: items, rest₃)
        else .error (.malformed (txt "Expecting ',' delimiter") rest₁)
/-- An object's members; only the first position admits the closing brace. -/
def scanMembers (hooks : Hooks) : Nat → Nat → Bool → Text → Scan (Members × Text)
  | 0, _, _, s => .error (.malformed (txt "Expecting property name enclosed in double quotes") s)
  | fuel + 1, room, first, s =>
    match s with
    | [] => .error (.malformed (txt "Expecting property name enclosed in double quotes") s)
    | c :: rest =>
      if first ∧ c = 0x7D then .ok ([], rest)
      else if c ≠ 0x22 then .error (.malformed (txt "Expecting property name enclosed in double quotes") s)
      else do
        let (name, rest₁) ← scanString s (rest.length + 1) rest
        let rest₂ := skipSpace rest₁
        if rest₂.head? ≠ some 0x3A then .error (.malformed (txt "Expecting ':' delimiter") rest₂)
        else do
          let (value, rest₃) ← scanOnce hooks fuel room (skipSpace (rest₂.drop 1))
          let rest₄ := skipSpace rest₃
          match rest₄ with
          | [] => .error (.malformed (txt "Expecting ',' delimiter") rest₄)
          | d :: rest₅ =>
            if d = 0x7D then .ok ([(name, value)], rest₅)
            else if d = 0x2C then do
              let (members, rest₆) ← scanMembers hooks fuel room false (skipSpace rest₅)
              .ok ((name, value) :: members, rest₆)
            else .error (.malformed (txt "Expecting ',' delimiter") rest₄)
end

/-- `JSONDecodeError(message, doc, pos)`. -/
def decodeError (message document rest : Text) : PyErr :=
  let before := document.take (document.length - rest.length)
  let line := before.count 0x0A + 1
  let column := (before.reverse.takeWhile (fun c => c != 0x0A)).length + 1
  .raised .jsonDecode (message ++ txt ": line " ++ decimal line ++ txt " column " ++ decimal column ++
    txt " (char " ++ decimal before.length ++ txt ")")

/-- `json.loads(text, object_pairs_hook=…, parse_constant=…)`. -/
def loads (I : Interpreter) (hooks : Hooks) (document : Text) : PyM JsonValue :=
  if document.head? = some 0xFEFF then
    .error (decodeError (txt "Unexpected UTF-8 BOM (decode using utf-8-sig)") document document)
  else
    match scanOnce hooks (2 * document.length + 2) I.parseDepth (skipSpace document) with
    | .error (.raised e) => .error e
    | .error (.malformed message rest) => .error (decodeError message document rest)
    | .ok (value, rest) =>
      if (skipSpace rest).isEmpty then .ok value
      else .error (decodeError (txt "Extra data") document (skipSpace rest))

end AitpVerifier.Json
