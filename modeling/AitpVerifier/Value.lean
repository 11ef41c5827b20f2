import AitpVerifier.Binary64
import AitpVerifier.Checked

/-!
# Python values, exceptions and the operators the verifier applies to them

`JsonValue` is the package's own alias: what `json.loads` can return. A `dict` is
its members in insertion order. Operators that can raise return `PyM`.
-/
namespace AitpVerifier

open PyText Checked

/-- The built-in and library exceptions that reach this package's code, and the
package's own beside `AitpError`. -/
inductive ErrorKind where
  | jcs | jsonDecode | unicode | value | type | key | attribute | overflow | recursion | assertion | os
  | unsupportedAlgorithm | invalidSignature | extensionNotFound | invalidVersion | duplicateExtension
  | unsupportedGeneralName | malformedRequest | katKeys | fixture
  deriving DecidableEq, Repr

/-- `ValueError` and its subclasses. -/
def ErrorKind.isValueError : ErrorKind → Bool
  | .jcs | .jsonDecode | .unicode | .value => true
  | _ => false

inductive PyErr where
  | aitp : (code : String) → (message : Text) → (retryable : Bool) → PyErr
  | raised : ErrorKind → (message : Text) → PyErr
  deriving DecidableEq, Repr

namespace PyErr

def isValueError : PyErr → Bool
  | .raised kind _ => kind.isValueError
  | .aitp .. => false

def isKind (kind : ErrorKind) : PyErr → Bool
  | .raised k _ => k == kind
  | .aitp .. => false

/-- `str(exc)`. -/
def text : PyErr → Text
  | .aitp code message _ => if message.isEmpty then txt code else txt code ++ txt ": " ++ message
  | .raised _ message => message

/-- `AitpError.code`. -/
def code? : PyErr → Option String
  | .aitp code _ _ => some code
  | .raised .. => none

end PyErr

/-- `AitpError(code, message)`. -/
def AitpError (code : String) (message : Text) : PyErr := .aitp code message false

abbrev PyM := Except PyErr

inductive JsonValue where
  | null : JsonValue
  | bool : Bool → JsonValue
  | int : Int → JsonValue
  | float : Binary64 → JsonValue
  | str : Text → JsonValue
  | list : List JsonValue → JsonValue
  | dict : List (Text × JsonValue) → JsonValue
  deriving Repr

abbrev Members := List (Text × JsonValue)

namespace Members

/-- `obj[key]` where present. -/
def get? : Members → Text → Option JsonValue
  | [], _ => none
  | (k, v) :: rest, key => if k = key then some v else get? rest key

/-- `obj.get(key)`. -/
def get (obj : Members) (key : Text) : JsonValue := (obj.get? key).getD .null

/-- `key in obj`. -/
def has (obj : Members) (key : Text) : Bool := (obj.get? key).isSome

def names (obj : Members) : List Text := obj.map Prod.fst

/-- `obj[key]`, with Python's `KeyError`, whose text is the `repr` of the key. -/
def index (obj : Members) (key : Text) : PyM JsonValue :=
  match obj.get? key with
  | some v => .ok v
  | none => .error (.raised .key (txt "'" ++ key ++ txt "'"))

/-- `{k: v for k, v in obj.items() if k != key}`. -/
def without (obj : Members) (key : Text) : Members := obj.filter (fun m => m.1 != key)

/-- `obj | {key: value}`: an existing member keeps its place. -/
def insert : Members → Text → JsonValue → Members
  | [], key, value => [(key, value)]
  | (k, v) :: rest, key, value => if k = key then (k, value) :: rest else (k, v) :: insert rest key value

theorem index_eq_ok {obj : Members} {key : Text} {value : JsonValue} :
    obj.index key = .ok value ↔ obj.get? key = some value := by
  unfold index
  cases obj.get? key <;> simp

theorem get?_insert (obj : Members) (key other : Text) (value : JsonValue) :
    (obj.insert key value).get? other = if key = other then some value else obj.get? other := by
  induction obj with
  | nil => rfl
  | cons member rest ih =>
    obtain ⟨k, v⟩ := member
    by_cases hk : k = key
    · by_cases ho : k = other <;> simp_all [insert, get?]
    · rw [insert, if_neg hk, get?, get?, ih]
      by_cases ho : k = other
      · have hne : key ≠ other := fun h => hk (ho.trans h.symm)
        rw [if_pos ho, if_neg hne, if_pos ho]
      · rw [if_neg ho, if_neg ho]

/-- The last of two changes to one member stands. -/
theorem insert_insert (obj : Members) (key : Text) (value last : JsonValue) :
    (obj.insert key value).insert key last = obj.insert key last := by
  induction obj with
  | nil => simp [insert]
  | cons member rest ih =>
    obtain ⟨k, v⟩ := member
    by_cases hk : k = key
    · simp [insert, hk]
    · simp [insert, hk, ih]

theorem get_insert_of_ne {obj : Members} {key other : Text} {value : JsonValue} (h : key ≠ other) :
    (obj.insert key value).get other = obj.get other := by
  rw [get, get?_insert, if_neg h, get]

theorem get_insert_self (obj : Members) (key : Text) (value : JsonValue) : (obj.insert key value).get key = value := by
  rw [get, get?_insert, if_pos rfl, Option.getD_some]

theorem mem_of_get? {obj : Members} {key : Text} {value : JsonValue} (h : obj.get? key = some value) :
    (key, value) ∈ obj := by
  induction obj with
  | nil => cases h
  | cons member rest ih =>
    obtain ⟨k, v⟩ := member
    by_cases hk : k = key
    · rw [get?, if_pos hk, Option.some.injEq] at h
      rw [hk, h]
      exact List.mem_cons_self
    · rw [get?, if_neg hk] at h
      exact List.mem_cons_of_mem _ (ih h)

/-- A name is a present member's. -/
theorem mem_names_iff {obj : Members} {key : Text} : key ∈ obj.names ↔ obj.has key = true := by
  induction obj with
  | nil => simp [names, has, get?]
  | cons member rest ih =>
    obtain ⟨k, v⟩ := member
    by_cases hk : k = key
    · simp [names, has, get?, hk]
    · rw [has, get?, if_neg hk]
      simp only [names, List.map_cons, List.mem_cons, Ne.symm hk, false_or]
      exact ih

theorem get?_without {obj : Members} {key other : Text} (h : other ≠ key) :
    (obj.without key).get? other = obj.get? other := by
  induction obj with
  | nil => rfl
  | cons member rest ih =>
    obtain ⟨k, v⟩ := member
    by_cases hk : k = key
    · have hne : k ≠ other := fun he => h (he.symm.trans hk)
      rw [without, List.filter_cons_of_neg (by simpa using hk), get?, if_neg hne]
      exact ih
    · rw [without, List.filter_cons_of_pos (by simpa using hk), get?, get?]
      exact if_congr Iff.rfl rfl ih

theorem get?_without_self {obj : Members} {key : Text} : (obj.without key).get? key = none := by
  induction obj with
  | nil => rfl
  | cons m rest ih =>
    by_cases hk : m.1 = key
    · rw [without, List.filter_cons_of_neg (by simpa using hk)]
      exact ih
    · rw [without, List.filter_cons_of_pos (by simpa using hk), get?, if_neg hk]
      exact ih

theorem mem_names_without {obj : Members} {key name : Text} (h : name ∈ (obj.without key).names) :
    name ∈ obj.names ∧ name ≠ key := by
  obtain ⟨m, hm, rfl⟩ := List.mem_map.mp h
  obtain ⟨hin, hne⟩ := List.mem_filter.mp hm
  exact ⟨List.mem_map_of_mem hin, by simpa using hne⟩

theorem mem_names_insert {obj : Members} {key name : Text} {value : JsonValue}
    (h : name ∈ (obj.insert key value).names) : name = key ∨ name ∈ obj.names := by
  induction obj with
  | nil => simpa [insert, names] using h
  | cons member rest ih =>
    obtain ⟨k, v⟩ := member
    by_cases hk : k = key
    · simp only [insert, hk, if_true] at h
      exact .inr (by simpa [names, hk] using h)
    · simp only [insert, if_neg hk, names, List.map_cons, List.mem_cons] at h ⊢
      rcases h with rfl | h
      · exact .inr (.inl rfl)
      · exact (ih h).imp id .inr

end Members

/-- What the interpreter fixes and the package leaves to it: two tables of its
Unicode database beyond ASCII, how deep `repr` and `json.loads` recurse before
`RecursionError`, the wording of `UnicodeDecodeError`, and the platform's range
of `datetime.fromtimestamp`. -/
structure Interpreter where
  isPrintable : CodePoint → Bool
  decimalValue : CodePoint → Option (Fin 10)
  reprDepth : Nat
  parseDepth : Nat
  decodeErrorText : Bytes → Text
  fromTimestamp : Int → PyM Int

namespace JsonValue

def typeName : JsonValue → Text
  | .null => txt "NoneType"
  | .bool _ => txt "bool"
  | .int _ => txt "int"
  | .float _ => txt "float"
  | .str _ => txt "str"
  | .list _ => txt "list"
  | .dict _ => txt "dict"

def isDict : JsonValue → Bool
  | .dict _ => true
  | _ => false

def isStr : JsonValue → Bool
  | .str _ => true
  | _ => false

def isNull : JsonValue → Bool
  | .null => true
  | _ => false

def truthy : JsonValue → Bool
  | .null => false
  | .bool b => b
  | .int i => i != 0
  | .float f => !f.isZero
  | .str s => !s.isEmpty
  | .list items => !items.isEmpty
  | .dict members => !members.isEmpty

/-- Usable as a `dict` key or `set` element. -/
def hashable : JsonValue → Bool
  | .list _ | .dict _ => false
  | _ => true

def boolInt (b : Bool) : Int := if b then 1 else 0

mutual
/-- Python's `==`: numbers and booleans compare by value, objects regardless of order. -/
def eq : JsonValue → JsonValue → Bool
  | .null, .null => true
  | .bool a, .bool b => a == b
  | .bool a, .int b => boolInt a == b
  | .bool a, .float b => b.eqInt (boolInt a)
  | .int a, .bool b => a == boolInt b
  | .int a, .int b => a == b
  | .int a, .float b => b.eqInt a
  | .float a, .bool b => a.eqInt (boolInt b)
  | .float a, .int b => a.eqInt b
  | .float a, .float b => a.eq b
  | .str a, .str b => a == b
  | .list xs, .list ys => eqItems xs ys
  | .dict ms, .dict ns => ms.length == ns.length && eqMembers ms ns
  | _, _ => false
def eqItems : List JsonValue → List JsonValue → Bool
  | [], [] => true
  | x :: xs, y :: ys => eq x y && eqItems xs ys
  | _, _ => false
def eqMembers : Members → Members → Bool
  | [], _ => true
  | (k, v) :: ms, ns =>
    (match Members.get? ns k with
    | some w => eq v w
    | none => false) && eqMembers ms ns
end

mutual
/-- Equality of values as trees: members in order, numbers by spelling. -/
def decEq : (a b : JsonValue) → Decidable (a = b)
  | .null, .null => isTrue rfl
  | .bool a, .bool b => decidable_of_iff (a = b) (by simp)
  | .int a, .int b => decidable_of_iff (a = b) (by simp)
  | .float a, .float b => decidable_of_iff (a = b) (by simp)
  | .str a, .str b => decidable_of_iff (a = b) (by simp)
  | .list as, .list bs =>
    match decEqItems as bs with
    | isTrue h => isTrue (by rw [h])
    | isFalse h => isFalse (by simpa using h)
  | .dict as, .dict bs =>
    match decEqMembers as bs with
    | isTrue h => isTrue (by rw [h])
    | isFalse h => isFalse (by simpa using h)
  | .null, .bool _ | .null, .int _ | .null, .float _ | .null, .str _ | .null, .list _ | .null, .dict _
  | .bool _, .null | .bool _, .int _ | .bool _, .float _ | .bool _, .str _ | .bool _, .list _ | .bool _, .dict _
  | .int _, .null | .int _, .bool _ | .int _, .float _ | .int _, .str _ | .int _, .list _ | .int _, .dict _
  | .float _, .null | .float _, .bool _ | .float _, .int _ | .float _, .str _ | .float _, .list _ | .float _, .dict _
  | .str _, .null | .str _, .bool _ | .str _, .int _ | .str _, .float _ | .str _, .list _ | .str _, .dict _
  | .list _, .null | .list _, .bool _ | .list _, .int _ | .list _, .float _ | .list _, .str _ | .list _, .dict _
  | .dict _, .null | .dict _, .bool _ | .dict _, .int _ | .dict _, .float _ | .dict _, .str _ | .dict _, .list _ =>
    isFalse nofun
def decEqItems : (as bs : List JsonValue) → Decidable (as = bs)
  | [], [] => isTrue rfl
  | [], _ :: _ => isFalse nofun
  | _ :: _, [] => isFalse nofun
  | a :: as, b :: bs =>
    match decEq a b, decEqItems as bs with
    | isTrue h, isTrue h' => isTrue (by rw [h, h'])
    | isFalse h, _ => isFalse (by simp [h])
    | _, isFalse h => isFalse (by simp [h])
def decEqMembers : (as bs : List (Text × JsonValue)) → Decidable (as = bs)
  | [], [] => isTrue rfl
  | [], _ :: _ => isFalse nofun
  | _ :: _, [] => isFalse nofun
  | (k, a) :: as, (l, b) :: bs =>
    match decEq a b, decEqMembers as bs with
    | isTrue h, isTrue h' => decidable_of_iff (k = l) (by simp [h, h'])
    | isFalse h, _ => isFalse (by simp [h])
    | _, isFalse h => isFalse (by simp [h])
end
instance : DecidableEq JsonValue := decEq
/-- Comparison with a string is the one the checklists make most. -/
@[simp] theorem eq_str (v : JsonValue) (s : Text) : v.eq (.str s) = true ↔ v = .str s := by
  cases v <;> simp [eq]

@[simp] theorem str_eq (s : Text) (v : JsonValue) : (JsonValue.str s).eq v = true ↔ v = .str s := by
  cases v with
  | str t => simpa [eq] using eq_comm
  | _ => simp [eq]

/-- `value in items` over a list's elements. -/
def isIn (value : JsonValue) (items : List JsonValue) : Bool := items.any (fun item => item.eq value)

def characters (s : Text) : List JsonValue := s.map (fun c => .str [c])

/-- `iter(value)`. -/
def elements (value : JsonValue) : PyM (List JsonValue) :=
  match value with
  | .list items => .ok items
  | .str s => .ok (characters s)
  | .dict members => .ok (members.map (fun m => .str m.1))
  | _ => .error (.raised .type (txt "'" ++ value.typeName ++ txt "' object is not iterable"))

def unhashable (value : JsonValue) : PyErr :=
  .raised .type (txt "unhashable type: '" ++ value.typeName ++ txt "'")

/-- `set(value)`, as the list of what it holds. -/
def set (value : JsonValue) : PyM (List JsonValue) := do
  let items ← value.elements
  forEach (fun item => raiseIf (!item.hashable) (unhashable item)) items
  .ok items

/-- `a.issubset(b)` of two sets. -/
def subset (a b : List JsonValue) : Bool := a.all (fun item => item.isIn b)

/-- `value in container`. -/
def inContainer (value container : JsonValue) : PyM Bool :=
  match container with
  | .list items => .ok (value.isIn items)
  | .dict members => do
    raiseIf (!value.hashable) (unhashable value)
    .ok (members.any (fun m => value.eq (.str m.1)))
  | .str s =>
    match value with
    | .str t => .ok ((List.range (s.length + 1)).any (fun i => t.isPrefixOf (s.drop i)))
    | _ => .error (.raised .type (txt "'in <string>' requires string as left operand, not " ++ value.typeName))
  | _ => .error (.raised .type (txt "argument of type '" ++ container.typeName ++ txt "' is not iterable"))

/-- `len(value)`. -/
def length (value : JsonValue) : PyM Nat :=
  match value with
  | .str s => .ok s.length
  | .list items => .ok items.length
  | .dict members => .ok members.length
  | _ => .error (.raised .type (txt "object of type '" ++ value.typeName ++ txt "' has no len()"))

end JsonValue

/-! ### `int()` and the text of values -/

/-- CPython's limit on conversions between integers and decimal text. -/
def maxIntDigits : Nat := 4300

def tooManyDigits : PyErr :=
  .raised .value (txt "Exceeds the limit (4300 digits) for integer string conversion; use sys.set_int_max_str_digits() to increase the limit")

/-- `str(i)`. -/
def intText (i : Int) : PyM Text := do
  let digits := decimal i.natAbs
  raiseIf (decide (maxIntDigits < digits.length)) tooManyDigits
  .ok ((if i < 0 then txt "-" else []) ++ digits)

/-- `str.isspace` of one character. -/
def isSpace (c : CodePoint) : Bool :=
  [(9, 13), (28, 32), (0x85, 0x85), (0xA0, 0xA0), (0x1680, 0x1680), (0x2000, 0x200A), (0x2028, 0x2029),
    (0x202F, 0x202F), (0x205F, 0x205F), (0x3000, 0x3000)].any (fun r => r.1 ≤ c.val && c.val ≤ r.2)

/-- The value of a decimal digit of any script. -/
def Interpreter.digitValue (I : Interpreter) (c : CodePoint) : Option Nat :=
  if 0x30 ≤ c.val ∧ c.val ≤ 0x39 then some (c.val - 0x30)
  else if c.val < 0x80 then none
  else (I.decimalValue c).map Fin.val

/-- The digits of an integer literal; underscores only between two digits. -/
def literalDigits (I : Interpreter) (afterDigit : Bool) : Text → Option (List Nat)
  | [] => if afterDigit then some [] else none
  | c :: rest =>
    match I.digitValue c with
    | some d => (literalDigits I true rest).map (d :: ·)
    | none => if afterDigit ∧ c = 0x5F then literalDigits I false rest else none

/-- The sign and the rest of a literal. -/
def splitSign (s : Text) : Bool × Text :=
  match s with
  | c :: rest => if c = 0x2D then (true, rest) else if c = 0x2B then (false, rest) else (false, s)
  | [] => (false, [])

/-- `int(value)`. -/
def Interpreter.toInt (I : Interpreter) (value : JsonValue) : PyM Int :=
  match value with
  | .int i => .ok i
  | .bool b => .ok (JsonValue.boolInt b)
  | .float f => match f with
    | .nan => .error (.raised .value (txt "cannot convert float NaN to integer"))
    | .inf _ => .error (.raised .overflow (txt "cannot convert float infinity to integer"))
    | .finite .. => .ok f.trunc
  | .str s =>
    let (negative, body) := splitSign ((s.dropWhile isSpace).reverse.dropWhile isSpace).reverse
    match literalDigits I false body with
    | none => .error (.raised .value (txt "invalid literal for int() with base 10"))
    | some digits => do
      raiseIf (decide (maxIntDigits < digits.length)) tooManyDigits
      let magnitude : Nat := digits.foldl (fun n d => 10 * n + d) 0
      .ok (if negative then -(magnitude : Int) else magnitude)
  | _ => .error (.raised .type (txt "int() argument must be a string, a bytes-like object or a real number, not '"
      ++ value.typeName ++ txt "'"))

/-- One character inside `repr(str)`. -/
def Interpreter.reprChar (I : Interpreter) (quote c : CodePoint) : Text :=
  if c = quote ∨ c = 0x5C then [0x5C, c]
  else if c = 0x09 then txt "\\t"
  else if c = 0x0A then txt "\\n"
  else if c = 0x0D then txt "\\r"
  else if c.val < 0x20 ∨ c = 0x7F then txt "\\x" ++ hex 2 c.val
  else if c.val < 0x7F then [c]
  else if I.isPrintable c then [c]
  else if c.val < 0x100 then txt "\\x" ++ hex 2 c.val
  else if c.val < 0x10000 then txt "\\u" ++ hex 4 c.val
  else txt "\\U" ++ hex 8 c.val

/-- `repr(str)`. -/
def Interpreter.reprStr (I : Interpreter) (s : Text) : Text :=
  let quote : CodePoint := if (0x27 : CodePoint) ∈ s ∧ (0x22 : CodePoint) ∉ s then 0x22 else 0x27
  [quote] ++ s.flatMap (I.reprChar quote) ++ [quote]

def joinWith (sep : Text) (parts : List Text) : Text := (parts.intersperse sep).flatten

/-- `repr` of a list of strings. -/
def Interpreter.reprStrs (I : Interpreter) (items : List Text) : Text :=
  txt "[" ++ joinWith (txt ", ") (items.map I.reprStr) ++ txt "]"

/-- `repr`, `room` levels of containers before the stack is exhausted. -/
def Interpreter.reprWithin (I : Interpreter) : Nat → JsonValue → PyM Text
  | _, .null => .ok (txt "None")
  | _, .bool b => .ok (if b then txt "True" else txt "False")
  | _, .int i => intText i
  | _, .float f => .ok f.repr
  | _, .str s => .ok (I.reprStr s)
  | 0, .list _ | 0, .dict _ => .error (.raised .recursion (txt "maximum recursion depth exceeded while getting the repr of an object"))
  | room + 1, .list items => do
    let parts ← collect (I.reprWithin room) items
    .ok (txt "[" ++ joinWith (txt ", ") parts ++ txt "]")
  | room + 1, .dict members => do
    let parts ← collect (fun m => do
      let v ← I.reprWithin room m.2
      .ok (I.reprStr m.1 ++ txt ": " ++ v)) members
    .ok (txt "\x7b" ++ joinWith (txt ", ") parts ++ txt "\x7d")

def Interpreter.repr (I : Interpreter) (value : JsonValue) : PyM Text := I.reprWithin I.reprDepth value

/-- `str(value)`. -/
def Interpreter.toStr (I : Interpreter) (value : JsonValue) : PyM Text :=
  match value with
  | .str s => .ok s
  | _ => I.repr value

end AitpVerifier
