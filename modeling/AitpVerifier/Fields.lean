import AitpVerifier.Crypto
import AitpVerifier.Jcs

/-!
# Member-set, presence and type checks

The boundary conversions every artifact's verifier runs before it reads a
member. Each takes the caller's structural code; the unknown-member case has one
code of its own.
-/
namespace AitpVerifier

open PyText Checked

/-! ### Reading values -/

/-- `value.get(key, default)` on a value that should be a dict. -/
def JsonValue.attrGet (value : JsonValue) (key : Text) (default : JsonValue) : PyM JsonValue :=
  match value with
  | .dict members => .ok ((Members.get? members key).getD default)
  | _ => .error (.raised .attribute (txt "'" ++ value.typeName ++ txt "' object has no attribute 'get'"))

/-- `value[key]` on a value that should be a dict. -/
def JsonValue.item (value : JsonValue) (key : Text) : PyM JsonValue :=
  match value with
  | .dict members => Members.index members key
  | .str _ => .error (.raised .type (txt "string indices must be integers, not 'str'"))
  | .list _ => .error (.raised .type (txt "list indices must be integers or slices, not str"))
  | _ => .error (.raised .type (txt "'" ++ value.typeName ++ txt "' object is not subscriptable"))

/-! A member whose presence and type a check has settled is read with these. -/

/-- The text of a value checked to be a string. -/
def JsonValue.text : JsonValue → Text
  | .str s => s
  | _ => []

/-- The items of a value checked to be a list. -/
def JsonValue.items : JsonValue → List JsonValue
  | .list items => items
  | _ => []

/-- The members of a value checked to be an object. -/
def JsonValue.members : JsonValue → Members
  | .dict members => members
  | _ => []

/-- `value < bound` for a value checked to be an integer. -/
def JsonValue.ltInt (value : JsonValue) (bound : Int) : Bool :=
  match value with
  | .int i => decide (i < bound)
  | .float f => f.ltInt bound
  | _ => false

/-- A value used through a string method. -/
def JsonValue.asText (value : JsonValue) (method : Text) : PyM Text :=
  match value with
  | .str s => .ok s
  | _ => .error (.raised .attribute (txt "'" ++ value.typeName ++ txt "' object has no attribute '" ++ method ++ txt "'"))

@[simp] theorem JsonValue.asText_eq_ok (value : JsonValue) (method s : Text) :
    value.asText method = .ok s ↔ value = .str s := by
  cases value <;> simp [JsonValue.asText]

/-- `b64urlDecode` of a value that should be a string: any iterable passes the
alphabet test, and only a string the concatenation after it. -/
def JsonValue.b64urlDecode (value : JsonValue) : PyM Bytes :=
  match value with
  | .str s => AitpVerifier.b64urlDecode s
  | _ => do
    let items ← value.elements
    forEach (fun item => do
      raiseIf (!item.hashable) (JsonValue.unhashable item)
      raiseIf (!item.isIn (JsonValue.characters alphabet))
        (valueError (txt "input contains non-base64url characters (or '=' padding)"))) items
    .error (.raised .type (txt "unsupported operand type(s) for +: '" ++ value.typeName ++ txt "' and 'str'"))

theorem JsonValue.b64urlDecode_eq_ok {value : JsonValue} {data : Bytes} :
    value.b64urlDecode = .ok data ↔ ∃ s, value = .str s ∧ AitpVerifier.b64urlDecode s = .ok data := by
  cases value <;> simp [JsonValue.b64urlDecode, bind_eq_ok]

/-! ### Declared types -/

inductive PyType where
  | str | int | list | dict
  deriving DecidableEq, Repr

def PyType.text : PyType → Text
  | .str => txt "str"
  | .int => txt "int"
  | .list => txt "list"
  | .dict => txt "dict"

/-- `isinstance(value, type)`: `True` and `False` are ints. -/
def JsonValue.isInstance : JsonValue → PyType → Bool
  | .str _, .str | .int _, .int | .bool _, .int | .list _, .list | .dict _, .dict => true
  | _, _ => false

def JsonValue.isBool : JsonValue → Bool
  | .bool _ => true
  | _ => false

/-- `isinstance(value, float) and value.is_integer()`. -/
def JsonValue.isIntegralFloat : JsonValue → Bool
  | .float f => f.isInteger
  | _ => false

/-- What `checkTypes` admits for a member declared `type`. -/
def JsonValue.admits (value : JsonValue) (type : PyType) : Bool :=
  !value.isBool && (type == .int && value.isIntegralFloat || value.isInstance type)

variable (P : Platform)

/-- A cost-bounded rendering of a value for an error message. -/
def describeValue (value : JsonValue) : PyM Text :=
  match value with
  | .list _ | .dict _ => .ok (txt "<" ++ value.typeName ++ txt ">")
  | _ => P.repr value

/-- Python's order of strings: by code point. -/
def sortTexts (items : List Text) : List Text :=
  items.insertionSort (fun a b => a.map Fin.val ≤ b.map Fin.val)

/-- `{sorted(items)}` in a message. -/
def reprSorted (items : List Text) : Text := P.reprStrs (sortTexts items)

/-- The members of `obj` outside `allowed`. -/
def unknownMembers (obj : Members) (allowed : List Text) : List Text :=
  obj.names.filter (fun k => !allowed.contains k)

/-- Reject a member outside `allowed`; `shapeCode` is for a value that is no object. -/
def rejectUnknownFields (obj : JsonValue) (allowed : List Text) (shapeCode : String) (what : Text) : PyM Unit :=
  match obj with
  | .dict members =>
    let extra := unknownMembers members allowed
    raiseIf (!extra.isEmpty) (AitpError "UNKNOWN_FIELD" (what ++ txt " carries unrecognized field(s): " ++
      txt "[" ++ joinWith (txt ", ") (sortTexts (extra.map P.reprStr)) ++ txt "]"))
  | _ => .error (AitpError shapeCode (what ++ txt " is " ++ obj.typeName ++ txt ", not an object"))

/-- Reject an object without one of its required members. -/
def requireMembers (obj : Members) (required : List Text) (shapeCode : String) (what : Text) : PyM Unit :=
  let missing := required.filter (fun k => !obj.has k)
  raiseIf (!missing.isEmpty) (AitpError shapeCode
    (what ++ txt " is missing required member(s) " ++ P.reprStrs missing))

/-- One present member against its declared type. An integral float passes for an
integer, a boolean does not. -/
def checkType (value : JsonValue) (type : PyType) (key : Text) (shapeCode : String) (what : Text) : PyM Unit :=
  raiseIf (!value.admits type) (AitpError shapeCode
    (what ++ txt "." ++ key ++ txt " is " ++ value.typeName ++ txt ", not " ++ type.text))

/-- Reject a present member that is not of its declared type. -/
def checkTypes (obj : Members) (types : List (Text × PyType)) (shapeCode : String) (what : Text) : PyM Unit :=
  forEach (fun entry =>
    match obj.get? entry.1 with
    | none => .ok ()
    | some value => checkType value entry.2 entry.1 shapeCode what) types

/-- Canonicalize, with the structural code for what cannot be. -/
def canonicalBytes (value : JsonValue) (shapeCode : String) (what : Text) : PyM Bytes :=
  rescue (Jcs.canonicalize value) (fun e =>
    if e.isKind .jcs then some (AitpError shapeCode (what ++ txt " is not canonicalizable: " ++ e.text))
    else if e.isKind .recursion then some (AitpError shapeCode (txt "value is too deeply nested to canonicalize"))
    else none)

/-- An `except ValueError` clause that reports its own code. -/
def onValueError {α : Type} (x : PyM α) (code : String) (message : Text → Text) : PyM α :=
  rescue x (fun e => if e.isValueError then some (AitpError code (message e.text)) else none)

/-! ### What the checks establish -/

/-- Every present member is of its declared type; an absent one is no defect. -/
def WellTyped (obj : Members) (types : List (Text × PyType)) : Prop :=
  ∀ entry ∈ types, ∀ value, obj.get? entry.1 = some value → value.admits entry.2

/-- Required members are present and present members well typed. -/
structure Shaped (obj : Members) (required : List Text) (types : List (Text × PyType)) : Prop where
  present : ∀ key ∈ required, obj.has key
  typed : WellTyped obj types

theorem requireMembers_eq_ok {obj : Members} {required : List Text} {shapeCode : String} {what : Text} :
    requireMembers P obj required shapeCode what = .ok () ↔ ∀ key ∈ required, obj.has key := by
  simp [requireMembers, raiseIf_eq_ok]

theorem checkTypes_eq_ok {obj : Members} {types : List (Text × PyType)} {shapeCode : String} {what : Text} :
    checkTypes obj types shapeCode what = .ok () ↔ WellTyped obj types := by
  rw [checkTypes, forEach_eq_ok]
  refine forall₂_congr fun entry _ => ?_
  cases h : obj.get? entry.1 with
  | none => simp
  | some value => simp [checkType, raiseIf_eq_ok]

theorem rejectUnknownFields_eq_ok {obj : JsonValue} {allowed : List Text} {shapeCode : String} {what : Text} :
    rejectUnknownFields P obj allowed shapeCode what = .ok () ↔
      ∃ members, obj = .dict members ∧ ∀ key ∈ Members.names members, key ∈ allowed := by
  cases obj with
  | dict members => simp [rejectUnknownFields, raiseIf_eq_ok, unknownMembers]
  | _ => simp [rejectUnknownFields]

theorem canonicalBytes_eq_ok {value : JsonValue} {shapeCode : String} {what : Text} {b : Bytes} :
    canonicalBytes value shapeCode what = .ok b ↔ Jcs.canonicalize value = .ok b := rescue_eq_ok

theorem onValueError_eq_ok {α : Type} {x : PyM α} {code : String} {message : Text → Text} {a : α} :
    onValueError x code message = .ok a ↔ x = .ok a := rescue_eq_ok

theorem Members.get_of_get? {obj : Members} {key : Text} {value : JsonValue} (h : obj.get? key = some value) :
    obj.get key = value := by
  simp [Members.get, h]

theorem Members.has_of_get {obj : Members} {key : Text} (h : obj.get key ≠ .null) : obj.has key = true := by
  rw [Members.has]
  cases hget : obj.get? key with
  | none =>
    rw [Members.get, hget] at h
    exact absurd rfl h
  | some value => rfl

theorem Members.has_of_get_str {obj : Members} {key s : Text} (h : obj.get key = .str s) : obj.has key = true := by
  apply Members.has_of_get
  rw [h]
  exact JsonValue.noConfusion

theorem Members.get?_of_has {obj : Members} {key : Text} (h : obj.has key) : obj.get? key = some (obj.get key) := by
  obtain ⟨value, hv⟩ := Option.isSome_iff_exists.mp h
  rw [hv, Members.get_of_get? hv]

section Typed

variable {obj : Members} {required : List Text} {types : List (Text × PyType)} {k : Text}

theorem Shaped.admits (h : Shaped obj required types) {type : PyType} (hr : k ∈ required)
    (ht : (k, type) ∈ types) : (obj.get k).admits type :=
  h.typed (k, type) ht _ (Members.get?_of_has (h.present k hr))

theorem Shaped.str (h : Shaped obj required types) (hr : k ∈ required) (ht : (k, .str) ∈ types) :
    ∃ s, obj.get k = .str s := by
  have hv := h.admits hr ht
  cases hg : obj.get k <;> simp_all [JsonValue.admits, JsonValue.isInstance, JsonValue.isBool]

theorem Shaped.list (h : Shaped obj required types) (hr : k ∈ required) (ht : (k, .list) ∈ types) :
    ∃ items, obj.get k = .list items := by
  have hv := h.admits hr ht
  cases hg : obj.get k <;> simp_all [JsonValue.admits, JsonValue.isInstance, JsonValue.isBool]

theorem Shaped.dict (h : Shaped obj required types) (hr : k ∈ required) (ht : (k, .dict) ∈ types) :
    ∃ members, obj.get k = .dict members := by
  have hv := h.admits hr ht
  cases hg : obj.get k <;> simp_all [JsonValue.admits, JsonValue.isInstance, JsonValue.isBool]

/-- What passes as an integer is one, or a float with an integral value. -/
theorem Shaped.int (h : Shaped obj required types) (hr : k ∈ required) (ht : (k, .int) ∈ types) :
    (∃ i, obj.get k = .int i) ∨ ∃ f : Binary64, obj.get k = .float f ∧ f.isInteger := by
  have hv := h.admits hr ht
  cases hg : obj.get k <;>
    simp_all [JsonValue.admits, JsonValue.isInstance, JsonValue.isBool, JsonValue.isIntegralFloat]

end Typed

/-- The integer a value that passed as one denotes. -/
def JsonValue.intValue : JsonValue → Int
  | .int i => i
  | .float f => f.trunc
  | _ => 0

/-- `int(value)` cannot fail on a value that passed as an integer. -/
theorem toInt_of_admits {value : JsonValue} (h : value.admits .int) : P.toInt value = .ok value.intValue := by
  cases value with
  | int i => rfl
  | float f =>
    cases f with
    | finite negative mantissa scale hc => rfl
    | _ => simp [JsonValue.admits, JsonValue.isInstance, JsonValue.isBool, JsonValue.isIntegralFloat,
        Binary64.isInteger, Binary64.isFinite] at h
  | _ => simp [JsonValue.admits, JsonValue.isInstance, JsonValue.isBool, JsonValue.isIntegralFloat] at h

theorem JsonValue.isStr_iff {value : JsonValue} : value.isStr = true ↔ ∃ s, value = .str s := by
  cases value <;> simp [JsonValue.isStr]

/-- Among strings, Python's `issubset` is inclusion. -/
theorem JsonValue.subset_iff {a b : List JsonValue} (ha : a.all JsonValue.isStr) :
    JsonValue.subset a b = true ↔ a ⊆ b := by
  simp only [JsonValue.subset, JsonValue.isIn, List.all_eq_true, List.any_eq_true] at ha ⊢
  refine forall₂_congr fun item hi => ?_
  obtain ⟨s, rfl⟩ := JsonValue.isStr_iff.mp (ha item hi)
  simp

end AitpVerifier
