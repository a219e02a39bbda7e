import Mathlib.Data.List.Basic

/-!
# JSON values as jsoncpp holds them

`Json::Value` distinguishes signed, unsigned and floating numbers, and its
objects are maps ordered by member name. A double is kept as the rational it
denotes. The text form is not modelled: a value that is written with
`json_text` and read back with `parse_json` is taken to be the same value.

A member that is absent and a member that is null read alike here, so the null
member that a non-const `operator[]` inserts while reading is left out.
-/

set_option autoImplicit false

namespace Magicbox.Source.Json

/-- The exceptions the program throws, with their texts. `logicError` is what
jsoncpp throws when a value is not convertible to the requested type. -/
inductive Exn where
  | invalidArgument (what : String)
  | runtimeError (what : String)
  | logicError (what : String)
  deriving DecidableEq, Repr

def Exn.what : Exn → String
  | .invalidArgument what => what
  | .runtimeError what => what
  | .logicError what => what

inductive Value where
  | null
  | boolean (b : Bool)
  | int (i : Int)
  | uint (n : Nat)
  | real (r : Rat)
  | string (s : String)
  | array (items : List Value)
  | object (members : List (String × Value))
  deriving Repr

namespace Value

def lookup (name : String) : List (String × Value) → Option Value
  | [] => none
  | (key, v) :: rest => if key = name then some v else lookup name rest

/-- Insertion into the ordered map: replace a member in place, or add it where
its name belongs. -/
def insert (name : String) (v : Value) : List (String × Value) → List (String × Value)
  | [] => [(name, v)]
  | (key, w) :: rest =>
    if key = name then (name, v) :: rest
    else if name < key then (name, v) :: (key, w) :: rest
    else (key, w) :: insert name v rest

def isObject : Value → Bool
  | object _ => true
  | _ => false

def isNull : Value → Bool
  | null => true
  | _ => false

def isString : Value → Bool
  | string _ => true
  | _ => false

def isMember (v : Value) (name : String) : Bool :=
  match v with
  | object members => (lookup name members).isSome
  | _ => false

def getMemberNames : Value → List String
  | object members => members.map Prod.fst
  | _ => []

/-- `v[name]` on an object or null value. -/
def get (v : Value) (name : String) : Value :=
  match v with
  | object members => (lookup name members).getD null
  | _ => null

/-- `v[name]`, which throws on a value that is neither an object nor null. -/
def index (v : Value) (name : String) : Except Exn Value :=
  match v with
  | object _ => .ok (v.get name)
  | null => .ok null
  | _ => .error (.logicError "in Json::Value::operator[]: requires objectValue")

/-- `v[name] = x`; a null value becomes an object. -/
def set (v : Value) (name : String) (x : Value) : Value :=
  match v with
  | object members => object (insert name x members)
  | _ => object [(name, x)]

/-- The elements a range-based `for` visits. -/
def elements : Value → List Value
  | array items => items
  | object members => members.map Prod.snd
  | _ => []

/-- `empty()`: null, or an array or object without elements. -/
def empty : Value → Bool
  | null => true
  | array items => items.isEmpty
  | object members => members.isEmpty
  | _ => false

/-- Comparison with a string literal. -/
def eqString (v : Value) (s : String) : Bool :=
  match v with
  | string t => t == s
  | _ => false

def maxUInt : Nat := 4294967295

/-- Whether a number is an integer in the range of `unsigned`. -/
def isUInt : Value → Bool
  | int i => 0 ≤ i && i ≤ maxUInt
  | uint n => n ≤ maxUInt
  | real r => 0 ≤ r && r ≤ maxUInt && r.den == 1
  | _ => false

def asUInt : Value → Except Exn Nat
  | null => .ok 0
  | boolean b => .ok b.toNat
  | int i => if 0 ≤ i ∧ i ≤ maxUInt then .ok i.toNat
      else .error (.logicError "LargestInt out of UInt range")
  | uint n => if n ≤ maxUInt then .ok n else .error (.logicError "LargestUInt out of UInt range")
  | real r => if 0 ≤ r ∧ r ≤ maxUInt then .ok r.floor.toNat
      else .error (.logicError "double out of UInt range")
  | _ => .error (.logicError "Value is not convertible to UInt.")

def maxInt64 : Int := 9223372036854775807

/-- `asInt64`. The double next to `maxInt64` passes the check and wraps around. -/
def asInt64 : Value → Except Exn Int
  | null => .ok 0
  | boolean b => .ok b.toNat
  | int i => .ok i
  | uint n => if n ≤ maxInt64 then .ok n else .error (.logicError "LargestUInt out of Int64 range")
  | real r => if -maxInt64 - 1 ≤ r ∧ r ≤ maxInt64 + 1 then .ok (Int64.ofInt (r.num.tdiv r.den)).toInt
      else .error (.logicError "double out of Int64 range")
  | _ => .error (.logicError "Value is not convertible to Int64.")

/-- `asString`. The text of a double is not modelled here: where the program may convert one, its
text is a parameter. -/
def asString : Value → Except Exn String
  | null => .ok ""
  | boolean b => .ok (if b then "true" else "false")
  | int i => .ok (toString i)
  | uint n => .ok (toString n)
  | string s => .ok s
  | _ => .error (.logicError "Type is not convertible to string")

@[simp] theorem lookup_insert_self (name : String) (v : Value) (members : List (String × Value)) :
    lookup name (insert name v members) = some v := by
  induction members with
  | nil => simp [insert, lookup]
  | cons head rest ih =>
    obtain ⟨key, w⟩ := head
    unfold insert
    split
    · simp [lookup]
    · next hne =>
      split
      · simp [lookup]
      · simp [lookup, hne, ih]

@[simp] theorem lookup_insert_of_ne {name other : String} (h : other ≠ name) (v : Value)
    (members : List (String × Value)) :
    lookup name (insert other v members) = lookup name members := by
  induction members with
  | nil => simp [insert, lookup, h]
  | cons head rest ih =>
    obtain ⟨key, w⟩ := head
    unfold insert
    split
    · next heq => subst heq; simp [lookup, h]
    · split
      · simp [lookup, h]
      · simp [lookup, ih]

@[simp] theorem isObject_set (v : Value) (name : String) (x : Value) :
    (v.set name x).isObject = true := by
  cases v <;> rfl

@[simp] theorem get_set_self (v : Value) (name : String) (x : Value) :
    (v.set name x).get name = x := by
  cases v <;> simp [set, get, lookup]

@[simp] theorem get_set_of_ne (v : Value) {name other : String} (h : other ≠ name) (x : Value) :
    (v.set other x).get name = v.get name := by
  cases v <;> simp [set, get, lookup, h]

@[simp] theorem isMember_set_self (v : Value) (name : String) (x : Value) :
    (v.set name x).isMember name = true := by
  cases v <;> simp [set, isMember, lookup]

@[simp] theorem index_set (v : Value) (name other : String) (x : Value) :
    (v.set name x).index other = .ok ((v.set name x).get other) := by
  cases v <;> rfl

theorem index_of_isObject {v : Value} (h : v.isObject = true) (name : String) :
    v.index name = .ok (v.get name) := by
  cases v <;> first | rfl | cases h

@[simp] theorem eqString_string (s t : String) : (string s).eqString t = (s == t) := rfl

theorem eqString_iff {v : Value} {s : String} : v.eqString s = true ↔ v = string s := by
  cases v <;> simp [eqString]

@[simp] theorem asString_string (s : String) : (string s).asString = .ok s := rfl

end Value

end Magicbox.Source.Json
