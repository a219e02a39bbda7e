import Magicbox.Source.ConfigJson
import Magicbox.Source.Sampling
import Magicbox.Source.Store

/-!
# Requests with a content

server.cpp: what `ApplianceRuntime::request` takes from the body or the query of
a request, the checks in front of what it does with it, and the status with which
`submit` answers. A text is a list of bytes, each of them the character of its
code.

jsoncpp's reader is a parameter, and so is what start_capture does behind its
check of the name and what `NetworkController::apply` does.
-/

set_option autoImplicit false

namespace Magicbox.Source.Requests
open Library Library.Sqlite Json Config ConfigJson Store

/-! ## Bodies -/

/-- What jsoncpp's reader makes of a text. -/
inductive Parsed where
  | value (v : Value)
  | malformed (errors : String)
  /-- Nested beyond its stack limit. -/
  | nested
  deriving Repr

def parseJson (reader : String → Parsed) (input : String) : Except Exn Value :=
  match reader input with
  | .value v => .ok v
  | .malformed errors => .error (.invalidArgument ("Invalid JSON: " ++ errors))
  | .nested => .error (.runtimeError "Exceeded stackLimit in readValue().")

/-- The interface in the body of PUT /api/v1/capture. The body is const. -/
def captureBody (reader : String → Parsed) (body : String) : Except Exn String := do
  let body ← parseJson reader body
  let interface ← body.index "interface"
  if interface.isString then interface.asString
  else .error (.invalidArgument "interface must be a string")

/-- The configuration in the body of PUT /api/v1/config and of POST /api/v1/config/validate. -/
def configBody (reader : String → Parsed) (body : String) : Except Exn NetworkConfig := do
  configFromJson (← parseJson reader body)

/-! ## Queries -/

/-- `std::stoll`: the number, and the text behind what it consumed. `std::out_of_range` is a
`std::logic_error`. -/
def stoll (value : String) : Except Exn (Int64 × List Char) :=
  match Decimal.leading (value.toList.dropWhile Decimal.isSpace) with
  | none => .error (.invalidArgument "stoll")
  | some (n, rest) =>
    if fits n then .ok (Int64.ofInt n, rest) else .error (.logicError "stoll")

/-- A parameter that is absent is empty. -/
def number (value : String) (fallback : Int64) : Except Exn Int64 :=
  if value = "" then .ok fallback
  else do
    let (n, rest) ← stoll value
    if rest ≠ [] then .error (.invalidArgument "Invalid query integer") else .ok n

/-- `now_seconds`, from the nanoseconds of the system clock. -/
def nowSeconds (clock : Int64) : Int := clock.toInt.tdiv 1000000000

/-- The readings of the clock for the two arguments, and which of them is evaluated first: C++
leaves the order open. -/
structure Evaluation where
  fromClock : Int64
  toClock : Int64
  fromFirst : Bool

def fromNumber (e : Evaluation) (value : String) : Except Exn Int64 :=
  number value (Int64.ofInt (nowSeconds e.fromClock - 3600))

def toNumber (e : Evaluation) (value : String) : Except Exn Int64 :=
  number value (Int64.ofInt (nowSeconds e.toClock + 1))

/-- The arguments of the call of `history`. -/
def range (e : Evaluation) (from_ to_ : String) : Except Exn (Int64 × Int64) :=
  if e.fromFirst then do
    let first ← fromNumber e from_
    let last ← toNumber e to_
    return (first, last)
  else do
    let last ← toNumber e to_
    let first ← fromNumber e from_
    return (first, last)

def intervalNumber (value : String) : Except Exn Int64 := do
  let interval ← number value 60
  if interval ≠ 60 ∧ interval ≠ 300 ∧ interval ≠ 3600 then .error (.invalidArgument "Invalid interval")
  else .ok interval

/-- `stoll` consumes a text as a whole if the text is an integer of 64 bits. -/
theorem stoll_whole {value : String} {n : Int64} :
    stoll value = .ok (n, []) ↔
      Decimal.integer (value.toList.dropWhile Decimal.isSpace) = some n.toInt := by
  unfold stoll
  rw [← Decimal.leading_whole]
  constructor
  · intro h
    split at h
    · cases h
    · next m rest hleading =>
      split at h
      · next hfits =>
        obtain ⟨hlow, hhigh⟩ := fits_iff.mp hfits
        obtain ⟨rfl, rfl⟩ := Prod.mk.inj (Except.ok.inj h)
        rw [Int64.toInt_ofInt_of_le hlow hhigh]
        exact hleading
      · cases h
  · intro h
    have hfits : fits n.toInt = true := fits_iff.mpr ⟨n.le_toInt, n.toInt_lt⟩
    simp [h, hfits]

/-! ## Requests -/

inductive Request where
  | putCapture (body : String)
  | putConfig (body : String)
  | validateConfig (body : String)
  | history (interval from_ to_ : String)
  deriving DecidableEq, Repr

/-- What the requests do behind their checks. -/
structure Operations (σ ρ : Type) where
  startCapture : String → σ → Except Failure Value × σ
  apply : NetworkConfig → σ → Except Failure Value × σ
  samples : σ → Samples ρ
  doubles : Doubles ρ

variable {σ ρ : Type}

/-- A step that may fail before anything was done. -/
def guarded {α : Type} (x : Except Exn α) (s : σ) (f : α → Except Failure Value × σ) :
    Except Failure Value × σ :=
  match x with
  | .ok a => f a
  | .error e => (.error (.threw e), s)

/-- `start_capture`, and the snapshot behind it. -/
def startCapture (ops : Operations σ ρ) (name : String) (s : σ) : Except Failure Value × σ :=
  if !Sampling.validName name then
    (.error (.threw (.invalidArgument "Invalid capture interface")), s)
  else ops.startCapture name s

def validAnswer (c : NetworkConfig) : Value :=
  Value.null.set "valid" (.boolean true) |>.set "config" (configJson c)

def request (ops : Operations σ ρ) (reader : String → Parsed) (e : Evaluation) (s : σ) :
    Request → Except Failure Value × σ
  | .putCapture body => guarded (captureBody reader body) s fun name => startCapture ops name s
  | .putConfig body => guarded (configBody reader body) s fun c => ops.apply c s
  | .validateConfig body => guarded (configBody reader body) s fun c => (.ok (validAnswer c), s)
  | .history interval from_ to_ =>
    guarded (intervalNumber interval) s fun interval =>
      guarded (range e from_ to_) s fun ends =>
        (Store.history ops.doubles (ops.samples s) ends.1 ends.2 interval.toInt, s)

/-- The status of the answer. An undefined evaluation has none. -/
def status : Except Failure Value → Option Nat
  | .ok _ => some 200
  | .error (.threw (.invalidArgument _)) => some 422
  | .error (.threw _) => some 409
  | .error .undefined => none

end Magicbox.Source.Requests
