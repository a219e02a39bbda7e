import Magicbox.Source.Sampling

/-!
# Resumption

server.cpp: the constructor of `ApplianceRuntime`, as far as it captures, and the
processes that serve one database one after the other. A process may end at any
point of its run. The setting is written by one statement of SQLite, so that a
process that ends there leaves the old setting or the new one.
-/

set_option autoImplicit false

namespace Magicbox.Source.Resumption
open Sampling Library.Runs

/-- How the calls of `start_capture` behind its check of the name end, an error with its text. -/
structure Outcomes where
  opens : Except String Unit := .ok ()
  starts : Except String Unit := .ok ()
  stores : Except String Unit := .ok ()
  now : Int := 0

/-- The members before any capture, with the setting of the store. -/
def loaded (saved : String) : Runtime := { idle with stored := saved }

/-- `start_capture` where there is no engine. -/
def startCapture (r : Runtime) (name : String) (o : Outcomes) : Except String Runtime := do
  if !validName name then throw "Invalid capture interface"
  o.opens
  o.starts
  o.stores
  return r.install name o.now

/-- The constructor, with the option and the setting `capture_interface`, which is empty where the
store has none. The runtime comes with its `capture_error_`. -/
def construct (option saved : String) (o : Outcomes) : Except String (Runtime × String) :=
  if option ≠ "" then (startCapture (loaded saved) option o).map fun r => (r, "")
  else if saved ≠ "" then
    match startCapture (loaded saved) saved o with
    | .ok r => .ok (r, "")
    | .error error => .ok (loaded saved, error)
  else .ok (loaded saved, "")

/-- A process on the database. -/
structure Life where
  option : String
  outcomes : Outcomes
  events : List Event
  /-- It ends behind the write of a setting, with the request not answered. -/
  torn : Bool

/-- What a request that is at its end sets. -/
def asked : Control → Option String
  | .closing (.replace name) => some name
  | .closing .remove => some ""
  | _ => none

/-- The setting that a process ends with. -/
def Life.setting (l : Life) (r : Runtime) : String :=
  let last := run Runtime.step r l.events
  if l.torn then (asked last.control).getD last.stored else last.stored

/-- What is stored behind the process. -/
def Life.leave (saved : String) (l : Life) : String :=
  match construct l.option saved l.outcomes with
  | .ok (r, _) => l.setting r
  | .error _ => saved

/-- What is stored behind the processes, on a new database. -/
def database (lives : List Life) : String := run Life.leave "" lives

end Magicbox.Source.Resumption
