import Magicbox.Library.Decimal
import Magicbox.Library.Grouping
import Magicbox.Library.Sqlite
import Magicbox.Source.Json

/-!
# The samples of the store

store.cpp: `Store::sample` and `Store::history`. The table is an ordered map over
its primary key. A statement is the function on the table that its SQL text
denotes; the texts are short and stand next to the definitions.

The text of `details` is not modelled: what `json_extract` finds in it is what the
JSON value has there.
-/

set_option autoImplicit false

namespace Magicbox.Source.Store
open Library Library.Grouping Library.Sqlite Json

/-! ## samples -/

/-- A row of `samples`, its key `ts` apart. -/
structure Sample (ρ : Type) where
  packets : Cell ρ
  bytes : Cell ρ
  details : Value

abbrev Samples (ρ : Type) := OrderedMap Int (Sample ρ)

/-- The arguments of `Store::sample`. -/
structure Call where
  ts : Int
  packets : UInt64
  bytes : UInt64
  details : Value

/-- `static_cast<std::int64_t>` and the binding of the result. -/
def bound {ρ : Type} (n : UInt64) : Cell ρ := .integer n.toInt64.toInt

variable {ρ : Type}

/-- INSERT INTO samples … ON CONFLICT(ts) DO UPDATE SET packets=packets+excluded.packets,
bytes=bytes+excluded.bytes,details=excluded.details -/
def insertSample (D : Doubles ρ) (t : Samples ρ) (c : Call) : Samples ρ :=
  t.alter c.ts fun row =>
    match row with
    | none => ⟨bound c.packets, bound c.bytes, c.details⟩
    | some old => ⟨old.packets.plus D (bound c.packets), old.bytes.plus D (bound c.bytes), c.details⟩

/-- Seven days. -/
def retention : Int := 7 * 86400

/-- DELETE FROM samples WHERE ts < ? -/
def deleteBefore (t : Samples ρ) (oldest : Int) : Samples ρ := t.filter fun ts => oldest ≤ ts

def sample (D : Doubles ρ) (t : Samples ρ) (c : Call) : Samples ρ :=
  deleteBefore (insertSample D t c) (c.ts - retention)

/-! ## history -/

/-- How a call ends that does not return: by an exception, or in a signed overflow, whose
behaviour is undefined. -/
inductive Failure where
  | threw (e : Exn)
  | undefined
  deriving DecidableEq, Repr

/-- The check of `history`, its operands from left to right. -/
def checkHistory (from_ to_ : Int64) (interval : Int) : Except Failure Unit :=
  let rejected : Failure := .threw (.invalidArgument
    "History requires interval 60/300/3600 and a range up to seven days")
  if interval ≠ 60 ∧ interval ≠ 300 ∧ interval ≠ 3600 then .error rejected
  else if to_ ≤ from_ then .error rejected
  else if !fits (to_.toInt - from_.toInt) then .error .undefined
  else if to_.toInt - from_.toInt > retention then .error rejected
  else .ok ()

theorem interval_accepted {interval : Int} :
    ¬ (interval ≠ 60 ∧ interval ≠ 300 ∧ interval ≠ 3600) ↔
      interval = 60 ∨ interval = 300 ∨ interval = 3600 := by
  omega

/-- (ts / ?) * ? -/
def bucket (interval ts : Int) : Int := ts.tdiv interval * interval

/-- The protocols that `history` asks for. -/
def protocols : List String := ["tcp", "udp", "icmp", "other"]

/-- What SUM makes of COALESCE(json_extract(details,'$.protocols.…'),0). The text of an array or
an object begins with no number. -/
def protocolCell (D : Doubles ρ) (protocol : String) (details : Value) : Cell ρ :=
  match (details.get "protocols").get protocol with
  | .null => .integer 0
  | .boolean b => .integer b.toNat
  | .int n => .integer n
  | .uint n => if fits n then .integer n else .real (D.ofInt n)
  | .real r => .real (D.ofRat r)
  | .string text =>
    match Decimal.integer (Decimal.trim text.toList) with
    | some n => if fits n then .integer n else .real (D.ofText text)
    | none => .real (D.ofText text)
  | .array _ => .real (D.ofInt 0)
  | .object _ => .real (D.ofInt 0)

/-- A row of the result, as `sqlite3_column_int64` reads it. -/
structure Columns where
  timestamp : Int
  packets : Int
  bytes : Int
  count : Int
  protocols : List Int
  deriving DecidableEq, Repr

def columnSum (D : Doubles ρ) (column : List (Cell ρ)) : Except Failure Int :=
  match Cell.sum D column with
  | some total => .ok (total.int64 D)
  | none => .error (.threw (.runtimeError "integer overflow"))

def columns (D : Doubles ρ) (g : Int × List (Int × Sample ρ)) : Except Failure Columns := do
  let packets ← columnSum D (g.2.map (·.2.packets))
  let bytes ← columnSum D (g.2.map (·.2.bytes))
  let counts ← protocols.mapM fun protocol =>
    columnSum D (g.2.map fun row => protocolCell D protocol row.2.details)
  return ⟨g.1, packets, bytes, g.2.length, counts⟩

/-- WHERE ts>=? AND ts<? -/
def rowsBetween (t : Samples ρ) (from_ to_ : Int) : List (Int × Sample ρ) :=
  t.entries.filter fun row => from_ ≤ row.1 && row.1 < to_

/-- GROUP BY 1 ORDER BY 1 -/
def buckets (t : Samples ρ) (from_ to_ interval : Int) : List (Int × List (Int × Sample ρ)) :=
  (group (fun row => bucket interval row.1) (rowsBetween t from_ to_)).entries

/-- A row of the answer. -/
def rowJson (r : Columns) : Value :=
  Value.null.set "timestamp" (.int r.timestamp)
    |>.set "packets" (.string (toString r.packets))
    |>.set "wire_bytes" (.string (toString r.bytes))
    |>.set "samples" (.int r.count)
    |>.set "protocols" ((protocols.zip r.protocols).foldl
        (fun v entry => v.set entry.1 (.string (toString entry.2))) .null)

/-- The query of `history`, LIMIT 1000. -/
def select (D : Doubles ρ) (t : Samples ρ) (from_ to_ interval : Int) :
    Except Failure (List Columns) :=
  ((buckets t from_ to_ interval).take 1000).mapM (columns D)

def history (D : Doubles ρ) (t : Samples ρ) (from_ to_ : Int64) (interval : Int) :
    Except Failure Value := do
  checkHistory from_ to_ interval
  let rows ← select D t from_.toInt to_.toInt interval
  return .array (rows.map rowJson)

end Magicbox.Source.Store
