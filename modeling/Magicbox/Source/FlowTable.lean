import Magicbox.Library.OrderedMap
import Magicbox.Library.Sqlite
import Magicbox.Source.Json

/-!
# The flows of the store

store.cpp: `Store::record_flows`, with its statements in the order in which it
makes them, and `Store::connections`. The table is an ordered map over its
primary key. Every call of SQLite that writes can fail, and so can every
conversion of a member. The text of `metadata` is read back as what was written.
-/

set_option autoImplicit false

namespace Magicbox.Source.FlowTable
open Library Library.Crash Library.Sqlite Json

variable {ρ : Type}

/-- A row of `flows`, its key apart. -/
structure Row (ρ : Type) where
  firstSeen : Int
  lastSeen : Int
  packets : Cell ρ
  bytes : Cell ρ
  metadata : Value

abbrev Table (ρ : Type) := OrderedMap String (Row ρ)

/-- ORDER BY last_seen DESC, which leaves the order of equal values open. -/
structure Ranking (ρ : Type) where
  rank : Table ρ → List (String × Row ρ)
  perm : ∀ t, (rank t).Perm t.entries
  ordered : ∀ t, (rank t).Pairwise fun a b => b.2.lastSeen ≤ a.2.lastSeen

/-- What a database does that no result depends on. -/
structure Database (ρ : Type) where
  doubles : Doubles ρ
  ranking : Ranking ρ
  /-- The text of a double that is converted to a string. -/
  doubleText : Rat → String

/-- `asString`. -/
def Database.asString (db : Database ρ) : Value → Except Exn String
  | .real r => .ok (db.doubleText r)
  | v => v.asString

/-- The values that are bound for a flow. -/
structure Entry where
  key : String
  firstSeen : Int
  lastSeen : Int
  packets : Int
  bytes : Int
  metadata : Value

/-- INSERT INTO flows … ON CONFLICT(key) DO UPDATE SET last_seen=excluded.last_seen,
packets=packets+excluded.packets,bytes=bytes+excluded.bytes,metadata=excluded.metadata -/
def upsert (D : Doubles ρ) (t : Table ρ) (e : Entry) : Table ρ :=
  t.alter e.key fun row =>
    match row with
    | none => ⟨e.firstSeen, e.lastSeen, .integer e.packets, .integer e.bytes, e.metadata⟩
    | some old => ⟨old.firstSeen, e.lastSeen, old.packets.plus D (.integer e.packets),
        old.bytes.plus D (.integer e.bytes), e.metadata⟩

/-- The oldest `last_seen` that is kept, in milliseconds. -/
def horizon (now : Int) : Int := (now - 604800) * 1000

/-- DELETE FROM flows WHERE last_seen < (strftime('%s','now')-604800)*1000 -/
def deleteOlder (now : Int) (t : Table ρ) : Table ρ :=
  t.filterValues fun row => horizon now ≤ row.lastSeen

def maxFlows : Nat := 10000

/-- DELETE FROM flows WHERE key IN
(SELECT key FROM flows ORDER BY last_seen DESC LIMIT -1 OFFSET 10000) -/
def deleteBeyond (ranking : Ranking ρ) (t : Table ρ) : Table ρ :=
  t.filter fun key => !(((ranking.rank t).drop maxFlows).map (·.1)).contains key

/-- The body of the loop. -/
def recordFlow (db : Database ρ) (flow : Value) : Program (Connection (Table ρ)) Exn Unit := do
  call Exn.runtimeError id
  let key ← liftExcept (flow.index "key" >>= db.asString)
  call Exn.runtimeError id
  let firstSeen ← liftExcept (flow.index "first_seen" >>= Value.asInt64)
  call Exn.runtimeError id
  let lastSeen ← liftExcept (flow.index "timestamp_ms" >>= Value.asInt64)
  call Exn.runtimeError id
  let packets ← liftExcept (flow.index "packets" >>= Value.asInt64)
  call Exn.runtimeError id
  let bytes ← liftExcept (flow.index "bytes" >>= Value.asInt64)
  call Exn.runtimeError id
  call Exn.runtimeError id
  call Exn.runtimeError (Connection.write fun t =>
    upsert db.doubles t ⟨key, firstSeen, lastSeen, packets, bytes, flow⟩)

def recordFlows (db : Database ρ) (now : Int) (flows : Value) :
    Program (Connection (Table ρ)) Exn Unit :=
  transaction Exn.runtimeError do
    flows.elements.forM (recordFlow db)
    call Exn.runtimeError (Connection.write (deleteOlder now))
    call Exn.runtimeError (Connection.write (deleteBeyond db.ranking))

/-- `row[name] = x`, where the row may be anything that was stored. -/
def assignMember (row : Value) (name : String) (x : Value) : Except Exn Value :=
  if row.isObject || row.isNull then .ok (row.set name x)
  else .error (.logicError "in Json::Value::resolveReference(): requires objectValue")

/-- A row of the answer. -/
def connectionRow (D : Doubles ρ) (row : Row ρ) : Except Exn Value := do
  let v ← assignMember row.metadata "first_seen" (.int row.firstSeen)
  let v ← assignMember v "last_seen" (.int row.lastSeen)
  let v ← assignMember v "packets" (.string (toString (row.packets.int64 D)))
  assignMember v "bytes" (.string (toString (row.bytes.int64 D)))

/-- SELECT first_seen,last_seen,packets,bytes,metadata FROM flows ORDER BY last_seen DESC LIMIT 200 -/
def connections (db : Database ρ) (t : Table ρ) : Except Exn Value := do
  let rows ← ((db.ranking.rank t).take 200).mapM fun e => connectionRow db.doubles e.2
  return .array rows

end Magicbox.Source.FlowTable
