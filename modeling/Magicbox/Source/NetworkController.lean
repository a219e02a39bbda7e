import Magicbox.Library.Crash
import Magicbox.Library.Decimal
import Magicbox.Source.ConfigJson
import Magicbox.Source.Netns

/-!
# The network controller

network.cpp: the functions that talk to the kernel, and `NetworkController`.

A run is played against a supply of answers. Each netlink message, sysctl write
and nft batch takes one kernel answer, each listing and each file read one
probe answer, each `Store::put` one journal answer, and each reading of the
steady clock the time that passed since the last one. An answer lets the step
through, refuses it before it had an effect, or loses the reply of a step that
did take effect, so that the caller sees a failure. A supply that has run out
cuts the process at that point: the states in which some supply leaves an
operation are exactly the states between two consecutive steps.

A name is looked up through a socket of its own, and where that cannot be opened
or its ioctl fails, `if_nametoindex` returns 0 as for a name that is no link.
`lookups` says which calls go through; behind its end they all do.

`log` records what was asked and answered. The program never reads it.
-/

set_option autoImplicit false

namespace Magicbox.Source.NetworkController
open Library.Crash Json Config ConfigJson Nftables Netns

inductive Verdict where
  | done
  | refused (what : String)
  | lost (what : String)
  deriving DecidableEq, Repr

structure Supply where
  clock : List Nat := []
  probes : List Verdict := []
  kernel : List Verdict := []
  puts : List Verdict := []
  lookups : List Bool := []
  deriving DecidableEq, Repr

/-- `Store`: the settings table. -/
structure Store where
  rows : String → Option Value

/-- `Store::get`: null when the key has no row. -/
def Store.get (s : Store) (key : String) : Value := (s.rows key).getD .null

def Store.put (s : Store) (key : String) (value : Value) : Store :=
  ⟨fun k => if k = key then some value else s.rows k⟩

@[simp] theorem Store.get_put (s : Store) (key : String) (value : Value) :
    (s.put key value).get key = value := by
  simp [Store.get, Store.put]

/-- The restoration steps of `restore()`, one per `attempt`. -/
inductive Step where
  | swapGuard
  | dropRule
  | dropGatewayRoute
  | dropLinkRoute
  | dropOuterAddress
  | dropInnerAddress
  | dropVlan
  | dropTranslation
  | resetForward
  | resetRpFilterAll
  | resetPort (info : Value)
  | dropGuard

inductive Act where
  /-- `apply` passed its last check; the kernel is the one it captured its baseline from. -/
  | admitted (c : NetworkConfig) (kernel : Kernel)
  /-- `restore` read its configuration; the supply is the one it is about to use. -/
  | restoring (c : NetworkConfig) (kernel : Kernel) (supply : Supply)
  | attempted (step : Step)
  /-- `restore` asked whether a link is there, and was told `found`. -/
  | lookedUp (name : String) (found present : Bool)
  /-- `restore` returned, with the kernel as it left it. -/
  | restored (kernel : Kernel)
  | requested (r : Request) (answer : Verdict)
  | journaled (value : Value) (answer : Verdict)

structure World where
  kernel : Kernel
  store : Store
  clock : Nat := 0
  supply : Supply := {}
  log : List Act := []
  enabled : Bool := true
  state_ : Value := .null
  deadline_ : Nat := 0

abbrev Controller (α : Type) : Type := Program World Exn α

def note (act : Act) : Controller Unit := update fun w => { w with log := w.log ++ [act] }

/-- `steady_clock::now()`, in nanoseconds. -/
def steadyNow : Controller Nat := fun w =>
  match w.supply.clock with
  | [] => (.crashed, w)
  | elapsed :: rest =>
    (.returned (w.clock + elapsed),
      { w with clock := w.clock + elapsed, supply := { w.supply with clock := rest } })

/-- A listing command or a file read. It changes nothing, whatever its answer. -/
def probe {α : Type} (f : Kernel → Except Exn α) : Controller α := fun w =>
  match w.supply.probes with
  | [] => (.crashed, w)
  | .done :: rest => liftExcept (f w.kernel) { w with supply := { w.supply with probes := rest } }
  | .refused what :: rest | .lost what :: rest =>
    (.threw (.runtimeError what), { w with supply := { w.supply with probes := rest } })

/-- A request to the kernel; the result is the error it answered with, if any. -/
def request (r : Request) : Controller (Option Errno) := fun w =>
  match w.supply.kernel with
  | [] => (.crashed, w)
  | answer :: rest =>
    let w' := { w with supply := { w.supply with kernel := rest },
                       log := w.log ++ [.requested r answer] }
    match answer with
    | .done =>
      match w.kernel.serve r with
      | .ok k => (.returned none, { w' with kernel := k })
      | .error errno => (.returned (some errno), w')
    | .refused what => (.threw (.runtimeError what), w')
    | .lost what => (.threw (.runtimeError what), { w' with kernel := w.kernel.after r })

/-- `store_.put("network", state_)`. -/
def putState : Controller Unit := fun w =>
  match w.supply.puts with
  | [] => (.crashed, w)
  | answer :: rest =>
    let w' := { w with supply := { w.supply with puts := rest },
                       log := w.log ++ [.journaled w.state_ answer] }
    match answer with
    | .done => (.returned (), { w' with store := w.store.put "network" w.state_ })
    | .refused what => (.threw (.runtimeError what), w')
    | .lost what =>
      (.threw (.runtimeError what), { w' with store := w.store.put "network" w.state_ })

/-! ## Kernel functions -/

/-- `if_nametoindex`, as a caller takes it who only tests for 0: whether the name is a link. A call
that fails says no. -/
def ifNametoindex (name : String) : Controller Bool := fun w =>
  match w.supply.lookups with
  | [] => (.returned (w.kernel.present name), w)
  | ok :: rest =>
    (.returned (ok && w.kernel.present name), { w with supply := { w.supply with lookups := rest } })

/-- `index_of`. The link stands for its index. A call of `if_nametoindex` that fails makes it throw
as for a missing link, before anything is sent; that is what a refused answer to the message, or to
the listing that follows, does. -/
def indexOf (name : String) : Controller Unit := do
  let present ← read fun w => w.kernel.present name
  if present then pure () else raise (.runtimeError ("Missing interface " ++ name))

/-- `ipv4`. -/
def ipv4 (value : String) : Except Exn (BitVec 32) :=
  match inetPton (cStr value) with
  | some a => .ok a
  | none => .error (.invalidArgument "Invalid IPv4")

/-- `netlink`: `fill` builds the message and may throw before anything is sent. -/
def netlink (fill : Controller Request) (missingOk : Bool) : Controller Unit := do
  let r ← fill
  match ← request r with
  | none => pure ()
  | some errno =>
    if missingOk && errno.missing then pure ()
    else raise (.runtimeError ("Netlink: " ++ errno.text))

def writeFile (file : Sysctl) (value : String) : Controller Unit := do
  match ← request (.write file value) with
  | none => pure ()
  | some _ => raise (.runtimeError ("Cannot write " ++ file.path))

def readFile (file : Sysctl) : Controller String :=
  probe fun k =>
    match k.readSysctl file with
    | some value => .ok value
    | none => .error (.runtimeError ("Cannot read " ++ file.path))

/-- `command({"nft", …})` with a batch that changes the tables. -/
def nft (batch : Batch) : Controller Unit := do
  match ← request (.nft batch) with
  | none => pure ()
  | some errno => raise (.runtimeError ("nft failed: " ++ errno.text))

/-- The optional sign and the `0x` prefix that `stoul` skips in base 16. -/
def stripHexPrefix : List Char → List Char
  | '0' :: x :: d :: rest =>
    if (x = 'x' ∨ x = 'X') ∧ (hexDigit d).isSome then d :: rest else '0' :: x :: d :: rest
  | text => text

def hexDigits : List Char → List Nat
  | [] => []
  | c :: rest => match hexDigit c with
    | some d => d :: hexDigits rest
    | none => []

def hexValue (digits : List Nat) : Nat := digits.foldl (fun n d => 16 * n + d) 0

/-- `stoul(text, nullptr, 16)` followed by the cast to `unsigned char`. -/
def stoul16 (text : List Char) : Except Exn UInt8 :=
  let unsigned (negative : Bool) (digits : List Char) : Except Exn UInt8 :=
    match hexDigits (stripHexPrefix digits) with
    | [] => .error (.invalidArgument "stoul")
    | ds => .ok (if negative then 0 - (hexValue ds).toUInt8 else (hexValue ds).toUInt8)
  match text.dropWhile Library.Decimal.isSpace with
  | '+' :: rest => unsigned false rest
  | '-' :: rest => unsigned true rest
  | digits => unsigned false digits

/-- The bytes `link_state` decodes from a MAC text, two characters every third position. -/
def macBytes (mac : String) : Except Exn (List UInt8) :=
  (List.range 6).mapM fun i =>
    if i * 3 > mac.length then .error (.logicError "basic_string::substr")
    else stoul16 ((mac.toList.drop (i * 3)).take 2)

def linkState (name : String) (up : Bool) (mac : String) : Controller Unit :=
  netlink (do
    indexOf name
    if mac.isEmpty then pure (.setLink name up none)
    else do
      let bytes ← liftExcept (macBytes mac)
      pure (.setLink name up (some bytes))) false

def vlanAdd (c : NetworkConfig) : Controller Unit :=
  netlink (do
    indexOf c.outerInterface
    pure (.addVlan c.outerInterface (c.vlanId.getD 0))) false

/-- The lookup by which `restore` decides whether there is something to remove. -/
def lookUp (name : String) : Controller Bool := do
  let present ← read fun w => w.kernel.present name
  let found ← ifNametoindex name
  note (.lookedUp name found present)
  pure found

def vlanDelete : Controller Unit := do
  if ← lookUp vlanName then
    netlink (do indexOf vlanName; pure .deleteVlan) true
  else pure ()

def address (iface ip : String) (prefixLength : UInt32) (add : Bool) : Controller Unit :=
  netlink (do
    indexOf iface
    let a ← liftExcept (ipv4 ip)
    let ifa : Ifaddr := ⟨a, prefixLength.toNat % 256⟩
    pure (if add then .addAddress iface ifa else .deleteAddress iface ifa)) (!add)

/-- The route `route` names, with its shift: the default route, or the outer subnet. -/
def routeTo (c : NetworkConfig) (gateway : Bool) : Except Exn (Shifting Route) :=
  if gateway then do
    let g ← ipv4 c.outerGatewayIpv4
    return pure ⟨(0, 0), some g, effectiveOuter c⟩
  else do
    let a ← ipv4 c.outerIpv4
    return do
      let mask ← prefixMask c.outerPrefix
      return ⟨(a &&& mask, c.outerPrefix.toNat % 256), none, effectiveOuter c⟩

/-- The route itself. A configuration that comes here passed `validate`, so the shift is defined. -/
def routeOf (c : NetworkConfig) (gateway : Bool) : Except Exn Route := do
  let shifting ← routeTo c gateway
  match shifting.result with
  | some r => return r
  | none => throw (.logicError "undefined shift")

def route (c : NetworkConfig) (gateway add : Bool) : Controller Unit :=
  netlink (do
    indexOf (effectiveOuter c)
    let r ← liftExcept (routeOf c gateway)
    pure (if add then .addRoute r else .deleteRoute r)) (!add)

def rule (c : NetworkConfig) (add : Bool) : Controller Unit :=
  netlink (do
    let src ← liftExcept (ipv4 c.deviceIpv4)
    let r : PolicyRule := ⟨src, c.innerInterface⟩
    pure (if add then .addRule r else .deleteRule r)) (!add)

def clearConnections : Controller Unit := netlink (pure .deleteMarkedConnections) false

/-- The search `table_exists` makes through the listing. -/
def listsTable (family : Family) (listing : List Value) : Bool :=
  listing.any fun item =>
    ((item.get "table").get "name").eqString "magicbox" &&
      ((item.get "table").get "family").eqString family.text

def tableExists (family : Family) : Controller Bool :=
  probe fun k => .ok (listsTable family (tableListing k))

/-! ## The controller's own state -/

def status : Controller Value := read fun w => w.state_.get "status"

def member (name : String) : Controller Value := read fun w => w.state_.get name

def assign (name : String) (v : Value) : Controller Unit :=
  update fun w => { w with state_ := w.state_.set name v }

def setStatus (s : String) : Controller Unit := assign "status" (.string s)

def setDeadline (t : Nat) : Controller Unit := update fun w => { w with deadline_ := t }

/-! ## install -/

/-- Prepare one port: no IPv6, no reverse-path filter. -/
def preparePort (name : String) : Controller Unit := do
  writeFile (.disableIpv6 name) "1"
  writeFile (.rpFilter name) "0"

def installVlan (c : NetworkConfig) : Controller Unit :=
  if c.vlanId.isSome then do
    vlanAdd c
    writeFile (.disableIpv6 vlanName) "1"
    writeFile (.rpFilter vlanName) "0"
    linkState (effectiveOuter c) true ""
  else pure ()

/-- The steps of install() before the forwarding guard. -/
def prepareLinks (c : NetworkConfig) : Controller Unit := do
  preparePort c.outerInterface
  preparePort c.innerInterface
  linkState c.outerInterface false ""
  linkState c.outerInterface false c.outerMac
  linkState c.outerInterface true ""
  installVlan c

/-- The steps of install() between the guard and the final batch: addresses, routes, forwarding. -/
def connect (c : NetworkConfig) : Controller Unit := do
  linkState c.innerInterface true ""
  address c.innerInterface c.innerGatewayIpv4 c.innerPrefix true
  address (effectiveOuter c) c.outerIpv4 c.outerPrefix true
  route c false true
  route c true true
  rule c true
  writeFile .ipForward "1"
  writeFile .rpFilterAll "0"

def install (c : NetworkConfig) : Controller Unit := do
  prepareLinks c
  -- Forwarding guard is installed before assigning addresses or routes.
  nft [.define (guardTable c)]
  connect c
  nft [.deleteTable .inet "magicbox", .define (natTable c), .define (forwardTable c)]

/-! ## restore -/

def noteError (errors : String) (e : Exn) : String := errors ++ e.what ++ "; "

/-- `attempt` of restore(): the step is made best-effort. -/
def attemptStep (step : Step) (errors : String) (action : Controller Unit) : Controller String := do
  note (.attempted step)
  attempt noteError errors action

def swapGuard (c : NetworkConfig) : Controller Unit := do
  let installed ← tableExists .inet
  nft ((if installed then [.deleteTable .inet "magicbox"] else []) ++ [.define (guardTable c)])
  clearConnections

/-- Routes and address of the outer side, skipped when its link is not found. -/
def dropOuter (c : NetworkConfig) (errors : String) : Controller String := do
  if ← lookUp (effectiveOuter c) then do
    let errors ← attemptStep .dropGatewayRoute errors (route c true false)
    let errors ← attemptStep .dropLinkRoute errors (route c false false)
    attemptStep .dropOuterAddress errors
      (address (effectiveOuter c) c.outerIpv4 c.outerPrefix false)
  else pure errors

def dropVlan (c : NetworkConfig) (errors : String) : Controller String :=
  if c.vlanId.isSome then attemptStep .dropVlan errors vlanDelete else pure errors

def dropTable (family : Family) : Controller Unit := do
  if ← tableExists family then nft [.deleteTable family "magicbox"] else pure ()

/-- Write a saved sysctl back from the journaled state. -/
def resetSysctl (file : Sysctl) (name : String) : Controller Unit := do
  let saved ← member name
  let value ← liftExcept saved.asString
  writeFile file value

def hasFlag (flags : Value) (flag : String) : Bool := flags.elements.any (·.eqString flag)

/-- Give one port its saved address, sysctls and state back. -/
def resetPort (info : Value) : Controller Unit := do
  let name ← liftExcept (info.index "ifname" >>= Value.asString)
  let flags ← liftExcept (info.index "flags")
  let up := hasFlag flags "UP"
  linkState name false ""
  let mac ← liftExcept (info.index "address" >>= Value.asString)
  linkState name false mac
  let disableIpv6 ← liftExcept (info.index "disable_ipv6" >>= Value.asString)
  writeFile (.disableIpv6 name) disableIpv6
  let rpFilter ← liftExcept (info.index "rp_filter" >>= Value.asString)
  writeFile (.rpFilter name) rpFilter
  linkState name up ""

def resetPorts (errors : String) : List Value → Controller String
  | [] => pure errors
  | info :: rest => do
    let errors ← attemptStep (.resetPort info) errors (resetPort info)
    resetPorts errors rest

/-- The guard goes last, and only when nothing failed. -/
def dropGuard (errors : String) : Controller String :=
  if errors.isEmpty then attemptStep .dropGuard errors (dropTable .inet) else pure errors

/-- The restoration steps of restore() after the guard is back and before it goes. -/
def withdraw (c : NetworkConfig) (errors : String) : Controller String := do
  let errors ← attemptStep .dropRule errors (rule c false)
  let errors ← dropOuter c errors
  let errors ← attemptStep .dropInnerAddress errors
    (address c.innerInterface c.innerGatewayIpv4 c.innerPrefix false)
  let errors ← dropVlan c errors
  let errors ← attemptStep .dropTranslation errors (dropTable .ip)
  let errors ← attemptStep .resetForward errors (resetSysctl .ipForward "ip_forward")
  let errors ← attemptStep .resetRpFilterAll errors (resetSysctl .rpFilterAll "rp_filter_all")
  let baseline ← member "baseline"
  resetPorts errors baseline.elements

/-- Every restoration step but the last; the result is the collected error text. -/
def undoInstall (c : NetworkConfig) : Controller String := do
  let errors ← attemptStep .swapGuard "" (swapGuard c)
  withdraw c errors

def rollBack (c : NetworkConfig) : Controller String := do
  let errors ← undoInstall c
  dropGuard errors

def noteRestoring (c : NetworkConfig) : Controller Unit :=
  update fun w => { w with log := w.log ++ [.restoring c w.kernel w.supply] }

def noteRestored : Controller Unit :=
  update fun w => { w with log := w.log ++ [.restored w.kernel] }

def restore : Controller Unit := do
  let config ← member "config"
  let c ← liftExcept (configFromJson config)
  noteRestoring c
  setStatus "rolling_back"
  putState
  let errors ← rollBack c
  setStatus (if errors.isEmpty then "inactive" else "rollback_failed")
  assign "error" (.string errors)
  putState
  if errors.isEmpty then noteRestored else raise (.runtimeError errors)

/-! ## apply -/

/-- Whether a listed route belongs to table 4242, as the admission check tests it. -/
def occupiesTable (r : Value) : Bool :=
  (r.get "table").isUInt && (match (r.get "table").asUInt with
    | .ok id => id == tableId
    | .error _ => false)

/-- The reserved resources must be free. -/
def checkReserved : Controller Unit := do
  let occupied : Exn := .runtimeError "Reserved WireLab Experiments network resources already exist"
  if ← tableExists .ip then raise occupied
  else if ← tableExists .inet then raise occupied
  else if ← ifNametoindex vlanName then raise occupied
  else pure ()

def checkRoutes : Controller Unit := do
  let routes ← probe fun k => .ok (routeListing k)
  if routes.any occupiesTable then raise (.runtimeError "Routing table 4242 is occupied")
  else pure ()

/-- The first rule of the reserved priority, or of a priority that is no number, stops `apply`. -/
def checkPriorities : List Value → Except Exn Unit
  | [] => .ok ()
  | r :: rest => do
    let priority ← (r.get "priority").asUInt
    if priority = rulePriority then .error (.runtimeError "Rule priority 10424 is occupied")
    else checkPriorities rest

def checkRules : Controller Unit := do
  let rules ← probe fun k => .ok (ruleListing k)
  liftExcept (checkPriorities rules)

/-- `ip -j address show dev name`, first element. -/
def showAddress (name : String) : Controller Value :=
  probe fun k =>
    match k.links name with
    | some link => .ok (linkInfo name link)
    | none => .error (.runtimeError "ip failed: Device does not exist.")

/-- The baseline entry of one port, which must be dedicated and unaddressed. -/
def capturePort (name : String) : Controller Value := do
  indexOf name
  let info ← showAddress name
  if name == "lo" || info.isMember "master" || !(info.get "addr_info").empty then
    raise (.runtimeError (name ++
      " has addresses or is a bridge/bond member; dedicate unused unmanaged ports first"))
  else do
    let disableIpv6 ← readFile (.disableIpv6 name)
    let rpFilter ← readFile (.rpFilter name)
    pure (info.set "disable_ipv6" (.string disableIpv6) |>.set "rp_filter" (.string rpFilter))

/-- The checks of `apply`, with the baseline they read. -/
def checkAdmission (c : NetworkConfig) : Controller Value := do
  if !(← read World.enabled) then
    raise (.runtimeError "Network changes disabled; restart with --allow-network after assigning dedicated unmanaged ports")
  else if !((← status).eqString "inactive") then
    raise (.runtimeError "Rollback the current network configuration before applying another")
  else do
    let _ ← liftExcept (configFromJson (configJson c))
    checkReserved
    checkRoutes
    checkRules
    let outer ← capturePort c.outerInterface
    let inner ← capturePort c.innerInterface
    -- Validate nft syntax before mutating links.
    probe fun _ => .ok ()
    pure (.array [outer, inner])

/-- Record what the journal needs, and write it ahead of the first mutation. -/
def writeAhead (c : NetworkConfig) (baseline : Value) : Controller Unit := do
  assign "config" (configJson c)
  assign "baseline" baseline
  let ipForward ← readFile .ipForward
  assign "ip_forward" (.string ipForward)
  let rpFilterAll ← readFile .rpFilterAll
  assign "rp_filter_all" (.string rpFilterAll)
  setStatus "applying"
  update fun w => { w with log := w.log ++ [.admitted c w.kernel] }
  putState

/-- Sixty seconds. -/
def confirmationWindow : Nat := 60 * 1000000000

/-- `install` and the start of the confirmation window. -/
def activate (c : NetworkConfig) : Controller Unit := do
  install c
  setStatus "awaiting_confirmation"
  let now ← steadyNow
  setDeadline (now + confirmationWindow)
  putState

/-- A failed activation is rolled back and reported. -/
def undo (e : Exn) : Controller Unit := do
  recover restore fun rollbackError =>
    raise (.runtimeError (e.what ++ "; rollback failed: " ++ rollbackError.what))
  raise (.runtimeError e.what)

def apply (c : NetworkConfig) : Controller Unit := do
  let baseline ← checkAdmission c
  writeAhead c baseline
  recover (activate c) undo

/-! ## confirm, rollback, tick, state -/

def tick : Controller Unit := do
  if (← read World.enabled) && (← status).eqString "awaiting_confirmation" then do
    let now ← steadyNow
    let deadline ← read World.deadline_
    if deadline ≤ now then restore else pure ()
  else pure ()

def confirm : Controller Unit := do
  if !(← read World.enabled) then raise (.runtimeError "Network changes disabled")
  else do
    tick
    if !((← status).eqString "awaiting_confirmation") then
      raise (.runtimeError "No pending configuration")
    else do
      setStatus "confirmed"
      putState

def rollback : Controller Unit := do
  if !(← read World.enabled) then raise (.runtimeError "Network changes disabled")
  else if !((← status).eqString "inactive") then restore
  else pure ()

/-- `state()`: the reported state, with the time left in seconds. -/
def state : Controller Value := do
  let s ← read World.state_
  let enabled ← read World.enabled
  let s := s.set "enabled" (.boolean enabled)
  if (s.get "status").eqString "awaiting_confirmation" then do
    let now ← steadyNow
    let deadline ← read World.deadline_
    pure (s.set "remaining_seconds" (.int ((deadline - now) / 1000000000 : Nat)))
  else pure s

/-! ## Construction -/

/-- `create_directories`, `stat` and the namespace lock. -/
def acquireLock : Controller Unit := do
  probe fun _ => .ok ()
  probe fun _ => .ok ()
  probe fun _ => .ok ()

/-- Recovery: a configuration that is not inactive is rolled back, and applied
again when it was confirmed. -/
def recoverJournal : Controller Unit := do
  let confirmed := (← status).eqString "confirmed"
  let desired ← member "config"
  restore
  if confirmed then do
    let c ← liftExcept (configFromJson desired)
    apply c
    confirm
  else pure ()

def claimNamespace (enabled : Bool) : Controller Unit := if enabled then acquireLock else pure ()

/-- An absent journal is an inactive one. -/
def initialise : Controller Unit := do
  if (← read World.state_).isNull then setStatus "inactive" else pure ()

def construct (enabled : Bool) : Controller Unit := do
  update fun w => { w with enabled := enabled, state_ := w.store.get "network", deadline_ := 0 }
  claimNamespace enabled
  initialise
  let s ← read World.state_
  let journaled ← liftExcept (s.index "status")
  if !journaled.eqString "inactive" && enabled then recoverJournal else pure ()

end Magicbox.Source.NetworkController
