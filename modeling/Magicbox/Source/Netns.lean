import Magicbox.Source.Nftables
import Magicbox.Source.Json
import Mathlib.Logic.Function.Basic
import Mathlib.Tactic.SplitIfs

/-!
# The network namespace the controller works on

The part of one network namespace that network.cpp reads and writes: links with
their hardware address, state, per-interface sysctls and addresses, the
routes of table 4242, the policy rules of priority 10424, the nftables tables,
and the two host-wide sysctls. `serve` is what the kernel does with a request
that reaches it; whether a request reaches it, and whether its answer comes
back, is decided by the caller's environment.

Other tables and priorities are not here. A kernel flushes the routes of a link
that is set down; those of table 4242 go here only when they are deleted, which
the controller asks for before it sets a port down. Nor is the link-local address
here that a link with IPv6 gets when it is set up.

An interface is named, not numbered: `if_nametoindex` is the lookup of a name,
and the index it yields stands for the same link.
-/

set_option autoImplicit false

namespace Magicbox.Source.Netns
open Json Nftables

/-- `table_id` and `rule_priority` of network.cpp. -/
def tableId : Nat := 4242
def rulePriority : Nat := 10424

structure Ifaddr where
  address : BitVec 32
  prefixlen : Nat
  deriving DecidableEq, Repr

structure Link where
  /-- Hardware address; six bytes on an Ethernet link. -/
  address : List UInt8
  up : Bool
  disableIpv6 : String
  rpFilter : String
  /-- The bridge or bond the link is enslaved to. -/
  master : Option String := none
  /-- Parent and id of a VLAN link. -/
  vlan : Option (String × UInt16) := none
  addrInfo : List Ifaddr := []
  /-- The IPv6 addresses. A port that the controller accepts has none, and no request adds one. -/
  inet6 : List String := []
  deriving DecidableEq, Repr

/-- A route of table 4242: the connected subnet, or the default route. -/
structure Route where
  dst : BitVec 32 × Nat
  gateway : Option (BitVec 32)
  oif : String
  deriving DecidableEq, Repr

/-- A policy rule of priority 10424. -/
structure PolicyRule where
  src : BitVec 32
  iifname : String
  deriving DecidableEq, Repr

structure Kernel where
  links : String → Option Link
  routes : List Route
  rules : List PolicyRule
  tables : List Table
  ipForward : String
  rpFilterAll : String
  /-- Whether this host's `ip -j` prints a table id as a number or as a string. -/
  numericTables : Bool

/-- The files under /proc/sys/net that the controller reads and writes. -/
inductive Sysctl where
  | disableIpv6 (name : String)
  | rpFilter (name : String)
  | ipForward
  | rpFilterAll
  deriving DecidableEq, Repr

def Sysctl.path : Sysctl → String
  | .disableIpv6 name => "/proc/sys/net/ipv6/conf/" ++ name ++ "/disable_ipv6"
  | .rpFilter name => "/proc/sys/net/ipv4/conf/" ++ name ++ "/rp_filter"
  | .ipForward => "/proc/sys/net/ipv4/ip_forward"
  | .rpFilterAll => "/proc/sys/net/ipv4/conf/all/rp_filter"

inductive Request where
  | setLink (name : String) (up : Bool) (mac : Option (List UInt8))
  | addVlan (parent : String) (id : UInt16)
  | deleteVlan
  | addAddress (name : String) (a : Ifaddr)
  | deleteAddress (name : String) (a : Ifaddr)
  | addRoute (r : Route)
  | deleteRoute (r : Route)
  | addRule (r : PolicyRule)
  | deleteRule (r : PolicyRule)
  | deleteMarkedConnections
  | write (file : Sysctl) (value : String)
  | nft (batch : Batch)
  deriving DecidableEq, Repr

inductive Errno where
  | noent | srch | nodev | addrnotavail | exist | inval
  deriving DecidableEq, Repr

def Errno.text : Errno → String
  | .noent => "No such file or directory"
  | .srch => "No such process"
  | .nodev => "No such device"
  | .addrnotavail => "Cannot assign requested address"
  | .exist => "File exists"
  | .inval => "Invalid argument"

/-- The answers `missing_ok` turns into success. -/
def Errno.missing : Errno → Bool
  | .noent | .srch | .nodev | .addrnotavail => true
  | .exist | .inval => false

/-- The name of the VLAN link. -/
def vlanName : String := "mbx-outer"

namespace Kernel

def present (k : Kernel) (name : String) : Bool := (k.links name).isSome

def setLinks (k : Kernel) (name : String) (link : Option Link) : Kernel :=
  { k with links := Function.update k.links name link }

/-- Change one link that exists. -/
def onLink (k : Kernel) (name : String) (f : Link → Except Errno Link) : Except Errno Kernel :=
  match k.links name with
  | none => .error .nodev
  | some link => do return k.setLinks name (some (← f link))

/-- Removing a link removes its addresses with it and drops its routes. -/
def dropLink (k : Kernel) (name : String) : Kernel :=
  { k.setLinks name none with routes := k.routes.filter (·.oif ≠ name) }

def serve (k : Kernel) : Request → Except Errno Kernel
  | .setLink name up mac =>
    k.onLink name fun link => .ok { link with up := up, address := mac.getD link.address }
  | .addVlan parent id =>
    if k.present vlanName then .error .exist
    else match k.links parent with
      | none => .error .nodev
      | some link => .ok (k.setLinks vlanName (some
          { address := link.address, up := false, disableIpv6 := "0", rpFilter := "0",
            vlan := some (parent, id) }))
  | .deleteVlan => if k.present vlanName then .ok (k.dropLink vlanName) else .error .nodev
  | .addAddress name a =>
    k.onLink name fun link =>
      if a ∈ link.addrInfo then .error .exist
      else .ok { link with addrInfo := link.addrInfo ++ [a] }
  | .deleteAddress name a =>
    k.onLink name fun link =>
      if a ∈ link.addrInfo then .ok { link with addrInfo := link.addrInfo.filter (· ≠ a) }
      else .error .addrnotavail
  | .addRoute r =>
    if !k.present r.oif then .error .nodev
    else if r ∈ k.routes then .error .exist
    else .ok { k with routes := k.routes ++ [r] }
  | .deleteRoute r =>
    if r ∈ k.routes then .ok { k with routes := k.routes.filter (· ≠ r) } else .error .srch
  | .addRule r =>
    if r ∈ k.rules then .error .exist else .ok { k with rules := k.rules ++ [r] }
  | .deleteRule r =>
    if r ∈ k.rules then .ok { k with rules := k.rules.filter (· ≠ r) } else .error .noent
  | .deleteMarkedConnections => .ok k
  | .write (.disableIpv6 name) value =>
    k.onLink name fun link => .ok { link with disableIpv6 := value }
  | .write (.rpFilter name) value =>
    k.onLink name fun link => .ok { link with rpFilter := value }
  | .write .ipForward value => .ok { k with ipForward := value }
  | .write .rpFilterAll value => .ok { k with rpFilterAll := value }
  | .nft batch =>
    match runBatch batch k.tables with
    | some tables => .ok { k with tables := tables }
    | none => .error .noent

/-- The kernel after a request, which changes nothing when it is refused. -/
def after (k : Kernel) (r : Request) : Kernel :=
  match k.serve r with
  | .ok k' => k'
  | .error _ => k

def readSysctl (k : Kernel) : Sysctl → Option String
  | .disableIpv6 name => (k.links name).map (·.disableIpv6)
  | .rpFilter name => (k.links name).map (·.rpFilter)
  | .ipForward => some k.ipForward
  | .rpFilterAll => some k.rpFilterAll

/-! ### Effects of the requests, field by field -/

private theorem filter_ne_of_not_mem {α : Type} [DecidableEq α] {a : α} {l : List α}
    (h : a ∉ l) : l.filter (· ≠ a) = l := by
  refine List.filter_eq_self.mpr fun b hb => ?_
  have hne : b ≠ a := fun hba => h (hba ▸ hb)
  simpa using hne

/-- Change one link, if it exists. -/
def mapLink (k : Kernel) (name : String) (f : Link → Link) : Kernel :=
  match k.links name with
  | none => k
  | some link => k.setLinks name (some (f link))

theorem setLinks_self {k : Kernel} {name : String} {link : Option Link}
    (h : k.links name = link) : k.setLinks name link = k := by
  subst h
  simp [setLinks]

@[simp] theorem links_setLinks (k : Kernel) (name other : String) (link : Option Link) :
    (k.setLinks name link).links other = if other = name then link else k.links other := by
  simp [setLinks, Function.update_apply]

@[simp] theorem links_mapLink (k : Kernel) (name other : String) (f : Link → Link) :
    (k.mapLink name f).links other =
      if other = name then (k.links name).map f else k.links other := by
  unfold mapLink
  cases h : k.links name with
  | none =>
    by_cases hn : other = name
    · simp [hn, h]
    · simp [hn]
  | some link => simp

@[simp] theorem present_mapLink (k : Kernel) (name other : String) (f : Link → Link) :
    (k.mapLink name f).present other = k.present other := by
  unfold present
  rw [links_mapLink]
  split
  · next heq => rw [heq, Option.isSome_map]
  · rfl

theorem mapLink_eq (k : Kernel) (name : String) (f : Link → Link) :
    k.mapLink name f = { k with links := (k.mapLink name f).links } := by
  unfold mapLink
  cases k.links name <;> rfl

@[simp] theorem mapLink_routes (k : Kernel) (name : String) (f : Link → Link) :
    (k.mapLink name f).routes = k.routes := by rw [mapLink_eq]

@[simp] theorem mapLink_rules (k : Kernel) (name : String) (f : Link → Link) :
    (k.mapLink name f).rules = k.rules := by rw [mapLink_eq]

@[simp] theorem mapLink_tables (k : Kernel) (name : String) (f : Link → Link) :
    (k.mapLink name f).tables = k.tables := by rw [mapLink_eq]

@[simp] theorem mapLink_ipForward (k : Kernel) (name : String) (f : Link → Link) :
    (k.mapLink name f).ipForward = k.ipForward := by rw [mapLink_eq]

@[simp] theorem mapLink_rpFilterAll (k : Kernel) (name : String) (f : Link → Link) :
    (k.mapLink name f).rpFilterAll = k.rpFilterAll := by rw [mapLink_eq]

@[simp] theorem mapLink_numericTables (k : Kernel) (name : String) (f : Link → Link) :
    (k.mapLink name f).numericTables = k.numericTables := by rw [mapLink_eq]

@[simp] theorem after_setLink (k : Kernel) (name : String) (up : Bool) (mac : Option (List UInt8)) :
    k.after (.setLink name up mac) =
      k.mapLink name fun link => { link with up := up, address := mac.getD link.address } := by
  simp only [after, serve, onLink, mapLink]
  cases k.links name <;> rfl

@[simp] theorem after_addAddress (k : Kernel) (name : String) (a : Ifaddr) :
    k.after (.addAddress name a) =
      k.mapLink name fun link =>
        if a ∈ link.addrInfo then link else { link with addrInfo := link.addrInfo ++ [a] } := by
  simp only [after, serve, onLink, mapLink]
  cases h : k.links name with
  | none => rfl
  | some link =>
    by_cases ha : a ∈ link.addrInfo
    · simp [ha, bind, Except.bind, setLinks_self h]
    · simp [ha, bind, Except.bind, pure, Except.pure]

@[simp] theorem after_deleteAddress (k : Kernel) (name : String) (a : Ifaddr) :
    k.after (.deleteAddress name a) =
      k.mapLink name fun link => { link with addrInfo := link.addrInfo.filter (· ≠ a) } := by
  simp only [after, serve, onLink, mapLink]
  cases h : k.links name with
  | none => rfl
  | some link =>
    by_cases ha : a ∈ link.addrInfo
    · simp [ha, bind, Except.bind, pure, Except.pure]
    · dsimp only
      rw [filter_ne_of_not_mem ha, setLinks_self h]
      simp [ha, bind, Except.bind]

@[simp] theorem after_disableIpv6 (k : Kernel) (name value : String) :
    k.after (.write (.disableIpv6 name) value) =
      k.mapLink name fun link => { link with disableIpv6 := value } := by
  simp only [after, serve, onLink, mapLink]
  cases k.links name <;> rfl

@[simp] theorem after_rpFilter (k : Kernel) (name value : String) :
    k.after (.write (.rpFilter name) value) =
      k.mapLink name fun link => { link with rpFilter := value } := by
  simp only [after, serve, onLink, mapLink]
  cases k.links name <;> rfl

@[simp] theorem after_ipForward (k : Kernel) (value : String) :
    k.after (.write .ipForward value) = { k with ipForward := value } := rfl

@[simp] theorem after_rpFilterAll (k : Kernel) (value : String) :
    k.after (.write .rpFilterAll value) = { k with rpFilterAll := value } := rfl

@[simp] theorem after_addRoute (k : Kernel) (r : Route) :
    k.after (.addRoute r) =
      { k with routes :=
          if !k.present r.oif || r ∈ k.routes then k.routes else k.routes ++ [r] } := by
  simp only [after, serve]
  by_cases hp : k.present r.oif = true
  · by_cases hr : r ∈ k.routes <;> simp [hp, hr]
  · simp [hp]

@[simp] theorem after_deleteRoute (k : Kernel) (r : Route) :
    k.after (.deleteRoute r) = { k with routes := k.routes.filter (· ≠ r) } := by
  simp only [after, serve]
  by_cases hr : r ∈ k.routes
  · simp [hr]
  · rw [filter_ne_of_not_mem hr]
    simp [hr]

@[simp] theorem after_addRule (k : Kernel) (r : PolicyRule) :
    k.after (.addRule r) =
      { k with rules := if r ∈ k.rules then k.rules else k.rules ++ [r] } := by
  simp only [after, serve]
  split_ifs <;> rfl

@[simp] theorem after_deleteRule (k : Kernel) (r : PolicyRule) :
    k.after (.deleteRule r) = { k with rules := k.rules.filter (· ≠ r) } := by
  simp only [after, serve]
  by_cases hr : r ∈ k.rules
  · simp [hr]
  · rw [filter_ne_of_not_mem hr]
    simp [hr]

@[simp] theorem after_deleteMarkedConnections (k : Kernel) :
    k.after .deleteMarkedConnections = k := rfl

@[simp] theorem after_nft (k : Kernel) (batch : Batch) :
    k.after (.nft batch) = { k with tables := (runBatch batch k.tables).getD k.tables } := by
  simp only [after, serve]
  cases runBatch batch k.tables <;> rfl

/-- The link `addVlan` creates below a parent. -/
def vlanLink (parent : String) (id : UInt16) (link : Link) : Link :=
  { address := link.address, up := false, disableIpv6 := "0", rpFilter := "0",
    vlan := some (parent, id) }

@[simp] theorem after_addVlan (k : Kernel) (parent : String) (id : UInt16) :
    k.after (.addVlan parent id) =
      if k.present vlanName then k
      else k.setLinks vlanName ((k.links parent).map (vlanLink parent id)) := by
  simp only [after, serve]
  by_cases hp : k.present vlanName = true
  · simp [hp]
  · have hnone : k.links vlanName = none := by simpa [present] using hp
    cases hl : k.links parent with
    | none => simp [hp, setLinks_self hnone]
    | some link => simp [hp, vlanLink]

@[simp] theorem after_deleteVlan (k : Kernel) :
    k.after .deleteVlan = if k.present vlanName then k.dropLink vlanName else k := by
  simp only [after, serve]
  split_ifs <;> rfl

end Kernel

/-! ## What the listing commands print -/

def hexChar (n : Nat) : Char :=
  if n < 10 then Char.ofNat ('0'.toNat + n) else Char.ofNat ('a'.toNat + (n - 10))

def byteText (b : UInt8) : List Char := [hexChar (b.toNat / 16), hexChar (b.toNat % 16)]

/-- A hardware address as iproute2 prints it: two lower-case digits a byte, colons between. -/
def macChars : List UInt8 → List Char
  | [] => []
  | [b] => byteText b
  | b :: rest => byteText b ++ ':' :: macChars rest

def macText (bytes : List UInt8) : String := String.ofList (macChars bytes)

/-- The members of one element of `ip -j address show` that the controller reads. -/
def linkInfo (name : String) (link : Link) : Value :=
  let info := Value.null
    |>.set "ifname" (.string name)
    |>.set "flags" (.array (["BROADCAST", "MULTICAST"].map Value.string ++
        (if link.up then [.string "UP"] else [])))
    |>.set "address" (.string (macText link.address))
    |>.set "addr_info" (.array ((link.addrInfo.map fun a =>
        Value.null.set "prefixlen" (.uint a.prefixlen)) ++
        link.inet6.map fun a => Value.null.set "local" (.string a)))
  match link.master with
  | some master => info.set "master" (.string master)
  | none => info

/-- `ip -j route show table all`, as far as table 4242 goes. -/
def routeListing (k : Kernel) : List Value :=
  k.routes.map fun r =>
    Value.null.set "dev" (.string r.oif) |>.set "table"
      (if k.numericTables then .uint tableId else .string (toString tableId))

/-- `ip -j rule show`, as far as priority 10424 goes. -/
def ruleListing (k : Kernel) : List Value :=
  k.rules.map fun r =>
    Value.null.set "priority" (.uint rulePriority) |>.set "iif" (.string r.iifname)

/-- `nft -j list tables`. -/
def tableListing (k : Kernel) : List Value :=
  Value.null.set "metainfo" (Value.null.set "json_schema_version" (.uint 1)) ::
    k.tables.map fun t =>
      Value.null.set "table"
        (Value.null.set "family" (.string t.family.text) |>.set "name" (.string t.name))

end Magicbox.Source.Netns
