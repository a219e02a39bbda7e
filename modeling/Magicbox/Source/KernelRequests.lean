import Magicbox.Source.ControllerEffects

/-!
# Which requests an operation makes

Each part of the controller performs a list of requests that its configuration
fixes: a prefix of the list takes effect, and a normal return means that all of
it did. A request that the kernel answers with an error counts as performed, it
just changes nothing.
-/

set_option autoImplicit false

namespace Magicbox.Source.NetworkController
open Library.Crash Json Config ConfigJson Nftables Netns

/-- The kernel updates of a list of requests. -/
def requests (rs : List Request) : List (Kernel → Kernel) := rs.map fun r k => k.after r

@[simp] theorem requests_nil : requests [] = [] := rfl

@[simp] theorem requests_cons (r : Request) (rs : List Request) :
    requests (r :: rs) = (fun k => k.after r) :: requests rs := rfl

theorem requests_append (rs rs' : List Request) :
    requests (rs ++ rs') = requests rs ++ requests rs' := List.map_append

/-- The message a fill function builds, when it builds one. -/
def Yields (fill : Controller Request) (r : Request) : Prop :=
  Within Looking fill ∧ ∀ w q, (fill w).1 = .returned q → q = r

theorem yields_pure (r : Request) : Yields (pure r) r := by
  refine ⟨looking_pure r, fun w q hq => ?_⟩
  cases hq
  rfl

theorem yields_bind {α : Type} {m : Controller α} {f : α → Controller Request} {r : Request}
    (hm : Within Looking m) (hf : ∀ a, Yields (f a) r) : Yields (m >>= f) r := by
  refine ⟨looking_bind hm fun a => (hf a).1, fun w q hq => ?_⟩
  rcases bind_cases (Prod.eta ((m >>= f) w)).symm with ⟨a, u, -, hrun⟩ | ⟨e, -, ho⟩ | ⟨-, ho⟩
  · exact (hf a).2 u q (by rw [hrun]; exact hq)
  · rw [ho] at hq
    cases hq
  · rw [ho] at hq
    cases hq

theorem yields_liftExcept {α : Type} {x : Except Exn α} {f : α → Controller Request} {r : Request}
    (hf : ∀ a, x = .ok a → Yields (f a) r) : Yields (liftExcept x >>= f) r := by
  cases x with
  | ok a => exact hf a rfl
  | error e =>
    refine ⟨looking_raise e, fun w q hq => ?_⟩
    cases hq

theorem performs_of_looking {α : Type} {m : Controller α} (h : Within Looking m) :
    Performs World.kernel [] m :=
  Performs.of_eq fun w => (h w).kernel

theorem performs_liftExcept {α β : Type} {us : List (Kernel → Kernel)} {x : Except Exn α}
    {f : α → Controller β} (hf : ∀ a, x = .ok a → Performs World.kernel us (f a)) :
    Performs World.kernel us (liftExcept x >>= f) := by
  cases x with
  | ok a => exact hf a rfl
  | error e =>
    intro w
    rw [bind_threw (liftExcept_error e w)]
    exact ⟨0, Nat.zero_le _, rfl, by simp⟩

theorem performs_request (r : Request) : Performs World.kernel (requests [r]) (request r) := by
  intro w
  unfold request
  rcases w.supply.kernel with _ | ⟨answer, rest⟩
  · exact ⟨0, Nat.zero_le _, rfl, by simp⟩
  · cases answer with
    | done =>
      refine ⟨1, Nat.le_refl _, ?_, fun _ _ => rfl⟩
      dsimp only
      cases h : w.kernel.serve r <;> simp [Kernel.after, h]
    | refused _ => exact ⟨0, Nat.zero_le _, rfl, by simp⟩
    | lost _ => exact ⟨1, Nat.le_refl _, rfl, by simp⟩

theorem performs_netlink {fill : Controller Request} {r : Request} (hfill : Yields fill r)
    (missingOk : Bool) : Performs World.kernel (requests [r]) (netlink fill missingOk) := by
  intro w
  have hlook := (hfill.1 w).kernel
  unfold netlink
  rw [bind_run]
  rcases hrun : fill w with ⟨q | e | _, u⟩ <;> rw [hrun] at hlook
  · obtain rfl := hfill.2 w q (by rw [hrun])
    have hreply : ∀ reply : Option Errno → Controller Unit,
        (∀ answer, Within Looking (reply answer)) →
          Performs World.kernel (requests [q]) (request q >>= reply) := fun reply h =>
      (performs_request q).before fun answer => performs_of_looking (h answer)
    rw [← hlook]
    refine hreply _ (fun answer => ?_) u
    cases answer with
    | none => exact looking_pure _
    | some errno =>
      dsimp only
      split
      · exact looking_pure _
      · exact looking_raise _
  · exact ⟨0, Nat.zero_le _, hlook, by simp⟩
  · exact ⟨0, Nat.zero_le _, hlook, by simp⟩

theorem performs_writeFile (file : Sysctl) (value : String) :
    Performs World.kernel (requests [.write file value]) (writeFile file value) := by
  refine (performs_request _).before fun answer => performs_of_looking ?_
  cases answer
  · exact looking_pure _
  · exact looking_raise _

theorem performs_nft (batch : Batch) :
    Performs World.kernel (requests [.nft batch]) (nft batch) := by
  refine (performs_request _).before fun answer => performs_of_looking ?_
  cases answer
  · exact looking_pure _
  · exact looking_raise _

/-! ## Requests of the single steps -/

/-- The hardware address a MAC text sets, none for the empty text. -/
def macAttribute (mac : String) : Option (List UInt8) :=
  if mac.isEmpty then none else (macBytes mac).toOption

def ifaddr (ip : String) (prefixLength : UInt32) : Ifaddr := ⟨host ip, prefixLength.toNat % 256⟩

def routeEntry (c : NetworkConfig) (gateway : Bool) : Route :=
  if gateway then ⟨(0, 0), some (host c.outerGatewayIpv4), effectiveOuter c⟩
  else ⟨(host c.outerIpv4 &&& netmask c.outerPrefix, c.outerPrefix.toNat % 256), none,
    effectiveOuter c⟩

def ruleEntry (c : NetworkConfig) : PolicyRule := ⟨host c.deviceIpv4, c.innerInterface⟩

@[simp] theorem routeEntry_oif (c : NetworkConfig) (gateway : Bool) :
    (routeEntry c gateway).oif = effectiveOuter c := by
  cases gateway <;> rfl

theorem ipv4_ok {ip : String} {a : BitVec 32} (h : ipv4 ip = .ok a) : a = host ip := by
  unfold ipv4 at h
  unfold host
  split at h
  · next h' => cases h; simp [h']
  · cases h

section Routes
variable {c : NetworkConfig} {gateway : Bool} {m : Shifting Route}

/-- With both texts legible there is a message to build. -/
theorem routeTo_made {g a : BitVec 32} (hgateway : ipv4 c.outerGatewayIpv4 = .ok g)
    (houter : ipv4 c.outerIpv4 = .ok a) (gateway : Bool) : ∃ m, routeTo c gateway = .ok m := by
  cases gateway with
  | true =>
    simp only [routeTo, hgateway]
    exact ⟨_, rfl⟩
  | false =>
    simp only [routeTo, houter]
    exact ⟨_, rfl⟩

/-- Only the mask of the outer subnet takes a shift. -/
theorem routeTo_run (h : routeTo c gateway = .ok m)
    (hlength : 1 ≤ c.outerPrefix.toNat ∧ c.outerPrefix.toNat ≤ 32) (amounts : List UInt32) :
    m amounts = .ok (routeEntry c gateway,
      amounts ++ if gateway then [] else [32 - c.outerPrefix]) := by
  unfold routeTo at h
  cases gateway with
  | true =>
    cases hg : ipv4 c.outerGatewayIpv4 with
    | error e => rw [hg] at h; cases h
    | ok g =>
      rw [hg] at h
      cases h
      simp [routeEntry, ipv4_ok hg]
  | false =>
    cases ha : ipv4 c.outerIpv4 with
    | error e => rw [ha] at h; cases h
    | ok a =>
      rw [ha] at h
      cases h
      simp [routeEntry, ipv4_ok ha, Shifting.bind_run, prefixMask_run hlength, Except.bind]

theorem routeTo_yields (h : routeTo c gateway = .ok m) {amounts later : List UInt32} {r : Route}
    (hrun : m amounts = .ok (r, later)) : r = routeEntry c gateway := by
  unfold routeTo at h
  cases gateway with
  | true =>
    cases hg : ipv4 c.outerGatewayIpv4 with
    | error e => rw [hg] at h; cases h
    | ok g =>
      rw [hg] at h
      cases h
      cases hrun
      simp [routeEntry, ipv4_ok hg]
  | false =>
    cases ha : ipv4 c.outerIpv4 with
    | error e => rw [ha] at h; cases h
    | ok a =>
      rw [ha] at h
      cases h
      cases hmask : prefixMask c.outerPrefix amounts with
      | error e =>
        simp [Shifting.bind_run, hmask, Except.bind] at hrun
      | ok found =>
        simp only [Shifting.bind_run, hmask, Except.bind] at hrun
        cases hrun
        simp [routeEntry, ipv4_ok ha, prefixMask_ok hmask]

theorem routeOf_ok {r : Route} (h : routeOf c gateway = .ok r) : r = routeEntry c gateway := by
  unfold routeOf at h
  cases hroute : routeTo c gateway with
  | error e => rw [hroute] at h; cases h
  | ok m =>
    rw [hroute] at h
    cases hrun : m [] with
    | error e => simp [bind, Except.bind, Shifting.result, hrun, Except.toOption] at h
    | ok found =>
      simp only [bind, Except.bind, Shifting.result, hrun, Except.toOption, Option.map_some] at h
      cases h
      exact routeTo_yields hroute hrun

/-- A legible address and a mask that is defined make a route. -/
theorem routeOf_routeEntry (h : routeTo c gateway = .ok m)
    (hlength : 1 ≤ c.outerPrefix.toNat ∧ c.outerPrefix.toNat ≤ 32) :
    routeOf c gateway = .ok (routeEntry c gateway) := by
  unfold routeOf
  rw [h]
  simp only [bind, Except.bind, Shifting.result, routeTo_run h hlength, Except.toOption,
    Option.map_some]
  rfl

end Routes

theorem performs_linkState (name : String) (up : Bool) (mac : String) :
    Performs World.kernel (requests [.setLink name up (macAttribute mac)])
      (linkState name up mac) := by
  refine performs_netlink (yields_bind (looking_indexOf name) fun _ => ?_) _
  unfold macAttribute
  split
  · exact yields_pure _
  · refine yields_liftExcept fun bytes hb => ?_
    rw [hb]
    exact yields_pure _

theorem performs_vlanAdd (c : NetworkConfig) :
    Performs World.kernel (requests [.addVlan c.outerInterface (c.vlanId.getD 0)]) (vlanAdd c) :=
  performs_netlink (yields_bind (looking_indexOf _) fun _ => yields_pure _) _

theorem performs_address (iface ip : String) (prefixLength : UInt32) (add : Bool) :
    Performs World.kernel
      (requests [if add then .addAddress iface (ifaddr ip prefixLength)
        else .deleteAddress iface (ifaddr ip prefixLength)])
      (address iface ip prefixLength add) := by
  refine performs_netlink (yields_bind (looking_indexOf _) fun _ => ?_) _
  refine yields_liftExcept fun a ha => ?_
  rw [ipv4_ok ha]
  exact yields_pure _

theorem performs_route (c : NetworkConfig) (gateway add : Bool) :
    Performs World.kernel
      (requests [if add then .addRoute (routeEntry c gateway)
        else .deleteRoute (routeEntry c gateway)])
      (route c gateway add) := by
  refine performs_netlink (yields_bind (looking_indexOf _) fun _ => ?_) _
  refine yields_liftExcept fun r hr => ?_
  rw [routeOf_ok hr]
  exact yields_pure _

theorem performs_rule (c : NetworkConfig) (add : Bool) :
    Performs World.kernel
      (requests [if add then .addRule (ruleEntry c) else .deleteRule (ruleEntry c)])
      (rule c add) := by
  refine performs_netlink (yields_liftExcept fun a ha => ?_) _
  rw [ipv4_ok ha]
  exact yields_pure _

theorem performs_clearConnections :
    Performs World.kernel (requests [.deleteMarkedConnections]) clearConnections :=
  performs_netlink (yields_pure _) _

/-! ## The lookups of a rollback -/

/-- A lookup of `restore`, which found a link only if it is there. -/
structure Looked (name : String) (found : Bool) (w w' : World) : Prop extends Quiet w w' where
  kernel : w'.kernel = w.kernel
  probes : w'.supply.probes = w.supply.probes
  answers : w'.supply.kernel = w.supply.kernel
  told : w'.log = w.log ++ [.lookedUp name found (w.kernel.present name)]
  found : found = (w.supply.looks && w.kernel.present name)

theorem lookUp_run (name : String) (w : World) :
    ∃ found w', lookUp name w = (.returned found, w') ∧ Looked name found w w' := by
  have quiet := quiet_lookUp name w
  unfold lookUp at quiet ⊢
  rw [bind_returned (read_run _ w), bind_returned (ifNametoindex_run name w)] at quiet ⊢
  exact ⟨_, _, rfl, quiet, rfl, rfl, rfl, rfl, rfl⟩

theorem Looked.sound {name : String} {w w' : World} (h : Looked name true w w') :
    w.kernel.present name = true := by
  have hfound := h.found.symm
  rw [Bool.and_eq_true] at hfound
  exact hfound.2

/-- A lookup that overlooks nothing tells what is there. -/
theorem Looked.tells {name : String} {found : Bool} {w w' : World} (h : Looked name found w w')
    {n : Nat} (hn : n ≤ w.log.length) (hsees : Sees n w') : found = w.kernel.present name := by
  have hact : Act.overlooks (.lookedUp name found (w.kernel.present name)) = false := by
    refine hsees _ ?_
    rw [h.told, List.drop_append_of_le_length hn]
    exact List.mem_append_right _ List.mem_cons_self
  have hfound := h.found
  cases hp : w.kernel.present name with
  | true => simpa [Act.overlooks, hp] using hact
  | false => simpa [hp] using hfound

/-- The deletion of the VLAN link, behind its lookup. -/
theorem vlanDelete_run (w : World) :
    ∃ found w', Looked vlanName found w w' ∧
      vlanDelete w = (if found then netlink (do indexOf vlanName; pure .deleteVlan) true
        else pure ()) w' := by
  obtain ⟨found, w', hrun, hlooked⟩ := lookUp_run vlanName w
  exact ⟨found, w', hlooked, by unfold vlanDelete; rw [bind_returned hrun]⟩

theorem performs_deleteVlan :
    Performs World.kernel (requests [.deleteVlan])
      (netlink (do indexOf vlanName; pure .deleteVlan) true) :=
  performs_netlink (yields_bind (looking_indexOf vlanName) fun _ => yields_pure .deleteVlan) true

/-- Found or not, what the deletion keeps is kept. -/
theorem vlanDelete_keeps {I : Kernel → Prop} (keep : ∀ k, I k → I (k.after .deleteVlan)) :
    Triple (fun w => I w.kernel) vlanDelete fun _ w => I w.kernel := by
  intro w hw
  obtain ⟨found, w', hlooked, hrun⟩ := vlanDelete_run w
  rw [hrun]
  have hkept : I w'.kernel := hlooked.kernel ▸ hw
  cases found with
  | false => exact hkept
  | true =>
    refine performs_deleteVlan.keeps (fun u hu => ?_) w' hkept
    obtain rfl := List.mem_singleton.mp hu
    exact keep

/-- Deleting a link that is not there changes nothing, so an early return that overlooks nothing
has done what there was to do. -/
theorem vlanDelete_returned {w : World} (ho : (vlanDelete w).1 = .returned ()) {n : Nat}
    (hn : n ≤ w.log.length) (hsees : Sees n (vlanDelete w).2) :
    (vlanDelete w).2.kernel = w.kernel.after .deleteVlan := by
  obtain ⟨found, w', hlooked, hrun⟩ := vlanDelete_run w
  rw [hrun] at ho hsees ⊢
  rw [← hlooked.kernel]
  cases found with
  | true => exact performs_deleteVlan.view_returned ho
  | false =>
    have hgone : w'.kernel.present vlanName = false := by
      rw [hlooked.kernel]
      exact (hlooked.tells hn hsees).symm
    rw [Kernel.after_deleteVlan, hgone, if_neg Bool.false_ne_true]
    rfl

/-! ## install -/

def preparePortRequests (name : String) : List Request :=
  [.write (.disableIpv6 name) "1", .write (.rpFilter name) "0"]

def vlanRequests (c : NetworkConfig) : List Request :=
  if c.vlanId.isSome then
    .addVlan c.outerInterface (c.vlanId.getD 0) :: preparePortRequests vlanName ++
      [.setLink (effectiveOuter c) true none]
  else []

def prepareRequests (c : NetworkConfig) : List Request :=
  preparePortRequests c.outerInterface ++ preparePortRequests c.innerInterface ++
    [.setLink c.outerInterface false none,
     .setLink c.outerInterface false (macAttribute c.outerMac),
     .setLink c.outerInterface true none] ++ vlanRequests c

def connectRequests (c : NetworkConfig) : List Request :=
  [.setLink c.innerInterface true none,
   .addAddress c.innerInterface (ifaddr c.innerGatewayIpv4 c.innerPrefix),
   .addAddress (effectiveOuter c) (ifaddr c.outerIpv4 c.outerPrefix),
   .addRoute (routeEntry c false), .addRoute (routeEntry c true), .addRule (ruleEntry c),
   .write .ipForward "1", .write .rpFilterAll "0"]

theorem performs_preparePort (name : String) :
    Performs World.kernel (requests (preparePortRequests name)) (preparePort name) :=
  (performs_writeFile _ _).bind fun _ => performs_writeFile _ _

theorem performs_installVlan (c : NetworkConfig) :
    Performs World.kernel (requests (vlanRequests c)) (installVlan c) := by
  unfold vlanRequests installVlan
  split
  · refine (performs_vlanAdd c).bind fun _ => ?_
    refine (performs_writeFile _ _).bind fun _ => ?_
    exact (performs_writeFile _ _).bind fun _ => performs_linkState _ _ _
  · exact performs_of_looking (looking_pure _)

theorem performs_prepareLinks (c : NetworkConfig) :
    Performs World.kernel (requests (prepareRequests c)) (prepareLinks c) := by
  refine (performs_preparePort _).bind fun _ => (performs_preparePort _).bind fun _ => ?_
  refine (performs_linkState _ _ _).bind fun _ => (performs_linkState _ _ _).bind fun _ => ?_
  exact (performs_linkState _ _ _).bind fun _ => performs_installVlan c

theorem performs_connect (c : NetworkConfig) :
    Performs World.kernel (requests (connectRequests c)) (connect c) := by
  refine (performs_linkState _ _ _).bind fun _ => (performs_address _ _ _ _).bind fun _ => ?_
  refine (performs_address _ _ _ _).bind fun _ => (performs_route _ _ _).bind fun _ => ?_
  refine (performs_route _ _ _).bind fun _ => (performs_rule _ _).bind fun _ => ?_
  exact (performs_writeFile _ _).bind fun _ => performs_writeFile _ _

def installRequests (c : NetworkConfig) : List Request :=
  prepareRequests c ++ [.nft [.define (guardTable c)]] ++ connectRequests c ++
    [.nft [.deleteTable .inet "magicbox", .define (natTable c), .define (forwardTable c)]]

theorem performs_install (c : NetworkConfig) :
    Performs World.kernel (requests (installRequests c)) (install c) := by
  have hrun := (performs_prepareLinks c).bind fun _ =>
    (performs_nft [.define (guardTable c)]).bind fun _ => (performs_connect c).bind fun _ =>
      performs_nft [.deleteTable .inet "magicbox", .define (natTable c), .define (forwardTable c)]
  simpa only [installRequests, requests_append, List.append_assoc, install] using hrun

/-! ## restore -/

/-- The listing tells whether the table exists. -/
theorem listsTable_tableListing (family : Family) (k : Kernel) :
    listsTable family (tableListing k) = hasTable family "magicbox" k.tables := by
  have hfamily : ∀ f : Family, (f.text == family.text) = decide (f = family) := by
    intro f
    cases f <;> cases family <;> decide
  unfold listsTable tableListing hasTable
  rw [List.any_cons, List.any_map]
  have hhead : (((Value.null.set "metainfo" (Value.null.set "json_schema_version" (.uint 1))).get
      "table").get "name").eqString "magicbox" = false := by decide
  rw [hhead, Bool.false_and, Bool.false_or]
  congr 1
  funext t
  have hname : (t.name == "magicbox") = decide (t.name = "magicbox") := rfl
  simp [Table.named, Bool.and_comm, hfamily, hname]

/-- A listing that answers, answers with what the kernel has. -/
theorem tableExists_returned {family : Family} {w : World} {found : Bool}
    (h : (tableExists family w).1 = .returned found) :
    found = hasTable family "magicbox" w.kernel.tables := by
  have hlist := probe_returned h
  cases hlist
  exact listsTable_tableListing family w.kernel

/-- The tables after the guard took the place of whatever ruleset there was. -/
def swapTables (c : NetworkConfig) (tables : List Table) : List Table :=
  Nftables.dropTable .inet "magicbox" tables ++ [guardTable c]

theorem dropTable_of_absent {family : Family} {name : String} {tables : List Table}
    (h : hasTable family name tables = false) : Nftables.dropTable family name tables = tables := by
  refine List.filter_eq_self.mpr fun t ht => ?_
  have : t.named family name = false := by
    unfold hasTable at h
    exact List.any_eq_false.mp h t ht |> Bool.eq_false_iff.mpr
  simp [this]

theorem hasTable_dropTable (family : Family) (name : String) (tables : List Table) :
    hasTable family name (Nftables.dropTable family name tables) = false := by
  unfold hasTable Nftables.dropTable
  refine List.any_eq_false.mpr fun t ht => ?_
  have := (List.mem_filter.mp ht).2
  simpa using this

/-- The batch of the first restoration step succeeds and leaves the guard alone. -/
theorem runBatch_swap (c : NetworkConfig) (tables : List Table) :
    runBatch ((if hasTable .inet "magicbox" tables then [.deleteTable .inet "magicbox"] else []) ++
      [.define (guardTable c)]) tables = some (swapTables c tables) := by
  have hgone := hasTable_dropTable .inet "magicbox" tables
  cases h : hasTable .inet "magicbox" tables with
  | true =>
    simp [runBatch, Command.run, h, hgone, guardTable, swapTables]
  | false =>
    simp [runBatch, Command.run, h, guardTable, swapTables, dropTable_of_absent h]

theorem runBatch_delete (family : Family) (tables : List Table) :
    (runBatch [.deleteTable family "magicbox"] tables).getD tables =
      Nftables.dropTable family "magicbox" tables := by
  cases h : hasTable family "magicbox" tables with
  | true => simp [runBatch, Command.run, h]
  | false => simp [runBatch, Command.run, h, dropTable_of_absent h]

def mapTables (f : List Table → List Table) (k : Kernel) : Kernel := { k with tables := f k.tables }

theorem performs_tableExists {β : Type} {family : Family} {f : Bool → Controller β}
    {u : Kernel → Kernel} {us : List (Kernel → Kernel)}
    (h : ∀ w, ∃ n, n ≤ (u :: us).length ∧
      (f (hasTable family "magicbox" w.kernel.tables) w).2.kernel =
        applyAll ((u :: us).take n) w.kernel ∧
      ∀ b, (f (hasTable family "magicbox" w.kernel.tables) w).1 = .returned b →
        n = (u :: us).length) :
    Performs World.kernel (u :: us) (tableExists family >>= f) := by
  intro w
  have hlook := (looking_tableExists family w).kernel
  rw [bind_run]
  rcases hrun : tableExists family w with ⟨found | e | _, t⟩ <;> rw [hrun] at hlook
  · obtain rfl := tableExists_returned (by rw [hrun])
    have := h t
    dsimp only at hlook ⊢
    rwa [hlook] at this
  · exact ⟨0, Nat.zero_le _, hlook, by simp⟩
  · exact ⟨0, Nat.zero_le _, hlook, by simp⟩

theorem performs_swapGuard (c : NetworkConfig) :
    Performs World.kernel [mapTables (swapTables c), id] (swapGuard c) := by
  refine performs_tableExists fun w => ?_
  have hbatch := (performs_nft ((if hasTable .inet "magicbox" w.kernel.tables then
    [.deleteTable .inet "magicbox"] else []) ++ [.define (guardTable c)])).bind
      (fun _ => performs_clearConnections) w
  obtain ⟨n, hn, hv, hret⟩ := hbatch
  refine ⟨n, hn, ?_, hret⟩
  rw [hv]
  match n, hn with
  | 0, _ => rfl
  | 1, _ => simp [requests, runBatch_swap, mapTables]
  | 2, _ => simp [requests, runBatch_swap, mapTables]

theorem performs_dropTable (family : Family) :
    Performs World.kernel [mapTables (Nftables.dropTable family "magicbox")]
      (dropTable family) := by
  refine performs_tableExists fun w => ?_
  cases h : hasTable family "magicbox" w.kernel.tables with
  | true =>
    obtain ⟨n, hn, hv, hret⟩ := performs_nft [.deleteTable family "magicbox"] w
    refine ⟨n, hn, ?_, hret⟩
    rw [if_pos rfl, hv]
    match n, hn with
    | 0, _ => rfl
    | 1, _ => simp [requests, runBatch_delete, mapTables]
  | false =>
    refine ⟨1, Nat.le_refl _, ?_, fun _ _ => rfl⟩
    simp [mapTables, dropTable_of_absent h]

theorem resetSysctl_run {file : Sysctl} {name value : String} {w : World}
    (h : w.state_.get name = .string value) :
    resetSysctl file name w = writeFile file value w := by
  unfold resetSysctl member
  rw [bind_returned (read_run _ w), h, Value.asString_string, bind_returned (liftExcept_ok _ w)]

/-- Whatever value is written, a sysctl reset keeps what every write to its file keeps. -/
theorem resetSysctl_keeps {I : Kernel → Prop} {file : Sysctl} (name : String)
    (keep : ∀ value k, I k → I (k.after (.write file value))) :
    Triple (fun w => I w.kernel) (resetSysctl file name) fun _ w => I w.kernel := by
  intro w hw
  unfold resetSysctl member
  rw [bind_returned (read_run _ w)]
  cases hv : (w.state_.get name).asString with
  | error e => exact hw
  | ok value =>
    rw [bind_returned (liftExcept_ok _ w)]
    refine (performs_writeFile file value).keeps ?_ w hw
    simpa [requests] using keep value

/-- The text a field converts to, empty when the conversion throws. -/
def textOf (x : Except Exn String) : String := x.toOption.getD ""

def resetRequests (info : Value) : List Request :=
  let name := textOf (info.index "ifname" >>= Value.asString)
  let up := hasFlag ((info.index "flags").toOption.getD .null) "UP"
  [.setLink name false none,
   .setLink name false (macAttribute (textOf (info.index "address" >>= Value.asString))),
   .write (.disableIpv6 name) (textOf (info.index "disable_ipv6" >>= Value.asString)),
   .write (.rpFilter name) (textOf (info.index "rp_filter" >>= Value.asString)),
   .setLink name up none]

theorem performs_resetPort (info : Value) :
    Performs World.kernel (requests (resetRequests info)) (resetPort info) := by
  unfold resetPort resetRequests
  refine performs_liftExcept fun name hname => performs_liftExcept fun flags hflags => ?_
  rw [hname, hflags]
  refine (performs_linkState _ _ _).bind fun _ => performs_liftExcept fun mac hmac => ?_
  rw [hmac]
  refine (performs_linkState _ _ _).bind fun _ => performs_liftExcept fun value hvalue => ?_
  rw [hvalue]
  refine (performs_writeFile _ _).bind fun _ => performs_liftExcept fun value hvalue => ?_
  rw [hvalue]
  exact (performs_writeFile _ _).bind fun _ => performs_linkState _ _ _

end Magicbox.Source.NetworkController
