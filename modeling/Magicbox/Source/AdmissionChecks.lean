import Magicbox.Source.KernelRequests

/-!
# The checks of apply

What the kernel looks like where `apply` goes on behind its checks, read off the
listings that it looks through. The checks change nothing, and they end in a
baseline, in an exception, or where the process is cut while it waits for an
answer.
-/

set_option autoImplicit false

namespace Magicbox.Source.NetworkController
open Library.Crash Json Config ConfigJson Nftables Netns

/-! ## What the checks let through -/

theorem readFile_cases {file : Sysctl} {w w' : World} {o : Outcome Exn String}
    (h : readFile file w = (o, w')) :
    Looking w w' ∧ ∀ value, o = .returned value → w.kernel.readSysctl file = some value := by
  have look : Looking w (readFile file w).2 := looking_probe _ w
  rw [h] at look
  refine ⟨look, fun value ho => ?_⟩
  subst ho
  have hvalue := probe_returned (w := w) (a := value) (congrArg Prod.fst h)
  split at hvalue
  · next h' => cases hvalue; exact h'
  · cases hvalue

/-- The baseline entry of a port. -/
def capturedInfo (name : String) (link : Link) : Value :=
  ((linkInfo name link).set "disable_ipv6" (.string link.disableIpv6)).set "rp_filter"
    (.string link.rpFilter)

/-- A port that `apply` accepts: present, not the loopback, unenslaved and unaddressed. -/
structure Dedicated (k : Kernel) (name : String) (link : Link) : Prop where
  present : k.links name = some link
  loopback : name ≠ "lo"
  master : link.master = none
  unaddressed : link.addrInfo = []
  inet6 : link.inet6 = []

theorem linkInfo_isMember (name : String) (link : Link) :
    (linkInfo name link).isMember "master" = link.master.isSome := by
  unfold linkInfo
  cases link.master with
  | none => rfl
  | some master => simp

theorem linkInfo_addrInfo (name : String) (link : Link) :
    ((linkInfo name link).get "addr_info").empty =
      (link.addrInfo.isEmpty && link.inet6.isEmpty) := by
  unfold linkInfo
  cases link.master <;> cases link.addrInfo <;> cases link.inet6 <;> simp [Value.empty]

theorem capturePort_returned {name : String} {w w' : World} {info : Value}
    (h : capturePort name w = (.returned info, w')) :
    ∃ link, Dedicated w.kernel name link ∧ info = capturedInfo name link := by
  unfold capturePort at h
  obtain ⟨_, w₁, hindex, h⟩ := bind_eq_returned h
  have hk₁ : w₁.kernel = w.kernel := by
    have := (looking_indexOf name w).kernel
    rwa [hindex] at this
  obtain ⟨shown, w₂, hshow, h⟩ := bind_eq_returned h
  have hk₂ : w₂.kernel = w₁.kernel := by
    have look : Looking w₁ (showAddress name w₁).2 := looking_probe _ w₁
    rw [hshow] at look
    exact look.kernel
  have hshown := probe_returned (w := w₁) (a := shown) (congrArg Prod.fst hshow)
  split at hshown
  · next link hlink =>
    cases hshown
    split at h
    · cases h
    · next hgood =>
      obtain ⟨disableIpv6, w₃, hread, h⟩ := bind_eq_returned h
      obtain ⟨rpFilter, w₄, hread', h⟩ := bind_eq_returned h
      obtain ⟨look, hvalue⟩ := readFile_cases hread
      obtain ⟨-, hvalue'⟩ := readFile_cases hread'
      cases h
      have hd := hvalue disableIpv6 rfl
      have hr := hvalue' rpFilter rfl
      rw [look.kernel, hk₂] at hr
      rw [hk₂] at hd
      simp only [Kernel.readSysctl, hlink, Option.map_some, Option.some.injEq] at hd hr
      simp only [linkInfo_isMember, linkInfo_addrInfo, Bool.or_eq_true, not_or,
        Bool.not_eq_true, Option.isSome_eq_false_iff, Option.isNone_iff_eq_none,
        Bool.not_eq_false', Bool.and_eq_true, List.isEmpty_iff] at hgood
      obtain ⟨⟨hname, hmaster⟩, haddresses, hinet6⟩ := hgood
      refine ⟨link, ⟨hk₁ ▸ hlink, by simpa using hname, hmaster, haddresses, hinet6⟩, ?_⟩
      rw [capturedInfo, hd, hr]
  · cases hshown

theorem looking_eq {α : Type} {m : Controller α} (h : Within Looking m) {w w' : World}
    {o : Outcome Exn α} (hrun : m w = (o, w')) : Looking w w' := by
  have look := h w
  rwa [hrun] at look

/-- What the listings show free. -/
structure Vacant (k : Kernel) : Prop where
  tables : ∀ family, hasTable family "magicbox" k.tables = false
  rules : k.rules = []

/-- A listing uses up no lookup. -/
theorem tableExists_lookups {family : Family} {w w' : World} {o : Outcome Exn Bool}
    (h : tableExists family w = (o, w')) : w'.supply.lookups = w.supply.lookups := by
  have hend : w' = (tableExists family w).2 := by rw [h]
  rw [hend]
  unfold tableExists probe
  split <;> rfl

/-- The VLAN link is not there, or the lookup of it failed. -/
theorem checkReserved_returned {w w' : World} (h : checkReserved w = (.returned (), w')) :
    (∀ family, hasTable family "magicbox" w.kernel.tables = false) ∧
      (w.supply.looks && w.kernel.present vlanName) = false := by
  obtain ⟨ip, w₁, hip, h⟩ := bind_eq_returned h
  obtain rfl := tableExists_returned (congrArg Prod.fst hip)
  have hk₁ := (looking_eq (looking_tableExists _) hip).kernel
  have hl₁ := tableExists_lookups hip
  split at h
  · cases h
  · next hnoIp =>
    obtain ⟨inet, w₂, hinet, h⟩ := bind_eq_returned h
    obtain rfl := tableExists_returned (congrArg Prod.fst hinet)
    have hk₂ := (looking_eq (looking_tableExists _) hinet).kernel
    split at h
    · cases h
    · next hnoInet =>
      have hlooks : w₂.supply.looks = w.supply.looks := by
        rw [Supply.looks, tableExists_lookups hinet, hl₁, Supply.looks]
      rw [bind_returned (ifNametoindex_run vlanName w₂)] at h
      split at h
      · cases h
      · next hnoVlan =>
        have hvlan : (w.supply.looks && w.kernel.present vlanName) = false := by
          rw [← hk₁, ← hk₂, ← hlooks]
          simpa using hnoVlan
        rw [hk₁] at hnoInet
        refine ⟨fun family => ?_, hvlan⟩
        cases family with
        | ip => simpa using hnoIp
        | inet => simpa using hnoInet

/-- The admission check sees an entry of the reserved table where the host prints numbers. -/
theorem routeListing_occupied (k : Kernel) :
    (routeListing k).any occupiesTable = (k.numericTables && !k.routes.isEmpty) := by
  have hentry : ∀ r : Route, occupiesTable ((Value.null.set "dev" (.string r.oif)).set "table"
      (if k.numericTables then .uint tableId else .string (toString tableId))) =
        k.numericTables := by
    intro r
    cases k.numericTables <;>
      simp [occupiesTable, Value.isUInt, Value.asUInt, Value.maxUInt, tableId]
  simp only [routeListing, List.any_map, Function.comp_def, hentry]
  cases k.routes with
  | nil => simp
  | cons r rest => cases k.numericTables <;> simp

theorem checkRoutes_returned {w w' : World} (h : checkRoutes w = (.returned (), w')) :
    w.kernel.numericTables = true → w.kernel.routes = [] := by
  obtain ⟨routes, w₁, hprobe, h⟩ := bind_eq_returned h
  have hlisting := probe_returned (w := w) (a := routes) (congrArg Prod.fst hprobe)
  rw [← Except.ok.inj hlisting, routeListing_occupied] at h
  split at h
  · cases h
  · next hfree =>
    intro hnumeric
    simpa [hnumeric] using hfree

theorem checkRules_returned {w w' : World} (h : checkRules w = (.returned (), w')) :
    w.kernel.rules = [] := by
  obtain ⟨rules, w₁, hprobe, h⟩ := bind_eq_returned h
  have hlisting := probe_returned (w := w) (a := rules) (congrArg Prod.fst hprobe)
  rw [← Except.ok.inj hlisting] at h
  cases hrules : w.kernel.rules with
  | nil => rfl
  | cons r rest =>
    simp only [ruleListing, hrules, List.map_cons, checkPriorities] at h
    cases h

/-- What `apply` knows once every check has passed. -/
structure Admitted (c : NetworkConfig) (baseline : Value) (w : World) : Prop where
  enabled : w.enabled = true
  inactive : w.state_.get "status" = .string "inactive"
  valid : validate c = []
  vacant : Vacant w.kernel
  vlan : (w.supply.looks && w.kernel.present vlanName) = false
  routes : w.kernel.numericTables = true → w.kernel.routes = []
  captured : ∃ outer inner, Dedicated w.kernel c.outerInterface outer ∧
    Dedicated w.kernel c.innerInterface inner ∧
    baseline = .array [capturedInfo c.outerInterface outer, capturedInfo c.innerInterface inner]

theorem checkAdmission_returned {c : NetworkConfig} {baseline : Value} {w w' : World}
    (h : checkAdmission c w = (.returned baseline, w')) :
    Looking w w' ∧ Admitted c baseline w := by
  refine ⟨looking_eq (looking_checkAdmission c) h, ?_⟩
  unfold checkAdmission at h
  rw [bind_returned (read_run _ w)] at h
  split at h
  · cases h
  · next henabled =>
    unfold status at h
    rw [bind_returned (read_run _ w)] at h
    split at h
    · cases h
    · next hstatus =>
      obtain ⟨c', w₁, hparse, h⟩ := bind_eq_returned h
      have hvalid : validate c = [] := by
        cases hconfig : configFromJson (configJson c) with
        | error e => rw [hconfig] at hparse; cases hparse
        | ok c'' => exact (configFromJson_configJson_ok hconfig).2
      obtain rfl : w = w₁ := by rw [← liftExcept_state _ w, hparse]
      obtain ⟨_, w₂, hreserved, h⟩ := bind_eq_returned h
      have look₂ := looking_eq looking_checkReserved hreserved
      obtain ⟨_, w₃, hroutes, h⟩ := bind_eq_returned h
      have look₃ := looking_eq looking_checkRoutes hroutes
      obtain ⟨_, w₄, hrules, h⟩ := bind_eq_returned h
      have look₄ := looking_eq looking_checkRules hrules
      obtain ⟨info, w₅, houter, h⟩ := bind_eq_returned h
      have look₅ := looking_eq (looking_capturePort _) houter
      obtain ⟨info', w₆, hinner, h⟩ := bind_eq_returned h
      obtain ⟨_, w₇, hcheck, h⟩ := bind_eq_returned h
      cases h
      obtain ⟨outer, douter, rfl⟩ := capturePort_returned houter
      obtain ⟨inner, dinner, rfl⟩ := capturePort_returned hinner
      have hk₄ : w₄.kernel = w.kernel := by
        rw [look₄.kernel, look₃.kernel, look₂.kernel]
      rw [look₅.kernel, hk₄] at dinner
      rw [hk₄] at douter
      obtain ⟨htables, hvlan⟩ := checkReserved_returned hreserved
      have hroutes := checkRoutes_returned hroutes
      have hrules := checkRules_returned hrules
      rw [look₂.kernel] at hroutes
      rw [look₃.kernel, look₂.kernel] at hrules
      refine ⟨by simpa using henabled, ?_, hvalid, ⟨htables, hrules⟩, hvlan, hroutes, outer, inner,
        douter, dinner, rfl⟩
      exact Value.eqString_iff.mp (by simpa using hstatus)

/-! ## Where the checks are cut -/

/-- A run that is cut was waiting for the answer of a listing or a file. -/
def Waits {α : Type} (m : Controller α) : Prop :=
  ∀ w, (m w).1 = .crashed → (m w).2.supply.probes = []

section Waits
variable {α β : Type}

theorem waits_pure (a : α) : Waits (pure a : Controller α) := fun _ h => by cases h

theorem waits_raise (e : Exn) : Waits (raise e : Controller α) := fun _ h => by cases h

theorem waits_read (f : World → α) : Waits (read f : Controller α) := fun _ h => by cases h

theorem waits_liftExcept (x : Except Exn α) : Waits (liftExcept x : Controller α) := by
  cases x
  · exact waits_raise _
  · exact waits_pure _

theorem waits_probe (f : Kernel → Except Exn α) : Waits (probe f) := by
  intro w h
  unfold probe at h ⊢
  split
  · next hnone => exact hnone
  · next hsome =>
    simp only [hsome] at h
    exact waits_liftExcept _ _ h
  · next hsome =>
    simp only [hsome] at h
    cases h
  · next hsome =>
    simp only [hsome] at h
    cases h

theorem waits_bind {m : Controller α} {f : α → Controller β} (hm : Waits m)
    (hf : ∀ a, Waits (f a)) : Waits (m >>= f) := by
  intro w h
  have hfirst := hm w
  rw [bind_run] at h ⊢
  rcases hrun : m w with ⟨a | e | _, t⟩ <;> rw [hrun] at h hfirst
  · exact hf a t h
  · cases h
  · exact hfirst rfl

theorem waits_ifNametoindex (name : String) : Waits (ifNametoindex name) := by
  intro w h
  rw [ifNametoindex_run] at h
  cases h

theorem waits_checkReserved : Waits checkReserved := by
  refine waits_bind (waits_probe _) fun ip => ?_
  cases ip
  · refine waits_bind (waits_probe _) fun inet => ?_
    cases inet
    · refine waits_bind (waits_ifNametoindex _) fun vlan => ?_
      cases vlan
      · exact waits_pure _
      · exact waits_raise _
    · exact waits_raise _
  · exact waits_raise _

theorem waits_checkRoutes : Waits checkRoutes := by
  refine waits_bind (waits_probe _) fun routes => ?_
  split
  · exact waits_raise _
  · exact waits_pure _

theorem waits_capturePort (name : String) : Waits (capturePort name) := by
  refine waits_bind (waits_bind (waits_read _) fun found => ?_) fun _ => ?_
  · cases found
    · exact waits_raise _
    · exact waits_pure _
  · refine waits_bind (waits_probe _) fun info => ?_
    split
    · exact waits_raise _
    · refine waits_bind (waits_probe _) fun disableIpv6 => ?_
      exact waits_bind (waits_probe _) fun rpFilter => waits_pure _

theorem waits_checkAdmission (c : NetworkConfig) : Waits (checkAdmission c) := by
  refine waits_bind (waits_read _) fun enabled => ?_
  split
  · exact waits_raise _
  · refine waits_bind (waits_read _) fun status => ?_
    split
    · exact waits_raise _
    · refine waits_bind (waits_liftExcept _) fun _ => ?_
      refine waits_bind waits_checkReserved fun _ => ?_
      refine waits_bind waits_checkRoutes fun _ => ?_
      refine waits_bind (waits_bind (waits_probe _) fun _ => waits_liftExcept _) fun _ => ?_
      refine waits_bind (waits_capturePort _) fun outer => ?_
      refine waits_bind (waits_capturePort _) fun inner => ?_
      exact waits_bind (waits_probe _) fun _ => waits_pure _

end Waits

/-! ## Answers that let the checks through -/

/-- A world in which the next `n` listings and files can be read, and nothing can be written. The
lookup of the admission goes through, or it fails. -/
def reading (w : World) (looks : List Bool) (n : Nat) : World :=
  { w with supply := { probes := List.replicate n .done, lookups := looks } }

section Reading
variable {w : World} {looks : List Bool} {n : Nat} {c : NetworkConfig}

theorem probe_reading {α : Type} (f : Kernel → Except Exn α) :
    probe f (reading w looks (n + 1)) = liftExcept (f w.kernel) (reading w looks n) := rfl

theorem tableExists_reading (h : Vacant w.kernel) (family : Family) :
    tableExists family (reading w looks (n + 1)) = (.returned false, reading w looks n) := by
  rw [tableExists, probe_reading, listsTable_tableListing, h.tables family]
  rfl

theorem checkReserved_reading (h : Vacant w.kernel)
    (hvlan : (looks.head?.getD true && w.kernel.present vlanName) = false) :
    checkReserved (reading w looks (n + 2)) = (.returned (), reading w looks.tail n) := by
  have hlook : ifNametoindex vlanName (reading w looks n) =
      (.returned false, reading w looks.tail n) := by
    rw [ifNametoindex_run]
    exact congrArg (fun found => (Outcome.returned found, reading w looks.tail n)) hvlan
  rw [checkReserved, bind_returned (tableExists_reading h .ip), if_neg Bool.false_ne_true,
    bind_returned (tableExists_reading h .inet), if_neg Bool.false_ne_true, bind_returned hlook]
  rfl

theorem checkRoutes_reading (h : w.kernel.numericTables = true → w.kernel.routes = []) :
    checkRoutes (reading w looks (n + 1)) = (.returned (), reading w looks n) := by
  have hfree : (routeListing w.kernel).any occupiesTable = false := by
    rw [routeListing_occupied]
    cases hnumeric : w.kernel.numericTables with
    | false => rfl
    | true => simp [h hnumeric]
  have hprobe : probe (fun k => Except.ok (routeListing k)) (reading w looks (n + 1)) =
      (.returned (routeListing w.kernel), reading w looks n) := rfl
  rw [checkRoutes, bind_returned hprobe, hfree]
  rfl

theorem checkRules_reading (h : Vacant w.kernel) :
    checkRules (reading w looks (n + 1)) = (.returned (), reading w looks n) := by
  have hprobe : probe (fun k => Except.ok (ruleListing k)) (reading w looks (n + 1)) =
      (.returned (ruleListing w.kernel), reading w looks n) := rfl
  rw [checkRules, bind_returned hprobe, ruleListing, h.rules]
  rfl

theorem capturePort_reading {name : String} {link : Link} (h : Dedicated w.kernel name link) :
    capturePort name (reading w looks (n + 3)) =
      (.returned (capturedInfo name link), reading w looks n) := by
  have hindex : indexOf name (reading w looks (n + 3)) =
      (.returned (), reading w looks (n + 3)) := by
    have hpresent : (reading w looks (n + 3)).kernel.present name = true := by
      simp [reading, Kernel.present, h.present]
    simp only [indexOf]
    rw [bind_returned (read_run _ _), hpresent]
    rfl
  have hshow : showAddress name (reading w looks (n + 3)) =
      (.returned (linkInfo name link), reading w looks (n + 2)) := by
    rw [showAddress, probe_reading, h.present]
    rfl
  have hread : ∀ file value m, w.kernel.readSysctl file = some value →
      readFile file (reading w looks (m + 1)) = (.returned value, reading w looks m) := by
    intro file value m hvalue
    rw [readFile, probe_reading, hvalue]
    rfl
  have hfit : (name == "lo" || (linkInfo name link).isMember "master" ||
      !((linkInfo name link).get "addr_info").empty) = false := by
    simp [linkInfo_isMember, linkInfo_addrInfo, h.loopback, h.master, h.unaddressed, h.inet6]
  have hipv6 := hread (.disableIpv6 name) link.disableIpv6 (n + 1) (by
    simp [Kernel.readSysctl, h.present])
  have hfilter := hread (.rpFilter name) link.rpFilter n (by simp [Kernel.readSysctl, h.present])
  rw [capturePort, bind_returned hindex, bind_returned hshow, hfit, if_neg Bool.false_ne_true,
    bind_returned hipv6, bind_returned hfilter]
  rfl

/-- With eleven answers every check is through. -/
theorem checkAdmission_reading {outer inner : Link} (henabled : w.enabled = true)
    (hinactive : w.state_.get "status" = .string "inactive") (hvalid : validate c = [])
    (hvacant : Vacant w.kernel)
    (hvlan : (looks.head?.getD true && w.kernel.present vlanName) = false)
    (hroutes : w.kernel.numericTables = true → w.kernel.routes = [])
    (houter : Dedicated w.kernel c.outerInterface outer)
    (hinner : Dedicated w.kernel c.innerInterface inner) :
    checkAdmission c (reading w looks (n + 11)) =
      (.returned (.array [capturedInfo c.outerInterface outer,
        capturedInfo c.innerInterface inner]), reading w looks.tail n) := by
  have hread : (reading w looks (n + 11)).enabled = true := henabled
  have hstatus : ((reading w looks (n + 11)).state_.get "status").eqString "inactive" = true :=
    Value.eqString_iff.mpr hinactive
  rw [checkAdmission, bind_returned (read_run _ _), hread, if_neg (by simp), status,
    bind_returned (read_run _ _), hstatus, if_neg (by simp), configFromJson_configJson hvalid,
    bind_returned (liftExcept_ok _ _), bind_returned (checkReserved_reading hvacant hvlan),
    bind_returned (checkRoutes_reading hroutes), bind_returned (checkRules_reading hvacant),
    bind_returned (capturePort_reading houter), bind_returned (capturePort_reading hinner)]
  rfl

end Reading

end Magicbox.Source.NetworkController
