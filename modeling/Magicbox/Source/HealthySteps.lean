import Magicbox.Library.Completion
import Magicbox.Source.AdmissionChecks
import Magicbox.Source.ControllerRuns
import Magicbox.Source.KernelRequests

/-!
# Steps on a healthy host

An environment in which nothing goes wrong: every listing answers, the kernel
takes every request that its state allows, every journal write succeeds, and the
clock never moves on by a whole confirmation window at once. A step completes
there exactly if the state of the kernel allows it; the lemmas say so step by
step, with the number of answers that are used up.
-/

set_option autoImplicit false

namespace Magicbox.Source.NetworkController
open Library.Crash Library.Completion Json Config ConfigJson Nftables Netns

/-- Enough answers of each kind for `n` steps, all of them positive. -/
structure Healthy (n : Nat) (supply : Supply) : Prop where
  clock : n ≤ supply.clock.length
  steady : ∀ elapsed ∈ supply.clock, elapsed < confirmationWindow
  probes : n ≤ supply.probes.length
  listed : ∀ answer ∈ supply.probes, answer = .done
  kernel : n ≤ supply.kernel.length
  served : ∀ answer ∈ supply.kernel, answer = .done
  puts : n ≤ supply.puts.length
  journaled : ∀ answer ∈ supply.puts, answer = .done
  found : supply.looksUp

/-- Enough is left in the world. -/
def Supplied (n : Nat) (w : World) : Prop := Healthy n w.supply

theorem budget_supplied : Budget Supplied := fun n w h =>
  ⟨by have := h.clock; omega, h.steady, by have := h.probes; omega, h.listed,
    by have := h.kernel; omega, h.served, by have := h.puts; omega, h.journaled, h.found⟩

/-- `Completes` on a healthy host. -/
abbrev Succeeds {α : Type} (cost : Nat) (m : Controller α) (w : World)
    (Q : α → World → Prop) : Prop :=
  Completes Supplied cost m w Q

/-- The first answer of a supply that has enough of them. -/
theorem cons_of_enough {α : Type} {n : Nat} {answers : List α} (h : n + 1 ≤ answers.length) :
    ∃ answer rest, answers = answer :: rest ∧ n ≤ rest.length := by
  cases answers with
  | nil => simp at h
  | cons answer rest => exact ⟨answer, rest, rfl, by simpa using h⟩

section Steps
variable {α : Type} {w : World} {n : Nat}

theorem succeeds_probe {f : Kernel → Except Exn α} {a : α} (h : f w.kernel = .ok a) :
    Succeeds 1 (probe f) w fun b w' => Looking w w' ∧ b = a := by
  refine Completes.within ?_ (looking_probe f)
  intro n hs
  obtain ⟨answer, rest, hprobes, hrest⟩ := cons_of_enough hs.probes
  have hdone : answer = .done := hs.listed answer (by rw [hprobes]; exact List.mem_cons_self)
  subst hdone
  have hless := budget_supplied n w hs
  refine ⟨a, { w with supply := { w.supply with probes := rest } }, ?_, ?_, rfl⟩
  · simp only [probe, hprobes, h]
    rfl
  · refine { hless with probes := hrest, listed := fun b hb => ?_ }
    exact hs.listed b (by rw [hprobes]; exact List.mem_cons_of_mem _ hb)

/-- What the kernel says to a request, and what it is afterwards. -/
structure Served (r : Request) (w w' : World) : Prop extends Quiet w w' where
  kernel : w'.kernel = w.kernel.after r

theorem succeeds_request (r : Request) :
    Succeeds 1 (request r) w fun answer w' => Served r w w' ∧
      ((∃ k, w.kernel.serve r = .ok k) → answer = none) ∧
      ∀ errno, w.kernel.serve r = .error errno → answer = some errno := by
  refine (Completes.within (Q := fun answer w' => w'.kernel = w.kernel.after r ∧
    ((∃ k, w.kernel.serve r = .ok k) → answer = none) ∧
    ∀ errno, w.kernel.serve r = .error errno → answer = some errno) ?_ (quiet_request r)).imp
    fun answer w' h => ⟨⟨h.1, h.2.1⟩, h.2.2⟩
  intro n hs
  obtain ⟨answer, rest, hkernel, hrest⟩ := cons_of_enough hs.kernel
  have hdone : answer = .done := hs.served answer (by rw [hkernel]; exact List.mem_cons_self)
  subst hdone
  have hless := budget_supplied n w hs
  have hleft : Healthy n { w.supply with kernel := rest } := by
    refine { hless with kernel := hrest, served := fun b hb => ?_ }
    exact hs.served b (by rw [hkernel]; exact List.mem_cons_of_mem _ hb)
  let w' : World := { w with
    supply := { w.supply with kernel := rest }, log := w.log ++ [.requested r .done],
    kernel := w.kernel.after r }
  cases hserve : w.kernel.serve r with
  | ok k =>
    refine ⟨none, w', ?_, hleft, rfl, fun _ => rfl, fun errno h => by cases h⟩
    simp only [request, hkernel, hserve, w', Kernel.after]
  | error errno =>
    refine ⟨some errno, w', ?_, hleft, rfl, fun h => ?_, fun other h => ?_⟩
    · simp only [request, hkernel, hserve, w', Kernel.after]
    · obtain ⟨k, hk⟩ := h
      cases hk
    · cases h
      rfl

theorem succeeds_putState :
    Succeeds 1 putState w fun _ w' => PutEffect (.returned ()) w w' ∧ journal w' = w.state_ := by
  intro n hs
  obtain ⟨answer, rest, hputs, hrest⟩ := cons_of_enough hs.puts
  have hdone : answer = .done := hs.journaled answer (by rw [hputs]; exact List.mem_cons_self)
  subst hdone
  have hrun : putState w = (.returned (), persisted (journaling w rest .done)) := by
    simp only [putState, hputs]
    rfl
  have effect := putState_effect hrun
  refine ⟨(), _, hrun, ?_, effect, effect.done rfl⟩
  refine { budget_supplied n w hs with puts := hrest, journaled := fun b hb => ?_ }
  exact hs.journaled b (by rw [hputs]; exact List.mem_cons_of_mem _ hb)

/-- The clock was read less than a confirmation window after the last time. -/
theorem succeeds_steadyNow :
    Succeeds 1 steadyNow w fun now w' => ∃ elapsed rest, w.supply.clock = elapsed :: rest ∧
      elapsed < confirmationWindow ∧ now = w.clock + elapsed ∧ w' = advanced elapsed rest w := by
  intro n hs
  obtain ⟨elapsed, rest, hclock, hrest⟩ := cons_of_enough hs.clock
  have hlate : elapsed < confirmationWindow :=
    hs.steady elapsed (by rw [hclock]; exact List.mem_cons_self)
  refine ⟨w.clock + elapsed, advanced elapsed rest w, steadyNow_cons hclock, ?_, elapsed, rest,
    hclock, hlate, rfl, rfl⟩
  refine { budget_supplied n w hs with clock := hrest, steady := fun b hb => ?_ }
  exact hs.steady b (by rw [hclock]; exact List.mem_cons_of_mem _ hb)

/-- A request that the kernel takes, or that asks for something to be gone that is. -/
def Accepts (k : Kernel) (missingOk : Bool) (r : Request) : Prop :=
  (∃ k', k.serve r = .ok k') ∨
    missingOk = true ∧ ∃ errno, k.serve r = .error errno ∧ errno.missing = true

theorem succeeds_netlink {fill : Controller Request} {r : Request} {missingOk : Bool}
    (hfill : fill w = (.returned r, w)) (h : Accepts w.kernel missingOk r) :
    Succeeds 1 (netlink fill missingOk) w fun _ w' => Served r w w' := by
  intro n hs
  unfold netlink
  rw [bind_returned hfill]
  refine ((succeeds_request r).bind fun answer w' hanswer => ?_ : Succeeds (1 + 0) _ w _) n hs
  obtain ⟨hserved, htaken, herror⟩ := hanswer
  rcases h with htake | ⟨hmissing, errno, hserve, hgone⟩
  · rw [htaken htake]
    exact Completes.pure hserved
  · rw [herror errno hserve]
    simp only [hmissing, hgone, Bool.and_self, if_true]
    exact Completes.pure hserved

theorem succeeds_writeFile {file : Sysctl} (value : String)
    (h : ∃ k, w.kernel.serve (.write file value) = .ok k) :
    Succeeds 1 (writeFile file value) w fun _ w' => Served (.write file value) w w' := by
  change Succeeds (1 + 0) (writeFile file value) w _
  refine (succeeds_request (.write file value)).bind fun answer w' hanswer => ?_
  rw [hanswer.2.1 h]
  exact Completes.pure hanswer.1

theorem succeeds_nft {batch : Batch} (h : ∃ k, w.kernel.serve (.nft batch) = .ok k) :
    Succeeds 1 (nft batch) w fun _ w' => Served (.nft batch) w w' := by
  change Succeeds (1 + 0) (nft batch) w _
  refine (succeeds_request (.nft batch)).bind fun answer w' hanswer => ?_
  rw [hanswer.2.1 h]
  exact Completes.pure hanswer.1

theorem succeeds_tableExists (family : Family) :
    Succeeds 1 (tableExists family) w fun found w' => Looking w w' ∧
      found = hasTable family "magicbox" w.kernel.tables :=
  succeeds_probe (congrArg Except.ok (listsTable_tableListing family w.kernel))

/-! ## Single steps -/

theorem indexOf_run {name : String} (h : w.kernel.present name = true) :
    indexOf name w = (.returned (), w) := by
  unfold indexOf
  rw [bind_returned (read_run _ w), if_pos h]
  rfl

theorem succeeds_indexOf {name : String} (h : w.kernel.present name = true) :
    Succeeds 0 (indexOf name) w fun _ w' => w' = w :=
  fun _ hs => ⟨(), w, indexOf_run h, hs, rfl⟩

/-- A lookup tells what is there. -/
theorem succeeds_lookUp (name : String) :
    Succeeds 0 (lookUp name) w fun found w' => Looked name found w w' ∧
      found = w.kernel.present name := by
  intro n hs
  obtain ⟨found, w', hrun, looked⟩ := lookUp_run name w
  refine ⟨found, w', hrun, ?_, looked, by rw [looked.found, hs.found.next, Bool.true_and]⟩
  refine ⟨looked.ticks ▸ hs.clock, looked.ticks ▸ hs.steady, looked.probes ▸ hs.probes,
    looked.probes ▸ hs.listed, looked.answers ▸ hs.kernel, looked.answers ▸ hs.served,
    looked.puts ▸ hs.puts, looked.puts ▸ hs.journaled, fun ok hok => hs.found ok ?_⟩
  exact looked.lookups hok

theorem succeeds_ifNametoindex (name : String) :
    Succeeds 0 (ifNametoindex name) w fun found w' => Looking w w' ∧
      found = w.kernel.present name := by
  refine Completes.within ?_ (looking_ifNametoindex name)
  intro n hs
  refine ⟨_, _, ifNametoindex_run name w, ?_, by rw [hs.found.next, Bool.true_and]⟩
  exact { hs with found := fun ok hok => hs.found ok (List.mem_of_mem_tail hok) }

/-- A MAC text that `link_state` can decode, or none. -/
def Decodes (mac : String) : Prop := mac.isEmpty = true ∨ ∃ bytes, macBytes mac = .ok bytes

theorem decodes_none : Decodes "" := .inl rfl

theorem succeeds_linkState {name : String} {up : Bool} {mac : String}
    (hpresent : w.kernel.present name = true) (hmac : Decodes mac) :
    Succeeds 1 (linkState name up mac) w fun _ w' =>
      Served (.setLink name up (macAttribute mac)) w w' := by
  refine succeeds_netlink ?_ (.inl ?_)
  · rw [bind_returned (indexOf_run hpresent)]
    unfold macAttribute
    cases hempty : mac.isEmpty with
    | true => rfl
    | false =>
      obtain ⟨bytes, hbytes⟩ := hmac.resolve_left (by simp [hempty])
      rw [hbytes]
      rfl
  · obtain ⟨link, hlink⟩ := Option.isSome_iff_exists.mp hpresent
    simp only [Kernel.serve, Kernel.onLink, hlink]
    exact ⟨_, rfl⟩

/-- A write to the file of a link that is there, or of the host. -/
def Sysctl.Exists (k : Kernel) : Sysctl → Prop
  | .disableIpv6 name | .rpFilter name => k.present name = true
  | .ipForward | .rpFilterAll => True

theorem serve_write {k : Kernel} {file : Sysctl} (h : Sysctl.Exists k file) (value : String) :
    ∃ k', k.serve (.write file value) = .ok k' := by
  cases file with
  | disableIpv6 name =>
    obtain ⟨link, hlink⟩ := Option.isSome_iff_exists.mp h
    simp only [Kernel.serve, Kernel.onLink, hlink]
    exact ⟨_, rfl⟩
  | rpFilter name =>
    obtain ⟨link, hlink⟩ := Option.isSome_iff_exists.mp h
    simp only [Kernel.serve, Kernel.onLink, hlink]
    exact ⟨_, rfl⟩
  | ipForward => exact ⟨_, rfl⟩
  | rpFilterAll => exact ⟨_, rfl⟩

/-! ## Lists of requests -/

/-- The kernel takes the requests, one behind the other. -/
def Serves : Kernel → List Request → Prop
  | _, [] => True
  | k, r :: rs => (∃ k', k.serve r = .ok k') ∧ Serves (k.after r) rs

theorem serves_append {k : Kernel} {rs rs' : List Request} :
    Serves k (rs ++ rs') ↔ Serves k rs ∧ Serves (applyAll (requests rs) k) rs' := by
  induction rs generalizing k with
  | nil => simp [Serves]
  | cons r rs ih => simp [Serves, ih, and_assoc]

/-- A program that makes these requests, and comes to its end if the kernel takes them. -/
def Carries (rs : List Request) (m : Controller Unit) : Prop :=
  ∀ w, Serves w.kernel rs → Succeeds rs.length m w fun _ w' =>
    Quiet w w' ∧ w'.kernel = applyAll (requests rs) w.kernel

theorem Carries.bind {rs rs' : List Request} {m m' : Controller Unit} (hm : Carries rs m)
    (hm' : Carries rs' m') : Carries (rs ++ rs') (m >>= fun _ => m') := by
  intro w hserves
  obtain ⟨hfirst, hrest⟩ := serves_append.mp hserves
  rw [List.length_append]
  refine (hm w hfirst).bind fun _ w₁ h₁ => ?_
  refine (hm' w₁ (h₁.2 ▸ hrest)).imp fun _ w₂ h₂ => ⟨Quiet.trans _ _ _ h₁.1 h₂.1, ?_⟩
  rw [h₂.2, h₁.2, requests_append, applyAll_append]

theorem carries_pure : Carries [] (pure ()) :=
  fun w _ => Completes.pure ⟨Quiet.refl w, rfl⟩

theorem carries_one {r : Request} {m : Controller Unit}
    (h : ∀ w, (∃ k, w.kernel.serve r = .ok k) → Succeeds 1 m w fun _ w' => Served r w w') :
    Carries [r] m :=
  fun w hserves => (h w hserves.1).imp fun _ _ hserved => ⟨hserved.toQuiet, hserved.kernel⟩

theorem carries_writeFile (file : Sysctl) (value : String) :
    Carries [.write file value] (writeFile file value) :=
  carries_one fun _ h => succeeds_writeFile value h

theorem carries_nft (batch : Batch) : Carries [.nft batch] (nft batch) :=
  carries_one fun _ h => succeeds_nft h

/-- A request that the kernel takes names a link that is there. -/
theorem present_of_onLink {k k' : Kernel} {name : String} {f : Link → Except Errno Link}
    (h : k.onLink name f = .ok k') : k.present name = true := by
  unfold Kernel.onLink at h
  unfold Kernel.present
  cases hlink : k.links name with
  | none => rw [hlink] at h; cases h
  | some link => rfl

theorem carries_linkState (name : String) (up : Bool) {mac : String} (hmac : Decodes mac) :
    Carries [.setLink name up (macAttribute mac)] (linkState name up mac) :=
  carries_one fun _ h => succeeds_linkState (present_of_onLink h.choose_spec) hmac

/-- Without a MAC text only the state changes. -/
theorem carries_upDown (name : String) (up : Bool) :
    Carries [.setLink name up none] (linkState name up "") :=
  carries_linkState name up decodes_none

theorem carries_vlanAdd (c : NetworkConfig) :
    Carries [.addVlan c.outerInterface (c.vlanId.getD 0)] (vlanAdd c) := by
  refine carries_one fun w h => succeeds_netlink ?_ (.inl h)
  have hpresent : w.kernel.present c.outerInterface = true := by
    obtain ⟨k, hk⟩ := h
    unfold Kernel.present
    simp only [Kernel.serve] at hk
    split at hk
    · cases hk
    · split at hk
      · cases hk
      · next link hlink => rw [hlink]; rfl
  rw [bind_returned (indexOf_run hpresent)]
  rfl

/-- The texts of a configuration can be read. -/
structure Legible (c : NetworkConfig) : Prop where
  deviceIpv4 : ipv4 c.deviceIpv4 = .ok (host c.deviceIpv4)
  innerGatewayIpv4 : ipv4 c.innerGatewayIpv4 = .ok (host c.innerGatewayIpv4)
  outerIpv4 : ipv4 c.outerIpv4 = .ok (host c.outerIpv4)
  outerGatewayIpv4 : ipv4 c.outerGatewayIpv4 = .ok (host c.outerGatewayIpv4)
  outerPrefix : 1 ≤ c.outerPrefix.toNat ∧ c.outerPrefix.toNat ≤ 32
  outerMac : Decodes c.outerMac

variable {c : NetworkConfig}

theorem Legible.routeOf (h : Legible c) (gateway : Bool) :
    NetworkController.routeOf c gateway = .ok (routeEntry c gateway) := by
  obtain ⟨m, hm⟩ := routeTo_made h.outerGatewayIpv4 h.outerIpv4 gateway
  exact routeOf_routeEntry hm h.outerPrefix

theorem carries_address {iface ip : String} {prefixLength : UInt32}
    (hip : ipv4 ip = .ok (host ip)) :
    Carries [.addAddress iface (ifaddr ip prefixLength)] (address iface ip prefixLength true) := by
  refine carries_one fun w h => succeeds_netlink ?_ (.inl h)
  rw [bind_returned (indexOf_run (present_of_onLink h.choose_spec)), hip]
  rfl

theorem carries_route (hc : Legible c) (gateway : Bool) :
    Carries [.addRoute (routeEntry c gateway)] (route c gateway true) := by
  refine carries_one fun w h => succeeds_netlink ?_ (.inl h)
  have hpresent : w.kernel.present (effectiveOuter c) = true := by
    obtain ⟨k, hk⟩ := h
    simp only [Kernel.serve, routeEntry_oif] at hk
    split at hk
    · cases hk
    · next hout => simpa using hout
  rw [bind_returned (indexOf_run hpresent), hc.routeOf]
  rfl

theorem carries_rule (hc : Legible c) : Carries [.addRule (ruleEntry c)] (rule c true) := by
  refine carries_one fun w h => succeeds_netlink ?_ (.inl h)
  rw [hc.deviceIpv4]
  rfl

/-! ## install -/

theorem carries_preparePort (name : String) :
    Carries (preparePortRequests name) (preparePort name) :=
  (carries_writeFile _ _).bind (carries_writeFile _ _)

theorem carries_installVlan (c : NetworkConfig) : Carries (vlanRequests c) (installVlan c) := by
  unfold vlanRequests installVlan
  split
  · refine (carries_vlanAdd c).bind ((carries_writeFile _ _).bind ?_)
    exact (carries_writeFile _ _).bind (carries_upDown _ _)
  · exact carries_pure

theorem carries_prepareLinks (hc : Legible c) :
    Carries (prepareRequests c) (prepareLinks c) := by
  have hrun := (carries_preparePort c.outerInterface).bind
    ((carries_preparePort c.innerInterface).bind
      ((carries_upDown c.outerInterface false).bind
        ((carries_linkState c.outerInterface false hc.outerMac).bind
          ((carries_upDown c.outerInterface true).bind (carries_installVlan c)))))
  simpa only [prepareRequests, List.append_assoc, List.cons_append, List.nil_append,
    prepareLinks] using hrun

theorem carries_connect (hc : Legible c) : Carries (connectRequests c) (connect c) :=
  (carries_upDown _ _).bind ((carries_address hc.innerGatewayIpv4).bind
    ((carries_address hc.outerIpv4).bind ((carries_route hc false).bind
      ((carries_route hc true).bind ((carries_rule hc).bind
        ((carries_writeFile _ _).bind (carries_writeFile _ _)))))))

theorem carries_install (hc : Legible c) : Carries (installRequests c) (install c) := by
  have hrun := (carries_prepareLinks hc).bind ((carries_nft [.define (guardTable c)]).bind
    ((carries_connect hc).bind (carries_nft
      [.deleteTable .inet "magicbox", .define (natTable c), .define (forwardTable c)])))
  simpa only [installRequests, List.append_assoc, install] using hrun

/-! ## The checks of apply -/

theorem succeeds_readFile {file : Sysctl} {value : String}
    (h : w.kernel.readSysctl file = some value) :
    Succeeds 1 (readFile file) w fun v w' => Looking w w' ∧ v = value :=
  succeeds_probe (by simp only [h])

theorem succeeds_checkReserved (h : Vacant w.kernel) (hvlan : w.kernel.present vlanName = false) :
    Succeeds 2 checkReserved w fun _ w' => Looking w w' := by
  change Succeeds (1 + (1 + (0 + 0))) checkReserved w _
  refine (succeeds_tableExists .ip).bind fun ip w₁ h₁ => ?_
  rw [h₁.2, h.tables]
  refine (succeeds_tableExists .inet).bind fun inet w₂ h₂ => ?_
  rw [h₂.2, h₁.1.kernel, h.tables]
  have look := Looking.trans _ _ _ h₁.1 h₂.1
  refine (succeeds_ifNametoindex vlanName).bind fun found w₃ h₃ => ?_
  rw [h₃.2, look.kernel, hvlan]
  exact Completes.pure (Looking.trans _ _ _ look h₃.1)

theorem succeeds_checkRoutes (h : w.kernel.routes = []) :
    Succeeds 1 checkRoutes w fun _ w' => Looking w w' := by
  change Succeeds (1 + 0) checkRoutes w _
  refine (succeeds_probe (f := fun k => .ok (routeListing k)) rfl).bind fun routes w₁ h₁ => ?_
  have hfree : routes.any occupiesTable = false := by
    rw [h₁.2, routeListing, h]
    rfl
  rw [hfree]
  exact Completes.pure h₁.1

theorem succeeds_checkRules (h : w.kernel.rules = []) :
    Succeeds 1 checkRules w fun _ w' => Looking w w' := by
  change Succeeds (1 + 0) checkRules w _
  refine (succeeds_probe (f := fun k => .ok (ruleListing k)) rfl).bind fun rules w₁ h₁ => ?_
  have hfree : checkPriorities rules = .ok () := by
    rw [h₁.2, ruleListing, h]
    rfl
  exact Completes.liftExcept hfree h₁.1

theorem succeeds_capturePort {name : String} {link : Link} (h : Dedicated w.kernel name link) :
    Succeeds 3 (capturePort name) w fun info w' =>
      Looking w w' ∧ info = capturedInfo name link := by
  have hfit : (name == "lo" || (linkInfo name link).isMember "master" ||
      !((linkInfo name link).get "addr_info").empty) = false := by
    simp [linkInfo_isMember, linkInfo_addrInfo, h.loopback, h.master, h.unaddressed, h.inet6]
  have hpresent : w.kernel.present name = true := by simp [Kernel.present, h.present]
  change Succeeds (0 + (1 + (1 + (1 + 0)))) (capturePort name) w _
  refine (succeeds_indexOf hpresent).bind fun _ w₀ h₀ => ?_
  subst h₀
  refine (succeeds_probe (a := linkInfo name link) (by simp only [h.present])).bind
    fun info w₁ h₁ => ?_
  rw [h₁.2, hfit]
  have hipv6 : w₁.kernel.readSysctl (.disableIpv6 name) = some link.disableIpv6 := by
    simp [Kernel.readSysctl, h₁.1.kernel, h.present]
  refine (succeeds_readFile hipv6).bind fun ipv6 w₂ h₂ => ?_
  have hfilter : w₂.kernel.readSysctl (.rpFilter name) = some link.rpFilter := by
    simp [Kernel.readSysctl, h₂.1.kernel, h₁.1.kernel, h.present]
  refine (succeeds_readFile hfilter).bind fun filter w₃ h₃ => ?_
  refine Completes.pure ⟨Looking.trans _ _ _ h₁.1 (Looking.trans _ _ _ h₂.1 h₃.1), ?_⟩
  rw [h₂.2, h₃.2]
  rfl

/-- Every check passes when nothing is in the way. -/
theorem succeeds_checkAdmission {outer inner : Link} (henabled : w.enabled = true)
    (hinactive : w.state_.get "status" = .string "inactive") (hvalid : validate c = [])
    (hvacant : Vacant w.kernel) (hvlan : w.kernel.present vlanName = false)
    (hroutes : w.kernel.routes = [])
    (houter : Dedicated w.kernel c.outerInterface outer)
    (hinner : Dedicated w.kernel c.innerInterface inner) :
    Succeeds 11 (checkAdmission c) w fun _ w' => Looking w w' := by
  have hstatus : (w.state_.get "status").eqString "inactive" = true :=
    Value.eqString_iff.mpr hinactive
  change Succeeds (0 + (0 + (0 + (2 + (1 + (1 + (3 + (3 + (1 + 0)))))))))
    (checkAdmission c) w _
  refine Completes.bind (Completes.read (Q := fun on w' => on = true ∧ w' = w)
    ⟨henabled, rfl⟩) fun on w₁ h₁ => ?_
  obtain ⟨rfl, rfl⟩ := h₁
  rw [if_neg (by simp)]
  refine Completes.bind (Completes.read (Q := fun s w' => s = w₁.state_.get "status" ∧ w' = w₁)
    ⟨rfl, rfl⟩) fun s w₂ h₂ => ?_
  obtain ⟨rfl, rfl⟩ := h₂
  rw [hstatus, if_neg (by simp)]
  refine Completes.bind (Completes.liftExcept (Q := fun _ w' => w' = w₂)
    (configFromJson_configJson hvalid) rfl) fun _ w₃ h₃ => ?_
  subst h₃
  refine (succeeds_checkReserved hvacant hvlan).bind fun _ w₄ h₄ => ?_
  refine (succeeds_checkRoutes (by rw [h₄.kernel, hroutes])).bind fun _ w₅ h₅ => ?_
  have look₅ := Looking.trans _ _ _ h₄ h₅
  refine (succeeds_checkRules (by rw [look₅.kernel, hvacant.rules])).bind fun _ w₆ h₆ => ?_
  have look₆ := Looking.trans _ _ _ look₅ h₆
  refine (succeeds_capturePort (look₆.kernel ▸ houter)).bind fun _ w₇ h₇ => ?_
  have look₇ := Looking.trans _ _ _ look₆ h₇.1
  refine (succeeds_capturePort (look₇.kernel ▸ hinner)).bind fun _ w₈ h₈ => ?_
  refine (succeeds_probe (f := fun _ => .ok ()) rfl).bind fun _ w₉ h₉ => ?_
  exact Completes.pure (Looking.trans _ _ _ look₇ (Looking.trans _ _ _ h₈.1 h₉.1))

theorem succeeds_writeAhead (baseline : Value) :
    Succeeds 3 (writeAhead c baseline) w fun _ _ => True := by
  have assigned : ∀ name v w, Succeeds 0 (assign name v) w fun _ _ => True := fun _ _ _ =>
    Completes.update (fun _ hs => hs) trivial
  have answered : ∀ file w, (∃ value, w.kernel.readSysctl file = some value) →
      Succeeds 1 (readFile file) w fun _ _ => True := fun _ _ h =>
    (succeeds_readFile h.choose_spec).imp fun _ _ _ => trivial
  change Succeeds (0 + (0 + (1 + (0 + (1 + (0 + (0 + (0 + 1)))))))) (writeAhead c baseline) w _
  refine (assigned _ _ _).bind fun _ _ _ => (assigned _ _ _).bind fun _ _ _ => ?_
  refine (answered _ _ ⟨_, rfl⟩).bind fun _ _ _ => (assigned _ _ _).bind fun _ _ _ => ?_
  refine (answered _ _ ⟨_, rfl⟩).bind fun _ _ _ => (assigned _ _ _).bind fun _ _ _ => ?_
  refine (assigned _ _ _).bind fun _ _ _ => ?_
  refine Completes.bind (Completes.update (Q := fun _ _ => True) (fun _ hs => hs) trivial)
    fun _ _ _ => ?_
  exact succeeds_putState.imp fun _ _ _ => trivial

end Steps

end Magicbox.Source.NetworkController
