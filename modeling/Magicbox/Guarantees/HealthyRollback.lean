import Magicbox.Guarantees.HealthyInstall
import Magicbox.Guarantees.Rollback

/-!
# A rollback that goes through

On a healthy host no step of a rollback fails, wherever the installation or an
earlier rollback stopped: what is to be removed may be gone already, the ports
are there, and what the journal saved of them can be read.
-/

set_option autoImplicit false

namespace Magicbox.Guarantees.HealthyRollback
open Library.Crash Library.Completion Source Source.Json Source.Config Source.ConfigJson
  Source.Nftables Source.Netns Source.NetworkController Baseline Rollback HealthyInstall
  KernelShape KernelRuns

variable {K : Kernel} {c : NetworkConfig} {w : World}

/-! ## Steps in a rollback -/

/-- A step that completes notes no error. -/
theorem succeeds_attemptStep {step : Step} {action : Controller Unit} {cost : Nat}
    {Q : World → Prop} (hw : Undoing K c w) (quiet : Within Quiet action)
    (confined : ∀ w, Confined c K w.kernel → Confined c K (action w).2.kernel)
    (h : ∀ w₁, w₁.kernel = w.kernel → w₁.state_ = w.state_ →
      Succeeds cost action w₁ fun _ => Q) :
    Succeeds cost (attemptStep step "" action) w fun errors w' =>
      errors = "" ∧ Undoing K c w' ∧ Q w' := by
  have hkept : Within (fun s t => Undoing K c s → Undoing K c t) action := fun s hs =>
    ⟨confined s hs.1, (quiet s).state_ ▸ hs.2⟩
  have hnote : Succeeds 0 (note (.attempted step)) w fun _ w' => w' = noted (.attempted step) w :=
    Completes.update (fun _ hs => hs) rfl
  have hall := hnote.bind (f := fun _ => attempt noteError "" action) fun _ w₁ h₁ =>
    Completes.attempt (((h w₁ (by rw [h₁]; rfl) (by rw [h₁]; rfl)).within hkept).imp
      fun _ w₂ h₂ => (⟨h₂.1 (by rw [h₁]; exact hw), h₂.2⟩ : Undoing K c w₂ ∧ Q w₂))
  rwa [Nat.zero_add] at hall

/-- Removing what is not there is no error. -/
theorem accepts_deleteRule (k : Kernel) (r : PolicyRule) : Accepts k true (.deleteRule r) := by
  by_cases hr : r ∈ k.rules
  · exact .inl ⟨{ k with rules := k.rules.filter (· ≠ r) }, by simp only [Kernel.serve, if_pos hr]⟩
  · exact .inr ⟨rfl, .noent, by simp only [Kernel.serve, if_neg hr], rfl⟩

theorem accepts_deleteRoute (k : Kernel) (r : Route) : Accepts k true (.deleteRoute r) := by
  by_cases hr : r ∈ k.routes
  · refine .inl ⟨{ k with routes := k.routes.filter (· ≠ r) }, ?_⟩
    simp only [Kernel.serve, if_pos hr]
  · exact .inr ⟨rfl, .srch, by simp only [Kernel.serve, if_neg hr], rfl⟩

theorem accepts_deleteAddress {k : Kernel} {name : String} (h : k.present name = true)
    (a : Ifaddr) : Accepts k true (.deleteAddress name a) := by
  obtain ⟨link, hlink⟩ := Option.isSome_iff_exists.mp h
  by_cases ha : a ∈ link.addrInfo
  · refine .inl ?_
    simp only [Kernel.serve, Kernel.onLink, hlink, if_pos ha]
    exact ⟨_, rfl⟩
  · refine .inr ⟨rfl, .addrnotavail, ?_, rfl⟩
    simp only [Kernel.serve, Kernel.onLink, hlink, if_neg ha]
    rfl

theorem succeeds_dropRule (hc : Legible c) :
    Succeeds 1 (rule c false) w fun _ w' => Served (.deleteRule (ruleEntry c)) w w' := by
  refine succeeds_netlink ?_ (accepts_deleteRule _ _)
  rw [hc.deviceIpv4]
  rfl

theorem succeeds_dropRoute (hc : Legible c) (gateway : Bool)
    (h : w.kernel.present (effectiveOuter c) = true) :
    Succeeds 1 (route c gateway false) w fun _ w' =>
      Served (.deleteRoute (routeEntry c gateway)) w w' := by
  refine succeeds_netlink ?_ (accepts_deleteRoute _ _)
  rw [bind_returned (indexOf_run h), hc.routeOf]
  rfl

theorem succeeds_dropAddress {iface ip : String} {prefixLength : UInt32}
    (hip : ipv4 ip = .ok (host ip)) (h : w.kernel.present iface = true) :
    Succeeds 1 (address iface ip prefixLength false) w fun _ w' =>
      Served (.deleteAddress iface (ifaddr ip prefixLength)) w w' := by
  refine succeeds_netlink ?_ (accepts_deleteAddress h _)
  rw [bind_returned (indexOf_run h), hip]
  rfl

theorem succeeds_vlanDelete : Succeeds 1 vlanDelete w fun _ _ => True := by
  change Succeeds (0 + 1) vlanDelete w _
  refine (succeeds_lookUp vlanName).bind fun found w₁ h₁ => ?_
  cases found with
  | false => exact Completes.spend budget_supplied (Nat.zero_le 1) (Completes.pure trivial)
  | true =>
    have hpresent : w₁.kernel.present vlanName = true := by
      rw [h₁.1.kernel]
      exact h₁.1.sound
    refine (succeeds_netlink (r := .deleteVlan) ?_ (.inl ?_)).imp fun _ _ _ => trivial
    · rw [bind_returned (indexOf_run hpresent)]
      rfl
    · simp only [Kernel.serve, hpresent, if_true]
      exact ⟨_, rfl⟩

theorem succeeds_dropTable (family : Family) : Succeeds 2 (dropTable family) w fun _ _ => True := by
  change Succeeds (1 + 1) (dropTable family) w _
  refine (succeeds_tableExists family).bind fun found w₁ hfound => ?_
  obtain ⟨look, rfl⟩ := hfound
  cases htable : hasTable family "magicbox" w.kernel.tables with
  | false => exact Completes.spend budget_supplied (Nat.zero_le 1) (Completes.pure trivial)
  | true =>
    have hbatch : runBatch [.deleteTable family "magicbox"] w₁.kernel.tables =
        some (Nftables.dropTable family "magicbox" w₁.kernel.tables) := by
      rw [look.kernel]
      simp [runBatch, Command.run, htable]
    exact (succeeds_nft ⟨_, served_nft hbatch⟩).imp fun _ _ _ => trivial

theorem succeeds_swapGuard : Succeeds 3 (swapGuard c) w fun _ _ => True := by
  change Succeeds (1 + (1 + 1)) (swapGuard c) w _
  refine (succeeds_tableExists .inet).bind fun found w₁ hfound => ?_
  obtain ⟨look, rfl⟩ := hfound
  rw [← look.kernel]
  refine (succeeds_nft ⟨_, served_nft (runBatch_swap c w₁.kernel.tables)⟩).bind fun _ w₂ _ => ?_
  exact (succeeds_netlink rfl (.inl ⟨_, rfl⟩)).imp fun _ _ _ => trivial

/-! ## The ports -/

/-- A port of the configuration is there throughout the rollback. -/
theorem port_present (hw : Undoing K c w) (hvlan : K.links vlanName = none) {name : String}
    (hname : name = c.outerInterface ∨ name = c.innerInterface) :
    w.kernel.present name = true := by
  obtain ⟨outer, inner, houter, hinner, -⟩ := hw.2.baseline
  obtain ⟨link, hport⟩ : ∃ link, K.links name = some link := by
    rcases hname with rfl | rfl
    · exact ⟨outer, houter.present⟩
    · exact ⟨inner, hinner.present⟩
  have hne : name ≠ vlanName := by
    rintro rfl
    rw [hvlan] at hport
    cases hport
  have hsome := congrArg Option.isSome (hw.1.ports name hne)
  rw [Option.isSome_map, Option.isSome_map, hport] at hsome
  exact hsome

/-- The saved values of a port, written back. -/
theorem carries_resetPort {name : String} {link : Link} (h : Dedicated K name link)
    (hmac : link.address.length = 6) :
    Carries (resetRequests (capturedInfo name link)) (resetPort (capturedInfo name link)) := by
  have hdecodes : Decodes (macText link.address) := .inr ⟨_, macBytes_macText hmac⟩
  have hbody : resetPort (capturedInfo name link) = (do
      linkState name false ""
      linkState name false (macText link.address)
      writeFile (.disableIpv6 name) link.disableIpv6
      writeFile (.rpFilter name) link.rpFilter
      linkState name link.up "") := by
    have hflags : hasFlag (.array (["BROADCAST", "MULTICAST"].map Value.string ++
        (if link.up then [.string "UP"] else []))) "UP" = link.up := by
      cases link.up <;> rfl
    have hname : (capturedInfo name link).index "ifname" >>= Value.asString = .ok name := by
      simp [capturedInfo, linkInfo, h.master, bind, Except.bind]
    have hup : (capturedInfo name link).index "flags" = .ok (.array (["BROADCAST",
        "MULTICAST"].map Value.string ++ (if link.up then [.string "UP"] else []))) := by
      simp [capturedInfo, linkInfo, h.master]
    have haddress : (capturedInfo name link).index "address" >>= Value.asString =
        .ok (macText link.address) := by
      simp [capturedInfo, linkInfo, h.master, bind, Except.bind]
    have hipv6 : (capturedInfo name link).index "disable_ipv6" >>= Value.asString =
        .ok link.disableIpv6 := by
      simp [capturedInfo, linkInfo, h.master, bind, Except.bind]
    have hfilter : (capturedInfo name link).index "rp_filter" >>= Value.asString =
        .ok link.rpFilter := by
      simp [capturedInfo, linkInfo, h.master, bind, Except.bind]
    unfold resetPort
    rw [hname, hup, haddress, hipv6, hfilter]
    funext w
    simp only [bind_run, liftExcept_ok, hflags]
  have hattribute := macAttribute_macText hmac
  rw [hbody, resetRequests_capturedInfo h hmac, ← hattribute]
  exact (carries_upDown _ _).bind ((carries_linkState _ _ hdecodes).bind
    ((carries_writeFile _ _).bind ((carries_writeFile _ _).bind (carries_upDown _ _))))

theorem succeeds_resetPort {name : String} {link : Link} (h : Dedicated K name link)
    (hmac : link.address.length = 6) (hpresent : w.kernel.present name = true) :
    Succeeds 5 (resetPort (capturedInfo name link)) w fun _ _ => True := by
  have hserves : Serves w.kernel (resetRequests (capturedInfo name link)) := by
    rw [resetRequests_capturedInfo h hmac]
    refine (serves_touching fun r hr => ?_).1
    simp only [List.mem_cons, List.not_mem_nil, or_false] at hr
    rcases hr with rfl | rfl | rfl | rfl | rfl <;> exact hpresent
  have hrun := carries_resetPort h hmac w hserves
  rw [resetRequests_capturedInfo h hmac] at hrun
  exact hrun.imp fun _ _ _ => trivial

/-! ## The whole rollback -/

/-- One step whose effect does not matter for the others. -/
theorem succeeds_plain {step : Step} {action : Controller Unit} {cost : Nat}
    (hw : Undoing K c w) (quiet : Within Quiet action)
    (confined : ∀ w, Confined c K w.kernel → Confined c K (action w).2.kernel)
    (h : ∀ w₁, Undoing K c w₁ → Succeeds cost action w₁ fun _ _ => True) :
    Succeeds cost (attemptStep step "" action) w fun errors w' => errors = "" ∧ Undoing K c w' :=
  (succeeds_attemptStep (Q := fun _ => True) hw quiet confined fun w₁ hkernel hstate =>
    h w₁ ⟨hkernel ▸ hw.1, hstate ▸ hw.2⟩).imp fun _ _ h => ⟨h.1, h.2.1⟩

theorem succeeds_dropOuter (hc : Legible c) (hw : Undoing K c w) :
    Succeeds 3 (dropOuter c "") w fun errors w' => errors = "" ∧ Undoing K c w' := by
  have route : ∀ gateway step w₁, Undoing K c w₁ → w₁.kernel.present (effectiveOuter c) = true →
      Succeeds 1 (attemptStep step "" (route c gateway false)) w₁ fun errors w₂ => errors = "" ∧
        Undoing K c w₂ ∧ w₂.kernel.present (effectiveOuter c) = true := by
    intro gateway step w₁ hw₁ hpresent
    refine succeeds_attemptStep hw₁ (quiet_route _ _ _)
      (confined_performs (performs_route c gateway false) (by simp [Concerns]))
      fun w₂ hkernel _ => ?_
    rw [← hkernel] at hpresent
    refine (succeeds_dropRoute hc gateway hpresent).imp fun _ w₃ hserved => ?_
    rw [hserved.kernel, Kernel.after_deleteRoute]
    exact hpresent
  change Succeeds (0 + (1 + (1 + 1))) (dropOuter c "") w _
  refine (succeeds_lookUp (effectiveOuter c)).bind fun found w₁ h₁ => ?_
  obtain ⟨looked, -⟩ := h₁
  have hw₁ : Undoing K c w₁ := ⟨looked.kernel ▸ hw.1, looked.state_ ▸ hw.2⟩
  cases found with
  | false => exact Completes.spend budget_supplied (Nat.zero_le _) (Completes.pure ⟨rfl, hw₁⟩)
  | true =>
    have hpresent₁ : w₁.kernel.present (effectiveOuter c) = true := by
      rw [looked.kernel]
      exact looked.sound
    refine (route true _ w₁ hw₁ hpresent₁).bind fun errors w₂ h₂ => ?_
    obtain ⟨rfl, hw₂, hpresent₂⟩ := h₂
    refine (route false _ w₂ hw₂ hpresent₂).bind fun errors w₃ h₃ => ?_
    obtain ⟨rfl, hw₃, hpresent₃⟩ := h₃
    refine (succeeds_attemptStep (Q := fun _ => True) hw₃ (quiet_address _ _ _ _)
      (confined_performs (performs_address _ _ _ _) ?_) fun w₄ hkernel _ => ?_).imp
        fun errors w₄ h₄ => ⟨h₄.1, h₄.2.1⟩
    · simpa [Concerns] using concerns_effectiveOuter c
    · exact (succeeds_dropAddress hc.outerIpv4 (hkernel ▸ hpresent₃)).imp fun _ _ _ => trivial

theorem succeeds_dropVlan (hw : Undoing K c w) :
    Succeeds 1 (dropVlan c "") w fun errors w' => errors = "" ∧ Undoing K c w' := by
  unfold dropVlan
  split
  · exact succeeds_plain hw quiet_vlanDelete vlanDelete_confined fun _ _ => succeeds_vlanDelete
  · exact Completes.spend budget_supplied (Nat.zero_le 1) (Completes.pure ⟨rfl, hw⟩)

theorem succeeds_resetSysctl (file : Sysctl) {name value : String} {step : Step}
    (hw : Undoing K c w) (hfile : ∀ k, Sysctl.Exists k file)
    (hconcerns : ∀ value, Concerns c (.write file value))
    (hvalue : ∀ v, Captured K c v → v.get name = .string value) :
    Succeeds 1 (attemptStep step "" (resetSysctl file name)) w fun errors w' =>
      errors = "" ∧ Undoing K c w' := by
  refine succeeds_plain hw (quiet_resetSysctl file name)
    (resetSysctl_keeps (I := Confined c K) name fun value k hk => hk.after (hconcerns value))
    fun w₁ hw₁ n hs => ?_
  rw [resetSysctl_run (hvalue _ hw₁.2)]
  exact ((succeeds_writeFile value (serve_write (hfile _) value)).imp fun _ _ _ => trivial) n hs

theorem succeeds_resetPorts (hvlan : K.links vlanName = none) (hmac : Ethernet c K)
    (hw : Undoing K c w) :
    Succeeds 10 (resetPorts "" (w.state_.get "baseline").elements) w fun errors w' =>
      errors = "" ∧ Undoing K c w' := by
  obtain ⟨outer, inner, houter, hinner, hbaseline⟩ := hw.2.baseline
  have port : ∀ {name link}, name = c.outerInterface ∨ name = c.innerInterface →
      Dedicated K name link → ∀ w₁, Undoing K c w₁ →
      Succeeds 5 (attemptStep (.resetPort (capturedInfo name link)) ""
        (resetPort (capturedInfo name link))) w₁ fun errors w' =>
          errors = "" ∧ Undoing K c w' := by
    intro name link hname hport w₁ hw₁
    have hbytes := hmac name link hname hport.present
    have hours : Ours c name := hname.imp_right .inl
    have hperf := performs_resetPort (capturedInfo name link)
    rw [resetRequests_capturedInfo hport hbytes] at hperf
    refine succeeds_plain hw₁ (quiet_resetPort _) (confined_performs hperf ?_) fun w₂ hw₂ =>
      succeeds_resetPort hport hbytes (port_present hw₂ hvlan hname)
    simpa [Concerns] using hours
  rw [hbaseline]
  change Succeeds (5 + (5 + 0)) _ w _
  refine (port (.inl rfl) houter w hw).bind fun errors w₁ h₁ => ?_
  obtain ⟨rfl, hw₁⟩ := h₁
  refine (port (.inr rfl) hinner w₁ hw₁).bind fun errors w₂ h₂ => ?_
  exact Completes.pure h₂

/-- Nothing that a rollback does can fail on a healthy host. -/
theorem succeeds_rollBack (hK : Pristine K) (hmac : Ethernet c K) (hc : Legible c)
    (hw : Undoing K c w) :
    Succeeds 25 (rollBack c) w fun errors _ => errors = "" := by
  have inner : Ours c c.innerInterface := .inr (.inl rfl)
  have tables : ∀ {f : List Table → List Table}, ∀ u ∈ [mapTables f], ∀ k : Kernel,
      (u k).links = k.links ∧ (u k).numericTables = k.numericTables := by
    intro f u hu k
    obtain rfl := List.mem_singleton.mp hu
    exact ⟨rfl, rfl⟩
  have hswap : ∀ u ∈ [mapTables (swapTables c), id], ∀ k : Kernel,
      (u k).links = k.links ∧ (u k).numericTables = k.numericTables := by
    intro u hu k
    rcases List.mem_pair.mp hu with rfl | rfl <;> exact ⟨rfl, rfl⟩
  have hundo : Succeeds (3 + (1 + (3 + (1 + (1 + (2 + (1 + (1 + (0 + 10))))))))) (undoInstall c) w
      fun errors w' => errors = "" ∧ Undoing K c w' := by
    refine (succeeds_plain hw (quiet_swapGuard c) (confined_mapTables (performs_swapGuard c) hswap)
      fun _ _ => succeeds_swapGuard).bind fun errors w₁ h₁ => ?_
    obtain ⟨rfl, hw₁⟩ := h₁
    refine (succeeds_plain hw₁ (quiet_rule c false)
      (confined_performs (performs_rule c false) (by simp [Concerns]))
        fun _ _ => (succeeds_dropRule hc).imp fun _ _ _ => trivial).bind fun errors w₂ h₂ => ?_
    obtain ⟨rfl, hw₂⟩ := h₂
    refine (succeeds_dropOuter hc hw₂).bind fun errors w₃ h₃ => ?_
    obtain ⟨rfl, hw₃⟩ := h₃
    refine (succeeds_plain hw₃ (quiet_address _ _ _ _)
      (confined_performs (performs_address _ _ _ _) (by simpa [Concerns] using inner))
        fun w hw => (succeeds_dropAddress hc.innerGatewayIpv4
          (port_present hw hK.vlan (.inr rfl))).imp fun _ _ _ => trivial).bind
            fun errors w₄ h₄ => ?_
    obtain ⟨rfl, hw₄⟩ := h₄
    refine (succeeds_dropVlan hw₄).bind fun errors w₅ h₅ => ?_
    obtain ⟨rfl, hw₅⟩ := h₅
    refine (succeeds_plain hw₅ (quiet_dropTable .ip)
      (confined_mapTables (performs_dropTable .ip) tables) fun _ _ => succeeds_dropTable .ip).bind
        fun errors w₆ h₆ => ?_
    obtain ⟨rfl, hw₆⟩ := h₆
    refine (succeeds_resetSysctl .ipForward hw₆ (fun _ => trivial) (fun _ => trivial)
      fun v h => h.ipForward).bind fun errors w₇ h₇ => ?_
    obtain ⟨rfl, hw₇⟩ := h₇
    refine (succeeds_resetSysctl .rpFilterAll hw₇ (fun _ => trivial) (fun _ => trivial)
      fun v h => h.rpFilterAll).bind fun errors w₈ h₈ => ?_
    obtain ⟨rfl, hw₈⟩ := h₈
    refine Completes.bind (Completes.read (Q := fun v w' => v = w₈.state_.get "baseline" ∧ w' = w₈)
      ⟨rfl, rfl⟩) fun baseline w₉ h₉ => ?_
    obtain ⟨rfl, rfl⟩ := h₉
    exact succeeds_resetPorts hK.vlan hmac hw₈
  have hroll : Succeeds (23 + 2) (rollBack c) w fun errors _ => errors = "" := by
    refine hundo.bind fun errors w₁ h₁ => ?_
    obtain ⟨rfl, hw₁⟩ := h₁
    exact (succeeds_plain hw₁ (quiet_dropTable .inet)
      (confined_mapTables (performs_dropTable .inet) tables) fun _ _ =>
        succeeds_dropTable .inet).imp fun _ _ h => h.1
  exact hroll

end Magicbox.Guarantees.HealthyRollback
