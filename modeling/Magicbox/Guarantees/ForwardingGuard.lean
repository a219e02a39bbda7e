import Magicbox.Guarantees.KernelRuns

/-!
# The forwarding guard

architecture.md: the guard is installed before the first address or route, and
a rollback keeps it until everything else is gone. Here that is a statement
about every kernel state of every run. Whatever the controller has exposed, the
forward chain of `inet magicbox` drops each packet on the configured interfaces
outside the two device flows. It takes that the rollbacks see what is there: a
lookup that fails looks to them like a link that is gone.

The guard does not cover the translation. A rollback whose guard swap fails
goes on to delete the translation table and leaves the accept rules without it.
-/

set_option autoImplicit false

namespace Magicbox.Guarantees.ForwardingGuard
open Library.Crash Source Source.Json Source.Config Source.ConfigJson Source.Nftables Source.Netns
  Source.NetworkController Source.Worker KernelShape Withdrawal KernelRuns

/-- The rules of the forward chain of `inet magicbox`, when the table exists. -/
def forwardRules (tables : List Table) : Option (List Rule) :=
  (tables.find? (·.named .inet "magicbox")).bind fun t =>
    (t.chains.find? (·.name = "forward")).map (·.rules)

/-- Something of the controller's is reachable: a route, a rule or an address that was not there. -/
def Exposed (K k : Kernel) : Prop :=
  k.routes ≠ [] ∨ k.rules ≠ [] ∨
    ∃ name link a, k.links name = some link ∧ a ∈ link.addrInfo ∧ ¬ Native K name a

/-- What is exposed lies on the interfaces of one configuration. -/
structure Belongs (K : Kernel) (c : NetworkConfig) (k : Kernel) : Prop where
  routes : ∀ r ∈ k.routes, r.oif = effectiveOuter c
  rules : ∀ r ∈ k.rules, r.iifname = c.innerInterface
  addresses : ∀ name link a, k.links name = some link → a ∈ link.addrInfo → ¬ Native K name a →
    name = c.innerInterface ∨ name = effectiveOuter c

section Shape
variable {K k : Kernel} {c : NetworkConfig} {s : Stage}

theorem forwardRules_filter (tables : List Table) :
    forwardRules (tables.filter reserved) = forwardRules tables := by
  unfold forwardRules
  rw [List.find?_filter]
  congr 2
  funext t
  by_cases hname : t.name = "magicbox" <;> simp [reserved, Table.named, hname]

theorem Tabled.forwardRules {own : List Table} (h : Tabled K own k) :
    forwardRules k.tables = forwardRules own := by
  rw [← forwardRules_filter, h.tables]

theorem Shape.belongs (h : Shape K c s k) : Belongs K c k := by
  refine ⟨fun r hr => ?_, fun r hr => ?_, fun name link a hl ha hnew => ?_⟩
  · obtain ⟨gateway, rfl⟩ := h.routes r hr
    exact routeEntry_oif c gateway
  · rw [h.rules r hr]
    rfl
  · rcases h.addresses name link a hl ha with hnative | ⟨hname, -⟩ | ⟨hname, -⟩
    · exact absurd hnative hnew
    · exact .inl hname
    · exact .inr hname

theorem not_exposed (hroutes : k.routes = []) (hrules : k.rules = [])
    (haddresses : ∀ name link a, k.links name = some link → a ∈ link.addrInfo → Native K name a) :
    ¬ Exposed K k := by
  rintro (h | h | ⟨name, link, a, hl, ha, hnew⟩)
  · exact h hroutes
  · exact h hrules
  · exact hnew (haddresses name link a hl ha)

/-- Every stage that can be exposed has a forward chain that drops all but the device flows. -/
theorem Shape.guarded (h : Shape K c s k) (hexposed : Exposed K k) :
    ∃ rules, ForwardingGuard.forwardRules k.tables = some rules ∧
      ∀ p, touches c p → ¬ deviceFlow c p → evaluate rules p = .drop := by
  rw [Tabled.forwardRules h.tabled]
  have full : ∀ p, touches c p → ¬ deviceFlow c p →
      evaluate (acceptRules c ++ dropRules c) p = .drop := by
    intro p htouches hflow
    rw [evaluate_forward c htouches, if_neg hflow]
  cases s with
  | bare =>
    obtain ⟨hroutes, hrules, haddresses⟩ := h.covered rfl
    exact absurd hexposed (not_exposed hroutes hrules haddresses)
  | guarded | swapped => exact ⟨dropRules c, rfl, fun p htouches _ => evaluate_guard c htouches⟩
  | translated | exposed => exact ⟨_, rfl, full⟩

end Shape

/-- No assumption is needed for the accounting as such. -/
theorem regime_any (K : Kernel) : Regime K (fun _ => True) fun _ => True where
  bare := trivial
  guarded := trivial
  translated := trivial
  rollBack := fun n c _ w₁ _ _ hstage => (rollBack_spec n K c w₁ hstage).1

theorem accounted_run {n : Node} (h : Pristine n.world.kernel) (calls : List (Call × Supply)) :
    Accounted n.world.log.length n.world.kernel (fun _ => True) (n.run calls).world :=
  (regime_any n.world.kernel).run rfl h calls fun _ _ => trivial

/-! ## A rollback and the guard -/

/-- `inet magicbox` is not lost. -/
def Retains (w w' : World) : Prop :=
  hasTable .inet "magicbox" w.kernel.tables = true →
    hasTable .inet "magicbox" w'.kernel.tables = true

theorem Retains.refl (w : World) : Retains w w := id

theorem Retains.trans (w₁ w₂ w₃ : World) (h : Retains w₁ w₂) (h' : Retains w₂ w₃) :
    Retains w₁ w₃ := h' ∘ h

theorem retains_performs {α : Type} {us : List (Kernel → Kernel)} {m : Controller α}
    (h : Performs World.kernel us m)
    (hus : ∀ u ∈ us, ∀ k, hasTable .inet "magicbox" k.tables = true →
      hasTable .inet "magicbox" (u k).tables = true) : Within Retains m :=
  fun w hw => h.keeps hus w hw

theorem retains_requests {α : Type} {rs : List Request} {m : Controller α}
    (h : Performs World.kernel (requests rs) m)
    (hrs : ∀ r ∈ rs, ∀ k : Kernel, (k.after r).tables = k.tables) : Within Retains m := by
  refine retains_performs h fun u hu k hk => ?_
  obtain ⟨r, hr, rfl⟩ := List.mem_map.mp hu
  rw [hrs r hr k]
  exact hk

theorem retains_attemptStep {step : Step} {errors : String} {action : Controller Unit}
    (h : Within Retains action) : Within Retains (attemptStep step errors action) :=
  Within.bind Retains.trans (fun _ => id) fun _ =>
    Within.attempt Retains.refl Retains.trans h _ _

theorem retains_swapGuard (c : NetworkConfig) : Within Retains (swapGuard c) := by
  refine retains_performs (performs_swapGuard c) fun u hu k hk => ?_
  rcases List.mem_pair.mp hu with rfl | rfl
  · simp [mapTables, swapTables, hasTable, guardTable, Table.named]
  · exact hk

theorem retains_dropTranslation : Within Retains (dropTable .ip) := by
  refine retains_performs (performs_dropTable .ip) fun u hu k hk => ?_
  obtain rfl := List.mem_singleton.mp hu
  obtain ⟨t, ht, hnamed⟩ := List.any_eq_true.mp hk
  refine List.any_eq_true.mpr ⟨t, List.mem_filter.mpr ⟨ht, ?_⟩, hnamed⟩
  have hfamily : t.family = .inet := by
    simp only [Table.named, Bool.and_eq_true, decide_eq_true_eq] at hnamed
    exact hnamed.1
  simp [Table.named, hfamily]

theorem retains_resetSysctl (file : Sysctl) (name : String) :
    Within Retains (resetSysctl file name) := by
  intro w hw
  refine resetSysctl_keeps (I := fun k => hasTable .inet "magicbox" k.tables = true) name ?_ w hw
  intro value k hk
  cases file <;> simpa using hk

theorem retains_lookUp (name : String) : Within Retains (lookUp name) := by
  intro w hw
  obtain ⟨found, w', hrun, looked⟩ := lookUp_run name w
  rw [hrun]
  exact looked.kernel ▸ hw

theorem retains_vlanDelete : Within Retains vlanDelete := by
  intro w hw
  refine vlanDelete_keeps (I := fun k => hasTable .inet "magicbox" k.tables = true) ?_ w hw
  intro k hk
  rw [Kernel.after_deleteVlan]
  split <;> exact hk

theorem retains_restoring (c : NetworkConfig) : Attempts (Within Retains) c := by
  intro step action h errors
  refine retains_attemptStep ?_
  cases h with
  | swapGuard => exact retains_swapGuard c
  | dropRule => exact retains_requests (performs_rule c false) (by simp)
  | dropGatewayRoute | dropLinkRoute => exact retains_requests (performs_route c _ false) (by simp)
  | dropOuterAddress | dropInnerAddress =>
    exact retains_requests (performs_address _ _ _ false) (by simp)
  | dropVlan => exact retains_vlanDelete
  | dropTranslation => exact retains_dropTranslation
  | resetForward | resetRpFilterAll => exact retains_resetSysctl _ _
  | resetPort info => exact retains_requests (performs_resetPort info) (by simp [resetRequests])

/-- No restoration step before the last one takes the guard away. -/
theorem retains_undoInstall (c : NetworkConfig) : Within Retains (undoInstall c) :=
  walk_undoInstall (composes_within Retains.refl Retains.trans) (retains_lookUp _)
    (retains_restoring c)

/-- A rollback loses the guard only after every earlier step went through. -/
theorem rollBack_retains (c : NetworkConfig) (w : World)
    (h : hasTable .inet "magicbox" w.kernel.tables = true) :
    hasTable .inet "magicbox" (rollBack c w).2.kernel.tables = true ∨
      (undoInstall c w).1 = .returned "" := by
  have kept := retains_undoInstall c w h
  unfold rollBack
  rw [bind_run]
  rcases hrun : undoInstall c w with ⟨errors | e | _, w₁⟩ <;> rw [hrun] at kept
  · by_cases he : errors = ""
    · exact .inr (by rw [he])
    · left
      dsimp only
      unfold dropGuard
      rw [isEmpty_eq_false he]
      exact kept
  · exact .inl kept
  · exact .inl kept

/-- In every state of every run that starts without the reserved resources and
whose rollbacks overlook no link: whatever is exposed belongs to the journaled
configuration, and `inet magicbox` drops every packet on its two interfaces but
the two device flows. And the guard outlives every rollback in which a step
before its removal failed. -/
theorem guard_covers_exposure {n : Node} (h : Pristine n.world.kernel) :
    (∀ calls : List (Call × Supply), Sees n.world.log.length (n.run calls).world →
      Exposed n.world.kernel (n.run calls).world.kernel →
      ∃ c, configFromJson ((journal (n.run calls).world).get "config") = .ok c ∧
        Belongs n.world.kernel c (n.run calls).world.kernel ∧
        ∃ rules, forwardRules (n.run calls).world.kernel.tables = some rules ∧
          ∀ p, touches c p → ¬ deviceFlow c p → evaluate rules p = .drop) ∧
    ∀ c w, hasTable .inet "magicbox" w.kernel.tables = true →
      hasTable .inet "magicbox" (rollBack c w).2.kernel.tables = true ∨
        (undoInstall c w).1 = .returned "" := by
  refine ⟨fun calls hsees hexposed => ?_, rollBack_retains⟩
  rcases accounted_run h calls with hclean | ⟨c, ⟨-, s, -, hsighted⟩, -, hjournal⟩
  · have hbare := hclean.2.bare hsees
    exact absurd hexposed (not_exposed hbare.routes hbare.rules hbare.addresses)
  · have hshape := hsighted.shape hsees
    exact ⟨c, hjournal.1, Shape.belongs hshape, Shape.guarded hshape hexposed⟩

theorem pristine_exampleKernel : Pristine exampleKernel :=
  ⟨rfl, by decide, rfl, rfl⟩

/-- The device is exposed once a configuration is in place, and the guard is there. -/
theorem guard_covers_exposure_example :
    Exposed exampleKernel (exampleNode.run [(.construct true, answering),
      (.apply exampleConfig, answering)]).world.kernel ∧
    ∃ c, configFromJson ((journal (exampleNode.run [(.construct true, answering),
        (.apply exampleConfig, answering)]).world).get "config") = .ok c ∧
      Belongs exampleKernel c (exampleNode.run [(.construct true, answering),
        (.apply exampleConfig, answering)]).world.kernel ∧
      ∃ rules, forwardRules (exampleNode.run [(.construct true, answering),
          (.apply exampleConfig, answering)]).world.kernel.tables = some rules ∧
        ∀ p, touches c p → ¬ deviceFlow c p → evaluate rules p = .drop := by
  have hexposed : Exposed exampleKernel (exampleNode.run [(.construct true, answering),
      (.apply exampleConfig, answering)]).world.kernel := by
    left
    decide +kernel
  have hsees : Sees exampleNode.world.log.length (exampleNode.run [(.construct true, answering),
      (.apply exampleConfig, answering)]).world := by
    unfold Sees
    decide +kernel
  exact ⟨hexposed,
    (guard_covers_exposure (n := exampleNode) pristine_exampleKernel).1 _ hsees hexposed⟩

/-- The next `if_nametoindex` fails, and all else works. -/
def lookingAway : Supply := { answering with lookups := [false] }

/-- A rollback of an untagged configuration that takes its outer port for gone leaves the address
there, without the guard. -/
theorem overlooked_exposes :
    ¬ ∀ (n : Node), Pristine n.world.kernel → ∀ calls : List (Call × Supply),
      Exposed n.world.kernel (n.run calls).world.kernel →
      ∃ c, configFromJson ((journal (n.run calls).world).get "config") = .ok c ∧
        Belongs n.world.kernel c (n.run calls).world.kernel ∧
        ∃ rules, forwardRules (n.run calls).world.kernel.tables = some rules ∧
          ∀ p, touches c p → ¬ deviceFlow c p → evaluate rules p = .drop := by
  intro hclaim
  let calls : List (Call × Supply) := [(.construct true, answering),
    (.apply untaggedConfig, answering), (.rollback, lookingAway)]
  have haddress : ((exampleNode.run calls).world.kernel.links "outer0").map (·.addrInfo) =
      some [⟨0xc0a83263#32, 24⟩] := by decide +kernel
  obtain ⟨link, hlink, hinfo⟩ := Option.map_eq_some_iff.mp haddress
  have hnew : ¬ Native exampleNode.world.kernel "outer0" ⟨0xc0a83263#32, 24⟩ := by
    rintro ⟨own, hown, hmem⟩
    have hnone : (exampleNode.world.kernel.links "outer0").map (·.addrInfo) = some [] := by
      decide +kernel
    rw [hown, Option.map_some, Option.some.injEq] at hnone
    rw [hnone] at hmem
    cases hmem
  have htables : (exampleNode.run calls).world.kernel.tables = [] := by decide +kernel
  obtain ⟨c, -, -, rules, hrules, -⟩ := hclaim exampleNode pristine_exampleKernel calls
    (.inr (.inr ⟨"outer0", link, _, hlink, hinfo ▸ List.mem_singleton_self _, hnew⟩))
  rw [htables] at hrules
  cases hrules

/-! ## Accept rules and the translation -/

/-- Accept rules stand only next to the translation table they belong to. -/
def TranslatedOrDropped (tables : List Table) : Prop :=
  ∀ rules, forwardRules tables = some rules → (∃ r ∈ rules, .accept ∈ r.statements) →
    ∃ c, natTable c ∈ tables ∧ rules = acceptRules c ++ dropRules c

/-- Whether an answer comes from a request that took effect. -/
def carriedOut : NetworkController.Verdict → Bool
  | .done | .lost _ => true
  | .refused _ => false

/-- The answers let the swap of the full ruleset for the guard happen: the
listing is read and the batch is not refused, as far as they are asked. -/
def SwapAnswered (supply : Supply) : Prop :=
  supply.probes.head?.all (· = .done) = true ∧ supply.kernel.head?.all carriedOut = true

/-- A rollback that gets past its first journal write with the accept rules in
place has the swap answered. -/
def SwapCarriedOut : Act → Prop
  | .restoring c kernel supply =>
    forwardTable c ∈ kernel.tables → supply.puts.head? = some .done → SwapAnswered supply
  | .admitted _ _ | .attempted _ | .lookedUp _ _ _ | .restored _ | .requested _ _
  | .journaled _ _ => True

instance (supply : Supply) : Decidable (SwapAnswered supply) :=
  inferInstanceAs (Decidable (_ ∧ _))

instance : DecidablePred SwapCarriedOut
  | .restoring _ _ supply => inferInstanceAs (Decidable (_ → _ → SwapAnswered supply))
  | .admitted _ _ | .attempted _ | .lookedUp _ _ _ | .restored _ | .requested _ _
  | .journaled _ _ =>
    inferInstanceAs (Decidable True)

section Swap
variable {n : Nat} {seen : Prop} {K : Kernel} {c : NetworkConfig}

theorem nft_answered {batch : Batch} {tables : List Table} {w : World}
    (hbatch : runBatch batch w.kernel.tables = some tables)
    (hanswer : w.supply.kernel.head?.all carriedOut = true) :
    (nft batch w).1 = .crashed ∧ (nft batch w).2.kernel = w.kernel ∨
      (nft batch w).2.kernel = mapTables (fun _ => tables) w.kernel := by
  have hserve : w.kernel.serve (.nft batch) = .ok (mapTables (fun _ => tables) w.kernel) := by
    simp only [Kernel.serve, hbatch, mapTables]
  unfold nft
  rw [bind_run]
  unfold request
  rcases hsupply : w.supply.kernel with _ | ⟨answer, rest⟩ <;> rw [hsupply] at hanswer
  · exact .inl ⟨rfl, rfl⟩
  · right
    cases answer with
    | done =>
      dsimp only
      rw [hserve]
      rfl
    | refused what => cases hanswer
    | lost what =>
      dsimp only
      rw [Kernel.after, hserve]

/-- An answered swap ends in a crash before it or in the guard's place. -/
theorem swapGuard_answered {w : World} (hsighted : Sighted seen K c .translated w.kernel)
    (h : SwapAnswered w.supply) :
    (swapGuard c w).1 = .crashed ∧ Sighted seen K c .translated (swapGuard c w).2.kernel ∨
      Sighted seen K c .swapped (swapGuard c w).2.kernel := by
  have look := looking_tableExists .inet w
  unfold swapGuard
  rw [bind_run]
  rcases hlist : tableExists .inet w with ⟨found | e | _, w₁⟩ <;> rw [hlist] at look
  · have hfound := tableExists_returned (by rw [hlist])
    have hkernel : w₁.kernel = w.kernel := look.kernel
    have hsighted₁ : Sighted seen K c .translated w₁.kernel := hkernel ▸ hsighted
    have hanswer : w₁.supply.kernel.head?.all carriedOut = true := by
      rw [look.answers]
      exact h.2
    rw [hfound, ← hkernel]
    dsimp only
    rw [bind_run]
    have hnft := nft_answered (runBatch_swap c w₁.kernel.tables) hanswer
    rcases hrun : nft _ w₁ with ⟨_ | e | _, w₂⟩ <;> rw [hrun] at hnft
    · right
      have hswap := hnft.resolve_left (by simp)
      obtain ⟨n, hn, hv, -⟩ := performs_clearConnections w₂
      have hclear : (clearConnections w₂).2.kernel = w₂.kernel := by
        rw [hv]
        match n, hn with
        | 0, _ => rfl
        | 1, _ => rfl
      rw [hclear, hswap]
      exact hsighted₁.swapTables
    · right
      rw [hnft.resolve_left (by simp)]
      exact hsighted₁.swapTables
    · rcases hnft with ⟨-, hsame⟩ | hswap
      · left
        exact ⟨rfl, by rw [hsame]; exact hsighted₁⟩
      · right
        rw [hswap]
        exact hsighted₁.swapTables
  · -- A listing that is read does not throw.
    exfalso
    unfold tableExists probe at hlist
    split at hlist
    · cases hlist
    · cases hlist
    · next hp => have := h.1; rw [hp] at this; cases this
    · next hp => have := h.1; rw [hp] at this; cases this
  · left
    exact ⟨rfl, by rw [look.kernel]; exact hsighted⟩

/-- The stages in which the accept rules are gone. -/
def Closed (s : Stage) : Prop := s = .bare ∨ s = .guarded ∨ s = .swapped

theorem closed_dropTranslation (s : Stage) (h : Closed s) : Closed s.dropTranslation := by
  rcases h with rfl | rfl | rfl <;> simp [Closed, Stage.dropTranslation]

theorem closed_swap (s : Stage) (h : Closed s) : Closed s.swap := by
  rcases h with rfl | rfl | rfl <;> simp [Closed, Stage.swap]

theorem InStage.not_exposed {w : World} (h : InStage n K c Closed w) :
    InStage n K c (· ≠ .exposed) w := by
  refine h.imp fun s hs => ?_
  rcases hs with rfl | rfl | rfl <;> simp

/-- After the swap the accept rules do not come back. -/
theorem withdraw_closed (errors : String) :
    Triple (InStage n K c fun s => s = .swapped) (withdraw c errors)
      (After n K c Closed (fun s => s = .guarded) (Gone c)) := by
  refine (withdraw_spec closed_dropTranslation errors).imp (fun w hw => ?_) fun _ _ h => h
  exact ⟨hw.imp fun _ hs => .inr (.inr hs), fun _ =>
    ⟨hw.imp fun _ hs => .inr hs, fun _ => trivial⟩⟩

theorem dropGuard_closed (errors : String) :
    Triple (Before n K c Closed (fun s => s = .guarded) (Gone c) errors) (dropGuard errors)
      fun _ w => InStage n K c Closed w :=
  (dropGuard_spec (.inr (.inl rfl)) (.inl rfl) errors).imp (fun _ h => h) fun _ _ h => h.1

end Swap

/-- Under answered swaps the accept rules never stand alone. -/
theorem regime_swapCarriedOut (K : Kernel) :
    Regime K (· ≠ .exposed) SwapCarriedOut where
  bare := by simp
  guarded := by simp
  translated := by simp
  rollBack := by
    intro n c w w₁ hanswer put hstage
    have effect := putState_effect put
    have hputs : w.supply.puts.head? = some .done := by
      cases putState_cases put with
      | done h => exact congrArg List.head? h
    obtain ⟨hn, s, hs, hsighted⟩ := hstage
    have closed : Closed s → InStage n K c (· ≠ .exposed) (rollBack c w₁).2 := by
      intro hclosed
      refine InStage.not_exposed (Triple.bind (P := InStage n K c Closed)
        (Q := fun _ w => InStage n K c Closed w)
        (undoInstall_spec closed_swap closed_dropTranslation) (fun errors => ?_)
        (fun _ _ h => h.1) (fun _ h => h.1) w₁ ⟨hn, s, hclosed, hsighted⟩)
      exact (dropGuard_closed errors).imp (fun w hw => ⟨hw.1, hw.2.1 errors rfl⟩) fun _ _ h => h
    cases s with
    | bare => exact closed (.inl rfl)
    | guarded => exact closed (.inr (.inl rfl))
    | swapped => exact closed (.inr (.inr rfl))
    | exposed => exact absurd rfl hs
    | translated =>
      have hforward : forwardTable c ∈ w.kernel.tables := by
        have hours : forwardTable c ∈ w₁.kernel.tables.filter reserved := by
          rw [hsighted.tabled.tables]
          exact List.mem_cons_of_mem _ List.mem_cons_self
        exact effect.kernel ▸ (List.mem_filter.mp hours).1
      have hswap : SwapAnswered w₁.supply := by
        have := hanswer hforward hputs
        unfold SwapAnswered at this ⊢
        rw [effect.answers.1, effect.answers.2.1]
        exact this
      have hrun := attemptStep_run .swapGuard "" (swapGuard c) w₁
      have hend := swapGuard_answered (w := noted (.attempted .swapGuard) w₁) hsighted hswap
      rw [← hrun.1] at hend
      have hnothrow := noThrow_attemptStep .swapGuard "" (swapGuard c) w₁
      have grows := (quiet_attemptStep .swapGuard "" (quiet_swapGuard c) w₁).grows
      unfold rollBack undoInstall
      rcases hstep : attemptStep .swapGuard "" (swapGuard c) w₁ with ⟨errors | e | _, w₂⟩ <;>
        rw [hstep] at hend grows
      · have hswapped : Sighted (Sees n w₁) K c .swapped w₂.kernel := by
          refine hend.resolve_left fun hcut => ?_
          have := hrun.2 hcut.1
          rw [hstep] at this
          cases this
        refine InStage.not_exposed ?_
        rw [bind_run, bind_returned hstep]
        refine Triple.bind (P := InStage n K c fun s => s = .swapped)
          (Q := fun _ w => InStage n K c Closed w) (withdraw_closed errors)
          (fun errors => ?_) (fun _ _ h => h.1) (fun _ h => h.1) w₂
          (.after hn grows ⟨.swapped, rfl, hswapped⟩)
        exact (dropGuard_closed errors).imp (fun w hw => ⟨hw.1, hw.2.1 errors rfl⟩) fun _ _ h => h
      · exact absurd (by rw [hstep]) (hnothrow e)
      · rw [bind_crashed (bind_crashed hstep)]
        refine .after hn grows ?_
        rcases hend with ⟨-, htranslated⟩ | hswapped
        · exact ⟨.translated, by simp, htranslated⟩
        · exact ⟨.swapped, by simp, hswapped⟩

theorem Tabled.translatedOrDropped {K k : Kernel} {c : NetworkConfig} {s : Stage}
    (h : Tabled K (s.tables c) k) (hs : s ≠ .exposed) : TranslatedOrDropped k.tables := by
  rintro rules hrules ⟨r, hr, haccept⟩
  rw [Tabled.forwardRules h] at hrules
  have dropping : ¬ ∃ r ∈ dropRules c, .accept ∈ r.statements := by simp [dropRules]
  cases s with
  | bare => cases hrules
  | guarded | swapped =>
    cases hrules
    exact absurd ⟨r, hr, haccept⟩ dropping
  | exposed => exact absurd rfl hs
  | translated =>
    cases hrules
    refine ⟨c, ?_, rfl⟩
    have hmem : natTable c ∈ k.tables.filter reserved := by
      rw [h.tables]
      exact List.mem_cons_self
    exact (List.mem_filter.mp hmem).1

/-- In every run whose rollbacks have their guard swap answered, no state has
the accept rules without the translation. -/
theorem accept_rules_translated {n : Node} (h : Pristine n.world.kernel)
    {calls : List (Call × Supply)} (hanswer : ∀ a ∈ (n.run calls).world.log, SwapCarriedOut a) :
    TranslatedOrDropped (n.run calls).world.kernel.tables := by
  rcases (regime_swapCarriedOut n.world.kernel).run rfl h calls hanswer with
    hclean | ⟨c, ⟨-, s, hs, hsighted⟩, -, -⟩
  · exact Tabled.translatedOrDropped (hclean.2.sighted exampleConfig).tabled (by simp)
  · exact Tabled.translatedOrDropped hsighted.tabled hs

theorem accept_rules_translated_example :
    TranslatedOrDropped (exampleNode.run [(.construct true, answering),
      (.apply exampleConfig, answering), (.rollback, answering)]).world.kernel.tables :=
  accept_rules_translated (n := exampleNode) pristine_exampleKernel (by decide +kernel)

/-- The first nft batch is refused, everything after it is carried out. -/
def refusingFirst : Supply :=
  { answering with kernel := .refused "nft failed: Could not process rule" ::
      List.replicate 60 .done }

/-- A rollback whose guard swap is refused still deletes the translation table,
and the device stays forwardable under its own address. -/
theorem swap_refused_exposes :
    ¬ TranslatedOrDropped (exampleNode.run [(.construct true, answering),
      (.apply exampleConfig, answering), (.rollback, refusingFirst)]).world.kernel.tables := by
  have htables : (exampleNode.run [(.construct true, answering),
      (.apply exampleConfig, answering), (.rollback, refusingFirst)]).world.kernel.tables =
        [forwardTable exampleConfig] := by decide +kernel
  rw [htables]
  intro h
  obtain ⟨c, hc, -⟩ := h _ rfl
    ⟨_, List.mem_cons_self, List.mem_cons_of_mem _ List.mem_cons_self⟩
  cases List.mem_singleton.mp hc

end Magicbox.Guarantees.ForwardingGuard
