import Magicbox.Source.NetworkController

/-!
# What the controller's parts can change

Two facts carry most of the later arguments. Between two journal writes the
controller only talks to the kernel: its state, the store, the clock and the
journal's answers stay as they are (`Quiet`). And what it does to the kernel is
a list of requests, fixed by the configuration, of which a prefix takes effect
(`Performs`).
-/

set_option autoImplicit false

namespace Magicbox.Source.NetworkController
open Library.Crash Json Config ConfigJson Nftables Netns

/-! ## Frames -/

/-- Acts of a stretch of program that talks to the kernel only. -/
def Act.kernelSide : Act → Bool
  | .attempted _ | .lookedUp _ _ _ | .requested _ _ => true
  | .admitted _ _ | .restoring _ _ _ | .restored _ | .journaled _ _ => false

/-- The lookup failed, and `restore` went on as if the link were gone. -/
def Act.overlooks : Act → Bool
  | .lookedUp _ found present => present && !found
  | .admitted _ _ | .restoring _ _ _ | .attempted _ | .restored _ | .requested _ _
  | .journaled _ _ => false

/-- Behind the first `n` acts `restore` has overlooked no link. -/
def Sees (n : Nat) (w : World) : Prop := ∀ act ∈ w.log.drop n, act.overlooks = false

theorem sees_append {w w' : World} {acts : List Act} (hlog : w'.log = w.log ++ acts) :
    Sees w.log.length w' ↔ ∀ act ∈ acts, act.overlooks = false := by
  rw [Sees, hlog, List.drop_left]

theorem sees_refl (w : World) : Sees w.log.length w :=
  (sees_append (List.append_nil _).symm).mpr (by simp)

/-- Whether the next lookup goes through. -/
def Supply.looks (supply : Supply) : Bool := supply.lookups.head?.getD true

/-- Every lookup that a supply answers goes through. -/
def Supply.looksUp (supply : Supply) : Prop := ∀ ok ∈ supply.lookups, ok = true

theorem Supply.looksUp.next {supply : Supply} (h : supply.looksUp) : supply.looks = true := by
  unfold Supply.looks
  cases hlookups : supply.lookups with
  | nil => rfl
  | cons ok rest => exact h ok (hlookups ▸ List.mem_cons_self)

structure Quiet (w w' : World) : Prop where
  store : w'.store = w.store
  clock : w'.clock = w.clock
  enabled : w'.enabled = w.enabled
  state_ : w'.state_ = w.state_
  deadline_ : w'.deadline_ = w.deadline_
  ticks : w'.supply.clock = w.supply.clock
  puts : w'.supply.puts = w.supply.puts
  lookups : w'.supply.lookups ⊆ w.supply.lookups
  sees : w.supply.looksUp → Sees w.log.length w'
  log : ∃ acts, w'.log = w.log ++ acts ∧ ∀ a ∈ acts, a.kernelSide = true

theorem Quiet.refl (w : World) : Quiet w w :=
  ⟨rfl, rfl, rfl, rfl, rfl, rfl, rfl, List.Subset.refl _, fun _ => sees_refl w, [], by simp,
    by simp⟩

theorem Quiet.trans (w₁ w₂ w₃ : World) (h : Quiet w₁ w₂) (h' : Quiet w₂ w₃) : Quiet w₁ w₃ := by
  obtain ⟨acts, hlog, hacts⟩ := h.log
  obtain ⟨acts', hlog', hacts'⟩ := h'.log
  have hall : w₃.log = w₁.log ++ (acts ++ acts') := by rw [hlog', hlog, List.append_assoc]
  refine ⟨h'.store.trans h.store, h'.clock.trans h.clock, h'.enabled.trans h.enabled,
    h'.state_.trans h.state_, h'.deadline_.trans h.deadline_, h'.ticks.trans h.ticks,
    h'.puts.trans h.puts, List.Subset.trans h'.lookups h.lookups, fun hlooks => ?_,
    acts ++ acts', hall, ?_⟩
  · have hfirst := (sees_append hlog).mp (h.sees hlooks)
    have hlast := (sees_append hlog').mp (h'.sees fun ok hok => hlooks ok (h.lookups hok))
    exact (sees_append hall).mpr (List.forall_mem_append.mpr ⟨hfirst, hlast⟩)
  · exact List.forall_mem_append.mpr ⟨hacts, hacts'⟩

/-- A world in which answers were used up and acts of the kernel side were recorded. -/
theorem Quiet.recorded {w : World} (kernel : Kernel) (answers probes : List Verdict)
    (acts : List Act) (hside : ∀ a ∈ acts, a.kernelSide = true)
    (hsees : ∀ a ∈ acts, a.overlooks = false) :
    Quiet w { w with kernel := kernel, log := w.log ++ acts,
                     supply := { w.supply with kernel := answers, probes := probes } } :=
  ⟨rfl, rfl, rfl, rfl, rfl, rfl, rfl, List.Subset.refl _, fun _ => (sees_append rfl).mpr hsees,
    acts, rfl, hside⟩

/-- A look at the kernel: on top of that the kernel and the log stay as they are. -/
structure Looking (w w' : World) : Prop extends Quiet w w' where
  kernel : w'.kernel = w.kernel
  answers : w'.supply.kernel = w.supply.kernel
  sameLog : w'.log = w.log

theorem Looking.refl (w : World) : Looking w w := ⟨Quiet.refl w, rfl, rfl, rfl⟩

theorem Looking.trans (w₁ w₂ w₃ : World) (h : Looking w₁ w₂) (h' : Looking w₂ w₃) :
    Looking w₁ w₃ :=
  ⟨Quiet.trans _ _ _ h.toQuiet h'.toQuiet, h'.kernel.trans h.kernel,
    h'.answers.trans h.answers, h'.sameLog.trans h.sameLog⟩

@[simp] theorem liftExcept_state {α : Type} (x : Except Exn α) (w : World) :
    ((liftExcept x : Controller α) w).2 = w := by
  cases x <;> rfl

theorem looking_probed (w : World) (rest : List Verdict) :
    Looking w { w with supply := { w.supply with probes := rest } } := by
  refine ⟨?_, rfl, rfl, rfl⟩
  have hquiet := Quiet.recorded (w := w) w.kernel w.supply.kernel rest [] (by simp) (by simp)
  simpa using hquiet

theorem looking_probe {α : Type} (f : Kernel → Except Exn α) : Within Looking (probe f) := by
  intro w
  unfold probe
  rcases w.supply.probes with _ | ⟨answer, rest⟩
  · exact Looking.refl w
  · cases answer with
    | done =>
      simp only [liftExcept_state]
      exact looking_probed w rest
    | refused _ | lost _ =>
      exact looking_probed w rest

/-- A look that returns, returns what the kernel shows. -/
theorem probe_returned {α : Type} {f : Kernel → Except Exn α} {w : World} {a : α}
    (h : (probe f w).1 = .returned a) : f w.kernel = .ok a := by
  unfold probe at h
  split at h
  · cases h
  · cases hf : f w.kernel with
    | error e => rw [hf] at h; cases h
    | ok b => rw [hf] at h; cases h; rfl
  · cases h
  · cases h

section Looking
variable {α β : Type}

theorem looking_pure (a : α) : Within Looking (pure a : Controller α) := Within.pure Looking.refl a

theorem looking_raise (e : Exn) : Within Looking (raise e : Controller α) :=
  Within.raise Looking.refl e

theorem looking_read (f : World → α) : Within Looking (read f : Controller α) :=
  Within.read Looking.refl f

theorem looking_liftExcept (x : Except Exn α) : Within Looking (liftExcept x : Controller α) :=
  Within.liftExcept Looking.refl x

theorem looking_bind {m : Controller α} {f : α → Controller β} (hm : Within Looking m)
    (hf : ∀ a, Within Looking (f a)) : Within Looking (m >>= f) :=
  Within.bind Looking.trans hm hf

theorem looking_indexOf (name : String) : Within Looking (indexOf name) := by
  refine looking_bind (looking_read _) fun found => ?_
  cases found
  · exact looking_raise _
  · exact looking_pure _

theorem looking_ifNametoindex (name : String) : Within Looking (ifNametoindex name) := by
  intro w
  unfold ifNametoindex
  split
  · exact Looking.refl w
  · next ok rest hlookups =>
    refine ⟨⟨rfl, rfl, rfl, rfl, rfl, rfl, rfl, ?_, fun _ => sees_refl w, [], by simp, by simp⟩,
      rfl, rfl, rfl⟩
    rw [hlookups]
    exact List.subset_cons_self _ _

theorem looking_tableExists (family : Family) : Within Looking (tableExists family) :=
  looking_probe _

theorem looking_checkReserved : Within Looking checkReserved := by
  refine looking_bind (looking_tableExists _) fun ip => ?_
  cases ip
  · refine looking_bind (looking_tableExists _) fun inet => ?_
    cases inet
    · refine looking_bind (looking_ifNametoindex _) fun vlan => ?_
      cases vlan
      · exact looking_pure _
      · exact looking_raise _
    · exact looking_raise _
  · exact looking_raise _

theorem looking_checkRoutes : Within Looking checkRoutes := by
  refine looking_bind (looking_probe _) fun routes => ?_
  split
  · exact looking_raise _
  · exact looking_pure _

theorem looking_checkRules : Within Looking checkRules :=
  looking_bind (looking_probe _) fun _ => looking_liftExcept _

theorem looking_capturePort (name : String) : Within Looking (capturePort name) := by
  refine looking_bind (looking_indexOf name) fun _ => ?_
  refine looking_bind (looking_probe _) fun info => ?_
  split
  · exact looking_raise _
  · refine looking_bind (looking_probe _) fun disableIpv6 => ?_
    exact looking_bind (looking_probe _) fun rpFilter => looking_pure _

theorem looking_checkAdmission (c : NetworkConfig) : Within Looking (checkAdmission c) := by
  refine looking_bind (looking_read _) fun enabled => ?_
  split
  · exact looking_raise _
  · refine looking_bind (looking_read _) fun status => ?_
    split
    · exact looking_raise _
    · refine looking_bind (looking_liftExcept _) fun _ => ?_
      refine looking_bind looking_checkReserved fun _ => ?_
      refine looking_bind looking_checkRoutes fun _ => ?_
      refine looking_bind looking_checkRules fun _ => ?_
      refine looking_bind (looking_capturePort _) fun outer => ?_
      refine looking_bind (looking_capturePort _) fun inner => ?_
      exact looking_bind (looking_probe _) fun _ => looking_pure _

theorem looking_acquireLock : Within Looking acquireLock :=
  looking_bind (looking_probe _) fun _ => looking_bind (looking_probe _) fun _ => looking_probe _

end Looking

/-! ## The way through a rollback -/

/-- The actions that `restore` attempts before the last one. -/
inductive Restoring (c : NetworkConfig) : Step → Controller Unit → Prop
  | swapGuard : Restoring c .swapGuard (swapGuard c)
  | dropRule : Restoring c .dropRule (rule c false)
  | dropGatewayRoute : Restoring c .dropGatewayRoute (route c true false)
  | dropLinkRoute : Restoring c .dropLinkRoute (route c false false)
  | dropOuterAddress :
    Restoring c .dropOuterAddress (address (effectiveOuter c) c.outerIpv4 c.outerPrefix false)
  | dropInnerAddress :
    Restoring c .dropInnerAddress (address c.innerInterface c.innerGatewayIpv4 c.innerPrefix false)
  | dropVlan : Restoring c .dropVlan vlanDelete
  | dropTranslation : Restoring c .dropTranslation (dropTable .ip)
  | resetForward : Restoring c .resetForward (resetSysctl .ipForward "ip_forward")
  | resetRpFilterAll : Restoring c .resetRpFilterAll (resetSysctl .rpFilterAll "rp_filter_all")
  | resetPort (info : Value) : Restoring c (.resetPort info) (resetPort info)

section Walk
variable {P : ∀ {α : Type}, Controller α → Prop} {c : NetworkConfig}

/-- Every attempt of a restoration step before the last has the property. -/
def Attempts (P : ∀ {α : Type}, Controller α → Prop) (c : NetworkConfig) : Prop :=
  ∀ {step : Step} {action : Controller Unit}, Restoring c step action →
    ∀ errors, P (attemptStep step errors action)

theorem walk_dropOuter (h : Composes P) (looks : P (lookUp (effectiveOuter c)))
    (steps : Attempts P c) (errors : String) : P (dropOuter c errors) := by
  refine h.bind looks fun found => ?_
  cases found
  · exact h.pure _
  · refine h.bind (steps .dropGatewayRoute _) fun _ => ?_
    exact h.bind (steps .dropLinkRoute _) fun _ => steps .dropOuterAddress _

theorem walk_dropVlan (h : Composes P) (steps : Attempts P c) (errors : String) :
    P (dropVlan c errors) := by
  unfold dropVlan
  split
  · exact steps .dropVlan _
  · exact h.pure _

theorem walk_resetPorts (h : Composes P) (steps : Attempts P c) (errors : String)
    (infos : List Value) : P (resetPorts errors infos) := by
  induction infos generalizing errors with
  | nil => exact h.pure _
  | cons info rest ih => exact h.bind (steps (.resetPort info) _) fun errors => ih errors

theorem walk_undoInstall (h : Composes P) (looks : P (lookUp (effectiveOuter c)))
    (steps : Attempts P c) : P (undoInstall c) := by
  refine h.bind (steps .swapGuard _) fun _ => h.bind (steps .dropRule _) fun _ => ?_
  refine h.bind (walk_dropOuter h looks steps _) fun _ => ?_
  refine h.bind (steps .dropInnerAddress _) fun _ => ?_
  refine h.bind (walk_dropVlan h steps _) fun _ => h.bind (steps .dropTranslation _) fun _ => ?_
  refine h.bind (steps .resetForward _) fun _ => h.bind (steps .resetRpFilterAll _) fun _ => ?_
  exact h.bind (h.read _) fun _ => walk_resetPorts h steps _ _

/-- A rollback has a property that all its attempts have. -/
theorem walk_rollBack (h : Composes P) (looks : P (lookUp (effectiveOuter c)))
    (steps : Attempts P c) (guard : ∀ errors, P (attemptStep .dropGuard errors (dropTable .inet))) :
    P (rollBack c) := by
  refine h.bind (walk_undoInstall h looks steps) fun errors => ?_
  unfold dropGuard
  split
  · exact guard _
  · exact h.pure _

end Walk

section Quiet
variable {α β : Type}

theorem quiet_of_looking {m : Controller α} (h : Within Looking m) : Within Quiet m :=
  fun w => (h w).toQuiet

theorem quiet_eq {m : Controller α} (h : Within Quiet m) {w w' : World} {o : Outcome Exn α}
    (hrun : m w = (o, w')) : Quiet w w' := by
  have quiet := h w
  rwa [hrun] at quiet

theorem quiet_bind {m : Controller α} {f : α → Controller β} (hm : Within Quiet m)
    (hf : ∀ a, Within Quiet (f a)) : Within Quiet (m >>= f) :=
  Within.bind Quiet.trans hm hf

theorem quiet_request (r : Request) : Within Quiet (request r) := by
  intro w
  have recorded : ∀ kernel answer rest, Quiet w { w with
      kernel := kernel, supply := { w.supply with kernel := rest },
      log := w.log ++ [.requested r answer] } := fun kernel answer rest =>
    .recorded kernel rest w.supply.probes _ (by simp [Act.kernelSide]) (by simp [Act.overlooks])
  unfold request
  rcases w.supply.kernel with _ | ⟨answer, rest⟩
  · exact Quiet.refl w
  · cases answer with
    | done =>
      dsimp only
      cases w.kernel.serve r with
      | ok k => exact recorded k _ _
      | error errno => exact recorded w.kernel _ _
    | refused what => exact recorded w.kernel _ _
    | lost what => exact recorded _ _ _

theorem quiet_netlink {fill : Controller Request} (hfill : Within Quiet fill) (missingOk : Bool) :
    Within Quiet (netlink fill missingOk) := by
  refine quiet_bind hfill fun r => quiet_bind (quiet_request r) fun answer => ?_
  cases answer with
  | none => exact quiet_of_looking (looking_pure _)
  | some errno =>
    dsimp only
    split
    · exact quiet_of_looking (looking_pure _)
    · exact quiet_of_looking (looking_raise _)

theorem quiet_writeFile (file : Sysctl) (value : String) : Within Quiet (writeFile file value) := by
  refine quiet_bind (quiet_request _) fun answer => ?_
  cases answer
  · exact quiet_of_looking (looking_pure _)
  · exact quiet_of_looking (looking_raise _)

theorem quiet_nft (batch : Batch) : Within Quiet (nft batch) := by
  refine quiet_bind (quiet_request _) fun answer => ?_
  cases answer
  · exact quiet_of_looking (looking_pure _)
  · exact quiet_of_looking (looking_raise _)

theorem quiet_linkState (name : String) (up : Bool) (mac : String) :
    Within Quiet (linkState name up mac) := by
  refine quiet_netlink (quiet_of_looking (looking_bind (looking_indexOf _) fun _ => ?_)) _
  split
  · exact looking_pure _
  · exact looking_bind (looking_liftExcept _) fun _ => looking_pure _

theorem quiet_vlanAdd (c : NetworkConfig) : Within Quiet (vlanAdd c) :=
  quiet_netlink (quiet_of_looking (looking_bind (looking_indexOf _) fun _ => looking_pure _)) _

theorem ifNametoindex_run (name : String) (w : World) : ifNametoindex name w =
    (.returned (w.supply.looks && w.kernel.present name),
      { w with supply := { w.supply with lookups := w.supply.lookups.tail } }) := by
  unfold ifNametoindex
  rcases hlookups : w.supply.lookups with _ | ⟨ok, rest⟩
  · have hsame : { w.supply with lookups := [] } = w.supply := by rw [← hlookups]
    simp [Supply.looks, hlookups, hsame]
  · simp [Supply.looks, hlookups]

theorem quiet_lookUp (name : String) : Within Quiet (lookUp name) := by
  intro w
  unfold lookUp
  rw [bind_returned (read_run _ w), bind_returned (ifNametoindex_run name w)]
  refine ⟨rfl, rfl, rfl, rfl, rfl, rfl, rfl, (List.tail_sublist _).subset, fun hlooks => ?_, _, rfl,
    by simp [Act.kernelSide]⟩
  have hfound : w.supply.looks = true := hlooks.next
  refine (sees_append rfl).mpr fun act hact => ?_
  obtain rfl := List.mem_singleton.mp hact
  rw [hfound]
  cases w.kernel.present name <;> rfl

theorem quiet_vlanDelete : Within Quiet vlanDelete := by
  refine quiet_bind (quiet_lookUp vlanName) fun found => ?_
  cases found
  · exact quiet_of_looking (looking_pure _)
  · exact quiet_netlink
      (quiet_of_looking (looking_bind (looking_indexOf _) fun _ => looking_pure _)) _

theorem quiet_address (iface ip : String) (prefixLength : UInt32) (add : Bool) :
    Within Quiet (address iface ip prefixLength add) :=
  quiet_netlink (quiet_of_looking (looking_bind (looking_indexOf _) fun _ =>
    looking_bind (looking_liftExcept _) fun _ => looking_pure _)) _

theorem quiet_route (c : NetworkConfig) (gateway add : Bool) : Within Quiet (route c gateway add) :=
  quiet_netlink (quiet_of_looking (looking_bind (looking_indexOf _) fun _ =>
    looking_bind (looking_liftExcept _) fun _ => looking_pure _)) _

theorem quiet_rule (c : NetworkConfig) (add : Bool) : Within Quiet (rule c add) :=
  quiet_netlink (quiet_of_looking (looking_bind (looking_liftExcept _) fun _ => looking_pure _)) _

theorem quiet_clearConnections : Within Quiet clearConnections :=
  quiet_netlink (quiet_of_looking (looking_pure _)) _

theorem quiet_preparePort (name : String) : Within Quiet (preparePort name) :=
  quiet_bind (quiet_writeFile _ _) fun _ => quiet_writeFile _ _

theorem quiet_installVlan (c : NetworkConfig) : Within Quiet (installVlan c) := by
  unfold installVlan
  split
  · refine quiet_bind (quiet_vlanAdd c) fun _ => quiet_bind (quiet_writeFile _ _) fun _ => ?_
    exact quiet_bind (quiet_writeFile _ _) fun _ => quiet_linkState _ _ _
  · exact quiet_of_looking (looking_pure _)

theorem quiet_prepareLinks (c : NetworkConfig) : Within Quiet (prepareLinks c) := by
  refine quiet_bind (quiet_preparePort _) fun _ => quiet_bind (quiet_preparePort _) fun _ => ?_
  refine quiet_bind (quiet_linkState _ _ _) fun _ => quiet_bind (quiet_linkState _ _ _) fun _ => ?_
  exact quiet_bind (quiet_linkState _ _ _) fun _ => quiet_installVlan c

theorem quiet_connect (c : NetworkConfig) : Within Quiet (connect c) := by
  refine quiet_bind (quiet_linkState _ _ _) fun _ => quiet_bind (quiet_address _ _ _ _) fun _ => ?_
  refine quiet_bind (quiet_address _ _ _ _) fun _ => quiet_bind (quiet_route _ _ _) fun _ => ?_
  refine quiet_bind (quiet_route _ _ _) fun _ => quiet_bind (quiet_rule _ _) fun _ => ?_
  exact quiet_bind (quiet_writeFile _ _) fun _ => quiet_writeFile _ _

theorem quiet_install (c : NetworkConfig) : Within Quiet (install c) :=
  quiet_bind (quiet_prepareLinks c) fun _ => quiet_bind (quiet_nft _) fun _ =>
    quiet_bind (quiet_connect c) fun _ => quiet_nft _

theorem quiet_attemptStep (step : Step) (errors : String) {action : Controller Unit}
    (h : Within Quiet action) : Within Quiet (attemptStep step errors action) := by
  refine quiet_bind (fun w => ?_) fun _ => Within.attempt Quiet.refl Quiet.trans h _ _
  exact .recorded w.kernel w.supply.kernel w.supply.probes [.attempted step]
    (by simp [Act.kernelSide]) (by simp [Act.overlooks])

theorem quiet_swapGuard (c : NetworkConfig) : Within Quiet (swapGuard c) :=
  quiet_bind (quiet_of_looking (looking_tableExists _)) fun _ =>
    quiet_bind (quiet_nft _) fun _ => quiet_clearConnections

theorem quiet_dropTable (family : Family) : Within Quiet (dropTable family) := by
  refine quiet_bind (quiet_of_looking (looking_tableExists _)) fun found => ?_
  cases found
  · exact quiet_of_looking (looking_pure _)
  · exact quiet_nft _

theorem quiet_resetSysctl (file : Sysctl) (name : String) : Within Quiet (resetSysctl file name) :=
  quiet_bind (quiet_of_looking (looking_read _)) fun _ =>
    quiet_bind (quiet_of_looking (looking_liftExcept _)) fun _ => quiet_writeFile _ _

theorem quiet_resetPort (info : Value) : Within Quiet (resetPort info) := by
  have take : ∀ {α : Type} (x : Except Exn α), Within Quiet (liftExcept x : Controller α) :=
    fun x => quiet_of_looking (looking_liftExcept x)
  refine quiet_bind (take _) fun _ => quiet_bind (take _) fun _ => ?_
  refine quiet_bind (quiet_linkState _ _ _) fun _ => quiet_bind (take _) fun _ => ?_
  refine quiet_bind (quiet_linkState _ _ _) fun _ => quiet_bind (take _) fun _ => ?_
  refine quiet_bind (quiet_writeFile _ _) fun _ => quiet_bind (take _) fun _ => ?_
  exact quiet_bind (quiet_writeFile _ _) fun _ => quiet_linkState _ _ _

theorem quiet_restoring (c : NetworkConfig) : Attempts (Within Quiet) c := by
  intro step action h errors
  refine quiet_attemptStep step errors ?_
  cases h with
  | swapGuard => exact quiet_swapGuard c
  | dropRule => exact quiet_rule c false
  | dropGatewayRoute | dropLinkRoute => exact quiet_route c _ false
  | dropOuterAddress | dropInnerAddress => exact quiet_address _ _ _ false
  | dropVlan => exact quiet_vlanDelete
  | dropTranslation => exact quiet_dropTable .ip
  | resetForward | resetRpFilterAll => exact quiet_resetSysctl _ _
  | resetPort info => exact quiet_resetPort info

theorem quiet_dropOuter (c : NetworkConfig) (errors : String) :
    Within Quiet (dropOuter c errors) :=
  walk_dropOuter (composes_within Quiet.refl Quiet.trans) (quiet_lookUp _) (quiet_restoring c)
    errors

theorem quiet_dropVlan (c : NetworkConfig) (errors : String) : Within Quiet (dropVlan c errors) :=
  walk_dropVlan (composes_within Quiet.refl Quiet.trans) (quiet_restoring c) errors

theorem quiet_rollBack (c : NetworkConfig) : Within Quiet (rollBack c) :=
  walk_rollBack (composes_within Quiet.refl Quiet.trans) (quiet_lookUp _) (quiet_restoring c)
    fun _ => quiet_attemptStep _ _ (quiet_dropTable _)

end Quiet

/-! ## Whole operations -/

/-- What every part of the controller does that is no request: the kernel stays, and the log only
grows. -/
structure Bookkeeping (w w' : World) : Prop where
  kernel : w'.kernel = w.kernel
  log : ∃ acts, w'.log = w.log ++ acts

/-- A relation that only the requests to the kernel can break. -/
structure Lenient (R : World → World → Prop) : Prop where
  trans : ∀ w₁ w₂ w₃, R w₁ w₂ → R w₂ w₃ → R w₁ w₃
  bookkeeping : ∀ {w w'}, Bookkeeping w w' → R w w'

section Lenient
variable {α β : Type} {R : World → World → Prop}

theorem Looking.bookkeeping {w w' : World} (look : Looking w w') : Bookkeeping w w' :=
  ⟨look.kernel, [], by rw [look.sameLog, List.append_nil]⟩

theorem Lenient.looking (h : Lenient R) {m : Controller α} (hm : Within Looking m) : Within R m :=
  fun w => h.bookkeeping (hm w).bookkeeping

theorem Lenient.updates (h : Lenient R) (f : World → World) (hf : ∀ w, Bookkeeping w (f w)) :
    Within R (update f : Controller Unit) :=
  fun w => h.bookkeeping (hf w)

theorem Lenient.assign (h : Lenient R) (name : String) (v : Value) : Within R (assign name v) :=
  h.updates _ fun _ => ⟨rfl, [], by simp⟩

theorem Lenient.note (h : Lenient R) (act : World → Act) :
    Within R (update fun w => { w with log := w.log ++ [act w] } : Controller Unit) :=
  h.updates _ fun _ => ⟨rfl, _, rfl⟩

theorem Lenient.bind (h : Lenient R) {m : Controller α} {f : α → Controller β} (hm : Within R m)
    (hf : ∀ a, Within R (f a)) : Within R (m >>= f) :=
  Within.bind h.trans hm hf

theorem Lenient.putState (h : Lenient R) : Within R putState := by
  intro w
  unfold NetworkController.putState
  rcases w.supply.puts with _ | ⟨answer, rest⟩
  · exact h.bookkeeping ⟨rfl, [], by simp⟩
  · cases answer <;> exact h.bookkeeping ⟨rfl, _, rfl⟩

theorem Lenient.steadyNow (h : Lenient R) : Within R steadyNow := by
  intro w
  unfold NetworkController.steadyNow
  rcases w.supply.clock with _ | ⟨elapsed, rest⟩ <;> exact h.bookkeeping ⟨rfl, [], by simp⟩

theorem Lenient.restore (h : Lenient R) (roll : ∀ c, Within R (rollBack c)) :
    Within R restore := by
  refine h.bind (h.looking (looking_read _)) fun _ => ?_
  refine h.bind (h.looking (looking_liftExcept _)) fun c => h.bind (h.note _) fun _ => ?_
  refine h.bind (h.assign _ _) fun _ => h.bind h.putState fun _ => h.bind (roll c) fun errors => ?_
  refine h.bind (h.assign _ _) fun _ => h.bind (h.assign _ _) fun _ => ?_
  refine h.bind h.putState fun _ => ?_
  split
  · exact h.note _
  · exact h.looking (looking_raise _)

theorem Lenient.writeAhead (h : Lenient R) (c : NetworkConfig) (baseline : Value) :
    Within R (writeAhead c baseline) := by
  refine h.bind (h.assign _ _) fun _ => h.bind (h.assign _ _) fun _ => ?_
  refine h.bind (h.looking (looking_probe _)) fun _ => h.bind (h.assign _ _) fun _ => ?_
  refine h.bind (h.looking (looking_probe _)) fun _ => h.bind (h.assign _ _) fun _ => ?_
  exact h.bind (h.assign _ _) fun _ => h.bind (h.note _) fun _ => h.putState

theorem Lenient.activate (h : Lenient R) {c : NetworkConfig} (inst : Within R (install c)) :
    Within R (activate c) := by
  refine h.bind inst fun _ => h.bind (h.assign _ _) fun _ => h.bind h.steadyNow fun _ => ?_
  exact h.bind (h.updates _ fun _ => ⟨rfl, [], by simp⟩) fun _ => h.putState

/-- An `apply` respects a relation that the installation and a rollback respect. -/
theorem Lenient.apply (h : Lenient R) {c : NetworkConfig} (inst : Within R (install c))
    (roll : ∀ c, Within R (rollBack c)) : Within R (apply c) := by
  refine h.bind (h.looking (looking_checkAdmission c)) fun baseline => ?_
  refine h.bind (h.writeAhead c baseline) fun _ => ?_
  refine Within.recover h.trans (h.activate inst) fun e => ?_
  refine h.bind (Within.recover h.trans (h.restore roll) fun _ => ?_) fun _ => ?_
  · exact h.looking (looking_raise _)
  · exact h.looking (looking_raise _)

end Lenient

/-! ## The log only grows -/

def Grows (w w' : World) : Prop := ∃ acts, w'.log = w.log ++ acts

theorem Grows.refl (w : World) : Grows w w := ⟨[], by simp⟩

theorem Grows.trans (w₁ w₂ w₃ : World) (h : Grows w₁ w₂) (h' : Grows w₂ w₃) : Grows w₁ w₃ := by
  obtain ⟨acts, hlog⟩ := h
  obtain ⟨acts', hlog'⟩ := h'
  exact ⟨acts ++ acts', by rw [hlog', hlog, List.append_assoc]⟩

theorem Quiet.grows {w w' : World} (h : Quiet w w') : Grows w w' := by
  obtain ⟨acts, hlog, -⟩ := h.log
  exact ⟨acts, hlog⟩

theorem Grows.le {n : Nat} {w w' : World} (grows : Grows w w') (h : n ≤ w.log.length) :
    n ≤ w'.log.length := by
  obtain ⟨acts, hlog⟩ := grows
  rw [hlog, List.length_append]
  omega

/-- What is overlooked stays overlooked. -/
theorem Sees.grows {n : Nat} {w w' : World} (h : Sees n w') (grows : Grows w w') : Sees n w := by
  obtain ⟨acts, hlog⟩ := grows
  intro act hact
  refine h act ?_
  rw [hlog, List.drop_append]
  exact List.mem_append_left _ hact

theorem Sees.later {n m : Nat} {w : World} (h : Sees n w) (hle : n ≤ m) : Sees m w :=
  fun act hact => h act (List.drop_subset_drop_left _ hle hact)

/-- A stretch of a run that overlooks nothing overlooks nothing. -/
theorem Sees.between {n : Nat} {w₁ w₂ w : World} (h : Sees n w) (hn : n ≤ w₁.log.length)
    (grows : Grows w₂ w) : Sees w₁.log.length w₂ :=
  (h.grows grows).later hn

theorem lenient_grows : Lenient Grows := ⟨Grows.trans, fun h => h.log⟩

section Grows
variable {α : Type}

theorem grows_of_quiet {m : Controller α} (h : Within Quiet m) : Within Grows m :=
  fun w => (h w).grows

theorem grows_restore : Within Grows restore :=
  lenient_grows.restore fun c => grows_of_quiet (quiet_rollBack c)

theorem grows_writeAhead (c : NetworkConfig) (baseline : Value) :
    Within Grows (writeAhead c baseline) :=
  lenient_grows.writeAhead c baseline

theorem grows_activate (c : NetworkConfig) : Within Grows (activate c) :=
  lenient_grows.activate (grows_of_quiet (quiet_install c))

theorem grows_apply (c : NetworkConfig) : Within Grows (apply c) :=
  lenient_grows.apply (grows_of_quiet (quiet_install c)) fun c => grows_of_quiet (quiet_rollBack c)

theorem grows_eq {m : Controller α} (h : Within Grows m) {w w' : World} {o : Outcome Exn α}
    (hrun : m w = (o, w')) : Grows w w' := by
  have grows := h w
  rwa [hrun] at grows

end Grows

end Magicbox.Source.NetworkController
