import Magicbox.Guarantees.Withdrawal
import Magicbox.Source.Worker

/-!
# The journal accounts for the kernel

Whatever the controller has added to the kernel, its journal and its memory
both name the configuration it belongs to, under a status other than inactive.
This holds after every call of every run, wherever the call was cut, for
whatever journal the run starts with.
-/

set_option autoImplicit false

namespace Magicbox.Guarantees.KernelRuns
open Library.Crash Source Source.Json Source.Config Source.ConfigJson Source.Nftables Source.Netns
  Source.NetworkController Source.Worker KernelShape Withdrawal

/-! ## install -/

section Install
variable {seen : Prop} {K : Kernel} {c : NetworkConfig} {s : Stage}

theorem prepareLinks_keeps : Triple (fun w => Sighted seen K c s w.kernel) (prepareLinks c)
    fun _ w => Sighted seen K c s w.kernel := by
  have keep : ∀ r ∈ prepareRequests c, ∀ k, Sighted seen K c s k →
      Sighted seen K c s (k.after r) := by
    have ports : ∀ name, ∀ r ∈ preparePortRequests name, ∀ k, Sighted seen K c s k →
        Sighted seen K c s (k.after r) := by
      intro name r hr k hk
      simp only [preparePortRequests, List.mem_cons, List.not_mem_nil, or_false] at hr
      rcases hr with rfl | rfl
      · exact (tidies_write k _ _).sighted hk
      · exact (tidies_write k _ _).sighted hk
    intro r hr k hk
    simp only [prepareRequests, List.mem_append, List.mem_cons, List.not_mem_nil, or_false] at hr
    rcases hr with ((hr | hr) | rfl | rfl | rfl) | hr
    · exact ports _ r hr k hk
    · exact ports _ r hr k hk
    · exact (tidies_setLink k _ _ _).sighted hk
    · exact (tidies_setLink k _ _ _).sighted hk
    · exact (tidies_setLink k _ _ _).sighted hk
    · unfold vlanRequests at hr
      split at hr
      · next hc =>
        simp only [List.cons_append, List.mem_cons, List.mem_append, List.not_mem_nil,
          or_false] at hr
        rcases hr with rfl | hr | rfl
        · refine hk.imp ?_ fun h => h.addVlan hc _ _
          rw [Kernel.after_addVlan]
          split <;> rfl
        · exact ports _ r hr k hk
        · exact (tidies_setLink k _ _ _).sighted hk
      · cases hr
  refine (performs_prepareLinks c).keeps fun u hu k hk => ?_
  obtain ⟨r, hr, rfl⟩ := List.mem_map.mp hu
  exact keep r hr k hk

theorem connect_keeps (hs : s ≠ .bare) : Triple (fun w => Sighted seen K c s w.kernel) (connect c)
    fun _ w => Sighted seen K c s w.kernel := by
  refine (performs_connect c).keeps fun u hu k hk => ?_
  obtain ⟨r, hr, rfl⟩ := List.mem_map.mp hu
  simp only [connectRequests, List.mem_cons, List.not_mem_nil, or_false] at hr
  rcases hr with rfl | rfl | rfl | rfl | rfl | rfl | rfl | rfl
  · exact (tidies_setLink k _ _ _).sighted hk
  · exact hk.imp (by simp) fun h => h.addAddress hs (.inl ⟨rfl, rfl⟩)
  · exact hk.imp (by simp) fun h => h.addAddress hs (.inr ⟨rfl, rfl⟩)
  · exact hk.imp (by simp) fun h => h.addRoute hs false
  · exact hk.imp (by simp) fun h => h.addRoute hs true
  · exact hk.imp (by simp) fun h => h.addRule hs
  · exact (tidies_write k _ _).sighted hk
  · exact (tidies_write k _ _).sighted hk

/-- The stages install() passes through. -/
def Installing (s : Stage) : Prop := s = .bare ∨ s = .guarded ∨ s = .translated

/-- install() takes a bare kernel through the guard to the full ruleset. -/
theorem install_spec (seen : Prop) (K : Kernel) (c : NetworkConfig) :
    Triple (fun w => Sighted seen K c .bare w.kernel) (install c)
      fun _ w => AtStage seen K c Installing w.kernel := by
  have guards : Triple (fun w => Sighted seen K c .bare w.kernel) (nft [.define (guardTable c)])
      fun o w => (o = .returned () → Sighted seen K c .guarded w.kernel) ∧
        (Sighted seen K c .bare w.kernel ∨ Sighted seen K c .guarded w.kernel) := by
    intro w hw
    have hperf := performs_nft [.define (guardTable c)]
    constructor
    · intro ho
      rw [hperf.view_returned ho]
      exact hw.defineGuard
    · obtain ⟨n, hn, hv, -⟩ := hperf w
      rw [hv]
      match n, hn with
      | 0, _ => exact .inl hw
      | 1, _ => exact .inr hw.defineGuard
  have translates : Triple (fun w => Sighted seen K c .guarded w.kernel)
      (nft [.deleteTable .inet "magicbox", .define (natTable c), .define (forwardTable c)])
      fun _ w => AtStage seen K c Installing w.kernel := by
    intro w hw
    obtain ⟨n, hn, hv, -⟩ := performs_nft
      [.deleteTable .inet "magicbox", .define (natTable c), .define (forwardTable c)] w
    rw [hv]
    match n, hn with
    | 0, _ => exact ⟨.guarded, .inr (.inl rfl), hw⟩
    | 1, _ => exact ⟨.translated, .inr (.inr rfl), hw.defineRuleset⟩
  have bare : ∀ w : World, Sighted seen K c .bare w.kernel →
      AtStage seen K c Installing w.kernel :=
    fun w hw => ⟨.bare, .inl rfl, hw⟩
  have guarded : ∀ w : World, Sighted seen K c .guarded w.kernel →
      AtStage seen K c Installing w.kernel :=
    fun w hw => ⟨.guarded, .inr (.inl rfl), hw⟩
  refine Triple.bind prepareLinks_keeps (fun _ => ?_) (fun _ w hw => bare w hw)
    fun w hw => bare w hw
  refine Triple.bind guards (fun _ => ?_) (fun _ w hw => hw.2.elim (bare w) (guarded w))
    fun w hw => hw.2.elim (bare w) (guarded w)
  refine Triple.imp (P := fun w => Sighted seen K c .guarded w.kernel) ?_ (fun w hw => hw.1 rfl)
    fun _ _ h => h
  exact Triple.bind (connect_keeps (by simp)) (fun _ => translates)
    (fun _ w hw => guarded w hw) fun w hw => guarded w hw

theorem install_shaped {w : World} (h : Bare K w.kernel) : Shaped K c (install c w).2.kernel := by
  have hspec := install_spec True K c w (.of_shape (Shape.of_bare h c))
  obtain ⟨s, -, hsighted⟩ := hspec
  exact ⟨s, hsighted.shape trivial⟩

end Install

/-! ## The accounting invariant -/

/-- The state names the configuration as one that is not inactive. -/
def Names (c : NetworkConfig) (v : Value) : Prop :=
  configFromJson (v.get "config") = .ok c ∧ v.get "status" ≠ .string "inactive"

/-- Either nothing is left in the kernel, or journal and memory both name what it holds. -/
def Accounted (n : Nat) (K : Kernel) (Q : Stage → Prop) (w : World) : Prop :=
  Clean n K w ∨ ∃ c, InStage n K c Q w ∧ Names c w.state_ ∧ Names c (journal w)

/-- Assumptions under which a set of stages is never left: `P` is what is
assumed of the recorded acts. -/
structure Regime (K : Kernel) (Q : Stage → Prop) (P : Act → Prop) : Prop where
  bare : Q .bare
  guarded : Q .guarded
  translated : Q .translated
  rollBack : ∀ n c w w₁, P (.restoring c w.kernel w.supply) →
    putState (entering c w) = (.returned (), w₁) → InStage n K c Q w₁ →
    InStage n K c Q (rollBack c w₁).2

def Assumed (P : Act → Prop) (w : World) : Prop := ∀ a ∈ w.log, P a

/-- While the assumptions hold, so does the accounting. -/
def Invariant (n : Nat) (K : Kernel) (Q : Stage → Prop) (P : Act → Prop) (w : World) : Prop :=
  Assumed P w → Accounted n K Q w

section Invariant
variable {n : Nat} {K : Kernel} {Q : Stage → Prop} {P : Act → Prop}

theorem Assumed.before {w w' : World} {acts : List Act} (h : Assumed P w')
    (hlog : w'.log = w.log ++ acts) : Assumed P w :=
  fun a ha => h a (by rw [hlog]; exact List.mem_append_left _ ha)

theorem Assumed.quiet {w w' : World} (h : Assumed P w') (quiet : Quiet w w') : Assumed P w := by
  obtain ⟨acts, hlog, -⟩ := quiet.log
  exact h.before hlog

theorem Assumed.put {w w' : World} {o : Outcome Exn Unit} (h : Assumed P w')
    (put : PutEffect o w w') : Assumed P w := by
  obtain ⟨acts, hlog, -⟩ := put.log
  exact h.before hlog

theorem Assumed.grows {w w' : World} (h : Assumed P w') (grows : Grows w w') : Assumed P w := by
  obtain ⟨acts, hlog⟩ := grows
  exact h.before hlog

/-- A step that leaves the kernel, memory and journal alone. -/
theorem Accounted.same {w w' : World} (h : Accounted n K Q w) (hkernel : w'.kernel = w.kernel)
    (hstate : w'.state_ = w.state_) (hjournal : journal w' = journal w) (grows : Grows w w') :
    Accounted n K Q w' := by
  rcases h with hclean | ⟨c, hstage, hnames, hnames'⟩
  · exact .inl (hclean.same hkernel grows)
  · exact .inr ⟨c, hstage.same hkernel grows, hstate ▸ hnames, hjournal ▸ hnames'⟩

theorem Accounted.looking {w w' : World} (h : Accounted n K Q w) (look : Looking w w') :
    Accounted n K Q w' :=
  h.same look.kernel look.state_ (congrArg (Store.get · "network") look.store) look.grows

theorem Names.set {c : NetworkConfig} {v : Value} (h : Names c v) {name : String} (x : Value)
    (hconfig : name ≠ "config") (hstatus : name ≠ "status") : Names c (v.set name x) := by
  refine ⟨?_, ?_⟩
  · rw [Value.get_set_of_ne _ hconfig]
    exact h.1
  · rw [Value.get_set_of_ne _ hstatus]
    exact h.2

theorem Names.setStatus {c : NetworkConfig} {v : Value}
    (h : configFromJson (v.get "config") = .ok c) {s : String} (hs : s ≠ "inactive") :
    Names c (v.set "status" (.string s)) := by
  refine ⟨?_, ?_⟩
  · rw [Value.get_set_of_ne _ (by decide)]
    exact h
  · rw [Value.get_set_self]
    simpa using hs

/-- A journal write cannot lose the account. -/
theorem Accounted.put {c : NetworkConfig} {w w' : World} {o : Outcome Exn Unit}
    (put : PutEffect o w w') (hkernel : InStage n K c Q w) (hstate : Names c w.state_)
    (hjournal : Names c (journal w)) : Accounted n K Q w' := by
  refine .inr ⟨c, hkernel.same put.kernel put.grows, put.state_ ▸ hstate, ?_⟩
  rcases put.store with h | h
  · rw [h]; exact hjournal
  · rw [h]; exact hstate

/-- The configuration `restore` reads is the one the kernel is accounted to. -/
theorem Accounted.entering (regime : Regime K Q P) {c : NetworkConfig} {w : World}
    (h : Accounted n K Q w) (hc : configFromJson (w.state_.get "config") = .ok c) :
    InStage n K c Q w ∧ (Clean n K w ∨ Names c (journal w)) := by
  rcases h with hclean | ⟨c', hstage, hstate, hjournal⟩
  · exact ⟨hclean.inStage c regime.bare, .inl hclean⟩
  · obtain rfl : c' = c := Except.ok.inj (hstate.1.symm.trans hc)
    exact ⟨hstage, .inr hjournal⟩

/-- The final write of a rollback: clean when nothing failed, accounted otherwise. -/
theorem Accounted.closing {c : NetworkConfig} {errors : String} {w w' : World}
    {o : Outcome Exn Unit} (hstage : InStage n K c Q w) (hclean : errors = "" → Clean n K w)
    (hstate : Names c w.state_) (hjournal : Names c (journal w))
    (put : PutEffect o (closing errors w) w') : Accounted n K Q w' := by
  have closes : Grows w (NetworkController.closing errors w) :=
    ⟨[], by simp [NetworkController.closing]⟩
  by_cases he : errors = ""
  · exact .inl (((hclean he).same rfl closes).same put.kernel put.grows)
  · refine Accounted.put put (hstage.same rfl closes) ?_ hjournal
    change Names c ((w.state_.set "status"
      (.string (if errors.isEmpty then "inactive" else "rollback_failed"))).set "error" _)
    rw [isEmpty_eq_false he]
    exact (Names.setStatus hstate.1 (by decide)).set _ (by decide) (by decide)

theorem restore_invariant (regime : Regime K Q P) {w : World} (h : Invariant n K Q P w) :
    Invariant n K Q P (restore w).2 := by
  intro hassumed
  have hrun := restore_run w
  generalize (restore w).1 = o, (restore w).2 = w' at hrun hassumed ⊢
  -- The entry of a restore that gets past its configuration.
  have entry : ∀ {c o₁ w₁}, Assumed P w₁ → putState (entering c w) = (o₁, w₁) →
      configFromJson (w.state_.get "config") = .ok c →
      P (.restoring c w.kernel w.supply) ∧ InStage n K c Q (entering c w) ∧
        (Clean n K (entering c w) ∨ Names c (journal w)) := by
    intro c o₁ w₁ hw₁ put hc
    have enters : Grows w (entering c w) := ⟨[.restoring c w.kernel w.supply], rfl⟩
    have hentering := hw₁.put (putState_effect put)
    obtain ⟨hstage, hjournal⟩ := (h (hentering.grows enters)).entering regime hc
    exact ⟨hentering _ (List.mem_append_right _ List.mem_cons_self), hstage.same rfl enters,
      hjournal.imp_left fun hclean => hclean.same rfl enters⟩
  -- The steps of the restore, up to its final write.
  have steps : ∀ {c w₁ o₂ w₂}, Assumed P w₂ → putState (entering c w) = (.returned (), w₁) →
      configFromJson (w.state_.get "config") = .ok c → rollBack c w₁ = (o₂, w₂) →
      InStage n K c Q w₂ ∧ Names c w₂.state_ ∧ Names c (journal w₂) ∧
        ∀ errors, o₂ = .returned errors → errors = "" → Clean n K w₂ := by
    intro c w₁ o₂ w₂ hw₂ put hc roll
    have quiet := quiet_eq (quiet_rollBack c) roll
    obtain ⟨hP, hstage, -⟩ := entry (hw₂.quiet quiet) put hc
    have effect := putState_effect put
    have hstage₁ : InStage n K c Q w₁ := hstage.same effect.kernel effect.grows
    have hkernel := regime.rollBack n c w w₁ hP put hstage₁
    have hspec := rollBack_spec n K c w₁ (hstage₁.imp fun _ _ => trivial)
    rw [roll] at hkernel hspec
    have hnames : Names c w₁.state_ := by
      rw [effect.state_]
      exact Names.setStatus hc (by decide)
    have hstore : journal w₂ = journal w₁ := congrArg (Store.get · "network") quiet.store
    refine ⟨hkernel, quiet.state_ ▸ hnames, ?_, fun errors ho he => hspec.2.1 errors ho he⟩
    rw [hstore, effect.done rfl, ← effect.state_]
    exact hnames
  -- Its final write.
  have finish : ∀ {c w₁ errors w₂ o₃ w₃}, Assumed P w₃ →
      putState (entering c w) = (.returned (), w₁) →
      configFromJson (w.state_.get "config") = .ok c → rollBack c w₁ = (.returned errors, w₂) →
      putState (closing errors w₂) = (o₃, w₃) → Accounted n K Q w₃ := by
    intro c w₁ errors w₂ o₃ w₃ hw₃ put hc roll put'
    have effect := putState_effect put'
    have hw₂ : Assumed P w₂ := fun a ha => hw₃.put effect a ha
    obtain ⟨hstage, hstate, hjournal, hclean⟩ := steps hw₂ put hc roll
    exact Accounted.closing hstage (hclean errors rfl) hstate hjournal effect
  cases hrun with
  | unreadable _ => exact h hassumed
  | unjournaled hc put ho =>
    obtain ⟨-, hstage, hjournal⟩ := entry hassumed put hc
    have effect := putState_effect put
    rcases hjournal with hclean | hjournal
    · exact .inl (hclean.same effect.kernel effect.grows)
    · exact Accounted.put effect hstage (Names.setStatus hc (by decide)) hjournal
  | cut hc put roll =>
    obtain ⟨hstage, hstate, hjournal, -⟩ := steps hassumed put hc roll
    exact .inr ⟨_, hstage, hstate, hjournal⟩
  | unrecorded hc put roll put' ho => exact finish hassumed put hc roll put'
  | @restored c w₁ w₂ w₃ hc put roll put' =>
    have hw₃ : Assumed P w₃ := hassumed.before rfl
    have hend : Accounted n K Q w₃ := finish hw₃ put hc roll put'
    exact hend.same rfl rfl rfl ⟨_, rfl⟩
  | failed hc put roll he put' => exact finish hassumed put hc roll put'

/-- install() and the start of the confirmation window, from a bare kernel and
a journal written ahead. -/
theorem activate_accounted (regime : Regime K Q P) {c : NetworkConfig} {w : World}
    (hclean : Clean n K w) (hstate : Names c w.state_) (hjournal : Names c (journal w)) :
    Accounted n K Q (activate c w).2 := by
  have hrun := activate_run c w
  generalize (activate c w).1 = o, (activate c w).2 = w' at hrun ⊢
  have installed : ∀ {o w₁}, install c w = (o, w₁) →
      InStage n K c Q w₁ ∧ Names c w₁.state_ ∧ Names c (journal w₁) := by
    intro o w₁ inst
    have quiet := quiet_eq (quiet_install c) inst
    have hspec := install_spec (Sees n w) K c w (hclean.2.sighted c)
    rw [inst] at hspec
    refine ⟨.after hclean.1 quiet.grows (hspec.imp fun s hs => ?_), quiet.state_ ▸ hstate, ?_⟩
    · rcases hs with rfl | rfl | rfl
      · exact regime.bare
      · exact regime.guarded
      · exact regime.translated
    · have hstore : journal w₁ = journal w := congrArg (Store.get · "network") quiet.store
      rwa [hstore]
  cases hrun with
  | uninstalled inst _ => exact .inr ⟨c, installed inst⟩
  | unclocked inst _ =>
    obtain ⟨hkernel, hs, hj⟩ := installed inst
    exact .inr ⟨c, hkernel, Names.setStatus hs.1 (by decide), hj⟩
  | put inst _ put =>
    obtain ⟨hkernel, hs, hj⟩ := installed inst
    exact Accounted.put (putState_effect put) hkernel (Names.setStatus hs.1 (by decide)) hj

/-- A write-ahead leaves the kernel alone, and one that returns has the journal
name what is about to be installed. -/
theorem writeAhead_names {c : NetworkConfig} {baseline : Value} {w w' : World}
    {o : Outcome Exn Unit} (hvalid : validate c = [])
    (h : writeAhead c baseline w = (o, w')) :
    w'.kernel = w.kernel ∧ (o = .returned () → Names c w'.state_ ∧ Names c (journal w')) := by
  have hrun := writeAhead_run c baseline w
  rw [h] at hrun
  cases hrun with
  | unread look _ ho => exact ⟨look.kernel, fun hret => absurd hret ho⟩
  | @put w₁ o w' look put =>
    have effect := putState_effect put
    refine ⟨effect.kernel.trans look.kernel, fun hret => ?_⟩
    have hnames : Names c (admitting c baseline w₁).state_ := by
      refine Names.setStatus ?_ (by decide)
      rw [Value.get_set_of_ne _ (by decide), Value.get_set_of_ne _ (by decide), drafted,
        Value.get_set_of_ne _ (by decide), Value.get_set_self]
      exact configFromJson_configJson hvalid
    exact ⟨effect.state_ ▸ hnames, effect.done hret ▸ hnames⟩

theorem apply_invariant (regime : Regime K Q P) (c : NetworkConfig) {w : World}
    (h : Invariant n K Q P w) : Invariant n K Q P (apply c w).2 := by
  intro hassumed
  have hrun := apply_run c w
  generalize (apply c w).1 = o, (apply c w).2 = w' at hrun hassumed ⊢
  -- Admission needs an inactive status, and under that status the kernel is clean.
  have admitted : ∀ {baseline}, Assumed P w → Admitted c baseline w → Clean n K w := by
    intro baseline hw adm
    rcases h hw with hclean | ⟨c', -, hstate, -⟩
    · exact hclean
    · exact absurd adm.inactive hstate.2
  -- Up to and including the write-ahead.
  have ahead : ∀ {baseline w₁ o w₂}, Assumed P w₂ → Looking w w₁ → Admitted c baseline w →
      writeAhead c baseline w₁ = (o, w₂) → Clean n K w₂ ∧
        (o = .returned () → Names c w₂.state_ ∧ Names c (journal w₂)) := by
    intro baseline w₁ o w₂ hw₂ look adm hahead
    have grows := grows_eq (grows_writeAhead c baseline) hahead
    obtain ⟨hkernel, hnames⟩ := writeAhead_names adm.valid hahead
    have hw : Assumed P w := (hw₂.grows grows).quiet look.toQuiet
    exact ⟨((admitted hw adm).same look.kernel look.grows).same hkernel grows, hnames⟩
  -- Up to the end of the activation.
  have active : ∀ {baseline w₁ w₂ o w₃}, Assumed P w₃ → Looking w w₁ → Admitted c baseline w →
      writeAhead c baseline w₁ = (.returned (), w₂) → activate c w₂ = (o, w₃) →
      Accounted n K Q w₃ := by
    intro baseline w₁ w₂ o w₃ hw₃ look adm hahead act
    have hw₂ := hw₃.grows (grows_eq (grows_activate c) act)
    obtain ⟨hclean, hnames⟩ := ahead hw₂ look adm hahead
    have := activate_accounted regime hclean (hnames rfl).1 (hnames rfl).2
    rwa [act] at this
  cases hrun with
  | rejected look _ =>
    have hw : Assumed P w := hassumed.quiet look.toQuiet
    exact (h hw).looking look
  | unjournaled look adm hahead _ => exact .inl (ahead hassumed look adm hahead).1
  | pending look adm hahead act => exact active hassumed look adm hahead act
  | cut look adm hahead act => exact active hassumed look adm hahead act
  | undone look adm hahead act undo =>
    have := restore_invariant regime (fun hw₃ => active hw₃ look adm hahead act)
    rw [undo] at this
    exact this hassumed

/-- The accounting survives every call of every run. -/
theorem Regime.kept (regime : Regime K Q P) :
    Kept (fun _ => True) (Invariant n K Q P) (Invariant n K Q P) where
  host := fun _ h => h
  suppliedHost := fun w supply _ h hassumed =>
    (h hassumed).same rfl rfl rfl (Grows.refl w)
  supplied := fun w supply _ h hassumed =>
    (h hassumed).same rfl rfl rfl (Grows.refl w)
  looked := fun w w' look h hassumed => (h (hassumed.quiet look.toQuiet)).looking look
  advanced := fun elapsed rest w h hassumed =>
    (h hassumed).same rfl rfl rfl (Grows.refl w)
  loading := by
    intro enabled w h hassumed
    rcases h hassumed with hclean | ⟨c, hstage, -, hjournal⟩
    · exact .inl (hclean.same rfl (Grows.refl _))
    · exact .inr ⟨c, hstage.same rfl (Grows.refl _), hjournal, hjournal⟩
  initial := by
    intro w h hassumed
    rcases h hassumed with hclean | ⟨c, hstage, hstate, hjournal⟩
    · exact .inl (hclean.same rfl (Grows.refl _))
    · refine .inr ⟨c, hstage.same rfl (Grows.refl _), ?_, hjournal⟩
      change Names c (initial w.state_)
      unfold initial
      split
      · next hnull =>
        have hparse := hstate.1
        cases hv : w.state_ <;> rw [hv] at hnull hparse <;> cases hnull
        cases hparse
      · exact hstate
  restore := fun _ _ h => ⟨restore_invariant regime h, fun _ => restore_invariant regime h⟩
  apply := fun c _ h => ⟨apply_invariant regime c h, fun _ => apply_invariant regime c h⟩
  confirmed := by
    intro w hpending h
    have kept : Invariant n K Q P
        (putState (withState w (w.state_.set "status" (.string "confirmed")))).2 := by
      intro hassumed
      rcases hput : putState (withState w (w.state_.set "status" (.string "confirmed"))) with
        ⟨o, w'⟩
      rw [hput] at hassumed
      have effect := putState_effect hput
      have hw : Assumed P w := fun a ha => hassumed.put effect a ha
      rcases h hw with hclean | ⟨c, hstage, hstate, hjournal⟩
      · exact .inl (hclean.same effect.kernel effect.grows)
      · exact Accounted.put effect (hstage.same rfl (Grows.refl _))
          (Names.setStatus hstate.1 (by decide)) hjournal
    exact ⟨kept, fun _ => kept⟩

/-- The accounting in every state of every run from a kernel without reserved resources. -/
theorem Regime.run (regime : Regime K Q P) {node : Node} (h : node.world.kernel = K)
    (hK : Pristine K) (calls : List (Call × Supply)) :
    Invariant node.world.log.length K Q P (node.run calls).world := by
  have start : Invariant node.world.log.length K Q P node.world := fun _ =>
    .inl ⟨Nat.le_refl _, .of_bare (h ▸ bare_of_pristine (h ▸ hK))⟩
  exact (regime.kept.run ⟨start, fun _ => start⟩ fun _ _ => trivial).1

end Invariant

end Magicbox.Guarantees.KernelRuns
