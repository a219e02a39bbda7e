import Magicbox.Source.ControllerRuns

/-!
# What reaches the journal

The journal holds the value of the last write that took effect, or what it held
before if none did. And every operation but `apply` only restates what memory
holds: between what it found and what it leaves or writes, nothing but the
status and the error text differs.
-/

set_option autoImplicit false

namespace Magicbox.Source.NetworkController
open Library.Crash Json Config ConfigJson Nftables Netns

/-- The value of a journal write that took effect. -/
def effective : Act → Option Value
  | .journaled value .done | .journaled value (.lost _) => some value
  | .journaled _ (.refused _) => none
  | .admitted _ _ | .restoring _ _ _ | .attempted _ | .lookedUp _ _ _ | .restored _
  | .requested _ _ => none

def lastWritten (acts : List Act) : Option Value := (acts.filterMap effective).getLast?

@[simp] theorem lastWritten_nil : lastWritten [] = none := rfl

theorem lastWritten_append (acts acts' : List Act) :
    lastWritten (acts ++ acts') = (lastWritten acts').or (lastWritten acts) := by
  simp [lastWritten, List.filterMap_append, List.getLast?_append]

theorem lastWritten_mem {acts : List Act} {v : Value} (h : lastWritten acts = some v) :
    ∃ answer, .journaled v answer ∈ acts := by
  obtain ⟨a, ha, heffective⟩ := List.mem_filterMap.mp (List.mem_of_getLast? h)
  cases a with
  | journaled value answer =>
    cases answer <;> cases heffective <;> exact ⟨_, ha⟩
  | admitted | restoring | attempted | lookedUp | restored | requested => cases heffective

theorem lastWritten_of_kernelSide {acts : List Act} (h : ∀ a ∈ acts, a.kernelSide = true) :
    lastWritten acts = none := by
  have hnone : acts.filterMap effective = [] := by
    refine List.filterMap_eq_nil_iff.mpr fun a ha => ?_
    have := h a ha
    cases a <;> first | rfl | cases this
  rw [lastWritten, hnone]
  rfl

/-- The configuration and the kernel that `apply` admitted, if it is that act. -/
def admission : Act → Option (NetworkConfig × Kernel)
  | .admitted c kernel => some (c, kernel)
  | .restoring _ _ _ | .attempted _ | .lookedUp _ _ _ | .restored _ | .requested _ _
  | .journaled _ _ => none

/-- What the most recent `apply` to pass its checks was about. -/
def lastAdmitted (log : List Act) : Option (NetworkConfig × Kernel) :=
  (log.filterMap admission).getLast?

theorem admission_of_kernelSide {acts : List Act} (h : ∀ a ∈ acts, a.kernelSide = true) :
    acts.filterMap admission = [] := by
  refine List.filterMap_eq_nil_iff.mpr fun a ha => ?_
  have := h a ha
  cases a <;> first | rfl | cases this

/-- Every value written satisfies `P`, and the journal holds the last one that took effect. -/
def Wrote (P : Value → Prop) (w w' : World) : Prop :=
  ∃ acts, w'.log = w.log ++ acts ∧ (∀ v answer, .journaled v answer ∈ acts → P v) ∧
    journal w' = (lastWritten acts).getD (journal w)

section Wrote
variable {P Q : Value → Prop}

theorem Wrote.refl (w : World) : Wrote P w w := ⟨[], by simp, by simp, rfl⟩

theorem Wrote.imp {w w' : World} (h : Wrote P w w') (himp : ∀ v, P v → Q v) : Wrote Q w w' := by
  obtain ⟨acts, hlog, hP, hjournal⟩ := h
  exact ⟨acts, hlog, fun v answer hv => himp v (hP v answer hv), hjournal⟩

theorem Wrote.trans {w₁ w₂ w₃ : World} (h : Wrote P w₁ w₂) (h' : Wrote P w₂ w₃) :
    Wrote P w₁ w₃ := by
  obtain ⟨acts, hlog, hP, hjournal⟩ := h
  obtain ⟨acts', hlog', hP', hjournal'⟩ := h'
  refine ⟨acts ++ acts', by rw [hlog', hlog, List.append_assoc], fun v answer hv => ?_, ?_⟩
  · rcases List.mem_append.mp hv with hv | hv
    · exact hP v answer hv
    · exact hP' v answer hv
  · rw [hjournal', hjournal, lastWritten_append]
    cases lastWritten acts' <;> rfl

theorem Wrote.quiet {w w' : World} (quiet : Quiet w w') : Wrote P w w' := by
  obtain ⟨acts, hlog, hside⟩ := quiet.log
  refine ⟨acts, hlog, fun v answer hv => ?_, ?_⟩
  · cases hside _ hv
  · rw [lastWritten_of_kernelSide hside]
    exact congrArg (Store.get · "network") quiet.store

theorem Wrote.put {w w' : World} {o : Outcome Exn Unit} (h : P w.state_) (put : PutRun w o w') :
    Wrote P w w' := by
  cases put with
  | cut _ => exact Wrote.refl w
  | done _ | refused _ | lost _ =>
    refine ⟨_, rfl, fun v answer hv => ?_, ?_⟩
    · cases List.mem_singleton.mp hv
      exact h
    · first | exact Store.get_put _ _ _ | rfl

/-- The journal is what it was, or something written. -/
theorem Wrote.journal {w w' : World} (h : Wrote P w w') :
    journal w' = journal w ∨ P (journal w') := by
  obtain ⟨acts, -, hP, hjournal⟩ := h
  cases hlast : lastWritten acts with
  | none =>
    rw [hlast] at hjournal
    exact .inl hjournal
  | some v =>
    obtain ⟨answer, hv⟩ := lastWritten_mem hlast
    rw [hlast] at hjournal
    exact .inr (hjournal ▸ hP v answer hv)

end Wrote

/-! ## Restating -/

/-- The members that describe the controller's progress, not its configuration. -/
def transient : List String := ["status", "error"]

def Agree (v v' : Value) : Prop := ∀ name, name ∉ transient → v'.get name = v.get name

theorem Agree.refl (v : Value) : Agree v v := fun _ _ => rfl

theorem Agree.trans {v₁ v₂ v₃ : Value} (h : Agree v₁ v₂) (h' : Agree v₂ v₃) : Agree v₁ v₃ :=
  fun name hn => (h' name hn).trans (h name hn)

theorem Agree.set {v v' : Value} (h : Agree v v') {name : String} (hname : name ∈ transient)
    (x : Value) : Agree v (v'.set name x) := by
  intro other hother
  have hne : name ≠ other := fun heq => hother (heq ▸ hname)
  rw [Value.get_set_of_ne _ hne]
  exact h other hother

structure Restates (w w' : World) : Prop where
  memory : Agree w.state_ w'.state_
  wrote : Wrote (Agree w.state_) w w'
  enabled : w'.enabled = w.enabled
  admissions : w'.log.filterMap admission = w.log.filterMap admission

theorem Restates.refl (w : World) : Restates w w := ⟨Agree.refl _, Wrote.refl w, rfl, rfl⟩

theorem Restates.trans (w₁ w₂ w₃ : World) (h : Restates w₁ w₂) (h' : Restates w₂ w₃) :
    Restates w₁ w₃ :=
  ⟨h.memory.trans h'.memory, h.wrote.trans (h'.wrote.imp fun _ hv => h.memory.trans hv),
    h'.enabled.trans h.enabled, h'.admissions.trans h.admissions⟩

/-- Nothing but memory and what is no act of the journal changed. -/
theorem Restates.of_journal {w w' : World} (acts : List Act) (memory : Agree w.state_ w'.state_)
    (log : w'.log = w.log ++ acts) (none : acts.filterMap effective = [])
    (unwritten : ∀ v answer, .journaled v answer ∉ acts)
    (unadmitted : acts.filterMap admission = [])
    (store : w'.store = w.store) (enabled : w'.enabled = w.enabled) : Restates w w' := by
  refine ⟨memory, ⟨acts, log, fun v answer hv => absurd hv (unwritten v answer), ?_⟩, enabled, ?_⟩
  · rw [lastWritten, none]
    exact congrArg (Store.get · "network") store
  · rw [log, List.filterMap_append, unadmitted, List.append_nil]

section Restates
variable {α β : Type}

theorem restates_of_quiet {m : Controller α} (h : Within Quiet m) : Within Restates m := by
  intro w
  refine ⟨?_, Wrote.quiet (h w), (h w).enabled, ?_⟩
  · rw [(h w).state_]
    exact Agree.refl _
  · obtain ⟨acts, hlog, hside⟩ := (h w).log
    rw [hlog, List.filterMap_append, admission_of_kernelSide hside, List.append_nil]

theorem restates_of_looking {m : Controller α} (h : Within Looking m) : Within Restates m :=
  restates_of_quiet (quiet_of_looking h)

theorem restates_bind {m : Controller α} {f : α → Controller β} (hm : Within Restates m)
    (hf : ∀ a, Within Restates (f a)) : Within Restates (m >>= f) :=
  Within.bind Restates.trans hm hf

theorem restates_assign {name : String} (hname : name ∈ transient) (x : Value) :
    Within Restates (assign name x) :=
  fun w => .of_journal [] ((Agree.refl _).set hname x) (List.append_nil _).symm rfl
    (by simp) rfl rfl rfl

theorem restates_putState : Within Restates putState := by
  intro w
  have hrun := putState_run w
  refine ⟨hrun.effect.state_ ▸ Agree.refl _, Wrote.put (Agree.refl _) hrun, hrun.effect.enabled, ?_⟩
  obtain ⟨acts, hlog, hjournaled⟩ := hrun.effect.log
  have hnone : acts.filterMap admission = [] := by
    refine List.filterMap_eq_nil_iff.mpr fun a ha => ?_
    obtain ⟨answer, rfl⟩ := hjournaled a ha
    rfl
  rw [hlog, List.filterMap_append, hnone, List.append_nil]

theorem restates_steadyNow : Within Restates steadyNow := by
  intro w
  unfold steadyNow
  rcases w.supply.clock with _ | ⟨elapsed, rest⟩
  · exact Restates.refl w
  · exact .of_journal [] (Agree.refl _) (List.append_nil _).symm rfl (by simp) rfl rfl rfl

theorem restates_restore : Within Restates restore := by
  refine restates_bind (restates_of_looking (looking_read _)) fun _ => ?_
  refine restates_bind (restates_of_looking (looking_liftExcept _)) fun c => ?_
  refine restates_bind (fun w => ?_) fun _ => ?_
  · exact .of_journal [.restoring c w.kernel w.supply] (Agree.refl _) rfl rfl
      (by simp) rfl rfl rfl
  refine restates_bind (restates_assign (by decide) _) fun _ => ?_
  refine restates_bind restates_putState fun _ => ?_
  refine restates_bind (restates_of_quiet (quiet_rollBack c)) fun errors => ?_
  refine restates_bind (restates_assign (by decide) _) fun _ => ?_
  refine restates_bind (restates_assign (by decide) _) fun _ => ?_
  refine restates_bind restates_putState fun _ => ?_
  split
  · exact fun w => .of_journal [.restored w.kernel] (Agree.refl _) rfl rfl (by simp)
      rfl rfl rfl
  · exact restates_of_looking (looking_raise _)

theorem restates_activate (c : NetworkConfig) : Within Restates (activate c) := by
  refine restates_bind (restates_of_quiet (quiet_install c)) fun _ => ?_
  refine restates_bind (restates_assign (by decide) _) fun _ => ?_
  refine restates_bind restates_steadyNow fun _ => restates_bind (fun w => ?_) fun _ =>
    restates_putState
  exact .of_journal [] (Agree.refl _) (List.append_nil _).symm rfl (by simp) rfl rfl rfl

theorem restates_tick : Within Restates tick := by
  refine restates_bind (restates_of_looking (looking_read _)) fun _ => ?_
  refine restates_bind (restates_of_looking (looking_read _)) fun _ => ?_
  split
  · refine restates_bind restates_steadyNow fun _ => ?_
    refine restates_bind (restates_of_looking (looking_read _)) fun _ => ?_
    split
    · exact restates_restore
    · exact restates_of_looking (looking_pure _)
  · exact restates_of_looking (looking_pure _)

theorem restates_confirm : Within Restates confirm := by
  refine restates_bind (restates_of_looking (looking_read _)) fun _ => ?_
  split
  · exact restates_of_looking (looking_raise _)
  · refine restates_bind restates_tick fun _ => ?_
    refine restates_bind (restates_of_looking (looking_read _)) fun _ => ?_
    split
    · exact restates_of_looking (looking_raise _)
    · exact restates_bind (restates_assign (by decide) _) fun _ => restates_putState

theorem restates_rollback : Within Restates rollback := by
  refine restates_bind (restates_of_looking (looking_read _)) fun _ => ?_
  split
  · exact restates_of_looking (looking_raise _)
  · refine restates_bind (restates_of_looking (looking_read _)) fun _ => ?_
    split
    · exact restates_restore
    · exact restates_of_looking (looking_pure _)

theorem restates_state : Within Restates state := by
  refine restates_bind (restates_of_looking (looking_read _)) fun _ => ?_
  refine restates_bind (restates_of_looking (looking_read _)) fun _ => ?_
  dsimp only
  split
  · refine restates_bind restates_steadyNow fun _ => ?_
    exact restates_bind (restates_of_looking (looking_read _)) fun _ =>
      restates_of_looking (looking_pure _)
  · exact restates_of_looking (looking_pure _)

theorem restates_eq {m : Controller α} (h : Within Restates m) {w w' : World} {o : Outcome Exn α}
    (hrun : m w = (o, w')) : Restates w w' := by
  have restates := h w
  rwa [hrun] at restates

end Restates

/-! ## Durable writes -/

/-- Every journal write of the supply succeeds. -/
def Journals (supply : Supply) : Prop := ∀ answer ∈ supply.puts, answer = .done

/-- With such a supply a write succeeds or is cut before it. -/
theorem Journals.put {w w' : World} {o : Outcome Exn Unit} (h : Journals w.supply)
    (put : PutRun w o w') :
    Journals w'.supply ∧ (o = .returned () ∧ journal w' = w.state_ ∨ o = .crashed ∧ w' = w) := by
  have refuse : ∀ {answer : Verdict} {rest}, w.supply.puts = answer :: rest →
      answer = .done := fun hputs => h _ (by rw [hputs]; exact List.mem_cons_self)
  cases put with
  | cut _ => exact ⟨h, .inr ⟨rfl, rfl⟩⟩
  | @done rest hputs =>
    refine ⟨fun answer hmem => h answer ?_, .inl ⟨rfl, Store.get_put _ _ _⟩⟩
    rw [hputs]
    exact List.mem_cons_of_mem _ hmem
  | refused hputs => cases refuse hputs
  | lost hputs => cases refuse hputs

theorem Journals.quiet {w w' : World} (h : Journals w.supply) (quiet : Quiet w w') :
    Journals w'.supply := by
  unfold Journals
  rw [quiet.puts]
  exact h

end Magicbox.Source.NetworkController
