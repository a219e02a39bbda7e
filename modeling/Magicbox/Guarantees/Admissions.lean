import Magicbox.Guarantees.Baseline
import Magicbox.Source.StatusChanges

/-!
# What a state that is not inactive holds

In memory and in the journal alike, a state whose status is not inactive holds
the configuration, the baseline and the two sysctls that an admitted `apply`
captured. This needs nothing of the journal writes: it holds wherever a call is
cut and whichever of its writes fail.
-/

set_option autoImplicit false

namespace Magicbox.Guarantees.Admissions
open Library.Crash Source Source.Json Source.Config Source.ConfigJson Source.Netns
  Source.NetworkController Source.Worker Source.StatusChanges Baseline

/-- An inactive state, or no state yet, which the constructor makes an inactive one. -/
def Resting (v : Value) : Prop := v.isNull = true ∨ HasStatus "inactive" v

/-- A state that does not rest holds what one of the admissions captured. -/
def Founded (P : NetworkConfig × Kernel → Prop) (v : Value) : Prop :=
  Resting v ∨ ∃ c K, P (c, K) ∧ Captured K c v

/-- The admissions so far, oldest first. -/
def admissions (w : World) : List (NetworkConfig × Kernel) := w.log.filterMap admission

structure Backed (P : NetworkConfig × Kernel → Prop) (w : World) : Prop where
  memory : Founded P w.state_
  journaled : Founded P (journal w)

section Backed
variable {P Q : NetworkConfig × Kernel → Prop} {w w' : World}

theorem Founded.mono {v : Value} (h : Founded P v) (hPQ : ∀ x, P x → Q x) : Founded Q v := by
  rcases h with h | ⟨c, K, hP, hcaptured⟩
  · exact .inl h
  · exact .inr ⟨c, K, hPQ _ hP, hcaptured⟩

theorem resting_initial {v : Value} (h : Resting v) : Resting (initial v) := by
  unfold initial
  split
  · exact .inr (Value.get_set_self _ _ _)
  · exact h

theorem Founded.initial {v : Value} (h : Founded P v) :
    Founded P (NetworkController.initial v) := by
  by_cases hv : Resting v
  · exact .inl (resting_initial hv)
  · unfold NetworkController.initial
    rwa [if_neg fun hn => hv (.inl hn)]

theorem Backed.same (h : Backed P w) (hstate : w'.state_ = w.state_)
    (hjournal : journal w' = journal w) : Backed P w' :=
  ⟨hstate ▸ h.memory, hjournal ▸ h.journaled⟩

theorem journal_of_looking (look : Looking w w') : journal w' = journal w :=
  congrArg (Store.get · "network") look.store

theorem Backed.looked (h : Backed P w) (look : Looking w w') : Backed P w' :=
  h.same look.state_ (journal_of_looking look)

/-- Whatever restates a captured configuration leaves it captured. -/
theorem Backed.restates (h : Backed P w) (busy : ¬ Resting w.state_) (restates : Restates w w') :
    Backed P w' := by
  obtain ⟨c, K, hP, hcaptured⟩ := h.memory.resolve_left busy
  refine ⟨.inr ⟨c, K, hP, hcaptured.agree restates.memory⟩, ?_⟩
  rcases restates.wrote.journal with hsame | hagree
  · exact hsame ▸ h.journaled
  · exact .inr ⟨c, K, hP, hcaptured.agree hagree⟩

/-- A rollback finds no configuration in an absent state. -/
theorem restore_absent {o : Outcome Exn Unit} (run : restore w = (o, w'))
    (h : w.state_.isNull = true) : w' = w := by
  rcases restore_changes run with ⟨-, -, -, hsame⟩ | rolled
  · exact hsame
  · obtain ⟨c, hc⟩ := rolled.readable
    have habsent : ∃ e, configFromJson (w.state_.get "config") = .error e := by
      cases hv : w.state_ with
      | null => exact ⟨_, rfl⟩
      | _ => rw [hv] at h; cases h
    obtain ⟨e, he⟩ := habsent
    cases hc.symm.trans he

theorem restore_backed {o : Outcome Exn Unit} (h : Backed P w)
    (busy : w.state_.get "status" ≠ .string "inactive") (run : restore w = (o, w')) :
    Backed P w' := by
  by_cases hrest : Resting w.state_
  · rw [restore_absent run (hrest.resolve_right busy)]
    exact h
  · exact h.restates hrest (restates_eq restates_restore run)

end Backed

/-! ## apply -/

/-- What an `apply` leaves: the journal it found and an inactive state, unless
it leaves all as it was, or the capture of its own admission. -/
inductive Founds (c : NetworkConfig) (w w' : World) : Prop
  | refused (same : admissions w' = admissions w) (journaled : journal w' = journal w)
    (memory : w'.state_ = w.state_ ∨
      HasStatus "inactive" w.state_ ∧ HasStatus "inactive" w'.state_)
  | founded (before : HasStatus "inactive" w.state_)
    (admitted : admissions w' = admissions w ++ [(c, w.kernel)])
    (memory : Captured w.kernel c w'.state_)
    (journaled : journal w' = journal w ∨ Captured w.kernel c (journal w'))

section Apply
variable {c : NetworkConfig} {w w₁ w' : World}

theorem admissions_of_restates {w w' : World} (restates : Restates w w') :
    admissions w' = admissions w :=
  restates.admissions

theorem writeAhead_founds {baseline : Value} {o : Outcome Exn Unit} (adm : Admitted c baseline w)
    (look : Looking w w₁) (run : writeAhead c baseline w₁ = (o, w')) : Founds c w w' := by
  have hrun := writeAhead_run c baseline w₁
  rw [run] at hrun
  cases hrun with
  | @unread _ w₂ draft look' hdraft _ =>
    have hstatus : draft.get "status" = w₁.state_.get "status" := by
      rcases hdraft with rfl | rfl
      · rw [drafted, Value.get_set_of_ne _ (by decide), Value.get_set_of_ne _ (by decide)]
      · rw [Value.get_set_of_ne _ (by decide), drafted, Value.get_set_of_ne _ (by decide),
          Value.get_set_of_ne _ (by decide)]
    refine .refused ?_ ?_ (.inr ⟨adm.inactive, ?_⟩)
    · change w₂.log.filterMap admission = admissions w
      rw [look'.sameLog, look.sameLog]
      rfl
    · exact (journal_of_looking look').trans (journal_of_looking look)
    · change draft.get "status" = _
      rw [hstatus, look.state_]
      exact adm.inactive
  | @put w₂ _ _ look' put =>
    have effect := putState_effect put
    have hkernel : w₂.kernel = w.kernel := look'.kernel.trans look.kernel
    have hcaptured : Captured w.kernel c (admitting c baseline w₂).state_ := by
      change Captured w.kernel c (applying c baseline w₂.kernel w₂.state_)
      rw [hkernel]
      exact (Baseline.Admitted.remembers adm w₂.state_).toCaptured
    refine .founded adm.inactive ?_ (effect.state_ ▸ hcaptured) ?_
    · have hput := admissions_of_restates (restates_eq restates_putState put)
      rw [hput]
      change (w₂.log ++ [Act.admitted c w₂.kernel]).filterMap admission = _
      rw [List.filterMap_append, look'.sameLog, look.sameLog, hkernel]
      rfl
    · rcases effect.store with hsame | hwritten
      · refine .inl (hsame.trans ?_)
        exact (journal_of_looking look').trans (journal_of_looking look)
      · exact .inr (hwritten ▸ hcaptured)

/-- What follows the write-ahead only restates the capture. -/
theorem Founds.restates {K : Kernel} (h : Founds c w w₁) (hcaptured : Remembers K c w₁.state_)
    (hready : HasStatus "inactive" w.state_) (restates : Restates w₁ w') : Founds c w w' := by
  cases h with
  | refused _ _ memory =>
    rcases memory with hsame | ⟨-, hinactive⟩
    · exact absurd (hsame ▸ hready) hcaptured.status
    · exact absurd hinactive hcaptured.status
  | founded before admitted memory journaled =>
    refine .founded before ((admissions_of_restates restates).trans admitted)
      (memory.agree restates.memory) ?_
    rcases restates.wrote.journal with hsame | hagree
    · exact hsame ▸ journaled
    · exact .inr (memory.agree hagree)

theorem apply_founds {o : Outcome Exn Unit} (run : apply c w = (o, w')) : Founds c w w' := by
  have hrun := apply_run c w
  rw [run] at hrun
  have active : ∀ {baseline w₁ w₂ o₁ w₃}, Looking w w₁ → Admitted c baseline w →
      writeAhead c baseline w₁ = (.returned (), w₂) → activate c w₂ = (o₁, w₃) →
      (∀ {w₄}, Restates w₃ w₄ → Founds c w w₄) := by
    intro baseline w₁ w₂ o₁ w₃ look adm ahead act w₄ rest
    exact (writeAhead_founds adm look ahead).restates (writeAhead_remembers adm look ahead).2.1
      adm.inactive ((restates_eq (restates_activate c) act).trans _ _ _ rest)
  cases hrun with
  | rejected look _ =>
    refine .refused ?_ (journal_of_looking look) (.inl look.state_)
    change w'.log.filterMap admission = _
    rw [look.sameLog]
    rfl
  | unjournaled look adm ahead _ => exact writeAhead_founds adm look ahead
  | pending look adm ahead act | cut look adm ahead act =>
    exact active look adm ahead act (Restates.refl _)
  | undone look adm ahead act undo =>
    exact active look adm ahead act (restates_eq restates_restore undo)

end Apply

/-! ## Whatever becomes of the journal writes -/

theorem Ends.all {α : Type} {I : World → Prop} {ending : Outcome Exn α × World}
    (h : I ending.2) : Ends I I ending :=
  ⟨h, fun _ => h⟩

/-- Memory and journal hold captures of admissions this run has seen. -/
def Grounded (w : World) : Prop := Backed (· ∈ admissions w) w

theorem Grounded.of_admissions {w w' : World} (h : Backed (· ∈ admissions w) w')
    (same : admissions w' = admissions w) : Grounded w' := by
  unfold Grounded
  rwa [same]

theorem apply_grounded {c : NetworkConfig} {w w' : World} (h : Grounded w)
    (founds : Founds c w w') : Grounded w' := by
  cases founds with
  | refused same journaled memory =>
    refine .of_admissions ⟨?_, journaled ▸ h.journaled⟩ same
    rcases memory with hsame | ⟨-, hinactive⟩
    · exact hsame ▸ h.memory
    · exact .inl (.inr hinactive)
  | founded _ admitted memory journaled =>
    have hnew : (c, w.kernel) ∈ admissions w' := by rw [admitted]; simp
    refine ⟨.inr ⟨c, w.kernel, hnew, memory⟩, ?_⟩
    rcases journaled with hsame | hcaptured
    · refine hsame ▸ h.journaled.mono fun x hx => ?_
      rw [admitted]
      exact List.mem_append_left _ hx
    · exact .inr ⟨c, w.kernel, hnew, hcaptured⟩

/-- A pending configuration is confirmed by restating it. -/
theorem restates_confirmed {w w' : World} {o : Outcome Exn Unit}
    (put : putState (withState w (w.state_.set "status" (.string "confirmed"))) = (o, w')) :
    Restates w w' := by
  have hset : Restates w (assign "status" (.string "confirmed") w).2 :=
    restates_assign (by decide) _ w
  exact Restates.trans _ _ _ hset (restates_eq restates_putState put)

theorem not_resting {v : Value} {s : String} (h : HasStatus s v) (hs : s ≠ "inactive") :
    ¬ Resting v := by
  rintro (hnull | hinactive)
  · have hempty : v.get "status" = .null := by
      cases v with
      | null => rfl
      | _ => cases hnull
    cases hempty.symm.trans h
  · exact hs (h.unique hinactive)

theorem grounded_kept : Kept (fun _ => True) Grounded Grounded where
  host := fun _ h => h
  suppliedHost := fun _ _ _ h => ⟨h.memory, h.journaled⟩
  supplied := fun _ _ _ h => ⟨h.memory, h.journaled⟩
  looked := fun _ _ look h => by
    refine .of_admissions (Backed.looked h look) ?_
    unfold admissions
    rw [look.sameLog]
  advanced := fun _ _ _ h => ⟨h.memory, h.journaled⟩
  loading := fun _ _ h => ⟨h.journaled, h.journaled⟩
  initial := fun _ h => ⟨h.memory.initial, h.journaled⟩
  restore := fun w busy h => Ends.all (.of_admissions (restore_backed h busy rfl)
    (admissions_of_restates (restates_restore w)))
  apply := fun _ _ h => Ends.all (apply_grounded h (apply_founds rfl))
  confirmed := fun w pending h => Ends.all (.of_admissions
    (Backed.restates h (not_resting pending (by decide)) (restates_confirmed rfl))
    (admissions_of_restates (restates_confirmed rfl)))

/-- Before the first start of the daemon. -/
structure Fresh (n : Node) : Prop where
  stopped : n.alive = false
  unsupplied : n.world.supply = {}
  unstarted : n.world.state_.isNull = true
  unwritten : (journal n.world).isNull = true

theorem exampleNode_fresh : Fresh exampleNode := ⟨rfl, rfl, rfl, rfl⟩

theorem Fresh.backed {n : Node} (h : Fresh n) (P : NetworkConfig × Kernel → Prop) :
    Backed P n.world :=
  ⟨.inl (.inl h.unstarted), .inl (.inl h.unwritten)⟩

theorem grounded {n : Node} (h : Fresh n) (calls : List (Call × Supply)) :
    Grounded (n.run calls).world :=
  (grounded_kept.run ⟨h.backed _, fun _ => h.backed _⟩ fun _ _ => trivial).1

end Magicbox.Guarantees.Admissions
