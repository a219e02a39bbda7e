import Mathlib.Data.List.Induction
import Mathlib.Logic.Function.Basic

/-!
# Advisory locks

Exclusive locks on files that are taken without waiting, as `flock` takes them
with LOCK_EX | LOCK_NB, and that are given back when their owner ends, however
it ends. What follows for files that are only used by their owner: the uses of
two processes never interleave, because the first of the two has ended in
between.
-/

set_option autoImplicit false

namespace Magicbox.Library.FileLock

variable {π ι : Type}

/-- What a process does with a file, and its end. -/
inductive Act (π ι : Type) where
  | locked (p : π) (f : ι)
  | used (p : π) (f : ι)
  | ended (p : π)
  deriving DecidableEq

/-- The same act, seen from the files that stand for what is used. -/
def Act.map {κ : Type} (g : κ → ι) : Act π κ → Act π ι
  | locked p f => locked p (g f)
  | used p f => used p (g f)
  | ended p => ended p

/-- Who holds the lock of a file. -/
abbrev Owners (π ι : Type) := ι → Option π

namespace Owners

def free : Owners π ι := fun _ => none

def lock [DecidableEq ι] (o : Owners π ι) (p : π) (f : ι) : Owners π ι :=
  Function.update o f (some p)

/-- Everything that the process held is free again. -/
def release [DecidableEq π] (o : Owners π ι) (p : π) : Owners π ι :=
  fun f => if o f = some p then none else o f

@[simp] theorem lock_self [DecidableEq ι] (o : Owners π ι) (p : π) (f : ι) :
    o.lock p f f = some p := by
  simp [lock]

theorem lock_of_ne [DecidableEq ι] (o : Owners π ι) (p : π) {f g : ι}
    (h : g ≠ f) : o.lock p f g = o g := by
  simp [lock, h]

theorem release_eq_some [DecidableEq π] {o : Owners π ι} {p q : π} {f : ι} :
    o.release p f = some q ↔ o f = some q ∧ q ≠ p := by
  unfold release
  by_cases h : o f = some p
  · rw [if_pos h, h]
    simp only [Option.some.injEq, reduceCtorEq, false_iff, not_and, not_not]
    exact fun hpq => hpq.symm
  · rw [if_neg h]
    constructor
    · intro hq
      exact ⟨hq, fun hqp => h (hqp ▸ hq)⟩
    · exact And.left

end Owners

variable [DecidableEq π] [DecidableEq ι]

inductive Step : Owners π ι → Act π ι → Owners π ι → Prop
  | locked {o p f} (free : o f = none) : Step o (.locked p f) (o.lock p f)
  | used {o p f} (owner : o f = some p) : Step o (.used p f) o
  | ended {o p} : Step o (.ended p) (o.release p)

inductive Steps : Owners π ι → List (Act π ι) → Owners π ι → Prop
  | nil {o} : Steps o [] o
  | cons {o a o' acts o''} (head : Step o a o') (tail : Steps o' acts o'') :
    Steps o (a :: acts) o''

section Steps
variable {o o' : Owners π ι} {acts acts' : List (Act π ι)} {p q : π} {f : ι}

theorem steps_append :
    Steps o (acts ++ acts') o' ↔ ∃ mid, Steps o acts mid ∧ Steps mid acts' o' := by
  induction acts generalizing o with
  | nil =>
    constructor
    · exact fun h => ⟨o, .nil, h⟩
    · rintro ⟨mid, hnil, h⟩
      cases hnil
      exact h
  | cons a rest ih =>
    constructor
    · rintro (_ | ⟨head, tail⟩)
      obtain ⟨mid, hrest, hend⟩ := ih.mp tail
      exact ⟨mid, .cons head hrest, hend⟩
    · rintro ⟨mid, hfirst, hend⟩
      obtain _ | ⟨head, tail⟩ := hfirst
      exact .cons head (ih.mpr ⟨mid, tail, hend⟩)

theorem Steps.snoc {a : Act π ι} {mid : Owners π ι} (h : Steps o acts mid) (step : Step mid a o') :
    Steps o (acts ++ [a]) o' :=
  steps_append.mpr ⟨mid, h, .cons step .nil⟩

/-- A process keeps its locks until it ends. -/
theorem Step.kept {a : Act π ι} (step : Step o a o') (h : o f = some p) :
    a = .ended p ∨ o' f = some p := by
  cases step with
  | @locked q g free =>
    refine .inr ?_
    by_cases hfg : f = g
    · subst hfg
      rw [free] at h
      cases h
    · rw [Owners.lock_of_ne _ _ hfg]
      exact h
  | used _ => exact .inr h
  | @ended q =>
    by_cases hqp : q = p
    · exact .inl (hqp ▸ rfl)
    · exact .inr (Owners.release_eq_some.mpr ⟨h, fun hpq => hqp hpq.symm⟩)

theorem Steps.kept (h : Steps o acts o') (howner : o f = some p) (hrunning : .ended p ∉ acts) :
    o' f = some p := by
  induction h with
  | nil => exact howner
  | cons head tail ih =>
    rcases head.kept howner with rfl | hstill
    · exact absurd List.mem_cons_self hrunning
    · exact ih hstill fun hmem => hrunning (List.mem_cons_of_mem _ hmem)

/-- A process has a lock only by having taken it, and from then on. -/
theorem Steps.taken (h : Steps Owners.free acts o') (howner : o' f = some p) :
    ∃ before after, acts = before ++ .locked p f :: after ∧ .ended p ∉ after := by
  induction acts using List.reverseRecOn generalizing o' with
  | nil =>
    cases h
    cases howner
  | append_singleton past a ih =>
    obtain ⟨mid, hpast, hlast⟩ := steps_append.mp h
    obtain _ | ⟨step, hnil⟩ := hlast
    cases hnil
    have earlier : mid f = some p → a ≠ .ended p →
        ∃ before after, past ++ [a] = before ++ .locked p f :: after ∧ .ended p ∉ after := by
      intro hmid hne
      obtain ⟨before, after, rfl, hafter⟩ := ih hpast hmid
      refine ⟨before, after ++ [a], by simp, fun hmem => ?_⟩
      rcases List.mem_append.mp hmem with hmem | hmem
      · exact hafter hmem
      · exact hne (List.mem_singleton.mp hmem).symm
    cases step with
    | @locked q g free =>
      by_cases hfg : f = g
      · subst hfg
        rw [Owners.lock_self] at howner
        cases howner
        exact ⟨past, [], rfl, List.not_mem_nil⟩
      · rw [Owners.lock_of_ne _ _ hfg] at howner
        exact earlier howner (by simp)
    | used _ => exact earlier howner (by simp)
    | @ended q =>
      obtain ⟨hmid, hne⟩ := Owners.release_eq_some.mp howner
      exact earlier hmid fun heq => hne (Act.ended.inj heq).symm

/-- Between two uses of a file by different processes the first of them has ended. -/
theorem Steps.disjoint {past mid rest : List (Act π ι)}
    (h : Steps Owners.free (past ++ .used p f :: (mid ++ .used q f :: rest)) o') (hne : p ≠ q) :
    .ended p ∈ mid := by
  obtain ⟨o₁, -, htail⟩ := steps_append.mp h
  obtain _ | ⟨first, htail⟩ := htail
  obtain ⟨o₂, hmid, hend⟩ := steps_append.mp htail
  obtain _ | ⟨second, -⟩ := hend
  cases first with
  | used hfirst =>
    cases second with
    | used hsecond =>
      by_contra hrunning
      have hstill := hmid.kept hfirst hrunning
      rw [hsecond] at hstill
      exact hne (Option.some.inj hstill).symm

/-- Before a process uses a file it has taken its lock and has not ended since. -/
theorem Steps.entitled {past rest : List (Act π ι)}
    (h : Steps Owners.free (past ++ .used p f :: rest) o') :
    ∃ before after, past = before ++ .locked p f :: after ∧ .ended p ∉ after := by
  obtain ⟨o₁, hpast, htail⟩ := steps_append.mp h
  obtain _ | ⟨first, -⟩ := htail
  cases first with
  | used howner => exact hpast.taken howner

end Steps

end Magicbox.Library.FileLock
