import Magicbox.Guarantees.KernelRuns
import Magicbox.Source.JournalWrites

/-!
# What the journal remembers of the kernel

Before its first mutation `apply` stores the configuration, the two baseline
entries and the two host-wide sysctls. Everything a rollback gives back comes
from these fields, so this module says what they hold and that they read back
as what was captured.
-/

set_option autoImplicit false

namespace Magicbox.Guarantees.Baseline
open Library.Crash Source Source.Json Source.Config Source.ConfigJson Source.Netns
  Source.NetworkController KernelRuns

/-- The state holds what `apply` captures from the kernel `K` for a configuration it admits. -/
structure Captured (K : Kernel) (c : NetworkConfig) (v : Value) : Prop where
  valid : validate c = []
  config : v.get "config" = configJson c
  baseline : ∃ outer inner, Dedicated K c.outerInterface outer ∧
    Dedicated K c.innerInterface inner ∧
    v.get "baseline" = .array [capturedInfo c.outerInterface outer,
      capturedInfo c.innerInterface inner]
  ipForward : v.get "ip_forward" = .string K.ipForward
  rpFilterAll : v.get "rp_filter_all" = .string K.rpFilterAll

/-- It does so under a status that makes a rollback use it. -/
structure Remembers (K : Kernel) (c : NetworkConfig) (v : Value) : Prop
    extends Captured K c v where
  status : v.get "status" ≠ .string "inactive"

/-- The members that `apply` captures. -/
def captured : List String := ["config", "baseline", "ip_forward", "rp_filter_all"]

section Captured
variable {K : Kernel} {c : NetworkConfig} {v : Value}

theorem Captured.readable (h : Captured K c v) : configFromJson (v.get "config") = .ok c := by
  rw [h.config]
  exact configFromJson_configJson h.valid

/-- Other members do not matter. -/
theorem Captured.set (h : Captured K c v) {name : String} (hname : name ∉ captured) (x : Value) :
    Captured K c (v.set name x) := by
  simp only [captured, List.mem_cons, List.not_mem_nil, or_false, not_or] at hname
  obtain ⟨hconfig, hbaseline, hforward, hfilter⟩ := hname
  refine ⟨h.valid, ?_, ?_, ?_, ?_⟩
  · rw [Value.get_set_of_ne _ hconfig]
    exact h.config
  · rw [Value.get_set_of_ne _ hbaseline]
    exact h.baseline
  · rw [Value.get_set_of_ne _ hforward]
    exact h.ipForward
  · rw [Value.get_set_of_ne _ hfilter]
    exact h.rpFilterAll

theorem Captured.agree {v' : Value} (h : Captured K c v) (agree : Agree v v') :
    Captured K c v' := by
  refine ⟨h.valid, ?_, ?_, ?_, ?_⟩
  · rw [agree _ (by decide)]
    exact h.config
  · rw [agree _ (by decide)]
    exact h.baseline
  · rw [agree _ (by decide)]
    exact h.ipForward
  · rw [agree _ (by decide)]
    exact h.rpFilterAll

theorem Captured.present (h : Captured K c v) : v.isNull = false := by
  have hconfig := h.config
  cases v with
  | null => cases hconfig
  | _ => rfl

theorem Captured.setStatus (h : Captured K c v) {s : String} (hs : s ≠ "inactive") :
    Remembers K c (v.set "status" (.string s)) := by
  refine ⟨h.set (by decide) _, ?_⟩
  rw [Value.get_set_self]
  simpa using hs

/-- A state that names a configuration is not an absent one. -/
theorem Remembers.initial (h : Remembers K c v) : initial v = v := by
  unfold NetworkController.initial
  split
  · next hnull =>
    have hconfig := h.readable
    cases v <;> first | cases hconfig | cases hnull
  · rfl

theorem Captured.entering {w : World} (h : Captured K c w.state_) :
    Remembers K c (entering c w).state_ :=
  h.setStatus (by decide)

/-- A rollback that noted an error keeps what it needs for the next one. -/
theorem Captured.closing {w : World} {errors : String} (h : Captured K c w.state_)
    (he : errors ≠ "") : Remembers K c (closing errors w).state_ := by
  change Remembers K c ((w.state_.set "status"
    (.string (if errors.isEmpty then "inactive" else "rollback_failed"))).set "error" _)
  rw [isEmpty_eq_false he]
  have hfailed : Remembers K c (w.state_.set "status" (.string "rollback_failed")) :=
    h.setStatus (by decide)
  refine ⟨hfailed.toCaptured.set (by decide) _, ?_⟩
  rw [Value.get_set_of_ne _ (by decide)]
  exact hfailed.status

/-- The write-ahead stores what the admission captured. -/
theorem Admitted.remembers {baseline : Value} {w : World} (h : Admitted c baseline w) (v : Value) :
    Remembers w.kernel c (applying c baseline w.kernel v) := by
  obtain ⟨outer, inner, houter, hinner, rfl⟩ := h.captured
  have hmembers : Captured w.kernel c
      (((drafted c (.array [capturedInfo c.outerInterface outer,
        capturedInfo c.innerInterface inner]) v).set "ip_forward"
          (.string w.kernel.ipForward)).set "rp_filter_all" (.string w.kernel.rpFilterAll)) := by
    refine ⟨h.valid, ?_, ⟨outer, inner, houter, hinner, ?_⟩, ?_, Value.get_set_self _ _ _⟩
    · rw [Value.get_set_of_ne _ (by decide), Value.get_set_of_ne _ (by decide), drafted,
        Value.get_set_of_ne _ (by decide), Value.get_set_self]
    · rw [Value.get_set_of_ne _ (by decide), Value.get_set_of_ne _ (by decide), drafted,
        Value.get_set_self]
    · rw [Value.get_set_of_ne _ (by decide), Value.get_set_self]
  exact hmembers.setStatus (by decide)

/-- A write-ahead that returns has stored the capture in memory and in the journal. -/
theorem writeAhead_remembers {baseline : Value} {w w₁ w₂ : World} (adm : Admitted c baseline w)
    (look : Looking w w₁) (h : writeAhead c baseline w₁ = (.returned (), w₂)) :
    w₂.kernel = w.kernel ∧ Remembers w.kernel c w₂.state_ ∧ journal w₂ = w₂.state_ := by
  have hrun := writeAhead_run c baseline w₁
  rw [h] at hrun
  cases hrun with
  | unread _ _ ho => exact absurd rfl ho
  | @put w' _ _ look' put =>
    have effect := putState_effect put
    have hkernel : w'.kernel = w.kernel := look'.kernel.trans look.kernel
    have hremembers : Remembers w.kernel c w₂.state_ := by
      rw [effect.state_]
      change Remembers w.kernel c (applying c baseline w'.kernel w'.state_)
      rw [hkernel]
      exact Admitted.remembers adm w'.state_
    exact ⟨effect.kernel.trans hkernel, hremembers, (effect.done rfl).trans effect.state_.symm⟩

end Captured

/-! ## A baseline entry reads back -/

theorem stoul16_byteText (b : UInt8) : stoul16 (byteText b) = .ok b := by
  have every : ∀ n : Fin 256, stoul16 (byteText (UInt8.ofFin n)) = .ok (UInt8.ofFin n) := by
    decide +kernel
  exact every b.toFin

/-- Six bytes that are printed and decoded again are the same six bytes. -/
theorem macBytes_macText {bytes : List UInt8} (h : bytes.length = 6) :
    macBytes (macText bytes) = .ok bytes := by
  match bytes, h with
  | [a, b, c, d, e, f], _ =>
    have hlen : (macText [a, b, c, d, e, f]).length = 17 := by
      rw [macText, String.length_ofList]
      rfl
    have pair : ∀ x : UInt8, stoul16 [hexChar (x.toNat / 16), hexChar (x.toNat % 16)] = .ok x :=
      stoul16_byteText
    unfold macBytes
    rw [hlen]
    simp [List.range, List.range.loop, macText, macChars, byteText, pair, bind, Except.bind,
      pure, Except.pure]

theorem macAttribute_macText {bytes : List UInt8} (h : bytes.length = 6) :
    macAttribute (macText bytes) = some bytes := by
  have hne : (macText bytes).isEmpty = false := by
    refine isEmpty_eq_false fun he => ?_
    match bytes, h with
    | [a, b, c, d, e, f], _ =>
      have := congrArg String.toList he
      simp [macText, macChars, byteText] at this
  rw [macAttribute, hne, macBytes_macText h]
  rfl

/-- The requests a rollback makes for a captured port, in the port's own values. -/
theorem resetRequests_capturedInfo {K : Kernel} {name : String} {link : Link}
    (h : Dedicated K name link) (hmac : link.address.length = 6) :
    resetRequests (capturedInfo name link) =
      [.setLink name false none, .setLink name false (some link.address),
       .write (.disableIpv6 name) link.disableIpv6, .write (.rpFilter name) link.rpFilter,
       .setLink name link.up none] := by
  have hflags : hasFlag (.array (["BROADCAST", "MULTICAST"].map Value.string ++
      (if link.up then [.string "UP"] else []))) "UP" = link.up := by
    cases link.up <;> rfl
  unfold resetRequests capturedInfo linkInfo
  simp [h.master, textOf, bind, Except.bind, Except.toOption, macAttribute_macText hmac]
  exact hflags

end Magicbox.Guarantees.Baseline
