import Magicbox.Library.Conntrack
import Magicbox.Source.Nftables

/-!
# What the rule set does to forwarded packets

The tables of `ruleset` at the hooks of the packet filter. The rules and their
evaluation are those of `Nftables`; connection tracking is the library's. The
kernel routes packets for the device to the inner port, all others wherever its
remaining routes lead.
-/

set_option autoImplicit false

namespace Magicbox.Source.Translation
open Library.Conntrack Config Nftables

/-- An IPv4 packet that comes in on an interface. -/
abbrev Forwarded (π : Type) := Library.Conntrack.Arrival (BitVec 32) π String

abbrev Connections (π : Type) := List (Connection (BitVec 32) π)

/-- The two tables of `ruleset`. -/
def rulesetTables (c : NetworkConfig) : List Table := [natTable c, forwardTable c]

def hookRules (tables : List Table) (hook : String) : List Rule :=
  ((tables.flatMap (·.chains)).filter (·.hook = hook)).flatMap (·.rules)

/-- The address a verdict of a translation chain maps to. -/
def mappedAddress : Verdict → Option (BitVec 32)
  | .dnat a => some a
  | .snat a => some a
  | .accept => none
  | .drop => none

/-- A list of tables at the hooks. Before routing a packet has no outgoing interface yet. -/
def hooks (c : NetworkConfig) (tables : List Table) : Hooks (BitVec 32) String where
  prerouting iif src dst :=
    mappedAddress (evaluate (hookRules tables "prerouting") ⟨iif, "", src, dst⟩)
  route way dst := if dst = host c.deviceIpv4 then c.innerInterface else way
  forward iif oif src dst :=
    evaluate (hookRules tables "forward") ⟨iif, oif, src, dst⟩ = Verdict.accept
  postrouting iif oif src dst :=
    mappedAddress (evaluate (hookRules tables "postrouting") ⟨iif, oif, src, dst⟩)

/-- The hooks under `ruleset`. -/
abbrev ruled (c : NetworkConfig) : Hooks (BitVec 32) String := hooks c (rulesetTables c)

/-- The hooks with no table at all. -/
abbrev plain (c : NetworkConfig) : Hooks (BitVec 32) String := hooks c []

theorem hookRules_prerouting (c : NetworkConfig) :
    hookRules (rulesetTables c) "prerouting" = [dnatRule c] := rfl

theorem hookRules_postrouting (c : NetworkConfig) :
    hookRules (rulesetTables c) "postrouting" = [snatRule c] := rfl

theorem ruled_prerouting (c : NetworkConfig) (iif : String) (src dst : BitVec 32) :
    (ruled c).prerouting iif src dst =
      if iif = effectiveOuter c ∧ dst = host c.outerIpv4 then some (host c.deviceIpv4)
      else none := by
  simp only [hooks, hookRules_prerouting, evaluate, List.findSome?, Rule.verdict, dnatRule,
    List.all_cons, List.all_nil, Condition.holds, Bool.and_true, Bool.and_eq_true, beq_iff_eq]
  by_cases h : iif = effectiveOuter c ∧ dst = host c.outerIpv4
  · rw [if_pos h, if_pos h]
    rfl
  · rw [if_neg h, if_neg h]
    rfl

theorem ruled_postrouting (c : NetworkConfig) (iif oif : String) (src dst : BitVec 32) :
    (ruled c).postrouting iif oif src dst =
      if oif = effectiveOuter c ∧ src = host c.deviceIpv4 then some (host c.outerIpv4)
      else none := by
  simp only [hooks, hookRules_postrouting, evaluate, List.findSome?, Rule.verdict, snatRule,
    List.all_cons, List.all_nil, Condition.holds, Bool.and_true, Bool.and_eq_true, beq_iff_eq]
  by_cases h : oif = effectiveOuter c ∧ src = host c.deviceIpv4
  · rw [if_pos h, if_pos h]
    rfl
  · rw [if_neg h, if_neg h]
    rfl

/-- No rule of the forward chain is about a packet that touches neither interface. -/
theorem evaluate_untouched (c : NetworkConfig) {p : Packet} (h : ¬ touches c p) :
    evaluate (acceptRules c ++ dropRules c) p = .accept := by
  simp only [touches, not_or] at h
  simp [evaluate, acceptRules, dropRules, Rule.verdict, Condition.holds, h.1.1, h.1.2, h.2.1, h.2.2]

/-- The forward rules let the two device flows pass, and what touches neither interface. -/
theorem ruled_forward (c : NetworkConfig) (iif oif : String) (src dst : BitVec 32) :
    (ruled c).forward iif oif src dst = true ↔
      (touches c ⟨iif, oif, src, dst⟩ → deviceFlow c ⟨iif, oif, src, dst⟩) := by
  have hevaluate : (ruled c).forward iif oif src dst = true ↔
      evaluate (acceptRules c ++ dropRules c) ⟨iif, oif, src, dst⟩ = .accept := decide_eq_true_iff
  rw [hevaluate]
  by_cases htouches : touches c ⟨iif, oif, src, dst⟩
  · rw [evaluate_forward c htouches]
    by_cases hflow : deviceFlow c ⟨iif, oif, src, dst⟩ <;> simp [htouches, hflow]
  · simp [evaluate_untouched c htouches, htouches]

end Magicbox.Source.Translation
