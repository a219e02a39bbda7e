import Magicbox.Source.Config

/-!
# The nftables batches

network.cpp: `guard` and `ruleset`. Both are texts fed to `nft -f -`. Next to
each text stands the table it describes, and the text is shown to be the
rendering of that table, so that the later modules can work on rules instead
of characters.

The semantics is that of `nft -f`: a batch is applied as a whole or not at all,
`table` adds to a table that exists, and `delete table` fails on one that does
not. In a chain the first rule with a verdict decides, and the policy decides
when no rule does.
-/

set_option autoImplicit false

namespace Magicbox.Source.Nftables
open Config

inductive Family where
  | ip | inet
  deriving DecidableEq, Repr

def Family.text : Family → String
  | .ip => "ip"
  | .inet => "inet"

/-- The rule conditions that occur in the batches. -/
inductive Condition where
  | iifname (name : String)
  | iifnameIn (first second : String)
  | oifname (name : String)
  | oifnameIn (first second : String)
  | saddr (address : String)
  | daddr (address : String)
  deriving DecidableEq, Repr

inductive Statement where
  | ctMarkSet
  | accept
  | drop
  | dnatTo (address : String)
  | snatTo (address : String)
  deriving DecidableEq, Repr

structure Rule where
  conditions : List Condition
  statements : List Statement
  deriving DecidableEq, Repr

structure Chain where
  name : String
  hook : String
  rules : List Rule
  deriving DecidableEq, Repr

structure Table where
  family : Family
  name : String
  chains : List Chain
  deriving DecidableEq, Repr

/-- The interface that faces upstream: the VLAN link when one is configured. -/
def effectiveOuter (c : NetworkConfig) : String :=
  if c.vlanId.isSome then "mbx-outer" else c.outerInterface

/-! ## Texts -/

def quoted (name : String) : String := "\"" ++ name ++ "\""

def pair (first second : String) : String :=
  "\x7b " ++ quoted first ++ ", " ++ quoted second ++ " \x7d"

def Condition.text : Condition → String
  | .iifname name => "iifname " ++ quoted name
  | .iifnameIn a b => "iifname " ++ pair a b
  | .oifname name => "oifname " ++ quoted name
  | .oifnameIn a b => "oifname " ++ pair a b
  | .saddr a => "ip saddr " ++ a
  | .daddr a => "ip daddr " ++ a

def Statement.text : Statement → String
  | .ctMarkSet => "ct mark set 0x4d425800"
  | .accept => "accept"
  | .drop => "drop"
  | .dnatTo a => "dnat to " ++ a
  | .snatTo a => "snat to " ++ a

def joinWith (separator : String) : List String → String
  | [] => ""
  | [word] => word
  | word :: rest => word ++ (separator ++ joinWith separator rest)

def Rule.text (r : Rule) : String :=
  joinWith " " (r.conditions.map Condition.text ++ r.statements.map Statement.text)

def forwardHead : String :=
  "table inet magicbox \x7b chain forward \x7b type filter hook forward priority -10; policy accept;"

def preroutingHead : String :=
  "chain prerouting \x7b type nat hook prerouting priority dstnat; policy accept;"

def postroutingHead : String :=
  "chain postrouting \x7b type nat hook postrouting priority srcnat; policy accept;"

/-- The text `guard` builds. -/
def guard (c : NetworkConfig) : String :=
  let outer := effectiveOuter c
  forwardHead ++ " iifname \x7b \"" ++ c.innerInterface ++ "\", \"" ++ outer ++
    "\" \x7d drop; oifname \x7b \"" ++ c.innerInterface ++ "\", \"" ++ outer ++
    "\" \x7d drop; \x7d\n\x7d\n"

/-- The text `ruleset` builds. -/
def ruleset (c : NetworkConfig) : String :=
  let outer := effectiveOuter c
  let i := "\"" ++ c.innerInterface ++ "\""
  let o := "\"" ++ outer ++ "\""
  "table ip magicbox \x7b\n" ++
  preroutingHead ++ " iifname " ++ o ++ " ip daddr " ++ c.outerIpv4 ++
    " dnat to " ++ c.deviceIpv4 ++ "; \x7d\n" ++
  postroutingHead ++ " oifname " ++ o ++ " ip saddr " ++ c.deviceIpv4 ++
    " snat to " ++ c.outerIpv4 ++ "; \x7d\n" ++
  "\x7d\n" ++
  forwardHead ++ "\n" ++
  "iifname " ++ i ++ " oifname " ++ o ++ " ip saddr " ++ c.deviceIpv4 ++
    " ct mark set 0x4d425800 accept\n" ++
  "iifname " ++ o ++ " oifname " ++ i ++ " ip daddr " ++ c.deviceIpv4 ++
    " ct mark set 0x4d425800 accept\n" ++
  "iifname \x7b " ++ i ++ ", " ++ o ++ " \x7d drop\n" ++
  "oifname \x7b " ++ i ++ ", " ++ o ++ " \x7d drop\n" ++
  "\x7d\n\x7d\n"

/-! ## Tables -/

def dropRules (c : NetworkConfig) : List Rule :=
  [⟨[.iifnameIn c.innerInterface (effectiveOuter c)], [.drop]⟩,
   ⟨[.oifnameIn c.innerInterface (effectiveOuter c)], [.drop]⟩]

/-- The two accepted flows: from the device outwards, and inwards to the device. -/
def acceptRules (c : NetworkConfig) : List Rule :=
  [⟨[.iifname c.innerInterface, .oifname (effectiveOuter c), .saddr c.deviceIpv4],
      [.ctMarkSet, .accept]⟩,
   ⟨[.iifname (effectiveOuter c), .oifname c.innerInterface, .daddr c.deviceIpv4],
      [.ctMarkSet, .accept]⟩]

def dnatRule (c : NetworkConfig) : Rule :=
  ⟨[.iifname (effectiveOuter c), .daddr c.outerIpv4], [.dnatTo c.deviceIpv4]⟩

def snatRule (c : NetworkConfig) : Rule :=
  ⟨[.oifname (effectiveOuter c), .saddr c.deviceIpv4], [.snatTo c.outerIpv4]⟩

def guardTable (c : NetworkConfig) : Table :=
  ⟨.inet, "magicbox", [⟨"forward", "forward", dropRules c⟩]⟩

def forwardTable (c : NetworkConfig) : Table :=
  ⟨.inet, "magicbox", [⟨"forward", "forward", acceptRules c ++ dropRules c⟩]⟩

def natTable (c : NetworkConfig) : Table :=
  ⟨.ip, "magicbox", [⟨"prerouting", "prerouting", [dnatRule c]⟩,
    ⟨"postrouting", "postrouting", [snatRule c]⟩]⟩

theorem dnatRule_text (c : NetworkConfig) :
    (dnatRule c).text = "iifname " ++ quoted (effectiveOuter c) ++ (" " ++
      ("ip daddr " ++ c.outerIpv4 ++ (" " ++ ("dnat to " ++ c.deviceIpv4)))) := rfl

theorem snatRule_text (c : NetworkConfig) :
    (snatRule c).text = "oifname " ++ quoted (effectiveOuter c) ++ (" " ++
      ("ip saddr " ++ c.deviceIpv4 ++ (" " ++ ("snat to " ++ c.outerIpv4)))) := rfl

theorem dropRules_text (c : NetworkConfig) :
    (dropRules c).map Rule.text =
      ["iifname " ++ pair c.innerInterface (effectiveOuter c) ++ (" " ++ "drop"),
       "oifname " ++ pair c.innerInterface (effectiveOuter c) ++ (" " ++ "drop")] := rfl

theorem acceptRules_text (c : NetworkConfig) :
    (acceptRules c).map Rule.text =
      ["iifname " ++ quoted c.innerInterface ++ (" " ++ ("oifname " ++ quoted (effectiveOuter c) ++
        (" " ++ ("ip saddr " ++ c.deviceIpv4 ++
          (" " ++ ("ct mark set 0x4d425800" ++ (" " ++ "accept"))))))),
       "iifname " ++ quoted (effectiveOuter c) ++ (" " ++ ("oifname " ++ quoted c.innerInterface ++
        (" " ++ ("ip daddr " ++ c.deviceIpv4 ++
          (" " ++ ("ct mark set 0x4d425800" ++ (" " ++ "accept")))))))] := rfl

/-- `guard` renders the guard table, its rules on one line. -/
theorem guard_text (c : NetworkConfig) :
    guard c = forwardHead ++ " " ++ joinWith "; " ((dropRules c).map Rule.text) ++
      "; \x7d\n\x7d\n" := by
  have head : " iifname \x7b \"" = " " ++ ("iifname " ++ ("\x7b " ++ "\"")) := by decide
  have between : "\", \"" = "\"" ++ (", " ++ "\"") := by decide
  have middle : "\" \x7d drop; oifname \x7b \"" =
      "\"" ++ (" \x7d" ++ (" " ++ ("drop" ++ ("; " ++ ("oifname " ++ ("\x7b " ++ "\"")))))) := by
    decide
  have tail : "\" \x7d drop; \x7d\n\x7d\n" =
      "\"" ++ (" \x7d" ++ (" " ++ ("drop" ++ "; \x7d\n\x7d\n"))) := by decide
  unfold guard
  rw [dropRules_text]
  simp only [joinWith, pair, quoted, head, between, middle, tail, String.append_assoc,
    -String.reduceAppend]

/-- `ruleset` renders the translation table and the forward table, the forward
rules on a line each. -/
theorem ruleset_text (c : NetworkConfig) :
    ruleset c = "table ip magicbox \x7b\n" ++
      preroutingHead ++ " " ++ (dnatRule c).text ++ "; \x7d\n" ++
      postroutingHead ++ " " ++ (snatRule c).text ++ "; \x7d\n" ++
      "\x7d\n" ++
      forwardHead ++ "\n" ++ joinWith "\n" ((acceptRules c ++ dropRules c).map Rule.text) ++ "\n" ++
      "\x7d\n\x7d\n" := by
  have iifname : " iifname " = " " ++ "iifname " := by decide
  have oifname : " oifname " = " " ++ "oifname " := by decide
  have daddr : " ip daddr " = " " ++ "ip daddr " := by decide
  have saddr : " ip saddr " = " " ++ "ip saddr " := by decide
  have dnat : " dnat to " = " " ++ "dnat to " := by decide
  have snat : " snat to " = " " ++ "snat to " := by decide
  have accepted : " ct mark set 0x4d425800 accept\n" =
      " " ++ ("ct mark set 0x4d425800" ++ (" " ++ ("accept" ++ "\n"))) := by decide
  have inward : "iifname \x7b " = "iifname " ++ "\x7b " := by decide
  have outward : "oifname \x7b " = "oifname " ++ "\x7b " := by decide
  have dropped : " \x7d drop\n" = " \x7d" ++ (" " ++ ("drop" ++ "\n")) := by decide
  unfold ruleset
  rw [dnatRule_text, snatRule_text, List.map_append, acceptRules_text, dropRules_text]
  simp only [joinWith, pair, quoted, List.cons_append, List.nil_append, iifname, oifname, daddr,
    saddr, dnat, snat, accepted, inward, outward, dropped, String.append_assoc,
    -String.reduceAppend]

/-! ## Batches -/

inductive Command where
  | deleteTable (family : Family) (name : String)
  | define (t : Table)
  deriving DecidableEq, Repr

abbrev Batch := List Command

def Table.named (t : Table) (family : Family) (name : String) : Bool :=
  t.family = family && t.name = name

def hasTable (family : Family) (name : String) (tables : List Table) : Bool :=
  tables.any (·.named family name)

def dropTable (family : Family) (name : String) (tables : List Table) : List Table :=
  tables.filter fun t => !t.named family name

/-- Add the chains of a table to the table of its name: rules are appended to
a chain that exists. -/
def mergeChains (old : List Chain) : List Chain → List Chain
  | [] => old
  | chain :: rest =>
    let merged := if old.any (·.name = chain.name) then
        old.map fun o => if o.name = chain.name then { o with rules := o.rules ++ chain.rules } else o
      else old ++ [chain]
    mergeChains merged rest

def Command.run (tables : List Table) : Command → Option (List Table)
  | .deleteTable family name =>
    if hasTable family name tables then some (dropTable family name tables) else none
  | .define t =>
    if hasTable t.family t.name tables then
      some (tables.map fun o =>
        if o.named t.family t.name then { o with chains := mergeChains o.chains t.chains } else o)
    else some (tables ++ [t])

/-- All commands or none. -/
def runBatch : Batch → List Table → Option (List Table)
  | [], tables => some tables
  | command :: rest, tables => (command.run tables).bind (runBatch rest)

/-! ## Evaluation -/

/-- What the forward hook sees of a packet: its interfaces and its addresses at
that point. -/
structure Packet where
  iif : String
  oif : String
  src : BitVec 32
  dst : BitVec 32
  deriving DecidableEq, Repr

def Condition.holds (p : Packet) : Condition → Bool
  | .iifname name => p.iif == name
  | .iifnameIn a b => p.iif == a || p.iif == b
  | .oifname name => p.oif == name
  | .oifnameIn a b => p.oif == a || p.oif == b
  | .saddr a => p.src == host a
  | .daddr a => p.dst == host a

inductive Verdict where
  | accept | drop | dnat (address : BitVec 32) | snat (address : BitVec 32)
  deriving DecidableEq, Repr

def Statement.verdict : Statement → Option Verdict
  | .ctMarkSet => none
  | .accept => some .accept
  | .drop => some .drop
  | .dnatTo a => some (.dnat (host a))
  | .snatTo a => some (.snat (host a))

def Rule.verdict (p : Packet) (r : Rule) : Option Verdict :=
  if r.conditions.all (·.holds p) then r.statements.findSome? Statement.verdict else none

/-- The first rule with a verdict decides; `policy accept` otherwise. -/
def evaluate (rules : List Rule) (p : Packet) : Verdict :=
  (rules.findSome? (·.verdict p)).getD .accept

/-- The packet enters or leaves through the inner or the effective outer interface. -/
def touches (c : NetworkConfig) (p : Packet) : Prop :=
  (p.iif = c.innerInterface ∨ p.iif = effectiveOuter c) ∨
    (p.oif = c.innerInterface ∨ p.oif = effectiveOuter c)

/-- The two flows `ruleset` permits. -/
def deviceFlow (c : NetworkConfig) (p : Packet) : Prop :=
  (p.iif = c.innerInterface ∧ p.oif = effectiveOuter c ∧ p.src = host c.deviceIpv4) ∨
    (p.iif = effectiveOuter c ∧ p.oif = c.innerInterface ∧ p.dst = host c.deviceIpv4)

instance (c : NetworkConfig) (p : Packet) : Decidable (touches c p) :=
  inferInstanceAs (Decidable (_ ∨ _))

instance (c : NetworkConfig) (p : Packet) : Decidable (deviceFlow c p) :=
  inferInstanceAs (Decidable (_ ∨ _))

/-- The guard drops every packet on the two interfaces. -/
theorem evaluate_guard (c : NetworkConfig) {p : Packet} (h : touches c p) :
    evaluate (dropRules c) p = .drop := by
  unfold touches at h
  simp only [evaluate, dropRules, List.findSome?, Rule.verdict, List.all_cons, List.all_nil,
    Condition.holds, Statement.verdict, Bool.and_true, Bool.or_eq_true, beq_iff_eq]
  by_cases hi : p.iif = c.innerInterface ∨ p.iif = effectiveOuter c
  · simp [hi]
  · have ho := h.resolve_left hi
    simp [hi, ho]

/-- With the accept rules in place exactly the two device flows pass. -/
theorem evaluate_forward (c : NetworkConfig) {p : Packet} (h : touches c p) :
    evaluate (acceptRules c ++ dropRules c) p =
      if deviceFlow c p then Verdict.accept else Verdict.drop := by
  have hguard := evaluate_guard c h
  have hsplit : evaluate (acceptRules c ++ dropRules c) p =
      ((acceptRules c).findSome? (·.verdict p)).getD (evaluate (dropRules c) p) := by
    simp only [evaluate, List.findSome?_append]
    cases (acceptRules c).findSome? (·.verdict p) <;> rfl
  rw [hsplit, hguard]
  simp only [acceptRules, List.findSome?, Rule.verdict, List.all_cons, List.all_nil,
    Condition.holds, Statement.verdict, Bool.and_true, Bool.and_eq_true, beq_iff_eq]
  by_cases hout : p.iif = c.innerInterface ∧ p.oif = effectiveOuter c ∧ p.src = host c.deviceIpv4
  · have hflow : deviceFlow c p := Or.inl hout
    rw [if_pos hout, if_pos hflow]
    rfl
  · by_cases hin : p.iif = effectiveOuter c ∧ p.oif = c.innerInterface ∧ p.dst = host c.deviceIpv4
    · have hflow : deviceFlow c p := Or.inr hin
      rw [if_neg hout, if_pos hin, if_pos hflow]
      rfl
    · have hflow : ¬ deviceFlow c p := not_or.mpr ⟨hout, hin⟩
      rw [if_neg hout, if_neg hin, if_neg hflow]
      rfl

end Magicbox.Source.Nftables
