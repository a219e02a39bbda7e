import Magicbox.Library.Tokens
import Magicbox.Source.Nftables

/-!
# The language of the batches

As much of the language of `nft -f` as the batches of network.cpp are written in,
as a reader from characters to what they say. A statement ends with a semicolon
or a line. A string that holds a star may stand for several interfaces, and a
word that is no address for a name to be resolved: the reader takes neither.
-/

set_option autoImplicit false

namespace Magicbox.Source.NftReader
open Library.Tokens Config Nftables

def kind (c : Char) : Kind :=
  if c = ' ' || c = '\t' then .blank
  else if c = '\n' || c = ';' then .stop
  else if c = '\x7b' || c = '\x7d' || c = ',' then .mark
  else if c = '"' then .quote
  else if c.isAlphanum || c = '_' || c = '-' || c = '.' || c = '/' then .word
  else .other

def isBrace : Token → Bool
  | .mark c => c == '\x7b' || c == '\x7d'
  | _ => false

/-- Stops where there is nothing to end: at the beginning, behind another, and behind a brace. -/
def squeeze : Bool → List Token → List Token
  | _, [] => []
  | idle, .stop :: ts => if idle then squeeze true ts else .stop :: squeeze true ts
  | _, t :: ts => t :: squeeze (isBrace t) ts

/-! ## Rules -/

/-- A name that stands for one interface. -/
def plainName (name : String) : Bool := name.toList.all fun c => c ≠ '*' && c ≠ '\\'

def readNames (one : String → Condition) (two : String → String → Condition) : Reader Condition
  | .quoted a :: ts => if plainName a then some (one a, ts) else none
  | .mark '\x7b' :: .quoted a :: .mark ',' :: .quoted b :: .mark '\x7d' :: ts =>
    if plainName a && plainName b then some (two a b, ts) else none
  | _ => none

def readAddress {α : Type} (build : String → α) : Reader α
  | .word a :: ts => if (inetPton a.toList).isSome then some (build a, ts) else none
  | _ => none

def readCondition : Reader Condition
  | .word "iifname" :: ts => readNames .iifname .iifnameIn ts
  | .word "oifname" :: ts => readNames .oifname .oifnameIn ts
  | .word "ip" :: .word "saddr" :: ts => readAddress .saddr ts
  | .word "ip" :: .word "daddr" :: ts => readAddress .daddr ts
  | _ => none

def readStatement : Reader Statement
  | .word "ct" :: .word "mark" :: .word "set" :: .word "0x4d425800" :: ts => some (.ctMarkSet, ts)
  | .word "accept" :: ts => some (.accept, ts)
  | .word "drop" :: ts => some (.drop, ts)
  | .word "dnat" :: .word "to" :: ts => readAddress .dnatTo ts
  | .word "snat" :: .word "to" :: ts => readAddress .snatTo ts
  | _ => none

/-- A rule with what ends it. -/
def readRule : Reader Rule := fun ts =>
  let conditions := all readCondition ts
  let statements := all readStatement conditions.2
  match statements.1, statements.2 with
  | statement :: rest, .stop :: ts => some (⟨conditions.1, statement :: rest⟩, ts)
  | _, _ => none

/-! ## Chains and tables -/

/-- A chain with what its declaration says about the hook. -/
structure BaseChain where
  type : String
  priority : String
  policy : String
  chain : Chain
  deriving DecidableEq, Repr

structure Block where
  family : Family
  name : String
  chains : List BaseChain
  deriving DecidableEq, Repr

def Block.table (b : Block) : Table := ⟨b.family, b.name, b.chains.map (·.chain)⟩

def readFamily : String → Option Family
  | "ip" => some .ip
  | "inet" => some .inet
  | _ => none

def readChain : Reader BaseChain
  | .word "chain" :: .word name :: .mark '\x7b' :: .word "type" :: .word type ::
      .word "hook" :: .word hook :: .word "priority" :: .word priority :: .stop ::
      .word "policy" :: .word policy :: .stop :: ts =>
    let rules := all readRule ts
    match rules.2 with
    | .mark '\x7d' :: ts => some (⟨type, priority, policy, ⟨name, hook, rules.1⟩⟩, ts)
    | _ => none
  | _ => none

/-! ## Batches -/

inductive Declaration where
  | deleteTable (family : Family) (name : String)
  | table (block : Block)
  deriving DecidableEq, Repr

def Declaration.command : Declaration → Command
  | .deleteTable family name => .deleteTable family name
  | .table block => .define block.table

def readDeclaration : Reader Declaration
  | .word "delete" :: .word "table" :: .word family :: .word name :: .stop :: ts =>
    (readFamily family).map fun family => (.deleteTable family name, ts)
  | .word "table" :: .word family :: .word name :: .mark '\x7b' :: ts =>
    let chains := all readChain ts
    match readFamily family, chains.2 with
    | some family, .mark '\x7d' :: ts => some (.table ⟨family, name, chains.1⟩, ts)
    | _, _ => none
  | _ => none

/-- What a text says, all of it. -/
def readBatch (text : String) : Option (List Declaration) :=
  (tokens kind text).bind fun ts =>
    let declarations := all readDeclaration (squeeze true ts)
    if declarations.2 = [] then some declarations.1 else none

end Magicbox.Source.NftReader
