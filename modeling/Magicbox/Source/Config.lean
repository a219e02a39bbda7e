import Mathlib.Data.List.Basic

/-!
# Network configuration and its syntax check

config.hpp and config.cpp. A text is a Lean string, and the C functions that
take `c_str()` see it up to its first NUL. `inet_pton` is the documented one:
four dot-separated decimal octets without leading zeros. An address is kept in
host order, so that `ntohl` is the identity on it.
-/

set_option autoImplicit false

namespace Magicbox.Source.Config

structure NetworkConfig where
  outerInterface : String := ""
  innerInterface : String := ""
  deviceIpv4 : String := ""
  innerGatewayIpv4 : String := ""
  innerPrefix : UInt32 := 24
  outerIpv4 : String := ""
  outerPrefix : UInt32 := 24
  outerGatewayIpv4 : String := ""
  outerMac : String := ""
  vlanId : Option UInt16 := none
  deriving DecidableEq, Repr

/-- The characters a C function reads through `c_str()`. -/
def cStr (s : String) : List Char := s.toList.takeWhile (· ≠ '\x00')

def decimalDigit (c : Char) : Option Nat :=
  if '0' ≤ c ∧ c ≤ '9' then some (c.toNat - '0'.toNat) else none

/-- One octet: one to three decimal digits, at most 255, no leading zero. -/
def octet (digits : List Char) : Option Nat :=
  match digits.mapM decimalDigit with
  | some [a] => some a
  | some [a, b] => if a ≠ 0 then some (10 * a + b) else none
  | some [a, b, c] =>
    if a ≠ 0 ∧ 100 * a + 10 * b + c ≤ 255 then some (100 * a + 10 * b + c) else none
  | _ => none

/-- `inet_pton(AF_INET, …)`, with the address in host order. -/
def inetPton (text : List Char) : Option (BitVec 32) :=
  match (text.splitOn '.').mapM octet with
  | some [a, b, c, d] => some (BitVec.ofNat 32 (((a * 256 + b) * 256 + c) * 256 + d))
  | _ => none

def interfaceChar (c : Char) : Bool :=
  ('a' ≤ c && c ≤ 'z') || ('A' ≤ c && c ≤ 'Z') || ('0' ≤ c && c ≤ '9') ||
    c == '_' || c == '-' || c == '.'

def validInterface (name : String) : Bool :=
  if name.isEmpty || name.length > 15 || name == "." || name == ".." then false
  else name.toList.all interfaceChar

def unicastIpv4 (value : String) : Bool :=
  match inetPton (cStr value) with
  | none => false
  | some host =>
    let first := host >>> 24
    !value.toList.contains '\x00' && (first != 0#32 && first != 127#32 && first < 224#32)

def hexDigit (c : Char) : Option Nat :=
  if '0' ≤ c ∧ c ≤ '9' then some (c.toNat - '0'.toNat)
  else if 'a' ≤ c ∧ c ≤ 'f' then some (c.toNat - 'a'.toNat + 10)
  else if 'A' ≤ c ∧ c ≤ 'F' then some (c.toNat - 'A'.toNat + 10)
  else none

/-- `from_chars(start, start + 2, …, 16)` that consumes both characters. -/
def fromChars16 : List Char → Option Nat
  | [a, b] => do return 16 * (← hexDigit a) + (← hexDigit b)
  | _ => none

/-- Byte `i` of a MAC text, with the separator that follows it. -/
def macByte (value : List Char) (i : Nat) : Option Nat :=
  let start := value.drop (i * 3)
  match fromChars16 (start.take 2) with
  | some byte => if i < 5 ∧ start[2]? ≠ some ':' then none else some byte
  | none => none

def unicastMac (value : String) : Bool :=
  if value.length ≠ 17 then false
  else
    match (List.range 6).mapM (macByte value.toList) with
    | some bytes => bytes.any (· ≠ 0) && bytes.head?.any (· % 2 = 0)
    | none => false

/-- A shift of a 32-bit word by its width or more, which the language leaves undefined. -/
structure UndefinedShift where
  amount : UInt32
  deriving DecidableEq, Repr

/-- A computation with shifts. It keeps the amounts, and an undefined one ends it. -/
abbrev Shifting (α : Type) : Type := StateT (List UInt32) (Except UndefinedShift) α

@[simp] theorem Shifting.pure_run {α : Type} (a : α) (amounts : List UInt32) :
    (pure a : Shifting α) amounts = .ok (a, amounts) := rfl

theorem Shifting.bind_run {α β : Type} (m : Shifting α) (f : α → Shifting β)
    (amounts : List UInt32) :
    (m >>= f) amounts = (m amounts).bind fun found => f found.1 found.2 := rfl

/-- `word << amount`. -/
def shiftLeft (word : BitVec 32) (amount : UInt32) : Shifting (BitVec 32) := fun amounts =>
  if amount < 32 then .ok (word <<< amount.toNat, amounts ++ [amount]) else .error ⟨amount⟩

/-- What a computation yields, none when a shift is undefined. -/
def Shifting.result {α : Type} (m : Shifting α) : Option α := (m []).toOption.map Prod.fst

/-- `0xffffffffU << (32 - prefix)`, for an unsigned prefix. -/
def prefixMask (prefixLength : UInt32) : Shifting (BitVec 32) :=
  shiftLeft 0xffffffff#32 (32 - prefixLength)

/-- The mask of a prefix that has one. -/
def netmask (prefixLength : UInt32) : BitVec 32 := 0xffffffff#32 <<< (32 - prefixLength.toNat)

theorem prefixMask_run {prefixLength : UInt32} (h : 1 ≤ prefixLength.toNat ∧ prefixLength.toNat ≤ 32)
    (amounts : List UInt32) : prefixMask prefixLength amounts =
      .ok (netmask prefixLength, amounts ++ [32 - prefixLength]) := by
  have h32 : (32 : UInt32).toNat = 32 := rfl
  have hle : prefixLength ≤ 32 := by
    rw [UInt32.le_iff_toNat_le, h32]
    exact h.2
  have hamount : (32 - prefixLength).toNat = 32 - prefixLength.toNat := by
    rw [UInt32.toNat_sub_of_le _ _ hle, h32]
  have hdefined : 32 - prefixLength < 32 := by
    rw [UInt32.lt_iff_toNat_lt, hamount, h32]
    omega
  simp only [prefixMask, shiftLeft, if_pos hdefined, hamount, netmask]

theorem prefixMask_ok {prefixLength : UInt32} {amounts later : List UInt32} {mask : BitVec 32}
    (h : prefixMask prefixLength amounts = .ok (mask, later)) : mask = netmask prefixLength := by
  have h32 : (32 : UInt32).toNat = 32 := rfl
  by_cases hrange : 1 ≤ prefixLength.toNat ∧ prefixLength.toNat ≤ 32
  · rw [prefixMask_run hrange] at h
    cases h
    rfl
  · -- The subtraction wraps, or the shift is by the whole width.
    have hundefined : ¬ 32 - prefixLength < 32 := by
      have hbound := prefixLength.toNat_lt
      rw [UInt32.lt_iff_toNat_lt, UInt32.toNat_sub, h32]
      omega
    unfold prefixMask shiftLeft at h
    rw [if_neg hundefined] at h
    cases h

/-- The address a validated text denotes. -/
def host (text : String) : BitVec 32 := (inetPton (cStr text)).getD 0

def usable (address mask : BitVec 32) : Bool :=
  (address &&& ~~~mask) != 0 && (address &&& ~~~mask) != ~~~mask

/-- The checks on the address plan. -/
def subnetErrors (c : NetworkConfig) (innerMask outerMask : BitVec 32) : List String :=
  let inner := host c.innerGatewayIpv4
  let device := host c.deviceIpv4
  let outer := host c.outerIpv4
  let gateway := host c.outerGatewayIpv4
  let commonMask := if c.innerPrefix < c.outerPrefix then innerMask else outerMask
  (if !usable inner innerMask || !usable device innerMask ||
      !usable outer outerMask || !usable gateway outerMask
    then ["Network and broadcast addresses are not usable hosts"] else []) ++
  (if (inner &&& innerMask) != (device &&& innerMask)
    then ["Device must be on the inner gateway subnet"] else []) ++
  (if (outer &&& outerMask) != (gateway &&& outerMask)
    then ["Outer gateway must be on the outer subnet"] else []) ++
  (if (inner &&& commonMask) == (outer &&& commonMask)
    then ["Inner and outer subnets must not overlap"] else [])

/-- The checks of each field on its own. -/
def fieldErrors (c : NetworkConfig) : List String :=
  (if !validInterface c.outerInterface then ["Invalid outer interface name"] else []) ++
  (if !validInterface c.innerInterface then ["Invalid inner interface name"] else []) ++
  (if c.outerInterface == c.innerInterface then ["Interfaces must be distinct"] else []) ++
  [c.deviceIpv4, c.innerGatewayIpv4, c.outerIpv4, c.outerGatewayIpv4].flatMap (fun value =>
    if !unicastIpv4 value then ["Expected a unicast IPv4 address: " ++ value] else []) ++
  (if c.innerPrefix < 1 || c.innerPrefix > 30 || c.outerPrefix < 1 || c.outerPrefix > 30
    then ["This initial routed topology supports prefixes 1 through 30"] else []) ++
  (if c.deviceIpv4 == c.innerGatewayIpv4
    then ["Device and inner gateway addresses must differ"] else []) ++
  (if c.outerIpv4 == c.outerGatewayIpv4
    then ["Outer address and gateway must differ"] else []) ++
  (if !unicastMac c.outerMac then ["Expected a nonzero unicast MAC address"] else []) ++
  (match c.vlanId with
    | some id => if id < 1 || id > 4094 then ["VLAN ID must be 1 through 4094, or absent"] else []
    | none => [])

/-- `validate`, with its shifts: the address plan is looked at, and the masks are computed, only
when every other check passed. -/
def checkConfig (c : NetworkConfig) : Shifting (List String) := do
  let errors := fieldErrors c
  if errors.isEmpty then do
    let innerMask ← prefixMask c.innerPrefix
    let outerMask ← prefixMask c.outerPrefix
    return subnetErrors c innerMask outerMask
  else return errors

/-- `validate`: the error texts, in order; no text means the configuration is accepted. -/
def validate (c : NetworkConfig) : List String := (checkConfig c).result.getD []

def exampleConfig : NetworkConfig where
  outerInterface := "outer0"
  innerInterface := "inner0"
  deviceIpv4 := "10.0.0.5"
  innerGatewayIpv4 := "10.0.0.1"
  innerPrefix := 24
  outerIpv4 := "192.168.50.99"
  outerPrefix := 24
  outerGatewayIpv4 := "192.168.50.1"
  outerMac := "02:11:22:33:44:55"
  vlanId := some 100

/-- The configuration of core_tests.cpp passes. -/
theorem validate_exampleConfig : validate exampleConfig = [] := by decide

theorem prefixes_iff (p q : UInt32) :
    ¬ (p < 1 || p > 30 || q < 1 || q > 30) = true ↔
      (1 ≤ p.toNat ∧ p.toNat ≤ 30) ∧ 1 ≤ q.toNat ∧ q.toNat ≤ 30 := by
  have h1 : (1 : UInt32).toNat = 1 := rfl
  have h30 : (30 : UInt32).toNat = 30 := rfl
  simp only [Bool.or_eq_true, decide_eq_true_eq, gt_iff_lt, UInt32.lt_iff_toNat_lt, h1, h30]
  omega

/-- The checks on the prefixes come before the masks. -/
theorem prefixes_of_fieldErrors {c : NetworkConfig} (h : fieldErrors c = []) :
    (1 ≤ c.innerPrefix.toNat ∧ c.innerPrefix.toNat ≤ 30) ∧
      1 ≤ c.outerPrefix.toNat ∧ c.outerPrefix.toNat ≤ 30 := by
  unfold fieldErrors at h
  simp only [List.append_eq_nil_iff] at h
  refine (prefixes_iff c.innerPrefix c.outerPrefix).mp fun hbad => ?_
  rw [if_pos hbad] at h
  simp at h

/-- Every shift is defined, whatever the configuration. -/
theorem checkConfig_run (c : NetworkConfig) (amounts : List UInt32) :
    checkConfig c amounts =
      if fieldErrors c = [] then
        .ok (subnetErrors c (netmask c.innerPrefix) (netmask c.outerPrefix),
          amounts ++ [32 - c.innerPrefix] ++ [32 - c.outerPrefix])
      else .ok (fieldErrors c, amounts) := by
  unfold checkConfig
  by_cases h : fieldErrors c = []
  · obtain ⟨hinner, houter⟩ := prefixes_of_fieldErrors h
    have hfirst : prefixMask c.innerPrefix amounts = _ := prefixMask_run (by omega) amounts
    have hsecond : prefixMask c.outerPrefix (amounts ++ [32 - c.innerPrefix]) = _ :=
      prefixMask_run (by omega) _
    simp only [h, List.isEmpty_nil, if_true, Shifting.bind_run, hfirst, hsecond, Except.bind,
      Shifting.pure_run]
  · have hsome : (fieldErrors c).isEmpty = false := by simpa using h
    simp only [hsome, Bool.false_eq_true, if_false, if_neg h]
    rfl

theorem validate_eq (c : NetworkConfig) : validate c =
    if fieldErrors c = [] then subnetErrors c (netmask c.innerPrefix) (netmask c.outerPrefix)
    else fieldErrors c := by
  rw [validate, Shifting.result, checkConfig_run]
  by_cases h : fieldErrors c = [] <;> simp [h, Except.toOption]

theorem fieldErrors_of_validate {c : NetworkConfig} (h : validate c = []) : fieldErrors c = [] := by
  rw [validate_eq] at h
  by_contra he
  rw [if_neg he] at h
  exact he h

/-- An accepted configuration names two different ports. -/
theorem interfaces_ne {c : NetworkConfig} (h : validate c = []) :
    c.outerInterface ≠ c.innerInterface := by
  have hf := fieldErrors_of_validate h
  simp only [fieldErrors, List.append_eq_nil_iff] at hf
  intro heq
  simp [heq] at hf

end Magicbox.Source.Config
