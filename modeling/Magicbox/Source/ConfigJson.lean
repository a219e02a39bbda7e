import Magicbox.Source.Json
import Magicbox.Source.Config

/-!
# Configuration conversion

json.cpp: `config_json` and `config_from_json`. The shape check runs over the
member names first, then the strings in a fixed order, the prefixes, the VLAN
and last the syntax check, so that each rejected value names its first fault.
-/

set_option autoImplicit false

namespace Magicbox.Source.ConfigJson
open Json Config

def vlanJson : Option UInt16 → Value
  | some id => .int id.toNat
  | none => .null

def configJson (c : NetworkConfig) : Value :=
  Value.null
    |>.set "outer_interface" (.string c.outerInterface)
    |>.set "inner_interface" (.string c.innerInterface)
    |>.set "device_ipv4" (.string c.deviceIpv4)
    |>.set "inner_gateway_ipv4" (.string c.innerGatewayIpv4)
    |>.set "inner_prefix" (.uint c.innerPrefix.toNat)
    |>.set "outer_ipv4" (.string c.outerIpv4)
    |>.set "outer_prefix" (.uint c.outerPrefix.toNat)
    |>.set "outer_gateway_ipv4" (.string c.outerGatewayIpv4)
    |>.set "outer_mac" (.string c.outerMac)
    |>.set "vlan_id" (vlanJson c.vlanId)

/-- The first member name that the documented shape does not have. -/
def unknownField (v : Value) : Option String :=
  v.getMemberNames.find? fun name => !(configJson {}).isMember name

def stringMember (v : Value) (name : String) : Except Exn String :=
  match v.get name with
  | .string s => .ok s
  | _ => .error (.invalidArgument ("Expected string: " ++ name))

def vlanMember (v : Value) : Except Exn (Option UInt16) :=
  if !v.isMember "vlan_id" then
    .error (.invalidArgument "vlan_id is required (null for untagged)")
  else if (v.get "vlan_id").isNull then .ok none
  else if !(v.get "vlan_id").isUInt then .error (.invalidArgument "Invalid VLAN ID")
  else do
    let id ← (v.get "vlan_id").asUInt
    if id > 4094 then .error (.invalidArgument "Invalid VLAN ID") else .ok (some id.toUInt16)

/-- The checks on the value as a whole: an object without unknown members. -/
def shapeCheck (v : Value) : Except Exn Unit :=
  if !v.isObject then .error (.invalidArgument "Configuration must be an object")
  else match unknownField v with
    | some name => .error (.invalidArgument ("Unknown field: " ++ name))
    | none => .ok ()

def prefixCheck (v : Value) : Except Exn Unit :=
  if !(v.get "inner_prefix").isUInt || !(v.get "outer_prefix").isUInt then
    .error (.invalidArgument "Prefixes must be unsigned integers")
  else .ok ()

/-- The last check: all error texts of `validate` in one message. -/
def validated (c : NetworkConfig) : Except Exn NetworkConfig :=
  match validate c with
  | [] => .ok c
  | errors => .error (.invalidArgument (String.join (errors.map (· ++ "; "))))

def configFromJson (v : Value) : Except Exn NetworkConfig := do
  shapeCheck v
  let outerInterface ← stringMember v "outer_interface"
  let innerInterface ← stringMember v "inner_interface"
  let deviceIpv4 ← stringMember v "device_ipv4"
  let innerGatewayIpv4 ← stringMember v "inner_gateway_ipv4"
  let outerIpv4 ← stringMember v "outer_ipv4"
  let outerGatewayIpv4 ← stringMember v "outer_gateway_ipv4"
  let outerMac ← stringMember v "outer_mac"
  prefixCheck v
  let innerPrefix ← (v.get "inner_prefix").asUInt
  let outerPrefix ← (v.get "outer_prefix").asUInt
  let vlanId ← vlanMember v
  validated
    { outerInterface, innerInterface, deviceIpv4, innerGatewayIpv4,
      innerPrefix := innerPrefix.toUInt32, outerIpv4, outerPrefix := outerPrefix.toUInt32,
      outerGatewayIpv4, outerMac, vlanId }

theorem configJson_isObject (c : NetworkConfig) : (configJson c).isObject = true := by
  simp [configJson]

theorem configJson_members (c : NetworkConfig) :
    (configJson c).getMemberNames = (configJson {}).getMemberNames := by
  rfl

theorem unknownField_configJson (c : NetworkConfig) : unknownField (configJson c) = none := by
  unfold unknownField
  rw [configJson_members]
  decide

theorem validVlan {c : NetworkConfig} (h : validate c = []) {id : UInt16}
    (hid : c.vlanId = some id) :
    id.toNat ≤ 4094 := by
  have hf := fieldErrors_of_validate h
  simp only [fieldErrors, List.append_eq_nil_iff] at hf
  have hv := hf.2
  simp only [hid] at hv
  by_contra hgt
  have : id > 4094 := by
    rw [gt_iff_lt, UInt16.lt_iff_toNat_lt]
    simpa using hgt
  simp [this] at hv

theorem vlanMember_configJson (c : NetworkConfig) :
    vlanMember (configJson c) =
      if ∃ id, c.vlanId = some id ∧ 4094 < id.toNat then
        .error (.invalidArgument "Invalid VLAN ID")
      else .ok c.vlanId := by
  have hmem : (configJson c).isMember "vlan_id" = true := rfl
  have hget : (configJson c).get "vlan_id" = vlanJson c.vlanId := rfl
  unfold vlanMember
  rw [hmem, hget]
  cases hid : c.vlanId with
  | none => simp [vlanJson, Value.isNull]
  | some id =>
    have hmax : (id.toNat : Int) ≤ Value.maxUInt := by
      have hbound := id.toNat_lt
      simp only [Value.maxUInt]
      omega
    simp only [vlanJson, Value.isNull, Value.isUInt, Value.asUInt, Int.natCast_nonneg, hmax,
      and_self, if_true, decide_true, Bool.and_self, Bool.not_true, Bool.false_eq_true, if_false,
      Int.toNat_natCast, bind, Except.bind]
    by_cases hgt : 4094 < id.toNat <;> simp [hgt]

/-- On a converted configuration everything but the VLAN range and the syntax
check goes through. -/
theorem configFromJson_configJson_eq (c : NetworkConfig) :
    configFromJson (configJson c) =
      if ∃ id, c.vlanId = some id ∧ 4094 < id.toNat then
        .error (.invalidArgument "Invalid VLAN ID")
      else validated c := by
  have hinner : c.innerPrefix.toNat ≤ Value.maxUInt := Nat.le_of_lt_succ c.innerPrefix.toNat_lt
  have houter : c.outerPrefix.toNat ≤ Value.maxUInt := Nat.le_of_lt_succ c.outerPrefix.toNat_lt
  have hi : (configJson c).get "inner_prefix" = .uint c.innerPrefix.toNat := rfl
  have ho : (configJson c).get "outer_prefix" = .uint c.outerPrefix.toNat := rfl
  have hshape : shapeCheck (configJson c) = .ok () := by
    simp [shapeCheck, configJson_isObject, unknownField_configJson]
  have hprefix : prefixCheck (configJson c) = .ok () := by
    simp [prefixCheck, hi, ho, Value.isUInt, hinner, houter]
  have hstr : stringMember (configJson c) "outer_interface" = .ok c.outerInterface ∧
      stringMember (configJson c) "inner_interface" = .ok c.innerInterface ∧
      stringMember (configJson c) "device_ipv4" = .ok c.deviceIpv4 ∧
      stringMember (configJson c) "inner_gateway_ipv4" = .ok c.innerGatewayIpv4 ∧
      stringMember (configJson c) "outer_ipv4" = .ok c.outerIpv4 ∧
      stringMember (configJson c) "outer_gateway_ipv4" = .ok c.outerGatewayIpv4 ∧
      stringMember (configJson c) "outer_mac" = .ok c.outerMac :=
    ⟨rfl, rfl, rfl, rfl, rfl, rfl, rfl⟩
  obtain ⟨h1, h2, h3, h4, h5, h6, h7⟩ := hstr
  unfold configFromJson
  rw [vlanMember_configJson]
  simp only [hshape, hprefix, h1, h2, h3, h4, h5, h6, h7, hi, ho, Value.asUInt, hinner, houter,
    bind, Except.bind, if_true]
  by_cases hvlan : ∃ id, c.vlanId = some id ∧ 4094 < id.toNat
  · rw [if_pos hvlan, if_pos hvlan]
  · rw [if_neg hvlan, if_neg hvlan]
    simp

/-- A validated configuration survives the conversion to JSON and back. -/
theorem configFromJson_configJson {c : NetworkConfig} (h : validate c = []) :
    configFromJson (configJson c) = .ok c := by
  have hvlan : ¬ ∃ id, c.vlanId = some id ∧ 4094 < id.toNat := by
    rintro ⟨id, hid, hgt⟩
    have := validVlan h hid
    omega
  rw [configFromJson_configJson_eq, if_neg hvlan, validated, h]

/-- Whatever passes the last check satisfies `validate`. -/
theorem validated_ok {c c' : NetworkConfig} (h : validated c = .ok c') :
    c' = c ∧ validate c = [] := by
  unfold validated at h
  split at h
  · next hv => cases h; exact ⟨rfl, hv⟩
  · cases h

/-- Conversion never turns one configuration into another, and accepts only
what the syntax check accepts. -/
theorem configFromJson_configJson_ok {c c' : NetworkConfig}
    (h : configFromJson (configJson c) = .ok c') : c' = c ∧ validate c = [] := by
  rw [configFromJson_configJson_eq] at h
  split at h
  · cases h
  · exact validated_ok h

end Magicbox.Source.ConfigJson
