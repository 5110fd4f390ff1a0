import FlowProbe.Net.Ipv4

/-! Subnets in CIDR notation.

A subnet is an address and the number of leading bits that its members share; the bits
behind them are zero. `ofCidr` reads the notation and says which of its five rules a text
breaks first. -/
namespace FlowProbe

structure Subnet where
  address : Ipv4
  bits : Nat
  bits_le : bits ≤ 32 := by omega
  host_zero : address.word.toNat % 1 <<< (32 - bits) = 0 := by decide
  deriving DecidableEq, Repr

/-- Why a text is no subnet. -/
inductive SubnetFault where
  | noMask
  | address
  | mask
  | maskTooLong
  | hostBits
  deriving DecidableEq, Repr

def SubnetFault.message : SubnetFault → String
  | .noMask => "invalid format"
  | .address => "invalid IP address syntax"
  | .mask => "invalid netmask format"
  | .maskTooLong => "invalid netmask"
  | .hostBits => "IP network address has host bits set"

namespace Subnet

/-- The members agree with the address in the leading bits. -/
def contains (s : Subnet) (ip : Ipv4) : Bool :=
  ip.word.toNat >>> (32 - s.bits) = s.address.word.toNat >>> (32 - s.bits)

def cidr (s : Subnet) : String :=
  s.address.dotted ++ "/" ++ String.ofList (Numeral.render s.bits)

/-- A mask length is a number below 256; a plus sign may lead it. -/
def maskLength? (cs : List Char) : Option Nat :=
  let digits := match cs with
    | '+' :: rest => rest
    | _ => cs
  match Numeral.value? digits with
  | some n => if n < 256 then some n else none
  | none => none

def make (address : Ipv4) (bits : Nat) : Except SubnetFault Subnet :=
  if hb : bits ≤ 32 then
    if hz : address.word.toNat % 1 <<< (32 - bits) = 0 then .ok ⟨address, bits, hb, hz⟩
    else .error .hostBits
  else .error .maskTooLong

/-- Reads an address and a mask length around the first slash, on both sides of which something
must stand. -/
def ofCidr (text : String) : Except SubnetFault Subnet :=
  match text.toList.span (· != '/') with
  | (_, []) => .error .noMask
  | (_, [_]) => .error .noMask
  | ([], _) => .error .noMask
  | (before, _ :: after) =>
    match Ipv4.ofDotted? (String.ofList before) with
    | none => .error .address
    | some address =>
      match maskLength? after with
      | none => .error .mask
      | some bits => make address bits

end Subnet

end FlowProbe
