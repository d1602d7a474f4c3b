import ReplicaRing.Endpoint
import ReplicaRing.Text.Hex
import ReplicaRing.Text.Numeral

/-!
# The text of an endpoint

IPv4 addresses are four decimal octets. IPv6 addresses are eight hexadecimal groups, of which
the first longest run of two or more zero groups is written `::`; an address that carries an
IPv4 address is written with it. The port follows a colon, and an IPv6 address stands in
brackets together with its scope if that is not zero.
-/

namespace ReplicaRing.Endpoint

open Text

/-- The four octets of an IPv4 address, from the left. -/
def octets (address : BitVec 32) : List Nat :=
  [24, 16, 8, 0].map fun shift => (address.toNat >>> shift) % 0x100

/-- The eight groups of an IPv6 address, from the left. -/
def groups (address : BitVec 128) : List Nat :=
  [112, 96, 80, 64, 48, 32, 16, 0].map fun shift => (address.toNat >>> shift) % 0x10000

/-- The text of an IPv4 address. -/
def addressText4 (address : BitVec 32) : List Char :=
  ['.'].intercalate ((octets address).map writeCount)

/-- Groups in hexadecimal, with colons between them. -/
def groupsText (gs : List Nat) : List Char := [':'].intercalate (gs.map hexPlain)

/-- The number of zeros at the start of a list. -/
def leadingZeros (gs : List Nat) : Nat := (gs.takeWhile (· == 0)).length

/-- Where the first longest run of zeros starts, and its length. -/
def longestZeroRun (gs : List Nat) : Nat × Nat :=
  (List.range gs.length).foldl
    (fun best start =>
      let length := leadingZeros (gs.drop start)
      if best.2 < length then (start, length) else best)
    (0, 0)

/-- The text of an IPv6 address. -/
def addressText6 (address : BitVec 128) : List Char :=
  if address.toNat >>> 32 = 0xffff then
    "::ffff:".toList ++ addressText4 (address.setWidth 32)
  else
    let gs := groups address
    let (start, length) := longestZeroRun gs
    if 1 < length then
      groupsText (gs.take start) ++ "::".toList ++ groupsText (gs.drop (start + length))
    else groupsText gs

/-- The text of an endpoint. -/
def text : Endpoint → String
  | v4 address port =>
    String.ofList (addressText4 address ++ ':' :: writeCount port.toNat)
  | v6 address port scope =>
    let zone := if scope = 0 then [] else '%' :: writeCount scope.toNat
    String.ofList
      ('[' :: addressText6 address ++ zone ++ ']' :: ':' :: writeCount port.toNat)

end ReplicaRing.Endpoint
