import ReplicaRing.Endpoint
import ReplicaRing.Text.Hex
import ReplicaRing.Text.Numeral

/-!
# Reading an endpoint

`parse?` reads an address with a port and `parseOrDefault?` also an address alone, which stands
for that address on the default port. The whole text has to be read.

An IPv4 address has four octets of up to three digits without leading zeros. An IPv6 address has
eight groups of up to four hexadecimal digits, of which `::` stands for one or more zero groups,
and may end in an IPv4 address in place of its last two groups.
-/

namespace ReplicaRing.Endpoint

open Text

/-- The digits at the start of a text: their value, their number, and the text after them. -/
def takeDigits (digit? : Char → Option Nat) (base acc count : Nat) :
    List Char → Nat × Nat × List Char
  | [] => (acc, count, [])
  | c :: cs =>
    match digit? c with
    | some d => takeDigits digit? base (base * acc + d) (count + 1) cs
    | none => (acc, count, c :: cs)

/-- A decimal number of any number of digits, not above `limit`. -/
def readNumber (limit : Nat) (cs : List Char) : Option (Nat × List Char) :=
  let (value, count, rest) := takeDigits digitValue? 10 0 0 cs
  if count = 0 ∨ limit < value then none else some (value, rest)

/-- One octet: at most three digits, no leading zero, not above 255. -/
def readOctet (cs : List Char) : Option (Nat × List Char) :=
  let (value, count, rest) := takeDigits digitValue? 10 0 0 cs
  if count = 0 ∨ 3 < count ∨ 255 < value then none
  else if 1 < count ∧ cs.head? = some '0' then none
  else some (value, rest)

/-- One group: at most four hexadecimal digits. -/
def readGroup (cs : List Char) : Option (Nat × List Char) :=
  let (value, count, rest) := takeDigits hexValue? 16 0 0 cs
  if count = 0 ∨ 4 < count then none else some (value, rest)

/-- The text after the character `c`. -/
def expect (c : Char) : List Char → Option (List Char)
  | [] => none
  | d :: cs => if d = c then some cs else none

/-- An IPv4 address as a number. -/
def readAddress4 (cs : List Char) : Option (Nat × List Char) := do
  let (a, cs) ← readOctet cs
  let (b, cs) ← readOctet (← expect '.' cs)
  let (c, cs) ← readOctet (← expect '.' cs)
  let (d, cs) ← readOctet (← expect '.' cs)
  some (((a * 256 + b) * 256 + c) * 256 + d, cs)

/-- Up to `room` groups with colons between them, and whether the last two were written as an
IPv4 address. Reading stops in front of what is no further group. -/
def readGroups (first : Bool) : Nat → List Char → List Nat × Bool × List Char
  | 0, cs => ([], false, cs)
  | room + 1, cs =>
    match if first then some cs else expect ':' cs with
    | none => ([], false, cs)
    | some body =>
      match if room = 0 then none else readAddress4 body with
      | some (address, rest) => ([address / 0x10000, address % 0x10000], true, rest)
      | none =>
        match readGroup body with
        | none => ([], false, cs)
        | some (group, rest) =>
          let (groups, embedded, rest) := readGroups false room rest
          (group :: groups, embedded, rest)

/-- The number that eight groups stand for. -/
def numberOfGroups (gs : List Nat) : Nat := gs.foldl (fun acc g => acc * 0x10000 + g) 0

/-- An IPv6 address as a number. -/
def readAddress6 (cs : List Char) : Option (Nat × List Char) :=
  let (front, embedded, rest) := readGroups true 8 cs
  if front.length = 8 then some (numberOfGroups front, rest)
  else if embedded then none
  else do
    let rest ← expect ':' (← expect ':' rest)
    let (back, _, rest) := readGroups true (7 - front.length) rest
    let zeros := List.replicate (8 - front.length - back.length) 0
    some (numberOfGroups (front ++ zeros ++ back), rest)

/-- The scope after a percent sign; zero, and nothing read, if there is none. -/
def readScope (cs : List Char) : Nat × List Char :=
  match (expect '%' cs).bind (readNumber 0xffffffff) with
  | some (scope, rest) => (scope, rest)
  | none => (0, cs)

/-- The port at the end of a text. -/
def readPort (cs : List Char) : Option UInt16 :=
  match (expect ':' cs).bind (readNumber 0xffff) with
  | some (port, []) => some port.toUInt16
  | _ => none

/-- Reads an address with a port. -/
def parse? (s : String) : Option Endpoint :=
  match expect '[' s.toList with
  | none => do
    let (address, rest) ← readAddress4 s.toList
    some (v4 (.ofNat 32 address) (← readPort rest))
  | some body => do
    let (address, rest) ← readAddress6 body
    let (scope, rest) := readScope rest
    let rest ← expect ']' rest
    some (v6 (.ofNat 128 address) (← readPort rest) scope.toUInt32)

/-- Reads an address without a port. -/
def parseAddress? (port : UInt16) (s : String) : Option Endpoint :=
  match readAddress4 s.toList, readAddress6 s.toList with
  | some (address, []), _ => some (v4 (.ofNat 32 address) port)
  | _, some (address, []) => some (v6 (.ofNat 128 address) port 0)
  | _, _ => none

/-- Reads an address with a port, or an address alone on the default port. -/
def parseOrDefault? (s : String) : Option Endpoint :=
  (parse? s).or (parseAddress? defaultPort s)

end ReplicaRing.Endpoint
