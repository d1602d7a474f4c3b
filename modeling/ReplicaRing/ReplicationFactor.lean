import ReplicaRing.Text.Blank
import ReplicaRing.Text.Numeral
import ReplicaRing.Text.Quoted

/-!
# Replication factors

How many copies to keep: full replicas, and transient ones that only bridge repairs. There are
no transient replicas without full ones. A factor is written `N`, or `N/M` with `M` transient
replicas, blanks around both numbers aside.

* `ReplicationFactor.parse` and `ReplicationFactor.text` read and write that form.
-/

namespace ReplicaRing

/-- A number of full and of transient replicas. Only 64-bit counts are read for either; sums are not
bounded here, and taken to stay below `2 ^ 64` as well. -/
structure ReplicationFactor where
  full : Nat
  transient : Nat
  transient_eq_zero : full = 0 → transient = 0
  deriving DecidableEq

/-- Why a replication factor is refused. -/
inductive FactorError
  | malformed (spec : String) (reason : Text.NumeralError)
  | transientWithoutFull (full transient : Nat)
  deriving DecidableEq

namespace FactorError

def message : FactorError → String
  | malformed spec reason =>
    "invalid replication factor " ++ Text.quote spec ++ ": " ++ reason.message
  | transientWithoutFull full transient =>
    "replication factor " ++ Text.quote (Text.decimal full ++ "/" ++ Text.decimal transient) ++
      " has transient replicas but no full replicas"

end FactorError

namespace ReplicationFactor

/-- No replicas at all. -/
def zero : ReplicationFactor := ⟨0, 0, fun _ => rfl⟩

/-- Full replicas only. -/
def ofFull (full : Nat) : ReplicationFactor := ⟨full, 0, fun _ => rfl⟩

/-- Full and transient replicas; transient ones need full ones beside them. -/
def withTransient (full transient : Nat) : Except FactorError ReplicationFactor :=
  if h : full = 0 → transient = 0 then .ok ⟨full, transient, h⟩
  else .error (.transientWithoutFull full transient)

/-- The number of replicas of either kind, which is taken to be below `2 ^ 64`. -/
def all (f : ReplicationFactor) : Nat := f.full + f.transient

def hasTransient (f : ReplicationFactor) : Bool := decide (0 < f.transient)

/-- The replicas of both factors together, which are taken to be below `2 ^ 64` in number. -/
def add (f g : ReplicationFactor) : ReplicationFactor :=
  ⟨f.full + g.full, f.transient + g.transient, fun h => by
    have := f.transient_eq_zero
    have := g.transient_eq_zero
    omega⟩

instance : Add ReplicationFactor := ⟨add⟩

/-- The replicas of all listed factors together. -/
def sum (fs : List ReplicationFactor) : ReplicationFactor := fs.foldl add zero

/-! ## Text -/

/-- The text of a factor; transient replicas are shown if there are any. -/
def text (f : ReplicationFactor) : String :=
  if f.transient = 0 then Text.decimal f.full
  else Text.decimal f.full ++ "/" ++ Text.decimal f.transient

/-- Reads one of the numbers in `spec`. -/
def readPart (spec : String) (part : List Char) : Except FactorError Nat :=
  (Text.readCount (Text.trim part)).mapError (.malformed spec)

/-- Reads a factor. The first slash separates the two numbers. -/
def parse (spec : String) : Except FactorError ReplicationFactor :=
  let cs := Text.trim spec.toList
  match cs.dropWhile (· != '/') with
  | [] => (readPart spec cs).map ofFull
  | _ :: transient => do
    let full ← readPart spec (cs.takeWhile (· != '/'))
    let transient ← readPart spec transient
    withTransient full transient

end ReplicationFactor

end ReplicaRing
