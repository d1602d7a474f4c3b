import ReplicaRing.Order

/-!
# Endpoints

An endpoint is the network address that a node is reached at: an IPv4 or IPv6 address with a
port, an IPv6 address with the scope that it is valid in. Every IPv4 endpoint comes before every
IPv6 endpoint; within a family the address decides, then the port, then the scope.
-/

namespace ReplicaRing

/-- An address, a port and, for IPv6, a scope. -/
inductive Endpoint
  | v4 (address : BitVec 32) (port : UInt16)
  | v6 (address : BitVec 128) (port : UInt16) (scope : UInt32)
  deriving DecidableEq

namespace Endpoint

/-- The port between nodes where none is given. -/
def defaultPort : UInt16 := 7000

def port : Endpoint → UInt16
  | v4 _ port => port
  | v6 _ port _ => port

/-- The place of an endpoint in the order of endpoints. -/
def rank : Endpoint → Nat
  | v4 address port => address.toNat * 0x10000 + port.toNat
  | v6 address port scope =>
    0x1000000000000 + (address.toNat * 0x10000 + port.toNat) * 0x100000000 + scope.toNat

theorem rank_inj {a b : Endpoint} (h : a.rank = b.rank) : a = b := by
  cases a with
  | v4 address port =>
    cases b with
    | v4 address' port' =>
      have hp := port.toNat_lt
      have hp' := port'.toNat_lt
      simp only [rank] at h
      rw [v4.injEq, ← BitVec.toNat_inj, ← UInt16.toNat_inj]
      omega
    | v6 address' port' scope' =>
      have ha := address.isLt
      have hp := port.toNat_lt
      simp only [rank] at h
      omega
  | v6 address port scope =>
    cases b with
    | v4 address' port' =>
      have ha := address'.isLt
      have hp := port'.toNat_lt
      simp only [rank] at h
      omega
    | v6 address' port' scope' =>
      have hp := port.toNat_lt
      have hp' := port'.toNat_lt
      have hs := scope.toNat_lt
      have hs' := scope'.toNat_lt
      simp only [rank] at h
      rw [v6.injEq, ← BitVec.toNat_inj, ← UInt16.toNat_inj, ← UInt32.toNat_inj]
      omega

instance : LE Endpoint := ⟨fun a b => a.rank ≤ b.rank⟩
instance : LT Endpoint := ⟨fun a b => a.rank < b.rank⟩
instance : DecidableLE Endpoint := fun a b => inferInstanceAs (Decidable (a.rank ≤ b.rank))
instance : DecidableLT Endpoint := fun a b => inferInstanceAs (Decidable (a.rank < b.rank))

instance : Std.IsLinearOrder Endpoint :=
  isLinearOrder_of_key rank (fun _ _ => rank_inj) fun _ _ => Iff.rfl

instance : Std.LawfulOrderLT Endpoint :=
  lawfulOrderLT_of_key rank (fun _ _ => Iff.rfl) fun _ _ => Iff.rfl

end Endpoint

end ReplicaRing
