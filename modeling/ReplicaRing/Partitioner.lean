import ReplicaRing.Hash.Xxh3
import ReplicaRing.Token.Bytes
import ReplicaRing.Token.Long

/-!
# Partitioners

A partitioner turns the bytes of a key into the token that decides where the key lives.
-/

namespace ReplicaRing

/-- A named rule that turns keys into tokens. -/
structure Partitioner (T : Type) where
  name : String
  partition : List UInt8 → T

namespace Partitioner

/-- Spreads keys over the long tokens by their XXH3 hash, read as a signed number. -/
def hash : Partitioner LongToken where
  name := "HashPartitioner"
  partition key := ⟨(Xxh3.hash key).toInt64⟩

/-- Keeps the order of keys: the key is its own token. -/
def byteOrdered : Partitioner BytesToken where
  name := "ByteOrderedPartitioner"
  partition key := ⟨key⟩

end Partitioner

end ReplicaRing
