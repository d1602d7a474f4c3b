import ReplicaRing.Arc
import ReplicaRing.Ascending
import ReplicaRing.TokenRing.Walk
import ReplicaRing.VirtualNode

/-!
# The token ring

The ring of one cluster topology: virtual nodes in strictly ascending order of their tokens.
A token is served by the first virtual node at or after it, going past the end of the list back
to its start, so each virtual node owns the arc between its predecessor and itself.

* `ofList` sorts virtual nodes into a ring; it refuses two claims to one token.
* `ownerOf?_eq_some_iff`, `mem_tokensOf`, `mem_nodes`: who owns what.
* `firstIndex?`, `firstToken?`, `predecessor?` and `arcFor?` find what serves a token, and `arcs`
  lists the arcs of the whole ring.
* `walk` starts a walk at the node that serves a token.
-/

namespace ReplicaRing

/-- Virtual nodes in strictly ascending order of their tokens. -/
structure TokenRing (T : Type) [Token T] where
  vnodes : List (VirtualNode T)
  ascending : Ascending VirtualNode.token vnodes

/-- One token claimed twice, and the claimants. -/
structure TokenClash (T : Type) where
  token : T
  first : NodeId
  second : NodeId
  deriving DecidableEq

namespace TokenClash

variable {T : Type} [Token T]

def message (c : TokenClash T) : String :=
  "Ring operation failed: token " ++ Token.text c.token ++ " is claimed by both " ++
    c.first.text ++ " and " ++ c.second.text

/-- The first token in a sorted list that its neighbour repeats. -/
def find? : List (VirtualNode T) → Option (TokenClash T)
  | a :: b :: rest =>
    if a.token = b.token then some ⟨a.token, a.node, b.node⟩ else find? (b :: rest)
  | _ => none

theorem ascending_of_find?_eq_none {vs : List (VirtualNode T)}
    (hs : vs.Pairwise fun a b => a.token ≤ b.token) (hc : find? vs = none) :
    Ascending VirtualNode.token vs := by
  induction vs with
  | nil => exact .nil
  | cons a vs ih =>
    obtain ⟨ha, hs⟩ := List.pairwise_cons.1 hs
    cases vs with
    | nil => exact List.pairwise_singleton _ _
    | cons b vs =>
      rw [find?] at hc
      split at hc
      · cases hc
      · rename_i hne
        have hab : a.token < b.token := by
          have := ha b (.head _)
          grind
        have hasc := ih hs hc
        refine List.pairwise_cons.2 ⟨fun c hm => ?_, hasc⟩
        rcases List.mem_cons.1 hm with rfl | hm
        · exact hab
        · have : b.token < c.token := (List.pairwise_cons.1 hasc).1 c hm
          grind

end TokenClash

namespace TokenRing

variable {T : Type} [Token T]

/-- The ring without tokens. -/
def empty : TokenRing T := ⟨[], .nil⟩

instance : Inhabited (TokenRing T) := ⟨empty⟩

/-- Sorts virtual nodes into a ring. If a token is claimed more than once, the least such token
is reported with its first two claimants in the order of the list. -/
def ofList (vs : List (VirtualNode T)) : Except (TokenClash T) (TokenRing T) :=
  match h : TokenClash.find? (sortOn VirtualNode.token vs) with
  | some clash => .error clash
  | none =>
    .ok ⟨sortOn VirtualNode.token vs,
      TokenClash.ascending_of_find?_eq_none (sortOn_sorted _ vs) h⟩

/-! ## Contents -/

/-- The tokens in ascending order. -/
def tokens (r : TokenRing T) : List T := r.vnodes.map VirtualNode.token

/-- The owners of the tokens, in the order of the tokens. -/
def owners (r : TokenRing T) : List NodeId := r.vnodes.map VirtualNode.node

/-- The nodes that own tokens, in ascending order. -/
def nodes (r : TokenRing T) : List NodeId := ascendingSet r.owners

/-- The number of nodes that own tokens. -/
def nodeCount (r : TokenRing T) : Nat := r.owners.eraseDups.length

/-- The number of tokens. -/
def size (r : TokenRing T) : Nat := r.vnodes.length

def isEmpty (r : TokenRing T) : Bool := r.vnodes.isEmpty

/-- The owner of exactly this token. -/
def ownerOf? (r : TokenRing T) (t : T) : Option NodeId :=
  (r.vnodes.find? fun v => decide (v.token = t)).map VirtualNode.node

/-- The tokens of a node in ascending order. -/
def tokensOf (r : TokenRing T) (id : NodeId) : List T :=
  (r.vnodes.filter fun v => decide (v.node = id)).map VirtualNode.token

theorem vnodes_of_ofList {vs : List (VirtualNode T)} {r : TokenRing T} (h : ofList vs = .ok r) :
    r.vnodes = sortOn VirtualNode.token vs := by
  rw [ofList] at h
  split at h
  · cases h
  · cases h
    rfl

theorem ownerOf?_eq_some_iff {r : TokenRing T} {t : T} {id : NodeId} :
    r.ownerOf? t = some id ↔ ⟨t, id⟩ ∈ r.vnodes := by
  rw [ownerOf?, Option.map_eq_some_iff]
  constructor
  · rintro ⟨v, hv, rfl⟩
    obtain ⟨hm, rfl⟩ := (find?_key_eq_some_iff r.ascending.nodup).1 hv
    exact hm
  · exact fun h => ⟨⟨t, id⟩, (find?_key_eq_some_iff r.ascending.nodup).2 ⟨h, rfl⟩, rfl⟩

theorem mem_tokensOf {r : TokenRing T} {id : NodeId} {t : T} :
    t ∈ r.tokensOf id ↔ ⟨t, id⟩ ∈ r.vnodes := by
  simp only [tokensOf, List.mem_map, List.mem_filter, decide_eq_true_eq]
  constructor
  · rintro ⟨⟨t', id'⟩, ⟨hm, rfl⟩, rfl⟩
    exact hm
  · exact fun h => ⟨⟨t, id⟩, ⟨h, rfl⟩, rfl⟩

@[simp] theorem mem_nodes {r : TokenRing T} {id : NodeId} :
    id ∈ r.nodes ↔ ∃ v ∈ r.vnodes, v.node = id := by
  simp [nodes, owners]

/-! ## What serves a token -/

/-- The number of tokens below `t`. -/
def countBelow (r : TokenRing T) (t : T) : Nat :=
  (r.vnodes.takeWhile fun v => decide (v.token < t)).length

/-- The index of the first token at or after `t`, or the first index of the ring if all tokens
are below `t`; a ring without tokens has none. -/
def firstIndex? (r : TokenRing T) (t : T) : Option Nat :=
  if r.size = 0 then none
  else some (if r.countBelow t = r.size then 0 else r.countBelow t)

/-- The ring's token that serves `t`. -/
def firstToken? (r : TokenRing T) (t : T) : Option T :=
  (r.firstIndex? t).bind fun i => r.tokens[i]?

/-- The token before the one that serves `t`. -/
def predecessor? (r : TokenRing T) (t : T) : Option T :=
  (r.firstIndex? t).bind fun i => r.tokens[(i + r.size - 1) % r.size]?

/-- The arc that `t` lies on. -/
def arcFor? (r : TokenRing T) (t : T) : Option (Arc T) := do
  some ⟨← r.predecessor? t, ← r.firstToken? t⟩

/-- The arcs that end at the listed tokens, the first of them starting at `left`. -/
def arcsFrom (left : T) : List T → List (Arc T)
  | [] => []
  | t :: rest => ⟨left, t⟩ :: arcsFrom t rest

/-- The arcs between neighbouring tokens, by right end; the first starts at the last token. -/
def arcs (r : TokenRing T) : List (Arc T) :=
  match r.tokens.getLast? with
  | none => []
  | some last => arcsFrom last r.tokens

/-- The walk that starts at the node that serves `t`. -/
def walk (r : TokenRing T) (t : T) : Walk :=
  Walk.start r.owners ((r.firstIndex? t).getD 0) r.nodeCount

end TokenRing

end ReplicaRing
