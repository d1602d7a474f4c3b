import ReplicaRing.Endpoint.Printer
import ReplicaRing.Node
import ReplicaRing.OrderedMap

/-!
# The registry of nodes

Nodes are registered one after the other; no two share an identity or an endpoint. The registry
keeps them in ascending order of their identities, and beside them an index by endpoint, in which a
newcomer's endpoint is looked up.

* `Registry.peers_get?`: the index holds exactly the endpoints of the nodes.
* `Registry.register` adds a node, or says what it collides with, and its endpoint to the index
  (`peers_insert`); `Registry.ofList` registers nodes in turn.
* `Registry.node?_eq_some_iff`: looking an identity up finds exactly its node.
* `Registry.endpointsWhere` lists the endpoints of some of the nodes.
-/

namespace ReplicaRing

/-- Nodes with distinct identities, and the identity of the one node at each of their endpoints. -/
structure Registry where
  nodes : List Node
  ascending : Ascending Node.id nodes
  peers : OrderedMap Endpoint NodeId
  peers_get? (e : Endpoint) (id : NodeId) :
    peers.get? e = some id ↔ ∃ n ∈ nodes, n.endpoint = e ∧ n.id = id

/-- Why a node cannot be registered. -/
inductive RegistrationError
  | endpointTaken (endpoint : Endpoint) (holder newcomer : NodeId)
  | registeredTwice (id : NodeId)
  deriving DecidableEq

def RegistrationError.message : RegistrationError → String
  | .endpointTaken endpoint holder newcomer =>
    "Invalid node: endpoint " ++ endpoint.text ++ " is registered to both " ++ holder.text ++
      " and " ++ newcomer.text
  | .registeredTwice id => "Invalid node: node " ++ id.text ++ " is registered twice"

namespace Registry

/-- The registry without nodes. -/
def empty : Registry where
  nodes := []
  ascending := .nil
  peers := ∅
  peers_get? e id := by simp

/-- The index is determined by the nodes. -/
theorem ext_nodes {r r' : Registry} (h : r.nodes = r'.nodes) : r = r' := by
  have hpeers : r.peers = r'.peers :=
    OrderedMap.ext_get? fun e => Option.ext fun id => by rw [r.peers_get?, r'.peers_get?, h]
  cases r
  cases r'
  cases h
  cases hpeers
  rfl

/-- No two nodes are at one endpoint. -/
theorem endpoints_nodup (r : Registry) : (r.nodes.map Node.endpoint).Nodup := by
  rw [List.nodup_iff_pairwise_ne, List.pairwise_map]
  refine r.ascending.imp_of_mem fun {m n} hm hn hlt he => ?_
  have hm' := (r.peers_get? n.endpoint m.id).2 ⟨m, hm, he, rfl⟩
  rw [(r.peers_get? n.endpoint n.id).2 ⟨n, hn, rfl, rfl⟩, Option.some.injEq] at hm'
  rw [hm'] at hlt
  exact Std.lt_irrefl hlt

/-- The node with this identity. -/
def node? (r : Registry) (id : NodeId) : Option Node := r.nodes.find? fun n => decide (n.id = id)

theorem node?_eq_some_iff {r : Registry} {id : NodeId} {n : Node} :
    r.node? id = some n ↔ n ∈ r.nodes ∧ n.id = id :=
  find?_key_eq_some_iff r.ascending.nodup

/-! ## Registration -/

theorem peers_get?_eq_none_iff {r : Registry} {e : Endpoint} :
    r.peers.get? e = none ↔ ∀ n ∈ r.nodes, n.endpoint ≠ e := by
  rw [Option.eq_none_iff_forall_ne_some]
  simp only [ne_eq, r.peers_get?, not_exists, not_and]
  exact ⟨fun h n hn he => h n.id n hn he rfl, fun h _ n hn he => absurd he (h n hn)⟩

/-- A new endpoint gets the identity of the node at it. -/
theorem peers_insert (r : Registry) {n : Node} (h : r.peers.get? n.endpoint = none) (e : Endpoint)
    (id : NodeId) : (r.peers.insert n.endpoint n.id).get? e = some id ↔
      ∃ m ∈ insertOn Node.id n r.nodes, m.endpoint = e ∧ m.id = id := by
  simp only [OrderedMap.get?_insert, mem_insertOn]
  by_cases he : e = n.endpoint
  · subst he
    simp only [if_true, Option.some.injEq]
    constructor
    · rintro rfl
      exact ⟨n, .inl rfl, rfl, rfl⟩
    · rintro ⟨m, rfl | hm, hme, hid⟩
      · exact hid
      · exact absurd hme (peers_get?_eq_none_iff.1 h m hm)
  · rw [if_neg he, r.peers_get?]
    constructor
    · rintro ⟨m, hm, hme⟩
      exact ⟨m, .inr hm, hme⟩
    · rintro ⟨m, rfl | hm, hme, hid⟩
      · exact absurd hme.symm he
      · exact ⟨m, hm, hme, hid⟩

/-- Adds a node. A taken endpoint is reported before a taken identity. -/
def register (r : Registry) (n : Node) : Except RegistrationError Registry :=
  match he : r.peers.get? n.endpoint with
  | some holder => .error (.endpointTaken n.endpoint holder n.id)
  | none =>
    match hi : r.node? n.id with
    | some _ => .error (.registeredTwice n.id)
    | none =>
      .ok
        { nodes := insertOn Node.id n r.nodes
          ascending := r.ascending.insertOn fun m hm => by
            simpa using List.find?_eq_none.1 hi m hm
          peers := r.peers.insert n.endpoint n.id
          peers_get? := r.peers_insert he }

/-- Registers nodes in turn; the first that collides with an earlier one is reported. -/
def ofList (nodes : List Node) : Except RegistrationError Registry := nodes.foldlM register empty

/-! ## Endpoints -/

/-- The endpoints of the nodes that pass a test, in ascending order. -/
def endpointsWhere (r : Registry) (p : Node → Bool) : List Endpoint :=
  ascendingSet ((r.nodes.filter p).map Node.endpoint)

theorem mem_endpointsWhere {r : Registry} {p : Node → Bool} {e : Endpoint} :
    e ∈ r.endpointsWhere p ↔ ∃ n ∈ r.nodes, p n = true ∧ n.endpoint = e := by
  simp [endpointsWhere, and_assoc]

/-- Endpoints are listed if there are nodes for them. -/
theorem endpointsWhere_ne_nil_iff {r : Registry} {p : Node → Bool} :
    r.endpointsWhere p ≠ [] ↔ ∃ n ∈ r.nodes, p n = true := by
  rw [← List.isEmpty_eq_false_iff, List.isEmpty_eq_false_iff_exists_mem]
  simp only [mem_endpointsWhere]
  constructor
  · rintro ⟨_, n, hn, hp, -⟩
    exact ⟨n, hn, hp⟩
  · rintro ⟨n, hn, hp⟩
    exact ⟨n.endpoint, n, hn, hp, rfl⟩

theorem ascending_endpointsWhere (r : Registry) (p : Node → Bool) :
    Ascending id (r.endpointsWhere p) :=
  ascendingSet_ascending _

end Registry

end ReplicaRing
