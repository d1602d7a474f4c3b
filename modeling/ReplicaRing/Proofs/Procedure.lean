import ReplicaRing.Placement.RackAware
import ReplicaRing.Proofs.Preference

/-!
# Placement over the whole ring, step by step

The rules of placement by quotas, said without any counter or early end. A procedure visits every
node of a walk. For each datacenter it keeps the nodes placed, the set of racks seen and the nodes
skipped; which replicas are transient is decided when all nodes have been visited.

* `Ledger.consider`: what becomes of one node of a datacenter.
* `procedure`: the run over all nodes, and `Run.replicas` the replicas that it gives.
* `Follows`: at any time, the nodes placed are the first of the eligible ones. It is kept by
  `Ledger.consider` (`Follows.consider`), hence by the run (`follows_procedure`).
* `filter_order_procedure`: the common order holds the nodes of each datacenter in its own order.
-/

namespace ReplicaRing.Placement

/-- What is kept of one datacenter. -/
structure Ledger where
  placed : List Node
  seenRacks : Finset String
  skipped : List Node

namespace Ledger

def empty : Ledger := ⟨[], ∅, []⟩

/-- Considers a node of a datacenter that has these racks and gets `need` replicas. -/
def consider (racks : Finset String) (need : Nat) (l : Ledger) (n : Node) : Ledger :=
  if need ≤ l.placed.length then l
  else if l.seenRacks = racks then { l with placed := l.placed ++ [n] }
  else if n.rack ∉ l.seenRacks then
    let placed := l.placed ++ [n]
    let seenRacks := insert n.rack l.seenRacks
    if seenRacks = racks then
      let room := need - placed.length
      { placed := placed ++ l.skipped.take room, seenRacks, skipped := l.skipped.drop room }
    else { l with placed, seenRacks }
  else { l with skipped := l.skipped ++ [n] }

section
variable {racks : Finset String} {need : Nat} {l : Ledger} {n : Node}

/-! A node is ignored, placed, skipped, or placed on a new rack. -/

theorem consider_of_met (h : need ≤ l.placed.length) : l.consider racks need n = l := if_pos h

theorem consider_of_seen (h : l.placed.length < need) (hc : l.seenRacks = racks) :
    l.consider racks need n = { l with placed := l.placed ++ [n] } := by
  rw [consider, if_neg (by omega), if_pos hc]

theorem consider_of_used (h : l.placed.length < need) (hc : l.seenRacks ≠ racks)
    (hm : n.rack ∈ l.seenRacks) :
    l.consider racks need n = { l with skipped := l.skipped ++ [n] } := by
  rw [consider, if_neg (by omega), if_neg hc, if_neg (not_not.2 hm)]

theorem consider_of_new (h : l.placed.length < need) (hc : l.seenRacks ≠ racks)
    (hm : n.rack ∉ l.seenRacks) (hi : insert n.rack l.seenRacks ≠ racks) :
    l.consider racks need n =
      { l with placed := l.placed ++ [n], seenRacks := insert n.rack l.seenRacks } := by
  rw [consider, if_neg (by omega), if_neg hc, if_pos hm]
  exact if_neg hi

theorem consider_of_last (h : l.placed.length < need) (hc : l.seenRacks ≠ racks)
    (hm : n.rack ∉ l.seenRacks) (hi : insert n.rack l.seenRacks = racks) :
    l.consider racks need n =
      { placed := l.placed ++ [n] ++ l.skipped.take (need - (l.placed ++ [n]).length)
        seenRacks := insert n.rack l.seenRacks
        skipped := l.skipped.drop (need - (l.placed ++ [n]).length) } := by
  rw [consider, if_neg (by omega), if_neg hc, if_pos hm]
  exact if_pos hi

end

theorem prefix_consider (racks : Finset String) (need : Nat) (l : Ledger) (n : Node) :
    l.placed <+: (l.consider racks need n).placed := by
  by_cases hmet : need ≤ l.placed.length
  · rw [consider_of_met hmet]
  have hlt : l.placed.length < need := by omega
  by_cases hc : l.seenRacks = racks
  · rw [consider_of_seen hlt hc]
    exact List.prefix_append _ _
  by_cases hm : n.rack ∈ l.seenRacks
  · rw [consider_of_used hlt hc hm]
  by_cases hi : insert n.rack l.seenRacks = racks
  · rw [consider_of_last hlt hc hm hi, List.append_assoc]
    exact List.prefix_append _ _
  · rw [consider_of_new hlt hc hm hi]
    exact List.prefix_append _ _

/-- The nodes that considering `n` places. -/
def placedBy (racks : Finset String) (need : Nat) (l : Ledger) (n : Node) : List Node :=
  (l.consider racks need n).placed.drop l.placed.length

theorem placed_consider (racks : Finset String) (need : Nat) (l : Ledger) (n : Node) :
    (l.consider racks need n).placed = l.placed ++ l.placedBy racks need n := by
  obtain ⟨new, hnew⟩ := l.prefix_consider racks need n
  rw [placedBy, ← hnew, List.drop_left]

theorem placedBy_eq {racks : Finset String} {need : Nat} {l : Ledger} {n : Node} {new : List Node}
    (h : (l.consider racks need n).placed = l.placed ++ new) : l.placedBy racks need n = new := by
  rw [placedBy, h, List.drop_left]

end Ledger

/-! ## One datacenter -/

/-- The ledger of a datacenter after its nodes `ns` have been met. What is not placed matters only
as long as the quota is not met. -/
structure Follows (racks : Finset String) (need : Nat) (ns : List Node) (l : Ledger) : Prop where
  placed : l.placed = (eligible racks ns).take need
  seen : l.placed.length < need → l.seenRacks = racksOf ns
  skipped : l.placed.length < need → racksOf ns ≠ racks → l.skipped = followers ns

section
variable {racks : Finset String} {need : Nat} {ns : List Node} {l : Ledger} {n : Node}

/-- A ledger with room left has placed all that is eligible. -/
theorem Follows.placed_of_lt (h : Follows racks need ns l) (hlt : l.placed.length < need) :
    l.placed = eligible racks ns := by
  have hlen := congrArg List.length h.placed
  rw [List.length_take] at hlen
  rw [h.placed, List.take_of_length_le (by omega)]

theorem Follows.empty (racks : Finset String) (need : Nat) : Follows racks need [] .empty := by
  have h : eligible racks [] = [] := by
    unfold eligible
    split <;> rfl
  exact ⟨by rw [h, List.take_nil]; rfl, fun _ => rfl, fun _ _ => rfl⟩

/-- The eligible nodes only grow at their end, so a quota that is met stays met by the same. -/
theorem Follows.of_met (h : Follows racks need ns l) (hmet : need ≤ l.placed.length) (hn : n ∉ ns)
    (hr : n.rack ∈ racks) : Follows racks need (ns ++ [n]) l := by
  obtain ⟨new, hnew⟩ := eligible_grows hn hr
  have hlen := congrArg List.length h.placed
  rw [List.length_take] at hlen
  have hp : l.placed = (eligible racks (ns ++ [n])).take need := by
    rw [← hnew, List.take_append_of_le_length (by omega)]
    exact h.placed
  exact ⟨hp, fun hlt => by omega, fun hlt => by omega⟩

theorem Follows.consider (h : Follows racks need ns l) (hn : n ∉ ns) (hr : n.rack ∈ racks) :
    Follows racks need (ns ++ [n]) (l.consider racks need n) := by
  by_cases hmet : need ≤ l.placed.length
  · rw [Ledger.consider_of_met hmet]
    exact h.of_met hmet hn hr
  have hlt : l.placed.length < need := by omega
  have hp := h.placed_of_lt hlt
  have hs := h.seen hlt
  -- the quota cuts what becomes eligible now, and nothing before it
  have htake : (eligible racks (ns ++ [n])).take need = l.placed ++
      (if racksOf ns = racks then [n]
      else if n.rack ∈ racksOf ns then []
      else n :: if insert n.rack (racksOf ns) = racks then followers ns else []).take
        (need - l.placed.length) := by
    rw [eligible_concat hn hr, ← hp, List.take_append, List.take_of_length_le (by omega)]
  have hroom : need - l.placed.length = (need - (l.placed.length + 1)) + 1 := by omega
  have hrn := racksOf_concat ns n
  by_cases hc : racksOf ns = racks
  · rw [Ledger.consider_of_seen hlt (hs.trans hc)]
    rw [if_pos hc, hroom, List.take_succ_cons, List.take_nil] at htake
    have hsame : racksOf (ns ++ [n]) = racks := by
      rw [hrn, hc, Finset.insert_eq_of_mem hr]
    exact ⟨htake.symm, fun _ => (hs.trans hc).trans hsame.symm, fun _ hne => absurd hsame hne⟩
  rw [if_neg hc] at htake
  rw [← hs] at hc
  by_cases hm : n.rack ∈ racksOf ns
  · rw [Ledger.consider_of_used hlt hc (hs ▸ hm)]
    rw [if_pos hm, List.take_nil, List.append_nil] at htake
    have hsame : racksOf (ns ++ [n]) = racksOf ns := by rw [hrn, Finset.insert_eq_of_mem hm]
    refine ⟨htake.symm, fun _ => hs.trans hsame.symm, fun _ _ => ?_⟩
    rw [followers_concat hn, if_pos hm, h.skipped hlt (hs ▸ hc)]
  rw [if_neg hm, hroom, List.take_succ_cons] at htake
  by_cases hi : insert n.rack (racksOf ns) = racks
  · rw [Ledger.consider_of_last hlt hc (hs ▸ hm) (hs ▸ hi)]
    rw [if_pos hi] at htake
    refine ⟨?_, fun _ => (congrArg _ hs).trans hrn.symm, fun _ hne => absurd (hrn.trans hi) hne⟩
    rw [htake, h.skipped hlt (hs ▸ hc), List.append_assoc, List.length_append,
      List.length_singleton]
    rfl
  · rw [Ledger.consider_of_new hlt hc (hs ▸ hm) (hs ▸ hi)]
    rw [if_neg hi, List.take_nil] at htake
    refine ⟨htake.symm, fun _ => (congrArg _ hs).trans hrn.symm, fun _ _ => ?_⟩
    rw [followers_concat hn, if_neg hm, List.append_nil]
    exact h.skipped hlt (hs ▸ hc)

end

/-! ## All datacenters -/

/-- The number of replicas that a datacenter gets: its quota, or all its endpoints if they are
fewer. -/
def Quotas.need (q : Quotas) (d : Directory) (dc : String) : Nat :=
  min (q.factorFor dc).all (d.endpointsIn dc).length

/-- The ledgers of all datacenters, and the nodes of all of them in the order of placement. -/
structure Run where
  ledgers : String → Ledger
  order : List Node

namespace Run

def start : Run := ⟨fun _ => .empty, []⟩

/-- Visits a node. It is ignored if its datacenter is not configured. -/
def visit (q : Quotas) (d : Directory) (r : Run) (n : Node) : Run :=
  if n.datacenter ∈ q.keys then
    let racks := d.rackSet n.datacenter
    let need := q.need d n.datacenter
    let ledger := r.ledgers n.datacenter
    { ledgers := fun dc => if dc = n.datacenter then ledger.consider racks need n else r.ledgers dc
      order := r.order ++ ledger.placedBy racks need n }
  else r

variable {T : Type}

/-- The replicas of the nodes placed; of each datacenter those past the full ones are transient. -/
def replicas (q : Quotas) (arc : Arc T) (r : Run) : List (Replica T) :=
  r.order.map fun n =>
    let position := (r.ledgers n.datacenter).placed.idxOf n
    ⟨n.endpoint, arc, decide ((q.factorFor n.datacenter).full ≤ position)⟩

theorem endpoints_replicas (q : Quotas) (arc : Arc T) (r : Run) :
    (r.replicas q arc).map Replica.endpoint = r.order.map Node.endpoint := by
  rw [replicas, List.map_map]
  rfl

end Run

/-- The run over these nodes. -/
def procedure (q : Quotas) (d : Directory) (ns : List Node) : Run :=
  ns.foldl (Run.visit q d) Run.start

theorem procedure_concat (q : Quotas) (d : Directory) (ns : List Node) (n : Node) :
    procedure q d (ns ++ [n]) = (procedure q d ns).visit q d n := by
  simp [procedure]

theorem factorFor_of_not_mem {q : Quotas} {dc : String} (h : dc ∉ q.keys) :
    q.factorFor dc = .zero := by
  have hq : q.get? dc = none := by simpa [OrderedMap.mem_keys_iff] using h
  rw [Quotas.factorFor, hq]
  rfl

theorem need_of_not_mem {q : Quotas} {dc : String} (h : dc ∉ q.keys) (d : Directory) :
    q.need d dc = 0 := by
  rw [Quotas.need, factorFor_of_not_mem h]
  exact Nat.zero_min _

namespace Run

variable (q : Quotas) (d : Directory) (r : Run) (n : Node)

/-- Whether or not the datacenter is configured: one that is not needs no replicas. -/
theorem ledgers_visit (dc : String) : (r.visit q d n).ledgers dc =
    if dc = n.datacenter then
      (r.ledgers n.datacenter).consider (d.rackSet n.datacenter) (q.need d n.datacenter) n
    else r.ledgers dc := by
  unfold visit
  split
  · rfl
  · rename_i hk
    rw [need_of_not_mem hk, Ledger.consider_of_met (Nat.zero_le _)]
    split
    · rename_i hdc
      rw [hdc]
    · rfl

theorem order_visit : (r.visit q d n).order = r.order ++
    (r.ledgers n.datacenter).placedBy (d.rackSet n.datacenter) (q.need d n.datacenter) n := by
  unfold visit
  split
  · rfl
  · rename_i hk
    rw [need_of_not_mem hk, Ledger.placedBy, Ledger.consider_of_met (Nat.zero_le _),
      List.drop_length, List.append_nil]

variable {q d r n} in
/-- A visit to a datacenter that needs no more replicas changes nothing. -/
theorem visit_of_met (h : q.need d n.datacenter ≤ (r.ledgers n.datacenter).placed.length) :
    r.visit q d n = r := by
  have hl : (r.ledgers n.datacenter).consider (d.rackSet n.datacenter) (q.need d n.datacenter) n =
      r.ledgers n.datacenter := Ledger.consider_of_met h
  have h1 : (r.visit q d n).ledgers = r.ledgers := by
    funext dc
    rw [ledgers_visit, hl]
    split
    · rename_i hdc
      rw [hdc]
    · rfl
  have h2 : (r.visit q d n).order = r.order := by
    rw [order_visit, Ledger.placedBy, hl, List.drop_length, List.append_nil]
  cases hv : r.visit q d n
  rw [hv] at h1 h2
  cases h1
  cases h2
  rfl

end Run

/-- A visit appends what it adds to the ledger of the node's datacenter. -/
theorem order_procedure_concat (q : Quotas) (d : Directory) (ns : List Node) (n : Node) :
    (procedure q d (ns ++ [n])).order = (procedure q d ns).order ++
      ((procedure q d (ns ++ [n])).ledgers n.datacenter).placed.drop
        ((procedure q d ns).ledgers n.datacenter).placed.length := by
  rw [procedure_concat, Run.order_visit, Run.ledgers_visit, if_pos rfl]
  rfl

section
variable {q : Quotas} {d : Directory} {ns : List Node} (hn : ns.Nodup)
  (hr : ∀ n ∈ ns, n.rack ∈ d.rackSet n.datacenter)
include hn hr

/-- **At any time every ledger follows the nodes of its datacenter.** -/
theorem follows_procedure (dc : String) :
    Follows (d.rackSet dc) (q.need d dc) (ns.filter fun n => decide (n.datacenter = dc))
      ((procedure q d ns).ledgers dc) := by
  induction ns using List.reverseRecOn with
  | nil => exact .empty _ _
  | append_singleton ns n ih =>
    obtain ⟨hns, hnew⟩ := nodup_concat_iff.1 hn
    have ih := ih hns fun m hm => hr m (List.mem_append_left _ hm)
    rw [procedure_concat, Run.ledgers_visit, List.filter_append, List.filter_singleton]
    by_cases hdc : n.datacenter = dc
    · subst hdc
      rw [if_pos rfl, decide_eq_true rfl]
      exact ih.consider (fun hm => hnew (List.mem_of_mem_filter hm)) (hr n (by simp))
    · rw [if_neg fun e => hdc e.symm, decide_eq_false hdc]
      simpa using ih

/-- The nodes placed in a datacenter are nodes of it that were met. -/
theorem mem_of_mem_placed {dc : String} {n : Node}
    (h : n ∈ ((procedure q d ns).ledgers dc).placed) : n ∈ ns ∧ n.datacenter = dc := by
  rw [(follows_procedure hn hr dc).placed] at h
  simpa using eligible_subset _ _ (List.mem_of_mem_take h)

theorem nodup_placed (dc : String) : ((procedure q d ns).ledgers dc).placed.Nodup := by
  rw [(follows_procedure hn hr dc).placed]
  exact (nodup_eligible _ (hn.filter _)).sublist (List.take_sublist _ _)

/-- **The common order holds the nodes of each datacenter in the order of its ledger.** -/
theorem filter_order_procedure (dc : String) :
    (procedure q d ns).order.filter (fun n => decide (n.datacenter = dc)) =
      ((procedure q d ns).ledgers dc).placed := by
  induction ns using List.reverseRecOn with
  | nil => rfl
  | append_singleton ns n ih =>
    have ih := ih (List.nodup_append.1 hn).1 fun m hm => hr m (List.mem_append_left _ hm)
    have hmem : ∀ m ∈ ((procedure q d (ns ++ [n])).ledgers n.datacenter).placed,
        m.datacenter = n.datacenter := fun m hm => (mem_of_mem_placed hn hr hm).2
    rw [procedure_concat, Run.ledgers_visit, if_pos rfl, Ledger.placed_consider] at hmem
    rw [procedure_concat, Run.order_visit, Run.ledgers_visit, List.filter_append, ih]
    by_cases hdc : dc = n.datacenter
    · subst hdc
      rw [if_pos rfl, Ledger.placed_consider, List.filter_eq_self.2]
      intro m hm
      exact decide_eq_true (hmem m (List.mem_append_right _ hm))
    · rw [if_neg hdc, List.filter_eq_nil_iff.2, List.append_nil]
      intro m hm hdm
      rw [hmem m (List.mem_append_right _ hm), decide_eq_true_eq] at hdm
      exact hdc hdm.symm

theorem mem_order_procedure {n : Node} : n ∈ (procedure q d ns).order ↔
    n ∈ ((procedure q d ns).ledgers n.datacenter).placed := by
  rw [← filter_order_procedure hn hr, List.mem_filter]
  simp

theorem order_subset_procedure : (procedure q d ns).order ⊆ ns := fun _ hm =>
  (mem_of_mem_placed hn hr ((mem_order_procedure hn hr).1 hm)).1

/-- As long as a quota is open and a rack is missing, the nodes skipped are nodes met but not
placed. -/
theorem skipped_procedure {dc : String}
    (hlt : ((procedure q d ns).ledgers dc).placed.length < q.need d dc)
    (hc : ((procedure q d ns).ledgers dc).seenRacks ≠ d.rackSet dc) :
    ((procedure q d ns).ledgers dc).skipped.Sublist ns ∧
      ∀ m ∈ ((procedure q d ns).ledgers dc).skipped, m ∉ (procedure q d ns).order := by
  have hf : Follows _ _ _ ((procedure q d ns).ledgers dc) := follows_procedure hn hr dc
  rw [hf.seen hlt] at hc
  rw [hf.skipped hlt hc]
  refine ⟨List.filter_sublist.trans List.filter_sublist, fun m hm ho => ?_⟩
  obtain ⟨hm, hfollows⟩ := List.mem_filter.1 hm
  have hdc : m.datacenter = dc := by simpa using (List.mem_filter.1 hm).2
  -- with a rack missing only leaders are placed
  have ho := (mem_order_procedure hn hr).1 ho
  rw [hdc, hf.placed_of_lt hlt, eligible, if_neg hc, List.append_nil] at ho
  rw [(List.mem_filter.1 ho).2] at hfollows
  cases hfollows

end

end ReplicaRing.Placement
