import Mathlib.Data.List.Rotate
import ReplicaRing.Proofs.Primary

/-!
# Placement by a budget of rack repeats

Which nodes of a datacenter hold replicas can be found without putting any aside. Of its replicas
as many as it has racks can stand on racks of their own, so only the others may repeat a rack; a
single pass takes each node on a new rack, and one on a rack used before while that budget lasts.

* `TokenRing.successors`: the owners in the order in which a search meets them, read off the list of
  virtual nodes; they are the walk (`successors_eq`).
* `repeatBudget`: the pass for each configured datacenter.
* `Accepted`: what a pass that never stops has taken at any time. It is kept by
  `BudgetPass.accept` (`Accepted.accept`), hence by the pass (`accepted_foldl`).
* `rackAware_agrees_with_repeatBudget`: the budget chooses the nodes that the placement spread over
  racks chooses, and in the same order if none has to repeat a rack.
-/

namespace ReplicaRing

/-! ## Successors -/

namespace TokenRing

variable {T : Type} [Token T]

/-- The owners of the tokens from the first one at or after `t` on, once around and each once; if
all tokens are below `t`, from the first of the ring on. -/
def successors (r : TokenRing T) (t : T) : List NodeId :=
  let start := (r.vnodes.findIdx? fun v => decide (t ≤ v.token)).getD 0
  ((r.vnodes.rotate start).map VirtualNode.node).eraseDups

theorem rotate_eq_vnodesFrom (r : TokenRing T) (t : T) :
    r.vnodes.rotate ((r.vnodes.findIdx? fun v => decide (t ≤ v.token)).getD 0) =
      r.vnodesFrom t := by
  have hp : (fun v : VirtualNode T => decide (t ≤ v.token)) = fun v => !decide (v.token < t) := by
    funext v
    rw [← decide_not, decide_eq_decide]
    exact Std.not_lt.symm
  have hcut : r.vnodes.drop (r.vnodes.findIdx fun v => decide (t ≤ v.token)) ++
      r.vnodes.take (r.vnodes.findIdx fun v => decide (t ≤ v.token)) = r.vnodesFrom t := by
    rw [hp, ← List.dropWhile_eq_drop_findIdx_not, ← List.takeWhile_eq_take_findIdx_not,
      r.ascending.dropWhile_lt, r.ascending.takeWhile_lt, vnodesFrom]
  cases hfind : r.vnodes.findIdx? fun v => decide (t ≤ v.token) with
  | some i =>
    obtain ⟨hlt, hi⟩ := List.findIdx?_eq_some_iff_findIdx_eq.1 hfind
    rw [← hcut, hi, Option.getD_some, List.rotate_eq_drop_append_take hlt.le]
  | none =>
    -- all tokens are below `t`, so the cut at the end is the cut at the start
    have hi := List.findIdx_eq_length.2 (List.findIdx?_eq_none_iff.1 hfind)
    rw [← hcut, hi, Option.getD_none, List.rotate_zero, List.drop_length, List.take_length,
      List.nil_append]

/-- **The successors are the walk.** -/
theorem successors_eq (r : TokenRing T) (t : T) : r.successors t = (r.walk t).toList := by
  rw [toList_walk, ← rotate_eq_vnodesFrom]
  rfl

end TokenRing

namespace Placement

/-! ## The pass -/

/-- How far the pass over a datacenter has come. -/
structure BudgetPass where
  chosen : List Node
  /-- The racks of the nodes chosen. -/
  racks : Finset String
  /-- How many more nodes may stand on a rack used before. -/
  repeats : Nat

namespace BudgetPass

def start (budget : Nat) : BudgetPass := ⟨[], ∅, budget⟩

/-- Chooses a node on a new rack, and one on a used rack if the budget allows. -/
def accept (b : BudgetPass) (n : Node) : BudgetPass :=
  if n.rack ∉ b.racks then
    { b with chosen := b.chosen ++ [n], racks := insert n.rack b.racks }
  else if 0 < b.repeats then { b with chosen := b.chosen ++ [n], repeats := b.repeats - 1 }
  else b

/-- Goes over nodes until `need` are chosen; those of other datacenters are left out. -/
def passOver (dc : String) (need : Nat) (b : BudgetPass) : List Node → BudgetPass
  | [] => b
  | n :: ns =>
    if b.chosen.length = need then b
    else if n.datacenter ≠ dc then passOver dc need b ns
    else passOver dc need (b.accept n) ns

section
variable {b : BudgetPass} {n : Node}

theorem accept_of_new (h : n.rack ∉ b.racks) : b.accept n =
    { b with chosen := b.chosen ++ [n], racks := insert n.rack b.racks } := if_pos h

theorem accept_of_repeat (h : n.rack ∈ b.racks) (hr : 0 < b.repeats) : b.accept n =
    { b with chosen := b.chosen ++ [n], repeats := b.repeats - 1 } := by
  rw [accept, if_neg (not_not.2 h), if_pos hr]

theorem accept_of_spent (h : n.rack ∈ b.racks) (hr : b.repeats = 0) : b.accept n = b := by
  rw [accept, if_neg (not_not.2 h), if_neg (by omega)]

theorem chosen_accept (b : BudgetPass) (n : Node) :
    (b.accept n).chosen = b.chosen ∨ (b.accept n).chosen = b.chosen ++ [n] := by
  by_cases h : n.rack ∈ b.racks
  · rcases Nat.eq_zero_or_pos b.repeats with hr | hr
    · rw [accept_of_spent h hr]
      exact .inl rfl
    · rw [accept_of_repeat h hr]
      exact .inr rfl
  · rw [accept_of_new h]
    exact .inr rfl

end

theorem prefix_foldl_accept (b : BudgetPass) (ns : List Node) :
    b.chosen <+: (ns.foldl accept b).chosen := by
  induction ns generalizing b with
  | nil => exact List.prefix_rfl
  | cons n ns ih =>
    refine List.IsPrefix.trans ?_ (ih (b.accept n))
    rcases b.chosen_accept n with h | h <;> rw [h]
    exact List.prefix_append _ _

/-- Stopping early cuts off what would have been chosen later. -/
theorem chosen_passOver {dc : String} {need : Nat} {b : BudgetPass} (ns : List Node)
    (h : b.chosen.length ≤ need) : (b.passOver dc need ns).chosen =
      ((ns.filter fun n => decide (n.datacenter = dc)).foldl accept b).chosen.take need := by
  induction ns generalizing b with
  | nil => exact (List.take_of_length_le h).symm
  | cons n ns ih =>
    rw [passOver]
    split
    · rename_i hmet
      obtain ⟨later, hlater⟩ := b.prefix_foldl_accept
        ((n :: ns).filter fun n => decide (n.datacenter = dc))
      rw [← hlater, ← hmet, List.take_left]
    · rename_i hopen
      split
      · rename_i hdc
        rw [ih h, List.filter_cons_of_neg (by simpa using hdc)]
      · rename_i hdc
        have hroom : (b.accept n).chosen.length ≤ need := by
          rcases b.chosen_accept n with hc | hc <;> rw [hc]
          · exact h
          · rw [List.length_append, List.length_singleton]
            omega
        rw [ih hroom, List.filter_cons_of_pos (by simpa using hdc), List.foldl_cons]

end BudgetPass

/-- What a pass with this budget has taken of the nodes `ns` of a datacenter: the leaders, and the
followers that the budget was spent on. -/
structure Accepted (budget : Nat) (ns : List Node) (b : BudgetPass) : Prop where
  racks : b.racks = racksOf ns
  repeats : b.repeats = budget - (followers ns).length
  chosen : b.chosen.Perm (leaders ns ++ (followers ns).take budget)
  inOrder : budget = 0 → b.chosen = leaders ns

section
variable {budget need : Nat} {ns : List Node} {b : BudgetPass} {n : Node}

theorem Accepted.start (budget : Nat) : Accepted budget [] (.start budget) :=
  ⟨rfl, rfl, by rw [followers, List.filter_nil, List.take_nil]; exact .refl _, fun _ => rfl⟩

/-- Once the budget is spent, a node on a used rack is left out. -/
theorem Accepted.of_spent (h : Accepted budget ns b) (hn : n ∉ ns) (hm : n.rack ∈ racksOf ns)
    (hr : b.repeats = 0) : Accepted budget (ns ++ [n]) b := by
  have hl : leaders (ns ++ [n]) = leaders ns := by
    rw [leaders_concat hn, if_pos hm, List.append_nil]
  have hf : followers (ns ++ [n]) = followers ns ++ [n] := by rw [followers_concat hn, if_pos hm]
  have hrepeats := h.repeats
  refine ⟨?_, ?_, ?_, fun h0 => (h.inOrder h0).trans hl.symm⟩
  · rw [racksOf_concat, Finset.insert_eq_of_mem hm, h.racks]
  · rw [hf, List.length_append]
    omega
  · rw [hl, hf, List.take_append_of_le_length (by omega)]
    exact h.chosen

/-- While it lasts, the budget has paid for every node on a used rack. -/
theorem Accepted.of_repeat (h : Accepted budget ns b) (hn : n ∉ ns) (hm : n.rack ∈ racksOf ns)
    (hr : 0 < b.repeats) : Accepted budget (ns ++ [n])
      { b with chosen := b.chosen ++ [n], repeats := b.repeats - 1 } := by
  have hl : leaders (ns ++ [n]) = leaders ns := by
    rw [leaders_concat hn, if_pos hm, List.append_nil]
  have hf : followers (ns ++ [n]) = followers ns ++ [n] := by rw [followers_concat hn, if_pos hm]
  have hrepeats := h.repeats
  have hlen : (followers ns ++ [n]).length = (followers ns).length + 1 := List.length_append
  refine ⟨?_, ?_, ?_, fun h0 => by omega⟩
  · rw [racksOf_concat, Finset.insert_eq_of_mem hm, h.racks]
  · rw [hf, hlen, hrepeats, Nat.sub_sub]
  · have hchosen := h.chosen
    rw [List.take_of_length_le (by omega)] at hchosen
    rw [hl, hf, List.take_of_length_le (by omega), ← List.append_assoc]
    exact hchosen.append_right [n]

theorem Accepted.of_new (h : Accepted budget ns b) (hn : n ∉ ns) (hm : n.rack ∉ racksOf ns) :
    Accepted budget (ns ++ [n])
      { b with chosen := b.chosen ++ [n], racks := insert n.rack b.racks } := by
  have hl : leaders (ns ++ [n]) = leaders ns ++ [n] := by rw [leaders_concat hn, if_neg hm]
  have hf : followers (ns ++ [n]) = followers ns := by
    rw [followers_concat hn, if_neg hm, List.append_nil]
  refine ⟨?_, by rw [hf, h.repeats], ?_, fun h0 => by rw [hl, h.inOrder h0]⟩
  · rw [racksOf_concat, h.racks]
  · rw [hl, hf]
    refine (h.chosen.append_right [n]).trans ?_
    rw [List.append_assoc, List.append_assoc]
    exact List.perm_append_comm.append_left _

/-- **A step of the pass** takes the node if it leads its rack, or if the budget is not spent. -/
theorem Accepted.accept (h : Accepted budget ns b) (hn : n ∉ ns) :
    Accepted budget (ns ++ [n]) (b.accept n) := by
  by_cases hm : n.rack ∈ racksOf ns
  · rcases Nat.eq_zero_or_pos b.repeats with hr | hr
    · rw [BudgetPass.accept_of_spent (h.racks ▸ hm) hr]
      exact h.of_spent hn hm hr
    · rw [BudgetPass.accept_of_repeat (h.racks ▸ hm) hr]
      exact h.of_repeat hn hm hr
  · rw [BudgetPass.accept_of_new (h.racks ▸ hm)]
    exact h.of_new hn hm

theorem accepted_foldl (hn : ns.Nodup) : Accepted budget ns (ns.foldl .accept (.start budget)) := by
  induction ns using List.reverseRecOn with
  | nil => exact .start budget
  | append_singleton ns n ih =>
    obtain ⟨hns, hnew⟩ := nodup_concat_iff.1 hn
    rw [List.foldl_concat]
    exact (ih hns).accept hnew

/-- **The budget is the right one**: with a repeat for each replica beyond the number of racks, the
first nodes taken are the preferred ones, and in their order if there are no such replicas. -/
theorem Accepted.take_perm (h : Accepted (need - (racksOf ns).card) ns b) (hn : ns.Nodup)
    (hneed : need ≤ ns.length) : (b.chosen.take need).Perm ((preference ns).take need) ∧
      (need ≤ (racksOf ns).card → b.chosen.take need = (preference ns).take need) := by
  have hleaders := length_leaders hn
  have hlen := (preference_perm ns).length_eq
  rw [preference, List.length_append] at hlen
  rcases Nat.lt_or_ge (racksOf ns).card need with hlt | hle
  · have hchosen := h.chosen
    have hall := hchosen.length_eq
    rw [List.length_append, List.length_take] at hall
    refine ⟨?_, fun hle => by omega⟩
    rw [List.take_of_length_le (by omega), preference, List.take_append,
      List.take_of_length_le (by omega), hleaders]
    exact hchosen
  · have heq : b.chosen.take need = (preference ns).take need := by
      rw [h.inOrder (by omega), preference, List.take_append_of_le_length (by omega)]
    exact ⟨heq ▸ .refl _, fun _ => heq⟩

end

/-! ## All datacenters -/

section
variable {T : Type} [Token T] (q : Quotas) (s : Snapshot T) (t : T)

/-- The nodes that the pass over a datacenter with this quota chooses. -/
def budgetChoice (dc : String) (factor : ReplicationFactor) : List Node :=
  let need := min factor.all (s.directory.endpointsIn dc).length
  ((BudgetPass.start (need - s.directory.rackCount dc)).passOver dc need
    ((s.ring.successors t).filterMap s.directory.node?)).chosen

/-- The endpoints that the passes over the configured datacenters choose, in the order in which
they are taken. -/
def repeatBudget : OrderedMap String (List Endpoint) :=
  q.mapValues fun dc factor => (budgetChoice s t dc factor).map Node.endpoint

variable {q} in
theorem budgetChoice_perm {dc : String} {factor : ReplicationFactor}
    (h : q.get? dc = some factor) : (budgetChoice s t dc factor).Perm (placedIn q s t dc) ∧
      (min factor.all (s.directory.endpointsIn dc).length ≤ s.directory.rackCount dc →
        budgetChoice s t dc factor = placedIn q s t dc) := by
  have hwalk : (s.ring.successors t).filterMap s.directory.node? = s.nodesFrom t := by
    rw [TokenRing.successors_eq, Snapshot.nodesFrom]
  have hracks : s.directory.rackCount dc = (racksOf (s.walkIn t dc)).card := by
    rw [Directory.rackCount_eq, s.racksOf_walkIn]
  have hplaced : placedIn q s t dc = (preference (s.walkIn t dc)).take
      (min factor.all (s.directory.endpointsIn dc).length) := by
    rw [placedIn, factorFor_of_get? h, List.take_eq_take_min, length_preference_walkIn]
  rw [budgetChoice, hwalk, BudgetPass.chosen_passOver _ (Nat.zero_le _), hplaced, hracks]
  refine (accepted_foldl (s.nodup_walkIn t dc)).take_perm (s.nodup_walkIn t dc) ?_
  rw [s.length_walkIn]
  exact Nat.min_le_right _ _

/-- The pass over a datacenter chooses a node iff the datacenter needs replicas. -/
theorem any_repeatBudget (dc : String) :
    ((repeatBudget q s t).get? dc).any (fun chosen => !chosen.isEmpty) =
      decide (0 < q.need s.directory dc) := by
  rw [repeatBudget, OrderedMap.get?_mapValues]
  cases h : q.get? dc with
  | none =>
    have hk : dc ∉ q.keys := by simp [OrderedMap.mem_keys_iff, h]
    rw [need_of_not_mem hk]
    rfl
  | some factor =>
    have hlen := (budgetChoice_perm s t h).1.length_eq
    rw [length_placedIn] at hlen
    rw [← hlen, Option.map_some, Option.any_some]
    cases budgetChoice s t dc factor <;> rfl

/-- **The budget of rack repeats chooses the same replicas.** In every configured datacenter it
takes the endpoints that the placement spread over racks takes, in the same order if there is a
rack for each of them; and the primary replica is at the first successor whose datacenter is given
any. -/
theorem rackAware_agrees_with_repeatBudget :
    (∀ dc factor, q.get? dc = some factor → ∃ chosen, (repeatBudget q s t).get? dc = some chosen ∧
      let placed := ((rackAware q s t).within s.directory dc).map Replica.endpoint
      placed.Nodup ∧ placed.Perm chosen ∧
        (min factor.all (s.directory.endpointsIn dc).length ≤ s.directory.rackCount dc →
          placed = chosen)) ∧
      ((rackAware q s t).primary?).map Replica.endpoint =
        (((s.ring.successors t).filterMap s.directory.node?).find? fun n =>
          ((repeatBudget q s t).get? n.datacenter).any fun chosen => !chosen.isEmpty).map
            Node.endpoint := by
  constructor
  · intro dc factor h
    obtain ⟨hperm, heq⟩ := budgetChoice_perm s t h
    refine ⟨(budgetChoice s t dc factor).map Node.endpoint, ?_,
      (rackAware q s t).nodup.sublist (List.filter_sublist.map _), ?_⟩
    · rw [repeatBudget, OrderedMap.get?_mapValues, h]
      rfl
    · rw [endpoints_within]
      exact ⟨hperm.symm.map _, fun hle => by rw [heq hle]⟩
  · rw [primary?_rackAware, TokenRing.successors_eq]
    simp only [any_repeatBudget]
    rfl

end

/-- From token 45 the walk meets both nodes on rack `a` before the one on rack `b`. With three
replicas in the west the budget of one repeat is spent before the second rack is met; with two
there is none to spend. -/
theorem rackAware_agrees_fourNodes :
    let s := Snapshot.fourNodes
    let t : LongToken := ⟨45⟩
    let two : Quotas := .ofList [("west", .ofFull 2)]
    let placed (q : Quotas) := ((rackAware q s t).within s.directory "west").map Replica.endpoint
    let e1 := (Snapshot.numbered 1 "west" "a").endpoint
    let e2 := (Snapshot.numbered 2 "west" "a").endpoint
    let e3 := (Snapshot.numbered 3 "west" "b").endpoint
    fourNodesQuotas.get? "west" = some ⟨2, 1, by decide⟩ ∧
      (repeatBudget fourNodesQuotas s t).get? "west" = some [e1, e2, e3] ∧
      placed fourNodesQuotas = [e1, e3, e2] ∧ (placed fourNodesQuotas).Perm [e1, e2, e3] ∧
      two.get? "west" = some (.ofFull 2) ∧
      min 2 (s.directory.endpointsIn "west").length ≤ s.directory.rackCount "west" ∧
      placed two = [e1, e3] ∧ ((rackAware two s t).primary?).map Replica.endpoint = some e1 := by
  intro s t two placed e1 e2 e3
  have hthree : fourNodesQuotas.get? "west" = some ⟨2, 1, by decide⟩ := by decide
  have hchosen : (repeatBudget fourNodesQuotas s t).get? "west" = some [e1, e2, e3] := by decide
  obtain ⟨hall, -⟩ := rackAware_agrees_with_repeatBudget fourNodesQuotas s t
  obtain ⟨chosen, hget, -, hperm, -⟩ := hall "west" _ hthree
  cases hchosen.symm.trans hget
  have htwo : two.get? "west" = some (.ofFull 2) := by decide
  have hracks : min 2 (s.directory.endpointsIn "west").length ≤ s.directory.rackCount "west" := by
    decide
  have hchosen' : (repeatBudget two s t).get? "west" = some [e1, e3] := by decide
  obtain ⟨hall', hprimary⟩ := rackAware_agrees_with_repeatBudget two s t
  obtain ⟨chosen', hget', -, -, heq⟩ := hall' "west" _ htwo
  cases hchosen'.symm.trans hget'
  exact ⟨hthree, hchosen, by decide, hperm, htwo, hracks, heq hracks, hprimary.trans (by decide)⟩

end Placement

end ReplicaRing
