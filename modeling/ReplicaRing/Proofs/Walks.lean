import Mathlib.Data.List.Rotate
import ReplicaRing.Proofs.Arcs
import ReplicaRing.Proofs.Freezing
import ReplicaRing.Proofs.RingWalk
import ReplicaRing.Token.Long

/-!
# Walks as their callers see them

A walk yields one node a call and can be left at any time. It goes along the tokens of the ring
once around, from the one that a search finds (`TokenRing.scan`), and a call takes it to the first
token of a node that it has not met: the nodes come in the order of their first tokens in the scan.

* `Walk.StandsAt`: where a walk stands after so many calls, the invariant. A call that finds a node
  takes it to the next stand (`StandsAt.next`), so every number of calls does (`standsAt_after`).
* `TokenRing.walk_call_by_call`: what each call of a walk yields and leaves behind, also past the
  last node.
* `TokenRing.walk_of_kept_owners`: what a walk yields if only some owners keep their tokens.
-/

namespace ReplicaRing

/-! ## First occurrences -/

section
variable {α : Type} [BEq α] [LawfulBEq α] {l : List α} {a : α} {n k : Nat}

/-- The distinct elements that a list has beyond its first `n`. -/
theorem drop_eraseDups (hmet : (l.take n).eraseDups = l.eraseDups.take k) :
    l.eraseDups.drop k = ((l.drop n).removeAll (l.take n)).eraseDups := by
  have hsplit : (l.take n ++ l.drop n).eraseDups =
      (l.take n).eraseDups ++ ((l.drop n).removeAll (l.take n)).eraseDups :=
    List.eraseDups_append
  rw [List.take_append_drop, hmet] at hsplit
  conv at hsplit => lhs; rw [← List.take_append_drop k l.eraseDups]
  exact List.append_cancel_left hsplit

/-- A list behind its first `n` elements, cut at the first element that is not one of these. -/
theorem drop_eq_of_getElem?_eraseDups (hmet : (l.take n).eraseDups = l.eraseDups.take k)
    (ha : l.eraseDups[k]? = some a) :
    ∃ pre post, l.drop n = pre ++ a :: post ∧ (∀ b ∈ pre, b ∈ l.take n) ∧ a ∉ l.take n := by
  have hfind : (l.drop n).find? (fun b => !(l.take n).elem b) = some a := by
    rw [← List.head?_filter]
    change ((l.drop n).removeAll (l.take n)).head? = some a
    rw [← head?_eraseDups, ← drop_eraseDups hmet, List.head?_drop, ha]
  obtain ⟨hnew, pre, post, hdrop, hpre⟩ := List.find?_eq_some_iff_append.1 hfind
  exact ⟨pre, post, hdrop, fun b hb => by simpa using hpre b hb, by simpa using hnew⟩

section
variable {pre post : List α} (hdrop : l.drop n = pre ++ a :: post)
include hdrop

omit [BEq α] [LawfulBEq α] in
theorem take_of_drop_eq : l.take (n + (pre.length + 1)) = l.take n ++ (pre ++ [a]) := by
  rw [List.take_add, hdrop, List.take_length_add_append]
  rfl

omit [BEq α] [LawfulBEq α] in
theorem drop_of_drop_eq : l.drop (n + (pre.length + 1)) = post := by
  rw [← List.drop_drop, hdrop, List.drop_length_add_append]
  rfl

theorem idxOf_of_drop_eq (hn : n ≤ l.length) (hpre : ∀ b ∈ pre, b ∈ l.take n)
    (hnew : a ∉ l.take n) : l.idxOf a = n + pre.length := by
  have hnot : a ∉ l.take n ++ pre := fun hm =>
    (List.mem_append.1 hm).elim hnew fun hm => hnew (hpre a hm)
  have hsplit : l = (l.take n ++ pre) ++ a :: post := by
    rw [List.append_assoc, ← hdrop, List.take_append_drop]
  conv => lhs; rw [hsplit]
  rw [List.idxOf_append_of_notMem hnot, List.idxOf_cons_self, List.length_append,
    List.length_take, Nat.min_eq_left hn, Nat.add_zero]

theorem eraseDups_take_of_drop_eq (hpre : ∀ b ∈ pre, b ∈ l.take n) (hnew : a ∉ l.take n) :
    (l.take (n + (pre.length + 1))).eraseDups = (l.take n).eraseDups ++ [a] := by
  have hrest : (pre ++ [a]).removeAll (l.take n) = [a] := by
    rw [List.removeAll, List.filter_append, List.filter_eq_nil_iff.2 (by simpa using hpre)]
    simpa using hnew
  rw [take_of_drop_eq hdrop, List.eraseDups_append, hrest]
  rfl

end

end

namespace Walk

/-! ## Calls -/

/-- The walk after so many calls. -/
def after (w : Walk) : Nat → Walk
  | 0 => w
  | calls + 1 => (w.after calls).next.2

/-- The number of tokens that a scan goes through to meet so many nodes: it ends at the first token
of the last of them. -/
def tokensTo (owners : List NodeId) : Nat → Nat
  | 0 => 0
  | nodes + 1 => owners.eraseDups[nodes]?.elim owners.length fun id => owners.idxOf id + 1

/-- Where a walk along these owners stands after so many calls that have each yielded a node. -/
structure StandsAt (owners : List NodeId) (calls : Nat) (w : Walk) : Prop where
  /-- It goes along these owners, from the token that it began at. -/
  along : w.ring.rotate w.first = owners
  /-- It has gone just as far as it takes to meet so many nodes. -/
  visited : w.visited = tokensTo owners calls
  visited_le : w.visited ≤ owners.length
  /-- The tokens not visited, and these only, lie ahead. -/
  ahead : w.ahead = owners.drop w.visited
  /-- The nodes met are the first so many of all. -/
  met : (owners.take w.visited).eraseDups = owners.eraseDups.take calls
  seen : ∀ id, id ∈ w.seen ↔ id ∈ owners.take w.visited
  /-- Every call has counted down by one. -/
  remaining : w.remaining + calls = owners.eraseDups.length

section
variable {owners : List NodeId} {calls : Nat} {w : Walk} {id : NodeId}

theorem standsAt_start (ring : List NodeId) (first : Nat) :
    StandsAt (ring.rotate first) 0
      (start ring first (ring.rotate first).eraseDups.length) where
  along := rfl
  visited := rfl
  visited_le := Nat.zero_le _
  ahead := ahead_eq_drop_rotate _
  met := rfl
  seen _ := Iff.rfl
  remaining := Nat.add_zero _

/-- Tokens of nodes yielded before are passed by, up to the first of a new node. -/
theorem next_of_ahead_append {pre post : List NodeId} (hr : w.remaining ≠ 0)
    (ha : w.ahead = pre ++ id :: post) (hpre : ∀ i ∈ pre, i ∈ w.seen) (hnew : id ∉ w.seen) :
    let w' := { w with
      seen := id :: w.seen, remaining := w.remaining - 1, visited := w.visited + (pre.length + 1) }
    w.next = (some id, w') ∧ w'.ahead = post := by
  induction pre generalizing w with
  | nil =>
    obtain ⟨-, -, -, hpost⟩ := left_of_ahead ha
    rw [next_of_ahead hr ha, if_neg hnew]
    exact ⟨rfl, hpost⟩
  | cons i pre ih =>
    obtain ⟨-, -, -, hrest⟩ := left_of_ahead ha
    have hvisited : w.visited + 1 + (pre.length + 1) = w.visited + ((i :: pre).length + 1) := by
      rw [List.length_cons]
      omega
    rw [next_of_ahead hr ha, if_pos (hpre i (.head _)), ← hvisited]
    exact ih (w := w.pass) hr hrest (fun j hj => hpre j (.tail _ hj)) hnew

/-- **A call takes the walk to the next node**, as long as there is one. -/
theorem StandsAt.next (h : StandsAt owners calls w) (hid : owners.eraseDups[calls]? = some id) :
    ∃ w', w.next = (some id, w') ∧ StandsAt owners (calls + 1) w' := by
  have hremaining := h.remaining
  have hlt := (List.getElem?_eq_some_iff.1 hid).1
  obtain ⟨pre, post, hdrop, hpre, hnew⟩ := drop_eq_of_getElem?_eraseDups h.met hid
  obtain ⟨hnext, hahead⟩ := next_of_ahead_append (by omega) (h.ahead.trans hdrop)
    (fun i hi => (h.seen i).2 (hpre i hi)) fun hm => hnew ((h.seen id).1 hm)
  refine ⟨_, hnext, ?_⟩
  constructor
  case along => exact h.along
  case visited =>
    rw [tokensTo, hid, Option.elim_some, idxOf_of_drop_eq hdrop h.visited_le hpre hnew]
    rfl
  case visited_le =>
    have hle := h.visited_le
    have hlength := congrArg List.length hdrop
    rw [List.length_drop, List.length_append, List.length_cons] at hlength
    dsimp only
    omega
  case ahead => exact hahead.trans (drop_of_drop_eq hdrop).symm
  case met =>
    have hlast : owners.eraseDups.take (calls + 1) = owners.eraseDups.take calls ++ [id] := by
      rw [List.take_add_one, hid]
      rfl
    rw [eraseDups_take_of_drop_eq hdrop hpre hnew, h.met, hlast]
  case seen =>
    intro i
    rw [take_of_drop_eq hdrop, List.mem_cons, h.seen, List.mem_append, List.mem_append,
      List.mem_singleton]
    constructor
    · rintro (rfl | hm)
      · exact .inr (.inr rfl)
      · exact .inl hm
    · rintro (hm | hm | rfl)
      · exact .inr hm
      · exact .inr (hpre i hm)
      · exact .inl rfl
  case remaining =>
    dsimp only
    omega

/-- After the last node a call finds nothing and changes nothing. -/
theorem StandsAt.next_of_done (h : StandsAt owners owners.eraseDups.length w) :
    w.next = (none, w) := by
  have h0 : w.remaining = 0 := by
    have := h.remaining
    omega
  rw [Walk.next, if_pos h0]

/-- **A walk stands where the scan has met as many nodes as there were calls.** -/
theorem standsAt_after (h : StandsAt owners 0 w) (hc : calls ≤ owners.eraseDups.length) :
    StandsAt owners calls (w.after calls) := by
  induction calls with
  | zero => exact h
  | succ calls ih =>
    obtain ⟨w', hnext, h'⟩ := (ih (by omega)).next (List.getElem?_eq_getElem (by omega))
    rw [after, hnext]
    exact h'

theorem after_of_done (h : StandsAt owners 0 w) (hc : owners.eraseDups.length ≤ calls) :
    w.after calls = w.after owners.eraseDups.length := by
  induction calls, hc using Nat.le_induction with
  | base => rfl
  | succ calls _ ih => rw [after, ih, (standsAt_after h (Nat.le_refl _)).next_of_done]

/-- What the next call yields. -/
theorem StandsAt.fst_next (h : StandsAt owners calls w) :
    w.next.1 = owners.eraseDups[calls]? := by
  cases hid : owners.eraseDups[calls]? with
  | some id =>
    obtain ⟨w', hnext, -⟩ := h.next hid
    rw [hnext]
  | none =>
    have hremaining := h.remaining
    rw [List.getElem?_eq_none_iff] at hid
    obtain rfl : calls = owners.eraseDups.length := by omega
    rw [h.next_of_done]

/-- A walk ends when all nodes have been yielded, and not because it runs out of tokens. -/
theorem StandsAt.fst_next_eq_none_iff (h : StandsAt owners calls w) :
    w.next.1 = none ↔ w.remaining = 0 := by
  have hremaining := h.remaining
  rw [h.fst_next, List.getElem?_eq_none_iff]
  omega

/-- What a walk still yields are the nodes that the scan has not met. -/
theorem StandsAt.toList (h : StandsAt owners calls w) :
    w.toList = owners.eraseDups.drop calls := by
  have hrest : (owners.drop w.visited).filter (fun id => decide (id ∉ w.seen)) =
      (owners.drop w.visited).removeAll (owners.take w.visited) := by
    rw [List.removeAll]
    refine List.filter_congr fun id _ => ?_
    simp [h.seen id]
  have hlength : w.remaining = (owners.eraseDups.drop calls).length := by
    have hremaining := h.remaining
    rw [List.length_drop]
    omega
  rw [Walk.toList, trace, hlength]
  exact map_fst_traceTo h.ahead (by rw [hrest, ← drop_eraseDups h.met]) hlength

end

end Walk

namespace TokenRing

variable {T : Type} [Token T]

/-! ## Walks on a ring -/

/-- The virtual nodes once around the ring, from the one that a search for `t` finds. -/
def scan (r : TokenRing T) (t : T) : List (VirtualNode T) :=
  r.vnodes.rotate ((r.firstIndex? t).getD 0)

theorem map_node_scan (r : TokenRing T) (t : T) :
    (r.scan t).map VirtualNode.node = r.owners.rotate ((r.firstIndex? t).getD 0) := by
  rw [scan, List.map_rotate, owners]

theorem length_eraseDups_scan (r : TokenRing T) (t : T) :
    ((r.scan t).map VirtualNode.node).eraseDups.length = r.nodeCount := by
  rw [map_node_scan, rotate_owners, ← nodeCount_eq]

theorem standsAt_walk (r : TokenRing T) (t : T) :
    (r.walk t).StandsAt ((r.scan t).map VirtualNode.node) 0 := by
  rw [walk, ← r.length_eraseDups_scan t, map_node_scan]
  exact Walk.standsAt_start _ _

theorem nodup_token_scan (r : TokenRing T) (t : T) :
    ((r.scan t).map VirtualNode.token).Nodup := by
  rw [scan, List.map_rotate, List.nodup_rotate]
  exact r.ascending.nodup

theorem length_scan (r : TokenRing T) (t : T) : (r.scan t).length = r.size :=
  List.length_rotate _ _

/-- **A walk is a scan of the ring, call by call.** It yields the owners in the order of their first
tokens in the scan, each once. After so many calls it stands just behind the first token of the node
yielded last, with all other nodes still to come; further calls yield nothing and change nothing.
Only having yielded all nodes ends a walk. No token is visited twice. -/
theorem walk_call_by_call (r : TokenRing T) (t : T) :
    let owners := (r.scan t).map VirtualNode.node
    let w := r.walk t
    (w.toList = owners.eraseDups ∧ owners.eraseDups.Nodup ∧
      owners.eraseDups.length = r.nodeCount ∧ ∀ id, id ∈ owners.eraseDups ↔ id ∈ r.nodes) ∧
    (∀ k ≤ r.nodeCount, (w.after k).StandsAt owners k ∧
      (w.after k).next.1 = owners.eraseDups[k]? ∧
      (w.after k).toList = owners.eraseDups.drop k) ∧
    (∀ k, r.nodeCount ≤ k → (w.after k).next.1 = none ∧ w.after k = w.after r.nodeCount) ∧
    ∀ k, ((w.after k).next.1 = none ↔ (w.after k).remaining = 0) ∧
      (w.after k).visited ≤ r.size ∧
      (((r.scan t).take (w.after k).visited).map VirtualNode.token).Nodup := by
  intro owners w
  have hcount : owners.eraseDups.length = r.nodeCount := r.length_eraseDups_scan t
  have hstart : w.StandsAt owners 0 := r.standsAt_walk t
  have hstand : ∀ k ≤ r.nodeCount, (w.after k).StandsAt owners k := fun k hk =>
    Walk.standsAt_after hstart (hk.trans_eq hcount.symm)
  have hpast : ∀ k, r.nodeCount ≤ k → w.after k = w.after r.nodeCount := by
    intro k hk
    rw [← hcount] at hk ⊢
    exact Walk.after_of_done hstart hk
  have hany : ∀ k, ∃ calls, (w.after k).StandsAt owners calls := by
    intro k
    rcases Nat.le_total k r.nodeCount with hk | hk
    · exact ⟨k, hstand k hk⟩
    · exact ⟨r.nodeCount, hpast k hk ▸ hstand _ (Nat.le_refl _)⟩
  refine ⟨⟨hstart.toList, nodup_eraseDups _, hcount, fun id => ?_⟩, fun k hk => ?_, fun k hk => ?_,
    fun k => ?_⟩
  · rw [← mem_toList_walk (t := t), hstart.toList]
    rfl
  · exact ⟨hstand k hk, (hstand k hk).fst_next, (hstand k hk).toList⟩
  · have hend := hstand _ (Nat.le_refl r.nodeCount)
    rw [hpast k hk, hend.fst_next]
    exact ⟨List.getElem?_eq_none hcount.le, rfl⟩
  · obtain ⟨calls, h⟩ := hany k
    have hle := h.visited_le
    rw [List.length_map, length_scan] at hle
    refine ⟨h.fst_next_eq_none_iff, hle, (r.nodup_token_scan t).sublist ?_⟩
    exact (List.take_sublist _ _).map _

/-- Searched past its middle, a ring whose second node owns the last token to be scanned: a walk has
to go through all tokens, and stays where it is when asked once too often. -/
theorem walk_call_by_call_fiveTokens :
    let r : TokenRing LongToken :=
      ⟨[⟨⟨10⟩, 1⟩, ⟨⟨20⟩, 1⟩, ⟨⟨30⟩, 2⟩, ⟨⟨40⟩, 1⟩, ⟨⟨50⟩, 3⟩], by decide⟩
    let owners := (r.scan ⟨35⟩).map VirtualNode.node
    let w := r.walk ⟨35⟩
    owners = [1, 3, 1, 1, 2] ∧ w.toList = [1, 3, 2] ∧
      (2 ≤ r.nodeCount ∧ (w.after 2).StandsAt owners 2 ∧ (w.after 2).visited = 2 ∧
        (w.after 2).remaining = 1 ∧ (w.after 2).next.1 = some 2) ∧
      (3 ≤ r.nodeCount ∧ (w.after 3).StandsAt owners 3 ∧ (w.after 3).visited = 5 ∧
        (w.after 3).remaining = 0) ∧
      (r.nodeCount ≤ 4 ∧ (w.after 4).next.1 = none ∧ w.after 4 = w.after 3) := by
  intro r owners w
  have hcount : r.nodeCount = 3 := by decide
  obtain ⟨⟨hyields, -⟩, hcalls, hpast, -⟩ := r.walk_call_by_call ⟨35⟩
  obtain ⟨h2, hnext, -⟩ := hcalls 2 (by decide)
  obtain ⟨h3, -⟩ := hcalls 3 (by decide)
  obtain ⟨hnone, hstays⟩ := hpast 4 (by decide)
  refine ⟨by decide, hyields.trans (by decide), ⟨by decide, h2, h2.visited.trans (by decide), ?_,
    hnext.trans (by decide)⟩, ⟨by decide, h3, h3.visited.trans (by decide), ?_⟩, by decide, hnone,
    hcount ▸ hstays⟩
  · exact Nat.add_right_cancel (h2.remaining.trans (by decide : _ = 1 + 2))
  · exact Nat.add_right_cancel (h3.remaining.trans (by decide : _ = 0 + 3))

/-! ## Rings of some owners -/

/-- **A walk on the ring of some owners** yields what the walk on the ring of all owners yields of
them, in the same order. -/
theorem walk_of_kept_owners {vs : List (VirtualNode T)} (h : (vs.map VirtualNode.token).Nodup)
    (keep : NodeId → Bool) (t : T) :
    ∃ r r' : TokenRing T, ofList vs = .ok r ∧ ofList (vs.filter fun v => keep v.node) = .ok r' ∧
      (r'.walk t).toList = (r.walk t).toList.filter keep := by
  have hkept : ((vs.filter fun v => keep v.node).map VirtualNode.token).Nodup :=
    h.sublist (List.filter_sublist.map _)
  obtain ⟨r, hr, hv⟩ := ofList_of_nodup h
  obtain ⟨r', hr', hv'⟩ := ofList_of_nodup hkept
  have hring : r'.vnodes = r.vnodes.filter fun v => keep v.node := by
    rw [hv']
    refine (sortOn_eq_of_ascending (r.ascending.sublist List.filter_sublist) (fun v => ?_)
      hkept).symm
    rw [hv, List.mem_filter, List.mem_filter, mem_sortOn]
  exact ⟨r, r', hr, hr', toList_walk_filter hring t⟩

/-- Without the third node a search for 45 finds no token any more and goes on at the start. -/
theorem walk_of_kept_owners_fiveTokens :
    let vs : List (VirtualNode LongToken) :=
      [⟨⟨40⟩, 3⟩, ⟨⟨10⟩, 2⟩, ⟨⟨20⟩, 1⟩, ⟨⟨30⟩, 2⟩, ⟨⟨50⟩, 3⟩]
    let keep : NodeId → Bool := fun id => decide (id ≠ 3)
    (vs.map VirtualNode.token).Nodup ∧
      ∃ r r' : TokenRing LongToken, ofList vs = .ok r ∧
        ofList (vs.filter fun v => keep v.node) = .ok r' ∧
        (r.walk ⟨45⟩).toList = [3, 2, 1] ∧ (r'.walk ⟨45⟩).toList = [2, 1] := by
  intro vs keep
  have hnodup : (vs.map VirtualNode.token).Nodup := by decide
  obtain ⟨r, r', hr, hr', hwalk⟩ := walk_of_kept_owners hnodup keep ⟨45⟩
  have hall : (r.walk ⟨45⟩).toList = [3, 2, 1] := by
    rw [toList_walk, vnodesFrom, vnodes_of_ofList hr]
    decide
  exact ⟨hnodup, r, r', hr, hr', hall, hwalk.trans (by rw [hall]; decide)⟩

end TokenRing

end ReplicaRing
