import ReplicaRing.Node

/-!
# Walks along the ring

A walk visits the owners of the ring's tokens in the order of the ring, once around, and yields
each node when it meets the node's first token. It ends when every node has been yielded. It can
begin at any token: the tokens are visited by their indices, counted on from the first modulo the
size of the ring.

* `next` takes the walk to the next node that it has not yielded yet.
* `ahead` lists the owners that are not visited yet; `next_of_ahead` says what a call does with the
  first of them.
* `toList` lists the nodes that a walk still yields.
* `toList_start`: a walk yields the owners in the order of their first tokens.
-/

namespace ReplicaRing

/-- A walk in progress. -/
structure Walk where
  /-- The owners of all tokens, in the order of the ring. -/
  ring : List NodeId
  /-- The index of the token that the walk began at. -/
  first : Nat
  /-- The nodes yielded so far. -/
  seen : List NodeId
  /-- The number of nodes not yielded yet. -/
  remaining : Nat
  /-- The number of tokens visited so far. -/
  visited : Nat
  deriving DecidableEq

namespace Walk

/-- The walk from the first index along the owners of a ring, of which `nodeCount` are distinct. -/
def start (ring : List NodeId) (first nodeCount : Nat) : Walk := ⟨ring, first, [], nodeCount, 0⟩

/-- The number of tokens not visited yet. -/
def left (w : Walk) : Nat := w.ring.length - w.visited

/-- The owner of the token with this number, counted from the token that the walk began at. -/
def owner? (w : Walk) (number : Nat) : Option NodeId :=
  w.ring[(w.first + number) % w.ring.length]?

/-- Goes past one token. -/
def pass (w : Walk) : Walk := { w with visited := w.visited + 1 }

/-- Goes past one token to yield its owner. -/
def meet (w : Walk) (id : NodeId) : Walk :=
  { w.pass with seen := id :: w.seen, remaining := w.remaining - 1 }

/-- Visits tokens, no more than are left, until one is met whose owner has not been yielded. -/
def advance : (left : Nat) → Walk → Option NodeId × Walk
  | 0, w => (none, w)
  | left + 1, w =>
    match w.owner? w.visited with
    | none => (none, w)
    | some id => if id ∈ w.seen then advance left w.pass else (some id, w.meet id)

/-- The next node of the walk and the walk after it. -/
def next (w : Walk) : Option NodeId × Walk :=
  if w.remaining = 0 then (none, w) else advance w.left w

/-- The first `count` nodes that a walk yields, each with the walk after it. -/
def traceTo : Nat → Walk → List (NodeId × Walk)
  | 0, _ => []
  | count + 1, w =>
    match w.next with
    | (none, _) => []
    | (some id, w') => (id, w') :: traceTo count w'

/-- All nodes that a walk yields, each with the walk after it. -/
def trace (w : Walk) : List (NodeId × Walk) := traceTo w.remaining w

/-- All nodes that a walk yields. -/
def toList (w : Walk) : List NodeId := w.trace.map Prod.fst

/-- The walk after it has been asked for a node and had none left. -/
def finish (w : Walk) : Walk := ((w.trace.getLast?.map Prod.snd).getD w).next.2

/-! ## What lies ahead -/

/-- The owners of the tokens not visited yet, in the order in which they are visited. -/
def ahead (w : Walk) : List NodeId :=
  (List.range' w.visited w.left).filterMap w.owner?

variable {w : Walk} {id : NodeId} {rest : List NodeId} {left : Nat}

theorem left_pass (w : Walk) : w.pass.left = w.left - 1 := rfl

/-- While tokens are left, the owner of the next one is the first ahead. -/
theorem ahead_of_left (h : w.left = left + 1) :
    ∃ id, w.owner? w.visited = some id ∧ w.ahead = id :: w.pass.ahead := by
  have hlt : w.visited < w.ring.length := by
    unfold Walk.left at h
    omega
  have hid : w.owner? w.visited = some _ :=
    List.getElem?_eq_getElem (Nat.mod_lt _ (Nat.zero_lt_of_lt hlt))
  refine ⟨_, hid, ?_⟩
  rw [ahead, h, List.range'_succ, List.filterMap_cons_some hid, ahead, left_pass, h]
  rfl

theorem left_of_ahead (h : w.ahead = id :: rest) :
    ∃ left, w.left = left + 1 ∧ w.owner? w.visited = some id ∧ w.pass.ahead = rest := by
  cases hleft : w.left with
  | zero =>
    rw [ahead, hleft] at h
    cases h
  | succ left =>
    obtain ⟨id', hid, ha⟩ := ahead_of_left hleft
    rw [ha] at h
    obtain ⟨rfl, rfl⟩ := List.cons.inj h
    exact ⟨left, rfl, hid, rfl⟩

/-! ## What a walk yields -/

/-- A call passes by the tokens of nodes yielded before, and yields the next node. -/
theorem next_of_ahead (hr : w.remaining ≠ 0) (h : w.ahead = id :: rest) :
    w.next = if id ∈ w.seen then w.pass.next else (some id, w.meet id) := by
  obtain ⟨left, hleft, hid, -⟩ := left_of_ahead h
  have hpass : w.pass.next = advance left w.pass := by
    have hr' : w.pass.remaining ≠ 0 := hr
    rw [next, if_neg hr', left_pass, hleft]
    rfl
  rw [hpass, next, if_neg hr, hleft, advance, hid]

/-- A walk in progress yields the owners ahead that it has not yielded, each once. -/
theorem map_fst_traceTo {ahead owners : List NodeId} (ha : w.ahead = ahead)
    (h : (ahead.filter fun id => decide (id ∉ w.seen)).eraseDups = owners)
    (hr : w.remaining = owners.length) :
    (traceTo owners.length w).map Prod.fst = owners := by
  induction ahead generalizing w owners with
  | nil =>
    subst h
    rfl
  | cons id ahead ih =>
    obtain ⟨-, -, -, hrest⟩ := left_of_ahead ha
    by_cases hs : id ∈ w.seen
    · rw [List.filter_cons_of_neg (by simpa using hs)] at h
      have hpass := ih (w := w.pass) hrest h hr
      cases owners with
      | nil => rfl
      | cons o os =>
        have hne : w.remaining ≠ 0 := by simp [hr]
        rw [List.length_cons, traceTo] at hpass ⊢
        rw [next_of_ahead hne ha, if_pos hs]
        exact hpass
    · rw [List.filter_cons_of_pos (by simpa using hs), List.eraseDups_cons, List.filter_filter] at h
      subst h
      have hf : (ahead.filter fun a => !a == id && decide (a ∉ w.seen)) =
          ahead.filter fun a => decide (a ∉ id :: w.seen) := by
        refine List.filter_congr fun a _ => ?_
        by_cases ha : a = id <;> simp [ha]
      have hne : w.remaining ≠ 0 := by simp [hr]
      rw [hf, List.length_cons] at hr ⊢
      have hr' : (w.meet id).remaining =
          (ahead.filter fun a => decide (a ∉ id :: w.seen)).eraseDups.length := by
        rw [meet, hr]
        rfl
      rw [traceTo, next_of_ahead hne ha, if_neg hs]
      exact congrArg (id :: ·) (ih (w := w.meet id) hrest rfl hr')

theorem toList_start (ring : List NodeId) (first : Nat) {owners : List NodeId}
    (h : (start ring first owners.length).ahead.eraseDups = owners) :
    (start ring first owners.length).toList = owners :=
  map_fst_traceTo rfl (by rw [List.filter_eq_self.2 (by simp [start])]; exact h) rfl

end Walk

end ReplicaRing
