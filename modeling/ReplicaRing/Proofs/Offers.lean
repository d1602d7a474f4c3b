import Mathlib.Data.List.Induction
import Mathlib.Data.List.Perm.Basic
import ReplicaRing.ReplicaSet
import ReplicaRing.Token.Long

/-!
# What a replica set makes of the replicas offered to it

A replica set begins empty or with a list, and from then on it only ever takes in one replica after
another. Whatever it was offered, its list and its index say the same: it holds of each endpoint
the first replica, in the order in which they came, and nothing else about the offers is left.

* `firstOfEach`: the first elements with their keys; `firstOfEach_concat` is the step.
* `ReplicaSet.replicas_of_offered`: they are what a set holds, by induction on the offers.
* `ReplicaSet.at?_endpoint`: the index leads from the endpoint at a position to that position.
* `ReplicaSet.offers_recorded`: what a set answers after any offers.
-/

namespace ReplicaRing

/-! ## First elements -/

section
variable {α K : Type} [DecidableEq K] {key : α → K}

/-- The elements whose key no earlier element has. -/
def firstOfEach (key : α → K) (xs : List α) : List α :=
  xs.eraseDupsBy fun x y => decide (key x = key y)

theorem firstOfEach_cons (x : α) (xs : List α) : firstOfEach key (x :: xs) =
    x :: firstOfEach key (xs.filter fun y => decide (key y ≠ key x)) := by
  rw [firstOfEach, List.eraseDupsBy_cons]
  simp only [decide_eq_false_iff_not]
  rfl

/-- A last element is one of the first if its key is new. -/
theorem firstOfEach_concat (x : α) : ∀ xs : List α, firstOfEach key (xs ++ [x]) =
    if key x ∈ xs.map key then firstOfEach key xs else firstOfEach key xs ++ [x]
  | [] => rfl
  | y :: ys => by
    rw [List.cons_append, firstOfEach_cons, firstOfEach_cons, List.filter_append]
    by_cases hxy : key x = key y
    · rw [List.filter_cons_of_neg (by simp [hxy]), List.filter_nil, List.append_nil,
        if_pos (by simp [hxy])]
    · -- what the filter drops has another key than `x`
      have hmem : key x ∈ (ys.filter fun z => decide (key z ≠ key y)).map key ↔
          key x ∈ (y :: ys).map key := by
        simp only [List.mem_map, List.mem_filter, List.map_cons, List.mem_cons, hxy, false_or]
        refine exists_congr fun z => ⟨fun h => ⟨h.1.1, h.2⟩, fun h => ⟨⟨h.1, ?_⟩, h.2⟩⟩
        simpa [h.2] using hxy
      rw [List.filter_cons_of_pos (by simp [hxy]), List.filter_nil, firstOfEach_concat x,
        if_congr hmem rfl rfl]
      split <;> rfl
termination_by xs => xs.length
decreasing_by
  simp only [List.length_cons]
  exact Nat.lt_succ_of_le (List.length_filter_le _ _)

theorem mem_map_firstOfEach {k : K} {xs : List α} :
    k ∈ (firstOfEach key xs).map key ↔ k ∈ xs.map key := by
  induction xs using List.reverseRecOn with
  | nil => rfl
  | append_singleton xs x ih =>
    rw [firstOfEach_concat]
    split
    · rename_i h
      rw [ih, List.map_append, List.mem_append]
      refine ⟨.inl, fun hk => hk.elim id fun hk => ?_⟩
      rwa [List.mem_singleton.1 hk]
    · rw [List.map_append, List.map_append, List.mem_append, List.mem_append, ih]

end

namespace ReplicaSet

variable {T : Type}

/-! ## Offers -/

/-- The set came about in this way: it was empty, with room for any number of replicas, or was
collected from a list, and then replicas were pushed. The replicas are all that it was offered. -/
inductive Offered : ReplicaSet T → List (Replica T) → Prop
  | empty : Offered ∅ []
  | withCapacity (capacity : Nat) : Offered (withCapacity capacity) []
  | ofList (rs : List (Replica T)) : Offered (ofList rs) rs
  | push {s : ReplicaSet T} {rs : List (Replica T)} (h : Offered s rs) (r : Replica T) :
    Offered (s.push r).2 (rs ++ [r])

section
variable {s : ReplicaSet T} {rs : List (Replica T)}

/-- One push keeps the first replica of each endpoint. -/
theorem replicas_push_of_eq (h : s.replicas = firstOfEach Replica.endpoint rs) (r : Replica T) :
    (s.push r).2.replicas = firstOfEach Replica.endpoint (rs ++ [r]) := by
  have hmem : r.endpoint ∈ s.endpoints ↔ r.endpoint ∈ rs.map Replica.endpoint := by
    rw [endpoints, h, mem_map_firstOfEach]
  rw [firstOfEach_concat]
  split
  · rw [push_of_mem (hmem.2 ‹_›), h]
  · rw [(replicas_push (mt hmem.1 ‹_›)).2, h]

theorem replicas_ofList_eq (rs : List (Replica T)) :
    (ofList rs).replicas = firstOfEach Replica.endpoint rs := by
  induction rs using List.reverseRecOn with
  | nil => rfl
  | append_singleton rs r ih =>
    rw [ofList, List.foldl_append]
    exact replicas_push_of_eq ih r

/-- **A set holds of each endpoint the first replica that it was offered.** -/
theorem replicas_of_offered (h : s.Offered rs) :
    s.replicas = firstOfEach Replica.endpoint rs := by
  induction h with
  | empty => rfl
  | withCapacity => rfl
  | ofList rs => exact replicas_ofList_eq rs
  | push _ r ih => exact replicas_push_of_eq ih r

end

/-! ## Answers -/

variable (s : ReplicaSet T)

theorem fst_push_iff (r : Replica T) : (s.push r).1 = true ↔ r.endpoint ∉ s.endpoints := by
  refine ⟨fun h hm => ?_, fun h => (replicas_push h).1⟩
  rw [push_of_mem hm] at h
  cases h

theorem snd_push_of_rejected {r : Replica T} (h : (s.push r).1 = false) : (s.push r).2 = s := by
  have hmem : r.endpoint ∈ s.endpoints := by
    by_contra hm
    rw [(s.fst_push_iff r).2 hm] at h
    cases h
  rw [push_of_mem hmem]

theorem at?_eq_none_iff (e : Endpoint) : s.at? e = none ↔ e ∉ s.endpoints := by
  rw [Option.eq_none_iff_forall_ne_some, endpoints, List.mem_map]
  simp only [ne_eq, at?_eq_some_iff, not_exists]

/-- Replicas of one endpoint are one replica. -/
theorem eq_of_endpoint_eq {a b : Replica T} (ha : a ∈ s.replicas) (hb : b ∈ s.replicas)
    (h : a.endpoint = b.endpoint) : a = b :=
  Option.some.inj ((at?_eq_some_iff.2 ⟨ha, rfl⟩).symm.trans (at?_eq_some_iff.2 ⟨hb, h.symm⟩))

theorem get?_eq_getElem {i : Nat} (h : i < s.size) : s.get? i = some s[i] :=
  List.getElem?_eq_getElem h

/-- From the endpoint at a position the index leads back there. -/
theorem at?_endpoint {i : Nat} (h : i < s.size) : s.at? s[i].endpoint = some s[i] :=
  at?_eq_some_iff.2 ⟨List.mem_of_getElem? (s.get?_eq_getElem h), rfl⟩

theorem full_append_transient_perm : (s.full ++ s.transient).Perm s.replicas := by
  have hsplit := List.filter_append_perm (fun r : Replica T => !r.isTransient) s.replicas
  simp only [Bool.not_not] at hsplit
  exact hsplit

theorem ofList_replicas : ofList s.replicas = s :=
  ext_replicas (replicas_ofList s.nodup)

/-- What a set answers that was offered these replicas. -/
structure Records (s : ReplicaSet T) (rs : List (Replica T)) : Prop where
  replicas : s.replicas = firstOfEach Replica.endpoint rs
  pushed (r : Replica T) : (s.push r).1 = true ↔ r.endpoint ∉ s.endpoints
  rejected (r : Replica T) : (s.push r).1 = false → (s.push r).2 = s
  contains (e : Endpoint) : s.contains e = true ↔ e ∈ s.endpoints
  found (e : Endpoint) (r : Replica T) : s.at? e = some r ↔
    r ∈ s.replicas ∧ r.endpoint = e ∧ ∀ r' ∈ s.replicas, r'.endpoint = e → r' = r
  missing (e : Endpoint) : s.at? e = none ↔ e ∉ s.endpoints
  position (i : Nat) (h : i < s.size) : s.get? i = some s[i] ∧ s.at? s[i].endpoint = some s[i]
  full : s.full.Sublist s.replicas ∧ ∀ r ∈ s.full, r.isFull = true
  transient : s.transient.Sublist s.replicas ∧ ∀ r ∈ s.transient, r.isTransient = true
  split : (s.full ++ s.transient).Perm s.replicas
  collected : ofList s.replicas = s

/-- **Whatever a replica set was offered**, it holds of each endpoint the first replica, in order,
and a push takes in just the replicas of new endpoints. All its answers agree with what it holds:
an endpoint is found if it is there, and its only replica with it, at whatever position. The set is
determined by what it holds, not by the room that it had or the replicas that it refused. -/
theorem offers_recorded :
    (∀ (s : ReplicaSet T) (rs : List (Replica T)), s.Offered rs → s.Records rs) ∧
    ∀ (s s' : ReplicaSet T) (rs rs' : List (Replica T)), s.Offered rs → s'.Offered rs' →
      (s = s' ↔ s.replicas = s'.replicas) ∧
      (s = s' ↔ firstOfEach Replica.endpoint rs = firstOfEach Replica.endpoint rs') := by
  have hext : ∀ s s' : ReplicaSet T, s = s' ↔ s.replicas = s'.replicas :=
    fun s s' => ⟨congrArg replicas, ext_replicas⟩
  constructor
  · intro s rs h
    exact
      { replicas := replicas_of_offered h
        pushed := s.fst_push_iff
        rejected := fun _ => s.snd_push_of_rejected
        contains := fun _ => contains_iff
        found := fun e r => by
          rw [at?_eq_some_iff]
          refine ⟨fun ⟨hr, he⟩ => ⟨hr, he, fun r' hr' he' => ?_⟩, fun h => ⟨h.1, h.2.1⟩⟩
          exact s.eq_of_endpoint_eq hr' hr (he'.trans he.symm)
        missing := s.at?_eq_none_iff
        position := fun _ hi => ⟨s.get?_eq_getElem hi, s.at?_endpoint hi⟩
        full := ⟨List.filter_sublist, fun _ hr => (List.mem_filter.1 hr).2⟩
        transient := ⟨List.filter_sublist, fun _ hr => (List.mem_filter.1 hr).2⟩
        split := s.full_append_transient_perm
        collected := s.ofList_replicas }
  · intro s s' rs rs' h h'
    refine ⟨hext s s', ?_⟩
    rw [hext, replicas_of_offered h, replicas_of_offered h']

/-- An endpoint is offered twice, first full and then transient. -/
theorem offers_recorded_repeated :
    let first : Replica LongToken := ⟨.v4 1 7000, ⟨⟨400⟩, ⟨100⟩⟩, false⟩
    let second : Replica LongToken := ⟨.v4 2 7000, ⟨⟨400⟩, ⟨100⟩⟩, true⟩
    let again : Replica LongToken := { first with isTransient := true }
    let s := (((withCapacity 1).push first).2.push second).2
    s.Offered [first, second] ∧ s.Records [first, second] ∧ s.replicas = [first, second] ∧
      s.push again = (false, s) ∧ s.at? first.endpoint = some first ∧
      (s.push again).2.Offered [first, second, again] ∧ s = ofList [first, second] := by
  intro first second again s
  obtain ⟨hrecords, hequal⟩ := offers_recorded (T := LongToken)
  have hoffered : s.Offered [first, second] := ((Offered.withCapacity 1).push first).push second
  have hs := hrecords s _ hoffered
  have hreplicas : s.replicas = [first, second] := hs.replicas.trans (by decide)
  have hrefused : (s.push again).1 = false := by decide
  have hpush : s.push again = (false, s) := Prod.ext hrefused (hs.rejected again hrefused)
  refine ⟨hoffered, hs, hreplicas, hpush, (hs.found _ _).2 ?_, hoffered.push again,
    (hequal s _ _ _ hoffered (.ofList [first, second])).2.2 rfl⟩
  rw [hreplicas]
  decide

end ReplicaSet

end ReplicaRing
