import ReplicaRing.Arc
import ReplicaRing.Directory

/-!
# Replicas and replica sets

A replica is the claim of one endpoint to one arc of the ring, full or transient. A replica set
lists the replicas of an arc in placement order, at most one for each endpoint; the first is the
primary replica. Beside the list it keeps an index, which holds each endpoint's position.

* `positions_get?`: the index holds exactly the endpoints of the list, each at its position.
* `push` adds a replica unless its endpoint is present (`push_of_mem`, `replicas_push`), and its
  endpoint to the index (`positions_concat`).
* `at?_eq_some_iff`: looking an endpoint up finds exactly its replica.
* `byDatacenter` groups a set by the datacenters of a directory.
-/

namespace ReplicaRing

/-- The claim of one endpoint to one arc. -/
structure Replica (T : Type) where
  endpoint : Endpoint
  arc : Arc T
  isTransient : Bool
  deriving DecidableEq

namespace Replica

variable {T : Type} [Token T]

def isFull (r : Replica T) : Bool := !r.isTransient

def text (r : Replica T) : String :=
  (if r.isTransient then "Transient" else "Full") ++ "(" ++ r.endpoint.text ++ "," ++
    r.arc.text ++ ")"

end Replica

/-- Replicas with distinct endpoints, in placement order, and the position of each endpoint. -/
structure ReplicaSet (T : Type) where
  replicas : List (Replica T)
  positions : OrderedMap Endpoint Nat
  positions_get? (e : Endpoint) (i : Nat) :
    positions.get? e = some i ↔ replicas[i]?.map Replica.endpoint = some e

namespace ReplicaSet

variable {T : Type}

/-- The positions are determined by the replicas. -/
theorem ext_replicas {a b : ReplicaSet T} (h : a.replicas = b.replicas) : a = b := by
  have hpositions : a.positions = b.positions :=
    OrderedMap.ext_get? fun e => Option.ext fun i => by
      rw [a.positions_get?, b.positions_get?, h]
  cases a
  cases b
  cases h
  cases hpositions
  rfl

instance [DecidableEq T] : DecidableEq (ReplicaSet T) := fun a b =>
  decidable_of_iff (a.replicas = b.replicas) ⟨ext_replicas, fun h => h ▸ rfl⟩

/-- No endpoint is at two positions. -/
theorem nodup (s : ReplicaSet T) : (s.replicas.map Replica.endpoint).Nodup := by
  rw [List.nodup_iff_pairwise_ne, List.pairwise_iff_getElem]
  intro i j hi hj hij he
  rw [List.length_map] at hi hj
  rw [List.getElem_map, List.getElem_map] at he
  have hfirst : s.positions.get? s.replicas[i].endpoint = some i :=
    (s.positions_get? _ _).2 (by rw [List.getElem?_eq_getElem hi]; rfl)
  have hsecond : s.positions.get? s.replicas[i].endpoint = some j :=
    (s.positions_get? _ _).2 (by rw [List.getElem?_eq_getElem hj, he]; rfl)
  rw [hfirst, Option.some.injEq] at hsecond
  omega

/-- The set without replicas. -/
def empty : ReplicaSet T := ⟨[], ∅, fun _ _ => by simp⟩

instance : EmptyCollection (ReplicaSet T) := ⟨empty⟩
instance : Inhabited (ReplicaSet T) := ⟨empty⟩

/-- A set with room for so many replicas. What it has room for cannot be told from it. -/
def withCapacity (_capacity : Nat) : ReplicaSet T := ∅

/-- The endpoints in placement order. -/
def endpoints (s : ReplicaSet T) : List Endpoint := s.replicas.map Replica.endpoint

/-- Whether the endpoint has a replica. -/
def contains (s : ReplicaSet T) (e : Endpoint) : Bool := (s.positions.get? e).isSome

theorem contains_iff {s : ReplicaSet T} {e : Endpoint} :
    s.contains e = true ↔ e ∈ s.endpoints := by
  rw [contains, Option.isSome_iff_exists, endpoints, List.mem_iff_getElem?]
  exact exists_congr fun i => by rw [s.positions_get?, List.getElem?_map]

/-- A new endpoint gets the position behind all others. -/
theorem positions_concat (s : ReplicaSet T) {r : Replica T} (h : ¬s.contains r.endpoint)
    (e : Endpoint) (i : Nat) :
    (s.positions.insert r.endpoint s.replicas.length).get? e = some i ↔
      (s.replicas ++ [r])[i]?.map Replica.endpoint = some e := by
  have hnew : s.positions.get? r.endpoint = none := by simpa [contains] using h
  have hold := s.positions_get? e i
  rw [OrderedMap.get?_insert]
  rcases Nat.lt_trichotomy i s.replicas.length with hi | rfl | hi
  · rw [List.getElem?_append_left hi, ← hold]
    split
    · rename_i he
      rw [he, hnew, Option.some.injEq]
      exact ⟨fun h => by omega, fun h => nomatch h⟩
    · rfl
  · rw [List.getElem?_concat_length, Option.map_some, Option.some.injEq]
    rw [List.getElem?_eq_none (Nat.le_refl _)] at hold
    split
    · rename_i he
      simp [he]
    · rename_i he
      simp [hold, Ne.symm he]
  · rw [List.getElem?_eq_none (Nat.le_of_lt hi)] at hold
    rw [List.getElem?_eq_none (by rw [List.length_append]; exact hi)]
    split
    · simp
      omega
    · exact hold

/-- Appends a replica unless its endpoint is present; also tells whether it was appended. -/
def push (s : ReplicaSet T) (r : Replica T) : Bool × ReplicaSet T :=
  if h : s.contains r.endpoint then (false, s)
  else
    (true,
      { replicas := s.replicas ++ [r]
        positions := s.positions.insert r.endpoint s.replicas.length
        positions_get? := s.positions_concat h })

/-- The listed replicas, of each endpoint the first. -/
def ofList (rs : List (Replica T)) : ReplicaSet T := rs.foldl (fun s r => (s.push r).2) ∅

/-- The number of replicas. -/
def size (s : ReplicaSet T) : Nat := s.replicas.length

def isEmpty (s : ReplicaSet T) : Bool := s.replicas.isEmpty

/-- The replica with this index. -/
def get? (s : ReplicaSet T) (i : Nat) : Option (Replica T) := s.replicas[i]?

instance : GetElem (ReplicaSet T) Nat (Replica T) fun s i => i < s.size where
  getElem s i h := s.replicas.get ⟨i, h⟩

/-- The replica that was placed first. -/
def primary? (s : ReplicaSet T) : Option (Replica T) := s.replicas.head?

/-- The replica of this endpoint. -/
def at? (s : ReplicaSet T) (e : Endpoint) : Option (Replica T) :=
  (s.positions.get? e).bind s.get?

/-- The full replicas in placement order. -/
def full (s : ReplicaSet T) : List (Replica T) := s.replicas.filter fun r => !r.isTransient

/-- The transient replicas in placement order. -/
def transient (s : ReplicaSet T) : List (Replica T) := s.replicas.filter Replica.isTransient

theorem push_of_mem {s : ReplicaSet T} {r : Replica T} (h : r.endpoint ∈ s.endpoints) :
    s.push r = (false, s) :=
  dif_pos (contains_iff.2 h)

theorem replicas_push {s : ReplicaSet T} {r : Replica T} (h : r.endpoint ∉ s.endpoints) :
    (s.push r).1 = true ∧ (s.push r).2.replicas = s.replicas ++ [r] := by
  rw [push, dif_neg fun hc => h (contains_iff.1 hc)]
  exact ⟨rfl, rfl⟩

theorem replicas_foldl_push {s : ReplicaSet T} {rs : List (Replica T)}
    (h : ((s.replicas ++ rs).map Replica.endpoint).Nodup) :
    (rs.foldl (fun s r => (s.push r).2) s).replicas = s.replicas ++ rs := by
  induction rs generalizing s with
  | nil =>
    rw [List.append_nil]
    rfl
  | cons r rs ih =>
    have hr : r.endpoint ∉ s.endpoints := by
      rw [List.map_append, List.map_cons] at h
      exact fun hm => (List.nodup_append.1 h).2.2 _ hm _ (.head _) rfl
    have hp := (replicas_push hr).2
    rw [List.append_cons, ← hp] at h ⊢
    exact ih h

theorem replicas_ofList {rs : List (Replica T)}
    (h : (rs.map Replica.endpoint).Nodup) : (ofList rs).replicas = rs :=
  replicas_foldl_push (s := ∅) h

theorem at?_eq_some_iff {s : ReplicaSet T} {e : Endpoint} {r : Replica T} :
    s.at? e = some r ↔ r ∈ s.replicas ∧ r.endpoint = e := by
  simp only [at?, get?, Option.bind_eq_some_iff, s.positions_get?]
  constructor
  · rintro ⟨i, he, hr⟩
    rw [hr, Option.map_some, Option.some.injEq] at he
    exact ⟨List.mem_of_getElem? hr, he⟩
  · rintro ⟨hm, he⟩
    obtain ⟨i, hr⟩ := List.mem_iff_getElem?.1 hm
    exact ⟨i, by rw [hr, Option.map_some, he], hr⟩

/-- The index finds what a search through the list finds. -/
theorem at?_eq_find? (s : ReplicaSet T) (e : Endpoint) :
    s.at? e = s.replicas.find? fun r => decide (r.endpoint = e) :=
  Option.ext fun _ => at?_eq_some_iff.trans (find?_key_eq_some_iff s.nodup).symm

/-- The replicas of each datacenter in placement order; an endpoint that the directory does not
know is left out. -/
def byDatacenter (s : ReplicaSet T) (d : Directory) : OrderedMap String (List (Replica T)) :=
  .groups <| s.replicas.filterMap fun r =>
    (d.locationAt? r.endpoint).map fun location => (location.datacenter, r)

def text [Token T] (s : ReplicaSet T) : String :=
  "[" ++ ", ".intercalate (s.replicas.map Replica.text) ++ "]"

end ReplicaSet

end ReplicaRing
