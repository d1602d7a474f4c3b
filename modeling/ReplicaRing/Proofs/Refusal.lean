import Mathlib.Order.Bounds.Defs
import ReplicaRing.Proofs.Acceptance
import ReplicaRing.Proofs.Members
import ReplicaRing.Proofs.Reordering
import ReplicaRing.Proofs.Results

/-!
# Why a draft is refused

A draft that is not consistent may be at fault in several ways at once. Freezing reports one of its
faults, and which one is a matter of the draft's entries alone: a token with several claims before
anything else, then the first node that collides with an earlier one, then the least owner that is
not registered, then the least node that owns nothing (`Draft.Refused`).

* `TokenRing.ofList_eq_error_iff`, `Directory.ofList_eq_error_iff`, `Snapshot.join_eq_error_iff`:
  when the steps of freezing fail, and with what.
* `Draft.freeze_eq_error_iff`: the same for drafts.
* `Draft.freeze_outcome`: what freezing answers for any draft.
-/

namespace ReplicaRing

/-! ## Lists with a key -/

section
variable {α K : Type} {key : α → K} {xs : List α}

theorem length_filter_key_le_one [DecidableEq K] (h : (xs.map key).Nodup) (k : K) :
    (xs.filter fun x => decide (key x = k)).length ≤ 1 := by
  have hcount := List.nodup_iff_count_le_one.1 h k
  rw [List.count, List.countP_map, List.countP_eq_length_filter] at hcount
  exact hcount

theorem not_nodup_map_iff : ¬(xs.map key).Nodup ↔ ∃ (i j : Nat) (x y : α), i < j ∧
    xs[i]? = some x ∧ xs[j]? = some y ∧ key x = key y := by
  rw [List.nodup_iff_pairwise_ne, List.pairwise_map, List.pairwise_iff_getElem]
  constructor
  · intro h
    by_contra hnone
    refine h fun i j hi hj hij he => hnone ?_
    exact ⟨i, j, _, _, hij, List.getElem?_eq_getElem hi, List.getElem?_eq_getElem hj, he⟩
  · rintro ⟨i, j, x, y, hij, hx, hy, he⟩ h
    obtain ⟨hi, rfl⟩ := List.getElem?_eq_some_iff.1 hx
    obtain ⟨hj, rfl⟩ := List.getElem?_eq_some_iff.1 hy
    exact h i j hi hj hij he

variable [LE K] [LT K] [Std.IsLinearOrder K] [Std.LawfulOrderLT K] {p : α → Bool} {x : α}

/-- A search of an ascending list stops at the least of the elements that it is for. -/
theorem Ascending.le_of_find? (h : Ascending key xs) (hx : xs.find? p = some x) :
    ∀ y ∈ xs, p y = true → key x ≤ key y := by
  obtain ⟨-, front, back, rfl, hfront⟩ := List.find?_eq_some_iff_append.1 hx
  intro y hy hp
  rcases List.mem_append.1 hy with hy | hy
  · have hn := hfront y hy
    simp [hp] at hn
  · rcases List.mem_cons.1 hy with rfl | hy
    · exact Std.le_refl _
    · have hlt := (List.pairwise_cons.1 (List.pairwise_append.1 h).2.1).1 y hy
      exact Std.le_of_lt hlt

theorem Ascending.find?_eq_some_iff (h : Ascending key xs) : xs.find? p = some x ↔
    x ∈ xs ∧ p x = true ∧ ∀ y ∈ xs, p y = true → key x ≤ key y := by
  constructor
  · intro hx
    exact ⟨List.mem_of_find?_eq_some hx, List.find?_some hx, h.le_of_find? hx⟩
  · rintro ⟨hx, hp, hleast⟩
    obtain ⟨y, hy⟩ : ∃ y, xs.find? p = some y := by
      rw [← Option.isSome_iff_exists, List.find?_isSome]
      exact ⟨x, hx, hp⟩
    have hyx := h.le_of_find? hy x hx hp
    have hxy := hleast y (List.mem_of_find?_eq_some hy) (List.find?_some hy)
    rw [hy, h.eq_of_key_eq (List.mem_of_find?_eq_some hy) hx (Std.le_antisymm hyx hxy)]

end

/-! ## Rings -/

section
variable {T : Type} [Token T] {vs : List (VirtualNode T)} {c c' : TokenClash T}

/-- The clash is about the least token with more than one claim, and between the first two that
are listed. -/
structure TokenClash.IsFirst (c : TokenClash T) (vs : List (VirtualNode T)) : Prop where
  claimants : ∃ more, ((vs.filter fun v => decide (v.token = c.token)).map VirtualNode.node) =
    c.first :: c.second :: more
  least : ∀ t < c.token, (vs.filter fun v => decide (v.token = t)).length ≤ 1

namespace TokenClash

theorem IsFirst.two_claims (h : c.IsFirst vs) :
    2 ≤ (vs.filter fun v => decide (v.token = c.token)).length := by
  obtain ⟨more, hc⟩ := h.claimants
  have hlen := congrArg List.length hc
  rw [List.length_map] at hlen
  simp [hlen]

theorem IsFirst.not_nodup (h : c.IsFirst vs) : ¬(vs.map VirtualNode.token).Nodup := by
  intro hn
  have hone := length_filter_key_le_one hn c.token
  have htwo := h.two_claims
  omega

theorem IsFirst.eq (h : c.IsFirst vs) (h' : c'.IsFirst vs) : c = c' := by
  have hnot : ∀ {a b : TokenClash T}, a.IsFirst vs → b.IsFirst vs → ¬a.token < b.token := by
    intro a b ha hb hlt
    have hone := hb.least _ hlt
    have htwo := ha.two_claims
    omega
  have ht : c.token = c'.token := by
    have h1 := hnot h h'
    have h2 := hnot h' h
    grind
  obtain ⟨more, hc⟩ := h.claimants
  obtain ⟨more', hc'⟩ := h'.claimants
  rw [ht, hc'] at hc
  cases c
  cases c'
  cases hc
  cases ht
  rfl

/-- Where a scan of a sorted list stops: everything up to there ascends strictly. -/
theorem exists_of_find?_eq_some (hs : vs.Pairwise fun a b => a.token ≤ b.token)
    (h : find? vs = some c) : ∃ front a b back, vs = front ++ a :: b :: back ∧
      a.token = b.token ∧ c = ⟨a.token, a.node, b.node⟩ ∧
      Ascending VirtualNode.token (front ++ [a]) := by
  induction vs with
  | nil => cases h
  | cons a vs ih =>
    obtain ⟨ha, hs⟩ := List.pairwise_cons.1 hs
    cases vs with
    | nil => cases h
    | cons b vs =>
      rw [find?] at h
      split at h
      · rename_i hab
        cases h
        exact ⟨[], a, b, vs, rfl, hab, rfl, List.pairwise_singleton _ _⟩
      · rename_i hab
        obtain ⟨front, a', b', back, hl, he, hc, hasc⟩ := ih hs h
        refine ⟨a :: front, a', b', back, congrArg (a :: ·) hl, he, hc, ?_⟩
        refine List.pairwise_cons.2 ⟨fun v hv => ?_, hasc⟩
        -- `a` is below its neighbour, and nothing behind that is lower
        have hlt : a.token < b.token := by
          have := ha b (.head _)
          grind
        have hv : v ∈ b :: vs := by
          rw [hl, List.append_cons]
          exact List.mem_append_left _ hv
        rcases List.mem_cons.1 hv with rfl | hv
        · exact hlt
        · have := (List.pairwise_cons.1 hs).1 v hv
          grind

/-- **A scan of the sorted list finds the first clash of the list.** -/
theorem isFirst_of_find? (h : find? (sortOn VirtualNode.token vs) = some c) : c.IsFirst vs := by
  have hs := sortOn_sorted VirtualNode.token vs
  have hsame := sameByKey_sortOn VirtualNode.token vs
  obtain ⟨front, a, b, back, hl, hab, rfl, hasc⟩ := exists_of_find?_eq_some hs h
  rw [hl] at hs hsame
  have hfront : ∀ v ∈ front, v.token < a.token := fun v hv =>
    (List.pairwise_append.1 hasc).2.2 v hv a (.head _)
  have hback : ∀ v ∈ a :: b :: back, a.token ≤ v.token := by
    intro v hv
    rcases List.mem_cons.1 hv with rfl | hv
    · exact Std.le_refl _
    · exact (List.pairwise_cons.1 (List.pairwise_append.1 hs).2.1).1 v hv
  constructor
  case claimants =>
    have hnone : (front.filter fun v => decide (v.token = a.token)) = [] :=
      List.filter_eq_nil_iff.2 fun v hv => by
        have := hfront v hv
        simp only [decide_eq_true_eq]
        grind
    refine ⟨(back.filter fun v => decide (v.token = a.token)).map VirtualNode.node, ?_⟩
    rw [← hsame a.token, List.filter_append, hnone]
    simp [hab]
  case least =>
    intro t ht
    have hnone : ((a :: b :: back).filter fun v => decide (v.token = t)) = [] :=
      List.filter_eq_nil_iff.2 fun v hv => by
        have := hback v hv
        simp only [decide_eq_true_eq]
        grind
    rw [← hsame t, List.filter_append, hnone, List.append_nil]
    exact length_filter_key_le_one (Ascending.nodup (List.pairwise_append.1 hasc).1) t

end TokenClash

theorem TokenRing.ofList_eq_error_iff : ofList vs = .error c ↔ c.IsFirst vs := by
  have hfirst : ∀ {c}, ofList vs = .error c → c.IsFirst vs := by
    intro c h
    rw [ofList] at h
    split at h
    · rename_i hfind
      cases h
      exact TokenClash.isFirst_of_find? hfind
    · cases h
  refine ⟨hfirst, fun hc => ?_⟩
  cases h : ofList vs with
  | error c' => rw [(hfirst h).eq hc]
  | ok r => exact absurd (ofList_eq_ok_iff.1 h).1 hc.not_nodup

end

/-! ## Directories -/

/-- The node collides with one of these; a taken endpoint counts before a taken identity. -/
inductive RegistrationError.Between (earlier : List Node) (n : Node) : RegistrationError → Prop
  | endpointTaken {m : Node} (hm : m ∈ earlier) (he : m.endpoint = n.endpoint) :
      Between earlier n (.endpointTaken n.endpoint m.id n.id)
  | registeredTwice {m : Node} (hm : m ∈ earlier) (hi : m.id = n.id)
      (hfree : ∀ m ∈ earlier, m.endpoint ≠ n.endpoint) : Between earlier n (.registeredTwice n.id)

/-- The collision is that of the first node in the list that collides with an earlier one. -/
def RegistrationError.IsFirst (e : RegistrationError) (ns : List Node) : Prop :=
  ∃ earlier n later, ns = earlier ++ n :: later ∧ (earlier.map Node.endpoint).Nodup ∧
    (earlier.map Node.id).Nodup ∧ e.Between earlier n

namespace Registry

variable {r : Registry} {n : Node} {ns : List Node} {e : RegistrationError}

theorem register_eq_error_iff : r.register n = .error e ↔ e.Between r.nodes n := by
  constructor
  · intro h
    unfold register at h
    split at h
    · rename_i holder hholder
      cases h
      obtain ⟨m, hm, he, rfl⟩ := (r.peers_get? _ _).1 hholder
      exact .endpointTaken hm he
    · rename_i hnone
      split at h
      · rename_i m hm
        cases h
        obtain ⟨hm, hi⟩ := node?_eq_some_iff.1 hm
        exact .registeredTwice hm hi (peers_get?_eq_none_iff.1 hnone)
      · cases h
  · intro h
    cases h with
    | @endpointTaken m hm he =>
      have hat : r.peers.get? n.endpoint = some m.id := (r.peers_get? _ _).2 ⟨m, hm, he, rfl⟩
      unfold register
      split
      · rename_i holder hholder
        rw [hat] at hholder
        cases hholder
        rfl
      · rename_i hnone
        rw [hat] at hnone
        cases hnone
    | @registeredTwice m hm hi hother =>
      have hid : r.node? n.id = some m := node?_eq_some_iff.2 ⟨hm, hi⟩
      unfold register
      split
      · rename_i holder hholder
        obtain ⟨other, hmem, he, -⟩ := (r.peers_get? _ _).1 hholder
        exact absurd he (hother other hmem)
      · split
        · rfl
        · rename_i hnone
          rw [hid] at hnone
          cases hnone

end Registry

theorem RegistrationError.Between.congr {ns ns' : List Node} {n : Node} {e : RegistrationError}
    (h : e.Between ns n) (hm : ∀ m, m ∈ ns ↔ m ∈ ns') : e.Between ns' n := by
  cases h with
  | endpointTaken hmem he => exact .endpointTaken ((hm _).1 hmem) he
  | registeredTwice hmem hi hfree =>
    exact .registeredTwice ((hm _).1 hmem) hi fun m hm' => hfree m ((hm m).2 hm')

theorem Directory.ofList_eq_error_iff {ns : List Node} {e : RegistrationError} :
    ofList ns = .error e ↔ e.IsFirst ns := by
  unfold ofList RegistrationError.IsFirst
  rw [map_eq_error_iff, Registry.ofList, foldlM_eq_error_iff]
  refine exists_congr fun earlier => exists_congr fun n => exists_congr fun later =>
    and_congr_right fun _ => ?_
  constructor
  · rintro ⟨r, hr, hn⟩
    obtain ⟨he, hi, hnodes⟩ := ofList_eq_ok_iff.1 (map_eq_ok_iff.2 ⟨r, hr, rfl⟩)
    refine ⟨he, hi, (Registry.register_eq_error_iff.1 hn).congr fun m => ?_⟩
    change r.nodes = sortOn Node.id earlier at hnodes
    rw [hnodes, mem_sortOn]
  · rintro ⟨he, hi, hn⟩
    obtain ⟨d, hd, hnodes⟩ := ofList_of_nodup he hi
    obtain ⟨r, hr, rfl⟩ := map_eq_ok_iff.1 hd
    refine ⟨r, hr, Registry.register_eq_error_iff.2 (hn.congr fun m => ?_)⟩
    change r.nodes = sortOn Node.id earlier at hnodes
    rw [hnodes, mem_sortOn]

/-! ## Members -/

variable {T : Type}

namespace Draft

/-- The owners that no node is registered for. -/
def unregistered (d : Draft T) : Set NodeId :=
  {id | (∃ v ∈ d.vnodes, v.node = id) ∧ ∀ n ∈ d.nodes, n.id ≠ id}

/-- The registered identities that own nothing. -/
def idle (d : Draft T) : Set NodeId :=
  {id | (∃ n ∈ d.nodes, n.id = id) ∧ ∀ v ∈ d.vnodes, v.node ≠ id}

end Draft

section
variable [Token T] {d : Draft T} {ring : TokenRing T} {dir : Directory}
  (hv : ∀ v, v ∈ ring.vnodes ↔ v ∈ d.vnodes) (hn : ∀ n, n ∈ dir.nodes ↔ n ∈ d.nodes)
include hv hn

theorem mem_unregistered_iff {id : NodeId} :
    id ∈ d.unregistered ↔ id ∈ ring.nodes ∧ (dir.node? id).isNone = true := by
  simp [Draft.unregistered, Registry.node?, hv, hn]

theorem find?_unregistered_eq_some_iff {id : NodeId} :
    (ring.nodes.find? fun id => (dir.node? id).isNone) = some id ↔ IsLeast d.unregistered id := by
  have hmem : ∀ {id}, id ∈ d.unregistered ↔ id ∈ ring.nodes ∧ (dir.node? id).isNone = true :=
    mem_unregistered_iff hv hn
  have hasc : Ascending (fun id => id) ring.nodes := ascendingSet_ascending ring.owners
  rw [hasc.find?_eq_some_iff, ← and_assoc, ← hmem]
  refine and_congr_right fun _ => ⟨fun h id' hid => ?_, fun h id' hid hp => ?_⟩
  · obtain ⟨hid, hp⟩ := hmem.1 hid
    exact h id' hid hp
  · exact h (hmem.2 ⟨hid, hp⟩)

theorem find?_unregistered_eq_none_iff :
    (ring.nodes.find? fun id => (dir.node? id).isNone) = none ↔ d.unregistered = ∅ := by
  rw [List.find?_eq_none, Set.eq_empty_iff_forall_notMem]
  refine forall_congr' fun id => ?_
  rw [mem_unregistered_iff hv hn, not_and]

theorem find?_idle_eq_some_iff {n : Node} :
    (dir.nodes.find? fun n => decide (n.id ∉ ring.nodes)) = some n ↔
      n ∈ d.nodes ∧ IsLeast d.idle n.id := by
  have hmem : ∀ id, id ∉ ring.nodes ↔ ∀ v ∈ d.vnodes, v.node ≠ id := by
    intro id
    simp [hv]
  rw [dir.ascending.find?_eq_some_iff, hn, decide_eq_true_eq, hmem]
  refine and_congr_right fun hnode => ?_
  constructor
  · rintro ⟨hidle, hleast⟩
    refine ⟨⟨⟨n, hnode, rfl⟩, hidle⟩, ?_⟩
    rintro id ⟨⟨m, hm, rfl⟩, hid⟩
    exact hleast m ((hn m).2 hm) (decide_eq_true ((hmem m.id).2 hid))
  · rintro ⟨⟨-, hidle⟩, hleast⟩
    refine ⟨hidle, fun m hm hid => ?_⟩
    exact hleast ⟨⟨m, (hn m).1 hm, rfl⟩, (hmem m.id).1 (of_decide_eq_true hid)⟩

/-- A ring and a directory that disagree: the owners are looked at before the nodes. -/
theorem Snapshot.join_eq_error_iff {e : Epoch} {error : TopologyError T} :
    join e ring dir = .error error ↔
      (∃ id, IsLeast d.unregistered id ∧ error = .unregisteredOwner id) ∨
        d.unregistered = ∅ ∧ ∃ n ∈ d.nodes, IsLeast d.idle n.id ∧
          error = .idleNode n.id n.endpoint := by
  constructor
  · intro h
    unfold join at h
    split at h
    · rename_i id hid
      cases h
      exact .inl ⟨id, (find?_unregistered_eq_some_iff hv hn).1 hid, rfl⟩
    · rename_i hnone
      split at h
      · rename_i n hidle
        cases h
        obtain ⟨hmem, hleast⟩ := (find?_idle_eq_some_iff hv hn).1 hidle
        exact .inr ⟨(find?_unregistered_eq_none_iff hv hn).1 hnone, n, hmem, hleast, rfl⟩
      · cases h
  · rintro (⟨id, hid, rfl⟩ | ⟨hnone, n, hmem, hleast, rfl⟩)
    · have hsome := (find?_unregistered_eq_some_iff hv hn).2 hid
      unfold join
      split
      · rename_i id' hid'
        rw [hsome] at hid'
        cases hid'
        rfl
      · rename_i hnone
        rw [hsome] at hnone
        cases hnone
    · have hnone := (find?_unregistered_eq_none_iff hv hn).2 hnone
      have hsome := (find?_idle_eq_some_iff hv hn).2 ⟨hmem, hleast⟩
      unfold join
      split
      · rename_i id hid
        rw [hnone] at hid
        cases hid
      · split
        · rename_i n' hn'
          rw [hsome] at hn'
          cases hn'
          rfl
        · rename_i hidle
          rw [hsome] at hidle
          cases hidle

end

/-! ## Drafts -/

namespace Draft

/-- No token, no endpoint and no identity is claimed twice. -/
structure Distinct (d : Draft T) : Prop where
  tokens : (d.vnodes.map VirtualNode.token).Nodup
  endpoints : (d.nodes.map Node.endpoint).Nodup
  ids : (d.nodes.map Node.id).Nodup

variable [Token T]

/-- **What a draft is refused for**: of its faults, the first in this order. -/
inductive Refused (d : Draft T) : TopologyError T → Prop
  | tokenClash {c : TokenClash T} (h : c.IsFirst d.vnodes) : Refused d (.tokenClash c)
  | registration {e : RegistrationError} (ht : (d.vnodes.map VirtualNode.token).Nodup)
      (h : e.IsFirst d.nodes) : Refused d (.registration e)
  | unregisteredOwner {id : NodeId} (hd : d.Distinct) (h : IsLeast d.unregistered id) :
      Refused d (.unregisteredOwner id)
  | idleNode {n : Node} (hd : d.Distinct) (hr : d.unregistered = ∅) (hn : n ∈ d.nodes)
      (h : IsLeast d.idle n.id) : Refused d (.idleNode n.id n.endpoint)

variable {d : Draft T} {error : TopologyError T}

theorem refused_iff_of_clash {c : TokenClash T} (hc : TokenRing.ofList d.vnodes = .error c) :
    d.Refused error ↔ error = .tokenClash c := by
  have hfirst := TokenRing.ofList_eq_error_iff.1 hc
  constructor
  · intro h
    cases h with
    | tokenClash h => rw [h.eq hfirst]
    | registration ht _ => exact absurd ht hfirst.not_nodup
    | unregisteredOwner hd _ => exact absurd hd.tokens hfirst.not_nodup
    | idleNode hd _ _ _ => exact absurd hd.tokens hfirst.not_nodup
  · rintro rfl
    exact .tokenClash hfirst

theorem refused_iff_of_collision {e : RegistrationError}
    (ht : (d.vnodes.map VirtualNode.token).Nodup) (he : Directory.ofList d.nodes = .error e) :
    d.Refused error ↔ error = .registration e := by
  have hnot : ¬d.Distinct := fun hd => by
    obtain ⟨dir, hdir, -⟩ := Directory.ofList_of_nodup hd.endpoints hd.ids
    rw [he] at hdir
    cases hdir
  constructor
  · intro h
    cases h with
    | tokenClash h => exact absurd ht h.not_nodup
    | registration _ h =>
      have he' := Directory.ofList_eq_error_iff.2 h
      rw [he] at he'
      cases he'
      rfl
    | unregisteredOwner hd _ => exact absurd hd hnot
    | idleNode hd _ _ _ => exact absurd hd hnot
  · rintro rfl
    exact .registration ht (Directory.ofList_eq_error_iff.1 he)

theorem refused_iff_of_distinct (hd : d.Distinct) : d.Refused error ↔
    (∃ id, IsLeast d.unregistered id ∧ error = .unregisteredOwner id) ∨
      d.unregistered = ∅ ∧ ∃ n ∈ d.nodes, IsLeast d.idle n.id ∧
        error = .idleNode n.id n.endpoint := by
  constructor
  · intro h
    cases h with
    | tokenClash h => exact absurd hd.tokens h.not_nodup
    | registration _ h =>
      obtain ⟨dir, hdir, -⟩ := Directory.ofList_of_nodup hd.endpoints hd.ids
      rw [Directory.ofList_eq_error_iff.2 h] at hdir
      cases hdir
    | unregisteredOwner _ h => exact .inl ⟨_, h, rfl⟩
    | idleNode _ hr hn h => exact .inr ⟨hr, _, hn, h, rfl⟩
  · rintro (⟨id, h, rfl⟩ | ⟨hr, n, hn, h, rfl⟩)
    · exact .unregisteredOwner hd h
    · exact .idleNode hd hr hn h

/-- **Freezing fails exactly with what the draft is refused for.** -/
theorem freeze_eq_error_iff (epoch : Epoch) : d.freeze epoch = .error error ↔ d.Refused error := by
  unfold freeze
  cases hring : TokenRing.ofList d.vnodes with
  | error c =>
    rw [refused_iff_of_clash hring, Except.error.injEq, eq_comm]
  | ok ring =>
    obtain ⟨ht, hv⟩ := TokenRing.ofList_eq_ok_iff.1 hring
    cases hdir : Directory.ofList d.nodes with
    | error e =>
      rw [refused_iff_of_collision ht hdir]
      exact ⟨fun h => (Except.error.inj h).symm, congrArg _ ∘ Eq.symm⟩
    | ok dir =>
      obtain ⟨he, hi, hn⟩ := Directory.ofList_eq_ok_iff.1 hdir
      rw [refused_iff_of_distinct ⟨ht, he, hi⟩]
      exact Snapshot.join_eq_error_iff (fun v => by rw [hv, mem_sortOn]) fun n => by
        rw [hn, mem_sortOn]

theorem exists_refused (h : ¬d.Consistent) (epoch : Epoch) :
    ∃ error, d.freeze epoch = .error error ∧ d.Refused error := by
  cases hf : d.freeze epoch with
  | ok s => exact absurd (freeze_eq_ok_iff.1 hf).1 h
  | error error => exact ⟨error, rfl, (freeze_eq_error_iff epoch).1 hf⟩

/-- Claims to one token are reported whatever else is wrong. -/
theorem freeze_clashes_iff (epoch : Epoch) : (∃ c, d.freeze epoch = .error (.tokenClash c)) ↔
    ¬(d.vnodes.map VirtualNode.token).Nodup := by
  constructor
  · rintro ⟨c, hc⟩
    cases (freeze_eq_error_iff epoch).1 hc with
    | tokenClash h => exact h.not_nodup
  · intro ht
    obtain ⟨error, hf, hr⟩ := exists_refused (fun hc => ht hc.tokens) epoch
    cases hr with
    | tokenClash => exact ⟨_, hf⟩
    | registration ht' _ => exact absurd ht' ht
    | unregisteredOwner hd _ => exact absurd hd.tokens ht
    | idleNode hd _ _ _ => exact absurd hd.tokens ht

/-- Colliding nodes are reported whatever is wrong with the owners. -/
theorem freeze_collides_iff (epoch : Epoch) :
    (∃ e, d.freeze epoch = .error (.registration e)) ↔
      (d.vnodes.map VirtualNode.token).Nodup ∧
        ¬((d.nodes.map Node.endpoint).Nodup ∧ (d.nodes.map Node.id).Nodup) := by
  constructor
  · rintro ⟨e, he⟩
    cases (freeze_eq_error_iff epoch).1 he with
    | registration ht h =>
      refine ⟨ht, fun ⟨hend, hid⟩ => ?_⟩
      obtain ⟨dir, hdir, -⟩ := Directory.ofList_of_nodup hend hid
      rw [Directory.ofList_eq_error_iff.2 h] at hdir
      cases hdir
  · rintro ⟨ht, hn⟩
    obtain ⟨error, hf, hr⟩ := exists_refused (fun hc => hn ⟨hc.endpoints, hc.ids⟩) epoch
    cases hr with
    | tokenClash h => exact absurd ht h.not_nodup
    | registration => exact ⟨_, hf⟩
    | unregisteredOwner hd _ => exact absurd ⟨hd.endpoints, hd.ids⟩ hn
    | idleNode hd _ _ _ => exact absurd ⟨hd.endpoints, hd.ids⟩ hn

/-- **What freezing answers.** It accepts the consistent drafts and no others, and then the snapshot
holds the nodes and virtual nodes of the draft. It refuses all other drafts, each for the first of
its faults: claims to one token before colliding nodes, and those before owners and nodes that do
not match. -/
theorem freeze_outcome (d : Draft T) (epoch : Epoch) :
    ((∃ s, d.freeze epoch = .ok s) ↔ d.Consistent) ∧
    (∀ s, d.freeze epoch = .ok s → s.epoch = epoch ∧ s.ring.vnodes.Perm d.vnodes ∧
      s.directory.nodes.Perm d.nodes) ∧
    (∀ error, d.freeze epoch = .error error ↔ d.Refused error) ∧
    ((∃ c, d.freeze epoch = .error (.tokenClash c)) ↔
      ¬(d.vnodes.map VirtualNode.token).Nodup) ∧
    ((∃ e, d.freeze epoch = .error (.registration e)) ↔
      (d.vnodes.map VirtualNode.token).Nodup ∧
        ¬((d.nodes.map Node.endpoint).Nodup ∧ (d.nodes.map Node.id).Nodup)) := by
  refine ⟨exists_freeze_iff, fun s hs => ?_, fun error => freeze_eq_error_iff epoch,
    freeze_clashes_iff epoch, freeze_collides_iff epoch⟩
  obtain ⟨-, he, hv, hn⟩ := freeze_eq_ok_iff.1 hs
  refine ⟨he, ?_, ?_⟩
  · rw [hv]
    exact sortOn_perm _ _
  · rw [hn]
    exact sortOn_perm _ _

/-- Two nodes at one endpoint, and owners of which one is unknown. While two of them claim one token
that is what is reported, then the nodes, then the owner; without these faults the draft freezes. -/
theorem freeze_outcome_faulty :
    let n1 := Snapshot.numbered 1 "west" "a"
    let n2 := Snapshot.numbered 2 "west" "b"
    let double : Node := { n2 with id := 5 }
    let clashing : Draft LongToken := ⟨[n2, n1, double], [⟨⟨30⟩, 1⟩, ⟨⟨20⟩, 7⟩, ⟨⟨30⟩, 2⟩]⟩
    let colliding : Draft LongToken := ⟨[n2, n1, double], [⟨⟨30⟩, 1⟩, ⟨⟨20⟩, 7⟩, ⟨⟨10⟩, 2⟩]⟩
    let unmatched : Draft LongToken := ⟨[n2, n1], [⟨⟨30⟩, 1⟩, ⟨⟨20⟩, 7⟩, ⟨⟨10⟩, 2⟩]⟩
    let sound : Draft LongToken := ⟨[n2, n1], [⟨⟨30⟩, 1⟩, ⟨⟨10⟩, 2⟩]⟩
    clashing.Refused (.tokenClash ⟨⟨30⟩, 1, 2⟩) ∧
      colliding.Refused (.registration (.endpointTaken n2.endpoint 2 5)) ∧
      unmatched.Refused (.unregisteredOwner 7) ∧
      ∃ s, sound.freeze .zero = .ok s ∧ s.ring.vnodes.Perm sound.vnodes ∧
        s.directory.nodes.Perm sound.nodes := by
  intro n1 n2 double clashing colliding unmatched sound
  have hrefused : ∀ d : Draft LongToken, ∀ error, d.freeze .zero = .error error → d.Refused error :=
    fun d error => ((freeze_outcome d .zero).2.2.1 error).1
  obtain ⟨s, hs⟩ : ∃ s, sound.freeze .zero = .ok s := isOk_iff.1 (by decide)
  obtain ⟨-, hv, hn⟩ := (freeze_outcome sound .zero).2.1 s hs
  exact ⟨hrefused _ _ rfl, hrefused _ _ rfl, hrefused _ _ rfl, s, hs, hv, hn⟩

end Draft

end ReplicaRing
