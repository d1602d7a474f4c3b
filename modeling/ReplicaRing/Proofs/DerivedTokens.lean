import Mathlib.Data.Set.Card
import Mathlib.Order.Nat
import ReplicaRing.Proofs.Numerals
import ReplicaRing.Proofs.SingleEdit

/-!
# Tokens that are derived for nodes

A node is given derived tokens by a search through its indices, which passes over the tokens that
are bound already or were found before. The search has no end of its own: it ends if the tokens do
not run out, and then they are the first free ones of the node.

* `VirtualNode.key_injective`: a key tells the identity and the index that it is made of, so tokens
  that keep their keys never repeat.
* `Draft.deriveTokens_eq`: what the search finds in so many indices.
* `Draft.Allots`: what becomes of a draft when a node is registered with derived tokens;
  `Draft.exists_allots`: it does if enough tokens are free.
* `Draft.Consistent.enrollAll`: nodes registered in this way keep a draft consistent.
* `Draft.derived_tokens_allotted`: what this says of partitioners in general and of keys as tokens.
-/

namespace ReplicaRing

/-! ## Keys -/

namespace Text

theorem hexDigit_inj {a b : Nat} (ha : a < 16) (hb : b < 16) (h : hexDigit a = hexDigit b) :
    a = b := by
  have hall : ∀ a < 16, ∀ b < 16, hexDigit a = hexDigit b → a = b := by decide
  exact hall a ha b hb h

/-- Digits of a fixed width tell the number, if it fits. -/
theorem hexPadded_inj {width m n : Nat} (hm : m < 16 ^ width) (hn : n < 16 ^ width)
    (h : hexPadded width m = hexPadded width n) : m = n := by
  induction width generalizing m n with
  | zero =>
    rw [Nat.pow_zero] at hm hn
    omega
  | succ width ih =>
    rw [Nat.pow_succ] at hm hn
    obtain ⟨hfront, hlast⟩ := List.append_inj' h rfl
    have hdiv : m / 16 = n / 16 := ih (by omega) (by omega) hfront
    have hmod : m % 16 = n % 16 :=
      hexDigit_inj (Nat.mod_lt _ (by decide)) (Nat.mod_lt _ (by decide)) (List.cons.inj hlast).1
    omega

theorem toNat_lt_of_mem_hexPadded {width n : Nat} {c : Char} (h : c ∈ hexPadded width n) :
    c.toNat < 256 := by
  have hall : ∀ d < 16, (hexDigit d).toNat < 256 := by decide
  induction width generalizing n with
  | zero => cases h
  | succ width ih =>
    rcases List.mem_append.1 h with h | h
    · exact ih h
    · rw [List.mem_singleton.1 h]
      exact hall _ (Nat.mod_lt _ (by decide))

theorem toNat_lt_of_isDigit {c : Char} (h : c.isDigit = true) : c.toNat < 256 := by
  simp only [Char.isDigit, Bool.and_eq_true, decide_eq_true_eq] at h
  have h9 : c.toNat ≤ 57 := h.2
  omega

/-- Characters below 256 are told by their bytes. -/
theorem eq_of_map_toUInt8_eq {cs ds : List Char} (hc : ∀ c ∈ cs, c.toNat < 256)
    (hd : ∀ d ∈ ds, d.toNat < 256)
    (h : cs.map (fun c => c.toNat.toUInt8) = ds.map fun c => c.toNat.toUInt8) : cs = ds := by
  have hback : ∀ xs : List Char, (∀ x ∈ xs, x.toNat < 256) →
      (xs.map fun c => c.toNat.toUInt8).map (fun b => Char.ofNat b.toNat) = xs := by
    intro xs hx
    rw [List.map_map]
    refine (List.map_congr_left fun c hm => ?_).trans (List.map_id xs)
    simp [Nat.mod_eq_of_lt (hx c hm)]
  rw [← hback cs hc, h, hback ds hd]

end Text

namespace VirtualNode

/-- **A key tells what it is made of**, for all identities and indices. -/
theorem key_injective {id id' : NodeId} {i i' : Nat} (h : key id i = key id' i') :
    id = id' ∧ i = i' := by
  have hbyte : ∀ (id : NodeId) (i : Nat), ∀ c ∈ id.digits ++ ':' :: Text.writeCount i,
      c.toNat < 256 := by
    intro id i c hc
    rcases List.mem_append.1 hc with hc | hc
    · exact Text.toNat_lt_of_mem_hexPadded hc
    · rcases List.mem_cons.1 hc with rfl | hc
      · decide
      · exact Text.toNat_lt_of_isDigit (Text.isDigit_of_mem_writeCount hc)
  have hchars := Text.eq_of_map_toUInt8_eq (hbyte id i) (hbyte id' i') h
  obtain ⟨hdigits, hindex⟩ := List.append_inj hchars (by simp [NodeId.digits])
  constructor
  · have hlt : ∀ id : NodeId, id.number.toNat < 16 ^ 32 := fun id => id.number.isLt
    have hnumber := BitVec.eq_of_toNat_eq (Text.hexPadded_inj (hlt id) (hlt id') hdigits)
    cases id
    cases id'
    exact congrArg NodeId.mk hnumber
  · exact Text.writeCount_injective (List.cons.inj hindex).2

theorem token_byteOrdered (id : NodeId) (i : Nat) :
    (ofIndex .byteOrdered id i).token = ⟨key id i⟩ := rfl

theorem token_byteOrdered_inj {id id' : NodeId} {i i' : Nat}
    (h : (ofIndex .byteOrdered id i).token = (ofIndex .byteOrdered id' i').token) :
    id = id' ∧ i = i' := by
  rw [token_byteOrdered, token_byteOrdered] at h
  exact key_injective (BytesToken.mk.inj h)

/-- The tokens with the first so many indices of a node. -/
def derivedTokens {T : Type} (p : Partitioner T) (id : NodeId) (indices : Nat) : List T :=
  (sequence p id 0 indices).map token

section
variable {T : Type} {p : Partitioner T} {id : NodeId} {indices : Nat}

theorem mem_derivedTokens {t : T} :
    t ∈ derivedTokens p id indices ↔ ∃ i < indices, (ofIndex p id i).token = t := by
  simp [derivedTokens, sequence, List.mem_range']

theorem derivedTokens_succ : derivedTokens p id (indices + 1) =
    derivedTokens p id indices ++ [(ofIndex p id indices).token] := by
  simp [derivedTokens, sequence, List.range'_concat]

theorem nodup_derivedTokens
    (h : ∀ i j, (ofIndex p id i).token = (ofIndex p id j).token → i = j) :
    (derivedTokens p id indices).Nodup := by
  rw [derivedTokens, sequence, List.map_map]
  exact List.Nodup.map (fun i j => h i j) List.nodup_range'

end

end VirtualNode

namespace Draft

variable {T : Type} [Token T]

/-! ## The search -/

/-- The tokens that the draft binds. -/
def tokens (d : Draft T) : List T := d.vnodes.map VirtualNode.token

/-- The free tokens with the first so many indices of a node, each where it comes first. -/
def freeTokens (d : Draft T) (p : Partitioner T) (id : NodeId) (indices : Nat) : List T :=
  ((VirtualNode.derivedTokens p id indices).filter fun t => !d.tokens.contains t).eraseDups

/-- The free tokens of a node. -/
def free (d : Draft T) (p : Partitioner T) (id : NodeId) : Set T :=
  {t | t ∉ d.tokens ∧ ∃ i < indexCount, (VirtualNode.ofIndex p id i).token = t}

/-- **The search finds first occurrences** of tokens that are not taken. -/
theorem deriveTokens_eq (p : Partitioner T) (id : NodeId) (steps index count : Nat)
    (taken : List T) : deriveTokens p id steps index count taken =
      ((((VirtualNode.sequence p id index steps).map VirtualNode.token).filter fun t =>
        !taken.contains t).eraseDups).take count := by
  induction steps generalizing index count taken with
  | zero => exact List.take_nil.symm
  | succ steps ih =>
    have hstep : (VirtualNode.sequence p id index (steps + 1)).map VirtualNode.token =
        (VirtualNode.ofIndex p id index).token ::
          (VirtualNode.sequence p id (index + 1) steps).map VirtualNode.token := rfl
    rw [deriveTokens, hstep]
    cases count with
    | zero => rfl
    | succ count =>
      rw [if_neg (Nat.succ_ne_zero count)]
      dsimp only
      split
      · rename_i ht
        rw [List.filter_cons_of_neg (by simpa using ht), ih]
      · rename_i ht
        rw [List.filter_cons_of_pos (by simpa using ht), List.eraseDups_cons, List.take_succ_cons,
          ih, List.filter_filter]
        -- what is found is passed over from then on
        refine congrArg (fun ts => _ :: (List.eraseDups ts).take count) ?_
        refine List.filter_congr fun t _ => ?_
        by_cases h : t = (VirtualNode.ofIndex p id index).token <;> simp [h]

section
variable {d : Draft T} {p : Partitioner T} {id : NodeId} {steps indices count : Nat} {t : T}

theorem deriveTokens_tokens :
    deriveTokens p id steps 0 count d.tokens = (d.freeTokens p id steps).take count :=
  deriveTokens_eq p id steps 0 count d.tokens

theorem mem_freeTokens : t ∈ d.freeTokens p id indices ↔
    t ∉ d.tokens ∧ ∃ i < indices, (VirtualNode.ofIndex p id i).token = t := by
  rw [freeTokens, List.mem_eraseDups, List.mem_filter, VirtualNode.mem_derivedTokens,
    Bool.not_eq_true', ← Bool.not_eq_true, List.contains_iff_mem, and_comm]

theorem nodup_freeTokens : (d.freeTokens p id indices).Nodup := nodup_eraseDups _

/-- One more index brings one more token at most. -/
theorem freeTokens_succ (d : Draft T) (p : Partitioner T) (id : NodeId) (indices : Nat) :
    ∃ new : List T, new.length ≤ 1 ∧
      d.freeTokens p id (indices + 1) = d.freeTokens p id indices ++ new := by
  unfold freeTokens
  rw [VirtualNode.derivedTokens_succ, List.filter_append, List.eraseDups_append]
  refine ⟨_, ?_, rfl⟩
  apply List.Nodup.length_le_of_subset (nodup_eraseDups _)
    (List.subset_def.2 _ : _ ⊆ [(VirtualNode.ofIndex p id indices).token])
  intro t ht
  rw [List.mem_eraseDups, List.removeAll, List.mem_filter, List.mem_filter] at ht
  exact ht.1.1

theorem free_eq : d.free p id = ↑(d.freeTokens p id indexCount).toFinset := by
  ext t
  rw [List.coe_toFinset]
  exact mem_freeTokens.symm

theorem ncard_free : (d.free p id).ncard = (d.freeTokens p id indexCount).length := by
  rw [free_eq, Set.ncard_coe_finset, List.toFinset_card_of_nodup nodup_freeTokens]

theorem length_freeTokens_le_ncard (h : indices ≤ indexCount) :
    (d.freeTokens p id indices).length ≤ (d.free p id).ncard := by
  rw [ncard_free]
  refine nodup_freeTokens.length_le_of_subset fun t ht => ?_
  obtain ⟨hfree, i, hi, ht⟩ := mem_freeTokens.1 ht
  exact mem_freeTokens.2 ⟨hfree, i, by omega, ht⟩

/-- If no token repeats, only bound ones are passed over. -/
theorem le_length_freeTokens
    (h : ∀ i j, (VirtualNode.ofIndex p id i).token = (VirtualNode.ofIndex p id j).token → i = j) :
    indices ≤ (d.freeTokens p id indices).length + d.vnodes.length := by
  have hsub : VirtualNode.derivedTokens p id indices ⊆ d.freeTokens p id indices ++ d.tokens := by
    intro t ht
    rw [List.mem_append, mem_freeTokens]
    by_cases hbound : t ∈ d.tokens
    · exact .inr hbound
    · exact .inl ⟨hbound, VirtualNode.mem_derivedTokens.1 ht⟩
  have hnodup : (VirtualNode.derivedTokens p id indices).Nodup := VirtualNode.nodup_derivedTokens h
  have hle := hnodup.length_le_of_subset hsub
  simpa [VirtualNode.derivedTokens, VirtualNode.sequence, tokens] using hle

end

/-! ## Registration with derived tokens -/

/-- The search looks at so many indices, and the node is recorded with what it finds there. -/
structure Allots (d : Draft T) (p : Partitioner T) (node : Node) (count indices : Nat) : Prop where
  /-- With these indices the search finds as many tokens as it is for, and with no fewer. -/
  ends : IsLeast {steps | (deriveTokens p node.id steps 0 count d.tokens).length = count} indices
  /-- It does not run out of indices. -/
  indices_le : indices ≤ indexCount
  length : (d.freeTokens p node.id indices).length = count
  nodup : (d.freeTokens p node.id indices).Nodup
  unbound : ∀ t ∈ d.freeTokens p node.id indices, t ∉ d.tokens
  nodes : (d.addDerived p node count).nodes = d.nodes ++ [node]
  vnodes : (d.addDerived p node count).vnodes =
    d.vnodes ++ (d.freeTokens p node.id indices).map (⟨·, node.id⟩)

section
variable {d : Draft T} {p : Partitioner T} {node : Node} {count indices : Nat}

/-- The search ends where it has met as many free tokens as it is for. -/
theorem length_deriveTokens_eq_iff {id : NodeId} {steps : Nat} :
    (deriveTokens p id steps 0 count d.tokens).length = count ↔
      count ≤ (d.freeTokens p id steps).length := by
  rw [deriveTokens_tokens, List.length_take]
  omega

/-- Fewer indices bring no more tokens, in the same order. -/
theorem freeTokens_grows {id : NodeId} {steps : Nat} (h : indices ≤ steps) :
    d.freeTokens p id indices <+: d.freeTokens p id steps := by
  induction steps, h using Nat.le_induction with
  | base => exact List.prefix_refl _
  | succ steps _ ih =>
    obtain ⟨new, -, hnew⟩ := freeTokens_succ d p id steps
    rw [hnew]
    exact ih.trans (List.prefix_append _ _)

/-- **The search ends** if there are enough free tokens within so many indices. -/
theorem exists_allots_of_le (h : count ≤ (d.freeTokens p node.id indices).length)
    (hindices : indices ≤ indexCount) : ∃ k ≤ indices, d.Allots p node count k := by
  classical
  have hexists : ∃ k, count ≤ (d.freeTokens p node.id k).length := ⟨indices, h⟩
  have hleast := Nat.isLeast_find hexists
  generalize Nat.find hexists = k at hleast
  have hk : k ≤ indices := hleast.2 h
  -- the last index looked at brings the last token
  have hlength : (d.freeTokens p node.id k).length = count := by
    refine Nat.le_antisymm ?_ hleast.1
    cases k with
    | zero => exact Nat.zero_le count
    | succ j =>
      have hj : (d.freeTokens p node.id j).length < count := by
        by_contra hle
        have hjk := hleast.2 (Nat.le_of_not_lt hle)
        omega
      obtain ⟨new, hone, hnew⟩ := freeTokens_succ d p node.id j
      rw [hnew, List.length_append]
      omega
  have hfound : deriveTokens p node.id indexCount 0 count d.tokens = d.freeTokens p node.id k := by
    rw [deriveTokens_tokens, ← hlength]
    exact (List.prefix_iff_eq_take.1 (freeTokens_grows (hk.trans hindices))).symm
  refine ⟨k, hk, ?_, hk.trans hindices, hlength, nodup_freeTokens,
    fun t ht => (mem_freeTokens.1 ht).1, rfl, ?_⟩
  · simpa only [length_deriveTokens_eq_iff] using hleast
  · show d.vnodes ++ (deriveTokens p node.id indexCount 0 count d.tokens).map _ = _
    rw [hfound]

theorem exists_allots (h : count ≤ (d.free p node.id).ncard) :
    ∃ indices, d.Allots p node count indices := by
  rw [ncard_free] at h
  obtain ⟨k, -, hk⟩ := exists_allots_of_le h (Nat.le_refl _)
  exact ⟨k, hk⟩

/-- Keys as tokens never run out: at worst the search passes over all bound tokens. -/
theorem exists_allots_byteOrdered {d : Draft BytesToken}
    (h : count + d.vnodes.length ≤ indexCount) :
    count ≤ (d.free .byteOrdered node.id).ncard ∧
      ∃ indices ≤ count + d.vnodes.length, d.Allots .byteOrdered node count indices := by
  have henough : count ≤ (d.freeTokens .byteOrdered node.id (count + d.vnodes.length)).length := by
    have hle : count + d.vnodes.length ≤
        (d.freeTokens .byteOrdered node.id (count + d.vnodes.length)).length + d.vnodes.length :=
      le_length_freeTokens fun i j hij => (VirtualNode.token_byteOrdered_inj hij).2
    omega
  exact ⟨henough.trans (length_freeTokens_le_ncard h), exists_allots_of_le henough h⟩

end

/-! ## Runs of registrations -/

/-- A node that is registered with so many tokens, which a partitioner derives. -/
structure Newcomer (T : Type) where
  partitioner : Partitioner T
  node : Node
  count : Nat

/-- Registers a node with derived tokens. -/
def enroll (d : Draft T) (n : Newcomer T) : Draft T := d.addDerived n.partitioner n.node n.count

/-- Registers nodes in turn. -/
def enrollAll (d : Draft T) (ns : List (Newcomer T)) : Draft T := ns.foldl enroll d

/-- There are enough free tokens for the node. -/
def Provides (d : Draft T) (n : Newcomer T) : Prop :=
  n.count ≤ (d.free n.partitioner n.node.id).ncard

/-- So there are for each of the nodes when its turn comes. -/
def ProvidesAll : Draft T → List (Newcomer T) → Prop
  | _, [] => True
  | d, n :: ns => d.Provides n ∧ (d.enroll n).ProvidesAll ns

variable {d : Draft T} {ns : List (Newcomer T)}

/-- **A new node with derived tokens** keeps a draft consistent. -/
theorem Consistent.enroll (hc : d.Consistent) {n : Newcomer T} (hcount : 1 ≤ n.count)
    (hprovides : d.Provides n) (hid : ∀ m ∈ d.nodes, m.id ≠ n.node.id)
    (hendpoint : ∀ m ∈ d.nodes, m.endpoint ≠ n.node.endpoint) : (d.enroll n).Consistent := by
  obtain ⟨indices, h⟩ := exists_allots hprovides
  have hadd : d.enroll n = d.add n.node (d.freeTokens n.partitioner n.node.id indices) := by
    show Draft.mk (d.addDerived n.partitioner n.node n.count).nodes
      (d.addDerived n.partitioner n.node n.count).vnodes = _
    rw [h.nodes, h.vnodes]
    rfl
  rw [hadd, hc.add_iff]
  refine ⟨hid, hendpoint, fun hnil => ?_, h.nodup, fun v hv ht => ?_⟩
  · have hlength := h.length
    rw [hnil, List.length_nil] at hlength
    omega
  · exact h.unbound v.token ht (List.mem_map_of_mem hv)

/-- **So does a run of them.** -/
theorem Consistent.enrollAll (hc : d.Consistent) (hcount : ∀ n ∈ ns, 1 ≤ n.count)
    (hids : ((d.nodes ++ ns.map Newcomer.node).map Node.id).Nodup)
    (hendpoints : ((d.nodes ++ ns.map Newcomer.node).map Node.endpoint).Nodup)
    (hprovides : d.ProvidesAll ns) : (d.enrollAll ns).Consistent := by
  induction ns generalizing d with
  | nil => exact hc
  | cons n ns ih =>
    obtain ⟨hone, hrest⟩ := hprovides
    have hnodes : d.nodes ++ (n :: ns).map Newcomer.node =
        (d.enroll n).nodes ++ ns.map Newcomer.node :=
      List.append_cons ..
    rw [hnodes] at hids hendpoints
    have hnew : ∀ {K : Type} {key : Node → K},
        (((d.enroll n).nodes ++ ns.map Newcomer.node).map key).Nodup →
          ∀ m ∈ d.nodes, key m ≠ key n.node := by
      intro K key h
      rw [List.map_append] at h
      exact (nodup_registered_iff.1 (List.nodup_append.1 h).1).2
    exact ih (hc.enroll (hcount n (.head _)) hone (hnew hids) (hnew hendpoints))
      (fun m hm => hcount m (.tail _ hm)) hids hendpoints hrest

omit [Token T] in
theorem consistent_empty : (empty : Draft T).Consistent :=
  ⟨List.nodup_nil, List.nodup_nil, List.nodup_nil, by simp [empty]⟩

theorem freeze_enrollAll (hcount : ∀ n ∈ ns, 1 ≤ n.count)
    (hids : (ns.map fun n => n.node.id).Nodup)
    (hendpoints : (ns.map fun n => n.node.endpoint).Nodup) (hprovides : empty.ProvidesAll ns)
    (e : Epoch) : ∃ s, (empty.enrollAll ns).freeze e = .ok s := by
  refine exists_freeze_iff.2 (consistent_empty.enrollAll hcount ?_ ?_ hprovides)
  · simpa [empty, Function.comp_def] using hids
  · simpa [empty, Function.comp_def] using hendpoints

/-- A registration binds no more tokens than it is for. -/
theorem length_vnodes_enroll_le (d : Draft T) (n : Newcomer T) :
    (d.enroll n).vnodes.length ≤ d.vnodes.length + n.count := by
  show (d.vnodes ++ (deriveTokens _ _ _ _ _ d.tokens).map _).length ≤ _
  rw [deriveTokens_tokens, List.length_append, List.length_map, List.length_take]
  omega

theorem providesAll_byteOrdered {d : Draft BytesToken} {ns : List (Newcomer BytesToken)}
    (hp : ∀ n ∈ ns, n.partitioner = .byteOrdered)
    (h : (ns.map Newcomer.count).sum + d.vnodes.length ≤ indexCount) : d.ProvidesAll ns := by
  induction ns generalizing d with
  | nil => trivial
  | cons n ns ih =>
    rw [List.map_cons, List.sum_cons] at h
    have hone := length_vnodes_enroll_le d n
    refine ⟨?_, ih (fun m hm => hp m (.tail _ hm)) (by omega)⟩
    rw [Provides, hp n (.head _)]
    exact (exists_allots_byteOrdered (by omega)).1

/-- **Derived tokens.** A node is registered with the first tokens of its own that are free, if there
are enough of them; nothing else changes. Keys as tokens never run out, as they differ for all
identities and indices. So nodes with derived tokens, one at least for each, form a cluster. -/
theorem derived_tokens_allotted :
    (∀ {T : Type} [Token T] (p : Partitioner T) (d : Draft T) (node : Node) (count : Nat),
      count ≤ (d.free p node.id).ncard → ∃ indices, d.Allots p node count indices) ∧
    (Function.Injective fun x : NodeId × Nat => (VirtualNode.ofIndex .byteOrdered x.1 x.2).token) ∧
    (∀ (d : Draft BytesToken) (node : Node) (count : Nat), count + d.vnodes.length < indexCount →
      count ≤ (d.free .byteOrdered node.id).ncard ∧
        ∃ indices ≤ count + d.vnodes.length, d.Allots .byteOrdered node count indices) ∧
    (∀ {T : Type} [Token T] (ns : List (Newcomer T)), (∀ n ∈ ns, 1 ≤ n.count) →
      (ns.map fun n => n.node.id).Nodup → (ns.map fun n => n.node.endpoint).Nodup →
      empty.ProvidesAll ns → ∀ e, ∃ s, (empty.enrollAll ns).freeze e = .ok s) ∧
    ∀ ns : List (Newcomer BytesToken), (∀ n ∈ ns, n.partitioner = .byteOrdered) →
      (ns.map Newcomer.count).sum < indexCount → empty.ProvidesAll ns := by
  refine ⟨fun p d node count => exists_allots, fun x y hxy => ?_,
    fun d node count h => exists_allots_byteOrdered (Nat.le_of_lt h),
    fun ns hcount hids hendpoints hprovides e =>
      freeze_enrollAll hcount hids hendpoints hprovides e,
    fun ns hp h => providesAll_byteOrdered hp (Nat.le_of_lt h)⟩
  obtain ⟨hid, hi⟩ := VirtualNode.token_byteOrdered_inj hxy
  exact Prod.ext hid hi

/-- Halving the bytes of its key gives two indices of a node one token. One of these tokens is bound,
so the search for two goes up to the fifth index. -/
theorem derived_tokens_allotted_halving :
    let n1 := Snapshot.numbered 1 "west" "a"
    let n2 := Snapshot.numbered 2 "west" "b"
    let halving : Partitioner BytesToken := ⟨"halving", fun key => ⟨key.map (· / 2)⟩⟩
    let token := fun i => (VirtualNode.ofIndex halving n2.id i).token
    let d : Draft BytesToken := ⟨[n1], [⟨token 2, n1.id⟩]⟩
    let ns : List (Newcomer BytesToken) := [⟨.byteOrdered, n1, 2⟩, ⟨.byteOrdered, n2, 1⟩]
    (token 0 = token 1 ∧ 2 ≤ (d.free halving n2.id).ncard ∧
      (∃ indices, d.Allots halving n2 2 indices) ∧
      (d.addDerived halving n2 2).vnodes = [⟨token 2, 1⟩, ⟨token 0, 2⟩, ⟨token 4, 2⟩]) ∧
    (3 + d.vnodes.length < indexCount ∧ ∃ indices ≤ 4, d.Allots .byteOrdered n2 3 indices) ∧
    empty.ProvidesAll ns ∧ ∃ s, (empty.enrollAll ns).freeze .zero = .ok s := by
  intro n1 n2 halving token d ns
  obtain ⟨hgeneral, -, hkeys, hrun, hprovides⟩ := derived_tokens_allotted
  have hfree : 2 ≤ (d.free halving n2.id).ncard :=
    le_trans (b := (d.freeTokens halving n2.id 5).length) (by decide)
      (length_freeTokens_le_ncard (by decide))
  have hfew : 3 + d.vnodes.length < indexCount := by decide
  have hns : empty.ProvidesAll ns := hprovides ns (by simp [ns]) (by decide)
  exact ⟨⟨by decide, hfree, hgeneral halving d n2 2 hfree, by decide⟩,
    ⟨hfew, (hkeys d n2 3 hfew).2⟩, hns,
    hrun ns (by decide) (by decide) (by decide) hns .zero⟩

end Draft

end ReplicaRing
