import Mathlib.Data.List.Basic
import ReplicaRing.Proofs.Numerals
import ReplicaRing.Proofs.ReplicaMap

/-!
# Warnings announce degraded placement

An operator is warned of a quota exactly if placement cannot meet it. The warnings compare quotas
with the numbers of nodes in the directory; a placement counts what it meets on a walk. As the shares
of the datacenters are exact, both come to the same for every token.

* `QuotaWarning.message_injective`: a message tells which datacenter it is about, and why.
* `Strategy.filter_unmetQuotas`, `Strategy.pairwise_unmetQuotas`: the warnings about one datacenter,
  and their order.
* `Strategy.warnings_announce_shortfalls`: warnings and placements agree.
-/

namespace ReplicaRing

/-! ## Messages -/

namespace Text

theorem blank_not_mem_writeCount (n : Nat) : ' ' ∉ writeCount n := by
  intro h
  cases isDigit_of_mem_writeCount h

/-- A number that a blank follows can be read off a text. -/
theorem decimal_append_inj {m n : Nat} {s s' : String}
    (h : decimal m ++ (" " ++ s) = decimal n ++ (" " ++ s')) : m = n ∧ s = s' := by
  have hl := congrArg String.toList h
  simp only [decimal, String.toList_append, String.toList_ofList] at hl
  obtain ⟨hd, hs⟩ := append_cons_inj_of_not_mem (blank_not_mem_writeCount m)
    (blank_not_mem_writeCount n) hl
  exact ⟨writeCount_injective hd, String.toList_injective hs⟩

/-- So can one that follows a blank. -/
theorem append_decimal_inj {m n : Nat} {s s' : String}
    (h : s ++ " " ++ decimal m = s' ++ " " ++ decimal n) : s = s' ∧ m = n := by
  have hl := congrArg (fun s => s.toList.reverse) h
  simp only [decimal, String.toList_append, String.toList_ofList, List.reverse_append,
    List.append_assoc] at hl
  obtain ⟨hd, hs⟩ := append_cons_inj_of_not_mem (fun hm => blank_not_mem_writeCount m
    (List.mem_reverse.1 hm)) (fun hm => blank_not_mem_writeCount n (List.mem_reverse.1 hm)) hl
  exact ⟨String.toList_injective (List.reverse_injective hs),
    writeCount_injective (List.reverse_injective hd)⟩

end Text

namespace QuotaWarning

/-- The datacenter that a warning is about. -/
def datacenter : QuotaWarning → String
  | unknownDatacenter dc | tooFewNodes dc _ _ => dc

/-- The numbers in a message, each with a blank at its side. -/
theorem message_tooFewNodes (dc : String) (asked nodes : Nat) :
    (tooFewNodes dc asked nodes).message =
      "Your replication factor " ++ (Text.decimal asked ++ (" " ++ ("for datacenter " ++ dc))) ++
        " is higher than the number of nodes" ++ " " ++ Text.decimal nodes := by
  have hleft : " for datacenter " = " " ++ "for datacenter " := by decide
  have hright : " is higher than the number of nodes " =
      " is higher than the number of nodes" ++ " " := by decide
  unfold message
  dsimp only
  rw [hleft, hright]
  simp only [String.append_assoc]

theorem message_ne (dc dc' : String) (asked nodes : Nat) :
    (unknownDatacenter dc).message ≠ (tooFewNodes dc' asked nodes).message := by
  intro h
  have hfirst := congrArg (fun s => s.toList.head?) h
  unfold message at hfirst
  simp only [String.toList_append] at hfirst
  cases hfirst

/-- **A message tells what it is about**, whatever the datacenter is called. -/
theorem message_injective : Function.Injective message := by
  intro v w h
  cases v with
  | unknownDatacenter dc =>
    cases w with
    | unknownDatacenter dc' =>
      unfold message at h
      rw [String.append_left_inj, String.append_right_inj] at h
      rw [h]
    | tooFewNodes dc' asked nodes => exact absurd h (message_ne dc dc' asked nodes)
  | tooFewNodes dc asked nodes =>
    cases w with
    | unknownDatacenter dc' => exact absurd h.symm (message_ne dc' dc asked nodes)
    | tooFewNodes dc' asked' nodes' =>
      -- the number of nodes is read off from the right, the quota from the left
      rw [message_tooFewNodes, message_tooFewNodes] at h
      obtain ⟨hfront, rfl⟩ := Text.append_decimal_inj h
      rw [String.append_left_inj, String.append_right_inj] at hfront
      obtain ⟨rfl, hdc⟩ := Text.decimal_append_inj hfront
      rw [String.append_right_inj] at hdc
      rw [hdc]

/-- The order of warnings: by datacenter, and of the warnings about one, first that it is unknown. -/
def Precedes (v w : QuotaWarning) : Prop :=
  v.datacenter < w.datacenter ∨
    ∃ dc asked nodes, v = .unknownDatacenter dc ∧ w = .tooFewNodes dc asked nodes

end QuotaWarning

namespace Strategy

open QuotaWarning Placement

/-! ## The warnings about one datacenter -/

section
variable {dc : String} {rf : ReplicationFactor} {nodes : Nat} {w : QuotaWarning}

theorem datacenter_of_mem_quotaWarnings (h : w ∈ quotaWarnings dc rf nodes) :
    w.datacenter = dc := by
  unfold quotaWarnings at h
  rcases List.mem_append.1 h with h | h
  · split at h <;> simp_all [datacenter]
  · split at h <;> simp_all [datacenter]

theorem unknownDatacenter_mem_quotaWarnings :
    unknownDatacenter dc ∈ quotaWarnings dc rf nodes ↔ nodes = 0 ∧ 0 < rf.all := by
  unfold quotaWarnings
  by_cases h : nodes = 0 ∧ 0 < rf.all
  · simp [h]
  · by_cases h' : nodes < rf.all <;> simp [h, h']

theorem tooFewNodes_mem_quotaWarnings :
    tooFewNodes dc rf.all nodes ∈ quotaWarnings dc rf nodes ↔ nodes < rf.all := by
  unfold quotaWarnings
  rw [List.mem_append, or_iff_right (by split <;> simp)]
  split <;> simp_all

/-- A datacenter without nodes has too few of them as well. -/
theorem quotaWarnings_of_unknown (h : nodes = 0 ∧ 0 < rf.all) :
    quotaWarnings dc rf nodes = [unknownDatacenter dc, tooFewNodes dc rf.all nodes] := by
  have h' : nodes < rf.all := by omega
  rw [quotaWarnings, if_pos h, if_pos h']
  rfl

theorem quotaWarnings_sublist : (quotaWarnings dc rf nodes).Sublist
    [unknownDatacenter dc, tooFewNodes dc rf.all nodes] := by
  by_cases h : nodes = 0 ∧ 0 < rf.all
  · rw [quotaWarnings_of_unknown h]
  · rw [quotaWarnings, if_neg h, List.nil_append]
    split
    · exact .cons _ (.refl _)
    · exact List.nil_sublist _

theorem quotaWarnings_eq_nil_iff : quotaWarnings dc rf nodes = [] ↔ rf.all ≤ nodes := by
  constructor
  · intro h
    by_contra hlt
    have hm : tooFewNodes dc rf.all nodes ∈ quotaWarnings dc rf nodes :=
      tooFewNodes_mem_quotaWarnings.2 (by omega)
    rw [h] at hm
    cases hm
  · intro h
    rw [quotaWarnings, if_neg (by omega), if_neg (by omega)]
    rfl

theorem pairwise_quotaWarnings : (quotaWarnings dc rf nodes).Pairwise Precedes := by
  refine List.Pairwise.sublist quotaWarnings_sublist ?_
  simp [Precedes]

end

/-! ## The warnings of a strategy -/

section
variable {T : Type} [Token T] (q : Quotas) (s : Snapshot T)

/-- The warnings about the datacenter and the quota of one entry. -/
def warningsOn (s : Snapshot T) (e : String × ReplicationFactor) : List QuotaWarning :=
  quotaWarnings e.1 e.2 (s.directory.endpointsIn e.1).length

theorem unmetQuotas_eq : (networkTopology q).unmetQuotas s = q.toList.flatMap (warningsOn s) := rfl

/-- The warnings about a configured datacenter stand together. -/
theorem unmetQuotas_split {dc : String} {rf : ReplicationFactor} (h : q.get? dc = some rf) :
    ∃ before after,
      (networkTopology q).unmetQuotas s = before ++ warningsOn s (dc, rf) ++ after ∧
        ∀ w ∈ before ++ after, w.datacenter ≠ dc := by
  obtain ⟨front, back, hl⟩ := List.append_of_mem (OrderedMap.mem_toList_iff.2 h)
  have hkeys : ((front ++ (dc, rf) :: back).map Prod.fst).Nodup := hl ▸ q.ascending.nodup
  rw [(List.perm_middle.map Prod.fst).nodup_iff, List.map_cons, List.nodup_cons] at hkeys
  refine ⟨front.flatMap (warningsOn s), back.flatMap (warningsOn s), ?_, fun w hw => ?_⟩
  · rw [unmetQuotas_eq, hl, List.flatMap_append, List.flatMap_cons, List.append_assoc]
  · rw [← List.flatMap_append] at hw
    obtain ⟨e, he, hw⟩ := List.mem_flatMap.1 hw
    rw [datacenter_of_mem_quotaWarnings hw]
    intro hdc
    exact hkeys.1 (List.mem_map.2 ⟨e, he, hdc⟩)

variable {q s} {dc : String} {rf : ReplicationFactor} (h : q.get? dc = some rf)
include h

theorem filter_unmetQuotas :
    (((networkTopology q).unmetQuotas s).filter fun w => decide (w.datacenter = dc)) =
      warningsOn s (dc, rf) := by
  obtain ⟨before, after, hsplit, hother⟩ := unmetQuotas_split q s h
  have hnone : ∀ ws ⊆ before ++ after, (ws.filter fun w => decide (w.datacenter = dc)) = [] :=
    fun ws hws => List.filter_eq_nil_iff.2 fun w hw => by simpa using hother w (hws hw)
  have hown : ((warningsOn s (dc, rf)).filter fun w => decide (w.datacenter = dc)) =
      warningsOn s (dc, rf) :=
    List.filter_eq_self.2 fun w hw => decide_eq_true (datacenter_of_mem_quotaWarnings hw)
  rw [hsplit, List.filter_append, List.filter_append, hown,
    hnone _ (List.subset_append_left _ _), hnone _ (List.subset_append_right _ _),
    List.nil_append, List.append_nil]

theorem message_mem_warnings {w : QuotaWarning} (hw : w.datacenter = dc) :
    w.message ∈ (networkTopology q).warnings s ↔ w ∈ warningsOn s (dc, rf) := by
  rw [warnings, List.mem_map_of_injective message_injective, ← filter_unmetQuotas h,
    List.mem_filter, decide_eq_true_eq]
  exact (and_iff_left hw).symm

theorem infix_warnings :
    (warningsOn s (dc, rf)).map message <:+: (networkTopology q).warnings s := by
  obtain ⟨before, after, hsplit, -⟩ := unmetQuotas_split q s h
  exact List.IsInfix.map message ⟨before, after, hsplit.symm⟩

end

/-! ## Degraded placement -/

section
variable {T : Type} [Token T] (q : Quotas) (s : Snapshot T)

/-- Numbers cut at bounds add up to their sum iff none of them is cut. -/
theorem sum_min_eq_sum_iff {α : Type} (l : List α) (f g : α → Nat) :
    (l.map fun x => min (f x) (g x)).sum = (l.map f).sum ↔ ∀ x ∈ l, f x ≤ g x := by
  suffices h : (l.map fun x => min (f x) (g x)).sum ≤ (l.map f).sum ∧
      ((l.map fun x => min (f x) (g x)).sum = (l.map f).sum ↔ ∀ x ∈ l, f x ≤ g x) from h.2
  induction l with
  | nil => simp
  | cons x l ih =>
    obtain ⟨hle, hiff⟩ := ih
    simp only [List.map_cons, List.sum_cons, List.forall_mem_cons, ← hiff]
    omega

theorem unmetQuotas_eq_nil_iff : (networkTopology q).unmetQuotas s = [] ↔
    ∀ e ∈ q.toList, e.2.all ≤ (s.directory.endpointsIn e.1).length := by
  rw [unmetQuotas_eq, List.flatMap_eq_nil_iff]
  simp only [warningsOn, quotaWarnings_eq_nil_iff]

/-- **No quota is unmet iff the placement of a token is complete.** -/
theorem size_rackAware_eq_iff (t : T) : (rackAware q s t).size = q.total.all ↔
    (networkTopology q).unmetQuotas s = [] := by
  rw [size_rackAware, unmetQuotas_eq_nil_iff, Quotas.total, ReplicationFactor.all_sum,
    OrderedMap.values, List.map_map]
  exact sum_min_eq_sum_iff q.toList (fun e => e.2.all) fun e =>
    (s.directory.endpointsIn e.1).length

variable {q s} {dc : String} {rf : ReplicationFactor} (h : q.get? dc = some rf)
include h

theorem length_within_eq (t : T) : ((rackAware q s t).within s.directory dc).length =
    min rf.all (s.directory.endpointsIn dc).length := by
  rw [length_within, Quotas.need, factorFor_of_get? h]

/-- **An operator is warned of a datacenter exactly if it gets too few replicas**, whichever token
is placed; if it gets none at all, one more warning comes just before. -/
structure Announced (q : Quotas) (s : Snapshot T) (dc : String) (rf : ReplicationFactor) : Prop where
  too_few : (tooFewNodes dc rf.all (s.directory.endpointsIn dc).length).message ∈
      (networkTopology q).warnings s ↔
    ∀ t, ((rackAware q s t).within s.directory dc).length < rf.all
  some_token : (∃ t, ((rackAware q s t).within s.directory dc).length < rf.all) ↔
    ∀ t, ((rackAware q s t).within s.directory dc).length < rf.all
  unknown : (unknownDatacenter dc).message ∈ (networkTopology q).warnings s ↔
    0 < rf.all ∧ ∀ t, (rackAware q s t).within s.directory dc = []
  just_before : (unknownDatacenter dc).message ∈ (networkTopology q).warnings s →
    [(unknownDatacenter dc).message,
        (tooFewNodes dc rf.all (s.directory.endpointsIn dc).length).message] <:+:
      (networkTopology q).warnings s
  no_others : List.Sublist
    (((networkTopology q).unmetQuotas s).filter fun w => decide (w.datacenter = dc))
    [unknownDatacenter dc, tooFewNodes dc rf.all (s.directory.endpointsIn dc).length]

theorem announced : Announced q s dc rf := by
  have hshort : ∀ t, ((rackAware q s t).within s.directory dc).length < rf.all ↔
      (s.directory.endpointsIn dc).length < rf.all := fun t => by
    rw [length_within_eq h]
    omega
  have hnone : ∀ t, (rackAware q s t).within s.directory dc = [] ↔
      rf.all = 0 ∨ (s.directory.endpointsIn dc).length = 0 := fun t => by
    rw [← List.length_eq_zero_iff, length_within_eq h]
    omega
  have hunknown : (unknownDatacenter dc).message ∈ (networkTopology q).warnings s ↔
      (s.directory.endpointsIn dc).length = 0 ∧ 0 < rf.all :=
    (message_mem_warnings h rfl).trans unknownDatacenter_mem_quotaWarnings
  constructor
  case too_few =>
    refine ((message_mem_warnings h rfl).trans tooFewNodes_mem_quotaWarnings).trans ?_
    exact ⟨fun hlt t => (hshort t).2 hlt, fun hall => (hshort Token.origin).1 (hall _)⟩
  case some_token =>
    exact ⟨fun ⟨t, ht⟩ t' => (hshort t').2 ((hshort t).1 ht), fun hall => ⟨Token.origin, hall _⟩⟩
  case unknown =>
    rw [hunknown]
    constructor
    · rintro ⟨hz, hpos⟩
      exact ⟨hpos, fun t => (hnone t).2 (.inr hz)⟩
    · rintro ⟨hpos, hall⟩
      have hz := (hnone Token.origin).1 (hall _)
      exact ⟨by omega, hpos⟩
  case just_before =>
    intro hm
    have hinfix := infix_warnings (s := s) h
    rwa [warningsOn, quotaWarnings_of_unknown (hunknown.1 hm)] at hinfix
  case no_others =>
    rw [filter_unmetQuotas h]
    exact quotaWarnings_sublist

end

section
variable {T : Type} [Token T] (q : Quotas) (s : Snapshot T)

theorem pairwise_unmetQuotas : ((networkTopology q).unmetQuotas s).Pairwise Precedes := by
  rw [unmetQuotas_eq, List.pairwise_flatMap]
  refine ⟨fun e _ => pairwise_quotaWarnings, q.ascending.imp fun hlt v hv w hw => .inl ?_⟩
  rw [datacenter_of_mem_quotaWarnings hv, datacenter_of_mem_quotaWarnings hw]
  exact hlt

theorem datacenter_of_mem_unmetQuotas {w : QuotaWarning}
    (hw : w ∈ (networkTopology q).unmetQuotas s) : w.datacenter ∈ q.keys := by
  rw [unmetQuotas_eq, List.mem_flatMap] at hw
  obtain ⟨e, he, hw⟩ := hw
  rw [datacenter_of_mem_quotaWarnings hw]
  exact List.mem_map_of_mem he

/-- **Warnings announce degraded placement.** There are none iff every token gets all the replicas
that the quotas ask for together. A configured datacenter is warned of iff it falls short, for one
token or for all; the messages are in the order of the datacenters, and there are no others. -/
theorem warnings_announce_shortfalls :
    ((networkTopology q).warnings s = [] ↔
      ∀ t, (rackAware q s t).size = (networkTopology q).factor.all) ∧
    (∀ dc rf, q.get? dc = some rf → Announced q s dc rf) ∧
    (networkTopology q).warnings s = ((networkTopology q).unmetQuotas s).map message ∧
    ((networkTopology q).unmetQuotas s).Pairwise Precedes ∧
    ∀ w ∈ (networkTopology q).unmetQuotas s, w.datacenter ∈ q.keys := by
  refine ⟨?_, fun _ _ => announced, rfl, pairwise_unmetQuotas q s,
    fun _ => datacenter_of_mem_unmetQuotas q s⟩
  rw [warnings, List.map_eq_nil_iff]
  constructor
  · intro hw t
    exact (size_rackAware_eq_iff q s t).2 hw
  · intro hall
    exact (size_rackAware_eq_iff q s Token.origin).1 (hall _)

end

/-- The sample cluster has one node in the east, where two replicas are asked for, and none in the
south; for the north nothing is asked. -/
theorem warnings_announce_fourNodes :
    let q : Quotas := .ofList [("west", ⟨2, 1, by decide⟩), ("south", .ofFull 1),
      ("north", .zero), ("east", .ofFull 2)]
    let s := Snapshot.fourNodes
    (networkTopology q).unmetQuotas s =
        [tooFewNodes "east" 2 1, unknownDatacenter "south", tooFewNodes "south" 1 0] ∧
      (q.get? "south" = some (.ofFull 1) ∧ Announced q s "south" (.ofFull 1)) ∧
      ((unknownDatacenter "south").message ∈ (networkTopology q).warnings s ∧
        [(unknownDatacenter "south").message, (tooFewNodes "south" 1 0).message] <:+:
          (networkTopology q).warnings s) ∧
      tooFewNodes "east" 2 1 ∈ (networkTopology q).unmetQuotas s ∧ "east" ∈ q.keys ∧
      ¬∀ t, (rackAware q s t).size = 6 := by
  intro q s
  obtain ⟨hempty, hannounced, hmessages, -, hkeys⟩ := warnings_announce_shortfalls q s
  have hunmet : (networkTopology q).unmetQuotas s =
      [tooFewNodes "east" 2 1, unknownDatacenter "south", tooFewNodes "south" 1 0] := by decide
  have hsouth : q.get? "south" = some (.ofFull 1) := by decide
  have heast : tooFewNodes "east" 2 1 ∈ (networkTopology q).unmetQuotas s := by
    rw [hunmet]
    exact .head _
  have hmem : (unknownDatacenter "south").message ∈ (networkTopology q).warnings s := by
    rw [hmessages, hunmet]
    exact List.mem_map_of_mem (.tail _ (.head _))
  have hsome : (networkTopology q).warnings s ≠ [] := List.ne_nil_of_mem hmem
  exact ⟨hunmet, ⟨hsouth, hannounced _ _ hsouth⟩,
    ⟨hmem, (hannounced _ _ hsouth).just_before hmem⟩, heast, hkeys _ heast,
    fun hall => hsome (hempty.2 hall)⟩

end Strategy

end ReplicaRing
