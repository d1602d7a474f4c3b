import Mathlib.Data.List.Induction
import ReplicaRing.Proofs.Configuration
import ReplicaRing.Proofs.Quota
import ReplicaRing.Proofs.Results

/-!
# Quotas from options

The options of a placement by quotas name a datacenter each, and are taken in one after another. The
first that cannot be taken in is reported, and no later option makes up for it. If all can, the
quotas are those of the options in force, and nothing is left of options that others replaced.

* `Strategy.addQuota_eq_ok_iff`, `Strategy.addQuota_eq_error_iff`: what one option comes to.
* `Strategy.Configures`: quotas are those in force, the invariant of taking options in
  (`Configures.insert`); `Strategy.foldlM_addQuota_eq_ok_iff`: so they are after all options.
* `Strategy.quotas_configured`: what any options configure, or how they fail.
-/

namespace ReplicaRing.Strategy

open Placement

/-! ## Single options -/

/-- The option asks for so many replicas in the datacenter that it names. -/
def Asks (o : String × String) (f : ReplicationFactor) : Prop :=
  o.1 ≠ factorKey ∧ ReplicationFactor.parse o.2 = .ok f

/-- Why the option cannot be taken in. A factor for the whole cluster is misplaced, whatever it
is. -/
inductive OptionFault : String × String → ConfigurationError → Prop
  | misplaced (spec : String) : OptionFault (factorKey, spec) .misplacedFactor
  | factor {dc spec : String} {e : FactorError} (hdc : dc ≠ factorKey)
    (hspec : ReplicationFactor.parse spec = .error e) : OptionFault (dc, spec) (.factor e)

section
variable {q q' : Quotas} {o : String × String} {e : ConfigurationError}

theorem addQuota_eq_ok_iff : addQuota q o = .ok q' ↔ ∃ f, Asks o f ∧ q' = q.insert o.1 f := by
  rw [addQuota]
  split
  · rename_i h
    constructor
    · rintro ⟨⟩
    · rintro ⟨f, hf, -⟩
      exact absurd h hf.1
  · rename_i h
    rw [map_eq_ok_iff]
    refine exists_congr fun f => ?_
    rw [readFactor, mapError_eq_ok_iff, Asks, and_iff_right h, @eq_comm _ q']

theorem addQuota_eq_error_iff : addQuota q o = .error e ↔ OptionFault o e := by
  obtain ⟨dc, spec⟩ := o
  rw [addQuota]
  split
  · rename_i h
    obtain rfl : dc = factorKey := h
    constructor
    · rintro ⟨⟩
      exact .misplaced spec
    · rintro (_ | ⟨hdc, -⟩)
      · rfl
      · exact absurd rfl hdc
  · rename_i h
    rw [map_eq_error_iff, readFactor, mapError_eq_error_iff]
    constructor
    · rintro ⟨e, hspec, rfl⟩
      exact .factor h hspec
    · rintro (_ | ⟨-, hspec⟩)
      · exact absurd rfl h
      · exact ⟨_, hspec, rfl⟩

/-- An option is taken in or at fault. -/
theorem exists_asks_iff : (∃ f, Asks o f) ↔ ¬∃ e, OptionFault o e := by
  constructor
  · rintro ⟨f, hf⟩ ⟨e, he⟩
    have hadd : addQuota ∅ o = .ok _ := addQuota_eq_ok_iff.2 ⟨f, hf, rfl⟩
    rw [addQuota_eq_error_iff.2 he] at hadd
    cases hadd
  · intro h
    cases hadd : addQuota ∅ o with
    | ok q =>
      obtain ⟨f, hf, -⟩ := addQuota_eq_ok_iff.1 hadd
      exact ⟨f, hf⟩
    | error e => exact absurd ⟨e, addQuota_eq_error_iff.1 hadd⟩ h

/-- Which options are at fault. -/
theorem exists_optionFault_iff : (∃ e, OptionFault o e) ↔
    o.1 = factorKey ∨ ∃ e, ReplicationFactor.parse o.2 = .error e := by
  obtain ⟨dc, spec⟩ := o
  constructor
  · rintro ⟨_, _ | ⟨-, hspec⟩⟩
    · exact .inl rfl
    · exact .inr ⟨_, hspec⟩
  · rintro (h | ⟨e, hspec⟩)
    · obtain rfl : dc = factorKey := h
      exact ⟨_, .misplaced spec⟩
    · by_cases h : dc = factorKey
      · exact h ▸ ⟨_, .misplaced spec⟩
      · exact ⟨_, .factor h hspec⟩

end

/-! ## Lists of options -/

namespace Options

variable {os os' : Options} {o o' : String × String}

/-- A last option is in force, and takes their force from those with its key. -/
theorem mem_inForce_concat : o' ∈ inForce (os ++ [o]) ↔ o' = o ∨ o'.1 ≠ o.1 ∧ o' ∈ os.inForce := by
  rw [mem_inForce_iff, mem_inForce_iff, List.reverse_append, List.reverse_singleton,
    List.singleton_append, OrderedMap.lookup_cons_ite]
  by_cases h : o'.1 = o.1
  · rw [if_pos h, Option.some.injEq, or_iff_left fun hn => hn.1 h, Prod.ext_iff]
    exact ⟨fun hv => ⟨h, hv.symm⟩, fun hv => hv.2.symm⟩
  · rw [if_neg h, or_iff_right fun he => h (congrArg _ he), and_iff_right h]

theorem mem_of_mem_inForce (h : o ∈ os.inForce) : o ∈ os := by
  obtain ⟨front, back, rfl, -⟩ := h
  simp

/-- Every key that occurs has an option in force. -/
theorem exists_mem_inForce (h : o ∈ os) : ∃ spec, (o.1, spec) ∈ os.inForce := by
  induction os using List.reverseRecOn with
  | nil => cases h
  | append_singleton os p ih =>
    simp only [mem_inForce_concat]
    by_cases hp : o.1 = p.1
    · exact ⟨p.2, .inl (Prod.ext hp rfl)⟩
    · rcases List.mem_append.1 h with h | h
      · obtain ⟨spec, hspec⟩ := ih h
        exact ⟨spec, .inr ⟨hp, hspec⟩⟩
      · exact absurd (congrArg Prod.fst (List.mem_singleton.1 h)) hp

/-- Of options with distinct keys all are in force. -/
theorem mem_inForce_of_nodup (h : (os.map Prod.fst).Nodup) : o ∈ os.inForce ↔ o ∈ os := by
  refine ⟨mem_of_mem_inForce, fun hm => ?_⟩
  obtain ⟨front, back, rfl⟩ := List.append_of_mem hm
  refine ⟨front, back, rfl, fun other hother he => ?_⟩
  rw [List.map_append, List.map_cons, List.nodup_append, List.nodup_cons] at h
  exact h.2.1.1 (he ▸ List.mem_map_of_mem hother)

end Options

/-- The quotas are those that the options in force ask for. -/
def Configures (os : Options) (q : Quotas) : Prop :=
  ∀ dc f, q.get? dc = some f ↔
    ∃ spec, (dc, spec) ∈ os.inForce ∧ ReplicationFactor.parse spec = .ok f

section
variable {os os' : Options} {q q' : Quotas} {o : String × String}

/-- **Taking in one more option** keeps the quotas those in force. -/
theorem Configures.insert (h : Configures os q) {f : ReplicationFactor} (ho : Asks o f) :
    Configures (os ++ [o]) (q.insert o.1 f) := by
  intro dc g
  simp only [OrderedMap.get?_insert, Options.mem_inForce_concat]
  by_cases hdc : dc = o.1
  · subst hdc
    simp only [if_pos, ne_eq, not_true_eq_false, false_and, or_false, Prod.ext_iff, true_and,
      Option.some.injEq, exists_eq_left, ho.2, Except.ok.injEq]
  · rw [if_neg hdc, h dc g]
    refine exists_congr fun spec => and_congr_left fun _ => ?_
    rw [or_iff_right fun he => hdc (congrArg Prod.fst he), and_iff_right hdc]

/-- **Options are taken in** if each can be, and then their quotas are those in force. -/
theorem foldlM_addQuota : (∀ o ∈ os, ∃ f, Asks o f) →
    ∃ q, os.foldlM addQuota ∅ = .ok q ∧ Configures os q := by
  -- from the end, as it is later options that put earlier ones out of force
  induction os using List.reverseRecOn with
  | nil =>
    refine fun _ => ⟨∅, rfl, fun dc f => ⟨fun h => (nomatch h), fun ⟨_, h, _⟩ => ?_⟩⟩
    cases Options.mem_of_mem_inForce h
  | append_singleton os o ih =>
    intro h
    obtain ⟨q, hfold, hq⟩ := ih fun p hp => h p (List.mem_append_left _ hp)
    obtain ⟨f, hf⟩ := h o (List.mem_append_right _ (.head _))
    refine ⟨q.insert o.1 f, ?_, hq.insert hf⟩
    rw [List.foldlM_append, hfold]
    show (addQuota q o >>= pure) = _
    rw [addQuota_eq_ok_iff.2 ⟨f, hf, rfl⟩]
    rfl

theorem asks_of_foldlM_addQuota (h : os.foldlM addQuota q = .ok q') :
    ∀ o ∈ os, ∃ f, Asks o f := by
  induction os generalizing q with
  | nil => exact fun o ho => nomatch ho
  | cons p os ih =>
    rw [List.foldlM_cons] at h
    obtain ⟨q₁, hadd, hrest⟩ := bind_eq_ok_iff.1 h
    obtain ⟨f, hf, -⟩ := addQuota_eq_ok_iff.1 hadd
    exact List.forall_mem_cons.2 ⟨⟨f, hf⟩, ih hrest⟩

/-- Options configure one placement only. -/
theorem Configures.unique (h : Configures os q) (h' : Configures os q') : q = q' :=
  OrderedMap.ext_get? fun dc => Option.ext fun f => (h dc f).trans (h' dc f).symm

theorem networkTopologyOfOptions_eq_ok_iff {σ : Strategy} : networkTopologyOfOptions os = .ok σ ↔
    ∃ q, σ = networkTopology q ∧ (∀ o ∈ os, ∃ f, Asks o f) ∧ Configures os q := by
  rw [networkTopologyOfOptions, map_eq_ok_iff]
  constructor
  · rintro ⟨q, hfold, rfl⟩
    have hasks := asks_of_foldlM_addQuota hfold
    obtain ⟨q', hfold', hq'⟩ := foldlM_addQuota hasks
    obtain rfl : q = q' := Except.ok.inj (hfold.symm.trans hfold')
    exact ⟨q, rfl, hasks, hq'⟩
  · rintro ⟨q, rfl, hasks, hq⟩
    obtain ⟨q', hfold, hq'⟩ := foldlM_addQuota hasks
    exact ⟨q', hfold, congrArg _ (hq'.unique hq)⟩

/-- **The first option at fault** is reported. -/
theorem networkTopologyOfOptions_eq_error_iff {e : ConfigurationError} :
    networkTopologyOfOptions os = .error e ↔ ∃ front o back, os = front ++ o :: back ∧
      (∀ p ∈ front, ∃ f, Asks p f) ∧ OptionFault o e := by
  rw [networkTopologyOfOptions, map_eq_error_iff, foldlM_eq_error_iff]
  refine exists_congr fun front => exists_congr fun o => exists_congr fun back =>
    and_congr_right fun _ => ?_
  simp only [addQuota_eq_error_iff]
  constructor
  · rintro ⟨q, hfold, hfault⟩
    exact ⟨asks_of_foldlM_addQuota hfold, hfault⟩
  · rintro ⟨hasks, hfault⟩
    obtain ⟨q, hfold, -⟩ := foldlM_addQuota hasks
    exact ⟨q, hfold, hfault⟩

theorem exists_error_iff :
    (∃ e, networkTopologyOfOptions os = .error e) ↔ ∃ o ∈ os, ∃ e, OptionFault o e := by
  constructor
  · rintro ⟨e, he⟩
    obtain ⟨front, o, back, rfl, -, hfault⟩ := networkTopologyOfOptions_eq_error_iff.1 he
    exact ⟨o, List.mem_append_right _ (.head _), e, hfault⟩
  · rintro ⟨o, ho, hfault⟩
    cases h : networkTopologyOfOptions os with
    | ok σ =>
      obtain ⟨q, -, hasks, -⟩ := networkTopologyOfOptions_eq_ok_iff.1 h
      exact absurd hfault (exists_asks_iff.1 (hasks o ho))
    | error e => exact ⟨e, rfl⟩

end

/-! ## Quotas -/

/-- What quotas say that were read from options: of each datacenter the factor in its last option,
of no other datacenter anything, and as the factor of the whole cluster the sum of these. -/
structure ReadFrom (q : Quotas) (os : Options) : Prop where
  last (dc spec : String) : (dc, spec) ∈ os.inForce →
    ReplicationFactor.parse spec = .ok (q.factorFor dc)
  unnamed (dc : String) : (∀ o ∈ os, o.1 ≠ dc) → q.factorFor dc = .zero
  datacenters : Enumerates id q.keys {dc | ∃ o ∈ os, o.1 = dc}
  listed : q.toList = q.keys.map fun dc => (dc, q.factorFor dc)
  full : (networkTopology q).factor.full = (q.keys.map fun dc => (q.factorFor dc).full).sum
  transient : (networkTopology q).factor.transient =
    (q.keys.map fun dc => (q.factorFor dc).transient).sum
  valid : (networkTopology q).factor.full = 0 → (networkTopology q).factor.transient = 0

section
variable {os os' : Options} {q : Quotas}

theorem toList_eq_map_keys (q : Quotas) : q.toList = q.keys.map fun dc => (dc, q.factorFor dc) := by
  rw [OrderedMap.keys, List.map_map]
  refine (List.map_id q.toList).symm.trans (List.map_congr_left fun e he => ?_)
  exact Prod.ext rfl (factorFor_of_get? (OrderedMap.mem_toList_iff.1 he)).symm

theorem values_eq_map_keys (q : Quotas) : q.values = q.keys.map q.factorFor := by
  rw [OrderedMap.values, toList_eq_map_keys, List.map_map]
  rfl

theorem Configures.mem_keys_iff (h : Configures os q) (hasks : ∀ o ∈ os, ∃ f, Asks o f)
    {dc : String} : dc ∈ q.keys ↔ ∃ o ∈ os, o.1 = dc := by
  rw [OrderedMap.mem_keys_iff, Option.isSome_iff_exists]
  constructor
  · rintro ⟨f, hf⟩
    obtain ⟨spec, hspec, -⟩ := (h dc f).1 hf
    exact ⟨_, Options.mem_of_mem_inForce hspec, rfl⟩
  · rintro ⟨o, ho, rfl⟩
    obtain ⟨spec, hspec⟩ := Options.exists_mem_inForce ho
    obtain ⟨f, -, hf⟩ := hasks _ (Options.mem_of_mem_inForce hspec)
    exact ⟨f, (h _ f).2 ⟨spec, hspec, hf⟩⟩

theorem Configures.readFrom (h : Configures os q) (hasks : ∀ o ∈ os, ∃ f, Asks o f) :
    ReadFrom q os where
  last dc spec hspec := by
    obtain ⟨f, -, hf⟩ := hasks _ (Options.mem_of_mem_inForce hspec)
    rw [factorFor_of_get? ((h dc f).2 ⟨spec, hspec, hf⟩)]
    exact hf
  unnamed dc hdc := factorFor_of_not_mem fun hm => by
    obtain ⟨o, ho, he⟩ := (h.mem_keys_iff hasks).1 hm
    exact hdc o ho he
  datacenters := ⟨q.ascending_keys, fun _ => h.mem_keys_iff hasks⟩
  listed := toList_eq_map_keys q
  full := by
    show (ReplicationFactor.sum q.values).full = _
    rw [ReplicationFactor.full_sum, values_eq_map_keys, List.map_map]
    rfl
  transient := by
    show (ReplicationFactor.sum q.values).transient = _
    rw [ReplicationFactor.transient_sum, values_eq_map_keys, List.map_map]
    rfl
  valid := (networkTopology q).factor.transient_eq_zero

/-- Options with distinct keys configure the same quotas in any order. -/
theorem Configures.perm (h : Configures os q) (hn : (os.map Prod.fst).Nodup)
    (hp : os.Perm os') : Configures os' q := by
  have hn' : (os'.map Prod.fst).Nodup := (hp.map Prod.fst).nodup_iff.1 hn
  intro dc f
  rw [h dc f]
  refine exists_congr fun spec => and_congr_left fun _ => ?_
  rw [Options.mem_inForce_of_nodup hn, Options.mem_inForce_of_nodup hn', hp.mem_iff]

end

/-- **Quotas are those that their options ask for last.** Options fail if one of them is at fault,
whatever follows it, and with the fault of the first. Else each datacenter that they name, and no
other, gets the factor in its last option, and the factor of the whole cluster is the sum of these.
The order of options with different keys decides at most which fault is reported. -/
theorem quotas_configured :
    (∀ os : Options, (∃ e, networkTopologyOfOptions os = .error e) ↔
      ∃ o ∈ os, o.1 = factorKey ∨ ∃ e, ReplicationFactor.parse o.2 = .error e) ∧
    (∀ (os : Options) (e : ConfigurationError), networkTopologyOfOptions os = .error e ↔
      ∃ front o back, os = front ++ o :: back ∧ (∀ p ∈ front, ∃ f, Asks p f) ∧
        OptionFault o e) ∧
    (∀ (os : Options) (σ : Strategy), networkTopologyOfOptions os = .ok σ →
      ∃ q, σ = networkTopology q ∧ ReadFrom q os) ∧
    ∀ os os' : Options, (os.map Prod.fst).Nodup → os.Perm os' →
      (∃ σ, networkTopologyOfOptions os = .ok σ ∧ networkTopologyOfOptions os' = .ok σ) ∨
      ∃ e e', networkTopologyOfOptions os = .error e ∧
        networkTopologyOfOptions os' = .error e' := by
  refine ⟨fun os => ?_, fun os e => networkTopologyOfOptions_eq_error_iff, fun os σ h => ?_,
    fun os os' hn hp => ?_⟩
  · rw [exists_error_iff]
    simp only [exists_optionFault_iff]
  · obtain ⟨q, rfl, hasks, hq⟩ := networkTopologyOfOptions_eq_ok_iff.1 h
    exact ⟨q, rfl, hq.readFrom hasks⟩
  · cases h : networkTopologyOfOptions os with
    | ok σ =>
      obtain ⟨q, rfl, hasks, hq⟩ := networkTopologyOfOptions_eq_ok_iff.1 h
      refine .inl ⟨_, rfl, networkTopologyOfOptions_eq_ok_iff.2 ⟨q, rfl, ?_, hq.perm hn hp⟩⟩
      exact fun o ho => hasks o (hp.mem_iff.2 ho)
    | error e =>
      obtain ⟨o, ho, hfault⟩ := exists_error_iff.1 ⟨e, h⟩
      obtain ⟨e', he'⟩ := exists_error_iff.2 ⟨o, hp.mem_iff.1 ho, hfault⟩
      exact .inr ⟨e, e', rfl, he'⟩

/-- The west is named twice, and two datacenters change places. -/
theorem quotas_configured_twice :
    let os : Options := [("west", "5"), ("east", "2/1"), ("west", "1")]
    let west : Options := [("west", "1"), ("east", "2/1")]
    let east : Options := [("east", "2/1"), ("west", "1")]
    networkTopologyOfOptions (("west", "many") :: os) =
        .error (.factor (.malformed "many" .invalidDigit)) ∧
      (∃ q : Quotas, networkTopologyOfOptions os = .ok (networkTopology q) ∧ ReadFrom q os ∧
        q.keys = ["east", "west"] ∧ q.factorFor "west" = .ofFull 1 ∧
        (networkTopology q).factor.full = 3) ∧
      (west.map Prod.fst).Nodup ∧ west.Perm east ∧
      ∃ σ, networkTopologyOfOptions west = .ok σ ∧ networkTopologyOfOptions east = .ok σ := by
  intro os west east
  obtain ⟨-, herror, hok, hperm⟩ := quotas_configured
  let q : Quotas := .ofList [("east", ⟨2, 1, by decide⟩), ("west", .ofFull 1)]
  have hos : networkTopologyOfOptions os = .ok (networkTopology q) := by decide
  have hwest : networkTopologyOfOptions west = .ok (networkTopology q) := by decide
  have hmany : OptionFault ("west", "many") (.factor (.malformed "many" .invalidDigit)) :=
    .factor (by decide) (by decide)
  have hn : (west.map Prod.fst).Nodup := by decide
  have hp : west.Perm east := .swap _ _ _
  refine ⟨(herror _ _).2 ⟨[], _, os, rfl, fun _ h => (nomatch h), hmany⟩, ?_, hn, hp, ?_⟩
  · obtain ⟨q', hq, hreads⟩ := hok os _ hos
    obtain rfl := Strategy.networkTopology.inj hq
    exact ⟨q, hos, hreads, by decide, by decide, by decide⟩
  · rcases hperm west east hn hp with h | ⟨e, _, he, -⟩
    · exact h
    · rw [hwest] at he
      cases he

end ReplicaRing.Strategy
