import ReplicaRing.Ascending

/-!
# Maps in ascending order of their keys

`OrderedMap K V` is a finite map kept as a list of entries with strictly ascending keys, so maps
with the same entries are equal and listing a map shows its keys in order.

* `get?_alter`: `alter k f` changes what is held under `k` and nothing else.
* `ext_get?`: maps that answer alike are equal.
* `get?_ofList`: of the entries of one key the last counts.
* `get?_groups`: `groups` gathers the values of each key in the order in which they are listed;
  `get?_groups_eq_some_iff`: a group is what there is to gather.
* `getIn?_insertIn`, `ext_getIn?`: the same laws for maps whose values are maps.
-/

namespace ReplicaRing

/-- A finite map, listed in ascending order of its keys. -/
structure OrderedMap (K V : Type) [LT K] where
  toList : List (K × V)
  ascending : Ascending Prod.fst toList

namespace OrderedMap

variable {K V : Type}

section Entries

variable [LT K] [DecidableLT K]

/-- Changes the entry of `k` in a list of entries, adding it in its place if it is missing. -/
def alterEntries (k : K) (f : Option V → V) : List (K × V) → List (K × V)
  | [] => [(k, f none)]
  | (k', v) :: rest =>
    if k < k' then (k, f none) :: (k', v) :: rest
    else if k' < k then (k', v) :: alterEntries k f rest
    else (k', f (some v)) :: rest

theorem fst_mem_alterEntries {k : K} {f : Option V → V} {l : List (K × V)} {e : K × V}
    (h : e ∈ alterEntries k f l) : e.1 = k ∨ ∃ e' ∈ l, e'.1 = e.1 := by
  induction l with
  | nil => simp_all [alterEntries]
  | cons a rest ih =>
    rw [alterEntries] at h
    split at h
    · rcases List.mem_cons.1 h with rfl | h
      · exact .inl rfl
      · exact .inr ⟨e, h, rfl⟩
    · split at h
      · rcases List.mem_cons.1 h with rfl | h
        · exact .inr ⟨a, .head _, rfl⟩
        · exact (ih h).imp id fun ⟨e', hm, he⟩ => ⟨e', .tail _ hm, he⟩
      · rcases List.mem_cons.1 h with rfl | h
        · exact .inr ⟨a, .head _, rfl⟩
        · exact .inr ⟨e, .tail _ h, rfl⟩

end Entries

variable [LE K] [LT K] [DecidableLT K] [Std.IsLinearOrder K] [Std.LawfulOrderLT K]

theorem alterEntries_ascending {k : K} {f : Option V → V} {l : List (K × V)}
    (h : Ascending Prod.fst l) : Ascending Prod.fst (alterEntries k f l) := by
  induction l with
  | nil => simp [alterEntries, Ascending]
  | cons a rest ih =>
    obtain ⟨ha, hr⟩ := List.pairwise_cons.1 h
    rw [alterEntries]
    split
    · refine List.pairwise_cons.2 ⟨fun e he => ?_, h⟩
      rcases List.mem_cons.1 he with rfl | he
      · assumption
      · have := ha e he; grind
    · split
      · refine List.pairwise_cons.2 ⟨fun e he => ?_, ih hr⟩
        rcases fst_mem_alterEntries he with he | ⟨e', hm, he⟩
        · rw [he]; assumption
        · rw [← he]; exact ha _ hm
      · exact List.pairwise_cons.2 ⟨ha, hr⟩

/-- The map without entries. -/
def empty : OrderedMap K V := ⟨[], .nil⟩

instance : EmptyCollection (OrderedMap K V) := ⟨empty⟩
instance : Inhabited (OrderedMap K V) := ⟨empty⟩

/-- Puts `f` of what is held under `k` (`none` if nothing is) under `k`. -/
def alter (m : OrderedMap K V) (k : K) (f : Option V → V) : OrderedMap K V :=
  ⟨alterEntries k f m.toList, alterEntries_ascending m.ascending⟩

/-- Holds `v` under `k`, in place of what was held there. -/
def insert (m : OrderedMap K V) (k : K) (v : V) : OrderedMap K V := m.alter k fun _ => v

/-- The keys in ascending order. -/
def keys (m : OrderedMap K V) : List K := m.toList.map Prod.fst

/-- The values in the order of their keys. -/
def values (m : OrderedMap K V) : List V := m.toList.map Prod.snd

/-- The number of entries. -/
def size (m : OrderedMap K V) : Nat := m.toList.length

/-- What is held under `k`. -/
def get? [DecidableEq K] (m : OrderedMap K V) (k : K) : Option V := m.toList.lookup k

/-- The map of a list of entries, in which a later entry replaces an earlier one. -/
def ofList (entries : List (K × V)) : OrderedMap K V :=
  entries.foldl (fun m e => m.insert e.1 e.2) ∅

/-- The same keys with changed values. -/
def mapValues {W : Type} (f : K → V → W) (m : OrderedMap K V) : OrderedMap K W :=
  ⟨m.toList.map fun e => (e.1, f e.1 e.2), by
    rw [Ascending, List.pairwise_map]
    exact m.ascending⟩

/-- Gathers the values of each key, in the order in which the pairs are listed. -/
def groups (pairs : List (K × V)) : OrderedMap K (List V) :=
  pairs.foldl (fun m e => m.alter e.1 fun old => old.getD [] ++ [e.2]) ∅

instance [DecidableEq K] [DecidableEq V] : DecidableEq (OrderedMap K V) := fun a b =>
  decidable_of_iff (a.toList = b.toList)
    ⟨fun h => by cases a; cases b; cases h; rfl, fun h => h ▸ rfl⟩

omit [LE K] [DecidableLT K] [Std.IsLinearOrder K] [Std.LawfulOrderLT K] in
theorem ascending_keys (m : OrderedMap K V) : Ascending id m.keys :=
  List.pairwise_map.2 m.ascending

/-! ## Looking up -/

section Lookup

variable [DecidableEq K]

omit [LE K] [DecidableLT K] [Std.IsLinearOrder K] [Std.LawfulOrderLT K] in
@[simp] theorem get?_empty (k : K) : (∅ : OrderedMap K V).get? k = none := rfl

omit [LE K] [LT K] [DecidableLT K] [Std.IsLinearOrder K] [Std.LawfulOrderLT K] in
theorem lookup_cons_ite (k : K) (a : K × V) (l : List (K × V)) :
    (a :: l).lookup k = if k = a.1 then some a.2 else l.lookup k := by
  rw [List.lookup_cons]
  by_cases h : k = a.1
  · simp [h]
  · rw [if_neg h, beq_eq_false_iff_ne.2 h]

omit [LE K] [LT K] [DecidableLT K] [Std.IsLinearOrder K] [Std.LawfulOrderLT K] in
/-- Among distinct keys the order of the entries does not matter. -/
theorem lookup_perm {l l' : List (K × V)} (hp : l.Perm l') (h : (l.map Prod.fst).Nodup) (k : K) :
    l.lookup k = l'.lookup k := by
  induction hp with
  | nil => rfl
  | cons a _ ih =>
    rw [List.map_cons, List.nodup_cons] at h
    rw [lookup_cons_ite, lookup_cons_ite, ih h.2]
  | swap a b l =>
    have hne : b.1 ≠ a.1 := fun he => by simp [he] at h
    simp only [lookup_cons_ite]
    split
    · rename_i hb
      rw [if_neg (hb ▸ hne)]
    · rfl
  | trans hp _ ih ih' => rw [ih h, ih' ((hp.map Prod.fst).nodup_iff.1 h)]

omit [DecidableLT K] in
theorem lookup_eq_none_of_lt {k : K} {l : List (K × V)} (h : ∀ e ∈ l, k < e.1) :
    l.lookup k = none := by
  rw [List.lookup_eq_none_iff]
  intro e he
  have := h e he
  simp only [ne_eq, bne_iff_ne]
  grind

theorem lookup_alterEntries {k k' : K} {f : Option V → V} {l : List (K × V)}
    (h : Ascending Prod.fst l) :
    (alterEntries k f l).lookup k' = if k' = k then some (f (l.lookup k)) else l.lookup k' := by
  induction l with
  | nil => simp [alterEntries, lookup_cons_ite]
  | cons a rest ih =>
    obtain ⟨ha, hr⟩ := List.pairwise_cons.1 h
    rw [alterEntries]
    split
    · rename_i hlt
      have hn : (a :: rest).lookup k = none := lookup_eq_none_of_lt fun e he => by
        rcases List.mem_cons.1 he with rfl | he
        · exact hlt
        · have := ha e he; grind
      rw [hn, lookup_cons_ite]
    · split
      · rename_i hlt
        rw [lookup_cons_ite, ih hr, lookup_cons_ite, lookup_cons_ite]
        grind
      · have hk : k = a.1 := by grind
        rw [lookup_cons_ite, lookup_cons_ite, lookup_cons_ite]
        grind

theorem get?_alter (m : OrderedMap K V) (k k' : K) (f : Option V → V) :
    (m.alter k f).get? k' = if k' = k then some (f (m.get? k)) else m.get? k' :=
  lookup_alterEntries m.ascending

theorem get?_insert (m : OrderedMap K V) (k k' : K) (v : V) :
    (m.insert k v).get? k' = if k' = k then some v else m.get? k' :=
  get?_alter m k k' _

omit [DecidableLT K] in
theorem mem_toList_iff {m : OrderedMap K V} {k : K} {v : V} :
    (k, v) ∈ m.toList ↔ m.get? k = some v := by
  obtain ⟨l, hl⟩ := m
  simp only [get?]
  induction l with
  | nil => simp
  | cons a rest ih =>
    obtain ⟨ha, hr⟩ := List.pairwise_cons.1 hl
    rw [List.mem_cons, lookup_cons_ite, ih hr]
    by_cases e : k = a.1
    · have hn : rest.lookup k = none := lookup_eq_none_of_lt fun b hb => e ▸ ha b hb
      simp only [hn, if_pos e, reduceCtorEq, or_false]
      obtain ⟨j, w⟩ := a
      cases e
      simp [eq_comm]
    · have : (k, v) ≠ a := fun h => e (h ▸ rfl)
      simp [e, this]

omit [DecidableLT K] in
theorem ext_get? {m n : OrderedMap K V} (h : ∀ k, m.get? k = n.get? k) : m = n := by
  have : m.toList = n.toList := m.ascending.eq_of_mem_iff n.ascending fun ⟨k, v⟩ => by
    rw [mem_toList_iff, mem_toList_iff, h k]
  cases m; cases n; cases this; rfl

omit [DecidableLT K] in
theorem mem_keys_iff {m : OrderedMap K V} {k : K} : k ∈ m.keys ↔ (m.get? k).isSome := by
  rw [keys, List.mem_map, Option.isSome_iff_exists]
  constructor
  · rintro ⟨e, he, rfl⟩
    exact ⟨e.2, mem_toList_iff.1 he⟩
  · rintro ⟨v, hv⟩
    exact ⟨(k, v), mem_toList_iff.2 hv, rfl⟩

omit [LE K] [DecidableLT K] [Std.IsLinearOrder K] [Std.LawfulOrderLT K] in
theorem get?_mapValues {W : Type} (f : K → V → W) (m : OrderedMap K V) (k : K) :
    (m.mapValues f).get? k = (m.get? k).map (f k) := by
  obtain ⟨l, hl⟩ := m
  simp only [get?, mapValues]
  clear hl
  induction l with
  | nil => rfl
  | cons a rest ih =>
    rw [List.map_cons, lookup_cons_ite, lookup_cons_ite, ih]
    by_cases h : k = a.1 <;> simp [h]

/-- The last entry of a key counts. -/
theorem get?_ofList (entries : List (K × V)) (k : K) :
    (ofList entries).get? k = entries.reverse.lookup k := by
  suffices h : ∀ m : OrderedMap K V,
      (entries.foldl (fun m e => m.insert e.1 e.2) m).get? k =
        (entries.reverse.lookup k).or (m.get? k) by
    simpa [ofList] using h ∅
  induction entries with
  | nil => simp
  | cons a rest ih =>
    intro m
    rw [List.foldl_cons, ih, List.reverse_cons, List.lookup_append, lookup_cons_ite, get?_insert]
    by_cases h : k = a.1 <;> simp [h]

/-- A key's group lists the values that stand with the key; a key without values has none. -/
theorem get?_groups (pairs : List (K × V)) (k : K) :
    (groups pairs).get? k =
      if k ∈ pairs.map Prod.fst then
        some ((pairs.filter fun e => decide (e.1 = k)).map Prod.snd)
      else none := by
  suffices h : ∀ m : OrderedMap K (List V),
      (pairs.foldl (fun m e => m.alter e.1 fun old => old.getD [] ++ [e.2]) m).get? k =
        if k ∈ pairs.map Prod.fst then
          some ((m.get? k).getD [] ++ (pairs.filter fun e => decide (e.1 = k)).map Prod.snd)
        else m.get? k by
    simpa [groups] using h ∅
  induction pairs with
  | nil => simp
  | cons a rest ih =>
    intro m
    rw [List.foldl_cons, ih, get?_alter]
    by_cases h : k = a.1
    · subst h
      by_cases hr : a.1 ∈ rest.map Prod.fst
      · simp [hr]
      · have hf : rest.filter (fun e => decide (e.1 = a.1)) = [] :=
          List.filter_eq_nil_iff.2 fun e he => by
            have : a.1 ≠ e.1 := fun h => hr (h ▸ List.mem_map_of_mem he)
            simpa using fun h => this h.symm
        simp [hr, hf]
    · have h' : ¬ a.1 = k := fun e => h e.symm
      have hm : k ∈ (a :: rest).map Prod.fst ↔ k ∈ rest.map Prod.fst := by
        rw [List.map_cons, List.mem_cons]
        exact or_iff_right h
      simp only [hm, if_neg h, List.filter_cons, h', decide_false, Bool.false_eq_true, if_false]

theorem get?_groups_eq_some_iff {pairs : List (K × V)} {k : K} {group : List V} :
    (groups pairs).get? k = some group ↔
      group ≠ [] ∧ group = (pairs.filter fun e => decide (e.1 = k)).map Prod.snd := by
  have hmem : k ∈ pairs.map Prod.fst ↔
      (pairs.filter fun e => decide (e.1 = k)).map Prod.snd ≠ [] := by simp
  rw [get?_groups, Option.ite_none_right_eq_some, hmem, Option.some.injEq]
  constructor
  · rintro ⟨hne, rfl⟩
    exact ⟨hne, rfl⟩
  · rintro ⟨hne, rfl⟩
    exact ⟨hne, rfl⟩

end Lookup

/-! ## Maps of maps -/

section Nested

variable {L : Type} [LE L] [LT L] [DecidableLT L] [Std.IsLinearOrder L] [Std.LawfulOrderLT L]

/-- Holds `v` under `l` in the map under `k`, which is made if it is missing. -/
def insertIn (m : OrderedMap K (OrderedMap L V)) (k : K) (l : L) (v : V) :
    OrderedMap K (OrderedMap L V) :=
  m.alter k fun old => (old.getD ∅).insert l v

variable [DecidableEq K] [DecidableEq L]

/-- What is held under `l` in the map under `k`. -/
def getIn? (m : OrderedMap K (OrderedMap L V)) (k : K) (l : L) : Option V :=
  (m.get? k).bind fun inner => inner.get? l

omit [LE K] [DecidableLT K] [Std.IsLinearOrder K] [Std.LawfulOrderLT K] [LE L] [DecidableLT L]
  [Std.IsLinearOrder L] [Std.LawfulOrderLT L] in
theorem get?_getD_get? (m : OrderedMap K (OrderedMap L V)) (k : K) (l : L) :
    ((m.get? k).getD ∅).get? l = m.getIn? k l := by
  unfold getIn?
  cases m.get? k <;> rfl

theorem getIn?_insertIn (m : OrderedMap K (OrderedMap L V)) (k k' : K) (l l' : L) (v : V) :
    (m.insertIn k l v).getIn? k' l' = if k' = k ∧ l' = l then some v else m.getIn? k' l' := by
  unfold insertIn
  rw [getIn?, get?_alter]
  by_cases hk : k' = k
  · subst hk
    simp only [if_true, Option.bind_some, get?_insert, get?_getD_get?, true_and]
  · simp only [hk, if_false, false_and, getIn?]

/-- Maps get made only to hold something. -/
theorem insertIn_ne_empty {m : OrderedMap K (OrderedMap L V)} (h : ∀ k, m.get? k ≠ some ∅)
    (k : K) (l : L) (v : V) (k' : K) : (m.insertIn k l v).get? k' ≠ some ∅ := by
  unfold insertIn
  rw [get?_alter]
  split
  · intro he
    have hl := congrArg (fun inner => inner.get? l) (Option.some.inj he)
    simp [get?_insert] at hl
  · exact h k'

omit [DecidableLT K] [DecidableLT L] in
/-- Something is held under each key, unless there are maps without entries. -/
theorem mem_keys_iff_getIn? {m : OrderedMap K (OrderedMap L V)} (h : ∀ k, m.get? k ≠ some ∅)
    {k : K} : k ∈ m.keys ↔ ∃ l v, m.getIn? k l = some v := by
  rw [mem_keys_iff, Option.isSome_iff_exists]
  constructor
  · rintro ⟨inner, hinner⟩
    refine Classical.byContradiction fun hnone => h k ?_
    rw [hinner, Option.some.injEq]
    refine ext_get? fun l => Option.eq_none_iff_forall_ne_some.2 fun v hv => hnone ⟨l, v, ?_⟩
    rw [getIn?, hinner, Option.bind_some, hv]
  · rintro ⟨l, v, hv⟩
    obtain ⟨inner, hinner, -⟩ := Option.bind_eq_some_iff.1 hv
    exact ⟨inner, hinner⟩

omit [DecidableLT K] [DecidableLT L] in
/-- Maps of maps that answer alike are equal, unless they hold maps without entries. -/
theorem ext_getIn? {m n : OrderedMap K (OrderedMap L V)} (hm : ∀ k, m.get? k ≠ some ∅)
    (hn : ∀ k, n.get? k ≠ some ∅) (h : ∀ k l, m.getIn? k l = n.getIn? k l) : m = n := by
  refine ext_get? fun k => ?_
  have hinner : (m.get? k).getD ∅ = (n.get? k).getD ∅ := ext_get? fun l => by
    rw [get?_getD_get?, get?_getD_get?, h]
  have hm' := hm k
  have hn' := hn k
  cases hmk : m.get? k with
  | none =>
    cases hnk : n.get? k with
    | none => rfl
    | some inner => simp_all
  | some inner =>
    cases hnk : n.get? k with
    | none => simp_all
    | some inner' => simp_all

end Nested

end OrderedMap

end ReplicaRing
