import Mathlib.Data.List.Forall2
import ReplicaRing.Proofs.Reordering
import ReplicaRing.Proofs.Roster
import ReplicaRing.Proofs.Spelling
import ReplicaRing.Strategy.Json

/-!
# Ways of naming a strategy

A strategy is named by its class and configured by the other options, whether they come as a list
or in a JSON object. Each way has its own rule for options that repeat a key: the last class counts,
and of the members of an object with one key the last.

* `Options.inForce`: of the options with one key the last; `foldl_add`: one pass finds the class.
* `Strategy.ofJson_of_readFrom`: an object is read as the list of its members, sorted by key.
* `Strategy.namings_agree`: the ways agree, and neither the order of members nor the way in which
  a number is written makes a difference.
-/

namespace ReplicaRing

/-! ## Lists that correspond -/

/-- If each item has a result that corresponds to its partner, the results correspond. -/
theorem exists_mapM_eq_some {α β γ : Type} {f : α → Option β} {R : γ → β → Prop} {xs : List α}
    {cs : List γ} (h : List.Forall₂ (fun c x => ∃ y, f x = some y ∧ R c y) cs xs) :
    ∃ ys, xs.mapM f = some ys ∧ List.Forall₂ R cs ys := by
  induction h with
  | nil => exact ⟨[], rfl, .nil⟩
  | cons hx _ ih =>
    obtain ⟨y, hy, hr⟩ := hx
    obtain ⟨ys, hys, hrs⟩ := ih
    exact ⟨y :: ys, by simp [hy, hys], .cons hr hrs⟩

namespace Strategy

/-! ## Lists of options -/

namespace Options

/-- The options in force: of the options with one key the last. -/
def inForce (os : Options) : Set (String × String) :=
  {o | ∃ front back, os = front ++ o :: back ∧ ∀ other ∈ back, other.1 ≠ o.1}

/-- The options that configure a strategy: all but those that name it. -/
def rest (os : Options) : Options := os.filter fun o => o.1 ≠ classKey

theorem mem_inForce_iff {os : Options} {o : String × String} :
    o ∈ os.inForce ↔ os.reverse.lookup o.1 = some o.2 := by
  rw [List.lookup_eq_some_iff]
  constructor
  · rintro ⟨front, back, rfl, h⟩
    refine ⟨back.reverse, front.reverse, by simp, fun other hother => ?_⟩
    exact bne_iff_ne.2 (h other (List.mem_reverse.1 hother)).symm
  · rintro ⟨back, front, hos, h⟩
    refine ⟨front.reverse, back.reverse, ?_, fun other hother => ?_⟩
    · rw [← List.reverse_inj, hos]
      simp
    · exact (bne_iff_ne.1 (h other (List.mem_reverse.1 hother))).symm

theorem mem_inForce_iff_get? {os : Options} {o : String × String} :
    o ∈ os.inForce ↔ (OrderedMap.ofList os).get? o.1 = some o.2 := by
  rw [mem_inForce_iff, OrderedMap.get?_ofList]

/-- The map of a list of options holds the options in force. -/
theorem inForce_eq_iff {os os' : Options} :
    os.inForce = os'.inForce ↔ OrderedMap.ofList os = OrderedMap.ofList os' := by
  constructor
  · intro h
    refine OrderedMap.ext_get? fun key => Option.ext fun value => ?_
    have hsame : (key, value) ∈ os.inForce ↔ (key, value) ∈ os'.inForce := by rw [h]
    rwa [mem_inForce_iff_get?, mem_inForce_iff_get?] at hsame
  · intro h
    ext o
    rw [mem_inForce_iff_get?, mem_inForce_iff_get?, h]

/-- Sorted by key, the options in force remain. -/
theorem enumerates_ofList (os : Options) :
    Enumerates Prod.fst (OrderedMap.ofList os).toList os.inForce :=
  ⟨(OrderedMap.ofList os).ascending,
    fun _ => OrderedMap.mem_toList_iff.trans mem_inForce_iff_get?.symm⟩

/-- A key is looked up among the options that have it. -/
theorem lookup_filter (os : Options) (key : String) :
    (os.filter fun o => decide (o.1 = key)).lookup key = os.lookup key := by
  induction os with
  | nil => rfl
  | cons o os ih =>
    rw [OrderedMap.lookup_cons_ite, List.filter_cons]
    by_cases h : key = o.1
    · rw [if_pos h, if_pos (decide_eq_true h.symm), OrderedMap.lookup_cons_ite, if_pos h]
    · simp [h, Ne.symm h, ih]

/-- Options with different keys may change places. -/
theorem inForce_eq_of_sameByKey {os os' : Options} (h : SameByKey Prod.fst os os') :
    os.inForce = os'.inForce := by
  ext o
  rw [mem_inForce_iff, mem_inForce_iff, ← lookup_filter os.reverse, ← lookup_filter os'.reverse,
    List.filter_reverse, List.filter_reverse, h o.1]

end Options

/-- One pass through a list finds the class in force and collects all else. -/
theorem foldl_add (selection : Selection) (os : Options) :
    os.foldl Selection.add selection =
      ⟨(os.reverse.lookup classKey).or selection.name?, selection.rest ++ os.rest⟩ := by
  induction os generalizing selection with
  | nil => simp [Options.rest]
  | cons o os ih =>
    rw [List.foldl_cons, ih, Selection.add, List.reverse_cons, List.lookup_append,
      OrderedMap.lookup_cons_ite, List.lookup_nil]
    by_cases h : o.1 = classKey
    · simp [Options.rest, h]
    · simp [Options.rest, h, Ne.symm h]

section
variable {os : Options} {name : String}

theorem ofOptions_of_inForce (h : (classKey, name) ∈ os.inForce) :
    ofOptions os = ofClass name os.rest := by
  rw [ofOptions, foldl_add, Options.mem_inForce_iff.1 h]
  rfl

theorem ofClass_of_ne (hsimple : name ≠ "SimpleStrategy")
    (hspread : name ≠ "NetworkTopologyStrategy") :
    ofClass name os = .error (.unknownStrategy name) := by
  rw [ofClass]
  · exact hsimple
  · exact hspread

theorem ofOptions_of_forall_ne (h : ∀ o ∈ os, o.1 ≠ classKey) :
    ofOptions os = .error (.missingOption classKey) := by
  have hnone : os.reverse.lookup classKey = none :=
    List.lookup_eq_none_iff.2 fun o ho => bne_iff_ne.2 (h o (List.mem_reverse.1 ho)).symm
  rw [ofOptions, foldl_add, hnone]
  rfl

end

/-! ## Members of an object -/

/-- What an option may be in an object. -/
inductive OptionValue
  | text (s : String)
  | count (n : UInt64)

namespace OptionValue

/-- The text that it is as an option. -/
def option : OptionValue → String
  | text s => s
  | count n => Text.decimal n.toNat

/-- The JSON values that it may be read from. -/
inductive IsIn : OptionValue → Json → Prop
  | text {s : String} {pieces : List JsonPiece} (h : Json.stringText? pieces = some s) :
    IsIn (text s) (.string pieces)
  | count (n : UInt64) : IsIn (count n) (.integer n.toNat)

theorem string?_of_isIn {s : String} {j : Json} (h : (text s).IsIn j) : j.string? = some s := by
  cases h with
  | text h => exact h

theorem optionText?_of_isIn {v : OptionValue} {j : Json} (h : v.IsIn j) :
    optionText? j = some v.option := by
  cases h with
  | text h => simp [optionText?, Json.string?, h, option]
  | count n =>
    have hlt : n.toNat < 18446744073709551616 := n.toNat_lt
    simp [optionText?, Json.string?, Json.integerIn?, hlt, option]

end OptionValue

/-- The members of an object of options, in the order of the text. -/
abbrev Members := List (String × OptionValue)

namespace Members

variable {ms : Members} {name : String}

/-- The members as options. -/
def options (ms : Members) : Options := ms.map fun m => (m.1, m.2.option)

/-- Exactly one member is named `class`, and it is a string. -/
def Names (ms : Members) (name : String) : Prop :=
  ms.filter (fun m => m.1 = classKey) = [(classKey, .text name)]

/-- The members of a JSON object are these. -/
def AreIn (ms : Members) (members : List (List JsonPiece × Json)) : Prop :=
  List.Forall₂ (fun m p => Json.stringText? p.1 = some m.1 ∧ m.2.IsIn p.2) ms members

/-- The text is an object with these members. -/
def ReadFrom (ms : Members) (text : String) : Prop :=
  ∃ members, Json.parse? text = some (.object members) ∧ ms.AreIn members

theorem rest_options : ms.options.rest = options (ms.filter fun m => m.1 != classKey) := by
  rw [Options.rest, options, List.filter_map]
  simp only [options, bne, ne_eq, decide_not]
  rfl

/-- The members with the texts of their keys are these. -/
def AreNamed (ms : Members) (named : List (String × Json)) : Prop :=
  List.Forall₂ (fun m q => m.1 = q.1 ∧ m.2.IsIn q.2) ms named

theorem AreNamed.filter {named : List (String × Json)} (h : ms.AreNamed named) (p : String → Bool) :
    AreNamed (ms.filter fun m => p m.1) (named.filter fun q => p q.1) :=
  List.rel_filter (fun m q hq => show p m.1 = true ↔ p q.1 = true by rw [hq.1]) h

theorem AreIn.exists_areNamed {members : List (List JsonPiece × Json)} (h : ms.AreIn members) :
    ∃ named, Json.namedMembers? members = some named ∧ ms.AreNamed named := by
  refine exists_mapM_eq_some (h.imp fun m p hp => ⟨(m.1, p.2), ?_, rfl, hp.2⟩)
  show (Json.stringText? p.1).map _ = _
  rw [hp.1]
  rfl

/-- The class is found where exactly one member names it. -/
theorem AreNamed.onlyMember? {named : List (String × Json)} (h : ms.AreNamed named)
    (hclass : ms.Names name) :
    (Json.onlyMember? named classKey).bind Json.string? = some name := by
  have hfilter := h.filter (· == classKey)
  have hms : ms.filter (fun m => m.1 == classKey) = [(classKey, .text name)] := hclass
  rw [hms] at hfilter
  rw [Json.onlyMember?]
  generalize named.filter (fun q => q.1 == classKey) = only at hfilter
  cases hfilter with
  | cons hvalue hrest =>
    cases hrest
    exact OptionValue.string?_of_isIn hvalue.2

/-- All members have texts as options. -/
theorem AreNamed.mapM_optionText? {named : List (String × Json)} (h : ms.AreNamed named) :
    named.mapM (fun (key, v) => (optionText? v).map fun value => (key, value)) =
      some ms.options := by
  have htexts : List.Forall₂ (fun m q => ∃ o, (optionText? q.2).map (q.1, ·) = some o ∧
      (m.1, m.2.option) = o) ms named := by
    refine h.imp fun m q hq => ⟨(m.1, m.2.option), ?_, rfl⟩
    rw [OptionValue.optionText?_of_isIn hq.2, hq.1]
    rfl
  obtain ⟨os, hos, hsame⟩ := exists_mapM_eq_some htexts
  have heq : ms.options = os := by
    rw [← List.forall₂_eq_eq_eq]
    exact List.forall₂_map_left_iff.2 hsame
  rw [heq]
  exact hos

end Members

/-- The members are handed on as options, the class first and the others sorted by key. -/
theorem optionsOfMembers?_of_areNamed {ms : Members} {named : List (String × Json)}
    (h : ms.AreNamed named) {name : String} (hclass : ms.Names name) :
    optionsOfMembers? named =
      some ((classKey, name) :: (OrderedMap.ofList ms.options.rest).toList) := by
  rw [optionsOfMembers?, h.onlyMember? hclass, Members.rest_options,
    (h.filter (· != classKey)).mapM_optionText?]
  rfl

/-! ## One configuration, many names -/

section
variable {ms : Members} {text name : String}

/-- **Reading an object** is reading the list of its members, sorted by key. -/
theorem ofJson_of_readFrom (h : ms.ReadFrom text) (hclass : ms.Names name) :
    ofJson text = ofOptions ((classKey, name) :: (OrderedMap.ofList ms.options.rest).toList) := by
  obtain ⟨members, hparse, hmembers⟩ := h
  obtain ⟨named, hnamed, hms⟩ := hmembers.exists_areNamed
  rw [ofJson, hparse]
  simp only [hnamed, Option.bind_some, optionsOfMembers?_of_areNamed hms hclass]

end

/-- **All ways of naming a strategy agree.** In a list of options the last class counts, wherever
it stands, and it decides who reads all other options, in their order. An object of options is the
list of its members, sorted by key, of the members with one key the last; so neither the order of
members with different keys matters nor whether a number is written as a string. -/
theorem namings_agree :
    (∀ (os : Options) (name : String), (classKey, name) ∈ os.inForce →
      (name = "SimpleStrategy" → ofOptions os = simpleOfOptions os.rest) ∧
      (name = "NetworkTopologyStrategy" → ofOptions os = networkTopologyOfOptions os.rest) ∧
      (name ≠ "SimpleStrategy" → name ≠ "NetworkTopologyStrategy" →
        ofOptions os = .error (.unknownStrategy name))) ∧
    (∀ os : Options, (∀ o ∈ os, o.1 ≠ classKey) →
      ofOptions os = .error (.missingOption classKey)) ∧
    (∀ (ms : Members) (text name : String), ms.ReadFrom text → ms.Names name →
      ∃ sorted : Options, Enumerates Prod.fst sorted ms.options.rest.inForce ∧
        ofJson text = ofOptions ((classKey, name) :: sorted)) ∧
    (∀ (ms ms' : Members) (text text' name : String), ms.ReadFrom text → ms.Names name →
      ms'.ReadFrom text' → ms'.Names name → ms.options.rest.inForce = ms'.options.rest.inForce →
        ofJson text = ofJson text') ∧
    (∀ os os' : Options, SameByKey Prod.fst os os' → os.inForce = os'.inForce) ∧
    (∀ (ms : Members) (members : List (List JsonPiece × Json)) (text : String),
      ms.AreIn members → Json.SpellsObject members text.toList → ms.ReadFrom text) := by
  refine ⟨fun os name hname => ?_, fun os => ofOptions_of_forall_ne, ?_, ?_,
    fun os os' => Options.inForce_eq_of_sameByKey,
    fun ms members text hms htext => ⟨members, Json.parse?_of_spellsObject htext, hms⟩⟩
  · rw [ofOptions_of_inForce hname]
    refine ⟨?_, ?_, ofClass_of_ne⟩
    · rintro rfl
      rfl
    · rintro rfl
      rfl
  · intro ms text name hread hclass
    exact ⟨_, Options.enumerates_ofList _, ofJson_of_readFrom hread hclass⟩
  · intro ms ms' text text' name hread hclass hread' hclass' hsame
    rw [ofJson_of_readFrom hread hclass, ofJson_of_readFrom hread' hclass',
      Options.inForce_eq_iff.1 hsame]

/-- A class and a datacenter that are listed twice, and one configuration in two spellings. -/
theorem namings_agree_twoDatacenters :
    let listed : String → Options := fun name =>
      [(classKey, "Ring"), ("east", "3"), (classKey, name), ("west", "many")]
    let repeated : Members := [("east", .text "1"), (classKey, .text "NetworkTopologyStrategy"),
      ("west", .text "2/1"), ("east", .count 3)]
    let plain : Members := [(classKey, .text "NetworkTopologyStrategy"), ("west", .text "2/1"),
      ("east", .text "3")]
    let text :=
      "\x7b\"east\":\"1\", \"class\":\"NetworkTopologyStrategy\", \"west\":\"2/1\", \"east\": 3\x7d"
    let text' := "\x7b\"class\":\"NetworkTopologyStrategy\",\"west\":\"2/1\",\"east\":\"3\"\x7d"
    ofOptions (listed "SimpleStrategy") = .error (.missingOption factorKey) ∧
      ofOptions (listed "NetworkTopologyStrategy") =
        networkTopologyOfOptions [("east", "3"), ("west", "many")] ∧
      ofOptions (listed "Anywhere") = .error (.unknownStrategy "Anywhere") ∧
      ofOptions [("west", "many")] = .error (.missingOption classKey) ∧
      repeated.ReadFrom text ∧ plain.ReadFrom text' ∧
      ofJson text =
        .ok (networkTopology (.ofList [("east", .ofFull 3), ("west", ⟨2, 1, by decide⟩)])) ∧
      ofJson text = ofJson text' ∧
      Options.inForce [("east", "3"), ("west", "2/1")] =
        Options.inForce [("west", "2/1"), ("east", "3")] := by
  intro listed repeated plain text text'
  obtain ⟨hlist, hmissing, hobject, hsame, horder, hread⟩ := namings_agree
  have hlisted : ∀ name, (classKey, name) ∈ (listed name).inForce := fun name =>
    ⟨[(classKey, "Ring"), ("east", "3")], [("west", "many")], rfl, by simp [classKey]⟩
  have hstring : ∀ s : String, Json.Plain s.toList →
      Json.SpellsValue (.string (s.toList.map .char)) ('"' :: (s.toList ++ ['"'])) :=
    fun s hs => .string (Json.spellsPieces_of_plain hs)
  have hclass := hstring "NetworkTopologyStrategy" (by decide)
  have hwest := hstring "2/1" (by decide)
  have hempty : Json.Blank [] := by decide
  have hspace : Json.Blank [' '] := by decide
  have hmember {v vs bs cs} (key : String) := @Json.spellsMember_of_plain key.toList bs cs vs v
  have hkeys : Json.Plain "class".toList ∧ Json.Plain "east".toList ∧ Json.Plain "west".toList := by
    decide
  have htext : repeated.ReadFrom text := by
    refine hread _ _ _ ?_ ⟨[], _, [], hempty,
      .more (hmember "east" hkeys.2.1 (hstring "1" (by decide)) hempty hempty) <|
      .more (hmember "class" hkeys.1 hclass hspace hempty) <|
      .more (hmember "west" hkeys.2.2 hwest hspace hempty) <|
      .one (hmember "east" hkeys.2.1 (.count 3) hspace hspace), hempty, by decide⟩
    exact .cons ⟨rfl, .text rfl⟩ <| .cons ⟨rfl, .text rfl⟩ <| .cons ⟨rfl, .text rfl⟩ <|
      .cons ⟨rfl, .count 3⟩ .nil
  have htext' : plain.ReadFrom text' := by
    refine hread _ _ _ ?_ ⟨[], _, [], hempty,
      .more (hmember "class" hkeys.1 hclass hempty hempty) <|
      .more (hmember "west" hkeys.2.2 hwest hempty hempty) <|
      .one (hmember "east" hkeys.2.1 (hstring "3" (by decide)) hempty hempty), hempty, by decide⟩
    exact .cons ⟨rfl, .text rfl⟩ <| .cons ⟨rfl, .text rfl⟩ <| .cons ⟨rfl, .text rfl⟩ .nil
  have hnames : repeated.Names "NetworkTopologyStrategy" := rfl
  have hnames' : plain.Names "NetworkTopologyStrategy" := rfl
  obtain ⟨sorted, hsorted, hjson⟩ := hobject _ _ _ htext hnames
  have heast : sorted = [("east", "3"), ("west", "2/1")] := by
    rw [hsorted.eq (Options.enumerates_ofList _)]
    decide
  have hforce : repeated.options.rest.inForce = plain.options.rest.inForce :=
    Options.inForce_eq_iff.2 (by decide)
  refine ⟨((hlist _ _ (hlisted _)).1 rfl).trans (by decide), (hlist _ _ (hlisted _)).2.1 rfl,
    (hlist _ _ (hlisted _)).2.2 (by decide) (by decide), hmissing _ (by decide), htext, htext', ?_,
    hsame _ _ _ _ _ htext hnames htext' hnames' hforce,
    horder _ _ (SameByKey.swap (by decide) [] [])⟩
  rw [hjson, heast]
  decide

end Strategy

end ReplicaRing
