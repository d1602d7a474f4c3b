import ReplicaRing.Json.Form
import ReplicaRing.Strategy.Options

/-!
# Strategies from JSON

A configuration may be given as a JSON object. Its member `class` is a string and occurs once;
every other member is a string, or a number that stands for its decimal text. The other members
are handed over in ascending order of their keys, of members with one key the last.
-/

namespace ReplicaRing.Strategy

/-- The text of an option: a string, or an unsigned 64-bit number. -/
def optionText? (v : Json) : Option String :=
  v.string?.or ((v.integerIn? 0 UInt64.size).map fun n => Text.decimal n.toNat)

/-- The options in the members of an object. -/
def optionsOfMembers? (members : List (String × Json)) : Option Options := do
  let name ← (Json.onlyMember? members classKey).bind Json.string?
  let others ← (members.filter fun m => m.1 != classKey).mapM fun (key, v) =>
    (optionText? v).map fun value => (key, value)
  some ((classKey, name) :: (OrderedMap.ofList others).toList)

/-- The strategy that a JSON object of options describes. -/
def ofJson (text : String) : Except ConfigurationError Strategy :=
  match Json.parse? text with
  | some (.object members) =>
    match (Json.namedMembers? members).bind optionsOfMembers? with
    | some options => ofOptions options
    | none => .error .notOptions
  | _ => .error .notOptions

end ReplicaRing.Strategy
