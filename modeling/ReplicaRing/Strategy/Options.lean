import ReplicaRing.Strategy

/-!
# Strategies from options

A configuration is a list of keys and values in the order given. The option `class` names the
strategy and the rest configures it: one replication factor for the whole cluster, or one for
each datacenter.

* `Strategy.simpleOfOptions` and `Strategy.networkTopologyOfOptions` read the options of one
  strategy, and `Strategy.ofOptions` those of the strategy that they name.
-/

namespace ReplicaRing

/-- Why a configuration is refused. -/
inductive ConfigurationError
  /-- A factor for the whole cluster was given to a strategy with quotas. -/
  | misplacedFactor
  | factor (error : FactorError)
  | unknownStrategy (name : String)
  | missingOption (key : String)
  /-- The text is no JSON object of options. -/
  | notOptions
  deriving DecidableEq

/-- The option that names the strategy. -/
def classKey : String := "class"

/-- The option that holds the replication factor of the whole cluster. -/
def factorKey : String := "replication_factor"

def ConfigurationError.message : ConfigurationError → String
  | .misplacedFactor =>
    factorKey ++ " should not appear as an option to NetworkTopologyStrategy"
  | .factor error => error.message
  | .unknownStrategy name => "unknown replication strategy class " ++ Text.quote name
  | .missingOption key => "missing required option " ++ Text.quote key
  | .notOptions => "invalid replication options"

namespace Strategy

/-- Keys and values in the order given. -/
abbrev Options := List (String × String)

/-- Reads a replication factor in a configuration. -/
def readFactor (spec : String) : Except ConfigurationError ReplicationFactor :=
  (ReplicationFactor.parse spec).mapError .factor

/-- Placement in ring order, by the first factor in the options; other options do not matter. -/
def simpleOfOptions (options : Options) : Except ConfigurationError Strategy :=
  match options.find? fun o => o.1 == factorKey with
  | none => .error (.missingOption factorKey)
  | some (_, spec) => (readFactor spec).map simple

/-- Takes in the quota of one datacenter, which replaces an earlier one. -/
def addQuota (quotas : Placement.Quotas) (option : String × String) :
    Except ConfigurationError Placement.Quotas :=
  if option.1 = factorKey then .error .misplacedFactor
  else (readFactor option.2).map (quotas.insert option.1)

/-- Placement by quotas, each option naming a datacenter. -/
def networkTopologyOfOptions (options : Options) : Except ConfigurationError Strategy :=
  (options.foldlM addQuota ∅).map networkTopology

/-- The strategy of this class, configured by the options. -/
def ofClass (name : String) (options : Options) : Except ConfigurationError Strategy :=
  match name with
  | "SimpleStrategy" => simpleOfOptions options
  | "NetworkTopologyStrategy" => networkTopologyOfOptions options
  | name => .error (.unknownStrategy name)

/-- What a configuration has said so far: the class, if any, and the options for it. -/
structure Selection where
  name? : Option String
  rest : Options

/-- Takes in one option; a class replaces an earlier one. -/
def Selection.add (selection : Selection) (option : String × String) : Selection :=
  if option.1 = classKey then { selection with name? := some option.2 }
  else { selection with rest := selection.rest ++ [option] }

/-- The strategy that the last `class` option names, configured by all other options. -/
def ofOptions (options : Options) : Except ConfigurationError Strategy :=
  let selection := options.foldl Selection.add ⟨none, []⟩
  match selection.name? with
  | none => .error (.missingOption classKey)
  | some name => ofClass name selection.rest

end Strategy

end ReplicaRing
