import ReplicaRing.Cluster.Draft

/-!
# The published topology

What the cluster currently agrees on: the snapshot published last. Each publication freezes a
draft at the next epoch; one that fails leaves the topology as it was.

* `publish` takes a draft as it is, `update` derives it from the current snapshot.
* `update_eq_publish`: it makes no difference who derives the draft.
-/

namespace ReplicaRing

/-- The snapshot published last. -/
structure Topology (T : Type) [Token T] where
  current : Snapshot T

namespace Topology

variable {T : Type} [Token T]

/-- The topology before anything has been published. -/
def initial : Topology T := ⟨.empty⟩

def epoch (t : Topology T) : Epoch := t.current.epoch

/-- Makes a snapshot the current one: the outcome, and the topology after it. -/
def install (s : Snapshot T) : Except (TopologyError T) (Snapshot T) × Topology T := (.ok s, ⟨s⟩)

/-- Publishes a draft as the next epoch: the outcome, and the topology after it. -/
def publish (t : Topology T) (d : Draft T) :
    Except (TopologyError T) (Snapshot T) × Topology T :=
  match d.freeze t.epoch.next with
  | .ok s => install s
  | .error e => (.error e, t)

/-- Derives the next epoch from the current snapshot, and publishes it. -/
def update (t : Topology T) (change : Draft T → Draft T) :
    Except (TopologyError T) (Snapshot T) × Topology T :=
  let base := t.current
  match (change base.toDraft).freeze base.epoch.next with
  | .ok s => install s
  | .error e => (.error e, t)

theorem update_eq_publish (t : Topology T) (change : Draft T → Draft T) :
    t.update change = t.publish (change t.current.toDraft) := by
  unfold update publish epoch
  rfl

/-- How a topology is shown to operators; the snapshot itself is left out. -/
def text (t : Topology T) : String :=
  "TopologyHandle \x7b epoch: Epoch(" ++ Text.decimal t.epoch.number ++ "), .. \x7d"

end Topology

end ReplicaRing
