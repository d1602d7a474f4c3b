import ReplicaRing.Cluster.Topology
import ReplicaRing.Proofs.Acceptance
import ReplicaRing.Proofs.Members

/-!
# Runs of the published topology

Whoever publishes hands over a draft as it is, or changes the current one. Whatever was recorded in
those drafts, only consistent ones reach the topology, and each of them takes the next epoch; a call
that fails leaves no trace.

* `Topology.serve_cases`: all that one call can do.
* `Topology.current_after`, `Topology.epoch_after`: what a run of calls leaves as the current
  snapshot, and how often it has moved the epoch on.
* `Topology.serves_consistently`: what holds after every run, and of the call that follows it.
-/

namespace ReplicaRing

/-- A request to publish. -/
inductive Call (T : Type)
  /-- Publishes a draft. -/
  | publish (draft : Draft T)
  /-- Publishes a change of the current snapshot. -/
  | update (change : Draft T → Draft T)

namespace Topology

variable {T : Type} [Token T]

/-- Answers a call: the outcome, and the topology after it. -/
def serve (t : Topology T) : Call T → Except (TopologyError T) (Snapshot T) × Topology T
  | .publish draft => t.publish draft
  | .update change => t.update change

/-- The topology after the calls, answered in turn. -/
def after (t : Topology T) (calls : List (Call T)) : Topology T :=
  calls.foldl (fun t c => (t.serve c).2) t

/-- The outcomes of the calls, answered in turn. -/
def outcomes (t : Topology T) : List (Call T) → List (Except (TopologyError T) (Snapshot T))
  | [] => []
  | c :: calls => (t.serve c).1 :: (t.serve c).2.outcomes calls

/-- The snapshots that the calls returned; a call that failed returned none. -/
def published (t : Topology T) (calls : List (Call T)) : List (Snapshot T) :=
  (t.outcomes calls).filterMap Except.toOption

/-- The draft that a call asks to publish. -/
def draftOf (t : Topology T) : Call T → Draft T
  | .publish draft => draft
  | .update change => change t.current.toDraft

/-! ## One call -/

section
variable (t : Topology T) (c : Call T)

theorem serve_eq_publish : t.serve c = t.publish (t.draftOf c) := by
  cases c with
  | publish draft => rfl
  | update change => exact t.update_eq_publish change

/-- **What a call does.** A consistent draft is published at the next epoch, as the snapshot that
the call returns; for any other draft the call fails, and the topology stays as it is. -/
theorem serve_cases :
    (∃ s, t.serve c = (.ok s, ⟨s⟩) ∧ (t.draftOf c).Consistent ∧ s.epoch = t.epoch.next ∧
        s.ring.vnodes = sortOn VirtualNode.token (t.draftOf c).vnodes ∧
        s.directory.nodes = sortOn Node.id (t.draftOf c).nodes) ∨
      ∃ e, t.serve c = (.error e, t) ∧ ¬(t.draftOf c).Consistent := by
  rw [serve_eq_publish, publish]
  cases h : (t.draftOf c).freeze t.epoch.next with
  | ok s => exact .inl ⟨s, rfl, Draft.freeze_eq_ok_iff.1 h⟩
  | error e =>
    refine .inr ⟨e, rfl, fun hc => ?_⟩
    obtain ⟨s, hs, -⟩ := Draft.freeze_of_consistent hc t.epoch.next
    rw [h] at hs
    cases hs

variable {t c} {calls : List (Call T)} {s : Snapshot T} {e : TopologyError T}

theorem published_cons_of_ok (h : t.serve c = (.ok s, ⟨s⟩)) :
    t.published (c :: calls) = s :: published ⟨s⟩ calls := by
  rw [published, outcomes, h]
  rfl

theorem published_cons_of_error (h : t.serve c = (.error e, t)) :
    t.published (c :: calls) = t.published calls := by
  rw [published, outcomes, h]
  rfl

end

/-! ## Runs -/

section
variable (t : Topology T) (calls : List (Call T))

/-- **The current snapshot** is the last one that a call returned. -/
theorem current_after : (t.after calls).current = (t.published calls).getLastD t.current := by
  induction calls generalizing t with
  | nil => rfl
  | cons c calls ih =>
    change ((t.serve c).2.after calls).current = _
    rw [ih]
    rcases t.serve_cases c with ⟨s, h, -⟩ | ⟨e, h, -⟩
    · rw [published_cons_of_ok h, h, List.getLastD_cons]
    · rw [published_cons_of_error h, h]

/-- **The epoch** counts the calls that returned a snapshot. -/
theorem epoch_after :
    (t.after calls).epoch.number = t.epoch.number + (t.published calls).length := by
  induction calls generalizing t with
  | nil => rfl
  | cons c calls ih =>
    change ((t.serve c).2.after calls).epoch.number = _
    rw [ih]
    rcases t.serve_cases c with ⟨s, h, -, he, -⟩ | ⟨e, h, -⟩
    · have hnext : s.epoch.number = t.epoch.number + 1 := congrArg Epoch.number he
      rw [published_cons_of_ok h, h, List.length_cons]
      change s.epoch.number + (published ⟨s⟩ calls).length = _
      omega
    · rw [published_cons_of_error h, h]

end

/-- **Publication is atomic and consistent.** After any run of calls the epoch is the number of
those that succeeded, and the current snapshot, which the last of them returned, is consistent. The
next call either returns the snapshot that is current from then on, one epoch later, or fails and
changes nothing; it makes no difference whether it brings a draft or changes the current one. -/
theorem serves_consistently (calls : List (Call T)) (c : Call T) :
    let t := (initial : Topology T).after calls
    t.epoch.number = (initial.published calls).length ∧
      t.current = (initial.published calls).getLastD .empty ∧
      Ascending VirtualNode.token t.current.ring.vnodes ∧ t.current.toDraft.Consistent ∧
      ((∃ s, t.serve c = (.ok s, ⟨s⟩) ∧ (t.draftOf c).Consistent ∧ s.epoch = t.epoch.next ∧
          s.ring.vnodes = sortOn VirtualNode.token (t.draftOf c).vnodes ∧
          s.directory.nodes = sortOn Node.id (t.draftOf c).nodes) ∨
        ∃ e, t.serve c = (.error e, t) ∧ ¬(t.draftOf c).Consistent) ∧
      ∀ change, t.update change = t.publish (change t.current.toDraft) := by
  intro t
  have hepoch : t.epoch.number = 0 + (initial.published calls).length :=
    epoch_after initial calls
  exact ⟨by rw [hepoch, Nat.zero_add], current_after initial calls, t.current.ring.ascending,
    t.current.consistent_toDraft, t.serve_cases c, t.update_eq_publish⟩

/-- A node is published with a token; a token for an unknown node is refused; the node moves. -/
example :
    let node := Snapshot.numbered 1 "west" "a"
    let t := (initial : Topology LongToken).after
      [.publish (Draft.empty.add node [⟨10⟩]), .update fun d => d.move 2 [⟨20⟩],
        .update fun d => d.move 1 [⟨30⟩]]
    t.epoch = ⟨2⟩ ∧ t.current.ring.vnodes = [⟨⟨30⟩, 1⟩] ∧ t.current.directory.nodes = [node] := by
  decide

end Topology

end ReplicaRing
