import ReplicaRing.Token

/-!
# Arcs of the ring

The arc `(left, right]` holds the tokens after `left` up to `right`. If `left` is not below
`right` the arc runs past the greatest tokens and on from the origin; if both are the same token
it is the whole ring, which is what the only token of a ring owns.
-/

namespace ReplicaRing

/-- The tokens after `left` up to and including `right`, in the direction of the ring. -/
structure Arc (T : Type) where
  left : T
  right : T
  deriving DecidableEq

namespace Arc

variable {T : Type} [Token T]

/-- The whole ring, cut at the origin. -/
def full : Arc T := ⟨Token.origin, Token.origin⟩

/-- Whether the arc is the whole ring. -/
def isFull (a : Arc T) : Bool := decide (a.left = a.right)

/-- Whether the arc runs past the greatest tokens, or is the whole ring. -/
def wraps (a : Arc T) : Bool := decide (a.right ≤ a.left)

/-- Whether the token lies on the arc. -/
def contains (a : Arc T) (t : T) : Bool :=
  if a.isFull then true
  else if a.wraps then decide (a.left < t) || decide (t ≤ a.right)
  else decide (a.left < t) && decide (t ≤ a.right)

/-- The arc in pieces that do not run past the origin: an arc that does is cut there. -/
def splitAtOrigin (a : Arc T) : List (Arc T) :=
  if !a.wraps || Token.isOrigin a.right then [a]
  else [⟨a.left, Token.origin⟩, ⟨Token.origin, a.right⟩]

def text (a : Arc T) : String := "(" ++ Token.text a.left ++ "," ++ Token.text a.right ++ "]"

instance : Membership T (Arc T) := ⟨fun a t => a.contains t = true⟩

instance (a : Arc T) (t : T) : Decidable (t ∈ a) :=
  inferInstanceAs (Decidable (a.contains t = true))

theorem mem_iff {a : Arc T} {t : T} :
    t ∈ a ↔ a.left = a.right ∨ (a.left < t ∧ t ≤ a.right) ∨
      (a.right < a.left ∧ (a.left < t ∨ t ≤ a.right)) := by
  show a.contains t = true ↔ _
  unfold contains isFull wraps
  grind

end Arc

end ReplicaRing
