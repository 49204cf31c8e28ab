/-!
# Colliding declarations

Declarations that must not share something. The pairs of positions that collide are found in
lexicographic order; a list with collisions is either refused, naming the first pair, or resolved by
merging every pair.
-/
namespace MotionRack

/-- The positions of two declarations that collide. -/
structure Collision where
  first : Nat
  second : Nat
  deriving DecidableEq, Repr

namespace Collision

/-- The wording of a collision. -/
def message (c : Collision) : String := s!"collision between index {c.first} and {c.second}"

/-- What happens to declarations that collide. -/
inductive Policy
  | refuse
  | merge
  deriving DecidableEq, Repr

/-- Two colliding declarations and their positions. -/
structure Pair (α : Type) where
  place : Collision
  left : α
  right : α

variable {α : Type}

/-- The pairs of one declaration with those behind it, the first of which is at `position`. -/
def pairsWith (collides : α → α → Bool) (index : Nat) (a : α) : Nat → List α → List (Pair α)
  | _, [] => []
  | position, b :: rest =>
    if collides a b then ⟨⟨index, position⟩, a, b⟩ :: pairsWith collides index a (position + 1) rest
    else pairsWith collides index a (position + 1) rest

/-- All colliding pairs of a list whose first declaration is at `index`, in order. -/
def pairsFrom (collides : α → α → Bool) : Nat → List α → List (Pair α)
  | _, [] => []
  | index, a :: rest =>
    pairsWith collides index a (index + 1) rest ++ pairsFrom collides (index + 1) rest

/-- All colliding pairs of a list. -/
def pairs (collides : α → α → Bool) (items : List α) : List (Pair α) := pairsFrom collides 0 items

/-- Whether the declaration at a position takes part in a pair. -/
def involves (found : List (Pair α)) (index : Nat) : Bool :=
  found.any fun p => p.place.first == index || p.place.second == index

/-- The declarations that take part in no pair. -/
def untouched (found : List (Pair α)) (items : List α) : List α :=
  (items.zipIdx.filter fun (_, index) => !involves found index).map (·.1)

/-- Resolves collisions in one pass. Merging needs a way to combine two declarations; the merged
ones follow all others, one per pair, and are not compared again. -/
def resolve (collides : α → α → Bool) (policy : Policy) (combine : Option (α → α → α))
    (items : List α) : Except Collision (List α) :=
  let found := pairs collides items
  match found with
  | [] => .ok items
  | p :: _ =>
    match policy, combine with
    | .merge, some f =>
      .ok (untouched found items ++ found.map fun p => f p.left p.right)
    | _, _ => .error p.place

/-- A list without collisions, or the first of them. -/
def unique (collides : α → α → Bool) (items : List α) : Except Collision (List α) :=
  resolve collides .refuse none items

/-- A list in which every colliding pair is merged. -/
def union (collides : α → α → Bool) (combine : α → α → α) (items : List α) :
    Except Collision (List α) :=
  resolve collides .merge (some combine) items

end Collision
end MotionRack
