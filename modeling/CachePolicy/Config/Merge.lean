import CachePolicy.Json.Basic

/-!
# Layers of configuration

A later layer overrides an earlier one, member by member where both hold objects
and as a whole everywhere else.  A member keeps the place that it has in the
earliest layer with it, so the order of the members is that of the first layers.
-/

namespace CachePolicy.Layers

mutual

/-- A value with a later layer over it. -/
def covered : (base overlay : Json) → Json
  | .obj base, .obj overlay =>
    .obj (base.map (fun (key, value) => (key, coveredMember key value overlay)) ++
      overlay.filter fun (key, _) => (base.lookup key).isNone)
  | _, overlay => overlay

/-- The value of a member with the members of a later layer over it. -/
def coveredMember (key : String) (value : Json) : List (String × Json) → Json
  | [] => value
  | (other, overlay) :: rest =>
    if other == key then covered value overlay else coveredMember key value rest

end

/-- Layers one over the other, the first at the bottom. -/
def merge (layers : List Json) : Json := layers.foldl covered .null

@[simp] theorem merge_nil : merge [] = .null := rfl

theorem merge_append_singleton (layers : List Json) (layer : Json) :
    merge (layers ++ [layer]) = covered (merge layers) layer := by
  simp [merge]

end CachePolicy.Layers
