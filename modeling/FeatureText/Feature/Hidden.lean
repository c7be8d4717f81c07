import FeatureText.Feature.Range

/-! The features that are left out of what is published, by their keys in ascending order. -/
namespace FeatureText

structure HiddenSet where
  keys : List FeatureKey
deriving DecidableEq, Repr, Inhabited

namespace HiddenSet

def empty : HiddenSet := ⟨[]⟩

def contains (h : HiddenSet) (key : FeatureKey) : Bool := h.keys.contains key

def insertKey (key : FeatureKey) : List FeatureKey → List FeatureKey
  | [] => [key]
  | other :: rest =>
    if key < other then key :: other :: rest
    else if key = other then other :: rest
    else other :: insertKey key rest

def insert (h : HiddenSet) (key : FeatureKey) : HiddenSet × Bool :=
  (⟨insertKey key h.keys⟩, !h.contains key)

/-- Says whether the key is in the set afterwards. -/
def toggle (h : HiddenSet) (key : FeatureKey) : HiddenSet × Bool :=
  if h.contains key then (⟨h.keys.filter (· != key)⟩, false) else (⟨insertKey key h.keys⟩, true)

/-- Keeps the keys of live ranges. -/
def prune (h : HiddenSet) (live : List FeatureRange) : HiddenSet :=
  ⟨h.keys.filter fun key => live.any (·.key == key)⟩

def ofKeys (keys : List FeatureKey) : HiddenSet :=
  ⟨keys.foldl (fun sorted key => insertKey key sorted) []⟩

end HiddenSet

end FeatureText
