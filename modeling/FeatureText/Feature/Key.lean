import FeatureText.Digest.SipHash
import FeatureText.Digest.Stream

/-! A feature is known by a digest of its geometry and its properties, and by its place among the
features with the same digest. -/
namespace FeatureText

abbrev FeatureKey := Text

namespace Feature

def hashOf (items : List Digest.Item) : UInt64 := SipHash.digest (items.flatMap Digest.Item.bytes)

/-- A member that is missing counts as null. -/
def digestItems (feature : Json) : List Digest.Item :=
  Digest.items ((feature.member? "geometry".toList).getD .null) ++
    Digest.items ((feature.member? "properties".toList).getD .null)

def hash (feature : Json) : UInt64 := hashOf (digestItems feature)

/-- Text that is no value of its own is known by what it says. -/
def rawHash (text : Text) : UInt64 := hashOf [.text text]

def hexDigit (hash : UInt64) (place : Nat) : Char :=
  Nat.digitChar (hash.toNat / Nat.pow 16 place % 16)

def hexText (hash : UInt64) : Text := (List.range 16).reverse.map (hexDigit hash)

def key (hash : UInt64) (occurrence : Nat) : FeatureKey :=
  hexText hash ++ '-' :: Nat.toDigits 10 occurrence

def keysAfter (seen : List UInt64) : List UInt64 → List FeatureKey
  | [] => []
  | hash :: rest => key hash (seen.count hash) :: keysAfter (hash :: seen) rest

def keys (features : List Json) : List FeatureKey := keysAfter [] (features.map hash)

@[simp] theorem length_keysAfter (seen hashes : List UInt64) :
    (keysAfter seen hashes).length = hashes.length := by
  induction hashes generalizing seen with
  | nil => rfl
  | cons hash rest ih => simp [keysAfter, ih]

@[simp] theorem length_keys (features : List Json) :
    (keys features).length = features.length := by
  simp [keys]

end Feature

end FeatureText
