import FeatureText.Json.Numeral
import FeatureText.Text.Bytes

/-! What is digested of a value: its content by kind, with every text and every length marked, so
that different contents never run together. The order of members does not show. -/
namespace FeatureText

namespace Digest

inductive Item where
  | kind (tag : UInt8)
  | flag (value : Bool)
  | count (size : Nat)
  | text (value : Text)
deriving DecidableEq

/-- A length takes eight bytes, the lowest first, and no text holds the byte that ends it. -/
def Item.bytes : Item → List UInt8
  | .kind tag => [tag]
  | .flag value => [if value then 1 else 0]
  | .count size => (List.range 8).map fun i => (size / Nat.pow 256 i).toUInt8
  | .text value => utf8 value ++ [0xff]

def insertByName {α : Type} (member : Text × α) : List (Text × α) → List (Text × α)
  | [] => [member]
  | other :: rest =>
    if member.1 < other.1 then member :: other :: rest else other :: insertByName member rest

def sortByName {α : Type} (members : List (Text × α)) : List (Text × α) :=
  members.foldr insertByName []

mutual

def items : Json → List Item
  | .null => [.kind 0]
  | .bool value => [.kind 1, .flag value]
  | .number value => [.kind 2, .text value.text]
  | .text value => [.kind 3, .text value]
  | .array values => .kind 4 :: .count values.length :: itemsOfAll values
  | .object members =>
    .kind 5 :: .count members.length ::
      (sortByName (itemsOfMembers members)).flatMap fun (name, items) => .text name :: items

def itemsOfAll : List Json → List Item
  | [] => []
  | value :: values => items value ++ itemsOfAll values

def itemsOfMembers : List (Text × Json) → List (Text × List Item)
  | [] => []
  | (name, value) :: members => (name, items value) :: itemsOfMembers members

end

end Digest

end FeatureText
