import FeatureText.Text.Line
import FeatureText.Unicode.Extend
import FeatureText.Unicode.Unprintable

/-! Text in quotes for the eye of a developer: what cannot be seen, or would sit on the character
before it, shows as its number. -/
namespace FeatureText

namespace Shown

def numbered (c : Char) : Text := ['\\', 'u', '{'] ++ Nat.toDigits 16 c.toNat ++ ['}']

def isSeen (c : Char) : Bool :=
  !Unicode.inRanges Unicode.unprintable c && !Unicode.inRanges Unicode.graphemeExtend c

def escape (c : Char) : Text :=
  if c = '\x00' then ['\\', '0']
  else if c = '\t' then ['\\', 't']
  else if c = '\r' then ['\\', 'r']
  else if c = '\n' then ['\\', 'n']
  else if c = '\\' then ['\\', '\\']
  else if c = '"' then ['\\', '"']
  else if c = ' ' || isSeen c then [c]
  else numbered c

def quote (text : Text) : Text := '"' :: text.flatMap escape ++ ['"']

def quoteAll (texts : List Text) : Text :=
  '[' :: [',', ' '].intercalate (texts.map quote) ++ [']']

end Shown

end FeatureText
