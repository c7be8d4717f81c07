/-! The two kinds of bracket. -/
namespace FeatureText

inductive Bracket where
  | brace
  | square
deriving DecidableEq, Repr, Inhabited

namespace Bracket

def opening : Bracket → Char
  | brace => '{'
  | square => '['

def closing : Bracket → Char
  | brace => '}'
  | square => ']'

def ofOpening? (c : Char) : Option Bracket :=
  if c = '{' then some brace else if c = '[' then some square else none

def ofClosing? (c : Char) : Option Bracket :=
  if c = '}' then some brace else if c = ']' then some square else none

@[simp] theorem ofOpening?_opening (b : Bracket) : ofOpening? b.opening = some b := by
  cases b <;> decide

@[simp] theorem ofClosing?_closing (b : Bracket) : ofClosing? b.closing = some b := by
  cases b <;> decide

theorem eq_opening_of_ofOpening? {c : Char} {b : Bracket} (h : ofOpening? c = some b) :
    c = b.opening := by
  unfold ofOpening? at h
  split at h
  · cases h; assumption
  · split at h
    · cases h; assumption
    · cases h

theorem eq_closing_of_ofClosing? {c : Char} {b : Bracket} (h : ofClosing? c = some b) :
    c = b.closing := by
  unfold ofClosing? at h
  split at h
  · cases h; assumption
  · split at h
    · cases h; assumption
    · cases h

end Bracket

end FeatureText
