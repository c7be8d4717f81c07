/-! A text is a list of characters and is kept by lines. A line feed ends a line, and a carriage
return at the end of a line belongs to the line break. -/
namespace FeatureText

abbrev Text := List Char
abbrev Line := List Char

def pieces : Text → List Text
  | [] => [[]]
  | c :: rest =>
    if c = '\n' then [] :: pieces rest
    else match pieces rest with
      | [] => [[c]]
      | piece :: more => (c :: piece) :: more

def dropReturn : Text → Line
  | [] => []
  | ['\r'] => []
  | c :: rest => c :: dropReturn rest

def splitLines (text : Text) : List Line :=
  (pieces text).map dropReturn

def joinLines (lines : List Line) : Text :=
  ['\n'].intercalate lines

theorem pieces_ne_nil (text : Text) : pieces text ≠ [] := by
  cases text with
  | nil => simp [pieces]
  | cons c rest =>
    simp only [pieces]
    split
    · simp
    · split <;> simp

theorem splitLines_ne_nil (text : Text) : splitLines text ≠ [] := by
  simp [splitLines, pieces_ne_nil]

@[simp] theorem splitLines_nil : splitLines [] = [[]] := rfl

@[simp] theorem joinLines_singleton (line : Line) : joinLines [line] = line := by
  simp [joinLines, List.intercalate]

end FeatureText
