/-!
Occurrences of one text in another. A separator cuts a text at its leftmost occurrences that do not
overlap; the empty separator cuts before and after every character.
-/

namespace MeteredScript.Text

/-- Whether `part` occurs in the text; the empty text occurs everywhere. -/
def occurs (part : List Char) : List Char → Bool
  | [] => part.isEmpty
  | c :: rest => part.isPrefixOf (c :: rest) || occurs part rest

/-- The pieces between the occurrences of a separator that is not empty. The piece being read is
kept in `piece`, last character first. -/
def pieces (separator : List Char) (piece : List Char) : List Char → List (List Char)
  | [] => [piece.reverse]
  | c :: rest =>
    if separator.isPrefixOf (c :: rest) then
      piece.reverse :: pieces separator [] (rest.drop (separator.length - 1))
    else pieces separator (c :: piece) rest
termination_by text => text.length
decreasing_by all_goals grind

/-- Cuts a text at a separator. -/
def split (separator text : List Char) : List (List Char) :=
  if separator = [] then [[]] ++ text.map ([·]) ++ [[]] else pieces separator [] text

end MeteredScript.Text
