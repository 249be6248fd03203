import MeteredScript.Text.CharRange
import MeteredScript.Text.Case.Table
import MeteredScript.Text.Case.Context

/-!
Upper and lower case of texts, by the full Unicode mappings. Capital sigma has two lower-case
forms: the final one stands where a cased letter comes before it and none after it.
-/

namespace MeteredScript.Text

def CaseRun.covers (r : CaseRun) (n : Nat) : Bool :=
  r.first ≤ n && n ≤ r.last && (n - r.first) % r.step = 0

/-- The mapping of one character by runs and expansions; others map to themselves. -/
def mapCase (runs : List CaseRun) (expansions : List (Nat × List Nat)) (c : Char) : List Char :=
  match expansions.find? (·.1 = c.toNat) with
  | some (_, chars) => chars.map Char.ofNat
  | none =>
    match runs.find? (·.covers c.toNat) with
    | some r => [Char.ofNat (c.toNat + r.shift).toNat]
    | none => [c]

def upper (text : List Char) : List Char := text.flatMap (mapCase upperRuns upperExpansions)

/-- Whether the first character that is not looked through is a cased letter. -/
def meetsCased (text : List Char) : Bool :=
  match text.dropWhile (inRanges caseIgnorable) with
  | c :: _ => inRanges cased c
  | [] => false

/-- Lower case of a text after `before`, which is kept last character first. -/
def lowerAfter (before : List Char) : List Char → List Char
  | [] => []
  | c :: rest =>
    let image :=
      if c = 'Σ' then [if meetsCased before && !meetsCased rest then 'ς' else 'σ']
      else mapCase lowerRuns lowerExpansions c
    image ++ lowerAfter (c :: before) rest

def lower (text : List Char) : List Char := lowerAfter [] text

end MeteredScript.Text
