import MeteredScript.Text.CharRange
import MeteredScript.Text.Unprintable

/-!
Quoted texts: between double quotes, with quotes, backslashes, line ends and tabs escaped, and
characters that cannot be seen alone shown by their code point.
-/

namespace MeteredScript.Text

def escapeChar (c : Char) : List Char :=
  if c = '"' then ['\\', '"']
  else if c = '\\' then ['\\', '\\']
  else if c = '\n' then ['\\', 'n']
  else if c = '\r' then ['\\', 'r']
  else if c = '\t' then ['\\', 't']
  else if c.toNat = 0 then ['\\', '0']
  else if inRanges unprintable c || inRanges extending c || inRanges ignorable c then
    ['\\', 'u', '\x7b'] ++ Nat.toDigits 16 c.toNat ++ ['\x7d']
  else [c]

def quoted (text : String) : String :=
  "\"" ++ String.ofList (text.toList.flatMap escapeChar) ++ "\""

end MeteredScript.Text
