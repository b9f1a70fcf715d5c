import ScriptEngine.Text.Printable

/-!
# Quoted text

A char or string between quotes, with everything escaped that would not be
seen as itself: controls, the quote, the backslash, marks that extend the
character before them, and whatever is not printable.
-/

namespace ScriptEngine.Quoted

/-- The digits of a number in base sixteen, without leading zeros. -/
def hexadecimal (number : Nat) : String :=
  String.ofList (Nat.toDigits 16 number)

/-- One character as it stands between the given quotes. -/
def escape (quote character : Char) : String :=
  if character = Char.ofNat 0 then "\\0"
  else if character = '\t' then "\\t"
  else if character = '\r' then "\\r"
  else if character = '\n' then "\\n"
  else if character = '\\' then "\\\\"
  else if character = quote then "\\" ++ character.toString
  else if Printable.isExtendingMark character || !Printable.isPrintable character then
    "\\u\x7b" ++ hexadecimal character.toNat ++ "\x7d"
  else character.toString

def char (character : Char) : String :=
  "'" ++ escape '\'' character ++ "'"

def string (contents : String) : String :=
  "\"" ++ String.join (contents.toList.map (escape '"')) ++ "\""

end ScriptEngine.Quoted
