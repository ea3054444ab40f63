import AmbientResidue.Text.Invisible

/-!
Strings in double quotes, fit for a one-line message: quotes and backslashes get a backslash, the
four commonest controls a letter, every other invisible character its code point in hexadecimal.
-/

namespace AmbientResidue.Text

/-- The code point of a character between braces, in lower case and without padding. -/
def codePointEscape (c : Char) : List Char :=
  ['\\', 'u', '\x7b'] ++ Nat.toDigits 16 c.toNat ++ ['\x7d']

def escape (c : Char) : List Char :=
  if c = '"' || c = '\\' then ['\\', c]
  else if c = '\x00' then ['\\', '0']
  else if c = '\t' then ['\\', 't']
  else if c = '\r' then ['\\', 'r']
  else if c = '\n' then ['\\', 'n']
  else if isInvisible c then codePointEscape c
  else [c]

/-- A string between double quotes, on one line and with every character visible. -/
def quote (s : String) : String :=
  String.ofList ('"' :: s.toList.flatMap escape ++ ['"'])

end AmbientResidue.Text
