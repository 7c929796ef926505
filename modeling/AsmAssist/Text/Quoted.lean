import AsmAssist.Text.Plain
import AsmAssist.Text.Blank

/-!
# Quoted text

A text between double quotes, with escapes for quotes, backslashes and all that cannot be shown as it is.
-/

namespace AsmAssist.Text

def escapeChar (c : Char) : Text :=
  if c = '"' then ['\\', '"']
  else if c = '\\' then ['\\', '\\']
  else if c = '\n' then ['\\', 'n']
  else if c = '\r' then ['\\', 'r']
  else if c = '\t' then ['\\', 't']
  else if c.toNat = 0 then ['\\', '0']
  else if isPlain c then [c]
  else "\\u\x7b".toList ++ Nat.toDigits 16 c.toNat ++ "\x7d".toList

def quoted (s : Text) : Text := '"' :: s.flatMap escapeChar ++ ['"']

end AsmAssist.Text
