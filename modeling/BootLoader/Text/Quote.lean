import BootLoader.Text.Hex
import BootLoader.Text.Printable

/-! A text in quotes, as it stands in the payload table. -/

namespace BootLoader.Text

def escapeChar (c : Char) : String :=
  if c = '\x00' then "\\0"
  else if c = '\t' then "\\t"
  else if c = '\r' then "\\r"
  else if c = '\n' then "\\n"
  else if c = '"' then "\\\""
  else if c = '\\' then "\\\\"
  else if isPrintable c then c.toString
  else "\\u\x7b" ++ Hex.plain 1 c.toNat ++ "\x7d"

def quote (s : String) : String := "\"" ++ String.join (s.toList.map escapeChar) ++ "\""

end BootLoader.Text
