import NodeDump.Text.Printable

/-!
A single character as messages show it: between quotes, itself if it is printable, escaped if a reader
could not see what it is.
-/

namespace NodeDump.Text

def hexDigits : Nat → Nat → List Char
  | 0, _ => []
  | width + 1, n => hexDigits width (n / 16) ++ [Nat.digitChar (n % 16)]

def codePointEscape (c : Char) : List Char :=
  if c.toNat < 0x100 then '\\' :: 'x' :: hexDigits 2 c.toNat
  else if c.toNat < 0x10000 then '\\' :: 'u' :: hexDigits 4 c.toNat
  else '\\' :: 'U' :: hexDigits 8 c.toNat

/-- The apostrophe is never escaped: it gets the other kind of quote around it instead. -/
def shown (c : Char) : List Char :=
  if c = '\\' then ['\\', '\\']
  else if c = '\t' then ['\\', 't']
  else if c = '\n' then ['\\', 'n']
  else if c = '\r' then ['\\', 'r']
  else if isPrintable c then [c]
  else codePointEscape c

def quoted (c : Char) : String :=
  let quote := if c = '\'' then '"' else '\''
  String.ofList (quote :: shown c ++ [quote])

end NodeDump.Text
