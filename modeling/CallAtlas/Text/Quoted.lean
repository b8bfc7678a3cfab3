import CallAtlas.Text.CodeText
import CallAtlas.Text.Hex
import CallAtlas.Text.Printable

/-!
Quoted text for messages: in single quotes, or in double quotes when the text holds single quotes
only. Line ends and tabs are written as two characters and what cannot be printed by its code.
-/

namespace CallAtlas.Text

def escapedCode (code : Nat) : List Char :=
  if code < 0x100 then '\\' :: 'x' :: hexDigits 2 code
  else if code < 0x10000 then '\\' :: 'u' :: hexDigits 4 code
  else '\\' :: 'U' :: hexDigits 8 code

def quotedChar (quote c : Char) : List Char :=
  if c == quote || c == '\\' then ['\\', c]
  else if c == '\n' then ['\\', 'n']
  else if c == '\r' then ['\\', 'r']
  else if c == '\t' then ['\\', 't']
  else if isPrintable c then [c]
  else escapedCode c.toNat

/-- Double quotes only where they save the escaping of single ones. -/
def quoteFor (s : List Char) : Char :=
  if s.contains '\'' && !s.contains '"' then '"' else '\''

def quoted (s : String) : String :=
  let quote := quoteFor s.toList
  String.ofList (quote :: s.toList.flatMap (quotedChar quote) ++ [quote])

def printed (s : CodeText) : String := s.render (fun c => [c]) escapedCode

def quotedCodes (s : CodeText) : String :=
  let quote := quoteFor (printed s).toList
  String.singleton quote ++ s.render (quotedChar quote) escapedCode ++ String.singleton quote

end CallAtlas.Text
