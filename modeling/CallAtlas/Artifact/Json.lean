import CallAtlas.Text.CodeText
import CallAtlas.Text.Hex

/-!
JSON values and their text: two blanks for each level, one element a line, ASCII only.
-/

namespace CallAtlas.Artifact

inductive JsonValue where
  | text (value : String)
  | codes (value : Text.CodeText)
  | list (items : List JsonValue)
  | object (fields : List (String × JsonValue))

def unitEscape (unit : Nat) : List Char := ['\\', 'u'] ++ Text.hexDigits 4 unit

def escapeChar (c : Char) : List Char :=
  if c = '"' then ['\\', '"']
  else if c = '\\' then ['\\', '\\']
  else if c = '\n' then ['\\', 'n']
  else if c = '\r' then ['\\', 'r']
  else if c = '\t' then ['\\', 't']
  else if c.toNat = 0x08 then ['\\', 'b']
  else if c.toNat = 0x0C then ['\\', 'f']
  else if 0x20 ≤ c.toNat ∧ c.toNat ≤ 0x7E then [c]
  else if c.toNat < 0x10000 then unitEscape c.toNat
  else
    let offset := c.toNat - 0x10000
    unitEscape (0xD800 + offset / 0x400) ++ unitEscape (0xDC00 + offset % 0x400)

def jsonString (s : String) : String :=
  "\"" ++ String.ofList (s.toList.flatMap escapeChar) ++ "\""

def jsonCodes (s : Text.CodeText) : String := "\"" ++ s.render escapeChar unitEscape ++ "\""

def lineStart (level : Nat) : String := "\n" ++ String.ofList (List.replicate (2 * level) ' ')

def bracketed (first last : String) (level : Nat) (lines : List String) : String :=
  match lines with
  | [] => first ++ last
  | _ =>
    first ++ lineStart (level + 1) ++ ("," ++ lineStart (level + 1)).intercalate lines ++
      lineStart level ++ last

namespace JsonValue

mutual

def render (level : Nat) : JsonValue → String
  | text value => jsonString value
  | codes value => jsonCodes value
  | list items => bracketed "[" "]" level (renderItems (level + 1) items)
  | object fields => bracketed "\x7b" "\x7d" level (renderFields (level + 1) fields)

def renderItems (level : Nat) : List JsonValue → List String
  | [] => []
  | item :: rest => render level item :: renderItems level rest

def renderFields (level : Nat) : List (String × JsonValue) → List String
  | [] => []
  | (key, value) :: rest =>
    (jsonString key ++ ": " ++ render level value) :: renderFields level rest

end

end JsonValue

def JsonValue.toText (value : JsonValue) : String := value.render 0

end CallAtlas.Artifact
