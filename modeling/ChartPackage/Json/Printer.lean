import ChartPackage.Json.Basic

/-!
JSON as text, laid out over lines: two blanks deeper for each level, one item or member a line,
a blank behind the colon of a member, and nothing between the brackets of an empty list.
-/

namespace ChartPackage.Json

def hexPair (n : Nat) : Text := Numeral.padLeft 2 (Nat.toDigits 16 n)

/-- A character inside a string. Only quotes, backslashes and control characters are escaped. -/
def escape (c : Char) : Text :=
  if c = '"' then "\\\""
  else if c = '\\' then "\\\\"
  else if c = '\x08' then "\\b"
  else if c = '\x0C' then "\\f"
  else if c = '\n' then "\\n"
  else if c = '\r' then "\\r"
  else if c = '\t' then "\\t"
  else if c.toNat < 0x20 then "\\u00" ++ hexPair c.toNat
  else [c]

/-- A string in quotes; one that is no text is written as a replacement character. -/
def quote (content : Option Text) : Text :=
  '"' :: (content.getD ['\uFFFD']).flatMap escape ++ ['"']

def ExponentSign.render : ExponentSign → Text
  | .absent => []
  | .plus => ['+']
  | .minus => ['-']

def Literal.render (l : Literal) : Text :=
  (if l.negative then ['-'] else []) ++ l.whole ++
    (match l.fraction with
      | some digits => '.' :: digits
      | none => []) ++
    (match l.exponent with
      | some (sign, digits) => 'e' :: sign.render ++ digits
      | none => [])

def newLine (level : Nat) : Text := '\n' :: List.replicate (2 * level) ' '

mutual

/-- A value that starts on a line of some level. -/
def render (level : Nat) : Json → Text
  | .null => "null"
  | .bool true => "true"
  | .bool false => "false"
  | .number literal => literal.render
  | .string content => quote content
  | .array [] => "[]"
  | .array (item :: items) =>
      '[' :: newLine (level + 1) ++ render (level + 1) item ++ renderItems (level + 1) items ++
        newLine level ++ "]"
  | .object [] => "\x7b\x7d"
  | .object ((key, value) :: members) =>
      '{' :: newLine (level + 1) ++ quote key ++ ": " ++ render (level + 1) value ++
        renderMembers (level + 1) members ++ newLine level ++ "\x7d"

def renderItems (level : Nat) : List Json → Text
  | [] => []
  | item :: items => ',' :: newLine level ++ render level item ++ renderItems level items

def renderMembers (level : Nat) : List (Option Text × Json) → Text
  | [] => []
  | (key, value) :: members =>
      ',' :: newLine level ++ quote key ++ ": " ++ render level value ++ renderMembers level members

end

end ChartPackage.Json
