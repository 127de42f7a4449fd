import ChartPackage.Json.Basic

/-!
Reading JSON by its strict grammar: no comments, no trailing commas, no leading zeros, nothing but
blanks around the one value of a text. Numbers of any size and strings with half a surrogate pair
are read; what becomes of them is up to those who use the value.
-/

namespace ChartPackage.Json

def isBlank (c : Char) : Bool := c == ' ' || c == '\n' || c == '\r' || c == '\t'

def skipBlanks (t : Text) : Text := t.dropWhile isBlank

def hexValue? (c : Char) : Option Nat :=
  if c.isDigit then some (c.toNat - '0'.toNat)
  else if 'a' ≤ c ∧ c ≤ 'f' then some (c.toNat - 'a'.toNat + 10)
  else if 'A' ≤ c ∧ c ≤ 'F' then some (c.toNat - 'A'.toNat + 10)
  else none

def unit? : Text → Option (Nat × Text)
  | a :: b :: c :: d :: rest => do
      let a ← hexValue? a
      let b ← hexValue? b
      let c ← hexValue? c
      let d ← hexValue? d
      return (((a * 16 + b) * 16 + c) * 16 + d, rest)
  | _ => none

def simpleEscape? (c : Char) : Option Char :=
  if c = '"' ∨ c = '\\' ∨ c = '/' then some c
  else if c = 'b' then some '\x08'
  else if c = 'f' then some '\x0C'
  else if c = 'n' then some '\n'
  else if c = 'r' then some '\r'
  else if c = 't' then some '\t'
  else none

/-- What an escape after `\u` names: a character, or nothing for half a surrogate pair. A high
half joins with the escape of a low half behind it. -/
def unicodeEscape? (t : Text) : Option (Option Char × Text) := do
  let (high, rest) ← unit? t
  if 0xD800 ≤ high ∧ high < 0xDC00 then
    match rest with
    | '\\' :: 'u' :: more =>
        match unit? more with
        | some (low, after) =>
            if 0xDC00 ≤ low ∧ low < 0xE000 then
              return (some (.ofNat (0x10000 + (high - 0xD800) * 0x400 + (low - 0xDC00))), after)
            else return (none, rest)
        | none => return (none, rest)
    | _ => return (none, rest)
  else if 0xDC00 ≤ high ∧ high < 0xE000 then return (none, rest)
  else return (some (.ofNat high), rest)

def string? : Nat → Text → Option (Option Text × Text)
  | 0, _ => none
  | _, [] => none
  | _ + 1, '"' :: rest => some (some [], rest)
  | fuel + 1, '\\' :: 'u' :: rest => do
      let (c, rest) ← unicodeEscape? rest
      let (content, rest) ← string? fuel rest
      return (c.bind fun c => content.map (c :: ·), rest)
  | _ + 1, ['\\'] => none
  | fuel + 1, '\\' :: c :: rest => do
      let c ← simpleEscape? c
      let (content, rest) ← string? fuel rest
      return (content.map (c :: ·), rest)
  | fuel + 1, c :: rest =>
      if c.toNat < 0x20 then none
      else (string? fuel rest).map fun (content, rest) => (content.map (c :: ·), rest)

/-- The digits of a fraction after a point in front, which needs at least one. -/
def fraction? : Text → Option (Option Text × Text)
  | '.' :: rest =>
      match rest.span Char.isDigit with
      | ([], _) => none
      | (digits, rest) => some (some digits, rest)
  | t => some (none, t)

def exponentSign : Text → ExponentSign × Text
  | '+' :: rest => (.plus, rest)
  | '-' :: rest => (.minus, rest)
  | t => (.absent, t)

/-- The exponent in front, which needs at least one digit after its marker. -/
def exponent? : Text → Option (Option (ExponentSign × Text) × Text)
  | [] => some (none, [])
  | c :: rest =>
      if c = 'e' ∨ c = 'E' then
        let (sign, rest) := exponentSign rest
        match rest.span Char.isDigit with
        | ([], _) => none
        | (digits, rest) => some (some (sign, digits), rest)
      else some (none, c :: rest)

/-- A number without its minus sign: a zero or digits that do not start with one, then fraction
and exponent. -/
def literal? (negative : Bool) (t : Text) : Option (Literal × Text) := do
  let (whole, rest) := t.span Char.isDigit
  if whole = [] ∨ (whole.head? = some '0' ∧ whole ≠ ['0']) then none
  let (fraction, rest) ← fraction? rest
  let (exponent, rest) ← exponent? rest
  return ({ negative, whole, fraction, exponent }, rest)

mutual

/-- A value at the start of a text, blanks in front of it skipped, and the text after it. -/
def value? : Nat → Text → Option (Json × Text)
  | 0, _ => none
  | fuel + 1, t =>
      match skipBlanks t with
      | [] => none
      | c :: rest =>
          if c = 'n' then (Text.dropLead? "ull" rest).map (.null, ·)
          else if c = 't' then (Text.dropLead? "rue" rest).map (.bool true, ·)
          else if c = 'f' then (Text.dropLead? "alse" rest).map (.bool false, ·)
          else if c = '"' then
            (string? (rest.length + 1) rest).map fun (content, rest) => (.string content, rest)
          else if c = '-' then (literal? true rest).map fun (l, rest) => (.number l, rest)
          else if c = '[' then
            match skipBlanks rest with
            | ']' :: rest => some (.array [], rest)
            | _ => (items? fuel rest).map fun (items, rest) => (.array items, rest)
          else if c = '{' then
            match skipBlanks rest with
            | '}' :: rest => some (.object [], rest)
            | _ => (members? fuel rest).map fun (members, rest) => (.object members, rest)
          else (literal? false (c :: rest)).map fun (l, rest) => (.number l, rest)

def items? : Nat → Text → Option (List Json × Text)
  | 0, _ => none
  | fuel + 1, t => do
      let (item, rest) ← value? fuel t
      match skipBlanks rest with
      | ',' :: rest => (items? fuel rest).map fun (items, rest) => (item :: items, rest)
      | ']' :: rest => some ([item], rest)
      | _ => none

def members? : Nat → Text → Option (List (Option Text × Json) × Text)
  | 0, _ => none
  | fuel + 1, t => do
      let '"' :: rest := skipBlanks t | none
      let (key, rest) ← string? (rest.length + 1) rest
      let ':' :: rest := skipBlanks rest | none
      let (value, rest) ← value? fuel rest
      match skipBlanks rest with
      | ',' :: rest =>
          (members? fuel rest).map fun (members, rest) => ((key, value) :: members, rest)
      | '}' :: rest => some ([(key, value)], rest)
      | _ => none

end

def parse? (t : Text) : Option Json := do
  let (value, rest) ← value? (2 * t.length + 2) t
  if skipBlanks rest = [] then some value else none

end ChartPackage.Json
