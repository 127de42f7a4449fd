import ChartPackage.Toml.Basic
import ChartPackage.Toml.Scalar

/-!
Reading TOML 1.1 documents. A reader takes a text and gives what it has read with the text behind
it, or nothing if the text breaks a rule.
-/

namespace ChartPackage.Toml

def isSpace (c : Char) : Bool := c == ' ' || c == '\t'

def skipSpaces (t : Text) : Text := t.dropWhile isSpace

/-- Characters that may stand in comments and between quotes: no controls but the tab. -/
def isPlain (c : Char) : Bool := c == '\t' || (0x20 ≤ c.toNat && c.toNat ≠ 0x7F)

def lineBreak? : Text → Option Text
  | '\n' :: rest | '\r' :: '\n' :: rest => some rest
  | _ => none

def skipComment (t : Text) : Text :=
  match skipSpaces t with
  | '#' :: rest => rest.dropWhile isPlain
  | t => t

def nextLine? (t : Text) : Option Text :=
  match skipComment t with
  | [] => some []
  | t => lineBreak? t

def skipLines : Nat → Text → Text
  | 0, t => t
  | fuel + 1, t =>
      match lineBreak? (skipComment t) with
      | some rest => skipLines fuel rest
      | none => skipComment t

/-- The character with a code of so many hexadecimal digits, which must be one. -/
def charCode? (digits : Nat) (t : Text) : Option (Char × Text) := do
  if t.length < digits then none
  let n ← (t.take digits).foldlM (fun n c => (digitIn 16 c).map (16 * n + ·)) 0
  if h : n.isValidChar then some (Char.ofNatAux n h, t.drop digits) else none

def escape? : Text → Option (Char × Text)
  | 'b' :: rest => some ('\x08', rest)
  | 't' :: rest => some ('\t', rest)
  | 'n' :: rest => some ('\n', rest)
  | 'f' :: rest => some ('\x0C', rest)
  | 'r' :: rest => some ('\r', rest)
  | 'e' :: rest => some ('\x1B', rest)
  | '"' :: rest => some ('"', rest)
  | '\\' :: rest => some ('\\', rest)
  | 'x' :: rest => charCode? 2 rest
  | 'u' :: rest => charCode? 4 rest
  | 'U' :: rest => charCode? 8 rest
  | _ => none

def oneLine? (quote : Char) : Nat → Text → Option (Text × Text)
  | 0, _ => none
  | _, [] => none
  | fuel + 1, c :: rest =>
      if c = quote then some ([], rest)
      else if c = '\\' ∧ quote = '"' then do
        let (c, rest) ← escape? rest
        let (content, rest) ← oneLine? quote fuel rest
        return (c :: content, rest)
      else if isPlain c then (oneLine? quote fuel rest).map fun (content, rest) =>
        (c :: content, rest)
      else none

/-- Whether a text goes on with a line break or with a character that may stand between quotes. -/
def isContent : Text → Bool
  | [] => false
  | c :: rest => isPlain c || (lineBreak? (c :: rest)).isSome

def skipBlanks : Text → Text
  | '\r' :: '\n' :: rest => skipBlanks rest
  | c :: rest => if isSpace c || c == '\n' then skipBlanks rest else c :: rest
  | [] => []

/-- The rest of a string over several lines, with its line breaks as they are. Of three to five
quotes the last three end it; a backslash in front of a line break swallows the blanks and line
breaks that follow. -/
def manyLines? (quote : Char) : Nat → Text → Option (Text × Text)
  | 0, _ => none
  | _, [] => none
  | fuel + 1, c :: rest =>
      if c = quote then
        let quotes := (c :: rest).takeWhile (· = quote)
        let behind := (c :: rest).dropWhile (· = quote)
        if quotes.length < 3 then
          (manyLines? quote fuel behind).map fun (content, rest) => (quotes ++ content, rest)
        else if quotes.length ≤ 5 then some (quotes.drop 3, behind)
        else none
      else if c = '\\' ∧ quote = '"' then
        match lineBreak? (skipSpaces rest) with
        | some rest => manyLines? quote fuel (skipBlanks rest)
        | none => do
            let (c, rest) ← escape? rest
            let (content, rest) ← manyLines? quote fuel rest
            return (c :: content, rest)
      else if isContent (c :: rest) then
        (manyLines? quote fuel rest).map fun (content, rest) => (c :: content, rest)
      else none

/-- The string behind a first quote; a line break right behind three quotes does not count. -/
def string? (quote : Char) (t : Text) : Option (Text × Text) :=
  match t with
  | a :: b :: rest =>
      if a = quote ∧ b = quote then
        let rest := (lineBreak? rest).getD rest
        manyLines? quote (rest.length + 1) rest
      else oneLine? quote (t.length + 1) t
  | _ => oneLine? quote (t.length + 1) t

def isBareKeyChar (c : Char) : Bool := c.isAlphanum || c == '_' || c == '-'

def keyPart? (t : Text) : Option (Text × Text) :=
  match t with
  | '"' :: rest => oneLine? '"' (rest.length + 1) rest
  | '\'' :: rest => oneLine? '\'' (rest.length + 1) rest
  | _ =>
      match t.span isBareKeyChar with
      | ([], _) => none
      | (part, rest) => some (part, rest)

def key? : Nat → Text → Option (List Text × Text)
  | 0, _ => none
  | fuel + 1, t => do
      let (part, rest) ← keyPart? (skipSpaces t)
      match skipSpaces rest with
      | '.' :: rest => (key? fuel rest).map fun (parts, rest) => (part :: parts, rest)
      | rest => some ([part], rest)

def isScalarChar (c : Char) : Bool :=
  c.isAlphanum || c == '+' || c == '-' || c == '_' || c == '.' || c == ':'

/-- An unquoted scalar. A date takes a time behind a single blank with it. -/
def scalar? (t : Text) : Option (Toml × Text) :=
  let (word, rest) := t.span isScalarChar
  let (word, rest) :=
    match isDate word, rest with
    | true, ' ' :: c :: more =>
        if c.isDigit then
          let (time, rest) := (c :: more).span isScalarChar
          (word ++ ' ' :: time, rest)
        else (word, rest)
    | _, _ => (word, rest)
  if word = "true".toList then some (.boolean true, rest)
  else if word = "false".toList then some (.boolean false, rest)
  else if let some n := integer? word then some (.integer n, rest)
  else if isFloat word then some (.float, rest)
  else if isMoment word then some (.moment, rest)
  else none

/-- How deep lists and tables between braces may lie in each other. -/
def levelLimit : Nat := 80

mutual

def value? : Nat → Nat → Text → Option (Toml × Text)
  | 0, _, _ => none
  | fuel + 1, levels, t =>
      match t, levels with
      | '"' :: rest, _ => (string? '"' rest).map fun (content, rest) => (.string content, rest)
      | '\'' :: rest, _ => (string? '\'' rest).map fun (content, rest) => (.string content, rest)
      | '[' :: rest, levels + 1 => (items? fuel levels rest).map fun (items, rest) =>
        (.array items, rest)
      | '{' :: rest, levels + 1 =>
          (pairs? fuel levels [] rest).map fun (entries, rest) => (.table .inlined entries, rest)
      | t, _ => scalar? t

/-- The items of a list up to its closing bracket; a comma may stand after the last. -/
def items? : Nat → Nat → Text → Option (List Toml × Text)
  | 0, _, _ => none
  | fuel + 1, levels, t =>
      match skipLines (t.length + 1) t with
      | ']' :: rest => some ([], rest)
      | t => do
          let (item, rest) ← value? fuel levels t
          match skipLines (rest.length + 1) rest with
          | ',' :: rest => (items? fuel levels rest).map fun (items, rest) => (item :: items, rest)
          | ']' :: rest => some ([item], rest)
          | _ => none

/-- The pairs of a table between braces up to the closing brace, after those in `entries`. Each may
take several lines, but its key stands on one; a comma may stand after the last. -/
def pairs? : Nat → Nat → Entries → Text → Option (Entries × Text)
  | 0, _, _, _ => none
  | fuel + 1, levels, entries, t =>
      match skipLines (t.length + 1) t with
      | '}' :: rest => some (entries, rest)
      | t => do
          let (key, rest) ← key? (t.length + 1) t
          let '=' :: rest := skipLines (rest.length + 1) rest | none
          let (value, rest) ← value? fuel levels (skipLines (rest.length + 1) rest)
          let entries ← assign entries value key
          match skipLines (rest.length + 1) rest with
          | ',' :: rest => pairs? fuel levels entries rest
          | '}' :: rest => some (entries, rest)
          | _ => none

end

/-- The document read so far: its entries, and the header whose table takes the next pairs. -/
structure Document where
  entries : Entries
  header : List Text

def line? (d : Document) (t : Text) : Option (Document × Text) :=
  match skipSpaces t with
  | '[' :: '[' :: rest => do
      let (header, rest) ← key? (rest.length + 1) rest
      let ']' :: ']' :: rest := rest | none
      let entries ← descend openNext d.entries header
      return ({ entries, header }, rest)
  | '[' :: rest => do
      let (header, rest) ← key? (rest.length + 1) rest
      let ']' :: rest := rest | none
      let entries ← descend openTable d.entries header
      return ({ entries, header }, rest)
  | t => do
      let (key, rest) ← key? (t.length + 1) t
      let '=' :: rest := rest | none
      let (value, rest) ← value? (2 * rest.length + 2) levelLimit (skipSpaces rest)
      let entries ←
        if d.header = [] then assign d.entries value key
        else descend (assignIn key value) d.entries d.header
      return ({ d with entries }, rest)

def lines? : Nat → Document → Text → Option Entries
  | 0, _, _ => none
  | fuel + 1, d, t =>
      match skipLines (t.length + 1) t with
      | [] => some d.entries
      | t => do
          let (d, rest) ← line? d t
          lines? fuel d (← nextLine? rest)

def parse? (t : Text) : Option Entries :=
  let t := match t with
    | '\uFEFF' :: rest => rest
    | _ => t
  lines? (t.length + 1) ⟨[], []⟩ t

end ChartPackage.Toml
