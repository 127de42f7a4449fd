import ChartPackage.Text.Utf8

/-!
Texts without terminal control sequences, for output that goes to no terminal. A sequence starts
with an escape and is dropped with all that belongs to it; control characters outside sequences are
dropped too, but for those that are blank. A blank inside a sequence is kept, and so is all that
shows behind it; the sequence then goes on at the next character that does not show.
-/

namespace ChartPackage.Console

/-- Where in a control sequence a reader stands. -/
inductive Place where
  /-- In no sequence. -/
  | ground
  /-- Behind an escape. -/
  | escape
  /-- Behind the marks between an escape and the character that ends its sequence. -/
  | escapeMarks
  /-- Behind the opening of a control function, its parameters, or its marks. -/
  | control
  | controlParameters
  | controlMarks
  /-- In a control function that breaks the rules, up to its end. -/
  | controlBroken
  /-- Behind the opening of a device string, its parameters, or its marks. -/
  | device
  | deviceParameters
  | deviceMarks
  /-- In a string for the device or for others. -/
  | data
  /-- In a command to the terminal's system. -/
  | command
  deriving DecidableEq

/-- What part of a sequence a character can be. -/
inductive Role where
  | mark
  | digit
  /-- A parameter that only comes first. -/
  | reserved
  | final
  | none
  deriving DecidableEq

def role (c : Char) : Role :=
  let n := c.toNat
  if n < 0x20 then .none
  else if n < 0x30 then .mark
  else if n < 0x3C then .digit
  else if n < 0x40 then .reserved
  else if n < 0x7F then .final
  else .none

/-- Where a sequence stands whose first character after the escape ends it or opens a longer one. -/
def opened (c : Char) : Place :=
  if c = '[' then .control
  else if c = ']' then .command
  else if c = 'P' then .device
  else if c = 'X' ∨ c = '^' ∨ c = '_' then .data
  else .ground

namespace Place

/-- Where a reader stands after one more character. A cancel ends any sequence and an escape starts
a new one. A string ends at a byte that closes strings, even inside a character's encoding. -/
def next (p : Place) (c : Char) : Place :=
  if c = '\x18' ∨ c = '\x1A' then .ground
  else if c = '\x1B' then .escape
  else
    match p, role c with
    | ground, _ => .ground
    | escape, .mark => .escapeMarks
    | escape, .none => .escape
    | escape, _ => opened c
    | escapeMarks, .digit | escapeMarks, .reserved | escapeMarks, .final => .ground
    | escapeMarks, _ => .escapeMarks
    | control, .mark | controlParameters, .mark | controlMarks, .mark => .controlMarks
    | control, .digit | control, .reserved | controlParameters, .digit => .controlParameters
    | controlParameters, .reserved | controlMarks, .digit | controlMarks, .reserved =>
      .controlBroken
    | control, .final | controlParameters, .final | controlMarks, .final => .ground
    | controlBroken, .final => .ground
    | device, .mark | deviceParameters, .mark | deviceMarks, .mark => .deviceMarks
    | device, .digit | device, .reserved | deviceParameters, .digit => .deviceParameters
    | deviceParameters, .reserved | deviceMarks, .digit | deviceMarks, .reserved => .data
    | device, .final | deviceParameters, .final | deviceMarks, .final => .data
    | data, _ => if 0x9C ∈ Utf8.encode [c] then .ground else .data
    | command, _ => if c = '\x07' then .ground else .command
    | p, .none => p
    | controlBroken, _ => .controlBroken

/-- Whether a character shows at a place: outside sequences all but controls, and anywhere but in
strings a blank control. -/
def shows (p : Place) (c : Char) : Bool :=
  let blank := c == '\t' || c == '\n' || c == '\x0C' || c == '\r'
  match p with
  | ground => blank || (0x20 ≤ c.toNat && c.toNat ≠ 0x7F)
  | escape | escapeMarks | control | controlParameters | controlMarks | controlBroken => blank
  | device | deviceParameters | deviceMarks | data | command => false

end Place

/-- What shows of a text when a reader stands at a place; `showing` tells that the character before
it showed. -/
def plainFrom (p : Place) (showing : Bool) : Text → Text
  | [] => []
  | c :: t =>
      if (if showing then .ground else p).shows c then
        c :: plainFrom (if c.toNat < 0x80 then p else .ground) true t
      else plainFrom (p.next c) false t

def plain (t : Text) : Text := plainFrom .ground false t

end ChartPackage.Console
