import ChartPackage.Text.Basic

/-!
Bytes as text. A byte sequence splits into the characters it encodes and the broken stretches
between them; a stretch is broken at the first byte that no character can continue with. Strict
reading refuses a broken stretch, lenient reading puts one replacement character in its place.
-/

namespace ChartPackage.Utf8

/-- The bytes after a lead byte: the next one lies between `low` and `high`, the `more` after it
are plain continuation bytes. Gives the code they complete, or nothing, and the bytes left. -/
def continuation (low high more code : Nat) : List UInt8 → Option Nat × List UInt8
  | [] => (none, [])
  | b :: rest =>
      if low ≤ b.toNat ∧ b.toNat ≤ high then
        let code := code * 64 + b.toNat % 64
        match more with
        | 0 => (some code, rest)
        | more + 1 => continuation 0x80 0xBF more code rest
      else (none, b :: rest)

theorem length_continuation_le (low high more code : Nat) (bytes : List UInt8) :
    (continuation low high more code bytes).2.length ≤ bytes.length := by
  induction bytes generalizing low high more code with
  | nil => simp [continuation]
  | cons b rest ih =>
      rw [continuation]
      split
      · cases more with
        | zero => simp
        | succ more =>
            exact Nat.le_succ_of_le (ih 0x80 0xBF more (code * 64 + b.toNat % 64))
      · simp

/-- The code that starts with the byte `lead`, and the bytes after it. -/
def code (lead : UInt8) (rest : List UInt8) : Option Nat × List UInt8 :=
  let n := lead.toNat
  if n < 0x80 then (some n, rest)
  else if 0xC2 ≤ n ∧ n ≤ 0xDF then continuation 0x80 0xBF 0 (n % 32) rest
  else if n = 0xE0 then continuation 0xA0 0xBF 1 0 rest
  else if n = 0xED then continuation 0x80 0x9F 1 13 rest
  else if 0xE1 ≤ n ∧ n ≤ 0xEF then continuation 0x80 0xBF 1 (n % 16) rest
  else if n = 0xF0 then continuation 0x90 0xBF 2 0 rest
  else if n = 0xF4 then continuation 0x80 0x8F 2 4 rest
  else if 0xF1 ≤ n ∧ n ≤ 0xF3 then continuation 0x80 0xBF 2 (n % 8) rest
  else (none, rest)

theorem length_code_le (lead : UInt8) (rest : List UInt8) :
    (code lead rest).2.length ≤ rest.length := by
  unfold code
  simp only
  repeat' split
  all_goals first | exact length_continuation_le .. | exact Nat.le_refl _

/-- The characters in order, `none` for each broken stretch. -/
def pieces : List UInt8 → List (Option Char)
  | [] => []
  | lead :: rest =>
      have := length_code_le lead rest
      (code lead rest).1.map Char.ofNat :: pieces (code lead rest).2
  termination_by bytes => bytes.length
  decreasing_by simp; omega

def decode? (bytes : List UInt8) : Option Text := (pieces bytes).mapM id

/-- The text of any bytes, with U+FFFD for each broken stretch. -/
def decodeLossy (bytes : List UInt8) : Text := (pieces bytes).map (·.getD '\uFFFD')

def encode (t : Text) : List UInt8 := t.flatMap String.utf8EncodeChar

end ChartPackage.Utf8
