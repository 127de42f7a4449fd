import Mathlib
import ChartPackage.Text.Utf8

/-!
Texts and the bytes that encode them. Every text is read back from its bytes, and a line break in it
is found at its byte, since all bytes of a character beyond ASCII are above those of ASCII.
-/

namespace ChartPackage.Utf8

/-- A byte that goes on with a character adds its six bits to the code. -/
theorem continuation_cons {low high code n : Nat} (more : Nat) (rest : List UInt8) (hn : n < 64)
    (hlow : low ≤ n + 128) (hhigh : n + 128 ≤ high) :
    continuation low high more code (UInt8.ofNat (n + 128) :: rest) =
      match more with
      | 0 => (some (code * 64 + n), rest)
      | more + 1 => continuation 0x80 0xBF more (code * 64 + n) rest := by
  have hbyte : (UInt8.ofNat (n + 128)).toNat = n + 128 := by simp; omega
  have hbits : (n + 128) % 64 = n := by omega
  cases more with
  | zero => simp only [continuation, hbyte, if_pos (And.intro hlow hhigh), hbits]
  | succ more => simp only [continuation, hbyte, if_pos (And.intro hlow hhigh), hbits]

theorem code_of_two {n : Nat} (hlow : 2 ≤ n) (hn : n < 32) (rest : List UInt8) :
    code (UInt8.ofNat (n + 192)) rest = continuation 0x80 0xBF 0 n rest := by
  interval_cases n <;> rfl

theorem code_of_three {n : Nat} (hn : n < 16) (rest : List UInt8) :
    code (UInt8.ofNat (n + 224)) rest =
      continuation (if n = 0 then 0xA0 else 0x80) (if n = 13 then 0x9F else 0xBF) 1 n rest := by
  interval_cases n <;> rfl

theorem code_of_four {n : Nat} (hn : n < 5) (rest : List UInt8) :
    code (UInt8.ofNat (n + 240)) rest =
      continuation (if n = 0 then 0x90 else 0x80) (if n = 4 then 0x8F else 0xBF) 2 n rest := by
  interval_cases n <;> rfl

/-- The bytes of a character are read back with whatever follows them. -/
theorem code_encodeChar (c : Char) (rest : List UInt8) :
    ∃ lead tail, String.utf8EncodeChar c = lead :: tail ∧
      code lead (tail ++ rest) = (some c.toNat, rest) := by
  have hvalid : c.toNat < 0xD800 ∨ 0xDFFF < c.toNat ∧ c.toNat < 0x110000 := c.valid
  have hval : c.val.toNat = c.toNat := rfl
  simp only [String.utf8EncodeChar, hval]
  generalize c.toNat = v at *
  by_cases h1 : v ≤ 127
  · refine ⟨_, _, if_pos h1, ?_⟩
    have hlead : (UInt8.ofNat v).toNat = v := by simp; omega
    simp only [code, hlead, List.nil_append]
    rw [if_pos (by omega)]
  · rw [if_neg h1]
    by_cases h2 : v ≤ 2047
    · refine ⟨_, _, if_pos h2, ?_⟩
      rw [code_of_two (by omega) (by omega), List.singleton_append,
        continuation_cons 0 rest (by omega) (by omega) (by omega)]
      simp only [Prod.mk.injEq, Option.some.injEq, and_true]
      omega
    · rw [if_neg h2]
      by_cases h3 : v ≤ 65535
      · refine ⟨_, _, if_pos h3, ?_⟩
        rw [code_of_three (by omega), List.cons_append, List.singleton_append,
          continuation_cons 1 _ (by omega) (by split <;> omega) (by split <;> omega)]
        dsimp only
        rw [continuation_cons 0 rest (by omega) (by omega) (by omega)]
        simp only [Prod.mk.injEq, Option.some.injEq, and_true]
        omega
      · refine ⟨_, _, if_neg h3, ?_⟩
        rw [code_of_four (by omega), List.cons_append, List.cons_append, List.singleton_append,
          continuation_cons 2 _ (by omega) (by split <;> omega) (by split <;> omega)]
        dsimp only
        rw [continuation_cons 1 _ (by omega) (by omega) (by omega)]
        dsimp only
        rw [continuation_cons 0 rest (by omega) (by omega) (by omega)]
        simp only [Prod.mk.injEq, Option.some.injEq, and_true]
        omega

theorem encode_cons (c : Char) (t : Text) : encode (c :: t) = String.utf8EncodeChar c ++ encode t :=
  rfl

theorem encode_append (s t : Text) : encode (s ++ t) = encode s ++ encode t := List.flatMap_append

theorem encode_ne_nil {t : Text} (h : t ≠ []) : encode t ≠ [] := by
  obtain ⟨c, t, rfl⟩ := List.exists_cons_of_ne_nil h
  obtain ⟨lead, tail, hbytes, -⟩ := code_encodeChar c []
  simp [encode_cons, hbytes]

theorem pieces_encode (t : Text) : pieces (encode t) = t.map some := by
  induction t with
  | nil => simp [encode, pieces]
  | cons c t ih =>
      obtain ⟨lead, tail, hbytes, hcode⟩ := code_encodeChar c (encode t)
      rw [encode_cons, hbytes, List.cons_append, pieces, hcode]
      simp [ih]

/-- Every text is read back from its bytes. -/
theorem decode?_encode (t : Text) : decode? (encode t) = some t := by
  rw [decode?, pieces_encode]
  induction t with
  | nil => rfl
  | cons c t ih => simp [ih]

/-- A character of ASCII is encoded by one byte, its code, and any other by bytes above those. -/
theorem encodeChar_cases (c : Char) :
    (c.toNat < 128 ∧ String.utf8EncodeChar c = [UInt8.ofNat c.toNat]) ∨
      (128 ≤ c.toNat ∧ ∀ b ∈ String.utf8EncodeChar c, 128 ≤ b.toNat) := by
  have hhigh : ∀ n m, 128 ≤ m → n + m < 256 → 128 ≤ (UInt8.ofNat (n + m)).toNat := by
    intro n m hm hn
    simp
    omega
  have hvalid : c.toNat < 0xD800 ∨ 0xDFFF < c.toNat ∧ c.toNat < 0x110000 := c.valid
  simp only [String.utf8EncodeChar, show c.val.toNat = c.toNat from rfl]
  by_cases h1 : c.toNat ≤ 127
  · exact Or.inl ⟨by omega, if_pos h1⟩
  · refine Or.inr ⟨by omega, ?_⟩
    rw [if_neg h1]
    split
    · rw [List.forall_mem_cons, List.forall_mem_singleton]
      exact ⟨hhigh _ _ (by omega) (by omega), hhigh _ _ (by omega) (by omega)⟩
    · split
      · rw [List.forall_mem_cons, List.forall_mem_cons, List.forall_mem_singleton]
        exact ⟨hhigh _ _ (by omega) (by omega), hhigh _ _ (by omega) (by omega),
          hhigh _ _ (by omega) (by omega)⟩
      · rw [List.forall_mem_cons, List.forall_mem_cons, List.forall_mem_cons,
          List.forall_mem_singleton]
        exact ⟨hhigh _ _ (by omega) (by omega), hhigh _ _ (by omega) (by omega),
          hhigh _ _ (by omega) (by omega),
          hhigh _ _ (by omega) (by omega)⟩

/-- The byte of a line break is that of no other character. -/
theorem break_mem_encode_iff (t : Text) : (10 : UInt8) ∈ encode t ↔ '\n' ∈ t := by
  have hchar : ∀ c, (10 : UInt8) ∈ String.utf8EncodeChar c ↔ '\n' = c := by
    intro c
    constructor
    · intro hmem
      rcases encodeChar_cases c with ⟨hlow, heq⟩ | ⟨-, hhigh⟩
      · rw [heq, List.mem_singleton, ← UInt8.toNat_inj] at hmem
        have hten : 10 = c.toNat := by
          simpa [Nat.mod_eq_of_lt (show c.toNat < 256 by omega)] using hmem
        rw [← Char.ofNat_toNat c, ← hten]
      · exact absurd (hhigh _ hmem) (by decide)
    · rintro rfl
      decide
  simp [encode, List.mem_flatMap, hchar]

theorem length_encode_of_ascii {t : Text} (h : ∀ c ∈ t, c.toNat < 128) :
    (encode t).length = t.length := by
  induction t with
  | nil => rfl
  | cons c t ih =>
      rw [List.forall_mem_cons] at h
      rcases encodeChar_cases c with ⟨-, heq⟩ | ⟨hhigh, -⟩
      · simp [encode_cons, heq, ih h.2]
      · omega

end ChartPackage.Utf8
