import Mathlib
import ChartPackage.Song.Id

/-!
Song ids character by character. Lower case depends on what stands around a character for sigma
only, and neither form of it is a character of ids. Apart from the ASCII letters and digits only the
dotted I and the Kelvin sign leave anything; so an id is put together from what each character
leaves, and lower case leaves the same.
-/

namespace ChartPackage

/-- What a character of a folder's name leaves in the id. -/
def songIdForm (c : Char) : Text :=
  if c = 'İ' then ['i'] else if c = '\u212A' then ['k'] else [c.toLower].filter isSongIdChar

/-! ### The characters of ids -/

theorem songId_char {folder : Text} {c : Char} (h : c ∈ songId folder) : isSongIdChar c = true :=
  List.of_mem_filter h

theorem not_mem_songId {c : Char} (h : isSongIdChar c = false) (folder : Text) :
    c ∉ songId folder := by
  intro hc
  rw [songId_char hc] at h
  cases h

theorem isSongIdChar_iff {c : Char} :
    isSongIdChar c = true ↔ ('a' ≤ c ∧ c ≤ 'z') ∨ ('0' ≤ c ∧ c ≤ '9') := by
  simp only [isSongIdChar, Char.isLower, Char.isDigit, Bool.or_eq_true, Bool.and_eq_true,
    decide_eq_true_eq]
  rfl

theorem bounds_of_isSongIdChar {c : Char} (h : isSongIdChar c = true) :
    c.toNat < 128 ∧ ¬ (0x41 ≤ c.toNat ∧ c.toNat ≤ 0x5A) := by
  have hbounds : (0x61 ≤ c.toNat ∧ c.toNat ≤ 0x7A) ∨ (0x30 ≤ c.toNat ∧ c.toNat ≤ 0x39) :=
    isSongIdChar_iff.mp h
  omega

theorem toLower_of_not_capital {c : Char} (h : ¬ (0x41 ≤ c.toNat ∧ c.toNat ≤ 0x5A)) :
    c.toLower = c := by
  rw [Char.toLower, dif_neg]
  exact h

theorem songIdForm_of_isSongIdChar {c : Char} (h : isSongIdChar c = true) : songIdForm c = [c] := by
  obtain ⟨hascii, hcapital⟩ := bounds_of_isSongIdChar h
  have hne : ∀ d : Char, 128 ≤ d.toNat → c ≠ d := fun d hd heq => by
    rw [heq] at hascii
    omega
  rw [songIdForm, if_neg (hne _ (by decide)), if_neg (hne _ (by decide)),
    toLower_of_not_capital hcapital,
    List.filter_cons_of_pos h, List.filter_nil]

/-- Outside ASCII two characters leave a letter. -/
theorem songIdForm_of_high {c : Char} (hhigh : 128 ≤ c.toNat) (hdot : c ≠ 'İ')
    (hkelvin : c ≠ '\u212A') :
    songIdForm c = [] := by
  have hchar : ¬ isSongIdChar c = true := fun h => by
    have hascii := (bounds_of_isSongIdChar h).1
    omega
  rw [songIdForm, if_neg hdot, if_neg hkelvin, toLower_of_not_capital (by omega),
    List.filter_cons_of_neg hchar,
    List.filter_nil]

theorem songIdForm_ofNat {n : Nat} (hhigh : 128 ≤ n) (hdot : n ≠ 0x130) (hkelvin : n ≠ 0x212A) :
    songIdForm (Char.ofNat n) = [] := by
  by_cases hvalid : n.isValidChar
  · have hn : (Char.ofNat n).toNat = n := by rw [Char.toNat_ofNat, if_pos hvalid]
    refine songIdForm_of_high (by omega) (fun heq => hdot ?_) fun heq => hkelvin ?_
    · rw [← hn, heq]
      rfl
    · rw [← hn, heq]
      rfl
  · have hzero : Char.ofNat n = '\x00' := by
      rw [Char.ofNat, dif_neg hvalid]
      rfl
    rw [hzero]
    decide

theorem not_isSongIdChar_of_form {c : Char} (h : songIdForm c = []) : ¬ isSongIdChar c = true := by
  intro hchar
  rw [songIdForm_of_isSongIdChar hchar] at h
  cases h

theorem songIdForm_capital : ∀ n : Nat, n < 0x5B → 0x41 ≤ n →
    [Char.ofNat ((n : Int) + 32).toNat].flatMap songIdForm = songIdForm (Char.ofNat n) ∧
      [Char.ofNat ((n : Int) + 32).toNat].filter isSongIdChar = songIdForm (Char.ofNat n) := by
  decide

/-! ### Lower case -/

namespace LowerCase

/-- Code points outside ASCII without the two that leave a letter. -/
def Mute (first last : Int) : Prop :=
  128 ≤ first ∧ (last < 0x130 ∨ 0x130 < first) ∧ (last < 0x212A ∨ 0x212A < first)

instance (first last : Int) : Decidable (Mute first last) := inferInstanceAs (Decidable (_ ∧ _))

theorem lowerRuns_mute : ∀ run ∈ CaseTable.lowerRuns,
    run = (0x41, 0x5A, 1, 32) ∨ (run.1 = 0x212A ∧ run.2.1 = 0x212A) ∨
      128 ≤ run.1 ∧ Mute (run.1 + run.2.2.2) (run.2.1 + run.2.2.2) := by
  decide +kernel

theorem shift?_cases {c : Char} {distance : Int} (h : shift? c = some distance) :
    (0x41 ≤ c.toNat ∧ c.toNat ≤ 0x5A ∧ distance = 32) ∨ c.toNat = 0x212A ∨
      128 ≤ c.toNat ∧ Mute (c.toNat + distance) (c.toNat + distance) := by
  obtain ⟨⟨first, last, step, d⟩, hrun, hfound⟩ := List.exists_of_findSome?_eq_some h
  rw [Option.ite_none_right_eq_some, Option.some.injEq] at hfound
  obtain ⟨⟨hfirst, hlast, -⟩, rfl⟩ := hfound
  have hcases : _ ∨ (first = 0x212A ∧ last = 0x212A) ∨ 128 ≤ first ∧ Mute (first + d) (last + d) :=
    lowerRuns_mute _ hrun
  rcases hcases with heq | ⟨rfl, rfl⟩ | ⟨hhigh, hmute⟩
  · cases heq
    exact Or.inl ⟨hfirst, hlast, rfl⟩
  · exact Or.inr (Or.inl (Nat.le_antisymm hlast hfirst))
  · simp only [Mute] at hmute ⊢
    omega

theorem not_capital {c : Char} (h : shift? c = none) : ¬ (0x41 ≤ c.toNat ∧ c.toNat ≤ 0x5A) := by
  rintro ⟨hlow, hhigh⟩
  have hrun : (0x41, 0x5A, 1, 32) ∈ CaseTable.lowerRuns := List.mem_cons_self ..
  have hnone : (if 0x41 ≤ c.toNat ∧ c.toNat ≤ 0x5A ∧
      (c.toNat - 0x41) % 1 = 0 then some (32 : Int) else none) =
      none := List.findSome?_eq_none_iff.mp h _ hrun
  rw [if_pos ⟨hlow, hhigh, Nat.mod_one _⟩] at hnone
  cases hnone

/-- A character leaves what its lower-case form leaves. -/
theorem songIdForm_char (c : Char) :
    (char c).flatMap songIdForm = songIdForm c ∧ (char c).filter isSongIdChar = songIdForm c := by
  by_cases hdot : c = 'İ'
  · rw [hdot]
    decide
  by_cases hkelvin : c = '\u212A'
  · rw [hkelvin]
    decide +kernel
  rw [char, if_neg hdot]
  cases hshift : shift? c with
  | none =>
      refine ⟨List.flatMap_singleton .., ?_⟩
      rw [songIdForm, if_neg hdot, if_neg hkelvin, toLower_of_not_capital (not_capital hshift)]
  | some distance =>
      rcases shift?_cases hshift with ⟨hlow, hhigh, rfl⟩ | hcode | ⟨hhigh, hmute⟩
      · simpa using songIdForm_capital c.toNat (Nat.lt_succ_of_le hhigh) hlow
      · exact absurd (Char.toNat_inj.mp hcode) hkelvin
      · simp only [Mute] at hmute
        have hform := songIdForm_ofNat (n := ((c.toNat : Int) + distance).toNat) (by omega)
          (by omega) (by omega)
        have hchar := not_isSongIdChar_of_form hform
        simp [hform, hchar, songIdForm_of_high hhigh hdot hkelvin]

/-- Neither form of sigma leaves anything. -/
theorem songIdForm_after (before t : Text) :
    (after before t).flatMap songIdForm = t.flatMap songIdForm ∧
      (after before t).filter isSongIdChar = t.flatMap songIdForm := by
  induction t generalizing before with
  | nil => exact ⟨rfl, rfl⟩
  | cons c rest ih =>
      obtain ⟨hforms, hchars⟩ := ih (c :: before)
      rw [after, List.flatMap_append, List.filter_append, hforms, hchars, List.flatMap_cons]
      split
      · next hsigma =>
          rw [hsigma]
          split
          · exact ⟨rfl, rfl⟩
          · exact ⟨rfl, rfl⟩
      · rw [(songIdForm_char c).1, (songIdForm_char c).2]
        exact ⟨rfl, rfl⟩

end LowerCase

theorem songId_eq_flatMap (folder : Text) : songId folder = folder.flatMap songIdForm :=
  (LowerCase.songIdForm_after [] folder).2

theorem flatMap_songIdForm {t : Text} (h : ∀ c ∈ t, isSongIdChar c = true) :
    t.flatMap songIdForm = t := by
  induction t with
  | nil => rfl
  | cons c t ih =>
      obtain ⟨hc, ht⟩ := List.forall_mem_cons.mp h
      rw [List.flatMap_cons, songIdForm_of_isSongIdChar hc, ih ht, List.singleton_append]

/-- The id of a folder is what its characters leave one by one; it has ASCII letters and digits
only, is its own id, and is that of the name in lower case. -/
theorem songId_append (a b : Text) :
    songId (a ++ b) = songId a ++ songId b ∧
      (∀ c ∈ songId a, ('a' ≤ c ∧ c ≤ 'z') ∨ ('0' ≤ c ∧ c ≤ '9')) ∧
      songId (songId a) = songId a ∧
      songId a.lowerCase = songId a ∧
      songId a = a.flatMap songIdForm := by
  refine ⟨?_, fun c hc => isSongIdChar_iff.mp (songId_char hc), ?_, ?_, songId_eq_flatMap a⟩
  · simp only [songId_eq_flatMap, List.flatMap_append]
  · rw [songId_eq_flatMap (songId a), flatMap_songIdForm fun _ => songId_char]
  · rw [songId_eq_flatMap, songId_eq_flatMap]
    exact (LowerCase.songIdForm_after [] a).1

end ChartPackage
