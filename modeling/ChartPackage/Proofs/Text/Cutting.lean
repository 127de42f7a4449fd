import ChartPackage.Text.Basic
import Mathlib.Data.List.Basic
import Mathlib.Data.List.DropRight

/-!
Where a mark can stand in a text that is put together from parts, and what the cutting functions
give there. A character that the mark does not have is a wall to it: no occurrence reaches across.
-/

namespace ChartPackage.Text

theorem prefix_of_prefix_append_cons {mark a b : Text} {c : Char} (hc : c ∉ mark)
    (h : mark <+: a ++ c :: b) : mark <+: a := by
  rcases List.prefix_or_prefix_of_prefix h (List.prefix_append a (c :: b)) with hm | ⟨s, rfl⟩
  · exact hm
  · cases s with
    | nil => simp
    | cons d s =>
        have hs : d :: s <+: c :: b := (List.prefix_append_right_inj a).mp h
        obtain ⟨rfl, -⟩ := List.cons_prefix_cons.mp hs
        exact absurd (by simp) hc

/-- The ends of two texts that follow each other. -/
theorem suffix_append_cases {u a b : Text} (h : u <:+ a ++ b) :
    u <:+ b ∨ ∃ z, z ≠ [] ∧ z <:+ a ∧ u = z ++ b := by
  obtain ⟨l, hl⟩ := h
  rcases List.append_eq_append_iff.mp hl with ⟨z, rfl, rfl⟩ | ⟨z, rfl, rfl⟩
  · cases z with
    | nil => exact Or.inl List.suffix_rfl
    | cons c z => exact Or.inr ⟨c :: z, List.cons_ne_nil _ _, List.suffix_append _ _, rfl⟩
  · exact Or.inl (List.suffix_append _ _)

theorem infix_append_cons_iff {mark a b : Text} {c : Char} (hc : c ∉ mark) :
    mark <:+: a ++ c :: b ↔ mark <:+: a ∨ mark <:+: b := by
  constructor
  · intro h
    induction a with
    | nil =>
        rcases List.infix_cons_iff.mp h with hp | hi
        · exact Or.inl (prefix_of_prefix_append_cons (a := []) hc hp).isInfix
        · exact Or.inr hi
    | cons d a ih =>
        rcases List.infix_cons_iff.mp h with hp | hi
        · exact Or.inl (prefix_of_prefix_append_cons (a := d :: a) hc hp).isInfix
        · rcases ih hi with ha | hb
          · exact Or.inl (List.infix_cons ha)
          · exact Or.inr hb
  · rintro (h | h)
    · exact List.infix_append_of_infix_left h
    · exact List.infix_append_of_infix_right (List.infix_cons h)

/-- A mark that ends in a character which the text has only once ends there. -/
theorem stem_suffix_of_infix {stem u v : Text} {c : Char} (hu : c ∉ u) (hv : c ∉ v)
    (h : stem ++ [c] <:+: u ++ c :: v) : stem <:+ u := by
  obtain ⟨s, t, h⟩ := h
  have heq : u ++ c :: v = (s ++ stem) ++ c :: t := by simpa using h.symm
  obtain ⟨rfl, -, -⟩ := (List.append_cons_inj_of_notMem hu hv).mp heq
  exact List.suffix_append s stem

theorem dropLead?_append (lead rest : Text) : dropLead? lead (lead ++ rest) = some rest :=
  dropLead?_eq_some_iff.mpr rfl

theorem dropLead?_cons_of_ne {c d : Char} (h : c ≠ d) (lead t : Text) :
    dropLead? (c :: lead) (d :: t) = none := by
  simp [dropLead?, h]

theorem dropLead?_eq_none_iff {lead t : Text} : dropLead? lead t = none ↔ ¬ lead <+: t := by
  constructor
  · intro hnone hstart
    obtain ⟨rest, hrest⟩ := hstart
    rw [dropLead?_eq_some_iff.mpr hrest.symm] at hnone
    cases hnone
  · intro hstart
    cases hdrop : dropLead? lead t with
    | none => rfl
    | some rest => exact absurd ⟨rest, (dropLead?_eq_some_iff.mp hdrop).symm⟩ hstart

theorem dropTail?_eq_some_iff {tail t rest : Text} :
    dropTail? tail t = some rest ↔ t = rest ++ tail := by
  rw [dropTail?, Option.map_eq_some_iff]
  constructor
  · intro h
    obtain ⟨a, ha, rfl⟩ := h
    have heq := congrArg List.reverse (dropLead?_eq_some_iff.mp ha)
    simpa using heq
  · intro h
    refine ⟨rest.reverse, dropLead?_eq_some_iff.mpr ?_, List.reverse_reverse rest⟩
    rw [h, List.reverse_append]

theorem cut?_eq_none_iff {mark t : Text} : cut? mark t = none ↔ ¬ mark <:+: t := by
  induction t with
  | nil => rw [cut?, Option.map_eq_none_iff, dropLead?_eq_none_iff, List.infix_nil, List.prefix_nil]
  | cons c t ih =>
      rw [cut?, List.infix_cons_iff]
      split
      · next rest hrest =>
          have hstart : mark <+: c :: t := ⟨rest, (dropLead?_eq_some_iff.mp hrest).symm⟩
          simp [hstart]
      · next hnone =>
          have hstart := dropLead?_eq_none_iff.mp hnone
          rw [Option.map_eq_none_iff, ih]
          simp [hstart]

theorem not_infix_of_cut? {stem t before after : Text} {c : Char}
    (h : cut? (stem ++ [c]) t = some (before, after)) : ¬ stem ++ [c] <:+: before ++ stem := by
  induction t generalizing before with
  | nil =>
      obtain ⟨rest, hrest, -⟩ := Option.map_eq_some_iff.mp h
      have hnil := dropLead?_eq_some_iff.mp hrest
      simp at hnil
  | cons d t ih =>
      rw [cut?] at h
      split at h
      · cases h
        intro hinfix
        have hlength := hinfix.length_le
        rw [List.length_append, List.length_singleton, List.nil_append] at hlength
        omega
      · next hnone =>
          obtain ⟨⟨before', _⟩, hcut, heq⟩ := Option.map_eq_some_iff.mp h
          cases heq
          have ht : t = before' ++ stem ++ c :: after := by simpa using eq_of_cut? hcut
          rw [List.cons_append, List.infix_cons_iff]
          refine not_or.mpr ⟨fun hstart => ?_, ih hcut⟩
          apply dropLead?_eq_none_iff.mp hnone
          rw [ht]
          exact hstart.trans (List.prefix_append (d :: (before' ++ stem)) (c :: after))

theorem cut?_of_first {stem before : Text} {c : Char} (after : Text)
    (hfirst : ¬ stem ++ [c] <:+: before ++ stem) :
    cut? (stem ++ [c]) (before ++ stem ++ c :: after) = some (before, after) := by
  induction before with
  | nil =>
      have hlead : dropLead? (stem ++ [c]) (stem ++ c :: after) = some after :=
        dropLead?_eq_some_iff.mpr (by simp)
      cases stem with
      | nil =>
          rw [List.nil_append, List.nil_append] at hlead
          rw [List.nil_append, List.nil_append, List.nil_append, cut?, hlead]
      | cons d stem =>
          rw [List.cons_append, List.cons_append] at hlead
          rw [List.nil_append, List.cons_append, List.cons_append, cut?, hlead]
  | cons d before ih =>
      have hrest : ¬ stem ++ [c] <:+: before ++ stem := fun h => hfirst (List.infix_cons h)
      have hnone : dropLead? (stem ++ [c]) (d :: (before ++ stem ++ c :: after)) = none := by
        rw [dropLead?_eq_none_iff]
        intro hstart
        have hshort : stem ++ [c] <+: d :: (before ++ stem) :=
          List.prefix_of_prefix_length_le hstart
            (List.prefix_append (d :: (before ++ stem)) (c :: after)) (by simp)
        exact hfirst hshort.isInfix
      rw [List.cons_append, List.cons_append, cut?, hnone, ih hrest]
      rfl

/-- A cut is at the first occurrence of the mark. -/
theorem cut?_eq_some_iff {stem t before after : Text} {c : Char} :
    cut? (stem ++ [c]) t = some (before, after) ↔
      t = before ++ stem ++ c :: after ∧ ¬ stem ++ [c] <:+: before ++ stem := by
  constructor
  · exact fun h => ⟨by simpa using eq_of_cut? h, not_infix_of_cut? h⟩
  · intro h
    obtain ⟨rfl, hfirst⟩ := h
    exact cut?_of_first after hfirst

theorem cut?_char {t before after : Text} {c : Char} :
    cut? [c] t = some (before, after) ↔ t = before ++ c :: after ∧ c ∉ before := by
  rw [← List.nil_append [c], cut?_eq_some_iff, List.append_nil, List.nil_append]
  refine and_congr_right fun _ => not_congr ?_
  constructor
  · exact fun hinfix => hinfix.subset (List.mem_singleton_self _)
  · intro hmem
    obtain ⟨s, r, rfl⟩ := List.append_of_mem hmem
    exact ⟨s, r, by simp⟩

theorem cut?_cons_of_not_start {mark t : Text} {c : Char} (h : ¬ mark <+: c :: t) :
    cut? mark (c :: t) = (cut? mark t).map fun p => (c :: p.1, p.2) := by
  rw [cut?, dropLead?_eq_none_iff.mpr h]

/-- A text in which the mark does not start stands in front of the cut. -/
theorem cut?_append_of_not_start {mark a t : Text}
    (h : ∀ s, s ≠ [] → s <:+ a → ¬ mark <+: s ++ t) :
    cut? mark (a ++ t) = (cut? mark t).map fun p => (a ++ p.1, p.2) := by
  induction a with
  | nil => simp
  | cons c a ih =>
      have hhead : ¬ mark <+: c :: (a ++ t) := h (c :: a) (by simp) List.suffix_rfl
      rw [List.cons_append, cut?_cons_of_not_start hhead,
        ih fun s hs hsuffix => h s hs (hsuffix.trans (List.suffix_cons c a)), Option.map_map]
      rfl

/-- In front of a cut the mark starts nowhere. -/
theorem not_start_of_cut? {mark t before after : Text}
    (h : cut? mark t = some (before, after)) {s : Text}
    (hs : s ≠ []) (hsuffix : s <:+ before) : ¬ mark <+: s ++ (mark ++ after) := by
  induction t generalizing before with
  | nil =>
      obtain ⟨_, -, heq⟩ := Option.map_eq_some_iff.mp h
      cases heq
      exact absurd (List.suffix_nil.mp hsuffix) hs
  | cons c t ih =>
      have hjoin := eq_of_cut? h
      rw [cut?] at h
      split at h
      · cases h
        exact absurd (List.suffix_nil.mp hsuffix) hs
      · next hnone =>
          obtain ⟨⟨before', _⟩, hcut, heq⟩ := Option.map_eq_some_iff.mp h
          cases heq
          rcases List.suffix_cons_iff.mp hsuffix with rfl | hlater
          · rw [← List.append_assoc, ← hjoin]
            exact dropLead?_eq_none_iff.mp hnone
          · exact ih hcut hlater

theorem cut?_append {c : Char} {mark before : Text} (h : c ∉ before) (after : Text) :
    cut? (c :: mark) (before ++ c :: mark ++ after) = some (before, after) := by
  induction before with
  | nil =>
      have hlead := dropLead?_append (c :: mark) after
      simp only [List.nil_append, List.cons_append] at hlead ⊢
      rw [cut?, hlead]
  | cons d before ih =>
      obtain ⟨hne, hb⟩ := not_or.mp (mt List.mem_cons.mpr h)
      have hcut := ih hb
      simp only [List.cons_append] at hcut ⊢
      rw [cut?, dropLead?_cons_of_ne hne, hcut]
      rfl

theorem not_of_mem_splitOnP {mark : Char → Bool} {t piece : Text} (h : piece ∈ t.splitOnP mark) :
    ∀ c ∈ piece, ¬ mark c := by
  induction t generalizing piece with
  | nil => simp_all
  | cons d t ih =>
      rw [List.splitOnP_cons_eq_if_modifyHead] at h
      split at h
      · cases List.mem_cons.mp h with
        | inl h => simp [h]
        | inr h => exact ih h
      · next hd =>
          obtain ⟨first, others, heq⟩ := List.exists_cons_of_ne_nil (List.splitOnP_ne_nil mark t)
          rw [heq] at h ih
          cases List.mem_cons.mp h with
          | inl h =>
              rw [h, List.forall_mem_cons]
              exact ⟨hd, ih List.mem_cons_self⟩
          | inr h => exact ih (List.mem_cons_of_mem _ h)

theorem not_mem_of_mem_splitOn {c : Char} {t piece : Text} (h : piece ∈ t.splitOn c) :
    c ∉ piece := by
  intro hc
  exact not_of_mem_splitOnP h c hc (beq_self_eq_true c)

theorem length_splitOn (c : Char) (t : Text) : (t.splitOn c).length = t.count c + 1 := by
  induction t with
  | nil => simp
  | cons d t ih =>
      rw [List.splitOn_cons_eq_if_modifyHead]
      by_cases hd : d = c
      · simp [hd, ih]
      · simp [hd, ih]

theorem forall_mem_intercalate {P : Char → Prop} {d : Char} (hd : P d) {parts : List Text}
    (h : ∀ x ∈ parts, ∀ c ∈ x, P c) : ∀ c ∈ [d].intercalate parts, P c := by
  induction parts with
  | nil => simp
  | cons x parts ih =>
      have hx := h x (List.mem_cons_self ..)
      have hparts := ih fun y hy => h y (List.mem_cons_of_mem _ hy)
      intro c hc
      by_cases hlast : parts = []
      · rw [hlast, List.intercalate_singleton] at hc
        exact hx c hc
      · rw [List.intercalate_cons_of_ne_nil hlast] at hc
        rcases List.mem_append.mp hc with hc | hc
        · rcases List.mem_append.mp hc with hc | hc
          · exact hx c hc
          · rw [List.mem_singleton.mp hc]
            exact hd
        · exact hparts c hc

theorem not_mem_intercalate {c d : Char} (hd : c ≠ d) {parts : List Text}
    (h : ∀ x ∈ parts, c ∉ x) : c ∉ [d].intercalate parts := by
  have hne : ∀ e ∈ [d].intercalate parts, c ≠ e := by
    apply forall_mem_intercalate hd
    intro x hx e he hce
    exact h x hx (hce ▸ he)
  exact fun hc => hne c hc rfl

theorem mem_intercalate {c d : Char} {x : Text} (hc : c ∈ x) {parts : List Text} (h : x ∈ parts) :
    c ∈ [d].intercalate parts := by
  induction parts with
  | nil => cases h
  | cons y parts ih =>
      by_cases hlast : parts = []
      · subst hlast
        rw [List.mem_singleton.mp h] at hc
        simpa using hc
      · rw [List.intercalate_cons_of_ne_nil hlast, List.mem_append, List.mem_append]
        rcases List.mem_cons.mp h with rfl | h
        · exact Or.inl (Or.inl hc)
        · exact Or.inr (ih h)

theorem mem_of_mem_splitOn {c d : Char} {t x : Text} (hx : x ∈ t.splitOn d) (hc : c ∈ x) :
    c ∈ t := by
  have hmem : c ∈ [d].intercalate (t.splitOn d) := mem_intercalate hc hx
  rwa [List.intercalate_splitOn] at hmem

theorem length_le_count_intercalate (d : Char) (parts : List Text) :
    parts.length ≤ ([d].intercalate parts).count d + 1 := by
  induction parts with
  | nil => simp
  | cons x parts ih =>
      by_cases hlast : parts = []
      · simp [hlast]
      · rw [List.intercalate_cons_of_ne_nil hlast, List.count_append, List.count_append,
          List.count_singleton_self, List.length_cons]
        omega

theorem intercalate_eq_nil_iff {d : Char} {parts : List Text} (hne : parts ≠ [])
    (h : ∀ x ∈ parts, d ∉ x) : [d].intercalate parts = [] ↔ parts = [[]] := by
  constructor
  · intro hnil
    rw [← List.splitOn_intercalate d h hne, hnil, List.splitOn_nil]
  · intro hparts
    rw [hparts, List.intercalate_singleton]

/-- Lines with a line break after each. -/
def endLines (ls : List Text) : Text := ls.flatMap (· ++ ['\n'])

@[simp] theorem endLines_nil : endLines [] = [] := rfl

@[simp] theorem endLines_cons (l : Text) (ls : List Text) :
    endLines (l :: ls) = l ++ '\n' :: endLines ls := by
  simp [endLines]

theorem unlines_concat_nil (ls : List Text) : unlines (ls ++ [[]]) = endLines ls := by
  induction ls with
  | nil => rfl
  | cons l ls ih =>
      rw [List.cons_append, unlines, List.intercalate_cons_of_ne_nil (by simp)]
      simpa [unlines] using ih

theorem lines_of_no_break {t : Text} (h : '\n' ∉ t) : lines t = [t] := by
  rw [lines, List.splitOn_eq_splitOnP]
  exact List.splitOnP_eq_singleton fun c hc => beq_false_of_ne fun heq => h (heq ▸ hc)

theorem lines_append_break (a b : Text) : lines (a ++ '\n' :: b) = lines a ++ lines b :=
  List.splitOnP_append_cons a b (beq_self_eq_true _)

theorem lines_endLines_append {ls : List Text} (h : ∀ l ∈ ls, '\n' ∉ l) (t : Text) :
    lines (endLines ls ++ t) = ls ++ lines t := by
  induction ls with
  | nil => rfl
  | cons l ls ih =>
      obtain ⟨hl, hls⟩ := List.forall_mem_cons.mp h
      rw [endLines_cons, List.append_assoc, List.cons_append, lines_append_break,
        lines_of_no_break hl, ih hls]
      rfl

theorem lines_endLines {ls : List Text} (h : ∀ l ∈ ls, '\n' ∉ l) :
    lines (endLines ls) = ls ++ [[]] := by
  rw [← List.append_nil (endLines ls), lines_endLines_append h]
  rfl

/-! Ends of trimmed texts. -/

theorem mem_trimLeft {blank : Char → Bool} {t : Text} {c : Char} (hc : c ∈ t)
    (hink : blank c = false) :
    c ∈ trimLeft blank t := by
  rw [← List.takeWhile_append_dropWhile (p := blank) (l := t)] at hc
  rcases List.mem_append.mp hc with hc | hc
  · exact absurd (List.mem_takeWhile_imp hc) (by simp [hink])
  · exact hc

theorem mem_trim {blank : Char → Bool} {t : Text} {c : Char} (hc : c ∈ t) (hink : blank c = false) :
    c ∈ trim blank t :=
  List.mem_reverse.mpr (mem_trimLeft (List.mem_reverse.mpr (mem_trimLeft hc hink)) hink)

theorem trim_infix (blank : Char → Bool) (t : Text) : trim blank t <:+: t :=
  (List.rdropWhile_prefix blank (trimLeft blank t)).isInfix.trans
    (List.dropWhile_suffix blank).isInfix

/-- Neither the first nor the last character is blank. -/
def Trimmed (blank : Char → Bool) (t : Text) : Prop :=
  (∀ c ∈ t.head?, blank c = false) ∧ ∀ c ∈ t.getLast?, blank c = false

theorem trimLeft_of_head {blank : Char → Bool} {t : Text} (h : ∀ c ∈ t.head?, blank c = false) :
    trimLeft blank t = t := by
  cases t with
  | nil => rfl
  | cons c t => rw [trimLeft, List.dropWhile_cons_of_neg (by simp [h c rfl])]

theorem Trimmed.trim_eq {blank : Char → Bool} {t : Text} (h : Trimmed blank t) :
    trim blank t = t := by
  have hlast : trimLeft blank t.reverse = t.reverse :=
    trimLeft_of_head fun c hc => h.2 c (by rwa [List.head?_reverse] at hc)
  rw [trim, trimLeft_of_head h.1, trimRight]
  exact List.reverse_eq_iff.mpr hlast

theorem trim_eq_self {blank : Char → Bool} {t : Text} (h : ∀ c ∈ t, blank c = false) :
    trim blank t = t :=
  Trimmed.trim_eq ⟨fun c hc => h c (List.mem_of_mem_head? hc), fun c hc =>
    h c (List.mem_of_mem_getLast? hc)⟩

theorem head_trimLeft {blank : Char → Bool} {t : Text} :
    ∀ c ∈ (trimLeft blank t).head?, blank c = false := by
  intro c hc
  induction t with
  | nil => cases hc
  | cons d t ih =>
      rw [trimLeft, List.dropWhile_cons] at hc
      split at hc
      · exact ih hc
      · next hd =>
          obtain rfl := Option.some.inj hc
          exact Bool.not_eq_true _ ▸ hd

theorem trimmed_trim (blank : Char → Bool) (t : Text) : Trimmed blank (trim blank t) := by
  constructor
  · intro c hc
    obtain ⟨rest, hrest⟩ := List.rdropWhile_prefix blank (trimLeft blank t)
    have hne : trim blank t ≠ [] := by
      intro hnil
      rw [hnil] at hc
      cases hc
    have hlead : (trimLeft blank t).head? = (trim blank t).head? := by
      rw [← hrest]
      exact List.head?_append_of_ne_nil _ hne
    exact head_trimLeft c (hlead ▸ hc)
  · intro c hc
    rw [trim, trimRight, List.getLast?_reverse] at hc
    exact head_trimLeft c hc

theorem trimmed_iff {blank : Char → Bool} {t : Text} : Trimmed blank t ↔ trim blank t = t :=
  ⟨Trimmed.trim_eq, fun h => h ▸ trimmed_trim blank t⟩

instance (blank : Char → Bool) (t : Text) : Decidable (Trimmed blank t) :=
  decidable_of_iff _ trimmed_iff.symm

/-- Blanks around a trimmed text. -/
theorem Trimmed.trim_padded {blank : Char → Bool} {p t q : Text} (h : Trimmed blank t)
    (hne : t ≠ [])
    (hp : ∀ c ∈ p, blank c = true) (hq : ∀ c ∈ q, blank c = true) :
      trim blank (p ++ t ++ q) = t := by
  have hhead : ∀ c ∈ (t ++ q).head?, blank c = false := by
    rw [List.head?_append_of_ne_nil _ hne]
    exact h.1
  have hleft : trimLeft blank (p ++ (t ++ q)) = t ++ q := by
    rw [trimLeft, List.dropWhile_append_of_pos hp]
    exact trimLeft_of_head hhead
  have hright : trimRight blank (t ++ q) = trimRight blank t := by
    rw [trimRight, List.reverse_append, List.dropWhile_append_of_pos fun c hc =>
      hq c (List.mem_reverse.mp hc)]
    rfl
  have hself := h.trim_eq
  rw [trim, trimLeft_of_head h.1] at hself
  rw [trim, List.append_assoc, hleft, hright, hself]

/-! Marks and separators. -/

theorem splitOn_append_of_not_mem {c : Char} {a : Text} (ha : c ∉ a) (t : Text) :
    (a ++ t).splitOn c = (t.splitOn c).modifyHead (a ++ ·) := by
  induction a with
  | nil =>
      rw [List.nil_append]
      generalize t.splitOn c = parts
      cases parts with
      | nil => rfl
      | cons head parts => rfl
  | cons d a ih =>
      obtain ⟨hd, hrest⟩ := not_or.mp (mt List.mem_cons.mpr ha)
      have hne : (d == c) = false := beq_false_of_ne (Ne.symm hd)
      rw [List.cons_append, List.splitOn_cons_eq_if_modifyHead, hne, ih hrest]
      generalize t.splitOn c = parts
      cases parts with
      | nil => rfl
      | cons head parts => rfl

theorem infix_intercalate (d : Char) {x : Text} {parts : List Text} (h : x ∈ parts) :
    x <:+: [d].intercalate parts := by
  induction parts with
  | nil => cases h
  | cons y parts ih =>
      by_cases hlast : parts = []
      · subst hlast
        have hone : [d].intercalate [y] = x := by
          rw [List.intercalate_singleton, List.mem_singleton.mp h]
        exact hone ▸ List.infix_rfl
      · rw [List.intercalate_cons_of_ne_nil hlast]
        rcases List.mem_cons.mp h with rfl | h
        · exact List.infix_append_of_infix_left (List.infix_append_of_infix_left List.infix_rfl)
        · exact List.infix_append_of_infix_right (ih h)

/-- A mark without the separator stands in one of the parts. -/
theorem not_infix_intercalate {mark : Text} {d : Char} (hne : mark ≠ []) (hd : d ∉ mark)
    {parts : List Text}
    (h : ∀ x ∈ parts, ¬ mark <:+: x) : ¬ mark <:+: [d].intercalate parts := by
  induction parts with
  | nil =>
      rw [List.intercalate_nil, List.infix_nil]
      exact hne
  | cons x parts ih =>
      obtain ⟨hx, hparts⟩ := List.forall_mem_cons.mp h
      by_cases hlast : parts = []
      · rwa [hlast, List.intercalate_singleton]
      · rw [List.intercalate_cons_of_ne_nil hlast, List.append_assoc, List.singleton_append,
          infix_append_cons_iff hd]
        exact not_or.mpr ⟨hx, ih hparts⟩

/-! Relations between texts that keep every character but one. -/

/-- Two related texts go on with the same character, unless it is the exempt one. -/
def Keeps (exempt : Char) (R : Text → Text → Prop) : Prop :=
  ∀ c s u, c ≠ exempt → R (c :: s) u → ∃ t, u = c :: t ∧ R s t

theorem Keeps.append {exempt : Char} {R : Text → Text → Prop} (hR : Keeps exempt R) {k s u : Text}
    (hk : exempt ∉ k) (h : R (k ++ s) u) : ∃ t, u = k ++ t ∧ R s t := by
  induction k generalizing u with
  | nil => exact ⟨u, rfl, h⟩
  | cons c k ih =>
      obtain ⟨hc, hrest⟩ := not_or.mp (mt List.mem_cons.mpr hk)
      obtain ⟨v, rfl, hv⟩ := hR c (k ++ s) u (Ne.symm hc) h
      obtain ⟨t, rfl, ht⟩ := ih hrest hv
      exact ⟨t, rfl, ht⟩

theorem Keeps.prefix_of {exempt : Char} {R : Text → Text → Prop} (hR : Keeps exempt R)
    {k s t : Text}
    (hk : exempt ∉ k) (h : R s t) (hs : k <+: s) : k <+: t := by
  obtain ⟨r, rfl⟩ := hs
  obtain ⟨r', rfl, -⟩ := hR.append hk h
  exact List.prefix_append _ _

end ChartPackage.Text
