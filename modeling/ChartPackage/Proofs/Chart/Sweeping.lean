import Mathlib
import ChartPackage.Proofs.Chart.Chunks
import ChartPackage.Proofs.Text.Slices

/-!
The scan as a sweep with two marks on the text, which count bytes: up to the first it has been
written out, and behind the second the next statement is looked for. A failed occurrence of the
keyword moves the second mark by one byte, a statement moves both to its end, and the text behind
the first is written out last. The sweep always ends. It breaks off where a mark gets into the
inside of a character; otherwise it writes the tiling by the leftmost statements, the only one.
-/

namespace ChartPackage

/-- A length in bytes, told at the keyword, covers the keyword and ends within the text. -/
def Covers (keyword : Text) (measure : Text → Option Nat) : Prop :=
  ∀ (t : Text) n, keyword <+: t → measure t = some n → keyword.size ≤ n ∧ n ≤ t.size

/-- A length in bytes as one in characters, if it ends behind a character. -/
def inCharacters (measure : Text → Option Nat) (t : Text) : Option Nat := do
  let (front, _) ← t.splitBytes? (← measure t)
  return front.length

/-- A length in characters as one in bytes. -/
def inBytes (extent : Text → Option Nat) (t : Text) : Option Nat :=
  (extent t).map fun n => Text.size (t.take n)

def StartsWithByte (t : Text) : Prop := t.head?.map Char.utf8Size = some 1

instance (t : Text) : Decidable (StartsWithByte t) := inferInstanceAs (Decidable (_ = _))

/-- What holds wherever the keyword starts in a gap that has a certain text behind it. -/
def Along (keyword : Text) (passed : Text → Prop) (gap rest : Text) : Prop :=
  ∀ s, s ≠ [] → s <:+ gap → keyword <+: s ++ rest → passed (s ++ rest)

section
variable {keyword : Text} {measure : Text → Option Nat} {passed : Text → Prop}

theorem inCharacters_of_none {t : Text} (h : measure t = none) : inCharacters measure t = none := by
  simp [inCharacters, h]

theorem inCharacters_statement {statement rest : Text}
    (h : measure (statement ++ rest) = some statement.size) :
    inCharacters measure (statement ++ rest) = some statement.length := by
  simp [inCharacters, h, Text.splitBytes?_size]

theorem exists_of_inCharacters {t : Text} {n : Nat} (h : inCharacters measure t = some n) :
    ∃ statement rest, t = statement ++ rest ∧ statement.length = n ∧
      measure t = some statement.size := by
  obtain ⟨size, hsize, h⟩ := Option.bind_eq_some_iff.mp h
  obtain ⟨⟨statement, rest⟩, hsplit, h⟩ := Option.bind_eq_some_iff.mp h
  obtain rfl : statement.length = n := Option.some.inj h
  obtain ⟨ht, rfl⟩ := Text.splitBytes?_eq_some_iff.mp hsplit
  exact ⟨statement, rest, ht, rfl, hsize⟩

theorem splitBytes?_of_torn {t : Text} {n : Nat} (h : inCharacters measure t = none)
    (hn : measure t = some n) : t.splitBytes? n = none := by
  cases hsplit : t.splitBytes? n with
  | none => rfl
  | some p => simp [inCharacters, hn, hsplit] at h

theorem inCharacters_inBytes {extent : Text → Option Nat}
    (h : ∀ t n, extent t = some n → n ≤ t.length) : inCharacters (inBytes extent) = extent := by
  funext t
  cases hextent : extent t with
  | none => exact inCharacters_of_none (by simp [inBytes, hextent])
  | some n =>
      have hmeasure : inBytes extent (t.take n ++ t.drop n) = some (Text.size (t.take n)) := by
        simp [inBytes, hextent]
      have hlength := inCharacters_statement hmeasure
      rwa [List.take_append_drop, List.length_take_of_le (h t n hextent)] at hlength

theorem Covers.starts_statement (hcovers : Covers keyword measure) {statement later : Text}
    (hk : keyword <+: statement ++ later)
    (hmeasure : measure (statement ++ later) = some statement.size) : keyword <+: statement := by
  refine (List.prefix_or_prefix_of_prefix hk (List.prefix_append statement later)).elim id ?_
  rintro ⟨more, rfl⟩
  have hle := (hcovers _ _ hk hmeasure).1
  rw [Text.size_append] at hle
  cases more with
  | nil => rw [List.append_nil]
  | cons c more => exact absurd (Text.size_pos (List.cons_ne_nil c more)) (by omega)

theorem ne_nil_of_start (hkeyword : keyword ≠ []) {statement : Text} (hk : keyword <+: statement) :
    statement ≠ [] :=
  fun hnil => hkeyword (List.prefix_nil.mp (hnil ▸ hk))

theorem Along.mono {more : Text → Prop} {gap rest : Text} (h : Along keyword passed gap rest)
    (hmore : ∀ t, passed t → more t) : Along keyword more gap rest :=
  fun s hs hsuffix hk => hmore _ (h s hs hsuffix hk)

theorem along_nil {rest : Text} : Along keyword passed [] rest :=
  fun _ hs hsuffix => absurd (List.suffix_nil.mp hsuffix) hs

theorem along_single_iff {c : Char} {rest : Text} :
    Along keyword passed [c] rest ↔ (keyword <+: c :: rest → passed (c :: rest)) := by
  refine ⟨fun h => h [c] (List.cons_ne_nil c []) List.suffix_rfl, fun h s hs hsuffix => ?_⟩
  rcases List.suffix_cons_iff.mp hsuffix with rfl | hsuffix
  · exact h
  · exact absurd (List.suffix_nil.mp hsuffix) hs

theorem along_append_iff {a b rest : Text} :
    Along keyword passed (a ++ b) rest ↔
      Along keyword passed a (b ++ rest) ∧ Along keyword passed b rest := by
  constructor
  · refine fun h => ⟨fun s hs hsuffix hk => ?_, fun s hs hsuffix hk => ?_⟩
    · rw [← List.append_assoc] at hk ⊢
      exact h (s ++ b) (by simp [hs])
        ((List.suffix_append_inj_of_length_eq rfl).mpr ⟨hsuffix, rfl⟩) hk
    · exact h s hs (hsuffix.trans (List.suffix_append a b)) hk
  · rintro ⟨ha, hb⟩ s hs hsuffix hk
    rcases Text.suffix_append_cases hsuffix with hlater | ⟨z, hz, hfront, rfl⟩
    · exact hb s hs hlater hk
    · rw [List.append_assoc] at hk ⊢
      exact ha z hz hfront hk

theorem Along.idle (hpassed : ∀ t, passed t → measure t = none) {gap rest : Text}
    (h : Along keyword passed gap rest) : Idle keyword (inCharacters measure) gap rest :=
  h.mono fun t ht => inCharacters_of_none (hpassed t ht)

theorem along_of_cut?_none {t : Text} (h : Text.cut? keyword t = none) :
    Along keyword passed t [] := by
  intro s _ hsuffix hk
  rw [List.append_nil] at hk
  exact absurd (hk.isInfix.trans hsuffix.isInfix) (Text.cut?_eq_none_iff.mp h)

theorem along_of_cut? {t before after : Text} (h : Text.cut? keyword t = some (before, after)) :
    Along keyword passed before (keyword ++ after) :=
  fun _ hs hsuffix hk => absurd hk (Text.not_start_of_cut? h hs hsuffix)

/-- Looking for statements: the text is without the keyword, or at its first occurrence there is
no whole statement, or there is one and the search goes on behind it. -/
theorem search_induction (hkeyword : keyword ≠ []) (hcovers : Covers keyword measure)
    {P : Text → Prop} (absent : ∀ t, Text.cut? keyword t = none → P t)
    (failed : ∀ before after c rest,
      Text.cut? keyword (before ++ c :: rest) = some (before, after) →
      keyword <+: c :: rest → (∀ passed, Along keyword passed before (c :: rest)) →
      inCharacters measure (c :: rest) = none → P rest → P (before ++ c :: rest))
    (found : ∀ before after statement rest,
      Text.cut? keyword (before ++ (statement ++ rest)) = some (before, after) →
      keyword <+: statement → (∀ passed, Along keyword passed before (statement ++ rest)) →
      measure (statement ++ rest) = some statement.size → P rest →
      P (before ++ (statement ++ rest)))
    (t : Text) : P t := by
  induction hn : t.length using Nat.strongRecOn generalizing t with
  | ind n ih =>
      subst hn
      cases hcut : Text.cut? keyword t with
      | none => exact absent t hcut
      | some p =>
          obtain ⟨before, after⟩ := p
          have halong : ∀ passed, Along keyword passed before (keyword ++ after) :=
            fun _ => along_of_cut? hcut
          have hk : keyword <+: keyword ++ after := List.prefix_append keyword after
          have ht := Text.eq_of_cut? hcut
          rw [List.append_assoc] at ht
          cases hextent : inCharacters measure (keyword ++ after) with
          | none =>
              obtain ⟨c, rest, hstart⟩ :=
                List.exists_cons_of_ne_nil (List.append_ne_nil_of_left_ne_nil hkeyword after)
              rw [hstart] at ht halong hextent hk
              subst ht
              exact failed before after c rest hcut hk halong hextent
                (ih rest.length (by simp; omega) rest rfl)
          | some n =>
              obtain ⟨statement, rest, hstart, -, hmeasure⟩ := exists_of_inCharacters hextent
              rw [hstart] at ht halong hmeasure hk
              subst ht
              have hstatement := hcovers.starts_statement hk hmeasure
              have hpos := List.length_pos_of_ne_nil (ne_nil_of_start hkeyword hstatement)
              exact found before after statement rest hcut hstatement halong hmeasure
                (ih rest.length (by simp; omega) rest rfl)

end

namespace Tiling

/-- The statements are as long as measured where the keyword stands, and something holds of every
text with the keyword in the gaps between them and in the tail. -/
inductive Found (keyword : Text) (measure : Text → Option Nat) (passed : Text → Prop) :
    Tiling → Prop where
  | tail {tail : Text} :
      Along keyword passed tail [] → Found keyword measure passed ⟨[], tail⟩
  | part {gap statement tail : Text} {parts : List (Text × Text)} :
      Along keyword passed gap (statement ++ text ⟨parts, tail⟩) →
      keyword <+: statement ++ text ⟨parts, tail⟩ →
      measure (statement ++ text ⟨parts, tail⟩) = some statement.size →
      Found keyword measure passed ⟨parts, tail⟩ →
      Found keyword measure passed ⟨(gap, statement) :: parts, tail⟩

/-- The statements are the leftmost ones: none starts in a gap between them or in the tail. -/
def Leftmost (keyword : Text) (measure : Text → Option Nat) : Tiling → Prop :=
  Found keyword measure fun t => measure t = none

/-- A sweep gets through: what is no statement it can pass over by a single byte. -/
def Swept (keyword : Text) (measure : Text → Option Nat) : Tiling → Prop :=
  Found keyword measure fun t => measure t = none ∧ StartsWithByte t

theorem part_eq (gap statement tail : Text) (parts : List (Text × Text)) :
    (⟨(gap, statement) :: parts, tail⟩ : Tiling) =
      (Tiling.cons statement ⟨parts, tail⟩).lead gap := by
  simp [lead, cons]

theorem text_part (gap statement tail : Text) (parts : List (Text × Text)) :
    text ⟨(gap, statement) :: parts, tail⟩ = gap ++ (statement ++ text ⟨parts, tail⟩) := by
  simp [text]

section
variable {keyword : Text} {measure : Text → Option Nat} {passed : Text → Prop}

theorem found_lead_iff {gap : Text} {t : Tiling} :
    (t.lead gap).Found keyword measure passed ↔
      Along keyword passed gap t.text ∧ t.Found keyword measure passed := by
  obtain ⟨_ | ⟨⟨front, statement⟩, parts⟩, tail⟩ := t
  · constructor
    · rintro (htail | -)
      obtain ⟨hgap, htail⟩ := along_append_iff.mp htail
      exact ⟨by simpa [text] using hgap, .tail htail⟩
    · rintro ⟨hgap, htail | -⟩
      exact .tail (along_append_iff.mpr ⟨by simpa [text] using hgap, htail⟩)
  · rw [text_part]
    constructor
    · rintro (- | ⟨hfront, hk, hmeasure, hlater⟩)
      obtain ⟨hgap, hfront⟩ := along_append_iff.mp hfront
      exact ⟨hgap, .part hfront hk hmeasure hlater⟩
    · rintro ⟨hgap, - | ⟨hfront, hk, hmeasure, hlater⟩⟩
      exact .part (along_append_iff.mpr ⟨hgap, hfront⟩) hk hmeasure hlater

theorem found_cons_iff {statement : Text} {t : Tiling} :
    (t.cons statement).Found keyword measure passed ↔
      keyword <+: statement ++ t.text ∧ measure (statement ++ t.text) = some statement.size ∧
        t.Found keyword measure passed := by
  constructor
  · rintro (- | ⟨-, hk, hmeasure, hlater⟩)
    exact ⟨hk, hmeasure, hlater⟩
  · rintro ⟨hk, hmeasure, hlater⟩
    exact .part along_nil hk hmeasure hlater

theorem Found.mono {more : Text → Prop} {t : Tiling} (h : t.Found keyword measure passed)
    (hmore : ∀ t, passed t → more t) : t.Found keyword measure more := by
  induction h with
  | tail htail => exact .tail (htail.mono hmore)
  | part hgap hk hmeasure _ ih => exact .part (hgap.mono hmore) hk hmeasure ih

theorem Swept.leftmost {t : Tiling} (h : t.Swept keyword measure) : t.Leftmost keyword measure :=
  Found.mono h fun _ => And.left

/-- A tiling by the leftmost statements is what a scan of its text finds. -/
theorem Leftmost.scan_eq (hkeyword : keyword ≠ []) (hcovers : Covers keyword measure) {t : Tiling}
    (h : t.Leftmost keyword measure) : scan keyword (inCharacters measure) t.text = t := by
  induction h with
  | @tail tail htail =>
      rw [text, List.flatMap_nil, List.nil_append, scan_gap_alone (htail.idle fun _ => id)]
  | @part gap statement tail parts hgap hk hmeasure _ ih =>
      have hstart := hcovers.starts_statement hk hmeasure
      rw [text_part, scan_gap (hgap.idle fun _ => id),
        scan_statement hstart (ne_nil_of_start hkeyword hstart) (inCharacters_statement hmeasure),
        ih, part_eq]

/-- Where the keyword starts with a single byte and all lengths end behind a character, a sweep
gets through. -/
theorem swept_scan (hkeyword : keyword ≠ []) (hcovers : Covers keyword measure)
    (hbyte : StartsWithByte keyword)
    (hwhole : ∀ (s : Text) n, keyword <+: s → measure s = some n → (s.splitBytes? n).isSome)
    (t : Text) :
    (scan keyword (inCharacters measure) t).Swept keyword measure := by
  induction t using search_induction hkeyword hcovers with
  | absent t hcut =>
      have halong : ∀ passed, Along keyword passed t [] := fun _ => along_of_cut?_none hcut
      rw [scan_gap_alone ((halong _).idle fun _ => id)]
      exact .tail (halong _)
  | failed before after c rest _ hk halong hextent ih =>
      have hfail : measure (c :: rest) = none := by
        cases hmeasure : measure (c :: rest) with
        | none => rfl
        | some n =>
            have hsome := hwhole _ n hk hmeasure
            rw [splitBytes?_of_torn hextent hmeasure] at hsome
            cases hsome
      have hstart : StartsWithByte (c :: rest) := by
        obtain ⟨d, key, rfl⟩ := List.exists_cons_of_ne_nil hkeyword
        obtain ⟨rfl, -⟩ := List.cons_prefix_cons.mp hk
        exact hbyte
      have hgap := along_append_iff.mpr
        ⟨halong fun t => measure t = none ∧ StartsWithByte t,
          along_single_iff.mpr fun _ => ⟨hfail, hstart⟩⟩
      rw [List.append_cons, scan_gap (hgap.idle fun _ => And.left)]
      exact found_lead_iff.mpr ⟨by rwa [text_scan], ih⟩
  | found before after statement rest _ hk halong hmeasure ih =>
      rw [scan_gap ((halong _).idle fun _ => id),
        scan_statement hk (ne_nil_of_start hkeyword hk) (inCharacters_statement hmeasure)]
      rw [Swept, found_lead_iff, found_cons_iff, text_cons, text_scan]
      exact ⟨halong _, hk.trans (List.prefix_append statement rest), hmeasure, ih⟩

end

/-- The text that comes out if a judge is asked about the statements from left to right, once about
each. -/
def judgedBy {σ : Type} (judge : Text → StateM σ Verdict) (t : Tiling) : StateM σ Text := do
  let pieces ← t.parts.mapM fun (gap, statement) => do
    let verdict ← judge statement
    return gap ++ verdict.apply statement
  return pieces.flatten ++ t.tail

section
variable {σ : Type} (judge : Text → StateM σ Verdict)

theorem judgedBy_lead (gap : Text) (t : Tiling) :
    (t.lead gap).judgedBy judge = (gap ++ ·) <$> t.judgedBy judge := by
  obtain ⟨_ | ⟨⟨_, _⟩, _⟩, _⟩ := t <;> simp [judgedBy, Tiling.lead]

theorem judgedBy_cons (statement : Text) (t : Tiling) :
    (t.cons statement).judgedBy judge =
      judge statement >>= fun verdict => (verdict.apply statement ++ ·) <$> t.judgedBy judge := by
  simp [judgedBy, Tiling.cons]

theorem run_judgedBy_lead (gap : Text) (t : Tiling) (memory : σ) :
    ((t.lead gap).judgedBy judge).run memory =
      Prod.map (gap ++ ·) id ((t.judgedBy judge).run memory) := by
  rw [judgedBy_lead]
  rfl

theorem run_judgedBy_cons {statement : Text} {verdict : Verdict} {memory later : σ} (t : Tiling)
    (h : (judge statement).run memory = (verdict, later)) :
    ((t.cons statement).judgedBy judge).run memory =
      Prod.map (verdict.apply statement ++ ·) id ((t.judgedBy judge).run later) := by
  rw [judgedBy_cons, StateT.run_bind, h]
  rfl

end
end Tiling

/-- What a sweep has written, and its two marks: places in the text, counted in bytes. -/
structure Progress where
  written : Text := []
  copied : Nat := 0
  searched : Nat := 0

/-- One round of a sweep: it ends with everything written, or goes on with its marks moved. The
judge is asked about a statement that is found, and may remember it. None where the text is to be
cut inside of a character. -/
def advance {σ : Type} (keyword : Text) (measure : Text → Option Nat)
    (judge : Text → StateM σ Verdict) (t : Text) :
    Progress × σ → Option ((Text × σ) ⊕ (Progress × σ))
  | (p, memory) => do
      let ahead ← t.slice? p.searched t.size
      match Text.cut? keyword ahead with
      | none =>
          let rest ← t.slice? p.copied t.size
          return .inl (p.written ++ rest, memory)
      | some (before, _) =>
          let start := p.searched + before.size
          let found ← t.slice? start t.size
          match measure found with
          | none => return .inr ({ p with searched := start + 1 }, memory)
          | some size =>
              let stop := start + size
              let statement ← t.slice? start stop
              let gap ← t.slice? p.copied start
              let (verdict, memory) := (judge statement).run memory
              return .inr (⟨p.written ++ gap ++ verdict.apply statement, stop, stop⟩, memory)

/-- Round after round until one ends the sweep, or breaks it off without a result. Undefined if
they go on forever. -/
def sweep {σ : Type} (keyword : Text) (measure : Text → Option Nat)
    (judge : Text → StateM σ Verdict) (t : Text) : Progress × σ →. Option (Text × σ) :=
  PFun.fix fun state =>
    Part.some <|
      match advance keyword measure judge t state with
      | none => .inl none
      | some (.inl done) => .inl (some done)
      | some (.inr next) => .inr next

/-- The marks stand behind what is done, and behind a gap that follows it. -/
def Progress.behind (written done gap : Text) : Progress :=
  ⟨written, done.size, (done ++ gap).size⟩

section
variable {keyword : Text} {measure : Text → Option Nat} {σ : Type}
  (judge : Text → StateM σ Verdict)

theorem sweep_of_end {t : Text} {state : Progress × σ} {done : Text × σ}
    (h : advance keyword measure judge t state = some (.inl done)) :
    sweep keyword measure judge t state = Part.some (some done) :=
  Part.eq_some_iff.mpr (PFun.fix_stop (by rw [h]; exact Part.mem_some _))

theorem sweep_of_break {t : Text} {state : Progress × σ}
    (h : advance keyword measure judge t state = none) :
    sweep keyword measure judge t state = Part.some none :=
  Part.eq_some_iff.mpr (PFun.fix_stop (by rw [h]; exact Part.mem_some _))

theorem sweep_of_next {t : Text} {state next : Progress × σ}
    (h : advance keyword measure judge t state = some (.inr next)) :
    sweep keyword measure judge t state = sweep keyword measure judge t next :=
  PFun.fix_fwd_eq (by rw [h]; exact Part.mem_some _)

theorem advance_of_absent {done gap rest written : Text} (memory : σ)
    (hcut : Text.cut? keyword rest = none) :
    advance keyword measure judge (done ++ gap ++ rest) (.behind written done gap, memory) =
      some (.inl (written ++ (gap ++ rest), memory)) := by
  have hrest : (done ++ gap ++ rest).slice? done.size (done ++ gap ++ rest).size =
      some (gap ++ rest) := by
    rw [List.append_assoc, Text.slice?_end]
  simp only [advance, Progress.behind, Text.slice?_end, hrest, hcut, Option.bind_eq_bind,
    Option.bind_some, Option.pure_def]

theorem advance_of_failed {done gap before after found written : Text} (memory : σ)
    (hcut : Text.cut? keyword (before ++ found) = some (before, after))
    (hmeasure : measure found = none) :
    advance keyword measure judge (done ++ gap ++ (before ++ found))
        (.behind written done gap, memory) =
      some (.inr (⟨written, done.size, (done ++ gap ++ before).size + 1⟩, memory)) := by
  simp only [advance, Progress.behind, Text.slice?_end, Text.slice?_behind, hcut, hmeasure,
    Option.bind_eq_bind, Option.bind_some, Option.pure_def]
  rw [Text.size_append (done ++ gap) before]

/-- The next search would start inside of a character. -/
theorem advance_of_inside {front rest written : Text} {copied : Nat} {c : Char} (memory : σ)
    (hc : c.utf8Size ≠ 1) :
    advance keyword measure judge (front ++ c :: rest) (⟨written, copied, front.size + 1⟩, memory) =
      none := by
  simp only [advance, Text.slice?_inside front rest hc, Option.bind_eq_bind, Option.bind_none]

theorem advance_of_torn {done gap before after found written : Text} {n : Nat} (memory : σ)
    (hcut : Text.cut? keyword (before ++ found) = some (before, after))
    (hmeasure : measure found = some n) (hn : found.splitBytes? n = none) :
    advance keyword measure judge (done ++ gap ++ (before ++ found))
        (.behind written done gap, memory) = none := by
  have htorn : (done ++ gap ++ (before ++ found)).slice? ((done ++ gap).size + before.size)
      ((done ++ gap).size + before.size + n) = none := by
    simpa [Text.size_append, Nat.add_assoc] using Text.slice?_torn (done ++ gap ++ before) found hn
  simp only [advance, Progress.behind, Text.slice?_end, Text.slice?_behind, hcut, hmeasure, htorn,
    Option.bind_eq_bind, Option.bind_some, Option.bind_none]

theorem advance_of_statement {done gap before after statement rest written : Text}
    {verdict : Verdict} {memory later : σ}
    (hcut : Text.cut? keyword (before ++ (statement ++ rest)) = some (before, after))
    (hmeasure : measure (statement ++ rest) = some statement.size)
    (hjudge : (judge statement).run memory = (verdict, later)) :
    advance keyword measure judge (done ++ gap ++ (before ++ (statement ++ rest)))
        (.behind written done gap, memory) =
      some (.inr (.behind (written ++ (gap ++ before) ++ verdict.apply statement)
        (done ++ gap ++ before ++ statement) [], later)) := by
  have hstatement : (done ++ gap ++ (before ++ (statement ++ rest))).slice?
      ((done ++ gap).size + before.size) (done ++ gap ++ before ++ statement).size =
      some statement := by
    simpa [Text.size_append, Nat.add_assoc] using
      Text.slice?_append (done ++ gap ++ before) statement rest
  have hgap : (done ++ gap ++ (before ++ (statement ++ rest))).slice? done.size
      ((done ++ gap).size + before.size) = some (gap ++ before) := by
    simpa [Text.size_append, Nat.add_assoc] using
      Text.slice?_append done (gap ++ before) (statement ++ rest)
  have hmark : (done ++ gap).size + before.size + statement.size =
      (done ++ gap ++ before ++ statement).size := by simp only [Text.size_append]
  simp only [advance, Progress.behind, Text.slice?_end, Text.slice?_behind, hstatement, hgap, hcut,
    hmeasure, hjudge, hmark, List.append_nil, Option.bind_eq_bind, Option.bind_some,
    Option.pure_def]

/-- From wherever its marks stand, a sweep writes the gap between them and the judged rest if it
gets through the rest, and breaks off if it does not. -/
theorem sweep_behind (hkeyword : keyword ≠ []) (hcovers : Covers keyword measure)
    (done gap rest written : Text) (memory : σ) :
    ((scan keyword (inCharacters measure) rest).Swept keyword measure →
      sweep keyword measure judge (done ++ gap ++ rest) (.behind written done gap, memory) =
        Part.some (some (Prod.map (written ++ gap ++ ·) id
          (((scan keyword (inCharacters measure) rest).judgedBy judge).run memory)))) ∧
    (¬ (scan keyword (inCharacters measure) rest).Swept keyword measure →
      sweep keyword measure judge (done ++ gap ++ rest) (.behind written done gap, memory) =
        Part.some none) := by
  -- A failure lengthens the gap and a statement ends it, so both marks vary along the induction.
  induction rest using search_induction hkeyword hcovers generalizing done gap written memory with
  | absent rest hcut =>
      have halong : ∀ passed, Along keyword passed rest [] := fun _ => along_of_cut?_none hcut
      rw [scan_gap_alone ((halong _).idle fun _ => id),
        sweep_of_end judge (advance_of_absent judge memory hcut), ← List.append_assoc]
      exact ⟨fun _ => rfl, fun hnot => absurd (.tail (halong _)) hnot⟩
  | failed before after c rest hcut hk halong hextent ih =>
      have hscan : scan keyword (inCharacters measure) (before ++ c :: rest) =
          (scan keyword (inCharacters measure) rest).lead (before ++ [c]) := by
        rw [scan_gap ((halong _).idle fun _ => id), scan_cons_of_none fun _ => hextent,
          Tiling.lead_lead]
      have hswept : (scan keyword (inCharacters measure) (before ++ c :: rest)).Swept
          keyword measure ↔ (measure (c :: rest) = none ∧ StartsWithByte (c :: rest)) ∧
            (scan keyword (inCharacters measure) rest).Swept keyword measure := by
        rw [hscan, Tiling.Swept, Tiling.found_lead_iff, along_append_iff, along_single_iff,
          text_scan]
        exact and_congr_left fun _ => ⟨fun h => h.2 hk, fun h => ⟨halong _, fun _ => h⟩⟩
      cases hmeasure : measure (c :: rest) with
      | some n =>
          rw [sweep_of_break judge (advance_of_torn judge memory hcut hmeasure
            (splitBytes?_of_torn hextent hmeasure))]
          refine ⟨fun h => ?_, fun _ => rfl⟩
          rw [hswept, hmeasure] at h
          cases h.1.1
      | none =>
          rw [sweep_of_next judge (advance_of_failed judge memory hcut hmeasure)]
          by_cases hc : c.utf8Size = 1
          · have hsplit : done ++ gap ++ (before ++ c :: rest) =
                done ++ (gap ++ before ++ [c]) ++ rest := by simp
            have hmarks : (⟨written, done.size, (done ++ gap ++ before).size + 1⟩ : Progress) =
                .behind written done (gap ++ before ++ [c]) := by
              simp [Progress.behind, Text.size_append, Text.size_cons, hc, Nat.add_assoc]
            have hstart : StartsWithByte (c :: rest) := congrArg some hc
            obtain ⟨hthrough, hbreak⟩ := ih done (gap ++ before ++ [c]) written memory
            rw [hsplit, hmarks, hswept, hscan, Tiling.run_judgedBy_lead, Prod.map_map]
            refine ⟨fun h => ?_, fun h => hbreak fun hrest => h ⟨⟨hmeasure, hstart⟩, hrest⟩⟩
            rw [hthrough h.2]
            simp [Function.comp_def]
          · have hsplit : done ++ gap ++ (before ++ c :: rest) =
                done ++ gap ++ before ++ c :: rest := by simp
            rw [hsplit, sweep_of_break judge (advance_of_inside judge memory hc)]
            refine ⟨fun h => absurd (Option.some.inj (hswept.mp h).1.2) hc, fun _ => rfl⟩
  | found before after statement rest hcut hk halong hmeasure ih =>
      have hscan : scan keyword (inCharacters measure) (before ++ (statement ++ rest)) =
          ((scan keyword (inCharacters measure) rest).cons statement).lead before := by
        rw [scan_gap ((halong _).idle fun _ => id),
          scan_statement hk (ne_nil_of_start hkeyword hk) (inCharacters_statement hmeasure)]
      have hswept : (scan keyword (inCharacters measure) (before ++ (statement ++ rest))).Swept
          keyword measure ↔ (scan keyword (inCharacters measure) rest).Swept keyword measure := by
        rw [hscan, Tiling.Swept, Tiling.found_lead_iff, Tiling.found_cons_iff, Tiling.text_cons,
          text_scan]
        exact ⟨fun h => h.2.2.2,
          fun h => ⟨halong _, hk.trans (List.prefix_append statement rest), hmeasure, h⟩⟩
      rcases hjudge : (judge statement).run memory with ⟨verdict, later⟩
      have hsplit : done ++ gap ++ (before ++ (statement ++ rest)) =
          done ++ gap ++ before ++ statement ++ [] ++ rest := by simp
      obtain ⟨hthrough, hbreak⟩ := ih (done ++ gap ++ before ++ statement) []
        (written ++ (gap ++ before) ++ verdict.apply statement) later
      rw [sweep_of_next judge (advance_of_statement judge hcut hmeasure hjudge), hswept, hsplit]
      refine ⟨fun h => ?_, hbreak⟩
      rw [hthrough h, hscan, Tiling.run_judgedBy_lead, Tiling.run_judgedBy_cons judge _ hjudge,
        Prod.map_map, Prod.map_map]
      simp [Function.comp_def]

theorem sweep_of_swept (hkeyword : keyword ≠ []) (hcovers : Covers keyword measure) {t : Text}
    (h : (scan keyword (inCharacters measure) t).Swept keyword measure) (memory : σ) :
    sweep keyword measure judge t ({}, memory) =
      Part.some (some (((scan keyword (inCharacters measure) t).judgedBy judge).run memory)) :=
  (sweep_behind judge hkeyword hcovers [] [] t [] memory).1 h

theorem sweep_of_not_swept (hkeyword : keyword ≠ []) (hcovers : Covers keyword measure) {t : Text}
    (h : ¬ (scan keyword (inCharacters measure) t).Swept keyword measure) (memory : σ) :
    sweep keyword measure judge t ({}, memory) = Part.some none :=
  (sweep_behind judge hkeyword hcovers [] [] t [] memory).2 h

end

/-- The judge, with a list of what it was asked about. -/
def recorded {σ : Type} (judge : Text → StateM σ Verdict) (statement : Text) :
    StateM (σ × List Text) Verdict := do
  let (memory, asked) ← get
  let (verdict, later) := (judge statement).run memory
  set (later, asked ++ [statement])
  return verdict

theorem Tiling.run_judgedBy_recorded {σ : Type} (judge : Text → StateM σ Verdict)
    (t : Tiling) (memory : σ)
    (asked : List Text) :
    (t.judgedBy (recorded judge)).run (memory, asked) =
      Prod.map id (·, asked ++ t.statements) ((t.judgedBy judge).run memory) := by
  obtain ⟨parts, tail⟩ := t
  induction parts generalizing memory asked with
  | nil =>
      rw [statements, List.map_nil, List.append_nil]
      rfl
  | cons part parts ih =>
      obtain ⟨gap, statement⟩ := part
      rcases hjudge : (judge statement).run memory with ⟨verdict, later⟩
      have hrecorded : (recorded judge statement).run (memory, asked) =
          (verdict, later, asked ++ [statement]) := by
        simp [recorded, hjudge]
        rfl
      rw [part_eq, run_judgedBy_lead, run_judgedBy_lead, run_judgedBy_cons _ _ hjudge,
        run_judgedBy_cons _ _ hrecorded, ih, statements_lead, statements_cons]
      simp [Prod.map_map, Function.comp_def]

/-- A judge that goes by a verdict and adds up what the verdicts count. -/
def tallying (verdict : Text → Verdict) (mark : Verdict → Tally) (statement : Text) :
    StateM Tally Verdict := do
  modify (· + mark (verdict statement))
  return verdict statement

section
variable {verdict : Text → Verdict} {mark : Verdict → Tally} (total : List Text → Tally)

theorem Tiling.run_judgedBy_tallying (hnil : total [] = {})
    (hcons : ∀ s ss, total (s :: ss) = mark (verdict s) + total ss) (t : Tiling) (tally : Tally) :
    (t.judgedBy (tallying verdict mark)).run tally =
    (t.judged verdict, tally + total t.statements) := by
  obtain ⟨parts, tail⟩ := t
  induction parts generalizing tally with
  | nil =>
      rw [statements, List.map_nil, hnil]
      rfl
  | cons part parts ih =>
      obtain ⟨gap, statement⟩ := part
      have hjudge : (tallying verdict mark statement).run tally =
          (verdict statement, tally + mark (verdict statement)) := rfl
      rw [part_eq, run_judgedBy_lead, run_judgedBy_cons _ _ hjudge, ih, statements_lead,
        statements_cons, judged_lead,
        judged_cons, hcons]
      simp [Chart.Tally.add_def, Nat.add_assoc]

theorem sweep_tallying {keyword : Text} {extent : Text → Option Nat} (hkeyword : keyword ≠ [])
    (hbyte : StartsWithByte keyword)
    (hcovers : ∀ t n, extent t = some n → n ≤ t.length ∧ keyword <+: t.take n)
    (hnil : total [] = {}) (hcons : ∀ s ss, total (s :: ss) = mark (verdict s) + total ss)
    (t : Text) (tally : Tally) :
    sweep keyword (inBytes extent) (tallying verdict mark) t ({}, tally) =
      Part.some (some ((scan keyword extent t).judged verdict,
        tally + total (scan keyword extent t).statements)) := by
  have hchars : inCharacters (inBytes extent) = extent :=
    inCharacters_inBytes fun t n h => (hcovers t n h).1
  have hbytes : Covers keyword (inBytes extent) := by
    intro t n _ h
    obtain ⟨m, hm, rfl⟩ := Option.map_eq_some_iff.mp h
    obtain ⟨after, hafter⟩ := (hcovers t m hm).2
    have hfront := congrArg Text.size hafter
    have hall := congrArg Text.size (List.take_append_drop m t)
    rw [Text.size_append] at hfront hall
    omega
  have hswept := Tiling.swept_scan hkeyword hbytes hbyte (fun s n _ h => by
    obtain ⟨m, -, rfl⟩ := Option.map_eq_some_iff.mp h
    have hsplit := Text.splitBytes?_size (s.take m) (s.drop m)
    rw [List.take_append_drop] at hsplit
    rw [hsplit, Option.isSome_some]) t
  rw [sweep_of_swept _ hkeyword hbytes hswept, hchars,
    Tiling.run_judgedBy_tallying total hnil hcons]

end

theorem SceneControl.extent?_covers {t : Text} {n : Nat} (h : extent? t = some n) :
    n ≤ t.length ∧ keyword <+: t.take n := by
  obtain ⟨inner, after, rfl, rfl⟩ := exists_of_extent? h
  rw [← List.append_assoc keyword (inner ++ terminator) after, List.take_left]
  simp

theorem TimingGroup.extent?_covers {t : Text} {n : Nat} (h : extent? t = some n) :
    n ≤ t.length ∧ keyword <+: t.take n := by
  obtain ⟨flags, gap, rest, rfl, rfl⟩ := exists_of_extent? h
  have hsplit : keyword ++ (flags ++ ')' :: (gap ++ '{' :: rest)) =
      keyword ++ (flags ++ ')' :: (gap ++ ['{'])) ++ rest := by simp
  rw [hsplit, List.take_left]
  simp

theorem Arc.extent?_covers {t : Text} {n : Nat} (h : extent? t = some n) :
    n ≤ t.length ∧ keyword <+: t.take n := by
  obtain ⟨a, rest, -, rfl, rfl⟩ := exists_of_extent? h
  rw [List.take_left]
  simp [render]

namespace Chart

/-! Each stage that looks for statements is a sweep whose judge counts. -/

theorem sweep_rebuildSceneControls (allowed : Whitelists) (t : Text) (tally : Tally) :
    sweep SceneControl.keyword (inBytes SceneControl.extent?)
        (tallying (SceneControl.verdict allowed.sceneControls) fun verdict =>
          if verdict = .delete then { removed := 1 } else { kept := 1 }) t ({}, tally) =
      Part.some (some ((rebuildSceneControls allowed t).1,
        tally + (rebuildSceneControls allowed t).2)) := by
  let verdict := SceneControl.verdict allowed.sceneControls
  refine sweep_tallying
    (fun ss => { kept := ss.countP fun s => verdict s ≠ .delete,
                 removed := ss.countP fun s => verdict s = .delete })
    (by decide) (by decide) (fun _ _ => SceneControl.extent?_covers) rfl ?_ t tally
  intro s ss
  by_cases h : verdict s = .delete <;> simp [verdict, h, Tally.add_def, Nat.add_comm]

theorem sweep_clearTimingGroups (allowed : Whitelists) (t : Text) (tally : Tally) :
    sweep TimingGroup.keyword (inBytes TimingGroup.extent?)
        (tallying (TimingGroup.verdict allowed.timingGroups) fun verdict =>
          if verdict = .keep then {} else { cleared := 1 }) t ({}, tally) =
      Part.some (some ((clearTimingGroups allowed t).1,
        tally + (clearTimingGroups allowed t).2)) := by
  let verdict := TimingGroup.verdict allowed.timingGroups
  refine sweep_tallying (fun ss => { cleared := ss.countP fun s => verdict s ≠ .keep })
    (by decide) (by decide) (fun _ _ => TimingGroup.extent?_covers) rfl ?_ t tally
  intro s ss
  by_cases h : verdict s = .keep <;> simp [verdict, h, Tally.add_def, Nat.add_comm]

theorem sweep_repairArcs (t : Text) (tally : Tally) :
    sweep Arc.keyword (inBytes Arc.extent?)
        (tallying Arc.verdict fun verdict => if verdict = .keep then {} else { repaired := 1 })
        t ({}, tally) =
      Part.some (some ((repairArcs t).1, tally + (repairArcs t).2)) := by
  refine sweep_tallying (fun ss => { repaired := ss.countP fun s => Arc.verdict s ≠ .keep })
    (by decide) (by decide) (fun _ _ => Arc.extent?_covers) rfl ?_ t tally
  intro s ss
  by_cases h : Arc.verdict s = .keep <;> simp [h, Tally.add_def, Nat.add_comm]

theorem kept_add_removed (allowed : Whitelists) (t : Text) :
    (rebuildSceneControls allowed t).2.kept + (rebuildSceneControls allowed t).2.removed =
      (sceneControls t).statements.length := by
  let verdict := SceneControl.verdict allowed.sceneControls
  have hsplit := List.length_eq_countP_add_countP (fun s => decide (verdict s = .delete))
    (l := (sceneControls t).statements)
  simp only [rebuildSceneControls, Tiling.count]
  rw [hsplit, Nat.add_comm]
  simp [verdict]

end Chart

/-- Two opening brackets, some other character and a closing bracket. -/
def bracketed? : Text → Option Nat
  | '(' :: '(' :: c :: ')' :: _ => if c = '(' then none else some (3 + c.utf8Size)
  | _ => none

theorem exists_of_bracketed? {t : Text} {n : Nat} (h : bracketed? t = some n) :
    ∃ c rest, t = '(' :: '(' :: c :: ')' :: rest ∧ n = 3 + c.utf8Size := by
  unfold bracketed? at h
  split at h
  · next c rest =>
      split at h <;> cases h
      exact ⟨c, rest, rfl, rfl⟩
  · cases h

theorem size_bracketed (c : Char) : Text.size ['(', '(', c, ')'] = 3 + c.utf8Size := by
  have hopen : Char.utf8Size '(' = 1 := by decide
  have hclose : Char.utf8Size ')' = 1 := by decide
  simp only [Text.size_cons, Text.size_nil, hopen, hclose]
  omega

theorem covers_bracketed : Covers "((" bracketed? := by
  intro t n _ h
  obtain ⟨c, rest, rfl, rfl⟩ := exists_of_bracketed? h
  have hsize := Text.size_append ['(', '(', c, ')'] rest
  rw [size_bracketed, List.cons_append, List.cons_append, List.cons_append, List.cons_append,
    List.nil_append] at hsize
  have hkeyword : Text.size "((" = 2 := by decide
  omega

/-- Deletes the first statement, keeps the second and replaces each later one. -/
def inTurn (_ : Text) : StateM Nat Verdict := do
  let asked ← get
  set (asked + 1)
  return if asked = 0 then .delete else if asked = 1 then .keep else .replace "[]"

/-- The keyword of the first statement overlaps with an occurrence that fails; the last fails too.
Two statements have a character of more than one byte. -/
def overlapping : Tiling := ⟨[("é(", "((é)"), ([], "((2)"), ("x", "((語)")], "((4"⟩

/-- A keyword that starts with a character of two bytes: behind the failure there is no search. -/
example : sweep "é" (fun _ => none) inTurn "é(" ({}, 0) = Part.some none :=
  sweep_of_next inTurn rfl |>.trans (sweep_of_break inTurn rfl)

end ChartPackage
