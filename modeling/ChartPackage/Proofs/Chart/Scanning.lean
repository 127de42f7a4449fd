import Mathlib
import ChartPackage.Chart.Scan
import ChartPackage.Proofs.Text.Cutting

/-!
Scanning a text piece by piece. A piece is closed for a scan if the scan of the piece with any text
behind it is the scan of the piece followed by that of the text; a text without a place where a
statement starts is closed, and so is a statement whose extent does not depend on what follows.
A text of closed pieces is then judged and counted piece by piece.
-/

namespace ChartPackage

namespace Tiling

/-- A text in front of everything. -/
def lead (gap : Text) : Tiling → Tiling
  | ⟨[], tail⟩ => ⟨[], gap ++ tail⟩
  | ⟨(g, statement) :: parts, tail⟩ => ⟨(gap ++ g, statement) :: parts, tail⟩

/-- One tiling after the other; what is left of the first stands before the second. -/
def append (a b : Tiling) : Tiling :=
  ⟨a.parts ++ (b.lead a.tail).parts, (b.lead a.tail).tail⟩

instance : Append Tiling := ⟨append⟩

theorem append_def (a b : Tiling) :
    a ++ b = ⟨a.parts ++ (b.lead a.tail).parts, (b.lead a.tail).tail⟩ := rfl

@[simp] theorem lead_nil (t : Tiling) : t.lead [] = t := by
  obtain ⟨_ | ⟨⟨_, _⟩, _⟩, _⟩ := t <;> rfl

theorem lead_lead (a b : Text) (t : Tiling) : (t.lead b).lead a = t.lead (a ++ b) := by
  obtain ⟨_ | ⟨⟨_, _⟩, _⟩, _⟩ := t <;> simp [lead]

theorem push_eq_lead (c : Char) (t : Tiling) : t.push c = t.lead [c] := by
  obtain ⟨_ | ⟨⟨_, _⟩, _⟩, _⟩ := t <;> rfl

theorem gap_append (gap : Text) (t : Tiling) : (⟨[], gap⟩ : Tiling) ++ t = t.lead gap := rfl

theorem nil_append (t : Tiling) : (⟨[], []⟩ : Tiling) ++ t = t := by
  rw [gap_append, lead_nil]

theorem lead_append (gap : Text) (a b : Tiling) : a.lead gap ++ b = (a ++ b).lead gap := by
  obtain ⟨_ | ⟨⟨_, _⟩, _⟩, _⟩ := a
  · rw [lead, gap_append, gap_append, lead_lead]
  · simp [lead, append_def]

theorem cons_append (statement : Text) (a b : Tiling) :
    a.cons statement ++ b = (a ++ b).cons statement := by
  simp [cons, append_def]

theorem append_assoc (a b c : Tiling) : a ++ b ++ c = a ++ (b ++ c) := by
  have h := lead_append a.tail b c
  simp only [append_def, Tiling.mk.injEq, List.append_assoc] at h ⊢
  rw [← h]
  exact ⟨rfl, rfl⟩

@[simp] theorem statements_lead (gap : Text) (t : Tiling) :
    (t.lead gap).statements = t.statements := by
  obtain ⟨_ | ⟨⟨_, _⟩, _⟩, _⟩ := t <;> rfl

@[simp] theorem statements_cons (statement : Text) (t : Tiling) :
    (t.cons statement).statements = statement :: t.statements := rfl

theorem statements_append (a b : Tiling) :
    (a ++ b).statements = a.statements ++ b.statements := by
  have h : ((b.lead a.tail).parts).map (·.2) = b.parts.map (·.2) := statements_lead a.tail b
  simp [append_def, statements, h]

@[simp] theorem judged_lead (verdict : Text → Verdict) (gap : Text) (t : Tiling) :
    (t.lead gap).judged verdict = gap ++ t.judged verdict := by
  obtain ⟨_ | ⟨⟨_, _⟩, _⟩, _⟩ := t <;> simp [lead, judged]

@[simp] theorem judged_cons (verdict : Text → Verdict) (statement : Text) (t : Tiling) :
    (t.cons statement).judged verdict =
      (verdict statement).apply statement ++ t.judged verdict := by
  simp [cons, judged]

theorem judged_append (verdict : Text → Verdict) (a b : Tiling) :
    (a ++ b).judged verdict = a.judged verdict ++ b.judged verdict := by
  have h := judged_lead verdict a.tail b
  simp only [judged] at h ⊢
  rw [append_def, List.flatMap_append, List.append_assoc, List.append_assoc, h]

theorem count_append (verdict : Text → Verdict) (sort : Verdict → Bool) (a b : Tiling) :
    (a ++ b).count verdict sort = a.count verdict sort + b.count verdict sort := by
  simp [count, statements_append]

end Tiling

section
variable {keyword : Text} {extent : Text → Option Nat}

theorem scan_cons_of_none {c : Char} {rest : Text}
    (h : keyword <+: c :: rest → extent (c :: rest) = none) :
    scan keyword extent (c :: rest) = (scan keyword extent rest).lead [c] := by
  rw [scan]
  split
  · next n hn =>
      by_cases hk : keyword <+: c :: rest
      · simp [hk, h hk] at hn
      · simp [hk] at hn
  · exact Tiling.push_eq_lead c _

/-- No statement starts in a gap that has a certain text behind it. -/
def Idle (keyword : Text) (extent : Text → Option Nat) (gap rest : Text) : Prop :=
  ∀ s, s ≠ [] → s <:+ gap → keyword <+: s ++ rest → extent (s ++ rest) = none

theorem idle_nil {rest : Text} : Idle keyword extent [] rest :=
  fun _ hs hsuffix => absurd (List.suffix_nil.mp hsuffix) hs

theorem idle_single {c : Char} {rest : Text} (h : keyword <+: c :: rest →
    extent (c :: rest) = none) :
    Idle keyword extent [c] rest := by
  intro s hs hsuffix
  rcases List.suffix_cons_iff.mp hsuffix with rfl | hsuffix
  · exact h
  · exact absurd (List.suffix_nil.mp hsuffix) hs

/-- A text in which no statement starts stands in the gap before what follows. -/
theorem scan_gap {gap rest : Text} (h : Idle keyword extent gap rest) :
    scan keyword extent (gap ++ rest) = (scan keyword extent rest).lead gap := by
  induction gap with
  | nil => simp
  | cons c gap ih =>
      have hhead := h (c :: gap) (by simp) List.suffix_rfl
      rw [List.cons_append] at hhead ⊢
      rw [scan_cons_of_none hhead, ih fun s hs hsuffix =>
        h s hs (hsuffix.trans (List.suffix_cons c gap)),
        Tiling.lead_lead, List.singleton_append]

theorem scan_gap_alone {gap : Text} (h : Idle keyword extent gap []) :
    scan keyword extent gap = ⟨[], gap⟩ := by
  have hscan := scan_gap h
  rw [List.append_nil, scan] at hscan
  rw [hscan, Tiling.lead, List.append_nil]

theorem scan_statement {statement rest : Text} (hk : keyword <+: statement)
    (hne : statement ≠ []) (hextent : extent (statement ++ rest) = some statement.length) :
    scan keyword extent (statement ++ rest) = (scan keyword extent rest).cons statement := by
  cases statement with
  | nil => exact absurd rfl hne
  | cons c s =>
      have hk' : keyword <+: c :: (s ++ rest) := hk.trans (List.prefix_append (c :: s) rest)
      rw [List.cons_append] at hextent ⊢
      rw [scan]
      simp [hk', hextent]

theorem scan_statement_alone {statement : Text} (hk : keyword <+: statement) (hne : statement ≠ [])
    (hextent : extent statement = some statement.length) :
    scan keyword extent statement = ⟨[([], statement)], []⟩ := by
  have hnothing : extent (statement ++ []) = some statement.length := by rwa [List.append_nil]
  have hscan := scan_statement hk hne hnothing
  rwa [List.append_nil, scan] at hscan

/-- Whether what follows a text makes no difference to what a scan finds in it. -/
def Closed (keyword : Text) (extent : Text → Option Nat) (piece : Text) : Prop :=
  ∀ rest, scan keyword extent (piece ++ rest) = scan keyword extent piece ++
    scan keyword extent rest

theorem Closed.append {a b : Text} (ha : Closed keyword extent a) (hb : Closed keyword extent b) :
    Closed keyword extent (a ++ b) := by
  intro rest
  rw [List.append_assoc, ha, hb, ha, Tiling.append_assoc]

theorem closed_nil : Closed keyword extent [] := fun rest => by
  rw [List.nil_append, scan, Tiling.nil_append]

theorem closed_gap {gap : Text}
    (h : ∀ s rest, s ≠ [] → s <:+ gap → keyword <+: s ++ rest → extent (s ++ rest) = none) :
    Closed keyword extent gap := by
  intro rest
  rw [scan_gap_alone fun s => h s [], scan_gap fun s => h s rest, Tiling.gap_append]

theorem closed_statement {statement : Text} (hk : keyword <+: statement) (hne : statement ≠ [])
    (h : ∀ rest, extent (statement ++ rest) = some statement.length) :
    Closed keyword extent statement := by
  intro rest
  have halone := h []
  rw [List.append_nil] at halone
  have hcons : (⟨[([], statement)], []⟩ : Tiling) = Tiling.cons statement ⟨[], []⟩ := rfl
  rw [scan_statement_alone hk hne halone, scan_statement hk hne (h rest), hcons, Tiling.cons_append,
    Tiling.nil_append]

/-- Whatever an extent says of a text is a piece of it, and a nonempty one. -/
def Sized (extent : Text → Option Nat) : Prop :=
  ∀ t n, extent t = some n → 0 < n ∧ n ≤ t.length

theorem scan_cons_of_some {c : Char} {rest : Text} {n : Nat} (hk : keyword <+: c :: rest)
    (hextent : extent (c :: rest) = some (n + 1)) :
    scan keyword extent (c :: rest) =
      (scan keyword extent (rest.drop n)).cons (c :: rest.take n) := by
  rw [scan]
  simp [hk, hextent]

/-- A text is closed if keywords and extents in it can be told without what follows it. -/
theorem closed_of_local (hsized : Sized extent) {t : Text}
    (h : ∀ s rest, s ≠ [] → s <:+ t → keyword <+: s ++ rest →
      keyword <+: s ∧ extent (s ++ rest) = extent s) :
    Closed keyword extent t := by
  intro rest
  induction hn : t.length using Nat.strongRecOn generalizing t with
  | ind n ih =>
      subst hn
      cases t with
      | nil => exact closed_nil rest
      | cons c t =>
          have hlater : ∀ u, u <:+ t → scan keyword extent (u ++ rest) =
              scan keyword extent u ++ scan keyword extent rest := by
            intro u hu
            have hut : u <:+ c :: t := hu.trans (List.suffix_cons c t)
            exact ih u.length (Nat.lt_succ_of_le hu.length_le)
              (fun s r hs hsuffix => h s r hs (hsuffix.trans hut)) rfl
          have hpush : (keyword <+: c :: (t ++ rest) → extent (c :: (t ++ rest)) = none) →
              (keyword <+: c :: t → extent (c :: t) = none) →
              scan keyword extent (c :: t ++ rest) =
                scan keyword extent (c :: t) ++ scan keyword extent rest := by
            intro hlong hshort
            rw [List.cons_append, scan_cons_of_none hlong, scan_cons_of_none hshort,
              hlater t List.suffix_rfl, Tiling.lead_append]
          by_cases hk : keyword <+: c :: (t ++ rest)
          · obtain ⟨hstart, hsame⟩ := h (c :: t) rest (by simp) List.suffix_rfl hk
            rw [List.cons_append] at hsame
            cases hfound : extent (c :: t) with
            | none =>
                rw [hfound] at hsame
                exact hpush (fun _ => hsame) fun _ => hfound
            | some n =>
                obtain ⟨hpos, hle⟩ := hsized _ _ hfound
                obtain ⟨m, rfl⟩ : ∃ m, n = m + 1 := Nat.exists_eq_add_one.mpr hpos
                have hm : m ≤ t.length := Nat.le_of_succ_le_succ hle
                rw [hfound] at hsame
                rw [List.cons_append, scan_cons_of_some hk hsame, scan_cons_of_some hstart hfound,
                  List.drop_append_of_le_length hm, List.take_append_of_le_length hm,
                  hlater _ (List.drop_suffix m t), Tiling.cons_append]
          · exact hpush (fun hs => absurd hs hk) fun hs =>
              absurd (hs.trans (List.prefix_append (c :: t) rest)) hk

/-- A statement of a scan stands in the text, and the extent there is its length. -/
theorem statement_of_mem (hsized : Sized extent) {t statement : Text}
    (h : statement ∈ (scan keyword extent t).statements) :
    ∃ rest, statement ++ rest <:+ t ∧ keyword <+: statement ++ rest ∧
      extent (statement ++ rest) = some statement.length := by
  induction hn : t.length using Nat.strongRecOn generalizing t with
  | ind n ih =>
      subst hn
      cases t with
      | nil =>
          rw [scan] at h
          cases h
      | cons c t =>
          have hlater : ∀ u, u <:+ t → statement ∈ (scan keyword extent u).statements →
              ∃ rest, statement ++ rest <:+ c :: t ∧ keyword <+: statement ++ rest ∧
                extent (statement ++ rest) = some statement.length := by
            intro u hu hmem
            obtain ⟨rest, hrest, hfound⟩ := ih u.length (Nat.lt_succ_of_le hu.length_le) hmem rfl
            exact ⟨rest, (hrest.trans hu).trans (List.suffix_cons c t), hfound⟩
          by_cases hk : keyword <+: c :: t
          · cases hfound : extent (c :: t) with
            | none =>
                rw [scan_cons_of_none fun _ => hfound, Tiling.statements_lead] at h
                exact hlater t List.suffix_rfl h
            | some n =>
                obtain ⟨hpos, hle⟩ := hsized _ _ hfound
                obtain ⟨m, rfl⟩ : ∃ m, n = m + 1 := Nat.exists_eq_add_one.mpr hpos
                have hm : m ≤ t.length := Nat.le_of_succ_le_succ hle
                rw [scan_cons_of_some hk hfound, Tiling.statements_cons] at h
                rcases List.mem_cons.mp h with rfl | h
                · refine ⟨t.drop m, ?_, ?_, ?_⟩
                  · simp
                  · simpa using hk
                  · simpa [hm] using hfound
                · exact hlater _ (List.drop_suffix m t) h
          · rw [scan_cons_of_none fun hs => absurd hs hk, Tiling.statements_lead] at h
            exact hlater t List.suffix_rfl h

theorem judged_flatten (verdict : Text → Verdict) {pieces : List Text}
    (h : ∀ p ∈ pieces, Closed keyword extent p) :
    (scan keyword extent pieces.flatten).judged verdict =
      (pieces.map fun p => (scan keyword extent p).judged verdict).flatten := by
  induction pieces with
  | nil => rw [List.flatten_nil, scan]; rfl
  | cons p pieces ih =>
      rw [List.flatten_cons, h p (by simp), Tiling.judged_append, ih fun q hq => h q (by simp [hq])]
      rfl

theorem count_flatten (verdict : Text → Verdict) (sort : Verdict → Bool) {pieces : List Text}
    (h : ∀ p ∈ pieces, Closed keyword extent p) :
    (scan keyword extent pieces.flatten).count verdict sort =
      (pieces.map fun p => (scan keyword extent p).count verdict sort).sum := by
  induction pieces with
  | nil => rw [List.flatten_nil, scan]; rfl
  | cons p pieces ih =>
      rw [List.flatten_cons, h p (by simp), Tiling.count_append, ih fun q hq => h q (by simp [hq])]
      rfl

/-! Lines: no statement of a kind starts in a line without its keyword, so a line break is crossed
by no scan that finds at most a statement at the start of a line. -/

theorem starts_nowhere (hbreak : '\n' ∉ keyword) {line : Text} (hquiet : ¬ keyword <:+: line)
    {s rest : Text} (hs : s ≠ []) (hsuffix : s <:+ line ++ ['\n']) : ¬ keyword <+: s ++ rest := by
  intro hk
  have hlast : s.getLast hs = '\n' := by
    obtain ⟨r, hr⟩ := hsuffix
    have h : (r ++ s).getLast (by simp [hs]) = (line ++ ['\n']).getLast (by simp) := by simp [hr]
    rwa [List.getLast_append_right hs, List.getLast_concat] at h
  have hcut : s = s.dropLast ++ ['\n'] := by
    rw [← hlast, List.dropLast_concat_getLast hs]
  rw [hcut] at hk hsuffix
  have hinner : s.dropLast <:+ line := by
    obtain ⟨r, hr⟩ := hsuffix
    rw [← List.append_assoc] at hr
    exact ⟨r, List.append_cancel_right hr⟩
  apply hquiet
  rw [List.append_assoc, List.singleton_append] at hk
  exact (Text.prefix_of_prefix_append_cons hbreak hk).isInfix.trans hinner.isInfix

/-- What a scan finds in a line and its break, whatever follows. -/
def Scanned (keyword : Text) (extent : Text → Option Nat) (line : Text) (tiling : Tiling) : Prop :=
  Closed keyword extent (line ++ ['\n']) ∧ scan keyword extent (line ++ ['\n']) = tiling

theorem scanned_quiet (hbreak : '\n' ∉ keyword) {line : Text} (hquiet : ¬ keyword <:+: line) :
    Scanned keyword extent line ⟨[], line ++ ['\n']⟩ := by
  have hgap : ∀ s rest, s ≠ [] → s <:+ line ++ ['\n'] → keyword <+: s ++ rest →
      extent (s ++ rest) = none :=
    fun s rest hs hsuffix hk => absurd hk (starts_nowhere hbreak hquiet hs hsuffix)
  exact ⟨closed_gap hgap, scan_gap_alone fun s => hgap s []⟩

theorem scanned_statement (hbreak : '\n' ∉ keyword) (hkeyword : keyword ≠ [])
    {statement tail : Text} (hk : keyword <+: statement)
    (hextent : ∀ rest, extent (statement ++ rest) = some statement.length)
    (hquiet : ¬ keyword <:+: tail) :
    Scanned keyword extent (statement ++ tail) ⟨[([], statement)], tail ++ ['\n']⟩ := by
  have hne : statement ≠ [] := fun h => hkeyword (List.prefix_nil.mp (h ▸ hk))
  have hline : Scanned keyword extent tail _ := scanned_quiet hbreak hquiet
  obtain ⟨hclosed, hscan⟩ := hline
  constructor
  · rw [List.append_assoc]
    exact (closed_statement hk hne hextent).append hclosed
  · rw [List.append_assoc, scan_statement hk hne (hextent _), hscan]
    rfl

/-- A line that is a statement. -/
theorem scanned_whole (hbreak : '\n' ∉ keyword) (hkeyword : keyword ≠ []) {statement : Text}
    (hk : keyword <+: statement)
    (hextent : ∀ rest, extent (statement ++ rest) = some statement.length) :
    Scanned keyword extent statement ⟨[([], statement)], ['\n']⟩ := by
  have hscan := scanned_statement hbreak hkeyword hk hextent
    (fun h => hkeyword (List.infix_nil.mp h))
  rwa [List.append_nil] at hscan

variable {α : Type} {text result : α → Text} {tiling : α → Tiling} {items : List α}

theorem flatten_map_break (texts : List Text) :
    (texts.map (· ++ ['\n'])).flatten = Text.endLines texts := by
  rw [Text.endLines, List.flatMap_def]

theorem judged_endLines (verdict : Text → Verdict)
    (hscan : ∀ x ∈ items, Scanned keyword extent (text x) (tiling x))
    (hjudged : ∀ x ∈ items, (tiling x).judged verdict = result x ++ ['\n']) :
    (scan keyword extent (Text.endLines (items.map text))).judged verdict =
      Text.endLines (items.map result) := by
  rw [← flatten_map_break, ← flatten_map_break, judged_flatten verdict, List.map_map, List.map_map,
    List.map_map]
  · congr 1
    apply List.map_congr_left
    intro x hx
    simp only [Function.comp_apply]
    rw [(hscan x hx).2, hjudged x hx]
  · intro p hp
    simp only [List.map_map, List.mem_map, Function.comp_apply] at hp
    obtain ⟨x, hx, rfl⟩ := hp
    exact (hscan x hx).1

theorem count_endLines (verdict : Text → Verdict) (sort : Verdict → Bool)
    (hscan : ∀ x ∈ items, Scanned keyword extent (text x) (tiling x)) :
    (scan keyword extent (Text.endLines (items.map text))).count verdict sort =
      (items.map fun x => (tiling x).count verdict sort).sum := by
  rw [← flatten_map_break, count_flatten verdict, List.map_map, List.map_map]
  · congr 1
    apply List.map_congr_left
    intro x hx
    simp only [Function.comp_apply]
    rw [(hscan x hx).2]
  · intro p hp
    simp only [List.map_map, List.mem_map, Function.comp_apply] at hp
    obtain ⟨x, hx, rfl⟩ := hp
    exact (hscan x hx).1

end
end ChartPackage
