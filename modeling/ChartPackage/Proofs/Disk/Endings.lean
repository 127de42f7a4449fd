import Mathlib
import ChartPackage.Conversion.Places
import ChartPackage.Proofs.Disk.Renaming

/-!
The end of a path: its name and the folder it lies in. A path that ends in a name leads from the
spot of that folder to the name, however many slashes and dots stand around it.
-/

namespace ChartPackage

namespace Path

theorem dropWhile_reverse_idle {xs idles : List Text} {name : Text} (hname : isIdle name = false)
    (hidles : ∀ s ∈ idles, isIdle s = true) :
    ((xs ++ [name] ++ idles).reverse.dropWhile isIdle).reverse = xs ++ [name] := by
  rw [List.reverse_append, List.dropWhile_append_of_pos (by simpa using hidles),
    List.reverse_append,
    List.reverse_singleton, List.singleton_append, List.dropWhile_cons_of_neg (by simp [hname])]
  simp

/-- Settling drops idle segments at the end. -/
theorem settle_spec (segments : List Text) :
    ∃ idles, segments = settle segments ++ idles ∧ ∀ s ∈ idles, isIdle s = true := by
  cases segments with
  | nil => exact ⟨[], rfl, by simp⟩
  | cons first rest =>
      have hsplit : rest = (rest.reverse.dropWhile isIdle).reverse ++
          (rest.reverse.takeWhile isIdle).reverse := by
        rw [← List.reverse_append, List.takeWhile_append_dropWhile, List.reverse_reverse]
      have hidles : ∀ s ∈ (rest.reverse.takeWhile isIdle).reverse, isIdle s = true := by
        intro s hs
        exact List.mem_takeWhile_imp (List.mem_reverse.mp hs)
      rw [settle]
      split
      · next hnil =>
          rw [hnil, List.nil_append] at hsplit
          rw [← hsplit] at hidles
          split
          · next hfirst =>
              refine ⟨first :: rest, rfl, ?_⟩
              rw [List.forall_mem_cons, hfirst]
              exact ⟨by decide, hidles⟩
          · exact ⟨rest, rfl, hidles⟩
      · exact ⟨_, congrArg (first :: ·) hsplit, hidles⟩

theorem settle_concat {above idles : List Text} {name : Text} (hname : isIdle name = false)
    (hidles : ∀ s ∈ idles, isIdle s = true) :
      settle (above ++ [name] ++ idles) = above ++ [name] := by
  have hne : name ≠ [] := by
    intro hnil
    rw [hnil] at hname
    exact absurd hname (by decide)
  cases above with
  | nil =>
      have hnil : (idles.reverse.dropWhile isIdle).reverse = [] := by
        rw [List.reverse_eq_nil_iff, List.dropWhile_eq_nil_iff]
        simpa using hidles
      rw [List.nil_append, List.singleton_append, settle, hnil]
      simp [hne]
  | cons first above =>
      rw [List.cons_append, List.cons_append, settle, dropWhile_reverse_idle hname hidles]
      cases above with
      | nil => rfl
      | cons next above => rfl

theorem ne_nil_of_getLast?_settle {segments : List Text} {name : Text}
    (h : (settle segments).getLast? = some name) : name ≠ [] := by
  cases segments with
  | nil => cases h
  | cons first rest =>
      rw [settle] at h
      split at h
      · split at h
        · cases h
        · next hfirst =>
            obtain rfl : first = name := by simpa using h
            exact hfirst
      · next hne =>
          rw [List.getLast?_cons_of_ne_nil (by simpa using hne), List.getLast?_reverse] at h
          have hidle := List.head?_dropWhile_not isIdle rest.reverse
          rw [h] at hidle
          intro hnil
          rw [hnil] at hidle
          exact absurd hidle (by decide)

/-- A path that ends in a name, but for idle segments behind it. -/
theorem segments_of_fileName? {p : Path} {name : Text} (h : p.fileName? = some name) :
    ∃ above idles, p.segments = above ++ [name] ++ idles ∧ settle p.segments = above ++ [name] ∧
      Plain name ∧ ∀ s ∈ idles, isIdle s = true := by
  rw [fileName?] at h
  split at h
  · cases h
  · next last hlast =>
      split at h
      · cases h
      · next hdots =>
          obtain rfl := Option.some.inj h
          rw [not_or] at hdots
          obtain ⟨above, habove⟩ := List.getLast?_eq_some_iff.mp hlast
          obtain ⟨idles, hsplit, hidles⟩ := settle_spec p.segments
          rw [habove] at hsplit
          refine ⟨above, idles, hsplit, habove, ?_, hidles⟩
          exact
            { ne_nil := ne_nil_of_getLast?_settle hlast
              ne_dot := hdots.1
              ne_dots := hdots.2
              no_slash := Text.not_mem_of_mem_splitOn (t := p) (by rw [← segments, hsplit]; simp) }

theorem parent?_of_settle {p : Path} {above : List Text} {name : Text}
    (h : settle p.segments = above ++ [name]) :
    p.parent? = some (if settle above = [] then if p.IsAbsolute then ['/'] else []
      else ['/'].intercalate (settle above)) := by
  rw [parent?, h]
  split
  · next hnil => simp at hnil
  · rw [List.dropLast_concat]
    cases settle above with
    | nil => rfl
    | cons first rest => rfl

theorem isAbsolute_iff {p : Path} : IsAbsolute p ↔ ∃ rest, rest ≠ [] ∧ p.segments = [] :: rest := by
  constructor
  · intro h
    obtain ⟨q, rfl⟩ := List.head?_eq_some_iff.mp h
    exact ⟨q.splitOn '/', List.splitOn_ne_nil _ _, List.splitOn_append_cons_self [] q⟩
  · intro h
    obtain ⟨rest, hne, hsegments⟩ := h
    have hp : ['/'].intercalate p.segments = p := List.intercalate_splitOn '/'
    rw [hsegments, List.intercalate_cons_of_ne_nil hne] at hp
    rw [← hp]
    rfl

open Conversion (Places)

/-- What is left above the last name can be written as a path again. -/
theorem segments_above {p : Path} {above : List Text} {name : Text}
    (hsettle : settle p.segments = above ++ [name]) (hne : settle above ≠ []) :
    segments (['/'].intercalate (settle above)) = settle above := by
  obtain ⟨idles, hsplit, -⟩ := settle_spec p.segments
  obtain ⟨idles', hsplit', -⟩ := settle_spec above
  refine List.splitOn_intercalate '/' ?_ hne
  intro l hl
  refine Text.not_mem_of_mem_splitOn (t := p) ?_
  rw [← segments, hsplit, hsettle, hsplit']
  simp only [List.mem_append]
  exact Or.inl (Or.inl (Or.inl hl))

/-- A path that ends in a name is absolute if what is left above the name begins with nothing. -/
theorem isAbsolute_iff_of_settle {p : Path} {above rest : List Text} {first name : Text}
    (hsettle : settle p.segments = above ++ [name]) (hkept : settle above = first :: rest) :
    IsAbsolute p ↔ first = [] := by
  obtain ⟨idles, hsplit, -⟩ := settle_spec p.segments
  obtain ⟨idles', hsplit', -⟩ := settle_spec above
  rw [isAbsolute_iff, hsplit, hsettle, hsplit', hkept]
  constructor
  · intro h
    obtain ⟨rest', -, heq⟩ := h
    exact (List.cons.inj heq).1
  · intro hnil
    exact ⟨rest ++ idles' ++ [name] ++ idles, by simp, by simp [hnil]⟩

/-- The folder that a path lies in: the root or the home folder if no name is left above, and what
is left otherwise. -/
theorem folderOf_cases {p : Path} {above : List Text} {name : Text}
    (hsettle : settle p.segments = above ++ [name]) :
    settle above = [] ∧ Places.folderOf p = (if p.IsAbsolute then ['/'] else ['.']) ∨
      settle above ≠ [] ∧ (Places.folderOf p).segments = settle above ∧
        (IsAbsolute (Places.folderOf p) ↔ IsAbsolute p) := by
  cases hkept : settle above with
  | nil =>
      refine Or.inl ⟨rfl, ?_⟩
      rw [Places.folderOf, parent?_of_settle hsettle, hkept, if_pos rfl]
      by_cases h : p.IsAbsolute
      · simp [h]
      · simp [h]
  | cons first rest =>
      have hleft : settle above ≠ [] := hkept ▸ List.cons_ne_nil first rest
      have hsegments := segments_above hsettle hleft
      rw [hkept] at hsegments
      have hlast : (first :: rest).getLast? ≠ some [] := by
        rw [← hkept]
        intro h
        exact ne_nil_of_getLast?_settle h rfl
      have hne : ['/'].intercalate (first :: rest) ≠ [] := by
        intro hnil
        rw [hnil] at hsegments
        rw [← hsegments] at hlast
        exact hlast rfl
      have hfolder : Places.folderOf p = ['/'].intercalate (first :: rest) := by
        rw [Places.folderOf, parent?_of_settle hsettle, hkept, if_neg (List.cons_ne_nil first rest)]
        split
        · next h => cases h
        · next h => exact absurd (Option.some.inj h) hne
        · next h => exact (Option.some.inj h).symm
      refine Or.inr ⟨List.cons_ne_nil first rest, by rw [hfolder, hsegments], ?_⟩
      rw [hfolder, isAbsolute_iff_of_settle hsettle hkept, isAbsolute_iff, hsegments]
      constructor
      · intro h
        obtain ⟨rest', -, heq⟩ := h
        exact (List.cons.inj heq).1
      · intro hnil
        refine ⟨rest, fun hrest => ?_, by rw [hnil]⟩
        rw [hnil, hrest] at hlast
        exact hlast rfl

end Path

namespace Disk

theorem foldl_enter_idle {idles : List Text} (h : ∀ s ∈ idles, Path.isIdle s = true)
    (place : Location) :
    idles.foldl enter place = place := by
  induction idles generalizing place with
  | nil => rfl
  | cons s idles ih =>
      rw [List.forall_mem_cons] at h
      rw [List.foldl_cons, enter_of_idle h.1, ih h.2]

/-- Settling a path leaves where it leads. -/
theorem foldl_enter_settle (segments : List Text) (place : Location) :
    (Path.settle segments).foldl enter place = segments.foldl enter place := by
  obtain ⟨idles, hsplit, hidles⟩ := Path.settle_spec segments
  conv_rhs => rw [hsplit, List.foldl_append, foldl_enter_idle hidles]

theorem eq_of_mem_trail_idle {idles : List Text} (h : ∀ s ∈ idles, Path.isIdle s = true)
    {place m : Location} (hm : m ∈ trail place idles) : m = place := by
  induction idles generalizing place with
  | nil => cases hm
  | cons s idles ih =>
      rw [List.forall_mem_cons] at h
      rw [trail, enter_of_idle h.1, List.mem_cons] at hm
      exact hm.elim id (ih h.2)

open Conversion (Places)

/-- The folder that a path lies in leads where the segments above the name lead, and through the
same places. -/
theorem folderOf_leads (d : Disk) {p : Path} {above : List Text} {name : Text}
    (hsettle : Path.settle p.segments = above ++ [name]) :
    d.spot (Places.folderOf p) = above.foldl enter (d.start p) ∧
      ∀ m ∈ trail (d.start p) above, m ∈ d.way (Places.folderOf p) ∨
        m = d.spot (Places.folderOf p) := by
  obtain ⟨idles, hsplit, hidles⟩ := Path.settle_spec above
  cases Path.folderOf_cases hsettle with
  | inl h =>
      obtain ⟨hnil, hfolder⟩ := h
      rw [hnil, List.nil_append] at hsplit
      rw [← hsplit] at hidles
      have hspot : d.spot (Places.folderOf p) = d.start p := by
        rw [hfolder, start]
        by_cases h : p.IsAbsolute
        · rw [if_pos h, if_pos h]
          rfl
        · rw [if_neg h, if_neg h]
          rfl
      refine ⟨hspot.trans (foldl_enter_idle hidles _).symm, ?_⟩
      intro m hm
      rw [hspot]
      exact Or.inr (eq_of_mem_trail_idle hidles hm)
  | inr h =>
      obtain ⟨-, hsegments, habsolute⟩ := h
      have hstart := d.start_congr habsolute
      have hspot : d.spot (Places.folderOf p) = above.foldl enter (d.start p) := by
        rw [spot, hstart, hsegments, foldl_enter_settle]
      refine ⟨hspot, ?_⟩
      intro m hm
      rw [way, hstart, hsegments, hspot]
      rw [hsplit, trail_append, List.mem_append] at hm
      cases hm with
      | inl hm => exact Or.inl hm
      | inr hm =>
          exact Or.inr ((eq_of_mem_trail_idle hidles hm).trans (foldl_enter_settle above _))

/-- A path with a name leads to that name in its folder, through the places on the way to it. -/
theorem spot_eq_folderOf (d : Disk) {p : Path} {name : Text} (h : p.fileName? = some name) :
    d.spot p = d.spot (Places.folderOf p) ++ [name] := by
  obtain ⟨above, idles, -, hsettle, hplain, -⟩ := Path.segments_of_fileName? h
  rw [(folderOf_leads d hsettle).1, spot, ← foldl_enter_settle, hsettle, List.foldl_append,
    List.foldl_cons, List.foldl_nil, enter_of_plain hplain]

/-- A path that ends in no name leads to a folder. -/
theorem folder_of_nameless {d : Disk} (hd : d.WellFormed) {p : Path} (h : p.fileName? = none)
    (hway : ∀ m ∈ d.way p, d.get? m = some .folder) : d.get? (d.spot p) = some .folder := by
  obtain ⟨idles, hsplit, -⟩ := Path.settle_spec p.segments
  rw [spot, ← foldl_enter_settle]
  cases List.eq_nil_or_concat (Path.settle p.segments) with
  | inl hnil =>
      rw [hnil]
      exact hway _ (d.start_mem_way p)
  | inr hconcat =>
      obtain ⟨above, last, hlast⟩ := hconcat
      rw [List.concat_eq_append] at hlast
      have hplace : d.get? (above.foldl enter (d.start p)) = some .folder := by
        refine hway _ ?_
        rw [way, hsplit, hlast, trail_append, trail_append]
        simp [trail]
      have hdots : last = ['.'] ∨ last = ['.', '.'] := by
        rw [Path.fileName?, hlast, List.getLast?_concat] at h
        dsimp only at h
        split at h
        · next hdots => exact hdots
        · cases h
      rw [hlast, List.foldl_append, List.foldl_cons, List.foldl_nil]
      cases hdots with
      | inl hdot =>
          rw [hdot, enter_of_idle (by decide)]
          exact hplace
      | inr hdots =>
          rw [hdots]
          exact hd.folder_dropLast hplace

theorem mem_way_folderOf {d : Disk} {p : Path} {name : Text} (h : p.fileName? = some name)
    {m : Location} (hm : m ∈ d.way p) :
    m ∈ d.way (Places.folderOf p) ∨ m = d.spot (Places.folderOf p) ∨ m = d.spot p := by
  obtain ⟨above, idles, hsegments, hsettle, hplain, hidles⟩ := Path.segments_of_fileName? h
  obtain ⟨hspot, htrail⟩ := folderOf_leads d hsettle
  have hend : (above ++ [name]).foldl enter (d.start p) = d.spot p := by
    rw [← hsettle, foldl_enter_settle, spot]
  rw [way, hsegments, trail_append, trail_append, hend, List.mem_append, List.mem_append] at hm
  cases hm with
  | inl hm =>
      cases hm with
      | inl hm => exact (htrail m hm).imp_right Or.inl
      | inr hm =>
          rw [trail, trail, List.mem_singleton, ← hspot] at hm
          exact Or.inr (Or.inl hm)
  | inr hm => exact Or.inr (Or.inr (eq_of_mem_trail_idle hidles hm))

/-- The path above a path leads to a place on its way, through places on its way. -/
theorem parent?_leads (d : Disk) {p q : Path} (h : p.parent? = some q) :
    d.spot q ∈ d.way p ∧ ∀ m ∈ d.way q, m ∈ d.way p := by
  obtain ⟨idles, hsplit, -⟩ := Path.settle_spec p.segments
  have hne : Path.settle p.segments ≠ [] := by
    intro hnil
    rw [Path.parent?, hnil] at h
    cases h
  obtain ⟨above, name, hsettle⟩ := (List.eq_nil_or_concat _).resolve_left hne
  rw [List.concat_eq_append] at hsettle
  -- The path above is the folder, but for an empty path, which leads where a dot does.
  have hfolder : d.spot q = d.spot (Places.folderOf p) ∧ d.way q = d.way (Places.folderOf p) := by
    rw [Places.folderOf, h]
    cases q with
    | nil => exact ⟨rfl, rfl⟩
    | cons c q => exact ⟨rfl, rfl⟩
  rw [hfolder.1, hfolder.2, (folderOf_leads d hsettle).1]
  constructor
  · rw [way, hsplit, hsettle, trail_append, trail_append]
    simp [trail]
  · intro m hm
    cases Path.folderOf_cases hsettle with
    | inl hroot =>
        have hstart : m = d.start p := by
          have hslash : d.way ['/'] = [[], []] := rfl
          have hdot : d.way ['.'] = [d.home] := rfl
          rw [hroot.2] at hm
          rw [start]
          by_cases habsolute : p.IsAbsolute
          · rw [if_pos habsolute, hslash] at hm
            rw [if_pos habsolute]
            simpa using hm
          · rw [if_neg habsolute, hdot] at hm
            rw [if_neg habsolute]
            simpa using hm
        rw [hstart]
        exact d.start_mem_way p
    | inr hbelow =>
        obtain ⟨idles', hsplit', -⟩ := Path.settle_spec above
        rw [way, d.start_congr hbelow.2.2, hbelow.2.1] at hm
        rw [way, hsplit, hsettle, hsplit', trail_append, trail_append, trail_append]
        simp [hm]

/-- The paths above a path lead to places on its way, through places on its way. -/
theorem ancestors_lead (d : Disk) {p q : Path} (h : q ∈ p.ancestors) :
    (d.spot q = d.spot p ∨ d.spot q ∈ d.way p) ∧ ∀ m ∈ d.way q, m ∈ d.way p := by
  have hgo : ∀ fuel p, q ∈ Path.ancestors.go fuel p →
      (d.spot q = d.spot p ∨ d.spot q ∈ d.way p) ∧ ∀ m ∈ d.way q, m ∈ d.way p := by
    intro fuel
    induction fuel with
    | zero =>
        intro p hq
        cases hq
    | succ fuel ih =>
        intro p hq
        rw [Path.ancestors.go, List.mem_cons] at hq
        cases hq with
        | inl heq => exact ⟨Or.inl (congrArg d.spot heq), fun m hm => heq ▸ hm⟩
        | inr hq =>
            cases hparent : p.parent? with
            | none =>
                rw [hparent] at hq
                cases hq
            | some r =>
                rw [hparent] at hq
                obtain ⟨hspot, hway⟩ := parent?_leads d hparent
                obtain ⟨hlead, hways⟩ := ih r hq
                refine ⟨Or.inr ?_, fun m hm => hway m (hways m hm)⟩
                cases hlead with
                | inl heq => exact heq ▸ hspot
                | inr hmem => exact hway _ hmem
  exact hgo _ p h

/-- A path that is found for renaming ends in a name. -/
theorem fileName?_of_named {p : Path} (h : endsInNoName p = false) :
    p.fileName? = some p.lastSegment := by
  have hplain := Path.plain_lastSegment h
  obtain ⟨before, behind, hsplit, -, hbehind⟩ :=
    List.filter_eq_append_iff.mp (Path.filter_segments h)
  obtain ⟨empties, idles, rfl, -, -, hidles⟩ := List.filter_eq_cons_iff.mp hbehind
  have hidle : ∀ s ∈ idles, Path.isIdle s = true := by
    intro s hs
    have hnil : s = [] := by simpa using List.filter_eq_nil_iff.mp hidles s hs
    rw [hnil]
    decide
  have hsegments : p.segments = (before ++ empties) ++ [p.lastSegment] ++ idles := by
    simpa using hsplit
  rw [Path.fileName?, hsegments, Path.settle_concat hplain.not_idle hidle, List.getLast?_concat]
  dsimp only
  rw [if_neg (not_or.mpr ⟨hplain.ne_dot, hplain.ne_dots⟩)]

end Disk

theorem Path.fileName?_join (base : Path) {name : Text} (h : Plain name) :
    (base.join name).fileName? = some name := by
  obtain ⟨above, hsegments, -⟩ := segments_join base h
  rw [Disk.fileName?_of_named (neat_join base h).named, lastSegment, hsegments]
  simp [h.ne_nil]

end ChartPackage
