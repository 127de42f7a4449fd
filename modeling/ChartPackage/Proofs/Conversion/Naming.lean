import Mathlib
import ChartPackage.Proofs.Conversion.Steps

/-!
New names for several charts. They are given one after the other, and each that is given makes the
old one free; where one is refused the charts before it keep their new names and the others their
old ones. Whatever the user answers, nothing in the folder is lost or written over.
-/

namespace ChartPackage

namespace Disk

/-- The names of what lies in a folder. -/
def present (d : Disk) (place : Location) : Set Text := {n | d.get? (place ++ [n]) ≠ none}

theorem mem_present {d : Disk} {place : Location} {n : Text} :
    n ∈ d.present place ↔ d.get? (place ++ [n]) ≠ none := Iff.rfl

theorem present_of_some {d : Disk} {place : Location} {n : Text} {e : Item}
    (h : d.get? (place ++ [n]) = some e) :
    n ∈ d.present place := by
  rw [mem_present, h]
  exact Option.some_ne_none e

/-- A file of a folder is found by its path if the path is usable and the way to it is clear. -/
theorem isFile_join_iff {d : Disk} {base : Path} (hp : d.Direct base) {n : Text}
    (hn : Path.Plain n) :
    d.isFile (base.join n) = true ↔ (base.join n).Usable ∧
      (∀ m ∈ d.way (base.join n), d.get? m = some .folder) ∧
      ∃ c, d.get? (d.spot base ++ [n]) = some (.file c) := by
  simp only [isFile_iff, entry_eq_ok_iff_spot (hp.join hn).straight, spot_join _ _ hn,
    exists_and_left]

/-- A name that is not taken, if something can be given it, is that of nothing. -/
theorem none_of_rename {d d' : Disk} {source target : Path} (hsource : d.Direct source)
    (hs : d.Direct target) (htarget : target.Neat) (hfree : d.isTaken target = false)
    (h : rename source target d = .ok d') : d.get? (d.spot target) = none := by
  obtain ⟨-, -, -, a, b, e, -, -, hb, -⟩ := (rename_eq_ok_iff hsource.way hs.way).mp h
  have hlocate := (aim_eq_ok_iff_locate hs.straight htarget).mp hb
  obtain rfl := spot_of_locate hs.straight hlocate
  cases hget : d.get? (d.spot target) with
  | none => rfl
  | some e =>
      have htaken := isTaken_iff.mpr ⟨e, entry_eq_ok_iff.mpr ⟨_, hlocate, hget⟩⟩
      rw [hfree] at htaken
      cases htaken

/-- Some entries of a folder have new names on another disk, no two the same one, with all that lies
below them. The other entries are as they were, and there are no more than these. -/
structure Renamed (d d' : Disk) (place : Location) (names names' : List Text) : Prop where
  home : d'.home = d.home
  steady : d.Clean place → Steady d d'
  length : names'.length = names.length
  nodup : names'.Nodup
  moved : ∀ p ∈ names.zip names', ∀ r, d'.get? (place ++ p.2 :: r) = d.get? (place ++ p.1 :: r)
  kept : ∀ n ∈ d.present place, n ∉ names →
    n ∉ names' ∧ ∀ r, d'.get? (place ++ n :: r) = d.get? (place ++ n :: r)
  only : ∀ n ∈ d'.present place, n ∈ names' ∨ n ∈ d.present place ∧ n ∉ names
  elsewhere : ∀ m, (∀ n, ¬ place ++ [n] <+: m) → d'.get? m = d.get? m

variable {d d₁ d' : Disk} {place : Location} {names names' : List Text} {chart name : Text}

theorem Renamed.refl (d : Disk) (place : Location) (hnodup : names.Nodup) :
    Renamed d d place names names where
  home := rfl
  steady _ := .refl d
  length := rfl
  nodup := hnodup
  moved p hp r := by
    obtain ⟨i, hi⟩ := List.mem_iff_getElem?.mp hp
    obtain ⟨hfst, hsnd⟩ := List.getElem?_zip_eq_some.mp hi
    rw [Option.some.inj (hfst.symm.trans hsnd)]
  kept n _ hn := ⟨hn, fun _ => rfl⟩
  only n hn := by
    by_cases hmem : n ∈ names
    · exact Or.inl hmem
    · exact Or.inr ⟨hn, hmem⟩
  elsewhere _ _ := rfl

theorem Renamed.spot (h : Renamed d d' place names names') (p : Path) : d'.spot p = d.spot p := by
  rw [Disk.spot, Disk.spot, start, start, h.home]

/-- One entry is given a new name, or its own. -/
theorem renamed_of_rename {project : Path} (hp : d.Direct project) (hchart : Path.Plain chart)
    (hname : Path.Plain name)
    (hthere : chart ∈ d.present (d.spot project))
    (hfree : name = chart ∨ name ∉ d.present (d.spot project))
    (h : rename (project.join chart) (project.join name) d = .ok d') :
    Renamed d d' (d.spot project) [chart] [name] := by
  obtain ⟨hframe, harrived, hvacated⟩ := frame_rename (hp.join hchart).way (hp.join hname).way h
  rw [spot_join _ _ hchart, spot_join _ _ hname] at hframe harrived hvacated
  have hbeside : ∀ n, n ≠ chart → n ≠ name →
      ∀ r, d'.get? (d.spot project ++ n :: r) = d.get? (d.spot project ++ n :: r) := by
    intro n hne hne'
    refine hframe.below_entry ?_
    rw [List.forall_mem_cons, List.forall_mem_singleton]
    exact ⟨Apart.of_ne hne.symm, Apart.of_ne hne'.symm⟩
  have hsteady : d.Clean (d.spot project) → Steady d d' :=
    fun hclean => hframe.steady_within hclean (by simp)
  refine ⟨hframe.home, hsteady, rfl, List.nodup_singleton name, ?_, ?_, ?_, ?_⟩
  · rintro p hp r
    obtain rfl := List.mem_singleton.mp hp
    simpa using harrived r
  · intro n hn hother
    have hne : n ≠ name := by
      rintro rfl
      rcases hfree with rfl | hfree
      · exact hother (List.mem_singleton_self n)
      · exact hfree hn
    have hne' : n ≠ chart := fun heq => hother (heq ▸ List.mem_singleton_self n)
    exact ⟨fun hmem => hne (List.mem_singleton.mp hmem), hbeside n hne' hne⟩
  · intro n hn
    by_cases hne : n = name
    · exact Or.inl (hne ▸ List.mem_singleton_self n)
    · have hother : n ≠ chart := by
        rintro rfl
        refine hn ?_
        have hnone :=
          hvacated (fun heq => hne (List.singleton_inj.mp (List.append_cancel_left heq))) []
        rwa [List.append_nil] at hnone
      refine Or.inr ⟨?_, fun hmem => hother (List.mem_singleton.mp hmem)⟩
      rwa [mem_present, ← hbeside n hother hne]
  · intro m hm
    refine hframe.get?_eq ?_
    rw [List.forall_mem_cons, List.forall_mem_singleton]
    exact ⟨hm chart, hm name⟩

/-- The others are given names after the first. -/
theorem Renamed.cons (hthere : ∀ n ∈ names, n ∈ d.present place) (hchart : chart ∈ d.present place)
    (hfresh : chart ∉ names) (hfirst : Renamed d d₁ place [chart] [name])
    (hrest : Renamed d₁ d' place names names') :
    Renamed d d' place (chart :: names) (name :: names') := by
  have hpair : ∀ r, d₁.get? (place ++ name :: r) = d.get? (place ++ chart :: r) :=
    hfirst.moved (chart, name) List.mem_cons_self
  have hbeside : ∀ n ∈ d.present place, n ≠ chart →
      n ≠ name ∧ ∀ r, d₁.get? (place ++ n :: r) = d.get? (place ++ n :: r) := by
    intro n hn hne
    obtain ⟨hother, hsame⟩ := hfirst.kept n hn fun hmem => hne (List.mem_singleton.mp hmem)
    exact ⟨fun heq => hother (heq ▸ List.mem_singleton_self n), hsame⟩
  have hothers : ∀ n ∈ names, n ≠ name ∧ ∀ r, d₁.get? (place ++ n :: r) = d.get?
      (place ++ n :: r) :=
    fun n hn => hbeside n (hthere n hn) fun heq => hfresh (heq ▸ hn)
  have hname : name ∈ d₁.present place := by
    rw [mem_present, hpair []]
    exact hchart
  obtain ⟨hlater, hstill⟩ := hrest.kept name hname fun hmem => (hothers name hmem).1 rfl
  have hsteady : d.Clean place → Steady d d' := by
    intro hclean
    have hsteady := hfirst.steady hclean
    exact hsteady.trans (hrest.steady fun r => hsteady.noLink _ (hclean r))
  refine ⟨hrest.home.trans hfirst.home, hsteady, ?_, ?_, ?_, ?_, ?_, ?_⟩
  · rw [List.length_cons, List.length_cons, hrest.length]
  · exact List.nodup_cons.mpr ⟨hlater, hrest.nodup⟩
  · rw [List.zip_cons_cons, List.forall_mem_cons]
    refine ⟨fun r => (hstill r).trans (hpair r), fun p hp r => ?_⟩
    rw [hrest.moved p hp, (hothers p.1 (List.of_mem_zip hp).1).2]
  · intro n hn hmissing
    rw [List.mem_cons, not_or] at hmissing ⊢
    obtain ⟨hne, hsame⟩ := hbeside n hn hmissing.1
    obtain ⟨hother, hsame'⟩ := hrest.kept n (by rwa [mem_present, hsame []]) hmissing.2
    exact ⟨⟨hne, hother⟩, fun r => (hsame' r).trans (hsame r)⟩
  · intro n hn
    rw [List.mem_cons, List.mem_cons, not_or]
    rcases hrest.only n hn with hnew | ⟨hold, hmissing⟩
    · exact Or.inl (Or.inr hnew)
    · rcases hfirst.only n hold with hself | ⟨hthere, hne⟩
      · exact Or.inl (Or.inl (List.mem_singleton.mp hself))
      · exact Or.inr ⟨hthere, fun heq => hne (List.mem_singleton.mpr heq), hmissing⟩
  · intro m hm
    rw [hrest.elsewhere m hm, hfirst.elsewhere m hm]

/-- What lies in the folder after one entry has been given a new name. -/
theorem Renamed.present_of_one (h : Renamed d d' place [chart] [name])
    (hthere : chart ∈ d.present place) :
    d'.present place = insert name (d.present place \ {chart}) := by
  ext n
  rw [Set.mem_insert_iff, Set.mem_sdiff, Set.mem_singleton_iff]
  constructor
  · intro hn
    simpa using h.only n hn
  · rintro (rfl | ⟨hold, hne⟩)
    · rwa [mem_present, h.moved (chart, n) List.mem_cons_self []]
    · rwa [mem_present, (h.kept n hold (by simpa using hne)).2 []]

/-- Another file of the folder is still found by its path when a file has been given a new name. -/
theorem Renamed.isFile {project : Path} (h : Renamed d d' (d.spot project) [chart] [name])
    (hd : d.WellFormed) (hp : d.Direct project)
    (hchart : Path.Plain chart) (hfile : d.isFile (project.join chart)) {n : Text}
    (hn : Path.Plain n)
    (hne : n ≠ chart) (hother : d.isFile (project.join n)) : d'.isFile (project.join n) := by
  obtain ⟨-, -, _, hcontent⟩ := (isFile_join_iff hp hchart).mp hfile
  rw [isFile_join_iff hp hn] at hother
  rw [isFile_join_iff ((h.steady hp.clean).direct hp) hn]
  obtain ⟨husable, hway, c, hc⟩ := hother
  -- A folder on the way can lie below the folder of the charts, but it does not lie below a chart.
  have hfolder : ∀ m, d.get? m = some .folder → d'.get? m = some .folder := by
    intro m hm
    by_cases hbelow : ∃ k, d.spot project ++ [k] <+: m
    · obtain ⟨k, r, rfl⟩ := hbelow
      have hk : d.get? (d.spot project ++ [k]) = some .folder :=
        hd.folder_of_prefix hm (List.prefix_append _ r)
      have hapart : k ∉ [chart] := by
        rw [List.mem_singleton]
        rintro rfl
        rw [hk] at hcontent
        cases hcontent
      rw [List.append_assoc] at hm ⊢
      exact ((h.kept k (present_of_some hk) hapart).2 r).trans hm
    · rw [h.elsewhere m (not_exists.mp hbelow), hm]
  refine ⟨husable, fun m hm => hfolder m (hway m ?_), c, ?_⟩
  · rwa [way, start, h.home] at hm
  · rw [h.spot]
    exact ((h.kept n (present_of_some hc) (by simpa using hne)).2 []).trans hc

end Disk

namespace Conversion
open Disk (Renamed Apart mem_present)

variable {σ : Type} {crew : Crew σ} {allowed : Whitelists} {project : Path}

/-- What the system takes as the name of an entry of a folder: not too long by itself or as a
path. -/
structure Acceptable (project : Path) (name : Text) : Prop extends Path.Proper name where
  path_short : (Utf8.encode (project.join name)).length ≤ Disk.pathLimit

/-- Whether entries of a folder can be given these names one after the other: each name is accepted,
and it is the entry's own or that of nothing by then. A name that is given makes the old one
free. -/
def Nameables (accepts : Text → Prop) : Set Text → List (Text × Text) → Prop
  | _, [] => True
  | present, (chart, name) :: rest =>
      (accepts name ∧ (name = chart ∨ name ∉ present)) ∧
        Nameables accepts (insert name (present \ {chart})) rest

section
variable {d : Disk} {chart name : Text}

theorem present_of_isFile (hp : d.Direct project) (hchart : Path.Plain chart)
    (hfile : d.isFile (project.join chart)) :
    chart ∈ d.present (d.spot project) := by
  obtain ⟨-, -, c, hcontent⟩ := (Disk.isFile_join_iff hp hchart).mp hfile
  exact Disk.present_of_some hcontent

/-- A path to an entry of a folder is usable for the sake of its name and its length only. -/
theorem usable_join (hchart : Path.Plain chart) (husable : (project.join chart).Usable)
    (hname : Path.Proper name)
    (hshort : (Utf8.encode (project.join name)).length ≤ Disk.pathLimit) :
    (project.join name).Usable where
  ne_nil := Path.join_ne_nil hname.toPlain
  no_nul := by
    have hbase : '\x00' ∉ project := by
      intro hnul
      have hjoined := husable.no_nul
      rw [Path.join_plain hchart, if_neg (List.ne_nil_of_mem hnul)] at hjoined
      split at hjoined <;> exact hjoined (List.mem_append_left _ hnul)
    have hnul := hname.no_nul
    rw [Path.join_plain hname.toPlain]
    split
    · exact hnul
    · split <;> simp [hbase, hnul]
  short := hshort
  names := by
    obtain ⟨above, hchart, hbase⟩ := Path.segments_join project hchart
    obtain ⟨above', hsegments, hbase'⟩ := Path.segments_join project hname.toPlain
    have habove : ∀ s ∈ project.segments, (Utf8.encode s).length ≤ Disk.nameLimit := by
      intro s hs
      have hmem : s ∈ above ∨ s = [] := by
        rcases hbase with hbase | hbase
        · exact Or.inl (hbase ▸ hs)
        · rw [hbase, List.mem_append, List.mem_singleton] at hs
          exact hs
      rcases hmem with hmem | rfl
      · exact husable.names s (hchart ▸ List.mem_append_left _ hmem)
      · decide
    intro s hs
    rw [hsegments, List.mem_append, List.mem_singleton] at hs
    rcases hs with hs | rfl
    · refine habove s ?_
      rcases hbase' with hbase' | hbase'
      · rwa [hbase']
      · rw [hbase']
        exact List.mem_append_left _ hs
    · exact hname.short

theorem refusal?_eq_none_iff :
    refusal? d project chart name = none ↔
      Path.Plain name ∧ (name = chart ∨ d.isTaken (project.join name) = false) := by
  refine ⟨fun h => ?_, fun ⟨hplain, hfree⟩ => ?_⟩
  · obtain ⟨hplain, hfree⟩ := plain_of_refusal? h
    exact ⟨hplain, or_iff_not_imp_left.mpr hfree⟩
  · have hfile : Path.fileName? name = some name := by
      have hjoined := Path.fileName?_join [] hplain
      rwa [Path.join_plain hplain, if_pos rfl] at hjoined
    rw [refusal?, if_neg hplain.ne_nil, if_neg (not_not.mpr hfile), if_neg]
    rintro ⟨hne, htaken⟩
    rw [hfree.resolve_left hne] at htaken
    cases htaken

/-- A file can be given every acceptable name that is its own or that of nothing. -/
theorem exists_rename (hp : d.Direct project) (hchart : Path.Plain chart)
    (hfile : d.isFile (project.join chart))
    (hname : Acceptable project name) (hfree : name = chart ∨ name ∉ d.present (d.spot project)) :
    ∃ d', Disk.rename (project.join chart) (project.join name) d = .ok d' := by
  obtain ⟨husable, hway, c, hcontent⟩ := (Disk.isFile_join_iff hp hchart).mp hfile
  have haim : ∀ {n}, Path.Plain n → (project.join n).Usable →
      d.aim (project.join n) = .ok (d.spot project ++ [n]) := by
    intro n hn husable
    have hs := (hp.join hn).straight
    rw [Disk.aim_eq_ok_iff_locate hs (Path.neat_join project hn), ← Disk.spot_join _ _ hn]
    refine (Disk.locate_eq_ok_iff hs).mpr ⟨husable, fun m hm => hway m ?_, rfl⟩
    rwa [Disk.mem_way_join hchart, ← Disk.mem_way_join hn]
  have hplain := hname.toPlain
  have hneat := Path.neat_join project hchart
  have hneat' := Path.neat_join project hplain
  obtain ⟨d', hmove⟩ : ∃ d', d.spot project ++ [chart] = d.spot project ++ [name] ∧ d' = d ∨
      d.spot project ++ [chart] ≠ d.spot project ++ [name] ∧
        Apart (d.spot project ++ [chart]) (d.spot project ++ [name]) ∧
          d.Yields (d.spot project ++ [name]) (.file c) ∧
        d' = d.move (d.spot project ++ [chart]) (d.spot project ++ [name]) := by
    by_cases hself : name = chart
    · exact ⟨d, Or.inl ⟨by rw [hself], rfl⟩⟩
    · have hnothing := not_not.mp (hfree.resolve_left hself)
      exact ⟨_,
        Or.inr ⟨by simpa using Ne.symm hself, Apart.of_ne (Ne.symm hself), .nothing hnothing, rfl⟩⟩
  have habove : d.placeAbove (project.join chart) = d.placeAbove (project.join name) :=
    (Disk.placeAbove_join d project hchart).trans (Disk.placeAbove_join d project hplain).symm
  exact ⟨d', (Disk.rename_eq_ok_iff (hp.join hchart).way (hp.join hplain).way).mpr
    ⟨hneat.named, hneat'.named, congrArg d.device habove,
    _, _, _, haim hchart husable, hcontent,
    haim hplain (usable_join hchart husable hname.toProper hname.path_short),
    fun _ => ⟨hneat.no_slash, hneat'.no_slash⟩, hmove⟩⟩

/-- Just the names that the folder and the system take are taken. -/
theorem nameable_iff (hp : d.Direct project) (hchart : Path.Plain chart)
    (hfile : d.isFile (project.join chart)) :
    (refusal? d project chart name = none ∧
      ∃ d', Disk.rename (project.join chart) (project.join name) d = .ok d') ↔
      Acceptable project name ∧ (name = chart ∨ name ∉ d.present (d.spot project)) := by
  rw [refusal?_eq_none_iff]
  constructor
  · rintro ⟨⟨hplain, hfree⟩, d', hrename⟩
    have hs := hp.join hplain
    obtain ⟨-, htarget, -, -, b, -, -, -, hb, -⟩ :=
      (Disk.rename_eq_ok_iff (hp.join hchart).way hs.way).mp hrename
    obtain ⟨husable, -, -⟩ := (Disk.aim_eq_ok_iff hs.way htarget).mp hb
    obtain ⟨above, hsegments, -⟩ := Path.segments_join project hplain
    have hmem : name ∈ (project.join name).segments :=
      hsegments ▸ List.mem_append_right _ (List.mem_singleton_self name)
    have hproper : Path.Proper name :=
      ⟨hplain, fun hnul => husable.no_nul (Text.mem_of_mem_splitOn hmem hnul), husable.names _ hmem⟩
    refine ⟨⟨hproper, husable.short⟩, hfree.imp_right fun hfree => ?_⟩
    have hnone := Disk.none_of_rename (hp.join hchart) hs (Path.neat_join project hplain) hfree
      hrename
    rw [Disk.spot_join _ _ hplain] at hnone
    exact fun hthere => hthere hnone
  · rintro ⟨hname, hfree⟩
    refine ⟨⟨hname.toPlain, hfree.imp_right fun hmissing => ?_⟩,
      exists_rename hp hchart hfile hname hfree⟩
    rw [Bool.eq_false_iff]
    intro htaken
    obtain ⟨e, he⟩ := Disk.isTaken_iff.mp htaken
    have hthere := Disk.get?_of_entry (hp.join hname.toPlain).straight he
    rw [Disk.spot_join _ _ hname.toPlain] at hthere
    exact hmissing (Disk.present_of_some hthere)

end

section
variable {s : Stage σ}

/-- What becomes of a chart: it is refused its new name by the folder or by the system, or the user
is told. -/
theorem renameChart_apply (crew : Crew σ) (project : Path) (chart answer : Text) (s : Stage σ) :
    renameChart crew project chart answer s =
      match refusal? s.disk project chart (Text.trim isBlank answer),
        Disk.rename (project.join chart) (project.join (Text.trim isBlank answer)) s.disk with
      | some reason, _ => (.error (.renameRefused chart (Text.trim isBlank answer) reason), s)
      | none, .error e => (.error (.renameRefused chart (Text.trim isBlank answer) e.message), s)
      | none, .ok d => (.ok (chart, Text.trim isBlank answer),
          (crew.tell (Text.phrase ["Renamed ", chart, " to ", Text.trim isBlank answer])
            { s with disk := d }).2) := by
  rw [renameChart, Work.bind_apply, Job.look]
  dsimp only
  cases refusal? s.disk project chart (Text.trim isBlank answer) with
  | some reason => rfl
  | none =>
      dsimp only
      rw [Work.bind_apply, Work.adapt_apply, Job.onDisk, Disk.Act.change]
      cases Disk.rename (project.join chart) (project.join (Text.trim isBlank answer)) s.disk with
      | error e => rfl
      | ok d => rfl

/-- A chart gets its new name if it can, and nothing changes if it cannot. -/
theorem renameChart_cases (crew : Crew σ) (hp : s.disk.Direct project) {chart answer name : Text}
    (hname : Text.trim isBlank answer = name)
    (hchart : Path.Plain chart) (hfile : s.disk.isFile (project.join chart)) :
    (Acceptable project name ∧ (name = chart ∨ name ∉ s.disk.present (s.disk.spot project))) ∧
        (∃ s', renameChart crew project chart answer s = (.ok (chart, name), s') ∧
          Renamed s.disk s'.disk (s.disk.spot project) [chart] [name]) ∨
      ¬ (Acceptable project name ∧ (name = chart ∨ name ∉ s.disk.present (s.disk.spot project))) ∧
        ∃ f, renameChart crew project chart answer s = (.error f, s) := by
  rw [← nameable_iff hp hchart hfile, renameChart_apply, hname]
  cases hrefusal : refusal? s.disk project chart name with
  | some reason => exact Or.inr ⟨fun h => absurd h.1 (Option.some_ne_none reason), _, rfl⟩
  | none =>
      cases hrename : Disk.rename (project.join chart) (project.join name) s.disk with
      | error e =>
          refine Or.inr ⟨fun h => ?_, _, rfl⟩
          obtain ⟨d', hd'⟩ := h.2
          cases hd'
      | ok d' =>
          have hable := (nameable_iff hp hchart hfile).mp ⟨hrefusal, d', hrename⟩
          refine Or.inl ⟨⟨rfl, d', rfl⟩, _, rfl, ?_⟩
          rw [crew.disk_tell]
          exact Disk.renamed_of_rename hp hchart hable.1.toPlain
            (present_of_isFile hp hchart hfile) hable.2 hrename

/-- Several charts get their new names if they can. If one cannot, the charts before it have their
new names and the others their old ones. -/
theorem renameCharts_cases (crew : Crew σ) {renames : List (Text × Text)} (hd : s.disk.WellFormed)
    (hp : s.disk.Direct project)
    (hcharts : ∀ p ∈ renames, Path.Plain p.1 ∧ s.disk.isFile (project.join p.1))
    (hnodup : (renames.map Prod.fst).Nodup) :
    let named := renames.map fun p => (p.1, Text.trim isBlank p.2)
    let present := s.disk.present (s.disk.spot project)
    (Nameables (Acceptable project) present named ∧
        ∃ s', renames.mapM (fun p => renameChart crew project p.1 p.2) s = (.ok named, s') ∧
          Renamed s.disk s'.disk (s.disk.spot project) (renames.map Prod.fst)
            (named.map Prod.snd)) ∨
      ¬ Nameables (Acceptable project) present named ∧
        ∃ f s' j, renames.mapM (fun p => renameChart crew project p.1 p.2) s = (.error f, s') ∧
          Renamed s.disk s'.disk (s.disk.spot project) (renames.map Prod.fst)
            ((named.map Prod.snd).take j ++ (renames.map Prod.fst).drop j) := by
  induction renames generalizing s with
  | nil => exact Or.inl ⟨trivial, s, rfl, .refl _ _ List.nodup_nil⟩
  | cons p renames ih =>
      obtain ⟨chart, answer⟩ := p
      rw [List.forall_mem_cons] at hcharts
      obtain ⟨⟨hchart, hfile⟩, hcharts⟩ := hcharts
      rcases renameChart_cases crew hp (rfl : Text.trim isBlank answer = _) hchart hfile with
        ⟨hable, s₁, hrun, hfirst⟩ | ⟨hunable, f, hrun⟩
      · have hthere := present_of_isFile hp hchart hfile
        have hothers : ∀ n ∈ renames.map Prod.fst, n ∈ s.disk.present (s.disk.spot project) := by
          intro n hn
          obtain ⟨q, hq, rfl⟩ := List.mem_map.mp hn
          exact present_of_isFile hp (hcharts q hq).1 (hcharts q hq).2
        rw [List.map_cons, List.nodup_cons] at hnodup
        have hstill : ∀ p ∈ renames, Path.Plain p.1 ∧ s₁.disk.isFile (project.join p.1) := by
          intro q hq
          obtain ⟨hplain, hother⟩ := hcharts q hq
          have hne : q.1 ≠ chart := fun heq => hnodup.1 (List.mem_map.mpr ⟨q, hq, heq⟩)
          exact ⟨hplain, hfirst.isFile hd hp hchart hfile hplain hne hother⟩
        have hsteady := hfirst.steady hp.clean
        have hrest := ih (s := s₁) (hsteady.wellFormed hd) (hsteady.direct hp) hstill hnodup.2
        rw [hfirst.spot, hfirst.present_of_one hthere] at hrest
        have hgather : ∀ {d' names'}, Renamed s₁.disk d' (s.disk.spot project)
            (renames.map Prod.fst) names' →
            Renamed s.disk d' (s.disk.spot project) (chart :: renames.map Prod.fst)
              (Text.trim isBlank answer :: names') :=
          Renamed.cons hothers hthere hnodup.1 hfirst
        rcases hrest with ⟨hnames, s', hrun', hrenamed⟩ | ⟨hnames, f, s', j, hrun', hrenamed⟩
        · refine Or.inl ⟨⟨hable, hnames⟩, s', ?_, hgather hrenamed⟩
          rw [List.mapM_cons, Work.bind_apply, hrun]
          dsimp only
          rw [Work.bind_apply, hrun']
          rfl
        · refine Or.inr ⟨fun h => hnames h.2, f, s', j + 1, ?_, hgather hrenamed⟩
          rw [List.mapM_cons, Work.bind_apply, hrun]
          dsimp only
          rw [Work.bind_apply, hrun']
      · refine Or.inr ⟨fun h => hunable h.1, f, s, 0, ?_, .refl _ _ hnodup⟩
        rw [List.mapM_cons, Work.bind_apply, hrun]

/-- Charts and answers of one number, with what becomes of them as in `renameCharts_cases`. -/
theorem renameCharts_of_length (crew : Crew σ) {charts answers : List Text}
    (hlength : answers.length = charts.length)
    (hd : s.disk.WellFormed) (hp : s.disk.Direct project) (hcharts : ∀ n ∈ charts, Path.Plain n ∧
      s.disk.isFile (project.join n))
    (hnodup : charts.Nodup) :
    let given := answers.map (Text.trim isBlank)
    let present := s.disk.present (s.disk.spot project)
    (Nameables (Acceptable project) present (charts.zip given) ∧
        ∃ s', renameCharts crew project charts answers s = (.ok (.renamed (charts.zip given)), s') ∧
          Renamed s.disk s'.disk (s.disk.spot project) charts given) ∨
      ¬ Nameables (Acceptable project) present (charts.zip given) ∧
        ∃ f s' j, renameCharts crew project charts answers s = (.error f, s') ∧
          Renamed s.disk s'.disk (s.disk.spot project) charts (given.take j ++ charts.drop j) := by
  intro given present
  have hfst : (charts.zip answers).map Prod.fst = charts := List.map_fst_zip hlength.ge
  have hnamed : (charts.zip answers).map (fun p => (p.1, Text.trim isBlank p.2)) =
      charts.zip given := by
    rw [List.zip_map_right]
    rfl
  have hsnd : (charts.zip given).map Prod.snd = given := List.map_snd_zip (by simp [given, hlength])
  have hplain : ∀ p ∈ charts.zip answers, Path.Plain p.1 ∧ s.disk.isFile (project.join p.1) :=
    fun p hp => hcharts p.1 (List.of_mem_zip hp).1
  have hrun := renameCharts_cases crew hd hp hplain (by rwa [hfst])
  dsimp only at hrun
  rw [hnamed, hfst, hsnd] at hrun
  rw [renameCharts, if_neg (not_not.mpr hlength)]
  rcases hrun with ⟨hnames, s', hrun, hrenamed⟩ | ⟨hnames, f, s', j, hrun, hrenamed⟩
  · refine Or.inl ⟨hnames, s', ?_, hrenamed⟩
    exact Work.bind_eq_ok_iff.mpr ⟨_, s', hrun, rfl⟩
  · refine Or.inr ⟨hnames, f, s', j, ?_, hrenamed⟩
    exact Work.bind_eq_error_iff.mpr (Or.inl hrun)

/-- Lists several charts for the user and asks for their new names. -/
def reply (crew : Crew σ) (charts : List Text) : Job σ (List Text) := do
  crew.tell "Multiple .aff files found!"
  (charts.zipIdx 1).forM fun (name, i) => crew.tell (Text.phrase [Numeral.ofNat i, ". ", name])
  Job.ask (crew.prompter.chartNames charts)

theorem askForNames_eq (crew : Crew σ) (project : Path) (charts : List Text) :
    askForNames crew project charts = reply crew charts >>= renameCharts crew project charts := by
  simp only [askForNames, reply, bind_assoc]

theorem disk_bind {α β : Type} {x : Job σ α} {f : α → Job σ β} (hx : (x s).2.disk = s.disk)
    (hf : ∀ a s₁, (f a s₁).2.disk = s₁.disk) : ((x >>= f) s).2.disk = s.disk :=
  Work.bind_within (P := fun _ => True) (R := fun s₁ s₂ : Stage σ => s₂.disk = s₁.disk)
    (fun _ _ _ h h' => h'.trans h) (fun _ _ _ _ => trivial) trivial hx fun a s₁ _ _ => hf a s₁

theorem disk_reply (crew : Crew σ) (charts : List Text) (s : Stage σ) :
    (reply crew charts s).2.disk = s.disk := by
  refine disk_bind (crew.disk_tell _ s) fun _ s₁ => disk_bind ?_ fun _ s₂ => Job.disk_ask _ s₂
  exact crew.disk_forM_tell (fun p : Text × Nat => Text.phrase [Numeral.ofNat p.2, ". ", p.1]) _ s₁

theorem exists_of_map_eq_ok {ε α β : Type} {f : α → β} {x : Except ε α} {b : β}
    (h : x.map f = .ok b) :
    ∃ a, x = .ok a ∧ f a = b := by
  cases x with
  | error e => cases h
  | ok a => exact ⟨a, rfl, Except.ok.inj h⟩

theorem asked_of_reply {charts answers : List Text} (h : (reply crew charts s).1 = .ok answers) :
    ∃ c, (crew.prompter.chartNames charts c).1 = .ok answers := by
  have hreply : reply crew charts s = (.ok answers, (reply crew charts s).2) := Prod.ext h rfl
  obtain ⟨_, s₁, -, hreply⟩ := Work.bind_eq_ok_iff.mp hreply
  obtain ⟨_, s₂, -, hreply⟩ := Work.bind_eq_ok_iff.mp hreply
  exact ⟨s₂.crew, congrArg Prod.fst hreply⟩

/-- What is found in a folder are files, and none of them twice. -/
theorem found_of_chartNames {d d' : Disk} (hd : d.WellFormed) (hp : d.Straight project)
    {charts : List Text}
    (h : chartNames project d = (.ok charts, d')) :
    charts.Nodup ∧ ∀ n ∈ charts, Path.Plain n ∧ d.isFile (project.join n) := by
  obtain ⟨-, -, hfilter⟩ := chartNames_eq_ok hp h
  refine ⟨hfilter ▸ (Disk.nodup_names _ _).filter _, fun n hn => ?_⟩
  rw [hfilter, List.mem_filter, Bool.and_eq_true] at hn
  exact ⟨(hd.proper_of_mem_names hn.1).toPlain, hn.2.2⟩

theorem processCharts_of_several {charts : List Text}
    (hnames : chartNames project s.disk = (.ok charts, s.disk))
    (hseveral : 2 ≤ charts.length) :
      processCharts crew allowed project s = askForNames crew project charts s := by
  have hlook : Job.onDisk (chartNames project) s = (.ok charts, s) := by
    rw [Job.onDisk, hnames]
    rfl
  rw [processCharts, Work.bind_apply, hlook]
  cases charts with
  | nil => exact absurd hseveral (by decide)
  | cons chart charts =>
      cases charts with
      | nil => exact absurd hseveral (by simp)
      | cons other charts => rfl

theorem getElem?_take_append_drop {xs ys : List Text} (h : xs.length = ys.length) (j i : Nat) :
    (xs.take j ++ ys.drop j)[i]? = if i < j then xs[i]? else ys[i]? := by
  grind

/-- All charts are renamed, or some of them, or there are not as many answers as charts and nothing
changes. -/
theorem askForNames_cases {charts : List Text} (hd : s.disk.WellFormed)
    (hp : s.disk.Direct project) (hnodup : charts.Nodup)
    (hcharts : ∀ n ∈ charts, Path.Plain n ∧ s.disk.isFile (project.join n))
    {answers : Except Fault (List Text)}
    (hanswers : (reply crew charts s).1.map (List.map (Text.trim isBlank)) = answers) :
    (∃ given s', answers = .ok given ∧ given.length = charts.length ∧
        Nameables (Acceptable project) (s.disk.present (s.disk.spot project)) (charts.zip given) ∧
        askForNames crew project charts s = (.ok (.renamed (charts.zip given)), s') ∧
        Renamed s.disk s'.disk (s.disk.spot project) charts given) ∨
      (∃ given f s' j, answers = .ok given ∧ given.length = charts.length ∧
        ¬ Nameables (Acceptable project) (s.disk.present (s.disk.spot project)) (charts.zip given) ∧
        askForNames crew project charts s = (.error f, s') ∧
        Renamed s.disk s'.disk (s.disk.spot project) charts (given.take j ++ charts.drop j)) ∨
      (∀ given, answers = .ok given → given.length ≠ charts.length) ∧
        ∃ f s', askForNames crew project charts s = (.error f, s') ∧ s'.disk = s.disk := by
  have hdisk := disk_reply crew charts s
  rw [askForNames_eq, Work.bind_apply]
  generalize reply crew charts s = asked at hdisk hanswers
  obtain ⟨outcome, s₁⟩ := asked
  have hdisk : s₁.disk = s.disk := hdisk
  subst hanswers
  cases outcome with
  | error f => exact Or.inr (Or.inr ⟨fun given h => (nomatch h), f, s₁, rfl, hdisk⟩)
  | ok raw =>
      by_cases hlength : raw.length = charts.length
      · have hlength' : (raw.map (Text.trim isBlank)).length = charts.length := by
          rw [List.length_map, hlength]
        rw [← hdisk] at hd hp hcharts ⊢
        rcases renameCharts_of_length crew hlength hd hp hcharts hnodup with
          ⟨hnames, s', hrun, hrenamed⟩ | ⟨hnames, f, s', j, hrun, hrenamed⟩
        · exact Or.inl ⟨_, s', rfl, hlength', hnames, hrun, hrenamed⟩
        · exact Or.inr (Or.inl ⟨_, f, s', j, rfl, hlength', hnames, hrun, hrenamed⟩)
      · refine Or.inr (Or.inr ⟨?_, ?_⟩)
        · intro given h
          rw [← Except.ok.inj h, List.length_map]
          exact hlength
        · dsimp only
          rw [renameCharts, if_pos hlength]
          exact ⟨_, s₁, rfl, hdisk⟩

/-- Renaming several charts loses nothing, whatever the user answers and however it ends: each chart
is found under its old or its new name and no two under the same one, and what is no chart stays as
it is. It succeeds just when there is an acceptable name for each chart that is its own or that of
nothing when its turn comes. -/
theorem askForNames_conserves (crew : Crew σ) (allowed : Whitelists) (project : Path)
    {charts : List Text} (hd : s.disk.WellFormed) (hp : s.disk.Direct project)
    (hseveral : 2 ≤ charts.length) (hnodup : charts.Nodup)
    (hcharts : ∀ n ∈ charts, Path.Plain n ∧ s.disk.isFile (project.join n)) :
    let place := s.disk.spot project
    let answers := (reply crew charts s).1.map (List.map (Text.trim isBlank))
    let result := askForNames crew project charts s
    (chartNames project s.disk = (.ok charts, s.disk) →
      processCharts crew allowed project s = result) ∧
    (∃ names, Renamed s.disk result.2.disk place charts names ∧ ∀ (i : Nat) (name : Text),
      names[i]? = some name → charts[i]? = some name ∨ ∃ given, answers = .ok given ∧
        given[i]? = some name) ∧
    ((∀ given, answers = .ok given → given.length ≠ charts.length) → result.2.disk = s.disk) ∧
    ((∃ o, result.1 = .ok o) ↔ ∃ given, answers = .ok given ∧ given.length = charts.length ∧
      Nameables (Acceptable project) (s.disk.present place) (charts.zip given)) ∧
    (∀ o, result.1 = .ok o → ∃ given, answers = .ok given ∧ o = .renamed (charts.zip given) ∧
      Renamed s.disk result.2.disk place charts given) := by
  intro place answers result
  refine ⟨fun hnames => processCharts_of_several hnames hseveral, ?_⟩
  have hcases := askForNames_cases hd hp hnodup hcharts (rfl : _ = answers)
  have hresult : askForNames crew project charts s = result := rfl
  clear_value answers result
  rw [hresult] at hcases
  rcases hcases with ⟨given, s', rfl, hlength, hnames, rfl, hrenamed⟩ |
    ⟨given, f, s', j, rfl, hlength, hnames, rfl, hrenamed⟩ | ⟨hcount, f, s', rfl, hdisk⟩
  · refine ⟨⟨given, hrenamed, fun i name h => Or.inr ⟨given, rfl, h⟩⟩, ?_, ?_, ?_⟩
    · intro hcount
      exact absurd hlength (hcount given rfl)
    · exact ⟨fun _ => ⟨given, rfl, hlength, hnames⟩, fun _ => ⟨_, rfl⟩⟩
    · intro o ho
      exact ⟨given, rfl, (Except.ok.inj ho).symm, hrenamed⟩
  · refine ⟨⟨_, hrenamed, fun i name h => ?_⟩, ?_, ?_, ?_⟩
    · rw [getElem?_take_append_drop hlength] at h
      split at h
      · exact Or.inr ⟨given, rfl, h⟩
      · exact Or.inl h
    · intro hcount
      exact absurd hlength (hcount given rfl)
    · refine ⟨fun ⟨o, ho⟩ => (nomatch ho), ?_⟩
      rintro ⟨given', hgiven, -, hnames'⟩
      exact absurd (Except.ok.inj hgiven ▸ hnames') hnames
    · intro o ho
      cases ho
  · refine ⟨⟨charts, ?_, fun i name h => Or.inl h⟩, fun _ => hdisk, ?_, ?_⟩
    · rw [hdisk]
      exact .refl _ _ hnodup
    · refine ⟨fun ⟨o, ho⟩ => (nomatch ho), ?_⟩
      rintro ⟨given, hgiven, hlength, -⟩
      exact absurd hlength (hcount given hgiven)
    · intro o ho
      cases ho

end

/-! ### Names for three charts -/

namespace Sample
open Rehearsal (Script Scene)

/-- A folder with three charts and a track, and a link beside the folder. -/
def three : Stage Scene where
  disk :=
    { entries :=
        [(["w", "p", "a.aff"], .file (.bytes [1])), (["w", "p", "b.aff"], .file (.bytes [2])),
          (["w", "p", "c.aff"], .file (.bytes [3])), (["w", "p", "base.ogg"], .file (.bytes [])),
          (["w", "p"], .folder), (["w", "q"], .link "p"), (["w"], .folder)]
      home := ["w"] }
  crew := { terminal := { input := [], output := [] } }

/-- A crew whose prompter gives these names. -/
def naming (names : List Text) : Script where
  audio := .scripted .perform .perform
  prompter := .scripted (.ok 0) (.ok names)
  program := []

end Sample

/-- A chart may get the name that the one before it had, and its own. -/
theorem askForNames_conserves_chain :
    let s := Sample.three
    let crew := (Sample.naming ["x.aff", " a.aff", "c.aff"]).crew
    let charts : List Text := ["a.aff", "b.aff", "c.aff"]
    (s.disk.WellFormed ∧ s.disk.Direct "p" ∧ 2 ≤ charts.length ∧ charts.Nodup ∧ ∀ n ∈ charts,
      Path.Plain n ∧
      s.disk.isFile (Path.join "p" n)) ∧
      Renamed s.disk (askForNames crew "p" charts s).2.disk ["w", "p"] charts
        ["x.aff", "a.aff", "c.aff"] := by
  intro s crew charts
  have hformed : s.disk.WellFormed := .of_entries (by decide +kernel)
  have hproject : s.disk.Direct "p" := .of_entries (by decide +kernel)
  have hcharts : ∀ n ∈ charts, Path.Plain n ∧ s.disk.isFile (Path.join "p" n) := by decide +kernel
  refine ⟨⟨hformed, hproject, by decide, by decide, hcharts⟩, ?_⟩
  obtain ⟨-, -, -, hok, hrenamed⟩ := askForNames_conserves crew {} "p" hformed hproject (by decide)
    (by decide) hcharts
  have hanswers : (reply crew charts s).1.map (List.map (Text.trim isBlank)) =
    .ok ["x.aff", "a.aff", "c.aff"] := by cbv
  have hfree : ("x.aff" : Text) ∉ s.disk.present (s.disk.spot "p") := by
    rw [mem_present, not_not]
    rfl
  have hnames : Nameables (Acceptable "p") (s.disk.present (s.disk.spot "p"))
      (charts.zip ["x.aff", "a.aff", "c.aff"]) :=
    ⟨⟨⟨by decide, by decide⟩, Or.inr hfree⟩, ⟨⟨by decide, by decide⟩, Or.inr (by simp)⟩,
      ⟨⟨by decide, by decide⟩, Or.inl rfl⟩, trivial⟩
  obtain ⟨o, ho⟩ := hok.mpr ⟨_, hanswers, rfl, hnames⟩
  obtain ⟨given, hgiven, -, h⟩ := hrenamed o ho
  obtain rfl := Except.ok.inj (hanswers.symm.trans hgiven)
  exact h

/-! ### A long path, and a link -/

namespace Sample

def longPath : Path := List.replicate 3900 '/' ++ "p".toList

def longName : Text := List.replicate 255 'k'

def charts : List Text := ["a.aff", "b.aff"]

/-- A folder with two charts. -/
def two : Stage Rehearsal.Scene where
  disk :=
    { entries :=
        [(["p", "a.aff"], .file (.bytes [1])), (["p", "b.aff"], .file (.bytes [2])),
          (["p"], .folder),
          (["w"], .folder)]
      home := ["w"] }
  crew := { terminal := { input := [], output := [] } }

/-- The folder with a link in it that leads nowhere. -/
def loose : Stage Rehearsal.Scene :=
  { two with disk := two.disk.put ["p", "z.aff"] (.link "nowhere") }

end Sample

/-- The system refuses a name that is not too long by itself, where the path to it is. The name of a
link that leads nowhere counts as free, and the link is replaced. -/
theorem askForNames_limits :
    (let names : List Text := [Sample.longName, "b.aff"]
      let crew := (Sample.naming names).crew
      (Sample.two.disk.WellFormed ∧ Sample.two.disk.Direct Sample.longPath ∧
        2 ≤ Sample.charts.length ∧ Sample.charts.Nodup ∧
        ∀ n ∈ Sample.charts, Path.Plain n ∧ Sample.two.disk.isFile (Sample.longPath.join n)) ∧
      (reply crew Sample.charts Sample.two).1.map (List.map (Text.trim isBlank)) = .ok names ∧
      names.length = Sample.charts.length ∧
      Nameables Path.Proper (Sample.two.disk.present (Sample.two.disk.spot Sample.longPath))
        (Sample.charts.zip names) ∧
      ¬ ∃ o, (askForNames crew Sample.longPath Sample.charts Sample.two).1 = .ok o) ∧
    (let names : List Text := ["z.aff", "b.aff"]
      let crew := (Sample.naming names).crew
      (∀ n ∈ Sample.charts, Path.Plain n ∧ Sample.loose.disk.isFile (Path.join "/p" n)) ∧
      (chartNames "/p" Sample.loose.disk).1 = .ok Sample.charts ∧
      Sample.loose.disk.get? ["p", "z.aff"] = some (.link "nowhere") ∧
      ∃ s', askForNames crew "/p" Sample.charts Sample.loose =
          (.ok (.renamed (Sample.charts.zip names)), s') ∧
        s'.disk.get? ["p", "z.aff"] = some (.file (.bytes [1]))) := by
  constructor
  · intro names crew
    have hsound : Sample.two.disk.Sound := .of_entries (by decide +kernel)
    have hcharts : ∀ n ∈ Sample.charts,
        Path.Plain n ∧ Sample.two.disk.isFile (Sample.longPath.join n) := by
      decide +kernel
    have hspot : Sample.two.disk.spot Sample.longPath = ["p".toList] := by decide +kernel
    have hfree : Sample.longName ∉
        Sample.two.disk.present (Sample.two.disk.spot Sample.longPath) := by
      rw [hspot, mem_present, not_not]
      rfl
    refine ⟨⟨hsound.toWellFormed, hsound.direct _, by decide, by decide, hcharts⟩,
      by decide +kernel, rfl, ?_, ?_⟩
    · exact ⟨⟨by decide +kernel, Or.inr hfree⟩, ⟨by decide, Or.inl rfl⟩, trivial⟩
    · have herror : (askForNames crew Sample.longPath Sample.charts Sample.two).1.toBool =
          false := by decide +kernel
      rintro ⟨o, ho⟩
      rw [ho] at herror
      cases herror
  · intro names crew
    have hcharts : ∀ n ∈ Sample.charts,
        Path.Plain n ∧ Sample.loose.disk.isFile (Path.join "/p" n) := by
      decide +kernel
    refine ⟨hcharts, by cbv, rfl, (askForNames crew "/p" Sample.charts Sample.loose).2, ?_, ?_⟩
    · cbv
    · cbv

end Conversion
end ChartPackage
