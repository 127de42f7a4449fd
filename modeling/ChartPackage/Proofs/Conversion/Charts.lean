import Mathlib
import ChartPackage.Proofs.Conversion.Naming
import ChartPackage.Proofs.Text.Utf8

/-!
The charts through a run. A single chart is sanitized, and its copies are the same; each of several
charts has its own content under its new name. Both hold in the project folder and, when all of it
has been moved, in the folder of the song.
-/

namespace ChartPackage

namespace Disk

variable {d d' : Disk}

/-- Whether there is a file at a location. -/
def holdsFile (d : Disk) (l : Location) : Bool :=
  match d.get? l with
  | some (.file _) => true
  | _ => false

theorem holdsFile_iff {l : Location} : d.holdsFile l = true ↔ ∃ c, d.get? l = some (.file c) := by
  rw [holdsFile]
  split
  · next c h => simp [h]
  · next h => simpa using h

theorem readText_eq_ok {p : Path} {text : Text} (h : d.readText p = .ok text) :
    ∃ bytes, d.entry p = .ok (.file (.bytes bytes)) ∧ Utf8.decode? bytes = some text := by
  obtain ⟨c, hread, h⟩ := Except.bind_eq_ok_iff.mp h
  cases c with
  | bytes bytes =>
      dsimp only at h
      split at h
      · next t ht =>
          obtain rfl := Except.ok.inj h
          exact ⟨bytes, read_eq_ok_iff.mp hread, ht⟩
      · cases h
  | picture _ _ _ => cases h
  | archive _ => cases h

theorem usable_of_moveEntry {source target : Path} (hs : d.Direct source) (ht : d.Direct target)
    (h : Act.moveEntry source target d = (.ok (), d')) : source.Usable := by
  rw [Act.moveEntry, Work.tryCatch_apply] at h
  split at h
  · next hchange =>
      obtain ⟨hnamed, -, -, a, b, e, ha, -⟩ :=
        (rename_eq_ok_iff hs.way ht.way).mp (Act.change_eq_ok_iff.mp hchange)
      exact ((aim_eq_ok_iff hs.way hnamed).mp ha).1
  · next e d₁ hchange =>
      rw [← Act.eq_of_change_error hchange] at hs
      obtain ⟨found, d₂, hlook, h⟩ := Work.bind_eq_ok_iff.mp h
      obtain ⟨hfound, rfl⟩ := Act.look_eq_ok_iff.mp hlook
      split at h
      · next hfile =>
          obtain ⟨c, he⟩ := isFile_iff.mp ((Except.ok.inj hfound).trans hfile)
          exact ((entry_eq_ok_iff_spot hs.straight).mp he).1
      · cases h

theorem usable_of_moveContents (hd : d.WellFormed) {accept : Text → Bool} {source target : Path}
    {names : List Text} (hs : d.Direct source) (ht : d.Direct target)
    (h : Act.moveContents accept source target d = (.ok names, d')) :
    ∀ n ∈ names, (source.join n).Usable := by
  obtain ⟨all, d₁, hlook, h⟩ := Work.bind_eq_ok_iff.mp h
  obtain ⟨hlist, rfl⟩ := Act.look_eq_ok_iff.mp hlook
  obtain ⟨l, -, -, rfl⟩ := list_eq_ok_iff.mp hlist
  obtain ⟨_, d₂, hmove, h⟩ := Work.bind_eq_ok_iff.mp h
  obtain ⟨rfl, rfl⟩ := Work.pure_eq_ok_iff.mp h
  have hplain : ∀ n ∈ (d.names l).filter accept, Path.Plain n :=
    fun n hn => (hd.proper_of_mem_names (List.mem_of_mem_filter hn)).toPlain
  have hdirect : ∀ n ∈ (d.names l).filter accept, ∀ d₁ d₂, d₁.Direct source ∧ d₁.Direct target →
      Act.moveEntry (source.join n) (target.join n) d₁ = (.ok (), d₂) →
      d₂.Direct source ∧ d₂.Direct target := by
    intro n hn d₁ d₂ hd₁ hentry
    have hs₁ := hd₁.1.join (hplain n hn)
    have ht₁ := hd₁.2.join (hplain n hn)
    have hframe := Act.frame_moveEntry hs₁ ht₁
    rw [hentry] at hframe
    have hsteady := hframe.steady (Act.clean_spots hs₁ ht₁)
    exact ⟨hsteady.direct hd₁.1, hsteady.direct hd₁.2⟩
  intro n hn
  obtain ⟨d₁, d₂, hd₁, hentry⟩ := Work.forM_eq_ok ⟨hs, ht⟩ hdirect hmove n hn
  exact usable_of_moveEntry (hd₁.1.join (hplain n hn)) (hd₁.2.join (hplain n hn)) hentry

end Disk

namespace Conversion

open Disk (Frame Apart)

variable {σ : Type} {crew : Crew σ} {allowed : Whitelists} {project : Path}

/-- The charts that lie in a folder, in the order of names. -/
def chartsAt (d : Disk) (place : Location) : List Text :=
  (d.names place).filter fun name => Text.endsWith chartExtension name && d.holdsFile
    (place ++ [name])

theorem of_mem_chartsAt {d : Disk} {place : Location} {name : Text} (h : name ∈ chartsAt d place) :
    Text.endsWith chartExtension name = true ∧ ∃ c, d.get? (place ++ [name]) = some (.file c) := by
  have hboth := List.of_mem_filter h
  rw [Bool.and_eq_true] at hboth
  exact ⟨hboth.1, Disk.holdsFile_iff.mp hboth.2⟩

/-! ### A single chart -/

section

variable {d d' : Disk} {name : Text}

theorem copies_of_forM (hp : d.Direct project) {classes : List RatingClass} {c : Content}
    (he : d.get? (d.spot project ++ [name]) = some (.file c)) (hname : Path.Plain name)
    (h : classes.forM (m := Disk.Act) (fun c => if c.chartName = name then pure ()
      else .change (Disk.copy (project.join name) (project.join c.chartName))) d = (.ok (), d')) :
    Frame ((classes.map RatingClass.chartName).map (d.spot project ++ [·])) [] d d' ∧
      ∀ k ∈ name :: classes.map RatingClass.chartName,
        d'.get? (d.spot project ++ [k]) = some (.file c) := by
  induction classes generalizing d with
  | nil =>
      obtain ⟨-, rfl⟩ := Work.pure_eq_ok_iff.mp h
      exact ⟨.refl _ _ _, by simpa using he⟩
  | cons k classes ih =>
      obtain ⟨d₁, hfirst, hrest⟩ := Work.forM_cons_eq_ok_iff.mp h
      -- Either the chart has this name already, or a copy is made beside it.
      have hstep : Frame [d.spot project ++ [k.chartName]] [] d d₁ ∧
          d₁.get? (d.spot project ++ [name]) = some (.file c) ∧
            d₁.get? (d.spot project ++ [k.chartName]) = some (.file c) := by
        by_cases hself : k.chartName = name
        · rw [if_pos hself] at hfirst
          obtain ⟨-, rfl⟩ := Work.pure_eq_ok_iff.mp hfirst
          exact ⟨.refl _ _ _, he, hself ▸ he⟩
        · rw [if_neg hself] at hfirst
          have hcopied := Disk.Act.change_eq_ok_iff.mp hfirst
          have hs := (hp.join hname).straight
          have ht := (hp.join (plain_chartName k)).straight
          have hframe := (Disk.frame_copy ht hcopied).1
          have hne : d.spot (project.join name) ≠ d.spot (project.join k.chartName) := by
            rw [Disk.spot_join _ _ (plain_chartName k), Disk.spot_join _ _ hname]
            simpa using Ne.symm hself
          have hcopy := Disk.get?_of_copy hs ht hne hcopied
          rw [Disk.spot_join _ _ (plain_chartName k), Disk.spot_join _ _ hname] at hcopy
          rw [Disk.spot_join _ _ (plain_chartName k)] at hframe
          refine ⟨hframe, hframe.some_of_some ?_ he, hcopy.trans he⟩
          rw [List.forall_mem_singleton]
          exact (Apart.of_ne hself).1
      obtain ⟨hframe, hsource, hcopy⟩ := hstep
      rw [← hframe.spot] at hsource hcopy
      obtain ⟨hframe', hcopies⟩ := ih (hframe.direct_within hp (by simp)) hsource hrest
      rw [hframe.spot] at hframe' hcopies hcopy
      refine ⟨?_, ?_⟩
      · exact (hframe.among List.mem_cons_self).trans
          (hframe'.mono_names (List.subset_cons_self _ _))
      · intro n hn
        by_cases hlater : n ∈ name :: classes.map RatingClass.chartName
        · exact hcopies n hlater
        · obtain rfl : n = k.chartName := by
            simp only [List.map_cons, List.mem_cons] at hn hlater
            tauto
          exact (hframe'.kept_entry fun hmem => hlater (List.mem_cons_of_mem _ hmem)).at_place hcopy

/-- The names of a single chart and its copies. -/
def copyNames (name : Text) : List Text := name :: RatingClass.all.map RatingClass.chartName

/-- The chart and its copies hold the sanitized text, and nothing else changes. -/
theorem sanitizeChart_eq_ok (hp : d.Direct project) (hname : Path.Plain name) {o : ChartOutcome}
    (h : sanitizeChart allowed project name d = (.ok o, d')) :
    ∃ bytes text, d.get? (d.spot project ++ [name]) = some (.file (.bytes bytes)) ∧
      Utf8.decode? bytes = some text ∧
      o = .sanitized name (RatingClass.all.map RatingClass.chartName)
        (Chart.sanitize allowed text).2 ∧
      Frame ((copyNames name).map (d.spot project ++ [·])) [] d d' ∧
      ∀ k ∈ copyNames name, d'.get? (d.spot project ++ [k]) =
        some (.file (.bytes (Utf8.encode (Chart.sanitize allowed text).1))) := by
  obtain ⟨text, d₁, hlook, h⟩ := Work.bind_eq_ok_iff.mp h
  obtain ⟨hread, rfl⟩ := Disk.Act.look_eq_ok_iff.mp hlook
  obtain ⟨_, d₂, hwrite, h⟩ := Work.bind_eq_ok_iff.mp h
  obtain ⟨_, d₃, hcopy, h⟩ := Work.bind_eq_ok_iff.mp h
  obtain ⟨rfl, rfl⟩ := Work.pure_eq_ok_iff.mp h
  obtain ⟨bytes, hentry, htext⟩ := Disk.readText_eq_ok hread
  have hs := (hp.join hname).straight
  have hsource := Disk.get?_of_entry hs hentry
  obtain ⟨hframe, hsanitized⟩ := Disk.frame_write hs (Disk.Act.change_eq_ok_iff.mp hwrite)
  rw [Disk.spot_join _ _ hname] at hsource hframe hsanitized
  rw [← hframe.spot] at hsanitized
  have hp' := hframe.direct_within hp (by simp)
  obtain ⟨hframe', hcopies⟩ := copies_of_forM hp' hsanitized hname hcopy
  rw [hframe.spot] at hframe' hcopies
  refine ⟨bytes, text, hsource, htext, rfl, ?_, hcopies⟩
  exact (hframe.among List.mem_cons_self).trans (hframe'.mono_names (List.subset_cons_self _ _))

end

/-! ### All charts -/

/-- What has become of the charts of a folder: in a folder of another disk, a single chart and its
copies hold its sanitized text, and each of several charts has what it held under its new name. -/
inductive Processed (crew : Crew σ) (allowed : Whitelists) (charts : List Text) (d : Disk)
    (a : Location)
    (d' : Disk) (b : Location) : ChartOutcome → Prop where
  | sanitized {name : Text} {bytes : List UInt8} {text : Text} (single : charts = [name])
      (source : d.get? (a ++ [name]) = some (.file (.bytes bytes)))
        (readable : Utf8.decode? bytes = some text)
      (made : ∀ k ∈ copyNames name, d'.get? (b ++ [k]) =
        some (.file (.bytes (Utf8.encode (Chart.sanitize allowed text).1)))) :
      Processed crew allowed charts d a d' b
        (.sanitized name (RatingClass.all.map RatingClass.chartName)
          (Chart.sanitize allowed text).2)
  | renamed {answers : List Text} (several : 2 ≤ charts.length)
    (length : answers.length = charts.length)
      (asked : ∃ c, (crew.prompter.chartNames charts c).1 = .ok answers)
      (arrived : ∀ p ∈ charts.zip (answers.map (Text.trim isBlank)),
        d'.get? (b ++ [p.2]) = d.get? (a ++ [p.1])) :
      Processed crew allowed charts d a d' b
        (.renamed (charts.zip (answers.map (Text.trim isBlank))))

theorem Processed.moved {charts : List Text} {d d₁ d' : Disk} {a b₁ b : Location} {o : ChartOutcome}
    (h : Processed crew allowed charts d a d₁ b₁ o)
    (hthere : ∀ n ∈ charts, ∃ c, d.get? (a ++ [n]) = some (.file c))
    (hmove : ∀ k e, d₁.get? (b₁ ++ [k]) = some e → d'.get? (b ++ [k]) = some e) :
    Processed crew allowed charts d a d' b o := by
  cases h with
  | sanitized single source readable made =>
      exact .sanitized single source readable fun k hk => hmove k _ (made k hk)
  | renamed several length asked arrived =>
      refine .renamed several length asked fun p hp => ?_
      obtain ⟨c, hc⟩ := hthere p.1 (List.of_mem_zip hp).1
      rw [hc]
      exact hmove p.2 _ ((arrived p hp).trans hc)

/-- The names of the charts that have been changed, and of the copies that have been made. -/
def changedNames : ChartOutcome → List Text
  | .sanitized name _ _ => copyNames name
  | .renamed pairs => pairs.map Prod.fst

theorem Processed.endsWith_of_mem {charts : List Text} {d d' : Disk} {a b : Location}
    {o : ChartOutcome}
    (h : Processed crew allowed charts d a d' b o)
    (hcharts : ∀ n ∈ charts, Text.endsWith chartExtension n = true) :
    ∀ n ∈ changedNames o, Text.endsWith chartExtension n = true := by
  intro n hn
  cases h with
  | @sanitized name _ _ single _ _ _ =>
      have hname := hcharts name (by rw [single]; exact List.mem_cons_self)
      have hcopies : ∀ n ∈ RatingClass.all.map RatingClass.chartName,
          Text.endsWith chartExtension n = true := by
        decide
      cases List.mem_cons.mp hn with
      | inl heq => exact heq ▸ hname
      | inr hcopy => exact hcopies n hcopy
  | renamed =>
      obtain ⟨p, hp, rfl⟩ := List.mem_map.mp hn
      exact hcharts p.1 (List.of_mem_zip hp).1

section

variable {s s' : Stage σ}

theorem askForNames_eq_ok {charts : List Text} (hd : s.disk.WellFormed)
    (hp : s.disk.Direct project) (hseveral : 2 ≤ charts.length) (hnodup : charts.Nodup)
    (hcharts : ∀ n ∈ charts, Path.Plain n ∧ s.disk.isFile (project.join n))
    {o : ChartOutcome} (h : askForNames crew project charts s = (.ok o, s')) :
    Processed crew allowed charts s.disk (s.disk.spot project) s'.disk (s.disk.spot project) o ∧
      changedNames o = charts ∧
      ∀ n ∉ charts, s.disk.get? (s.disk.spot project ++ [n]) ≠ none →
        ∀ r, s'.disk.get? (s.disk.spot project ++ n :: r) = s.disk.get?
          (s.disk.spot project ++ n :: r) := by
  have hcases := askForNames_cases hd hp hnodup hcharts (rfl : (reply crew charts s).1.map _ = _)
  rw [h] at hcases
  rcases hcases with ⟨given, s₁, hgiven, hlength, -, hrun, hrenamed⟩ | ⟨_, _, _, _, -,
    -, -, hrun, -⟩ |
    ⟨-, _, _, hrun, -⟩
  · cases hrun
    obtain ⟨answers, hanswers, rfl⟩ := exists_of_map_eq_ok hgiven
    rw [List.length_map] at hlength
    refine ⟨.renamed hseveral hlength (asked_of_reply hanswers) fun p hp =>
      hrenamed.moved p hp [], ?_,
      fun n hn hthere => (hrenamed.kept n hthere hn).2⟩
    exact List.map_fst_zip (by simp [hlength])
  · cases hrun
  · cases hrun

/-- Processing finds the charts and leaves all else as it is. -/
theorem processCharts_eq_ok (hd : s.disk.WellFormed) (hp : s.disk.Direct project) {o : ChartOutcome}
    (h : processCharts crew allowed project s = (.ok o, s')) :
    ∃ charts, chartNames project s.disk = (.ok charts, s.disk) ∧
      Processed crew allowed charts s.disk (s.disk.spot project) s'.disk (s.disk.spot project) o ∧
      ∀ n ∉ changedNames o, s.disk.get? (s.disk.spot project ++ [n]) ≠ none →
        ∀ r, s'.disk.get? (s.disk.spot project ++ n :: r) = s.disk.get?
          (s.disk.spot project ++ n :: r) := by
  obtain ⟨charts, s₁, hcharts, h⟩ := Work.bind_eq_ok_iff.mp h
  have hnames := Job.of_onDisk hcharts
  obtain ⟨hdisk, -, hfilter⟩ := chartNames_eq_ok hp.straight hnames
  rw [← hdisk] at hnames
  obtain ⟨hnodup, hfound⟩ := found_of_chartNames hd hp.straight hnames
  refine ⟨charts, hnames, ?_⟩
  cases charts with
  | nil => cases h
  | cons name charts =>
      cases charts with
      | nil =>
          obtain ⟨bytes, text, hsource, htext, rfl, hframe, hmade⟩ :=
            sanitizeChart_eq_ok (hdisk ▸ hp) (hfound name List.mem_cons_self).1 (Job.of_onDisk h)
          rw [← hdisk] at hsource hframe hmade
          exact ⟨.sanitized rfl hsource htext hmade, fun n hn _ =>
            hframe.below_entry (.of_not_mem hn)⟩
      | cons other charts =>
          rw [hdisk] at hd hp hfound ⊢
          obtain ⟨hprocessed, hchanged, hkept⟩ :=
            askForNames_eq_ok hd hp (by simp) hnodup hfound h
          rw [hchanged]
          exact ⟨hprocessed, hkept⟩

/-- The charts that are found by their paths are all those that lie in the folder, since there is
nothing in the folder that cannot be reached. -/
theorem chartNames_eq_chartsAt {d d' : Disk} {charts : List Text}
    (h : chartNames project d = (.ok charts, d'))
    (husable : ∀ n, d.get? (d.spot project ++ [n]) ≠ none → n ∈ charts ∨ (project.join n).Usable)
    (hd : d.WellFormed) (hp : d.Direct project) : charts = chartsAt d (d.spot project) := by
  obtain ⟨-, hfolder, hfilter⟩ := chartNames_eq_ok hp.straight h
  obtain ⟨hlook, -⟩ := Disk.Act.look_eq_ok_iff.mp h
  obtain ⟨all, hlist, -⟩ := Except.bind_eq_ok_iff.mp hlook
  obtain ⟨l, hl, -⟩ := Disk.list_eq_ok_iff.mp hlist
  obtain ⟨-, hway, -⟩ := (Disk.locate_eq_ok_iff hp.straight).mp hl
  rw [chartsAt]
  rw [hfilter] at husable ⊢
  refine List.filter_congr fun n hn => ?_
  have hplain := (hd.proper_of_mem_names hn).toPlain
  have hfile : d.isFile (project.join n) = true → d.holdsFile (d.spot project ++ [n]) = true := by
    intro hfile
    obtain ⟨c, hc⟩ := Disk.isFile_iff.mp hfile
    rw [← Disk.spot_join _ _ hplain]
    exact Disk.holdsFile_iff.mpr ⟨c, Disk.get?_of_entry (hp.join hplain).straight hc⟩
  have hreach : d.holdsFile (d.spot project ++ [n]) = true → d.isFile (project.join n) = true := by
    intro hholds
    obtain ⟨c, hc⟩ := Disk.holdsFile_iff.mp hholds
    cases husable n (by rw [hc]; exact Option.some_ne_none _) with
    | inl hmem =>
        have hboth := List.of_mem_filter hmem
        rw [Bool.and_eq_true] at hboth
        exact hboth.2
    | inr husable =>
        rw [← Disk.spot_join _ _ hplain] at hc
        refine Disk.isFile_iff.mpr
          ⟨c, (Disk.entry_eq_ok_iff_spot (hp.join hplain).straight).mpr ⟨husable, ?_, hc⟩⟩
        intro m hm
        cases (Disk.mem_way_join hplain).mp hm with
        | inl hm => exact hway m hm
        | inr hm => exact hm ▸ hfolder
  rw [Bool.eq_iff_iff.mpr ⟨hfile, hreach⟩]

/-- If everything can be reached that processing leaves in the folder, the charts that it found are
all that there were. -/
theorem Processed.charts_eq_chartsAt {d d' : Disk} {charts : List Text} {place : Location}
    {o : ChartOutcome}
    (h : Processed crew allowed charts d (d.spot project) d' place o) (hd : d.WellFormed)
    (hp : d.Direct project)
    (hfound : chartNames project d = (.ok charts, d))
    (hkept : ∀ n ∉ changedNames o, d.get? (d.spot project ++ [n]) ≠ none →
      ∀ r, d'.get? (place ++ n :: r) = d.get? (d.spot project ++ n :: r))
    (husable : ∀ {n e}, d'.get? (place ++ [n]) = some e → (project.join n).Usable) :
    charts = chartsAt d (d.spot project) := by
  refine chartNames_eq_chartsAt hfound (fun n hn => ?_) hd hp
  by_cases hchanged : n ∈ changedNames o
  · cases h with
    | sanitized _ _ _ made => exact Or.inr (husable (made n hchanged))
    | renamed =>
        obtain ⟨p, hp, rfl⟩ := List.mem_map.mp hchanged
        exact Or.inl (List.of_mem_zip hp).1
  · obtain ⟨e, he⟩ := Option.ne_none_iff_exists'.mp hn
    exact Or.inr (husable ((hkept n hchanged hn []).trans he))

theorem gather_eq_ok (hd : s.disk.WellFormed) (hp : s.disk.Direct project) {places : Places}
    {songId : Text} (hcontent : s.disk.Direct (places.contentFolder songId))
    (hapart : Apart (s.disk.spot project) (s.disk.spot (places.contentFolder songId)))
    {o : ChartOutcome}
    (h : gather crew allowed places project songId s = (.ok o, s')) :
    Processed crew allowed (chartsAt s.disk (s.disk.spot project)) s.disk
      (s.disk.spot project) s'.disk
        (s.disk.spot (places.contentFolder songId)) o ∧
      (∀ n ∉ changedNames o, Disk.Kept s.disk (s.disk.spot project ++ [n]) s'.disk
        (s.disk.spot (places.contentFolder songId) ++ [n])) ∧
      ∀ m, s.disk.get? m = some .folder → ¬ s.disk.spot project <+: m →
        s'.disk.get? m = some .folder := by
  obtain ⟨outcome, s₁, hprocess, h⟩ := Work.bind_eq_ok_iff.mp h
  obtain ⟨names, s₂, hmove, h⟩ := Work.bind_eq_ok_iff.mp h
  obtain ⟨rfl, rfl⟩ := Work.pure_eq_ok_iff.mp h
  have hframe := frame_processCharts hd hp crew allowed
  rw [hprocess] at hframe
  have hsteady := hframe.steady_within hp.clean (by simp)
  have hd₁ := hsteady.wellFormed hd
  have hp₁ := hsteady.direct hp
  have hcontent₁ := hsteady.direct hcontent
  obtain ⟨found, hfound, hprocessed, hkept⟩ := processCharts_eq_ok hd hp hprocess
  have hmove := Job.of_onDisk hmove
  obtain ⟨hnames, hmoved⟩ := Disk.Act.moved_of_moveContents hd₁ hp₁ hcontent₁
    (by rwa [hframe.spot, hframe.spot]) hmove
  rw [List.filter_true] at hnames
  rw [hframe.spot] at hnames
  rw [hframe.spot, hframe.spot] at hmoved
  have hmem : ∀ {n e}, s₁.disk.get? (s.disk.spot project ++ [n]) = some e → n ∈ names := by
    intro n e he
    rw [hnames]
    exact Disk.mem_names.mpr ⟨e, he⟩
  have husable : ∀ {n e}, s₁.disk.get? (s.disk.spot project ++ [n]) = some e →
      (project.join n).Usable :=
    fun he => Disk.usable_of_moveContents hd₁ hp₁ hcontent₁ hmove _ (hmem he)
  have hcharts := hprocessed.charts_eq_chartsAt hd hp hfound hkept husable
  rw [hcharts] at hprocessed
  refine ⟨hprocessed.moved ?_ ?_, ?_, ?_⟩
  · intro n hn
    exact (of_mem_chartsAt hn).2
  · intro k e he
    rw [← he]
    exact hmoved.arrived k (hmem he) []
  · intro n hn r e he
    obtain ⟨e₁, he₁⟩ := hd.some_above he
    have hkept := hkept n hn (by rw [he₁]; exact Option.some_ne_none e₁)
    refine hmoved.kept (hmem ((hkept []).trans he₁)) r e ?_
    rw [← List.append_cons] at he ⊢
    rw [hkept r, he]
  · intro m hm hout
    refine hmoved.folders hd₁ m (hframe.some_of_some (by simpa using hout) hm) ?_
    intro n _ hin
    exact hout ((List.prefix_append _ _).trans hin)

end

/-! ### The charts of a run -/

section

variable {s s' : Stage σ} {settings : Settings} {now : Int64} {package : Path} {I : Disk → Prop}

/-- A run up to the charts; gives the project folder and the song's id. -/
def prepare (crew : Crew σ) (settings : Settings) (now : Int64) (package : Path) :
    Job σ (Path × Text) := do
  let (project, songId) ← opening crew settings now package
  let _ ← furnish crew settings (Places.ofPackage package settings.outputFolder) project songId
  return (project, songId)

theorem processed_of_run (hc : crew.SteadyOn I) (hd : I s.disk) {o : Outcome}
    (hfree : (Places.ofPackage package settings.outputFolder).Free s.disk (some o.songId))
    (h : run crew settings allowed now package s = (.ok o, s'))
    (hapart :
      ((Places.ofPackage package settings.outputFolder).spots s.disk o.songId).Pairwise Apart) :
    ∃ project s₂, prepare crew settings now package s = (.ok (project, o.songId), s₂) ∧
      Processed crew allowed (chartsAt s₂.disk (s.disk.spot project)) s₂.disk
        (s.disk.spot project) s'.disk
        (s.disk.spot o.contentFolder) o.charts := by
  obtain ⟨project, s₁, s₂, s₃, hopen, hfurnish, hgather, hclean, -, hcontent⟩ := run_eq_ok h
  have hopening := steady_opening hc hd hfree.beside now
  rw [hopen] at hopening
  obtain ⟨n, hn, hproject, -, -⟩ := opening_eq_ok hc hd hfree.beside hopen
  have hp : s.disk.Direct project := hproject ▸ hfree.workFolder.join hn
  have hfurnished := steady_furnish hc (hc.lasts _ _ hopening hd) (hopening.direct hp)
    (hopening.direct hfree.downloadFolder) (hopening.direct hfree.contentFolder) settings
  rw [hfurnish] at hfurnished
  have hsteady := hopening.trans hfurnished
  have hd₂ := hsteady.wellFormed (hc.formed _ hd)
  have hp₂ := hsteady.direct hp
  have hcontent₂ := hsteady.direct hfree.contentFolder
  have hseparate := Places.separate_of_pairwise hapart
  have hspot : s.disk.spot project =
      s.disk.spot (Places.ofPackage package settings.outputFolder).workFolder ++ [n] := by
    rw [hproject, Disk.spot_join _ _ hn]
  refine ⟨project, s₂, ?_, ?_⟩
  · refine Work.bind_eq_ok_iff.mpr ⟨_, s₁, hopen, Work.bind_eq_ok_iff.mpr ⟨_, s₂, hfurnish, rfl⟩⟩
  · have hgathered := gather_eq_ok hd₂ hp₂ hcontent₂ (by
      rw [hsteady.spot, hsteady.spot, hspot]
      exact hseparate.work_content.append_left [n]) hgather
    have hmoved := frame_gather hd₂ hp₂ hcontent₂ crew allowed
    rw [hgather] at hmoved
    have hall := hsteady.trans (hmoved.steady (Disk.Act.clean_spots hp₂ hcontent₂))
    have hcleaned := frame_cleanUp (fun q hq => hall.direct (hfree q hq)) settings
    rw [hclean, hmoved.spot, hmoved.spot, hmoved.spot, hsteady.spot, hsteady.spot,
      hsteady.spot] at hcleaned
    rw [hsteady.spot, hsteady.spot, ← hcontent] at hgathered
    refine hgathered.1.moved (fun n hn => (of_mem_chartsAt hn).2) fun k e he => ?_
    refine hcleaned.kept (l := s.disk.spot o.contentFolder) ?_ [k] e he
    simp only [List.forall_mem_cons, List.not_mem_nil, IsEmpty.forall_iff, implies_true, and_true]
    rw [hcontent]
    exact ⟨hseparate.work_content, hseparate.archive_content, hseparate.package_content⟩

end

namespace Sample

open Rehearsal (Scene Event homeWith)

/-- A project whose track and chart lie in a folder beside it. -/
def scattered : Content := .archive
  [("song/project.arcproj", .bytes (Utf8.encode descriptor)), ("zshared/base.ogg", .bytes [1]),
    ("zshared/x.aff", .bytes (Utf8.encode chart))]

/-- A crew for archives that have links to the track and the chart in the project folder. -/
def linking : Crew Scene := { script.crew with
  unpack := fun archive folder => do
    script.crew.unpack archive folder
    let project := folder.join "song"
    Job.onDisk (.change (Disk.makeLink "../zshared/base.ogg" (project.join "base.ogg")))
    Job.onDisk (.change (Disk.makeLink "../zshared/x.aff" (project.join "x.aff"))) }

def aroundScattered : List (Location × Item) := (["w", "song.zip"], .file scattered) :: surroundings

def linkedStage (entries : List (Location × Item)) (events : List Event) : Stage Scene where
  disk := { entries := entries ++ aroundScattered, home := ["w"] }
  crew := { events, terminal := { input := [], output := [] } }

def linkedUnpacked : Stage Scene := linkedStage
  [(["w", "extracted_song", "song", "x.aff"], .link "../zshared/x.aff"),
    (["w", "extracted_song", "song", "base.ogg"], .link "../zshared/base.ogg"),
    (["w", "extracted_song", "zshared", "x.aff"], .file (.bytes (Utf8.encode chart))),
    (["w", "extracted_song", "zshared", "base.ogg"], .file (.bytes [1])),
    (["w", "extracted_song", "zshared"], .folder),
    (["w", "extracted_song", "song", "project.arcproj"], .file (.bytes (Utf8.encode descriptor))),
    (["w", "extracted_song", "song"], .folder), (["w", "extracted_song"], .folder)]
  [unpacking]

def linkedSurveyed (songList : Content) : Stage Scene :=
  { linkedUnpacked with
    disk := linkedUnpacked.disk.put ["w", "extracted_song", "song", "songlist"] (.file songList) }

def linkedFurnished (songList : Content) : Stage Scene := linkedStage
  [(["w", "song"], .folder), (["w", "dl_song", "preview.ogg"], .file preview),
    (["w", "dl_song"], .folder),
    (["w", "extracted_song", "song", "songlist"], .file songList),
    (["w", "extracted_song", "song", "x.aff"], .link "../zshared/x.aff"),
    (["w", "extracted_song", "song", "base.ogg"], .link "../zshared/base.ogg"),
    (["w", "extracted_song", "zshared", "x.aff"], .file (.bytes (Utf8.encode chart))),
    (["w", "extracted_song", "zshared", "base.ogg"], .file (.bytes [1])),
    (["w", "extracted_song", "zshared"], .folder),
    (["w", "extracted_song", "song"], .folder), (["w", "extracted_song"], .folder)]
  [unpacking, clipping]

/-- What is in the folders of the song, with the links among it. -/
def linkedPublished (songList : Content) : List (Location × Item) :=
  [(["w", "song", "x.aff"], .link "../zshared/x.aff"), (["w", "song", "songlist"], .file songList),
    (["w", "song", "base.ogg"], .link "../zshared/base.ogg"), (["w", "song", "2.aff"], sanitized),
    (["w", "song", "1.aff"], sanitized), (["w", "song", "0.aff"], sanitized),
    (["w", "song"], .folder), (["w", "dl_song", "preview.ogg"], .file preview),
    (["w", "dl_song"], .folder)]

def linkedGathered (songList : Content) : Stage Scene := linkedStage
  [(["w", "song", "x.aff"], .link "../zshared/x.aff"), (["w", "song", "songlist"], .file songList),
    (["w", "song", "base.ogg"], .link "../zshared/base.ogg"), (["w", "song", "2.aff"], sanitized),
    (["w", "song", "1.aff"], sanitized), (["w", "song", "0.aff"], sanitized),
    (["w", "extracted_song", "zshared", "x.aff"], sanitized), (["w", "song"], .folder),
    (["w", "dl_song", "preview.ogg"], .file preview), (["w", "dl_song"], .folder),
    (["w", "extracted_song", "zshared", "base.ogg"], .file (.bytes [1])),
    (["w", "extracted_song", "zshared"], .folder), (["w", "extracted_song", "song"], .folder),
    (["w", "extracted_song"], .folder)]
  [unpacking, clipping]

def linkedDone : Stage Scene where
  disk := { entries := linkedPublished songList ++ surroundings, home := ["w"] }
  crew := (linkedGathered songList).crew

theorem unpack_linking :
    unpack linking {} (places "song.arcpkg") (homeWith "song.arcpkg" scattered) =
      (.ok (), linkedUnpacked) := by
  cbv

theorem opening_linking :
    opening linking {} 0 "song.arcpkg" (homeWith "song.arcpkg" scattered) =
      (.ok (folder, "song".toList), linkedSurveyed songList) := by
  have hunpack := unpack_linking
  rw [unpack_eq] at hunpack
  obtain ⟨_, s, htake, hunpack⟩ := Work.bind_eq_ok_iff.mp hunpack
  have hfind : findProject (places "song.arcpkg") linkedUnpacked =
      (.ok folder, linkedUnpacked) := by
    cbv
  have hwrite : ∀ c, Disk.write (folder.join songListName) c linkedUnpacked.disk =
      .ok (linkedSurveyed c).disk := by
    intro c
    cbv
  exact Work.bind_eq_ok_iff.mpr ⟨_, s, htake, Work.bind_eq_ok_iff.mpr ⟨_, _, hunpack,
    Work.bind_eq_ok_iff.mpr ⟨_, _, hfind, Work.bind_eq_ok_iff.mpr ⟨_, _,
      writeSongList_sample (by decide +kernel) (by cbv) (hwrite _), rfl⟩⟩⟩⟩

theorem furnish_linking (c : Content) :
    furnish linking {} (places "song.arcpkg") folder "song" (linkedSurveyed c) =
      (.ok (none, none), linkedFurnished c) := by
  cbv

theorem run_linking :
    run linking {} {} 0 "song.arcpkg" (homeWith "song.arcpkg" scattered) =
      (.ok outcome, linkedDone) := by
  have hgather : ∀ c, gather linking {} (places "song.arcpkg") folder "song" (linkedFurnished c) =
      (.ok outcome.charts, linkedGathered c) := by
    intro c
    cbv
  have hclean : ∀ c, cleanUp {} (places "song.arcpkg") (linkedGathered c).disk =
      (.ok (), { entries := linkedPublished c ++ surroundings, home := ["w"] }) := by
    intro c
    cbv
  exact run_of_stretches opening_linking (furnish_linking _) (hgather _) (hclean _) rfl rfl

end Sample

end Conversion
end ChartPackage
