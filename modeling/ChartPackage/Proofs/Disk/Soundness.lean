import ChartPackage.Proofs.Disk.Trails

/-!
Disks that are file systems: everything lies in a folder and has a name that the system takes. Every
change keeps a disk well-formed that puts something into a folder that is there. A disk is sound
when there are no links on it; a path is direct when there are none on its way, where it leads and
below.
-/

namespace ChartPackage

/-- A name that the system takes for an entry. -/
structure Path.Proper (name : Text) : Prop extends Path.Plain name where
  no_nul : '\x00' ∉ name
  short : (Utf8.encode name).length ≤ Disk.nameLimit

instance (name : Text) : Decidable (Path.Proper name) :=
  decidable_of_iff (Path.Plain name ∧ '\x00' ∉ name ∧ (Utf8.encode name).length ≤ Disk.nameLimit)
    ⟨fun h => ⟨h.1, h.2.1, h.2.2⟩, fun h => ⟨h.toPlain, h.no_nul, h.short⟩⟩

inductive Item.Kind where
  | folder
  | file
  | link
  deriving DecidableEq

def Item.kind : Item → Kind
  | .folder => .folder
  | .file _ => .file
  | .link _ => .link

namespace Disk

/-- Everything lies in a folder and has a proper name. -/
structure WellFormed (d : Disk) : Prop where
  proper : ∀ l e, d.get? l = some e → ∀ name ∈ l, Path.Proper name
  inFolder : ∀ l name e, d.get? (l ++ [name]) = some e → d.get? l = some .folder

/-- A well-formed disk without links. -/
structure Sound (d : Disk) : Prop extends WellFormed d where
  noLink : ∀ m, d.NoLink m

/-- No link lies at a place or below it. -/
def Clean (d : Disk) (l : Location) : Prop := ∀ r, d.NoLink (l ++ r)

/-- No link lies on the way of a path, where it leads or below. -/
structure Direct (d : Disk) (p : Path) : Prop where
  way : ∀ m ∈ d.way p, d.NoLink m
  clean : d.Clean (d.spot p)

/-- A place in a folder, for an entry with a proper name. -/
structure Open (d : Disk) (l : Location) : Prop where
  exists_folder : ∃ place name, l = place ++ [name] ∧ d.get? place = some .folder ∧ Path.Proper name

variable {d : Disk}

theorem Open.ne_nil {l : Location} (h : d.Open l) : l ≠ [] := by
  obtain ⟨place, name, rfl, -, -⟩ := h.exists_folder
  simp

instance (found : Option Item) : Decidable (found = some .folder) :=
  match found with
  | none => isFalse nofun
  | some .folder => isTrue rfl
  | some (.file _) => isFalse nofun
  | some (.link _) => isFalse nofun

theorem mem_entries {l : Location} {e : Item} (hl : l ≠ []) (he : d.get? l = some e) :
    (l, e) ∈ d.entries := by
  rw [get?, if_neg hl] at he
  obtain ⟨before, after, heq, -⟩ := List.lookup_eq_some_iff.mp he
  simp [heq]

namespace Clean

variable {l m : Location}

theorem noLink (h : d.Clean l) : d.NoLink l := by
  have hl := h []
  rwa [List.append_nil] at hl

theorem noLink_below (h : d.Clean l) (hm : l <+: m) : d.NoLink m := by
  obtain ⟨r, rfl⟩ := hm
  exact h r

theorem below (h : d.Clean l) (hm : l <+: m) : d.Clean m :=
  fun r => h.noLink_below (hm.trans (List.prefix_append m r))

end Clean

namespace Direct

variable {p : Path}

theorem straight (h : d.Direct p) : d.Straight p := straight_of_noLink h.way h.clean.noLink

theorem join (h : d.Direct p) {name : Text} (hname : Path.Plain name) :
    d.Direct (p.join name) where
  way m hm := by
    cases (mem_way_join hname).mp hm with
    | inl hm => exact h.way m hm
    | inr hm => exact hm ▸ h.clean.noLink
  clean := by
    rw [spot_join d p hname]
    exact h.clean.below (List.prefix_append _ _)

end Direct

namespace Sound

theorem clean (h : d.Sound) (l : Location) : d.Clean l := fun _ => h.noLink _

theorem direct (h : d.Sound) (p : Path) : d.Direct p := ⟨fun m _ => h.noLink m, h.clean _⟩

theorem straight (h : d.Sound) (p : Path) : d.Straight p := (h.direct p).straight

end Sound

namespace WellFormed

theorem of_entries (h : ∀ p ∈ d.entries,
    (∀ name ∈ p.1, Path.Proper name) ∧ d.get? p.1.dropLast = some .folder) : d.WellFormed := by
  constructor
  · intro l e he name hname
    exact (h _ (mem_entries (List.ne_nil_of_mem hname) he)).1 name hname
  · intro l name e he
    have hfolder := (h _ (mem_entries (by simp) he)).2
    rwa [List.dropLast_concat] at hfolder

theorem folder_dropLast (h : d.WellFormed) {l : Location} (hl : d.get? l = some .folder) :
    d.get? l.dropLast = some .folder := by
  cases hcase : l using List.reverseRecOn with
  | nil => exact get?_root d
  | append_singleton l name =>
      rw [List.dropLast_concat]
      rw [hcase] at hl
      exact h.inFolder l name _ hl

/-- All above an entry are folders. -/
theorem folder_above (h : d.WellFormed) {l m : Location} {e : Item} (hm : m ≠ [])
    (he : d.get? (l ++ m) = some e) : d.get? l = some .folder := by
  induction m using List.reverseRecOn generalizing e with
  | nil => exact absurd rfl hm
  | append_singleton m name ih =>
      rw [← List.append_assoc] at he
      have hfolder := h.inFolder (l ++ m) name e he
      by_cases hnil : m = []
      · rwa [hnil, List.append_nil] at hfolder
      · exact ih hnil hfolder

theorem some_above (h : d.WellFormed) {l m : Location} {e : Item} (he : d.get? (l ++ m) = some e) :
    ∃ e, d.get? l = some e := by
  by_cases hm : m = []
  · rw [hm, List.append_nil] at he
    exact ⟨e, he⟩
  · exact ⟨_, h.folder_above hm he⟩

theorem folder_of_prefix (h : d.WellFormed) {l m : Location} (hm : d.get? m = some .folder)
    (hl : l <+: m) :
    d.get? l = some .folder := by
  obtain ⟨r, rfl⟩ := hl
  by_cases hr : r = []
  · rwa [hr, List.append_nil] at hm
  · exact h.folder_above hr hm

/-- No folder lies at or below a file. -/
theorem not_prefix_of_file (h : d.WellFormed) {l m : Location} {c : Content}
    (hl : d.get? l = some (.file c))
    (hm : d.get? m = some .folder) : ¬ l <+: m := by
  intro hin
  have hfolder := h.folder_of_prefix hm hin
  rw [hl] at hfolder
  cases hfolder

/-- Nothing lies below what is no folder. -/
theorem none_below (h : d.WellFormed) {l m : Location} (hl : d.get? l ≠ some .folder)
    (hm : m ≠ []) : d.get? (l ++ m) = none := by
  cases he : d.get? (l ++ m) with
  | none => rfl
  | some e => exact absurd (h.folder_above hm he) hl

theorem none_of_prefix (h : d.WellFormed) {l m : Location} (hl : d.get? l = none) (hm : l <+: m) :
    d.get? m = none := by
  obtain ⟨r, rfl⟩ := hm
  by_cases hr : r = []
  · rwa [hr, List.append_nil]
  · exact h.none_below (by simp [hl]) hr

/-- A path that leads somewhere leads to a folder or to a place in one. -/
theorem locate_cases (h : d.WellFormed) {p : Path} (hp : d.Straight p) {l : Location}
    (hl : d.locate p = .ok l) : d.get? l = some .folder ∨ d.Open l := by
  obtain ⟨husable, hway, rfl⟩ := (locate_eq_ok_iff hp).mp hl
  have hne : p.segments ≠ [] := List.splitOn_ne_nil _ _
  obtain ⟨init, s, hsegments⟩ : ∃ init s, p.segments = init ++ [s] :=
    ⟨_, _, (List.dropLast_concat_getLast hne).symm⟩
  have hs : s ∈ p.segments := by simp [hsegments]
  rw [way, hsegments, trail_append] at hway
  have hplace : d.get? (init.foldl enter (d.start p)) = some .folder := hway _ (by simp [trail])
  rw [spot, hsegments, List.foldl_append, List.foldl_cons, List.foldl_nil]
  rw [enter]
  split
  · exact Or.inl hplace
  · next hidle =>
      split
      · exact Or.inl (h.folder_dropLast hplace)
      · next hdots =>
          have hproper : Path.Proper s :=
            { ne_nil := fun hnil => hidle (by rw [hnil]; decide)
              ne_dot := fun hdot => hidle (by rw [hdot]; decide)
              ne_dots := hdots
              no_slash := Text.not_mem_of_mem_splitOn hs
              no_nul := fun hnul => husable.no_nul (Text.mem_of_mem_splitOn hs hnul)
              short := husable.names s hs }
          exact Or.inr ⟨_, s, rfl, hplace, hproper⟩

theorem proper_of_mem_names (h : d.WellFormed) {l : Location} {name : Text}
    (hname : name ∈ d.names l) : Path.Proper name := by
  obtain ⟨e, he⟩ := mem_names.mp hname
  exact h.proper _ e he name (by simp)

theorem proper_of_open {l : Location} (h : d.WellFormed) (hl : d.Open l) :
    ∀ name ∈ l, Path.Proper name := by
  obtain ⟨place, last, rfl, hplace, hlast⟩ := hl.exists_folder
  intro name hname
  rcases List.mem_append.mp hname with hname | hname
  · exact h.proper place _ hplace name hname
  · rwa [List.mem_singleton.mp hname]

theorem put (h : d.WellFormed) {l : Location} {e : Item} (hopen : d.Open l)
    (hl : d.get? l ≠ some .folder) : (d.put l e).WellFormed where
  proper m f hm := by
    rw [get?_put hopen.ne_nil] at hm
    split at hm
    · next heq =>
        rw [heq]
        exact h.proper_of_open hopen
    · exact h.proper m f hm
  inFolder m name f hm := by
    rw [get?_put hopen.ne_nil] at hm ⊢
    split at hm
    · next heq =>
        obtain ⟨place, last, hsplit, hplace, -⟩ := hopen.exists_folder
        obtain ⟨rfl, -⟩ := List.append_inj' (heq.trans hsplit) rfl
        rw [if_neg, hplace]
        intro hself
        have hlength := congrArg List.length (hself.trans hsplit)
        simp at hlength
    · have hfolder := h.inFolder m name f hm
      split
      · next heq => exact absurd (heq ▸ hfolder) hl
      · exact hfolder

theorem remove (h : d.WellFormed) {l : Location} (hl : l ≠ []) : (d.remove l).WellFormed where
  proper m e hm := by
    rw [get?_remove hl] at hm
    split at hm
    · cases hm
    · exact h.proper m e hm
  inFolder m name e hm := by
    rw [get?_remove hl] at hm ⊢
    split at hm
    · cases hm
    · next hout =>
        rw [if_neg fun hin => hout (hin.trans (List.prefix_append m [name]))]
        exact h.inFolder m name e hm

theorem clear (h : d.WellFormed) (l : Location) : (d.clear l).WellFormed where
  proper m e hm := by
    rw [get?_clear] at hm
    split at hm
    · cases hm
    · exact h.proper m e hm
  inFolder m name e hm := by
    rw [get?_clear] at hm ⊢
    split at hm
    · cases hm
    · next hout =>
        rw [if_neg, h.inFolder m name e hm]
        intro hin
        have hlonger : l <+: m ++ [name] := hin.1.trans (List.prefix_append m [name])
        refine hout ⟨hlonger, fun heq => ?_⟩
        have hlength := hin.1.length_le
        rw [← heq] at hlength
        simp at hlength

theorem move (h : d.WellFormed) {a b : Location} (ha : a ≠ [])
    (hopen : d.Open b) (hab : ¬ a <+: b) : (d.move a b).WellFormed where
  proper m f hm := by
    rw [get?_move ha hopen.ne_nil] at hm
    split at hm
    · next hin =>
        obtain ⟨r, rfl⟩ := hin
        rw [List.drop_left] at hm
        intro name hname
        rcases List.mem_append.mp hname with hname | hname
        · exact h.proper_of_open hopen name hname
        · exact h.proper _ f hm name (List.mem_append_right a hname)
    · split at hm
      · cases hm
      · exact h.proper m f hm
  inFolder m name f hm := by
    rw [get?_move ha hopen.ne_nil] at hm ⊢
    split at hm
    · next hin =>
        obtain ⟨place, last, hsplit, hplace, -⟩ := hopen.exists_folder
        by_cases hm' : b <+: m
        · obtain ⟨r, rfl⟩ := hm'
          rw [if_pos (List.prefix_append b r), List.drop_left]
          rw [List.append_assoc, List.drop_left, ← List.append_assoc] at hm
          exact h.inFolder (a ++ r) name f hm
        · -- The entry is the one that was moved, and its folder was there before.
          have heq : b = m ++ [name] := (List.prefix_concat_iff.mp hin).resolve_right hm'
          obtain ⟨rfl, -⟩ := List.append_inj' (heq.symm.trans hsplit) rfl
          rw [if_neg hm', if_neg fun ham => hab (hsplit ▸ ham.trans (List.prefix_append m [last])),
            hplace]
    · next hout =>
        split at hm
        · cases hm
        · next hout' =>
            rw [if_neg fun hin => hout (hin.trans (List.prefix_append m [name])),
              if_neg fun hin => hout' (hin.trans (List.prefix_append m [name]))]
            exact h.inFolder m name f hm

end WellFormed

theorem noLink_of_entries {l : Location} (h : ∀ p ∈ d.entries, p.1 = l → p.2.kind ≠ .link) :
    d.NoLink l := by
  intro t ht
  have hl : l ≠ [] := by
    intro hnil
    rw [hnil, get?_root] at ht
    cases ht
  exact h _ (mem_entries hl ht) rfl rfl

theorem Direct.of_entries {p : Path}
    (h : ∀ q ∈ d.entries, q.1 ∈ d.way p ∨ d.spot p <+: q.1 → q.2.kind ≠ .link) : d.Direct p where
  way _ hm := noLink_of_entries fun q hq heq => h q hq (Or.inl (heq ▸ hm))
  clean r := noLink_of_entries fun q hq heq => h q hq (Or.inr ⟨r, heq.symm⟩)

theorem Sound.of_entries (h : ∀ p ∈ d.entries,
    (∀ name ∈ p.1, Path.Proper name) ∧ d.get? p.1.dropLast = some .folder ∧
      p.2.kind ≠ .link) : d.Sound := by
  refine ⟨.of_entries fun p hp => ⟨(h p hp).1, (h p hp).2.1⟩, fun l => ?_⟩
  exact noLink_of_entries fun p hp _ => (h p hp).2.2

end Disk
end ChartPackage
