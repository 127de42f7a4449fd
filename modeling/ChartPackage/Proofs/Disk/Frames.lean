import Mathlib
import ChartPackage.Proofs.Disk.Soundness

/-!
What a change leaves alone. Outside of a few places two disks agree, but for folders that one of
them lacks; what lies at one place of a disk can be found, with all below it, at a place of another.
-/

namespace ChartPackage.Disk

/-- Neither of two places lies at or below the other. -/
def Apart (a b : Location) : Prop := ¬ a <+: b ∧ ¬ b <+: a

instance (a b : Location) : Decidable (Apart a b) := inferInstanceAs (Decidable (_ ∧ _))

/-- The way from one disk to another changes what lies at or below the roots only, and may make
folders where nothing was. It keeps a well-formed disk well-formed and makes no links. -/
structure Frame (roots made : List Location) (d d' : Disk) : Prop where
  home : d'.home = d.home
  device : d'.device = d.device
  wellFormed : d.WellFormed → d'.WellFormed
  clean : (∀ root ∈ roots, d.Clean root) → ∀ root ∈ roots, d'.Clean root
  outside : ∀ m, (∀ root ∈ roots, ¬ root <+: m) →
    d'.get? m = d.get? m ∨ (m ∈ made ∧ d.get? m = none ∧ d'.get? m = some .folder)

/-- The way from one disk to another keeps a well-formed disk well-formed and makes no links. -/
structure Steady (d d' : Disk) : Prop where
  home : d'.home = d.home
  wellFormed : d.WellFormed → d'.WellFormed
  noLink : ∀ m, d.NoLink m → d'.NoLink m

/-- All that lies at or below a place lies in the same way at or below a place of another disk. -/
def Kept (d : Disk) (l : Location) (d' : Disk) (l' : Location) : Prop :=
  ∀ r e, d.get? (l ++ r) = some e → d'.get? (l' ++ r) = some e

namespace Apart

variable {a b : Location}

theorem symm (h : Apart a b) : Apart b a := ⟨h.2, h.1⟩

theorem not_prefix_append (h : Apart a b) (r : Location) : ¬ a <+: b ++ r := by
  intro ha
  cases List.prefix_or_prefix_of_prefix ha (List.prefix_append b r) with
  | inl hab => exact h.1 hab
  | inr hba => exact h.2 hba

theorem append_right (h : Apart a b) (r : Location) : Apart a (b ++ r) :=
  ⟨h.not_prefix_append r, fun hb => h.2 ((List.prefix_append b r).trans hb)⟩

theorem append_left (h : Apart a b) (r : Location) : Apart (a ++ r) b :=
  (h.symm.append_right r).symm

theorem append (h : Apart a b) (r t : Location) : Apart (a ++ r) (b ++ t) :=
  (h.append_left r).append_right t

theorem of_ne {place : Location} {n k : Text} (h : n ≠ k) :
    Apart (place ++ [n]) (place ++ [k]) := by
  have hsibling : ∀ {n k : Text}, n ≠ k → ¬ place ++ [n] <+: place ++ [k] := by
    intro n k hne hn
    have heq := hn.eq_of_length (by simp)
    exact hne (List.singleton_inj.mp (List.append_cancel_left heq))
  exact ⟨hsibling h, hsibling h.symm⟩

/-- An entry of a folder lies apart from those with other names. -/
theorem of_not_mem {place : Location} {names : List Text} {n : Text} (h : n ∉ names) :
    ∀ root ∈ names.map (place ++ [·]), Apart root (place ++ [n]) := by
  intro root hroot
  obtain ⟨k, hk, rfl⟩ := List.mem_map.mp hroot
  exact of_ne fun heq => h (heq ▸ hk)

theorem entries (h : Apart a b) (names : List Text) (n : Text) :
    ∀ root ∈ names.map (a ++ [·]), Apart root (b ++ [n]) := by
  intro root hroot
  obtain ⟨k, -, rfl⟩ := List.mem_map.mp hroot
  exact h.append [k] [n]

end Apart

/-- What does not lie in a folder does not lie in an entry of it. -/
theorem not_in_entries {place m : Location} (h : ¬ place <+: m) (names : List Text) :
    ∀ root ∈ names.map (place ++ [·]), ¬ root <+: m := by
  intro root hroot hin
  obtain ⟨n, -, rfl⟩ := List.mem_map.mp hroot
  exact h ((List.prefix_append place [n]).trans hin)

theorem spot_of_home {d d' : Disk} (h : d'.home = d.home) (p : Path) : d'.spot p = d.spot p := by
  rw [Disk.spot, Disk.spot, start, start, h]

theorem way_of_home {d d' : Disk} (h : d'.home = d.home) (p : Path) : d'.way p = d.way p := by
  rw [Disk.way, Disk.way, start, start, h]

namespace Steady

variable {d d' d'' : Disk}

theorem refl (d : Disk) : Steady d d := ⟨rfl, id, fun _ => id⟩

theorem trans (h : Steady d d') (h' : Steady d' d'') : Steady d d'' where
  home := h'.home.trans h.home
  wellFormed := fun hd => h'.wellFormed (h.wellFormed hd)
  noLink := fun m hm => h'.noLink m (h.noLink m hm)

theorem sound (h : Steady d d') (hd : d.Sound) : d'.Sound :=
  ⟨h.wellFormed hd.toWellFormed, fun m => h.noLink m (hd.noLink m)⟩

theorem spot (h : Steady d d') (p : Path) : d'.spot p = d.spot p := spot_of_home h.home p

theorem direct (h : Steady d d') {p : Path} (hp : d.Direct p) : d'.Direct p where
  way m hm := by
    rw [way_of_home h.home] at hm
    exact h.noLink m (hp.way m hm)
  clean r := by
    rw [h.spot]
    exact h.noLink _ (hp.clean r)

end Steady

namespace Frame

variable {roots made : List Location} {d d' d'' : Disk}

theorem refl (roots made : List Location) (d : Disk) : Frame roots made d d :=
  ⟨rfl, rfl, id, id, fun _ _ => Or.inl rfl⟩

/-- Where there was no link there is none afterwards, provided that there were none at or below the
roots. -/
theorem noLink (h : Frame roots made d d') (hroots : ∀ root ∈ roots, d.Clean root) {m : Location}
    (hm : d.NoLink m) : d'.NoLink m := by
  by_cases hin : ∃ root ∈ roots, root <+: m
  · obtain ⟨root, hroot, hin⟩ := hin
    exact (h.clean hroots root hroot).noLink_below hin
  · push Not at hin
    cases h.outside m hin with
    | inl hsame =>
        intro t
        rw [hsame]
        exact hm t
    | inr hmade =>
        intro t
        rw [hmade.2.2]
        simp

theorem steady (h : Frame roots made d d') (hroots : ∀ root ∈ roots, d.Clean root) : Steady d d' :=
  ⟨h.home, h.wellFormed, fun _ => h.noLink hroots⟩

/-- All that changes lies at or below a place that has no links. -/
theorem steady_within (h : Frame roots made d d') {l : Location} (hl : d.Clean l)
    (hroots : ∀ root ∈ roots, l <+: root) : Steady d d' :=
  h.steady fun root hroot => hl.below (hroots root hroot)

theorem sound (h : Frame roots made d d') (hd : d.Sound) : d'.Sound :=
  (h.steady fun _ _ => hd.clean _).sound hd

theorem trans (h : Frame roots made d d') (h' : Frame roots made d' d'') :
    Frame roots made d d'' where
  home := h'.home.trans h.home
  device := h'.device.trans h.device
  wellFormed := fun hd => h'.wellFormed (h.wellFormed hd)
  clean := fun hroots => h'.clean (h.clean hroots)
  outside m hm := by
    cases h.outside m hm with
    | inl heq =>
        rw [← heq]
        exact h'.outside m hm
    | inr hmade =>
        refine Or.inr ⟨hmade.1, hmade.2.1, ?_⟩
        cases h'.outside m hm with
        | inl heq => exact heq.trans hmade.2.2
        | inr hmade' => exact hmade'.2.2

theorem mono {roots' made' : List Location} (h : Frame roots made d d')
    (hroots : ∀ root ∈ roots, ∃ root' ∈ roots', root' <+: root) (hmade : made ⊆ made') :
    Frame roots' made' d d' where
  home := h.home
  device := h.device
  wellFormed := h.wellFormed
  clean hclean root' hroot' r := by
    refine h.noLink ?_ (hclean root' hroot' r)
    intro root hroot
    obtain ⟨above, habove, hin⟩ := hroots root hroot
    exact (hclean above habove).below hin
  outside m hm := by
    have hm' : ∀ root ∈ roots, ¬ root <+: m := by
      intro root hroot hin
      obtain ⟨root', hroot', habove⟩ := hroots root hroot
      exact hm root' hroot' (habove.trans hin)
    cases h.outside m hm' with
    | inl heq => exact Or.inl heq
    | inr hnew => exact Or.inr ⟨hmade hnew.1, hnew.2⟩

/-- What a change leaves alone outside of a place it leaves alone outside of a larger one. -/
theorem within {l root : Location} {roots' made' : List Location} (h : Frame [l] made d d')
    (hin : root <+: l) (hroot : root ∈ roots') (hmade : made ⊆ made') : Frame roots' made' d d' :=
  h.mono (by simpa using ⟨root, hroot, hin⟩) hmade

/-- Folders are not made where there is something. -/
theorem drop_made (h : Frame roots made d d')
    (hthere : ∀ m ∈ made, (∃ root ∈ roots, root <+: m) ∨ d.get? m ≠ none) :
      Frame roots [] d d' where
  home := h.home
  device := h.device
  wellFormed := h.wellFormed
  clean := h.clean
  outside m hm := by
    cases h.outside m hm with
    | inl heq => exact Or.inl heq
    | inr hnew =>
        cases hthere m hnew.1 with
        | inl hin =>
            obtain ⟨root, hroot, hin⟩ := hin
            exact absurd hin (hm root hroot)
        | inr hsome => exact absurd hnew.2.1 hsome

/-- Whatever a change is limited to, it keeps the home folder and keeps a sound disk sound. -/
theorem anywhere (h : Frame roots made d d') : Frame [[]] [] d d' where
  home := h.home
  device := h.device
  wellFormed := h.wellFormed
  clean hclean root hroot r := by
    have hall : d.Clean [] := hclean [] List.mem_cons_self
    exact h.noLink (fun root _ => hall.below List.nil_prefix)
      (hall.noLink_below List.nil_prefix)
  outside _ hm := absurd List.nil_prefix (hm [] List.mem_cons_self)

theorem spot (h : Frame roots made d d') (p : Path) : d'.spot p = d.spot p := spot_of_home h.home p

/-- A change to an entry of a folder, after other changes to the folder. -/
theorem entry {p : Path} {n : Text} (h : Frame roots made d d')
    (h' : Frame [d'.spot p ++ [n]] [] d' d'') (hroot : d.spot p ∈ roots) :
      Frame roots made d' d'' := by
  rw [h.spot] at h'
  exact h'.within (List.prefix_append _ _) hroot (List.nil_subset _)

theorem way (h : Frame roots made d d') (p : Path) : d'.way p = d.way p := way_of_home h.home p

/-- A path stays direct where there are no links at or below the roots. -/
theorem direct (h : Frame roots made d d') (hroots : ∀ root ∈ roots, d.Clean root) {p : Path}
    (hp : d.Direct p) : d'.Direct p :=
  (h.steady hroots).direct hp

/-- A path to a folder in which a change takes place stays direct. -/
theorem direct_within (h : Frame roots made d d') {p : Path} (hp : d.Direct p)
    (hroots : ∀ root ∈ roots, d.spot p <+: root) : d'.Direct p :=
  (h.steady_within hp.clean hroots).direct hp

theorem some_of_some (h : Frame roots made d d') {m : Location} {e : Item}
    (hm : ∀ root ∈ roots, ¬ root <+: m) (he : d.get? m = some e) : d'.get? m = some e := by
  cases h.outside m hm with
  | inl heq => exact heq.trans he
  | inr hnew =>
      rw [hnew.2.1] at he
      cases he

theorem get?_eq (h : Frame roots [] d d') {m : Location} (hm : ∀ root ∈ roots, ¬ root <+: m) :
    d'.get? m = d.get? m := by
  cases h.outside m hm with
  | inl heq => exact heq
  | inr hnew => exact absurd hnew.1 List.not_mem_nil

/-- What lies apart from the roots is kept. -/
theorem kept (h : Frame roots made d d') {l : Location} (hl : ∀ root ∈ roots, Apart root l) :
    Kept d l d' l := by
  intro r e he
  exact h.some_of_some (fun root hroot => (hl root hroot).not_prefix_append r) he

theorem below_eq (h : Frame roots [] d d') {l : Location} (hl : ∀ root ∈ roots, Apart root l)
    (r : Location) : d'.get? (l ++ r) = d.get? (l ++ r) :=
  h.get?_eq fun root hroot => (hl root hroot).not_prefix_append r

variable {place : Location} {names : List Text} {n k : Text}

/-- A path to a folder of which some entries change stays direct. -/
theorem direct_of_entries {p : Path} (h : Frame (names.map (d.spot p ++ [·])) made d d')
    (hp : d.Direct p) : d'.Direct p := by
  refine h.direct_within hp fun root hroot => ?_
  obtain ⟨n, -, rfl⟩ := List.mem_map.mp hroot
  exact List.prefix_append _ _

theorem below_entry (h : Frame roots [] d d') (hn : ∀ root ∈ roots, Apart root (place ++ [n]))
    (r : Location) : d'.get? (place ++ n :: r) = d.get? (place ++ n :: r) := by
  rw [List.append_cons]
  exact h.below_eq hn r

/-- A step that changes the entries with these names only. -/
theorem kept_entry (h : Frame (names.map (place ++ [·])) made d d') (hn : n ∉ names) :
    Kept d (place ++ [n]) d' (place ++ [n]) :=
  h.kept (Apart.of_not_mem hn)

/-- A step that changes one of these entries only. -/
theorem among (h : Frame [place ++ [n]] [] d d') (hn : n ∈ names) :
    Frame (names.map (place ++ [·])) [] d d' :=
  h.within (List.prefix_refl _) (List.mem_map_of_mem hn) (List.Subset.refl _)

theorem mono_names {names' : List Text} (h : Frame (names.map (place ++ [·])) [] d d')
    (hnames : names ⊆ names') : Frame (names'.map (place ++ [·])) [] d d' := by
  refine h.mono ?_ (List.Subset.refl _)
  intro root hroot
  obtain ⟨k, hk, rfl⟩ := List.mem_map.mp hroot
  exact ⟨_, List.mem_map_of_mem (hnames hk), List.prefix_refl _⟩

theorem kept_beside (h : Frame [place ++ [k]] made d d') (hne : k ≠ n) :
    Kept d (place ++ [n]) d' (place ++ [n]) := by
  refine h.kept ?_
  rw [List.forall_mem_singleton]
  exact Apart.of_ne hne

end Frame

namespace Kept

variable {d d' d'' : Disk} {l l' l'' : Location}

theorem trans (h : Kept d l d' l') (h' : Kept d' l' d'' l'') : Kept d l d'' l'' :=
  fun r e he => h' r e (h r e he)

theorem at_place (h : Kept d l d' l') {e : Item} (he : d.get? l = some e) :
    d'.get? l' = some e := by
  have h' := h [] e
  rw [List.append_nil, List.append_nil] at h'
  exact h' he

theorem entry (h : Kept d l d' l') (n : Text) : Kept d (l ++ [n]) d' (l' ++ [n]) := by
  intro r e he
  rw [List.append_assoc] at he ⊢
  exact h _ e he

end Kept
end ChartPackage.Disk
