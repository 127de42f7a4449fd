import ChartPackage.Disk.Content

/-!
A disk as a finite table of what lies where. A location is the list of names that lead to it from
the root, which is always a folder. What a change does is said by what lies at each location
afterwards. The table knows folders, symbolic links and files with one name each; it has no rights,
no limits of room, nothing that is mounted or taken away during the work and no names that are not
text.
-/

namespace ChartPackage

abbrev Location := List Text

inductive Item where
  | folder
  | file (content : Content)
  /-- A symbolic link, with the path it holds. -/
  | link (target : Path)

structure Disk where
  /-- The first item for a location is the one that counts. -/
  entries : List (Location × Item)
  /-- The folder that relative paths start from. -/
  home : Location
  /-- The device that the entries of a folder are kept on. -/
  device : Location → Nat := fun _ => 0

namespace Disk

def get? (d : Disk) (l : Location) : Option Item :=
  if l = [] then some .folder else d.entries.lookup l

@[simp] theorem get?_root (d : Disk) : d.get? [] = some .folder := by simp [get?]

def put (l : Location) (e : Item) (d : Disk) : Disk :=
  { d with entries := (l, e) :: d.entries.filter (·.1 ≠ l) }

/-- The disk without what lies at or below a location. -/
def remove (l : Location) (d : Disk) : Disk :=
  { d with entries := d.entries.filter fun (m, _) => ¬ l <+: m }

/-- The disk without what lies below a location. -/
def clear (l : Location) (d : Disk) : Disk :=
  { d with entries := d.entries.filter fun (m, _) => m = l ∨ ¬ l <+: m }

/-- The disk with what lay at or below `a` now at or below `b`, in place of what lay there. -/
def move (a b : Location) (d : Disk) : Disk :=
  { d with
    entries :=
      (d.entries.filter fun (m, _) => a <+: m).map (fun (m, e) => (b ++ m.drop a.length, e)) ++
        d.entries.filter fun (m, _) => ¬ a <+: m ∧ ¬ b <+: m }

def names (d : Disk) (l : Location) : List Text :=
  let inside := d.entries.filterMap fun (m, _) =>
    if l <+: m then
      match m.drop l.length with
      | [name] => some name
      | _ => none
    else none
  inside.eraseDups.mergeSort Text.inOrder

/-! What lies where after each change. -/

theorem lookup_filter {α β : Type} [BEq α] [LawfulBEq α] (keep : α → Bool) (k : α)
    (ps : List (α × β)) :
    (ps.filter fun p => keep p.1).lookup k = if keep k then ps.lookup k else none := by
  induction ps with
  | nil => simp
  | cons p ps ih =>
      obtain ⟨a, b⟩ := p
      by_cases h : k = a
      · subst h
        by_cases hk : keep k <;> simp [hk, ih]
      · have hne : (k == a) = false := beq_eq_false_iff_ne.2 h
        by_cases ha : keep a <;> simp [ha, List.lookup_cons, hne, ih]

@[simp] theorem home_put (l : Location) (e : Item) (d : Disk) : (d.put l e).home = d.home := rfl

@[simp] theorem home_remove (l : Location) (d : Disk) : (d.remove l).home = d.home := rfl

@[simp] theorem home_clear (l : Location) (d : Disk) : (d.clear l).home = d.home := rfl

@[simp] theorem home_move (a b : Location) (d : Disk) : (d.move a b).home = d.home := rfl

@[simp] theorem device_put (l : Location) (e : Item) (d : Disk) :
    (d.put l e).device = d.device := rfl

@[simp] theorem device_remove (l : Location) (d : Disk) : (d.remove l).device = d.device := rfl

@[simp] theorem device_clear (l : Location) (d : Disk) : (d.clear l).device = d.device := rfl

@[simp] theorem device_move (a b : Location) (d : Disk) : (d.move a b).device = d.device := rfl

theorem get?_put {l : Location} (hl : l ≠ []) (e : Item) (d : Disk) (m : Location) :
    (d.put l e).get? m = if m = l then some e else d.get? m := by
  by_cases hm : m = []
  · subst hm; simp [Ne.symm hl]
  · by_cases h : m = l
    · simp [get?, put, h, hl]
    · have := lookup_filter (fun k => decide (k ≠ l)) m d.entries
      simp only [get?, put, hm, h, if_false, List.lookup_cons, beq_eq_false_iff_ne.2 h]
      simpa [h] using this

theorem get?_remove {l : Location} (hl : l ≠ []) (d : Disk) (m : Location) :
    (d.remove l).get? m = if l <+: m then none else d.get? m := by
  by_cases hm : m = []
  · subst hm; simp [hl]
  · have := lookup_filter (fun k => decide (¬ l <+: k)) m d.entries
    simp only [get?, remove, hm, if_false]
    by_cases h : l <+: m <;> simpa [h] using this

theorem get?_clear (l : Location) (d : Disk) (m : Location) :
    (d.clear l).get? m = if l <+: m ∧ m ≠ l then none else d.get? m := by
  by_cases hm : m = []
  · subst hm; simp
  · have := lookup_filter (fun k => decide (k = l ∨ ¬ l <+: k)) m d.entries
    simp only [get?, clear, hm, if_false]
    by_cases h : l <+: m <;> by_cases hml : m = l <;> simpa [h, hml] using this

theorem lookup_moved (a b : Location) (ps : List (Location × Item)) (m : Location) :
    ((ps.filter fun p => decide (a <+: p.1)).map fun p => (b ++ p.1.drop a.length, p.2)).lookup m =
      if b <+: m then ps.lookup (a ++ m.drop b.length) else none := by
  induction ps with
  | nil => simp
  | cons p ps ih =>
      obtain ⟨k, e⟩ := p
      by_cases hk : a <+: k
      · obtain ⟨s, rfl⟩ := hk
        by_cases hm : b <+: m
        · obtain ⟨t, rfl⟩ := hm
          by_cases hst : t = s
          · simp [hst]
          · have h1 : (b ++ t == b ++ s) = false := by simpa using hst
            have h2 : (a ++ t == a ++ s) = false := by simpa using hst
            simpa [List.lookup_cons, h1, h2] using ih
        · have h1 : (m == b ++ s) = false := by
            apply beq_eq_false_iff_ne.2
            rintro rfl
            exact hm (List.prefix_append b s)
          simpa [List.lookup_cons, h1, hm] using ih
      · by_cases hm : b <+: m
        · have h2 : (a ++ m.drop b.length == k) = false := by
            apply beq_eq_false_iff_ne.2
            rintro rfl
            exact hk (List.prefix_append a _)
          simpa [hk, hm, List.lookup_cons, h2] using ih
        · simpa [hk, hm] using ih

theorem get?_move {a b : Location} (ha : a ≠ []) (hb : b ≠ []) (d : Disk) (m : Location) :
    (d.move a b).get? m =
      if b <+: m then d.get? (a ++ m.drop b.length) else if a <+: m then none else d.get? m := by
  by_cases hm : m = []
  · subst hm; simp [ha, hb]
  · have hne : a ++ m.drop b.length ≠ [] := by simp [ha]
    have hmoved := lookup_moved a b d.entries m
    have hrest := lookup_filter (fun k => decide (¬ a <+: k ∧ ¬ b <+: k)) m d.entries
    simp only [get?, move, hm, hne, if_false, List.lookup_append, hmoved, hrest]
    by_cases h : b <+: m <;> by_cases h' : a <+: m <;> simp [h, h']

theorem mem_names {d : Disk} {l : Location} {name : Text} :
    name ∈ d.names l ↔ ∃ e, d.get? (l ++ [name]) = some e := by
  have hne : l ++ [name] ≠ [] := by simp
  simp only [names, List.mem_mergeSort, List.mem_eraseDups, List.mem_filterMap, get?, hne, if_false,
    Prod.exists]
  constructor
  · rintro ⟨m, e, hmem, h⟩
    split at h
    · next hp =>
        obtain ⟨s, rfl⟩ := hp
        cases s with
        | nil => simp at h
        | cons n s =>
            cases s with
            | nil =>
                obtain rfl : n = name := by simpa using h
                cases hl : d.entries.lookup (l ++ [n]) with
                | some e => exact ⟨e, rfl⟩
                | none => simpa using List.lookup_eq_none_iff.1 hl _ hmem
            | cons => simp at h
    · cases h
  · rintro ⟨e, h⟩
    obtain ⟨before, after, heq, -⟩ := List.lookup_eq_some_iff.1 h
    exact ⟨l ++ [name], e, by simp [heq], by simp⟩

end Disk
end ChartPackage
