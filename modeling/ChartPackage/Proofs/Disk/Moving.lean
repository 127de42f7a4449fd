import Mathlib
import ChartPackage.Proofs.Disk.Likeness

/-!
Moving the contents of a folder. A folder that is renamed comes with all that lies in it; a file
that cannot be renamed, because the other folder is on another device, is copied and then deleted.
Either way an entry moves as a whole or stays as it is, and the first that stays ends the work.
-/

namespace ChartPackage.Disk

/-- The entries with these names lie in the folder `b` as they lay in the folder `a`, where they are
no longer. All else is as it was, and folders that are not moved stay folders. -/
structure Moved (a b : Location) (names : List Text) (d d' : Disk) : Prop where
  frame : Frame (names.map (a ++ [·]) ++ names.map (b ++ [·])) [] d d'
  arrived : ∀ n ∈ names, ∀ r, d'.get? (b ++ n :: r) = d.get? (a ++ n :: r)
  left : ∀ n ∈ names, ∀ r, d'.get? (a ++ n :: r) = none
  folders : d.WellFormed → ∀ m, d.get? m = some .folder → (∀ n ∈ names, ¬ a ++ [n] <+: m) →
    d'.get? m = some .folder

variable {d d' : Disk}

namespace Moved

variable {a b : Location}

theorem nil (a b : Location) (d : Disk) : Moved a b [] d d :=
  ⟨.refl _ _ _, by simp, by simp, fun _ _ hm _ => hm⟩

/-- The places that a move of other names changes are apart from those of a name. -/
theorem apart_of_not_mem {n : Text} {names : List Text} (hapart : Apart a b) (hn : n ∉ names) :
    (∀ root ∈ names.map (a ++ [·]) ++ names.map (b ++ [·]), Apart root (a ++ [n])) ∧
      ∀ root ∈ names.map (a ++ [·]) ++ names.map (b ++ [·]), Apart root (b ++ [n]) := by
  rw [List.forall_mem_append, List.forall_mem_append]
  exact ⟨⟨.of_not_mem hn, hapart.symm.entries names n⟩, hapart.entries names n, .of_not_mem hn⟩

/-- What lies under another name, in either folder, is as it was. -/
theorem others {names : List Text} (h : Moved a b names d d') (hapart : Apart a b) {n : Text}
    (hn : n ∉ names) (r : Location) :
    d'.get? (a ++ n :: r) = d.get? (a ++ n :: r) ∧
      d'.get? (b ++ n :: r) = d.get? (b ++ n :: r) := by
  obtain ⟨ha, hb⟩ := apart_of_not_mem hapart hn
  exact ⟨h.frame.below_entry ha r, h.frame.below_entry hb r⟩

theorem cons {n : Text} {names : List Text} {d₁ : Disk} (hapart : Apart a b) (hn : n ∉ names)
    (h : Moved a b [n] d d₁) (h' : Moved a b names d₁ d') : Moved a b (n :: names) d d' where
  frame := by
    refine (h.frame.mono ?_ (List.Subset.refl _)).trans (h'.frame.mono ?_ (List.Subset.refl _))
    · intro root hroot
      refine ⟨root, ?_, List.prefix_refl root⟩
      simp only [List.map_cons, List.map_nil, List.cons_append, List.nil_append, List.mem_cons,
        List.mem_append, List.not_mem_nil, or_false] at hroot ⊢
      cases hroot with
      | inl hroot => exact Or.inl hroot
      | inr hroot => exact Or.inr (Or.inr (Or.inl hroot))
    · intro root hroot
      refine ⟨root, ?_, List.prefix_refl root⟩
      simp only [List.map_cons, List.cons_append, List.mem_cons, List.mem_append] at hroot ⊢
      cases hroot with
      | inl hroot => exact Or.inr (Or.inl hroot)
      | inr hroot => exact Or.inr (Or.inr (Or.inr hroot))
  arrived k hk r := by
    cases List.mem_cons.mp hk with
    | inl heq =>
        rw [heq, (h'.others hapart hn r).2]
        exact h.arrived n (List.mem_singleton_self n) r
    | inr hk =>
        have hkn : k ∉ [n] := by
          intro hmem
          exact hn (List.mem_singleton.mp hmem ▸ hk)
        rw [h'.arrived k hk, (h.others hapart hkn r).1]
  left k hk r := by
    cases List.mem_cons.mp hk with
    | inl heq =>
        rw [heq, (h'.others hapart hn r).1]
        exact h.left n (List.mem_singleton_self n) r
    | inr hk => exact h'.left k hk r
  folders hd m hm hout := by
    rw [List.forall_mem_cons] at hout
    refine h'.folders (h.frame.wellFormed hd) m ?_ hout.2
    exact h.folders hd m hm (List.forall_mem_singleton.mpr hout.1)

theorem kept {names : List Text} (h : Moved a b names d d') {n : Text} (hn : n ∈ names) :
    Kept d (a ++ [n]) d' (b ++ [n]) := by
  intro r e he
  have harrived := h.arrived n hn r
  rw [← List.append_cons] at he ⊢
  rw [harrived, he]

theorem kept_other {names : List Text} (h : Moved a b names d d') (hapart : Apart a b) {n : Text}
    (hn : n ∉ names) : Kept d (a ++ [n]) d' (a ++ [n]) := by
  intro r e he
  rw [← List.append_cons] at he ⊢
  rw [(h.others hapart hn r).1, he]

end Moved

namespace Act

section

variable {source target : Path} (hs : d.Direct source) (ht : d.Direct target)

include hs ht

/-- What is reached by either path is free of links, and so are the places that change. -/
theorem clean_spots : ∀ root ∈ [d.spot source, d.spot target], d.Clean root := by
  rw [List.forall_mem_cons, List.forall_mem_singleton]
  exact ⟨hs.clean, ht.clean⟩

theorem frame_moveEntry : Frame [d.spot source, d.spot target] [] d
    (moveEntry source target d).2 := by
  have hrename : Frame [d.spot source, d.spot target] [] d (change (rename source target) d).2 :=
    frame_change fun d' h => (frame_rename hs.way ht.way h).1
  rw [moveEntry, Work.tryCatch_apply]
  split
  · next h => rwa [h] at hrename
  · next e d₁ h =>
      obtain rfl := eq_of_change_error h
      refine frame_bind (.refl _ _ _) ?_
      intro found d₂ hlook _
      obtain ⟨-, rfl⟩ := look_eq_ok_iff.mp hlook
      split
      · refine frame_bind (frame_change ?_) ?_
        · intro d₂ hcopy
          exact (frame_copy ht.straight hcopy).1.within (List.prefix_refl _) (by simp)
            (List.Subset.refl _)
        · intro _ d₂ _ hcopied
          refine (frame_delete (hcopied.direct (clean_spots hs ht) hs).way).within
            (List.prefix_refl _) ?_ (List.Subset.refl _)
          simp [hcopied.spot]
      · exact .refl _ _ _

/-- A move changes nothing outside of the two folders. -/
theorem frame_moveContents (hd : d.WellFormed) (accept : Text → Bool) :
    Frame [d.spot source, d.spot target] [] d (moveContents accept source target d).2 := by
  refine frame_bind (.refl _ _ _) ?_
  intro all d₁ hlook _
  obtain ⟨hlist, rfl⟩ := look_eq_ok_iff.mp hlook
  obtain ⟨l, -, -, rfl⟩ := list_eq_ok_iff.mp hlist
  refine frame_bind (frame_forM ?_) fun _ _ _ _ => .refl _ _ _
  intro n hn d₂ hd₂
  have hplain := (hd.proper_of_mem_names (List.mem_of_mem_filter hn)).toPlain
  have hentry := frame_moveEntry ((hd₂.direct (clean_spots hs ht) hs).join hplain)
    ((hd₂.direct (clean_spots hs ht) ht).join hplain)
  rw [spot_join _ _ hplain, spot_join _ _ hplain, hd₂.spot, hd₂.spot] at hentry
  refine hentry.mono ?_ (List.Subset.refl _)
  simp

end

/-- A file that has been copied to another place can be read and deleted. -/
theorem delete_of_copy (hd : d.WellFormed) {source target : Path} (hs : d.Direct source)
    (ht : d.Direct target) (hne : d.spot source ≠ d.spot target)
    (h : copy source target d = .ok d') :
    delete source d' = (.ok (), d'.remove (d.spot source)) := by
  have hframe := (frame_copy ht.straight h).1
  have hs' := hframe.direct (by simpa using ht.clean) hs
  obtain ⟨a, c, ha, he, b, hb, hwrite⟩ := copy_eq_ok_iff.mp h
  obtain ⟨husable, hway, rfl⟩ := (locate_eq_ok_iff hs.straight).mp ha
  have hsource : d'.get? (d.spot source) = some (.file c) := by
    rw [← he]
    refine hframe.get?_eq ?_
    rw [List.forall_mem_singleton]
    intro hin
    -- What lies at the target gives way to a file, so it is no folder and nothing lies below it.
    obtain ⟨l, hl, hfolder, -⟩ := write_eq_ok_iff.mp hwrite
    obtain rfl := spot_of_locate ht.straight hl
    obtain ⟨r, hr⟩ := hin
    have hr' : r ≠ [] := by
      intro hnil
      rw [hnil, List.append_nil] at hr
      exact hne hr.symm
    exact hfolder (hd.folder_above hr' (hr.symm ▸ he))
  have hread : d'.read source = .ok c := by
    refine read_eq_ok_iff.mpr ((entry_eq_ok_iff_spot hs'.straight).mpr ?_)
    rw [hframe.way, hframe.spot]
    exact ⟨husable, fun m hm => folder_of_copy hd ht.straight h (hway m hm), hsource⟩
  rw [delete_of_read hs'.straight hread, hframe.spot]

/-- An entry is renamed, or it is copied and deleted, or it stays and so does all else. -/
theorem moveEntry_cases (hd : d.WellFormed) {source target : Path} (hs : d.Direct source)
    (ht : d.Direct target) (hne : d.spot source ≠ d.spot target) :
    (∃ d', rename source target d = .ok d' ∧ moveEntry source target d = (.ok (), d')) ∨
      (∃ d', copy source target d = .ok d' ∧
        moveEntry source target d = (.ok (), d'.remove (d.spot source))) ∨
      ∃ e, moveEntry source target d = (.error e, d) := by
  rw [moveEntry, Work.tryCatch_apply]
  cases hrename : rename source target d with
  | ok d' =>
      refine Or.inl ⟨d', rfl, ?_⟩
      rw [change_eq_ok_iff.mpr hrename]
  | error e =>
      have hchange : change (rename source target) d = (.error e, d) := by
        rw [change, hrename]
      rw [hchange]
      right
      dsimp only
      rw [Work.bind_apply, look]
      dsimp only
      split
      · rw [Work.bind_apply]
        cases hcopied : copy source target d with
        | error e₁ =>
            refine Or.inr ⟨e₁, ?_⟩
            rw [change, hcopied]
        | ok d₁ =>
            refine Or.inl ⟨d₁, rfl, ?_⟩
            rw [change_eq_ok_iff.mpr hcopied]
            exact delete_of_copy hd hs ht hne hcopied
      · exact Or.inr ⟨e, rfl⟩

variable {source target : Path} {names : List Text}

theorem spot_join_ne {n : Text} (hn : Path.Plain n)
    (hapart : Apart (d.spot source) (d.spot target)) :
    d.spot (source.join n) ≠ d.spot (target.join n) := by
  rw [spot_join d source hn, spot_join d target hn]
  intro heq
  rw [List.append_cancel_right heq] at hapart
  exact hapart.1 (List.prefix_refl _)

theorem moved_of_rename {n : Text} (hn : Path.Plain n) (hs : d.Direct (source.join n))
    (ht : d.Direct (target.join n)) (hapart : Apart (d.spot source) (d.spot target))
    (h : rename (source.join n) (target.join n) d = .ok d') :
    Moved (d.spot source) (d.spot target) [n] d d' := by
  have hne := spot_join_ne hn hapart
  have hsource := spot_join d source hn
  have htarget := spot_join d target hn
  obtain ⟨hframe, harrived, hleft⟩ := frame_rename hs.way ht.way h
  rw [hsource, htarget] at hframe harrived hleft hne
  refine ⟨hframe, ?_, ?_, ?_⟩
  · intro k hk r
    rw [List.mem_singleton.mp hk]
    simpa using harrived r
  · intro k hk r
    rw [List.mem_singleton.mp hk]
    simpa using hleft hne r
  · intro hd m hm hout
    rw [List.forall_mem_singleton, ← hsource] at hout
    exact folder_of_rename hs.way ht.way hd h hm hout

/-- A file that is copied and deleted has moved as if it had been renamed. -/
theorem moved_of_copy (hd : d.WellFormed) {n : Text} (hn : Path.Plain n)
    (hs : d.Direct (source.join n)) (ht : d.Direct (target.join n))
    (hapart : Apart (d.spot source) (d.spot target))
    (h : copy (source.join n) (target.join n) d = .ok d') :
    Moved (d.spot source) (d.spot target) [n] d (d'.remove (d.spot (source.join n))) := by
  have hne := spot_join_ne hn hapart
  have hfolders : ∀ {m}, d.get? m = some .folder → d'.get? m = some .folder :=
    fun hm => folder_of_copy hd ht.straight h hm
  have hframe := (frame_copy ht.straight h).1
  have hcopy := get?_of_copy hs.straight ht.straight hne h
  obtain ⟨a, c, ha, hfile, b, hb, hwrite⟩ := copy_eq_ok_iff.mp h
  obtain ⟨l, hl, hfolder, -⟩ := write_eq_ok_iff.mp hwrite
  obtain rfl := spot_of_locate hs.straight ha
  obtain rfl := spot_of_locate ht.straight hl
  rw [spot_join d source hn] at hfile hcopy ⊢
  rw [spot_join d target hn] at hframe hfolder hcopy
  have hentries : Apart (d.spot source ++ [n]) (d.spot target ++ [n]) := hapart.append [n] [n]
  have hroot : d.spot source ++ [n] ≠ [] := by simp
  constructor
  · exact (hframe.within (List.prefix_refl _) (by simp) (List.Subset.refl _)).trans
      ((frame_remove _ d').within (List.prefix_refl _) (by simp) (List.Subset.refl _))
  · intro k hk r
    rw [List.mem_singleton.mp hk, List.append_cons (d.spot target) n r,
      List.append_cons (d.spot source) n r, get?_remove hroot,
      if_neg (hentries.not_prefix_append r)]
    by_cases hr : r = []
    · rw [hr, List.append_nil, List.append_nil, hcopy]
    · -- Neither the file nor what gives way to it has anything below it.
      have hfile' : d'.get? (d.spot target ++ [n]) ≠ some .folder := by simp [hcopy, hfile]
      rw [(hframe.wellFormed hd).none_below hfile' hr, hd.none_below (by simp [hfile]) hr]
  · intro k hk r
    rw [List.mem_singleton.mp hk, List.append_cons (d.spot source) n r, get?_remove hroot,
      if_pos (List.prefix_append _ r)]
  · intro _ m hm hout
    rw [List.forall_mem_singleton] at hout
    rw [get?_remove hroot, if_neg hout, hfolders hm]

/-- An entry moves as a whole, or it stays and so does all else. -/
theorem moveEntry_join_cases (hd : d.WellFormed) {n : Text} (hn : Path.Plain n)
    (hs : d.Direct source) (ht : d.Direct target) (hapart : Apart (d.spot source) (d.spot target)) :
    (∃ d', moveEntry (source.join n) (target.join n) d = (.ok (), d') ∧
      Moved (d.spot source) (d.spot target) [n] d d') ∨
      ∃ e, moveEntry (source.join n) (target.join n) d = (.error e, d) := by
  have hs := hs.join hn
  have ht := ht.join hn
  rcases moveEntry_cases hd hs ht (spot_join_ne hn hapart) with
    ⟨d', hrename, hmove⟩ | ⟨d', hcopy, hmove⟩ | hstay
  · exact Or.inl ⟨d', hmove, moved_of_rename hn hs ht hapart hrename⟩
  · exact Or.inl ⟨_, hmove, moved_of_copy hd hn hs ht hapart hcopy⟩
  · exact Or.inr hstay

/-- The names are moved one after the other, all of them or those before the first that fails. -/
theorem moved_forM (hd : d.WellFormed) (hs : d.Direct source) (ht : d.Direct target)
    (hapart : Apart (d.spot source) (d.spot target))
    (hplain : ∀ n ∈ names, Path.Plain n) (hnodup : names.Nodup) :
    ∃ before after, names = before ++ after ∧
      Moved (d.spot source) (d.spot target) before d
        (names.forM (fun n => moveEntry (source.join n) (target.join n)) d).2 ∧
      ((names.forM (fun n => moveEntry (source.join n) (target.join n)) d).1 = .ok () ↔
        after = []) := by
  induction names generalizing d with
  | nil => exact ⟨[], [], rfl, .nil _ _ d, iff_of_true rfl rfl⟩
  | cons n names ih =>
      rw [List.nodup_cons] at hnodup
      rw [List.forall_mem_cons] at hplain
      have hunfold : ((n :: names).forM (fun n => moveEntry (source.join n) (target.join n))) d =
          (moveEntry (source.join n) (target.join n) >>= fun _ =>
            names.forM (fun n => moveEntry (source.join n) (target.join n))) d := rfl
      rw [hunfold, Work.bind_apply]
      cases moveEntry_join_cases hd hplain.1 hs ht hapart with
      | inr herror =>
          obtain ⟨e, he⟩ := herror
          rw [he]
          exact ⟨[], n :: names, rfl, .nil _ _ d, iff_of_false (by simp) (by simp)⟩
      | inl hok =>
          obtain ⟨d₁, he, hfirst⟩ := hok
          rw [he]
          have hspots : d₁.spot = d.spot := funext hfirst.frame.spot
          have hroots : ∀ root ∈ [n].map (d.spot source ++ [·]) ++ [n].map (d.spot target ++ [·]),
              d.Clean root := by
            simp only [List.map_cons, List.map_nil, List.cons_append, List.nil_append,
              List.forall_mem_cons, List.not_mem_nil, IsEmpty.forall_iff, implies_true, and_true]
            exact ⟨hs.clean.below (List.prefix_append _ _),
              ht.clean.below (List.prefix_append _ _)⟩
          obtain ⟨before, after, hsplit, hmoved, hdone⟩ :=
            ih (hfirst.frame.wellFormed hd) (hfirst.frame.direct hroots hs)
              (hfirst.frame.direct hroots ht) (hspots ▸ hapart) hplain.2 hnodup.2
          refine ⟨n :: before, after, by rw [hsplit, List.cons_append], ?_, hdone⟩
          rw [hspots] at hmoved
          refine hfirst.cons hapart ?_ hmoved
          intro hmem
          exact hnodup.1 (hsplit ▸ List.mem_append_left after hmem)

/-- All the accepted names are moved, or those before the first that fails. -/
theorem moved_moveContents (accept : Text → Bool) (hd : d.WellFormed) (hs : d.Direct source)
    (ht : d.Direct target) (hapart : Apart (d.spot source) (d.spot target))
    (hlist : d.list source = .ok names) :
    ∃ before after, (d.names (d.spot source)).filter accept = before ++ after ∧
      Moved (d.spot source) (d.spot target) before d (moveContents accept source target d).2 ∧
      ((moveContents accept source target d).1 = .ok before ∧ after = [] ∨
        (∃ e, (moveContents accept source target d).1 = .error e) ∧ after ≠ []) := by
  obtain ⟨l, hl, -, rfl⟩ := list_eq_ok_iff.mp hlist
  obtain rfl := spot_of_locate hs.straight hl
  have hplain : ∀ n ∈ (d.names (d.spot source)).filter accept, Path.Plain n := by
    intro n hn
    exact (hd.proper_of_mem_names (List.mem_of_mem_filter hn)).toPlain
  obtain ⟨before, after, hsplit, hmoved, hdone⟩ :=
    moved_forM hd hs ht hapart hplain ((nodup_names d _).filter accept)
  refine ⟨before, after, hsplit, ?_⟩
  rw [moveContents, Work.bind_apply, look, hlist]
  dsimp only
  rw [Work.bind_apply]
  cases hrun : ((d.names (d.spot source)).filter accept).forM
      (fun n => moveEntry (source.join n) (target.join n)) d with
  | mk result d' =>
      rw [hrun] at hmoved hdone
      cases result with
      | error e =>
          refine ⟨hmoved, Or.inr ⟨⟨e, rfl⟩, ?_⟩⟩
          intro hall
          cases hdone.mpr hall
      | ok u =>
          obtain rfl := hdone.mp rfl
          refine ⟨hmoved, Or.inl ⟨?_, rfl⟩⟩
          rw [hsplit, List.append_nil]
          rfl

theorem moved_of_moveContents {accept : Text → Bool} (hd : d.WellFormed) (hs : d.Direct source)
    (ht : d.Direct target) (hapart : Apart (d.spot source) (d.spot target))
    (h : moveContents accept source target d = (.ok names, d')) :
    names = (d.names (d.spot source)).filter accept ∧
      Moved (d.spot source) (d.spot target) names d d' := by
  obtain ⟨all, d₁, hlook, -⟩ := Work.bind_eq_ok_iff.mp h
  obtain ⟨before, after, hsplit, hmoved, hdone⟩ :=
    moved_moveContents accept hd hs ht hapart (look_eq_ok_iff.mp hlook).1
  rw [h] at hmoved hdone
  rcases hdone with ⟨heq, rfl⟩ | ⟨⟨e, herror⟩, -⟩
  · cases heq
    rw [List.append_nil] at hsplit
    exact ⟨hsplit.symm, hmoved⟩
  · cases herror

/-- Two folders on two devices, each with a file `a` and a folder `b` that is not empty, and a link
beside them. -/
def Sample.twins : Disk where
  entries :=
    [(["x", "a"], .file (.bytes [1])), (["x", "b", "q"], .file (.bytes [2])), (["x", "b"], .folder),
      (["x", "d"], .file (.bytes [3])), (["x"], .folder), (["y", "a"], .file (.bytes [4])),
      (["y", "b", "q"], .file (.bytes [5])), (["y", "b"], .folder), (["y"], .folder),
      (["z"], .link "y")]
  home := []
  device l := if ["y".toList] <+: l then 1 else 0

/-- Two folders on two devices, with a file `a` in one and a link to it in the other. In each there
is a file `c`, and in one a link to it. -/
def Sample.entwined : Disk where
  entries :=
    [(["x", "a"], .file (.bytes [1])), (["x", "b"], .link "c"), (["x", "c"], .file (.bytes [2])),
      (["x"], .folder), (["y", "a"], .link "../x/a"), (["y", "c"], .file (.bytes [3])),
      (["y"], .folder)]
  home := []
  device l := if ["y".toList] <+: l then 1 else 0

end Act
end ChartPackage.Disk
