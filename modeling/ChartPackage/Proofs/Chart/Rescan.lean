import ChartPackage.Proofs.Chart.ArcRepair
import ChartPackage.Proofs.Chart.Blanks

/-!
What a second sanitizing still deletes. Deleting a control joins the text in front of it to the text
behind it, and clearing a header takes text out, so a chart can come out with a control that was
none before. The second run deletes just these: one in each clause of the chart, as it stands after
the timing groups, whose first control is not allowed.
-/

namespace ChartPackage.Chart

/-- The chart as the scene controls and the timing groups leave it. -/
def beforeArcs (allowed : Whitelists) (t : Text) : Text :=
  (clearTimingGroups allowed (dropBlankLines (rebuildSceneControls allowed (stripBlanks t)).1)).1

theorem sanitize_fst (allowed : Whitelists) (t : Text) :
    (sanitize allowed t).1 = (repairArcs (beforeArcs allowed t)).1 := rfl

theorem removed_sanitize (allowed : Whitelists) (t : Text) :
    (sanitize allowed t).2.removed = (rebuildSceneControls allowed (stripBlanks t)).2.removed := rfl

theorem removed_rebuildSceneControls (allowed : Whitelists) (t : Text) :
    (rebuildSceneControls allowed t).2.removed =
      (SceneControl.clauses t).countP fun clause =>
        ¬ SceneControl.Settled allowed.sceneControls clause :=
  SceneControl.count_delete_eq allowed.sceneControls t

theorem removed_repairArcs (allowed : Whitelists) (t : Text) :
    (rebuildSceneControls allowed (repairArcs t).1).2.removed =
      (rebuildSceneControls allowed t).2.removed := by
  have h := statements_repairArcs t
  simp only [rebuildSceneControls, Tiling.count, h]

theorem removed_again (allowed : Whitelists) (t : Text) :
    (sanitize allowed (sanitize allowed t).1).2.removed =
      (SceneControl.clauses (beforeArcs allowed t)).countP fun clause =>
        ¬ SceneControl.Settled allowed.sceneControls clause := by
  rw [removed_sanitize, stripBlanks_eq_self (stripped_sanitize allowed t), sanitize_fst,
    removed_repairArcs, removed_rebuildSceneControls]

/-- A second run deletes nothing just if every clause is settled when the first comes to the
arcs. -/
theorem removed_again_eq_zero_iff (t : Text) :
    (sanitize {} (sanitize {} t).1).2.removed = 0 ↔
      ∀ clause ∈ SceneControl.clauses (beforeArcs {} t),
        SceneControl.Settled ({} : Whitelists).sceneControls clause := by
  rw [removed_again, List.countP_eq_zero]
  simp only [decide_eq_true_eq, not_not]

/-- The removal of one control can make another. -/
theorem removed_again_of_glued :
    (sanitize {} (sanitize {} "scenecontscenecontrol(1,Bad,1);rol(1,Bad,1);").1).2.removed = 1 := by
  decide +kernel

end ChartPackage.Chart
