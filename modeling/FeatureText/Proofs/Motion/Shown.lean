import FeatureText.Proofs.Motion
import FeatureText.Proofs.Outline.Hiding
import FeatureText.Text.Cluster

/-! Motions keep out of what is hidden. They leave a line that is shown for its neighbour, or for
the other side of the outermost collapsed node between them, and both are shown. -/
namespace FeatureText

namespace Motion

/-- The cursor may rest there: the place is in the buffer, on a line that is shown. -/
def Rests (b : Buffer) (o : Outline) (p : Position) : Prop := b.Has p ∧ o.Shows p.line

instance (b : Buffer) (o : Outline) (p : Position) : Decidable (Rests b o p) :=
  inferInstanceAs (Decidable (_ ∧ _))

variable {s : Segmentation} {b : Buffer} {o : Outline} {p : Position} {lines : List Line}

theorem shows_documentEnd (fits : o.Fits b) : o.Shows (documentEnd b.lines).line := by
  intro n hn hides
  have there := (fits n (List.mem_of_mem_filter hn)).2.1
  have behind := (Outline.hidesLine_iff.mp hides).2
  simp only [pastEnd, documentEnd, lastLine, Buffer.lineCount] at there behind
  omega

section Nests

variable (nests : o.Nests)

include nests

theorem shows_snap (lines : List Line) (p : Position) : o.Shows (snap lines o p).line := by
  unfold snap
  dsimp only
  split
  · next n found => exact (nests.shows_of_hidingNode? found).1
  · next none => exact Outline.hidingNode?_eq_none_iff.mp none

theorem shows_up (lines : List Line) (p : Position) : o.Shows (up lines o p).line := by
  unfold up
  split
  · exact o.shows_zero
  · dsimp only
    cases found : o.hidingNode? (p.line - 1) with
    | some n => exact (nests.shows_of_hidingNode? found).1
    | none => exact Outline.hidingNode?_eq_none_iff.mp found

theorem shows_down (fits : o.Fits b) (p : Position) : o.Shows (down b.lines o p).line := by
  unfold down
  split
  · exact shows_documentEnd fits
  · dsimp only
    cases found : o.hidingNode? (p.line + 1) with
    | some n => exact (nests.shows_of_hidingNode? found).2
    | none => exact Outline.hidingNode?_eq_none_iff.mp found

section Shown

variable (shown : o.Shows p.line)

include shown

theorem shows_leftPlain : o.Shows (leftPlain s lines o p).line := by
  unfold leftPlain
  split
  · exact shown
  · split
    · exact shown
    · split
      · next n found => exact (nests.shows_of_hidingNode? found).1
      · next none => exact Outline.hidingNode?_eq_none_iff.mp none

theorem shows_left : o.Shows (left s lines o p).line := by
  unfold left
  split
  · next n found =>
    split
    · exact nests.shows_of_collapsedTo? found shown
    · exact shows_leftPlain nests shown
  · exact shows_leftPlain nests shown

theorem shows_rightPlain : o.Shows (rightPlain s lines o p).line := by
  unfold rightPlain
  split
  · exact shown
  · split
    · exact shown
    · split
      · next n found => exact (nests.shows_of_hidingNode? found).2
      · next none => exact Outline.hidingNode?_eq_none_iff.mp none

theorem shows_right : o.Shows (right s lines o p).line := by
  unfold right
  split
  · next n found =>
    split
    · exact nests.shows_of_collapsedFrom? found shown
    · exact shows_rightPlain nests shown
  · exact shows_rightPlain nests shown

theorem shows_wordRight : o.Shows (wordRight s lines o p).line := by
  unfold wordRight
  split
  · exact shows_right nests shown
  · dsimp only
    split
    · next n found =>
      split
      · exact nests.shows_of_collapsedFrom? found shown
      · exact shown
    · exact shown

theorem shows_wordLeft : o.Shows (wordLeft s lines o p).line := by
  unfold wordLeft
  split
  · exact shows_left nests shown
  · dsimp only
    split
    · next n found =>
      split
      · exact nests.shows_of_collapsedTo? found shown
      · exact shown
    · exact shown

theorem shows_arrow (fits : o.Fits b) (m : Modifiers) (key : Arrow) :
    o.Shows (arrow s b.lines o p m key).line := by
  cases key with
  | left =>
    rw [arrow]
    split
    · exact shows_wordLeft nests shown
    · exact shows_left nests shown
  | right =>
    rw [arrow]
    split
    · exact shows_wordRight nests shown
    · exact shows_right nests shown
  | up =>
    rw [arrow]
    split
    · exact o.shows_zero
    · exact shows_up nests b.lines p
  | down =>
    rw [arrow]
    split
    · exact shows_documentEnd fits
    · exact shows_down nests fits p

end Shown

end Nests

theorem shows_edge (fits : o.Fits b) (shown : o.Shows p.line) (m : Modifiers) (key : Edge) :
    o.Shows (edge b.lines p m key).line := by
  cases key with
  | start =>
    rw [edge]
    split
    · exact o.shows_zero
    · exact shown
  | stop =>
    rw [edge]
    split
    · exact shows_documentEnd fits
    · exact shown

theorem snap_eq_shownPlace (h : b.Has p) (o : Outline) : snap b.lines o p = o.shownPlace p := by
  have line : min p.line (lastLine b.lines) = p.line := Nat.min_eq_left (Nat.le_sub_one_of_lt h.1)
  have column : min p.column (lengthAt b.lines p.line) = p.column := Nat.min_eq_left h.2
  cases found : o.hidingNode? p.line <;>
    simp only [snap, line, column, Outline.shownPlace, found]

theorem snap_eq_self (h : Rests b o p) : snap b.lines o p = p :=
  (snap_eq_shownPlace h.1 o).trans (Outline.shownPlace_eq_self h.2)

/-- However lines are cut, every motion takes the cursor from where it may rest to where it may
rest, and any place at all is brought to such a one. -/
theorem motions_stay_on_shown_lines (s : Segmentation) (b : Buffer) {before o : Outline}
    (folded : (before.rebuild b.lines).1.Refolds o) :
    (∀ p, Rests b o p →
      (∀ target ∈ [left s b.lines o p, right s b.lines o p, up b.lines o p, down b.lines o p,
          wordLeft s b.lines o p, wordRight s b.lines o p, lineStart p, lineEnd b.lines p,
          documentStart, documentEnd b.lines], Rests b o target) ∧
      (∀ m key, Rests b o (arrow s b.lines o p m key)) ∧
      ∀ m key, Rests b o (edge b.lines p m key)) ∧
    (∀ p, Rests b o (snap b.lines o p)) ∧
    ∀ p, Rests b o p → snap b.lines o p = p := by
  have nests : o.Nests := (before.nests_rebuild b.lines).of_refolds folded
  have fits : o.Fits b := fun n hn => before.fits_rebuild b n (folded.nodes ▸ hn)
  refine ⟨fun p ⟨there, shown⟩ => ⟨?_, fun m key => ?_, fun m key => ?_⟩, fun p => ?_,
    fun p => snap_eq_self⟩
  · simp only [List.forall_mem_cons]
    refine ⟨⟨within_left 0 fits there, shows_left nests shown⟩,
      ⟨within_right 0 fits there, shows_right nests shown⟩,
      ⟨has_up 0 fits there, shows_up nests b.lines p⟩,
      ⟨has_down fits p, shows_down nests fits p⟩,
      ⟨within_wordLeft 0 fits there, shows_wordLeft nests shown⟩,
      ⟨within_wordRight 0 fits there, shows_wordRight nests shown⟩,
      ⟨Buffer.has_lineStart there.1, shown⟩, ⟨Buffer.has_lineEnd there.1, shown⟩,
      ⟨b.has_origin, o.shows_zero⟩, ⟨has_documentEnd b, shows_documentEnd fits⟩,
      List.forall_mem_nil _⟩
  · exact ⟨within_arrow 0 fits there m key, shows_arrow nests shown fits m key⟩
  · exact ⟨has_edge there.1 m key, shows_edge fits shown m key⟩
  · exact ⟨has_snap fits p, shows_snap nests b.lines p⟩

def doubleList : Buffer := ⟨[['[', '['], [], [']'], [], [']']], by decide⟩

theorem motions_stay_on_shown_lines_doubleList :
    let found := (Outline.empty.rebuild doubleList.lines).1
    let o := { found with collapsed := [0, 1] }
    found.Refolds o ∧ o.collapsedNodes.length = 2 ∧ Rests doubleList o ⟨0, 1⟩ ∧
      right clusters doubleList.lines o ⟨0, 1⟩ = ⟨4, 1⟩ ∧ Rests doubleList o ⟨4, 1⟩ ∧
      snap doubleList.lines o ⟨2, 1⟩ = ⟨0, 0⟩ ∧ Rests doubleList o ⟨0, 0⟩ := by
  intro found o
  have folded : found.Refolds o := ⟨[0, 1], rfl⟩
  obtain ⟨motions, snaps, -⟩ := motions_stay_on_shown_lines clusters doubleList folded
  have rests : Rests doubleList o ⟨0, 1⟩ := by decide
  have right : right clusters doubleList.lines o ⟨0, 1⟩ = ⟨4, 1⟩ := by decide
  have snap : snap doubleList.lines o ⟨2, 1⟩ = ⟨0, 0⟩ := by decide
  refine ⟨folded, by decide, rests, right, ?_, snap, ?_⟩
  · exact right ▸ (motions _ rests).1 _ (by simp)
  · exact snap ▸ snaps ⟨2, 1⟩

end Motion

end FeatureText
