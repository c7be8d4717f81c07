import FeatureText.Proofs.Editor.Run

/-! Selecting with keys. A key that extends the selection moves its head and leaves its anchor where
it is. From key to key the selection remembers the anchor; where the head has come back to the
anchor there is no selection, and the cursor remembers it. -/
namespace FeatureText.Editor

def isExtending : Command → Bool
  | .arrow m _ => m.shift
  | .edge m _ => m.shift
  | _ => false

/-- Where a key leads from a place. -/
def destination (e : Editor) (p : Position) : Command → Position
  | .arrow m key => Motion.arrow clusters e.buffer.lines e.outline p m key
  | .edge m key => Motion.edge e.buffer.lines p m key
  | _ => p

/-- The selection runs from an anchor to the cursor, and there is none while both are one place. -/
def Anchored (e : Editor) (anchor : Position) : Prop :=
  e.selection = Selection.between anchor e.cursor

variable {e : Editor} {anchor : Position} {key : Command} {keys : List Command}

theorem anchored_cursor (none : e.selection = none) : e.Anchored e.cursor := by
  rw [Anchored, none, Selection.between, if_pos rfl]

theorem Anchored.getD_eq (h : e.Anchored anchor) :
    (e.selection.map Selection.anchor).getD e.cursor = anchor := by
  rw [h, Selection.between]
  split
  · next same => exact same.symm
  · rfl

theorem Anchored.moveTo (h : e.Anchored anchor) (target : Position) :
    (e.moveTo target true).Anchored anchor := by
  have selection : (e.moveTo target true).selection =
      Selection.between ((e.selection.map Selection.anchor).getD e.cursor) target := rfl
  rw [Anchored, selection, h.getD_eq]
  rfl

theorem execute_of_isExtending (h : isExtending key) :
    (e.execute key).1 = e.moveTo (e.destination e.cursor key) true := by
  cases key with
  | arrow m key =>
    have shift : m.shift = true := h
    have extend : e.edgeOfSelection? m key = none := by
      have plain : m.isPlain = false := by rw [Motion.Modifiers.isPlain, shift]; rfl
      unfold edgeOfSelection?
      split <;> simp [plain]
    have arrow : (e.execute (.arrow m key)).1 = e.arrow m key := rfl
    rw [arrow, Editor.arrow, extend, shift]
    rfl
  | edge m key =>
    have shift : m.shift = true := h
    have edge : (e.execute (.edge m key)).1 = e.edge m key := rfl
    rw [edge, Editor.edge, shift]
    rfl
  | _ => cases h

theorem Anchored.run (h : e.Anchored anchor) (extending : ∀ key ∈ keys, isExtending key) :
    (e.run keys).Anchored anchor ∧
      (e.run keys).cursor = keys.foldl e.destination e.cursor := by
  induction keys generalizing e with
  | nil => exact ⟨h, rfl⟩
  | cons key keys ih =>
    obtain ⟨first, rest⟩ := List.forall_mem_cons.mp extending
    have step := execute_of_isExtending (e := e) first
    obtain ⟨anchored, cursor⟩ := ih (h.moveTo (e.destination e.cursor key)) rest
    rw [← step] at anchored cursor
    refine ⟨anchored, cursor.trans ?_⟩
    rw [step]
    rfl

/-- Keys that extend the selection take the cursor where they lead from place to place, and the
selection runs from where the cursor was to where it is. -/
theorem extending_keeps_anchor (start : e.selection = none)
    (extending : ∀ key ∈ keys, isExtending key) :
    let moved := e.run keys
    moved.cursor = keys.foldl e.destination e.cursor ∧
      (moved.cursor = e.cursor → moved.selection = none) ∧
      (moved.cursor ≠ e.cursor → moved.selection = some ⟨e.cursor, moved.cursor⟩) := by
  intro moved
  obtain ⟨anchored, cursor⟩ := (anchored_cursor start).run extending
  have selection : moved.selection = Selection.between e.cursor moved.cursor := anchored
  refine ⟨cursor, fun back => ?_, fun away => ?_⟩
  · rw [selection, back, Selection.between, if_pos rfl]
  · rw [selection, Selection.between, if_neg (Ne.symm away)]

def inFrontOfList : Editor :=
  (((ofText .default .still "a[\n\n]b".toList).execute (.toggleCollapse 0)).1.execute
    (.setCursor ⟨0, 1⟩)).1

/-- Over the collapsed list, back over the anchor to the start of the document, and to the anchor.
-/
def thereAndBack : List Command :=
  [.arrow ⟨true, false, false⟩ .right, .edge ⟨true, false, true⟩ .start,
    .arrow ⟨true, true, false⟩ .right]

theorem extending_keeps_anchor_thereAndBack :
    inFrontOfList.Reachable ∧ inFrontOfList.selection = none ∧
      (inFrontOfList.run (thereAndBack.take 1)).selection = some ⟨⟨0, 1⟩, ⟨2, 1⟩⟩ ∧
      (inFrontOfList.run (thereAndBack.take 2)).selection = some ⟨⟨0, 1⟩, ⟨0, 0⟩⟩ ∧
      (inFrontOfList.run thereAndBack).selection = none := by
  have start : inFrontOfList.selection = none := rfl
  have extending : ∀ key ∈ thereAndBack, isExtending key := by decide
  have begun (count : Nat) : ∀ key ∈ thereAndBack.take count, isExtending key := fun key hk =>
    extending key (List.mem_of_mem_take hk)
  obtain ⟨-, -, there⟩ := extending_keeps_anchor start (begun 1)
  obtain ⟨-, -, across⟩ := extending_keeps_anchor start (begun 2)
  obtain ⟨-, back, -⟩ := extending_keeps_anchor start extending
  refine ⟨((Reachable.ofText ..).step _).step _, start, ?_, ?_, back rfl⟩
  · exact there (by decide)
  · exact across (by decide)

end FeatureText.Editor
