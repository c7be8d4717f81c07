import FeatureText.Feature.Hidden
import FeatureText.Text.Position

/-! Undo and redo. What was before and what was undone lie on both sides of the present, nearest
first. Edits of one kind that follow each other closely are one step. -/
namespace FeatureText

inductive Action where
  | insert
  | delete
  | newline
  | paste
  | cut
  | inlineEdit
  | write
deriving DecidableEq, Repr

namespace Action

def all : List Action := [insert, delete, newline, paste, cut, inlineEdit, write]

def isGroupable : Action → Bool
  | insert | delete | inlineEdit => true
  | _ => false

def name : Action → String
  | insert => "insert"
  | delete => "delete"
  | newline => "newline"
  | paste => "paste"
  | cut => "cut"
  | inlineEdit => "inline-edit"
  | write => "api"

end Action

structure Timeline (α : Type) where
  past : List α
  future : List α
  limit : Nat
  window : Nat
  /-- The last action and its time, while its step is open. -/
  last : Option (Action × Nat)
deriving Repr

namespace Timeline

variable {α : Type}

/-- At least one step is kept. -/
def new (limit window : Nat) : Timeline α := ⟨[], [], max limit 1, window, none⟩

def canUndo (t : Timeline α) : Bool := !t.past.isEmpty

def canRedo (t : Timeline α) : Bool := !t.future.isEmpty

/-- The oldest entry goes when there are too many. -/
def remember (t : Timeline α) (entry : α) : List α := (entry :: t.past).take t.limit

/-- The action continues the last one. -/
def joins (t : Timeline α) (action : Action) (now : Nat) : Bool :=
  action.isGroupable && t.canUndo &&
    match t.last with
    | some (last, time) => last == action && decide (now - time < t.window)
    | none => false

/-- Takes note of the state before an action, and says whether that opened a step. -/
def record (t : Timeline α) (action : Action) (now : Nat) (before : α) : Timeline α × Bool :=
  let opens := !t.joins action now
  ({ t with
      past := if opens then t.remember before else t.past
      future := []
      last := some (action, now) }, opens)

/-- The next action opens a step. -/
def endStep (t : Timeline α) : Timeline α := { t with last := none }

def undo (t : Timeline α) (present : α) : Option (α × Timeline α) :=
  match t.past with
  | [] => none
  | entry :: past => some (entry, { t with past, future := present :: t.future, last := none })

def redo (t : Timeline α) (present : α) : Option (α × Timeline α) :=
  match t.future with
  | [] => none
  | entry :: future => some (entry, { t with past := t.remember present, future, last := none })

def clear (t : Timeline α) : Timeline α := { t with past := [], future := [], last := none }

end Timeline

structure Snapshot where
  lines : List Line
  cursor : Position
  time : Nat
  hidden : List FeatureKey
deriving DecidableEq, Repr

end FeatureText
