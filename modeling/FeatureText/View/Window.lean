/-! Which rows are worth showing for a scroll position. -/
namespace FeatureText

structure Window where
  start : Nat
  stop : Nat
  start_le_stop : start ≤ stop
deriving DecidableEq, Repr

namespace Window

def none : Window := ⟨0, 0, Nat.le_refl 0⟩

def size (w : Window) : Nat := w.stop - w.start

def isEmpty (w : Window) : Bool := w.stop ≤ w.start

/-- The rows that show, with some more above and below, as far as there are rows. -/
def around (first last overscan count : Nat) : Window :=
  let stop := min (last + overscan) count
  ⟨min (min (first - overscan) count) stop, stop, Nat.min_le_right ..⟩

/-- What is no number and what is negative counts as zero. -/
def extent (x : Float) : Float := if 0 < x then x else 0

def ofScroll (top rowHeight height : Float) (count overscan : Nat) : Window :=
  if rowHeight ≤ 0 || !rowHeight.isFinite || count == 0 then none
  else
    let top := extent top
    let first := (top / rowHeight).floor.toUInt64.toNat
    let last := ((top + extent height) / rowHeight).ceil.toUInt64.toNat
    around first last overscan count

end Window

end FeatureText
