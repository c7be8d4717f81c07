import FeatureText.Text.Shown

/-! What can be set about an editor. -/
namespace FeatureText

structure Options where
  historyLimit : Nat
  /-- Edits of one kind that are closer than this, in milliseconds, are one step. -/
  groupWindow : Nat
  /-- How long an edit waits to be published, in milliseconds. -/
  emitDelay : Nat
  /-- How many rows are kept ready above and below those that show. -/
  overscan : Nat
  indentWidth : Nat
  collapseKeys : List Text
  saveName : Text
deriving DecidableEq, Repr

namespace Options

def coordinatesKey : Text := "coordinates".toList

def default : Options where
  historyLimit := 100
  groupWindow := 500
  emitDelay := 150
  overscan := 10
  indentWidth := 2
  collapseKeys := [coordinatesKey]
  saveName := "features.geojson".toList

instance : Inhabited Options := ⟨default⟩

inductive Field where
  | historyLimit | groupWindow | emitDelay | overscan | indentWidth | collapseKeys | saveName
deriving DecidableEq, Repr

namespace Field

def all : List Field :=
  [historyLimit, groupWindow, emitDelay, overscan, indentWidth, collapseKeys, saveName]

def name : Field → String
  | historyLimit => "history_limit"
  | groupWindow => "group_window_ms"
  | emitDelay => "emit_debounce_ms"
  | overscan => "overscan_lines"
  | indentWidth => "indent_width"
  | collapseKeys => "default_collapse"
  | saveName => "save_file_name"

def ofName? (name : Text) : Option Field := all.find? (·.name.toList == name)

end Field

def fieldText (o : Options) : Field → Text
  | .historyLimit => Nat.toDigits 10 o.historyLimit
  | .groupWindow => Nat.toDigits 10 o.groupWindow
  | .emitDelay => Nat.toDigits 10 o.emitDelay
  | .overscan => Nat.toDigits 10 o.overscan
  | .indentWidth => Nat.toDigits 10 o.indentWidth
  | .collapseKeys => Shown.quoteAll o.collapseKeys
  | .saveName => Shown.quote o.saveName

def shown (o : Options) : Text :=
  let fields := Field.all.map fun field => field.name.toList ++ ':' :: ' ' :: o.fieldText field
  "EditorOptions \x7b ".toList ++ [',', ' '].intercalate fields ++ [' ', '}']

end Options

end FeatureText
