import FeatureText.Editor.State
import FeatureText.Text.Significant

/-! Publishing. A readable document is formatted, checked, and sent without its hidden features; of
any other its error is told. -/
namespace FeatureText

namespace Editor

/-- Puts the formatted text in place. The cursor stays behind the same significant characters. -/
def reformat (e : Editor) (text : Text) : Editor :=
  let anchor := Significant.anchor e.buffer.lines e.cursor
  let buffer := Buffer.ofText text
  let e := recompute
    { e with
      buffer, cursor := Significant.place buffer.lines anchor, selection := none
      version := e.version + 1 }
  { e with cursor := e.snapped e.cursor }

def published (e : Editor) (features : List Json) : List Json :=
  ((features.zip (Feature.keys features)).filter fun (_, key) => !e.hidden.contains key).map
    Prod.fst

def review (e : Editor) : Editor × Event :=
  let text := e.buffer.text
  match parseFeatures text with
  | .error reason => (e, .misread reason text)
  | .ok features =>
    let formatted := formatFeatures e.options.indentWidth features
    let e := if formatted = text then e else e.reformat formatted
    match Schema.problems features with
    | first :: more => (e, .invalid first more e.buffer.text)
    | [] => (e, .change (Feature.collection (e.published features)))

def deliver (e : Editor) (event : Event) : Editor :=
  { e with
    outbox := e.outbox ++ e.subscribers.map (⟨·, event⟩), lastEvent := some event }

def publish (e : Editor) : Editor × Event :=
  let (e, event) := e.review
  (e.deliver event, event)

def emit (e : Editor) : Editor × Event := publish { e with emission := e.emission.cancel }

/-- Publishes if that is due, and says whether there is something to paint. -/
def poll (e : Editor) : Editor × Bool :=
  let e :=
    match e.emission.fire e.clock.now with
    | (emission, true) => (publish { e with emission }).1
    | (_, false) => e
  (e, e.frames.isReady)

def subscribe (e : Editor) (subscriber : Subscriber) : Editor :=
  { e with subscribers := e.subscribers ++ [subscriber] }

def collect (e : Editor) : Editor × List Delivery := ({ e with outbox := [] }, e.outbox)

def takeFrame (e : Editor) : Editor × Bool :=
  let (frames, taken) := e.frames.take
  ({ e with frames }, taken)

def blockFrames (e : Editor) (blocked : Bool) : Editor :=
  { e with frames := e.frames.block blocked }

end Editor

end FeatureText
