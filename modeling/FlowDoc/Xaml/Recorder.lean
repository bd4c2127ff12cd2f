import FlowDoc.Xaml.Event

/-!
# Recording a stream

A `Recorder` keeps the events it is sent and counts how deep they nest. It refuses an event at a depth below zero, but
the refused event has been counted. The count is an integer of any size, which 32 bits hold for as long as fewer than
`2 ^ 31` events are sent.
-/

namespace FlowDoc.Xaml

/-- The events recorded so far, and the depth of all events sent. -/
structure Recorder where
  events : Array Event := #[]
  depth : Int := 0

namespace Recorder

/-- Take one event; the new state holds after a refusal too. -/
def record (r : Recorder) (e : Event) : Recorder × Except RenderError Unit :=
  let depth := r.depth + e.depthChange
  if depth < 0 then ({ r with depth }, .error (.protocol e.operation .endWithoutStart))
  else ({ events := r.events.push e, depth }, .ok ())

/-- Take one signal. -/
def receive (r : Recorder) (s : Signal) : Recorder × Except RenderError Unit := r.record (Event.ofSignal s)

/-- The record, if all that was started has ended. -/
def finish (r : Recorder) : Except RenderError (List Event) :=
  if r.depth ≠ 0 then .error (.protocol .finish .unclosed) else .ok r.events.toList

end Recorder

end FlowDoc.Xaml
