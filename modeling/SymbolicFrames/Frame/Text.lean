-- Frames as logs show them, the bottom of the stack first.
import SymbolicFrames.Frame.Basic
import SymbolicFrames.Text.Layout
import SymbolicFrames.Value.Text

namespace SymbolicFrames

def Frame.text (f : Frame) : String :=
  Text.record "Frame"
    [("locals", Text.list (f.locals.map Value.text)),
      ("stack", Text.list (f.stack.reverse.map Value.text)),
      ("max_stack", toString f.maxStack)]

end SymbolicFrames
