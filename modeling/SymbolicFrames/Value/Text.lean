-- Values as messages and logs show them.
import SymbolicFrames.Ieee.Shortest
import SymbolicFrames.Text.Quoted
import SymbolicFrames.Value.Basic

namespace SymbolicFrames

def Category.text : Category → String
  | .int => "Int"
  | .long => "Long"
  | .float => "Float"
  | .double => "Double"
  | .reference => "Reference"
  | .returnAddress => "ReturnAddress"
  | .uninitialized => "Uninitialized"
  | .top => "Top"

def Value.text : Value → String
  | .int none => "int"
  | .int (some n) => s!"int {n.toInt}"
  | .long none => "long"
  | .long (some n) => s!"long {n.toInt}L"
  | .float none => "float"
  | .float (some x) => s!"float {x.text}f"
  | .double none => "double"
  | .double (some x) => s!"double {x.text}"
  | .null => "null"
  | .reference t => t.descriptor
  | .string text => Text.quoted text
  | .returnAddress => "retaddr"
  | .uninitialized => "uninit"
  | .top => "top"
  | .wideTop => "top2"

end SymbolicFrames
