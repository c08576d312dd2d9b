import LatencyHiding.ModuleFile.Basic
import LatencyHiding.ModuleFile.Reading

set_option autoImplicit false

namespace LatencyHiding

def ModuleFile.ofToml (text : String) : Except Fault ModuleFile :=
  match ModuleDecl.ofToml? text with
  | some decl => ModuleFile.ofDecl decl
  | none => .error .malformedFile

end LatencyHiding
