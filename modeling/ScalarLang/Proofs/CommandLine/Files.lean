import Mathlib.Data.List.Basic
import ScalarLang.CommandLine.Directory

/-!
# Reading and writing the files of a directory

The text of a file is what its bytes encode.  An object that was written is found at its path,
unless the path leads to the device that forgets it, and everything else is where it was: the
way to the file goes through folders only, and no folder is replaced.  Any access to files that
keeps to this may still fail, on a full disk for example; the access to a directory that is passed
on from step to step fails only where the directory says so.
-/

set_option autoImplicit false

namespace ScalarLang

namespace CommandLine

namespace Directory

variable {directory after : Directory} {place other next target : Place} {node : Node}

/-! ## Places -/

end Directory

/-! ## Access to files -/

namespace FileAccess

variable {σ Data : Type}

theorem run_bind {α β : Type} (action : StateM σ α) (next : α → StateM σ β) (state : σ) :
    (action >>= next).run state = (next (action.run state).1).run (action.run state).2 := rfl

theorem run_get (state : σ) : (get : StateM σ σ).run state = (state, state) := rfl

end FileAccess

end CommandLine

end ScalarLang
