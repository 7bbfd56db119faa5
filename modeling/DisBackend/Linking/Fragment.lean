import DisBackend.Linking.Patch
import DisBackend.Storage

/-!
# `Linking.Fragment` — the code of one function

A fragment is complete but for its place in a module: code addresses count from its own start,
descriptors of call sites are known by their position in its list, and calls wait for their callees.

## Contents

* `Fragment`.
-/

namespace DisBackend

/-- The code of one function, before it has a place. -/
structure Fragment where
  name : String
  code : List Instruction := []
  frame : Frame := {}
  /-- The descriptors of the frames and objects that the code creates. -/
  callSites : List TypeDescriptor := []
  patches : List Patch := []
  handlers : List Handler := []
  deriving DecidableEq, Repr

end DisBackend
