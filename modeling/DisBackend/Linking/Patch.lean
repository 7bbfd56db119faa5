import DisBackend.Fault

/-!
# `Linking.Patch` — what is filled in once all functions are placed

A call names the frame descriptor and the address of the function it calls. Both are known only when
every function has its place in the module, so the code of a function comes with a list of patches.

## Contents

* `PatchKind`, `Patch` — which instruction is to name what;
* `Placement` — where a function ended up;
* `PatchKind.apply` — filling in.
-/

namespace DisBackend

/-- What a patch fills in. -/
inductive PatchKind where
  /-- The frame descriptor of the callee, in the source operand. -/
  | frameId
  /-- The address of the callee, in the destination operand. -/
  | callAddress
  deriving DecidableEq, Repr, Inhabited

/-- The name of a kind of patch. -/
def PatchKind.name : PatchKind → String
  | .frameId => "frame-id"
  | .callAddress => "call-address"

/-- An instruction that waits for its callee to be placed. -/
structure Patch where
  /-- The position of the instruction in its fragment. -/
  instruction : Nat
  kind : PatchKind
  callee : String
  deriving DecidableEq, Repr, Inhabited

/-- Where a function ended up. -/
structure Placement where
  frameId : Int
  address : Int
  deriving DecidableEq, Repr, Inhabited

/-- Fills in one operand, which must be a number. -/
def PatchKind.apply (kind : PatchKind) (i : Instruction) (placement : Placement) :
    Except Fault Instruction :=
  match kind with
  | .frameId =>
    if i.src.immediate?.isSome then .ok { i with src := .imm placement.frameId }
    else .error (.frameIdPatch i)
  | .callAddress =>
    if i.dst.immediate?.isSome then .ok { i with dst := .imm placement.address }
    else .error (.callAddressPatch i)

end DisBackend
