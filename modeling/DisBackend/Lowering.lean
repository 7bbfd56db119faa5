import DisBackend.Linking.Fragment
import DisBackend.Lowering.BlockShape
import DisBackend.Lowering.Line
import DisBackend.Lowering.Select
import DisBackend.Lowering.ValueTypes

/-!
# `Lowering` — from the instructions of a function to machine code

Every value of a function has a word of the frame for itself, and every instruction becomes a short
fixed sequence of machine instructions. A phi has no code: the edges into its block move its value
into place.

The words of a frame are, in order, those of the values, and after them call frames, temporaries and
unused results in the order in which the code needs them.

## Contents

* `Slot`, `Env` — where values lie, and what else is fixed for a function;
* `State`, `LowerM` — what changes as code is written;
* `Move`, `phiMoves`, `moveAll` — moves that happen at the same time;
* `lowerMath`, `lowerCompare`, `lowerNew`, `lowerCall`, `lowerNativeCall`, `lowerBranch`, …,
  `lowerInstr` — the instructions;
* `lowerFunction` — the whole.
-/

namespace DisBackend

open Ssa (BlockId Comparison Constant Function Instr MathOp PhiEdge Ty ValueId)

/-- Where a value lies in the frame. -/
structure Slot where
  offset : Int
  ty : Ty
  deriving DecidableEq, Repr, Inhabited

/-- The word of a slot. -/
def Slot.operand (s : Slot) : Operand := .fp s.offset

/-- What is fixed while a function is lowered. -/
structure Env where
  function : Function
  slots : List (ValueId × Slot)

/-- What changes while a function is lowered. -/
structure State where
  context : Context
  frame : Frame
  callSites : List TypeDescriptor
  /-- The fields of the objects created so far. -/
  objects : List (ValueId × List Ty)

/-- Lowering: a computation on the state that can stop. What was done before it stops stays done. -/
abbrev LowerM := EStateM Stop State

/-! ## Access to environment and state -/

/-- Stops with an error. -/
def refuse {α : Type} (e : LowerError) : LowerM α := throw (.error e)

/-- The result of an operation of the machine, or its fault. -/
def orFault {α : Type} : Except Fault α → LowerM α
  | .ok a => pure a
  | .error fault => throw (.fault fault)

/-- A computation on the shared context. -/
def onContext {α : Type} (m : ContextM α) : LowerM α := fun s =>
  match m s.context with
  | .ok a context => .ok a { s with context }
  | .error fault context => .error (.fault fault) { s with context }

/-- A new word of the frame. -/
def allocate (pointer : Bool) : LowerM Int := do
  let (offset, frame) ← orFault ((← get).frame.allocate pointer)
  modify fun s => { s with frame }
  return offset

/-- New words of the frame. -/
def allocateAll (pointers : List Bool) : LowerM (List Int) := pointers.mapM allocate

/-- Adds the descriptor of a call site, which carries its position. -/
def addCallSite (d : TypeDescriptor) : LowerM Int := do
  let s ← get
  if d.id = s.callSites.length then
    set { s with callSites := s.callSites ++ [d] }
    return d.id
  else throw (.fault (.callSiteNumber d.id s.callSites.length))

/-- Where a value lies. -/
def slotOf (env : Env) (value : ValueId) : LowerM Slot :=
  match env.slots.lookup value with
  | some slot => pure slot
  | none => refuse (.undefinedValue value)

/-- Where values lie. -/
def slotsOf (env : Env) (values : List ValueId) : LowerM (List Slot) := values.mapM (slotOf env)

/-- Stops unless the type found is the type expected. -/
def expectType (place : Use) (expected found : Ty) : LowerM Unit :=
  if expected = found then pure () else refuse (.typeMismatch place expected found)

/-- Where a global lies. -/
def globalOf (name : String) : LowerM GlobalSlot := do
  match (← get).context.global? name with
  | some slot => return slot
  | none => refuse (.unknownGlobal name)

/-! ## Moves -/

/-- The line that copies a value. -/
def moveLine (ty : Ty) (src dst : Operand) : Line := ⟨.binary (moveOpcode ty) src dst, .settled⟩

/-- A move from one word of the frame to another. -/
structure Move where
  ty : Ty
  src : Int
  dst : Int
  deriving DecidableEq, Repr

/-- The moves that give phis their values when control comes from `source`. A phi that is its own
value needs none. -/
def phiMoves (env : Env) (source : BlockId) : List Instr → LowerM (List Move)
  | .phi phi _ incoming :: rest => do
    match incoming.find? (·.block = source) with
    | none => refuse (.missingPhiEdge phi source)
    | some edge =>
      let dst ← slotOf env phi
      let src ← slotOf env edge.value
      expectType (.phi phi) dst.ty src.ty
      let moves ← phiMoves env source rest
      return if src.offset = dst.offset then moves else ⟨dst.ty, src.offset, dst.offset⟩ :: moves
  | _ => return []

/-- The moves on the edge from `source` to `target`. -/
def edgeMoves (env : Env) (source target : BlockId) : LowerM (List Move) :=
  match env.function.block? target with
  | some block => phiMoves env source block.instructions
  | none => refuse (.unknownBlock target)

/-- One of the moves reads a word that one of them writes. -/
def overlap (moves : List Move) : Bool := moves.any fun r => moves.any fun w => w.dst = r.src

/-- Moves, as if they happened at the same time. If a word is both read and written, all values go
through new words of the frame. -/
def moveAll (moves : List Move) : LowerM (List Line) := do
  if overlap moves then
    let temporaries ← allocateAll (moves.map (·.ty.isPointer))
    let pairs := moves.zip temporaries
    return (pairs.map fun (m, t) => moveLine m.ty (.fp m.src) (.fp t))
      ++ pairs.map fun (m, t) => moveLine m.ty (.fp t) (.fp m.dst)
  else return moves.map fun m => moveLine m.ty (.fp m.src) (.fp m.dst)

/-- The lines that store arguments in a call frame. -/
def argumentLines (callFrame : Int) (arguments : List Slot) : List Line :=
  arguments.mapIdx fun index slot =>
    moveLine slot.ty slot.operand (.fpIndirect callFrame (wordOffset headerBytes index))

/-! ## Control flow -/

/-- The line that goes to a block. -/
def jumpLine (target : BlockId) : Line := ⟨.unary .jmp (.imm 0), .block target⟩

/-- Goes to a block, moving the values of its phis into place. -/
def lowerJump (env : Env) (source target : BlockId) : LowerM (List Line) := do
  let moves ← moveAll (← edgeMoves env source target)
  return moves ++ [jumpLine target]

/-- The line that branches if a condition holds. -/
def branchLine (condition : Slot) (fixup : Fixup) : Line :=
  ⟨.ternary .bnew condition.operand (.imm 0) (.imm 0), fixup⟩

/-- Goes to one of two blocks. If phis have to be moved, the moves of the second block come first, and
the branch skips them. -/
def lowerBranch (env : Env) (source : BlockId) (condition : ValueId) (thenBlock elseBlock : BlockId) :
    LowerM (List Line) := do
  let condition ← slotOf env condition
  expectType .branchCondition .bool condition.ty
  let thenMoves ← edgeMoves env source thenBlock
  let elseMoves ← edgeMoves env source elseBlock
  if thenMoves = [] ∧ elseMoves = [] then
    return [branchLine condition (.block thenBlock), jumpLine elseBlock]
  else
    let elseLines ← moveAll elseMoves
    let thenLines ← moveAll thenMoves
    return branchLine condition (.ahead (elseLines.length + 2)) :: elseLines ++ [jumpLine elseBlock]
      ++ thenLines ++ [jumpLine thenBlock]

/-- Ends the function; its value goes where the caller asked for it. -/
def lowerReturn (env : Env) (value : Option ValueId) : LowerM (List Line) := do
  let ret : Line := ⟨.plain .ret, .settled⟩
  match value, env.function.result with
  | some value, some ty =>
    let slot ← slotOf env value
    expectType .returnValue ty slot.ty
    return [moveLine ty slot.operand (.fpIndirect returnSlot 0), ret]
  | none, none => return [ret]
  | none, some ty => refuse (.missingReturnValue ty)
  | some _, none => refuse .unexpectedReturnValue

/-! ## Values -/

/-- An integer as an operand: the number itself if it fits, or a word of module data. -/
def intOperand (value : Int64) : LowerM Operand :=
  if Encodable value.toInt then pure (.imm value.toInt)
  else return .mp (← onContext (Context.longConstant value))

/-- A constant. -/
def lowerConst (env : Env) (dst : ValueId) (value : Constant) : LowerM (List Line) := do
  let slot ← slotOf env dst
  match value with
  | .int n => return [moveLine .int (← intOperand n) slot.operand]
  | .real r => return [moveLine .real (.mp (← onContext (Context.realConstant r))) slot.operand]
  | .bool b => return [moveLine .bool (.imm (if b then 1 else 0)) slot.operand]
  | .string s => return [moveLine .string (.mp (← onContext (Context.stringLiteral s))) slot.operand]

/-- An operation. The machine computes `destination = middle op source`; operands that may be exchanged
are written in the order of the program, except that strings are joined in the machine's order. -/
def lowerMath (env : Env) (dst : ValueId) (op : MathOp) (lhs rhs : ValueId) : LowerM (List Line) := do
  let lhs ← slotOf env lhs
  let rhs ← slotOf env rhs
  let dst ← slotOf env dst
  expectType (.math op) lhs.ty rhs.ty
  match mathOpcode? op lhs.ty with
  | none => refuse (.unsupportedOperation (.math op) lhs.ty)
  | some opcode =>
    let i : Instruction :=
      if op.isCommutative ∧ opcode ≠ .addc then .ternary opcode lhs.operand rhs.operand dst.operand
      else .ternary opcode rhs.operand lhs.operand dst.operand
    return [⟨i, .settled⟩]

/-- A comparison: the result is true unless the branch falls through. -/
def lowerCompare (env : Env) (dst : ValueId) (op : Comparison) (lhs rhs : ValueId) :
    LowerM (List Line) := do
  let lhs ← slotOf env lhs
  let rhs ← slotOf env rhs
  let dst ← slotOf env dst
  expectType (.compare op) lhs.ty rhs.ty
  match compareOpcode? op lhs.ty with
  | none => refuse (.unsupportedOperation (.compare op) lhs.ty)
  | some opcode =>
    return [moveLine .bool (.imm 1) dst.operand,
      ⟨.ternary opcode lhs.operand rhs.operand (.imm 0), .ahead 2⟩,
      moveLine .bool (.imm 0) dst.operand]

/-! ## Memory -/

/-- The value of a global. -/
def lowerLoadGlobal (env : Env) (dst : ValueId) (name : String) : LowerM (List Line) := do
  let global ← globalOf name
  let slot ← slotOf env dst
  return [moveLine global.ty (.mp global.offset) slot.operand]

/-- Gives a global a value. -/
def lowerStoreGlobal (env : Env) (name : String) (value : ValueId) : LowerM (List Line) := do
  let global ← globalOf name
  let slot ← slotOf env value
  expectType (.global name) global.ty slot.ty
  return [moveLine global.ty slot.operand (.mp global.offset)]

/-- A new object. -/
def lowerNew (env : Env) (dst : ValueId) (fields : List Ty) : LowerM (List Line) := do
  let size := max (← orFault (checkedMul fields.length wordBytes)) wordBytes
  let id := (← get).callSites.length
  let id ← addCallSite (← orFault (describe id size 0 (fields.map Ty.isPointer)))
  let slot ← slotOf env dst
  modify fun s => { s with objects := (dst, fields) :: s.objects }
  return [⟨.binary .new (.imm id) slot.operand, .settled⟩]

/-- The word of a field. If the object was created by a `new` before, its fields are known. -/
def fieldOperand (env : Env) (object : ValueId) (field : Nat) (ty : Ty) : LowerM Operand := do
  let slot ← slotOf env object
  expectType (.fieldAccess object) .object slot.ty
  if let some fields := (← get).objects.lookup object then
    match fields[field]? with
    | some fieldTy => expectType (.field field object) fieldTy ty
    | none => refuse (.fieldOutOfRange object field)
  let offset := wordOffset 0 field
  if offset ≤ operandMax then return .fpIndirect slot.offset offset
  else refuse (.fieldOutOfRange object field)

/-- The value of a field. -/
def lowerLoadField (env : Env) (dst : ValueId) (ty : Ty) (object : ValueId) (field : Nat) :
    LowerM (List Line) := do
  let operand ← fieldOperand env object field ty
  let slot ← slotOf env dst
  return [moveLine ty operand slot.operand]

/-- Gives a field a value. -/
def lowerStoreField (env : Env) (object : ValueId) (field : Nat) (value : ValueId) :
    LowerM (List Line) := do
  let slot ← slotOf env value
  let operand ← fieldOperand env object field slot.ty
  return [moveLine slot.ty slot.operand operand]

/-! ## Calls -/

/-- The line that tells a call frame where the result goes. -/
def resultLine (result callFrame : Int) : Line :=
  ⟨.binary .lea (.fp result) (.fpIndirect callFrame returnSlot), .settled⟩

/-- Stops unless arguments have the types of the parameters. -/
def checkArguments (callee : String) : (index : Nat) → List Slot → List Ty → LowerM Unit
  | index, slot :: slots, ty :: tys => do
    expectType (.argument index callee) ty slot.ty
    checkArguments callee (index + 1) slots tys
  | _, _, _ => return ()

/-- The lines that tell a call frame where the result of a function goes: the word of the destination,
or a new word if the result is not used. -/
def callResult (env : Env) (callee : String) (result : Option Ty) (dst : Option ValueId)
    (callFrame : Int) : LowerM (List Line) := do
  match result, dst with
  | some _, some dst => return [resultLine (← slotOf env dst).offset callFrame]
  | some ty, none => return [resultLine (← allocate ty.isPointer) callFrame]
  | none, some _ => refuse (.noResult callee)
  | none, none => return []

/-- A call of a function of the program. -/
def lowerCall (env : Env) (dst : Option ValueId) (callee : String) (arguments : List ValueId) :
    LowerM (List Line) := do
  match (← get).context.program.function? callee with
  | none => refuse (.unknownFunction callee)
  | some target =>
    if target.isDeclaration then refuse (.functionWithoutBody callee)
    if target.parameters.length ≠ arguments.length then
      refuse (.argumentCount callee target.parameters.length arguments.length)
    let slots ← slotsOf env arguments
    checkArguments callee 0 slots target.parameters
    let callFrame ← allocate false
    let result ← callResult env callee target.result dst callFrame
    return ⟨.binary .frame (.imm 0) (.fp callFrame), .callee .frameId callee⟩
      :: argumentLines callFrame slots ++ result
      ++ [⟨.binary .call (.fp callFrame) (.imm 0), .callee .callAddress callee⟩]

/-- Stops unless exactly the arguments that the callee takes for pointers are pointers. -/
def checkNativeArguments (native : SysFunction) : (index : Nat) → List Slot → LowerM Unit
  | _, [] => return ()
  | index, slot :: slots => do
    let pointer ← orFault (native.parameterIsPointer index)
    if pointer ≠ slot.ty.isPointer then refuse (.nativeArgument native.name index pointer)
    checkNativeArguments native (index + 1) slots

/-- The line that creates the frame for a call of a system function. A function with a frame of its own
checks its arguments; for the others the call site describes the frame. -/
def nativeFrame (native : SysFunction) (index : Nat) (slots : List Slot) (callFrame : Int) :
    LowerM Line := do
  match native.parameterCount? with
  | none =>
    let size ← orFault (do checkedAdd headerBytes (← checkedMul slots.length wordBytes))
    let id := (← get).callSites.length
    let id ← addCallSite
      (← orFault (describe id size headerBytes (slots.map (·.ty.isPointer))))
    return ⟨.binary .frame (.imm id) (.fp callFrame), .settled⟩
  | some expected =>
    if expected ≠ slots.length then refuse (.argumentCount native.name expected slots.length)
    checkNativeArguments native 0 slots
    return ⟨.ternary .mframe (.mp sysOffset) (.imm index) (.fp callFrame), .settled⟩

/-- Where a system function stores what it returns: the word of the destination, or new words. -/
def nativeResult (env : Env) (native : SysFunction) (dst : Option ValueId) : LowerM Int := do
  match dst with
  | some dst =>
    if native.result?.isNone then refuse (.noResult native.name)
    return (← slotOf env dst).offset
  | none =>
    match ← allocateAll (native.returns.map Ty.isPointer) with
    | first :: _ => return first
    | [] => allocate false

/-- A call of a function of the system module. -/
def lowerNativeCall (env : Env) (dst : Option ValueId) (name : String) (arguments : List ValueId) :
    LowerM (List Line) := do
  match SysFunction.lookup? name with
  | none => refuse (.unknownNative name)
  | some native =>
    let slots ← slotsOf env arguments
    let index ← onContext (Context.nativeImport native)
    let callFrame ← allocate false
    let frame ← nativeFrame native index slots callFrame
    let result ← nativeResult env native dst
    return frame :: argumentLines callFrame slots ++ [resultLine result callFrame,
      ⟨.ternary .mcall (.fp callFrame) (.imm index) (.mp sysOffset), .settled⟩]

/-! ## Functions -/

/-- An instruction of the block `source`. -/
def lowerInstr (env : Env) (source : BlockId) : Instr → LowerM (List Line)
  | .const dst value => lowerConst env dst value
  | .math dst op lhs rhs => lowerMath env dst op lhs rhs
  | .compare dst op lhs rhs => lowerCompare env dst op lhs rhs
  | .phi .. => return []
  | .loadGlobal dst global => lowerLoadGlobal env dst global
  | .storeGlobal global value => lowerStoreGlobal env global value
  | .new dst fields => lowerNew env dst fields
  | .loadField dst ty object field => lowerLoadField env dst ty object field
  | .storeField object field value => lowerStoreField env object field value
  | .call dst callee arguments => lowerCall env dst callee arguments
  | .callNative dst function arguments => lowerNativeCall env dst function arguments
  | .jump target => lowerJump env source target
  | .branch condition thenBlock elseBlock => lowerBranch env source condition thenBlock elseBlock
  | .ret value => lowerReturn env value

/-- The instructions of the block `source`, one after the other. -/
def lowerInstrs (env : Env) (source : BlockId) : List Instr → LowerM (List Line)
  | [] => return []
  | i :: rest => do
    let front ← lowerInstr env source i
    let back ← lowerInstrs env source rest
    return front ++ back

/-- Blocks, the first of which has position `index`. -/
def lowerBlocks (env : Env) : (index : Nat) → List Ssa.Block → LowerM (List (List Line))
  | _, [] => return []
  | index, block :: rest => do
    let lines ← lowerInstrs env ⟨index⟩ block.instructions
    return lines :: (← lowerBlocks env (index + 1) rest)

/-- Gives every value a word of the frame. -/
def assignSlots (frame : Frame) : Typing → Except Fault (List (ValueId × Slot) × Frame)
  | [] => .ok ([], frame)
  | (value, ty) :: rest => do
    let (offset, frame) ← frame.allocate ty.isPointer
    let (slots, frame) ← assignSlots frame rest
    return ((value, ⟨offset, ty⟩) :: slots, frame)

/-- The fragment of a function whose blocks have been lowered. -/
def fragmentOf (name : String) (s : State) (blocks : List (List Line)) :
    Except LowerError Fragment := do
  let lines := blocks.flatten
  let code ← resolveLines (blockStarts 0 (blocks.map List.length)) 0 lines
  return { name, code, frame := s.frame, callSites := s.callSites, patches := patchesOf lines }

/-- The event of having lowered a function. -/
def loweredEvent (f : Fragment) : Event :=
  .lowered f.name f.code.length f.frame.size f.callSites.length

/-- The blocks of a function whose values have their slots. -/
def lowerBody (f : Function) (slots : List (ValueId × Slot)) (frame : Frame) :
    EStateM Stop Context Fragment := fun context =>
  match lowerBlocks ⟨f, slots⟩ 0 f.blocks ⟨context, frame, [], []⟩ with
  | .error stop s => .error stop s.context
  | .ok blocks s =>
    match fragmentOf f.name s blocks with
    | .error e => .error (.error e) s.context
    | .ok fragment =>
      .ok fragment { s.context with log := s.context.log.push (loweredEvent fragment) }

/-- The fragment of a function. -/
def lowerFunction (f : Function) : EStateM Stop Context Fragment := fun context =>
  match f.shapeFault? with
  | some e => .error (.error e) context
  | none =>
    match valueTypes context f with
    | .error e => .error (.error e) context
    | .ok types =>
      match assignSlots {} types with
      | .error fault => .error (.fault fault) context
      | .ok (slots, frame) => lowerBody f slots frame context

end DisBackend
