import DisBackend.Context
import DisBackend.Lowering.Error

/-!
# `Lowering.ValueTypes` — the type of every value

Most instructions determine the type of the value they compute. The result of an operation has the
type of its left operand, which may be defined further down: such results wait until the type of that
operand is known. Additions always wait.

The types are found in rounds. A round goes over the waiting results once; when a round finds nothing,
the left operand of the first one is defined nowhere, or only by itself.

## Contents

* `Typing`, `Typing.define` — types found so far, in order of definition;
* `resultType` — the type of a value that depends on nothing else;
* `Pending`, `scan` — one pass over the instructions;
* `settleRound`, `settle` — the rounds;
* `valueTypes` — the types of all values of a function.
-/

namespace DisBackend

open Ssa (Function Instr MathOp Ty ValueId)

/-- Values and their types, in the order in which they were found. -/
abbrev Typing := List (ValueId × Ty)

/-- Adds a value, which must be new. -/
def Typing.define (types : Typing) (value : ValueId) (ty : Ty) : Except LowerError Typing :=
  match types.lookup value with
  | some _ => .error (.redefinition value)
  | none => .ok (types ++ [(value, ty)])

/-- The type of what a call of a program's function computes. -/
def callType (c : Context) (callee : String) : Except LowerError Ty :=
  match c.program.function? callee with
  | none => .error (.unknownFunction callee)
  | some target =>
    match target.result with
    | some ty => .ok ty
    | none => .error (.noResult callee)

/-- The type of what a call of a system function computes. -/
def nativeCallType (function : String) : Except LowerError Ty :=
  match SysFunction.lookup? function with
  | none => .error (.unknownNative function)
  | some native =>
    match native.result? with
    | some ty => .ok ty
    | none => .error (.noResult function)

/-- The type of a global. -/
def globalType (c : Context) (name : String) : Except LowerError Ty :=
  match c.global? name with
  | some slot => .ok slot.ty
  | none => .error (.unknownGlobal name)

/-- The value an instruction other than an operation computes, with its type. -/
def resultType (c : Context) : Instr → Except LowerError (Option (ValueId × Ty))
  | .const dst value => .ok (some (dst, value.ty))
  | .compare dst .. => .ok (some (dst, .bool))
  | .phi dst ty _ | .loadField dst ty .. => .ok (some (dst, ty))
  | .new dst _ => .ok (some (dst, .object))
  | .loadGlobal dst name => (globalType c name).map fun ty => some (dst, ty)
  | .call (some dst) callee _ => (callType c callee).map fun ty => some (dst, ty)
  | .callNative (some dst) function _ => (nativeCallType function).map fun ty => some (dst, ty)
  | _ => .ok none

/-- A result that waits for the type of its left operand. -/
structure Pending where
  dst : ValueId
  lhs : ValueId
  deriving DecidableEq, Repr

/-- Types found by one pass over instructions, and the results that wait. -/
structure Scanned where
  types : Typing
  pending : List Pending

/-- What one instruction adds. -/
def scanInstr (c : Context) (s : Scanned) (i : Instr) : Except LowerError Scanned :=
  match i with
  | .math dst op lhs _ =>
    match s.types.lookup lhs with
    | some ty =>
      if op = .add then .ok { s with pending := s.pending ++ [⟨dst, lhs⟩] }
      else (s.types.define dst ty).map fun types => { s with types }
    | none => .ok { s with pending := s.pending ++ [⟨dst, lhs⟩] }
  | _ => do
    match ← resultType c i with
    | some (dst, ty) => return { s with types := ← s.types.define dst ty }
    | none => return s

/-- One pass over instructions. -/
def scan (c : Context) (s : Scanned) : List Instr → Except LowerError Scanned
  | [] => .ok s
  | i :: rest => do scan c (← scanInstr c s i) rest

/-- The types of the parameters. -/
def parameterTypes (f : Function) : Typing := f.parameterValues

/-- One round: the types found, and the results that still wait. -/
def settleRound (types : Typing) : List Pending → Except LowerError Scanned
  | [] => .ok ⟨types, []⟩
  | p :: rest =>
    match types.lookup p.lhs with
    | some ty => do settleRound (← types.define p.dst ty) rest
    | none => do
      let s ← settleRound types rest
      return { s with pending := p :: s.pending }

/-- Rounds until nothing waits, at most `fuel` of them. A round that finds nothing is the last. -/
def settle : (fuel : Nat) → Typing → List Pending → Except LowerError Typing
  | _, types, [] => .ok types
  | 0, _, p :: _ => .error (.undefinedValue p.lhs)
  | fuel + 1, types, p :: rest => do
    let s ← settleRound types (p :: rest)
    if s.pending.length = rest.length + 1 then throw (.undefinedValue p.lhs)
    else settle fuel s.types s.pending

/-- The types of all values of a function: parameters first, then in the order in which they are
found. A round that goes on shortens the list of what waits, so that its length bounds the rounds. -/
def valueTypes (c : Context) (f : Function) : Except LowerError Typing := do
  let s ← scan c ⟨parameterTypes f, []⟩ f.instructions
  settle s.pending.length s.types s.pending

end DisBackend
