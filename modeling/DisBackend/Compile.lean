import DisBackend.Linking
import DisBackend.Lowering
import DisBackend.ModuleName

/-!
# `Compile` — from a program to a module

Functions that are only declared are not compiled, and of several definitions of one name only the
first is. The entry function comes first in the module and the others follow, sorted by name. Before
any function is lowered, the system functions that are called, the string literals and the globals get
their places, in the order of the program.

## Contents

* `Program.definitions`, `Program.repeated`, `Program.compileOrder?` — what is compiled, in which order;
* `Lowerer` — what turns a function into a fragment;
* `prepare` — the shared context before the first function;
* `CompileOptions`, `compileWith`, `compile` — the whole.
-/

namespace DisBackend

open Ssa (Function Program)

namespace Ssa

/-- Functions with a body, each with whether it is the first of its name. The names in `seen` have come
before. -/
def markFirst (seen : List String) : List Function → List (Function × Bool)
  | [] => []
  | f :: rest => (f, !seen.contains f.name) :: markFirst (f.name :: seen) rest

namespace Program

/-- The functions that have a body, each with whether it is the first of its name. -/
def bodies (p : Program) : List (Function × Bool) :=
  markFirst [] (p.functions.filter (! ·.isDeclaration))

/-- The functions that are compiled, in the order of the program: the first definition of each name. -/
def definitions (p : Program) : List Function := (p.bodies.filter Prod.snd).map Prod.fst

/-- The definitions that are ignored because one of the same name came before. -/
def repeated (p : Program) : List Function := (p.bodies.filter (! ·.snd)).map Prod.fst

/-- The functions that are compiled, the entry function first and the others sorted by name; nothing if
the entry function has no definition. -/
def compileOrder? (p : Program) : Option (List Function) :=
  match p.definitions.find? (·.name == p.entry) with
  | none => none
  | some entry =>
    some (entry :: (p.definitions.filter (·.name != p.entry)).mergeSort (·.name ≤ ·.name))

end Program
end Ssa

/-- What turns a function into a fragment. -/
abbrev Lowerer := Function → EStateM Stop Context Fragment

/-! ## The shared context -/

/-- Places a global. A repeated one is reported, and is the same as the first. -/
def declareGlobal (g : Ssa.Global) : ContextM Unit := do
  if ((← get).global? g.name).isSome then Context.report (.duplicateGlobal g.name)
  discard (Context.addGlobal g.name g.ty)

/-- Places everything that is known before the first function is lowered. -/
def prepare (program : Program) : ContextM Unit := do
  (program.definitions.flatMap Function.nativeCalls).forM fun name =>
    discard (Context.registerNative name)
  (program.definitions.flatMap Function.stringLiterals).forM fun value =>
    discard (Context.stringLiteral value)
  program.globals.forM declareGlobal

/-! ## Compilation -/

/-- What a compilation is told besides the program. -/
structure CompileOptions where
  /-- The name of the module, instead of the one that the source path gives. -/
  name : Option String := none
  stackSize : Int := defaultStackSize
  deriving DecidableEq, Repr

/-- What the module is told besides its fragments. -/
def CompileOptions.linkOptions (options : CompileOptions) (program : Program) : LinkOptions where
  name := options.name.getD (moduleName program.sourcePath)
  stackSize := options.stackSize
  sourcePath := program.sourcePath

/-- A reason to stop while a function is lowered, as a reason to stop the compilation. -/
def CompileStop.ofStop (function : String) : Stop → CompileStop
  | .error cause => .error (.lowering function cause)
  | .fault cause => .fault cause

/-- Lowers functions one after the other. -/
def lowerAll (lower : Lowerer) : List Function → EStateM CompileStop Context (List Fragment)
  | [] => return []
  | f :: rest => do
    modify fun c => { c with log := c.log.push (.lowering f.name) }
    let fragment ← fun c =>
      match lower f c with
      | .ok fragment c => .ok fragment c
      | .error stop c => .error (.ofStop f.name stop) c
    return fragment :: (← lowerAll lower rest)

/-- The fault of a computation as a reason to stop. -/
def orStop {σ α : Type} (m : EStateM Fault σ α) : EStateM CompileStop σ α := fun s =>
  match m s with
  | .ok a s => .ok a s
  | .error fault s => .error (.fault fault) s

/-- The fragments of functions, in the order given, and the data they share. -/
def lowerProgram (lower : Lowerer) (program : Program) (order : List Function) :
    EStateM CompileStop Context (List Fragment × DataSegment) := do
  orStop (prepare program)
  let fragments ← lowerAll lower order
  return (fragments, ← orStop Context.finish)

/-- A computation on a new shared context, of which only the log remains. -/
def withContext {α : Type} (program : Program) (m : EStateM CompileStop Context α) :
    Reporting CompileStop α := fun log =>
  match m (Context.initial program log) with
  | .ok a c => .ok a c.log
  | .error stop c => .error stop c.log

/-- Compiles a program with a given way to lower functions. -/
def compileWith (lower : Lowerer) (options : CompileOptions) (program : Program) :
    Reporting CompileStop CompiledModule := do
  match program.compileOrder? with
  | none => throw (.error (.missingEntry program.entry))
  | some order =>
    modify fun (log : Log) => log ++ (program.repeated.map fun f => .duplicateFunction f.name).toArray
    let (fragments, data) ← withContext program (lowerProgram lower program order)
    orStop (assemble (options.linkOptions program) fragments data)

/-- Compiles a program. -/
def compile (options : CompileOptions) (program : Program) : Reporting CompileStop CompiledModule :=
  compileWith lowerFunction options program

end DisBackend
