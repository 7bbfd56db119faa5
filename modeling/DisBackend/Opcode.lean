/-!
# `Opcode` — the instruction set

The 175 operations of the machine in the order of their codes: an operation's code is its position
in `Opcode.all`, which is also the byte that stands for it in a module file.

## Contents

* `Opcode` — the operations, grouped by what they work on;
* `Opcode.name`, `Opcode.toByte`, `Opcode.ofByte?` — their assembly names and codes;
* `Opcode.isBranch`, `Opcode.typeInSource`, `Opcode.typeInMiddle` — what their operands mean.
-/

namespace DisBackend

/-- An operation of the machine. -/
inductive Opcode where
  -- control flow
  | nop | alt | nbalt | goto | call | frame | spawn | runt | load | mcall | mspawn | mframe
  | ret | jmp | casew | exit
  -- allocation
  | new | newa | newcb | newcw | newcf | newcp | newcm | newcmp
  -- channels and lists
  | send | recv | consb | consw | consp | consf | consm | consmp | headb | headw | headp
  | headf | headm | headmp | tail
  -- moves
  | lea | indx | movp | movm | movmp | movb | movw | movf
  -- conversions
  | cvtbw | cvtwb | cvtfw | cvtwf | cvtca | cvtac | cvtwc | cvtcw | cvtfc | cvtcf
  -- arithmetic
  | addb | addw | addf | subb | subw | subf | mulb | mulw | mulf | divb | divw | divf | modw
  | modb | andb | andw | orb | orw | xorb | xorw | shlb | shlw | shrb | shrw
  -- strings and arrays
  | insc | indc | addc | lenc | lena | lenl
  -- branches
  | beqb | bneb | bltb | bleb | bgtb | bgeb | beqw | bnew | bltw | blew | bgtw | bgew | beqf
  | bnef | bltf | blef | bgtf | bgef | beqc | bnec | bltc | blec | bgtc | bgec
  -- slices and indexing
  | slicea | slicela | slicec | indw | indf | indb | negf
  -- long (64-bit) integers
  | movl | addl | subl | divl | modl | mull | andl | orl | xorl | shll | shrl | bnel | bltl
  | blel | bgtl | bgel | beql
  -- miscellaneous
  | cvtlf | cvtfl | cvtlw | cvtwl | cvtlc | cvtcl | headl | consl | newcl | casec | indl
  | movpc | tcmp | mnewz | cvtrf | cvtfr | cvtws | cvtsw | lsrw | lsrl | eclr | newz | newaz
  | raise | casel | mulx | divx | cvtxx | mulx0 | divx0 | cvtxx0 | mulx1 | divx1 | cvtxx1
  | cvtfx | cvtxf | expw | expl | expf | selfModule
  deriving DecidableEq, Repr, Inhabited

namespace Opcode

/-- Every operation, in the order of the codes. -/
def all : List Opcode := [
  .nop, .alt, .nbalt, .goto, .call, .frame, .spawn, .runt, .load, .mcall, .mspawn, .mframe, .ret,
  .jmp, .casew, .exit, .new, .newa, .newcb, .newcw, .newcf, .newcp, .newcm, .newcmp, .send, .recv,
  .consb, .consw, .consp, .consf, .consm, .consmp, .headb, .headw, .headp, .headf, .headm,
  .headmp, .tail, .lea, .indx, .movp, .movm, .movmp, .movb, .movw, .movf, .cvtbw, .cvtwb, .cvtfw,
  .cvtwf, .cvtca, .cvtac, .cvtwc, .cvtcw, .cvtfc, .cvtcf, .addb, .addw, .addf, .subb, .subw,
  .subf, .mulb, .mulw, .mulf, .divb, .divw, .divf, .modw, .modb, .andb, .andw, .orb, .orw, .xorb,
  .xorw, .shlb, .shlw, .shrb, .shrw, .insc, .indc, .addc, .lenc, .lena, .lenl, .beqb, .bneb,
  .bltb, .bleb, .bgtb, .bgeb, .beqw, .bnew, .bltw, .blew, .bgtw, .bgew, .beqf, .bnef, .bltf,
  .blef, .bgtf, .bgef, .beqc, .bnec, .bltc, .blec, .bgtc, .bgec, .slicea, .slicela, .slicec,
  .indw, .indf, .indb, .negf, .movl, .addl, .subl, .divl, .modl, .mull, .andl, .orl, .xorl, .shll,
  .shrl, .bnel, .bltl, .blel, .bgtl, .bgel, .beql, .cvtlf, .cvtfl, .cvtlw, .cvtwl, .cvtlc, .cvtcl,
  .headl, .consl, .newcl, .casec, .indl, .movpc, .tcmp, .mnewz, .cvtrf, .cvtfr, .cvtws, .cvtsw,
  .lsrw, .lsrl, .eclr, .newz, .newaz, .raise, .casel, .mulx, .divx, .cvtxx, .mulx0, .divx0,
  .cvtxx0, .mulx1, .divx1, .cvtxx1, .cvtfx, .cvtxf, .expw, .expl, .expf, .selfModule]

/-- The byte that stands for an operation. -/
def toByte (op : Opcode) : UInt8 := UInt8.ofNat op.ctorIdx

/-- The operation a byte stands for; codes from 175 on have none. -/
def ofByte? (byte : UInt8) : Option Opcode := all[byte.toNat]?

/-- The assembly name of an operation. -/
def name : Opcode → String
  | .nop => "nop" | .alt => "alt" | .nbalt => "nbalt" | .goto => "goto" | .call => "call"
  | .frame => "frame" | .spawn => "spawn" | .runt => "runt" | .load => "load" | .mcall => "mcall"
  | .mspawn => "mspawn" | .mframe => "mframe" | .ret => "ret" | .jmp => "jmp" | .casew => "case"
  | .exit => "exit" | .new => "new" | .newa => "newa" | .newcb => "newcb" | .newcw => "newcw"
  | .newcf => "newcf" | .newcp => "newcp" | .newcm => "newcm" | .newcmp => "newcmp"
  | .send => "send" | .recv => "recv" | .consb => "consb" | .consw => "consw" | .consp => "consp"
  | .consf => "consf" | .consm => "consm" | .consmp => "consmp" | .headb => "headb"
  | .headw => "headw" | .headp => "headp" | .headf => "headf" | .headm => "headm"
  | .headmp => "headmp" | .tail => "tail" | .lea => "lea" | .indx => "indx" | .movp => "movp"
  | .movm => "movm" | .movmp => "movmp" | .movb => "movb" | .movw => "movw" | .movf => "movf"
  | .cvtbw => "cvtbw" | .cvtwb => "cvtwb" | .cvtfw => "cvtfw" | .cvtwf => "cvtwf"
  | .cvtca => "cvtca" | .cvtac => "cvtac" | .cvtwc => "cvtwc" | .cvtcw => "cvtcw"
  | .cvtfc => "cvtfc" | .cvtcf => "cvtcf" | .addb => "addb" | .addw => "addw" | .addf => "addf"
  | .subb => "subb" | .subw => "subw" | .subf => "subf" | .mulb => "mulb" | .mulw => "mulw"
  | .mulf => "mulf" | .divb => "divb" | .divw => "divw" | .divf => "divf" | .modw => "modw"
  | .modb => "modb" | .andb => "andb" | .andw => "andw" | .orb => "orb" | .orw => "orw"
  | .xorb => "xorb" | .xorw => "xorw" | .shlb => "shlb" | .shlw => "shlw" | .shrb => "shrb"
  | .shrw => "shrw" | .insc => "insc" | .indc => "indc" | .addc => "addc" | .lenc => "lenc"
  | .lena => "lena" | .lenl => "lenl" | .beqb => "beqb" | .bneb => "bneb" | .bltb => "bltb"
  | .bleb => "bleb" | .bgtb => "bgtb" | .bgeb => "bgeb" | .beqw => "beqw" | .bnew => "bnew"
  | .bltw => "bltw" | .blew => "blew" | .bgtw => "bgtw" | .bgew => "bgew" | .beqf => "beqf"
  | .bnef => "bnef" | .bltf => "bltf" | .blef => "blef" | .bgtf => "bgtf" | .bgef => "bgef"
  | .beqc => "beqc" | .bnec => "bnec" | .bltc => "bltc" | .blec => "blec" | .bgtc => "bgtc"
  | .bgec => "bgec" | .slicea => "slicea" | .slicela => "slicela" | .slicec => "slicec"
  | .indw => "indw" | .indf => "indf" | .indb => "indb" | .negf => "negf" | .movl => "movl"
  | .addl => "addl" | .subl => "subl" | .divl => "divl" | .modl => "modl" | .mull => "mull"
  | .andl => "andl" | .orl => "orl" | .xorl => "xorl" | .shll => "shll" | .shrl => "shrl"
  | .bnel => "bnel" | .bltl => "bltl" | .blel => "blel" | .bgtl => "bgtl" | .bgel => "bgel"
  | .beql => "beql" | .cvtlf => "cvtlf" | .cvtfl => "cvtfl" | .cvtlw => "cvtlw"
  | .cvtwl => "cvtwl" | .cvtlc => "cvtlc" | .cvtcl => "cvtcl" | .headl => "headl"
  | .consl => "consl" | .newcl => "newcl" | .casec => "casec" | .indl => "indl"
  | .movpc => "movpc" | .tcmp => "tcmp" | .mnewz => "mnewz" | .cvtrf => "cvtrf"
  | .cvtfr => "cvtfr" | .cvtws => "cvtws" | .cvtsw => "cvtsw" | .lsrw => "lsrw" | .lsrl => "lsrl"
  | .eclr => "eclr" | .newz => "newz" | .newaz => "newaz" | .raise => "raise" | .casel => "casel"
  | .mulx => "mulx" | .divx => "divx" | .cvtxx => "cvtxx" | .mulx0 => "mulx0" | .divx0 => "divx0"
  | .cvtxx0 => "cvtxx0" | .mulx1 => "mulx1" | .divx1 => "divx1" | .cvtxx1 => "cvtxx1"
  | .cvtfx => "cvtfx" | .cvtxf => "cvtxf" | .expw => "expw" | .expl => "expl" | .expf => "expf"
  | .selfModule => "self"

/-- The destination of the operation is a code address. -/
def isBranch : Opcode → Bool
  | .call | .jmp | .spawn
  | .beqb | .bneb | .bltb | .bleb | .bgtb | .bgeb
  | .beqw | .bnew | .bltw | .blew | .bgtw | .bgew
  | .beqf | .bnef | .bltf | .blef | .bgtf | .bgef
  | .beqc | .bnec | .bltc | .blec | .bgtc | .bgec
  | .beql | .bnel | .bltl | .blel | .bgtl | .bgel => true
  | _ => false

/-- The source operand of the operation is the id of a type descriptor. -/
def typeInSource : Opcode → Bool
  | .frame | .new => true
  | _ => false

/-- The middle operand of the operation is the id of a type descriptor. -/
def typeInMiddle : Opcode → Bool
  | .newa => true
  | _ => false

/-- An operation is found again from its byte. -/
@[simp]
theorem ofByte?_toByte (op : Opcode) : ofByte? op.toByte = some op := by
  cases op <;> rfl

end Opcode
end DisBackend
