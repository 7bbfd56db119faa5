import DisBackend.Proofs.Module.Parts

/-!
# `Proofs.Module.RoundTrip` — which modules survive their file

The writer keeps lengths in 32 bits, drops what the flags do not announce, ends a text at its first zero
byte and has no mode for an indirect middle operand; so there are modules that can be written but are
read back as something else. `Module.Storable` says which modules are not among them.

## Contents

* `Module.Storable` — everything in the module has room in a file;
* `Module.readFront`, `coded_front`, `coded_module` — a storable module is written and read back, first
  without its source path;
* `yields_module`, `encodable_offsets` — what was read is storable, but for the offsets of its data; those
  the writer checks;
* `Module.decode_encode_iff` — the two together.
-/

namespace DisBackend

/-- **The module has room in a file.** Every number is one a file can hold, every length is such a
number, no text has a NUL in it, and there are no imports and no handlers without the flag for them. -/
@[mk_iff]
structure Module.Storable (m : Module) : Prop where
  flags : Encodable m.flags.toInt
  stackSize : Encodable m.stackSize
  dataSize : Encodable m.dataSize
  entryPc : Encodable m.entryPc
  entryType : Encodable m.entryType
  code_length : (m.code.length : Int) ≤ operandMax
  code : ∀ i ∈ m.code, i.Storable
  types_length : (m.types.length : Int) ≤ operandMax
  types : ∀ d ∈ m.types, d.Storable
  data : ∀ item ∈ m.data, item.Storable
  name : NulFree m.name
  links_length : (m.links.length : Int) ≤ operandMax
  links : ∀ l ∈ m.links, l.Storable
  imports_length : (m.imports.length : Int) ≤ operandMax
  imports : ∀ group ∈ m.imports, ImportGroup.Storable group
  imports_flag : m.flags.contains Flags.imports = false → m.imports = []
  handlers_length : (m.handlers.length : Int) ≤ operandMax
  handlers : ∀ h ∈ m.handlers, h.Storable
  handlers_flag : m.flags.contains Flags.handlers = false → m.handlers = []
  sourcePath : NulFree m.sourcePath

instance (m : Module) : Decidable m.Storable :=
  decidable_of_iff' _ (Module.storable_iff m)

namespace Module

variable {m : Module}

/-! ## Writing and reading back -/

theorem coded_magic (h : m.magic = unsignedMagic) :
    Coded Anything (encodeOperand m.magic) readMagic m.magic := by
  have hfits : Encodable m.magic := by
    rw [h]
    decide
  obtain ⟨bytes, hbytes, hreads⟩ := coded_operand hfits .magic
  refine ⟨bytes, hbytes, fun position rest hrest => ?_⟩
  show (readOperand .magic _ >>= fun p => _) = _
  rw [hreads position rest hrest, h]
  rfl

theorem coded_imports (h : m.Storable) :
    Coded Anything (joinChunks m.importChunks) (readImports m.flags) m.imports := by
  unfold importChunks readImports
  cases hflag : m.flags.contains Flags.imports with
  | false =>
    rw [h.imports_flag hflag]
    exact coded_nil []
  | true =>
    have hgroups := coded_list fun group hgroup => coded_importGroup (h.imports group hgroup)
    have hend := coded_operand (show Encodable 0 by decide) .importTerminator
    exact (coded_count h.imports_length .importGroup).cons
      (hgroups.append (hend.cons (coded_nil m.imports)))

theorem coded_handlers (h : m.Storable) :
    Coded Anything (joinChunks m.handlerChunks) (readHandlers m.flags) m.handlers := by
  unfold handlerChunks readHandlers
  cases hflag : m.flags.contains Flags.handlers with
  | false =>
    rw [h.handlers_flag hflag]
    exact coded_nil []
  | true =>
    have hhandlers := coded_list fun handler hhandler => coded_handler (h.handlers handler hhandler)
    have hend := coded_operand (show Encodable 0 by decide) .handlerTerminator
    exact (coded_count h.handlers_length .handler).cons
      (hhandlers.append (hend.cons (coded_nil m.handlers)))

/-- The source path is the last thing in a file: that there is none is seen by the file's end. -/
theorem coded_sourcePath (h : NulFree m.sourcePath) :
    Coded (· = []) (joinChunks m.sourceChunks) readSourcePath m.sourcePath := by
  unfold sourceChunks
  by_cases hempty : m.sourcePath = ""
  · rw [if_pos hempty, hempty]
    refine ⟨[], rfl, fun position rest hrest => ?_⟩
    rw [hrest]
    rfl
  · rw [if_neg hempty]
    obtain ⟨bytes, hbytes, hreads⟩ := coded_text h
    refine ⟨bytes, by rw [hbytes]; simp [joinChunks, bind, Except.bind, pure, Except.pure], ?_⟩
    intro position rest hrest
    have hne : bytes ++ rest ≠ [] := by
      cases hbytes
      simp
    show (if bytes ++ rest = [] then pure "" else readText : Reader String) _ = _
    rw [if_neg hne]
    exact hreads position rest trivial

/-- The chunks of a file before the source path, grouped as they are read. -/
def frontChunks (m : Module) : List Chunk :=
  m.headerChunks ++ (m.code.map Instruction.encode ++ (m.types.map TypeDescriptor.encode
    ++ ((m.data.map DataItem.encode ++ [.ok [0]]) ++ (textChunk m.name :: (m.links.map Link.encode
    ++ (m.importChunks ++ m.handlerChunks))))))

/-- Everything of a module but its source path. -/
def readFront : Reader Module := do
  let magic ← readMagic
  let flags := Flags.ofInt (← readOperand .runtimeFlags)
  let stackSize ← readOperand .stackSize
  let codeLength ← readCount .instruction
  let dataSize ← readOperand .dataSize
  let typeCount ← readCount .typeDescriptor
  let linkCount ← readCount .link
  let entryPc ← readOperand .entryPc
  let entryType ← readOperand .entryType
  let code ← readListFrom Instruction.read codeLength 0
  let types ← readList typeCount TypeDescriptor.read
  let data ← readData
  let name ← readText
  let links ← readList linkCount Link.read
  let imports ← readImports flags
  let handlers ← readHandlers flags
  return { name, magic, flags, stackSize, code, types, dataSize, data, entryPc, entryType, links,
           imports, handlers }

theorem encode_eq (m : Module) : m.encode = joinChunks (m.frontChunks ++ m.sourceChunks) := by
  simp only [encode, frontChunks, List.append_assoc, List.cons_append, List.nil_append]

/-- The source path is read last. -/
theorem read_eq : read = readFront >>= fun m => readSourcePath >>= fun sourcePath =>
    pure { m with sourcePath } := by
  simp only [read, readFront, bind_assoc, pure_bind]

/-- **The front of a storable module is written and read back,** whatever follows it. -/
theorem coded_front (hmagic : m.magic = unsignedMagic) (h : m.Storable) :
    Coded Anything (joinChunks m.frontChunks) readFront { m with sourcePath := "" } := by
  have hcode : Coded Anything (joinChunks (m.code.map Instruction.encode))
      (readListFrom Instruction.read m.code.length 0) m.code :=
    coded_listFrom (fun i hi pc => coded_instruction (h.code i hi) pc) 0
  have htypes := coded_list fun d hd => coded_descriptor (h.types d hd)
  have hlinks := coded_list fun l hl => coded_link (h.links l hl)
  refine (coded_magic hmagic).cons ((coded_operand h.flags .runtimeFlags).cons
    ((coded_operand h.stackSize .stackSize).cons ((coded_count h.code_length .instruction).cons
    ((coded_operand h.dataSize .dataSize).cons ((coded_count h.types_length .typeDescriptor).cons
    ((coded_count h.links_length .link).cons ((coded_operand h.entryPc .entryPc).cons
    ((coded_operand h.entryType .entryType).cons ?_))))))))
  rw [Flags.ofInt_toInt]
  refine hcode.append (htypes.append ((coded_data h.data).append ((coded_text h.name).cons
    (hlinks.append ((coded_imports h).append ?_)))))
  exact (coded_handlers h).map fun handlers => { m with handlers, sourcePath := "" }

/-- **A storable module is written and read back.** -/
theorem coded_module (hmagic : m.magic = unsignedMagic) (h : m.Storable) :
    Coded (· = []) m.encode read m := by
  rw [encode_eq, read_eq]
  refine (coded_front hmagic h).append ?_
  exact (coded_sourcePath h.sourcePath).map fun sourcePath => { m with sourcePath }

/-! ## What was read -/

theorem yields_imports (flags : Flags) : Yields (readImports flags) fun groups =>
    (groups.length : Int) ≤ operandMax ∧ (∀ group ∈ groups, ImportGroup.Storable group) ∧
      (flags.contains Flags.imports = false → groups = []) := by
  unfold readImports
  cases hflag : flags.contains Flags.imports with
  | false => exact yields_pure ⟨by decide, by simp, fun _ => rfl⟩
  | true =>
    refine (yields_count _).bind fun count hcount => (yields_list yields_importGroup count).bind
      fun groups hgroups => Yields.after fun _ => yields_pure ⟨?_, hgroups.2, nofun⟩
    rw [hgroups.1]
    exact hcount

theorem yields_handlers (flags : Flags) : Yields (readHandlers flags) fun handlers =>
    (handlers.length : Int) ≤ operandMax ∧ (∀ h ∈ handlers, h.Storable) ∧
      (flags.contains Flags.handlers = false → handlers = []) := by
  unfold readHandlers
  cases hflag : flags.contains Flags.handlers with
  | false => exact yields_pure ⟨by decide, by simp, fun _ => rfl⟩
  | true =>
    refine (yields_count _).bind fun count hcount => (yields_list yields_handler count).bind
      fun handlers hhandlers => Yields.after fun _ => yields_pure ⟨?_, hhandlers.2, nofun⟩
    rw [hhandlers.1]
    exact hcount

theorem yields_sourcePath : Yields readSourcePath NulFree := by
  refine Yields.after fun c => ?_
  by_cases hend : c.rest = []
  · rw [if_pos hend]
    exact yields_pure (by decide)
  · rw [if_neg hend]
    exact yields_text

/-- Flags that come from a number with room in a file go back to it. -/
theorem toInt_ofInt_flags {v : Int} (h : Encodable v) : (Flags.ofInt v).toInt = v := by
  obtain ⟨hmin, hmax⟩ := h
  unfold operandMin at hmin
  unfold operandMax at hmax
  unfold Flags.ofInt Flags.toInt
  rw [BitVec.toInt_ofInt]
  apply Int.bmod_eq_of_le <;> omega

/-- **What was read is storable,** apart from the offsets of the data: one kind of item has its offset in
a word of its own, which holds more than the other numbers of a file. -/
theorem yields_module : Yields read fun m =>
    (∀ item ∈ m.data, Encodable item.offset) → m.Storable := by
  refine Yields.after fun magic => (yields_operand _).bind fun flags hflags =>
    (yields_operand _).bind fun stackSize hstackSize => (yields_count _).bind fun codeLength hcode =>
    (yields_operand _).bind fun dataSize hdataSize => (yields_count _).bind fun typeCount htypes =>
    (yields_count _).bind fun linkCount hlinks => (yields_operand _).bind fun entryPc hentryPc =>
    (yields_operand _).bind fun entryType hentryType =>
    (yields_listFrom yields_instruction codeLength 0).bind fun code hcode' =>
    (yields_list yields_descriptor typeCount).bind fun types htypes' => yields_sizes.bind fun data hdata =>
    yields_text.bind fun name hname => (yields_list yields_link linkCount).bind fun links hlinks' =>
    (yields_imports _).bind fun imports himports => (yields_handlers _).bind fun handlers hhandlers =>
    yields_sourcePath.bind fun sourcePath hsourcePath => yields_pure fun hoffsets => ?_
  rw [← hcode'.1] at hcode
  rw [← htypes'.1] at htypes
  rw [← hlinks'.1] at hlinks
  rw [← toInt_ofInt_flags hflags] at hflags
  exact {
    flags := hflags, stackSize := hstackSize, dataSize := hdataSize, entryPc := hentryPc
    entryType := hentryType, code_length := hcode, code := hcode'.2, types_length := htypes
    types := htypes'.2, data := fun item hitem => ⟨hoffsets item hitem, hdata item hitem⟩, name := hname
    links_length := hlinks, links := hlinks'.2, imports_length := himports.1, imports := himports.2.1
    imports_flag := himports.2.2, handlers_length := hhandlers.1, handlers := hhandlers.2.1
    handlers_flag := hhandlers.2.2, sourcePath := hsourcePath }

/-- The writer checks the offset of every item. -/
theorem encodable_offsets {bytes : Bytes} (h : m.encode = .ok bytes) :
    ∀ item ∈ m.data, Encodable item.offset := by
  intro item hitem
  have hmem : item.encode ∈ m.data.map DataItem.encode := List.mem_map_of_mem hitem
  obtain ⟨part, hpart⟩ := exists_chunk_of_joinChunks h item.encode (by simp [hmem])
  obtain ⟨number, hnumber⟩ := exists_chunk_of_joinChunks hpart (encodeOperand item.offset) (by simp)
  exact encodeOperand_ok_iff.mp ⟨number, hnumber⟩

theorem read_of_decode {bytes : Bytes} (h : decode bytes = .ok m) :
    ∃ c, read ⟨0, bytes⟩ = .ok (m, c) := by
  unfold decode StateT.run' at h
  cases hread : read ⟨0, bytes⟩ with
  | error e => rw [hread] at h; cases h
  | ok p => rw [hread] at h; cases h; exact ⟨p.2, rfl⟩

/-- **Exactly the storable modules survive their file.** An unsigned module is written, and what was
written is read back as the same module, if and only if everything in it has room in a file. -/
theorem decode_encode_iff (m : Module) (hmagic : m.magic = unsignedMagic) :
    (∃ bytes, m.encode = .ok bytes ∧ decode bytes = .ok m) ↔ m.Storable := by
  constructor
  · rintro ⟨bytes, hbytes, hdecode⟩
    obtain ⟨c, hread⟩ := read_of_decode hdecode
    exact yields_module _ m c hread (encodable_offsets hbytes)
  · intro h
    obtain ⟨bytes, hbytes, hreads⟩ := coded_module hmagic h
    refine ⟨bytes, hbytes, ?_⟩
    have hread := hreads 0 [] rfl
    rw [List.append_nil] at hread
    unfold decode StateT.run'
    rw [hread]
    rfl

/-- A module with every kind of part and with numbers at both ends of their range. -/
def brimming : Module where
  name := "brimming"
  flags := Flags.imports.union Flags.handlers
  stackSize := operandMax
  code := [⟨.addw, .mpIndirect operandMin 8, .fp 64, .fpIndirect 72 operandMax⟩, .plain .ret]
  types := [⟨0, operandMax, [192, 0]⟩]
  dataSize := operandMax
  data := [.words 0 [], .string 8 "seventeen bytes, ", .reals 16 [⟨0x7FF8000000000001⟩],
    .array operandMax 0 2, .index operandMin 1, .longs 0 [-1], .bytes 8 [0], .pop]
  entryPc := -1
  entryType := operandMin
  links := [⟨0, 0, 0xFFFFFFFF, "init"⟩]
  imports := [[], [⟨7, "print"⟩]]
  handlers := [⟨64, 0, 1, -1, -8192, [⟨"fail:*", 1⟩, ⟨"", -1⟩], operandMin⟩]

/-- `brimming` comes back from its file; with a scope one further than the limit it does not. -/
theorem decode_encode_brimming :
    brimming.magic = unsignedMagic ∧
    (∃ bytes, brimming.encode = .ok bytes ∧ decode bytes = .ok brimming) ∧
    ¬ ∃ bytes, { brimming with handlers := [⟨64, 0, 1, -1, 8192, [], 0⟩] }.encode = .ok bytes ∧
      decode bytes = .ok { brimming with handlers := [⟨64, 0, 1, -1, 8192, [], 0⟩] } := by
  refine ⟨rfl, (decode_encode_iff brimming rfl).mpr (by decide +kernel), ?_⟩
  rw [decode_encode_iff _ rfl]
  decide +kernel

end Module
end DisBackend
