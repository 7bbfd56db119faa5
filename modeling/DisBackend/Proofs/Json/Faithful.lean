import Mathlib.Logic.Relation
import DisBackend.Proofs.Json.Programs

/-!
# `Proofs.Json.Faithful` — the JSON forms of a program

A program has one JSON form that is written, and many that are read. Whatever form it was read from, the
program stays the same if fields come in another order, if there are more fields than are known, and if
fields are left out that hold what is assumed without them.

## Contents

* `PhiEdge.schema`, `Instr.kinds`, …, `Program.schema` — which fields there are, and which may be left out;
* `keeps_constant`, `keeps_instr`, …, `keeps_program` — the readers keep to the schema;
* `Instr.split?_edit` — an instruction after an edit is of the same kind;
* `Program.json_faithful` — what is written is read back, and edits do not matter.
-/

namespace DisBackend.Ssa

open Json

/-! ## Schemas -/

/-- An edge of a phi. -/
def PhiEdge.schema : Schema := .record [simple "block", simple "value"]

/-- The kinds of instructions. -/
def Instr.kinds : List (String × List (RecordField Schema)) := [
  ("const", [simple "dst", simple "value"]),
  ("math", [simple "dst", simple "operation", simple "lhs", simple "rhs"]),
  ("compare", [simple "dst", simple "comparison", simple "lhs", simple "rhs"]),
  ("phi", [simple "dst", simple "ty", needed "incoming" (.list PhiEdge.schema)]),
  ("load-global", [simple "dst", simple "global"]),
  ("store-global", [simple "global", simple "value"]),
  ("new", [simple "dst", needed "fields" (.list .leaf)]),
  ("load-field", [simple "dst", simple "ty", simple "object", simple "field"]),
  ("store-field", [simple "object", simple "field", simple "value"]),
  ("call", [absentable "dst", simple "callee", emptiable "arguments" .leaf]),
  ("call-native", [absentable "dst", simple "function", emptiable "arguments" .leaf]),
  ("jump", [simple "target"]),
  ("branch", [simple "condition", simple "then_block", simple "else_block"]),
  ("return", [absentable "value"])]

/-- An instruction. -/
def Instr.schema : Schema := .tagged "op" kinds

/-- A block. -/
def Block.schema : Schema := .record [needed "instructions" (.list Instr.schema)]

/-- A function. -/
def Function.schema : Schema :=
  .record [simple "name", emptiable "parameters" .leaf, absentable "result", emptiable "blocks" Block.schema]

/-- A global. -/
def Global.schema : Schema := .record [simple "name", simple "ty"]

/-- A program. -/
def Program.schema : Schema :=
  .record [simple "source-path", optional "entry" .leaf (.string "main"), emptiable "globals" Global.schema,
    emptiable "functions" Function.schema]

/-! ## Simple values -/

theorem readsRigid_named? {α : Type} {braces : Bool} {all : List α} {name : α → String} :
    ReadsRigid (named? braces all name) := by
  intro v x hx
  unfold named? at hx
  split at hx
  · exact rigid_string _
  · exact rigid_single rigid_null
  · exact rigid_single rigid_empty
  · cases hx

theorem readsRigid_constant : ReadsRigid Constant.ofJson? := by
  intro v c hc
  unfold Constant.ofJson? at hc
  have hone {α : Type} {name : String} {v : Value} {read : Value → Option α} {make : α → Constant}
      (hread : ReadsRigid read) (h : (read v).map make = some c) : Rigid (.object [(name, v)]) := by
    obtain ⟨x, hx, -⟩ := Option.map_eq_some_iff.mp h
    exact rigid_single (hread v x hx)
  split at hc
  · exact hone readsRigid_asInt64? hc
  · exact hone readsRigid_asDouble? hc
  · exact hone readsRigid_asBool? hc
  · exact hone readsRigid_asString? hc
  · cases hc

theorem readsRigid_value : ReadsRigid ValueId.ofJson? := readsRigid_asNat?.map ValueId.mk

theorem keeps_value : Keeps .leaf ValueId.ofJson? := keeps_leaf readsRigid_value

theorem keeps_block : Keeps .leaf BlockId.ofJson? := keeps_leaf (readsRigid_asNat?.map BlockId.mk)

theorem keeps_text : Keeps .leaf Value.asString? := keeps_leaf readsRigid_asString?

theorem keeps_number : Keeps .leaf Value.asNat? := keeps_leaf readsRigid_asNat?

theorem keeps_named {α : Type} {braces : Bool} {all : List α} {name : α → String} :
    Keeps .leaf (named? braces all name) := keeps_leaf readsRigid_named?

theorem keeps_constant : Keeps .leaf Constant.ofJson? := keeps_leaf readsRigid_constant

/-! ## Instructions -/

theorem keeps_phiEdge : Keeps PhiEdge.schema PhiEdge.ofJson? := by
  refine keeps_record (by decide) fun r r' h => ?_
  exact (h.simple keeps_block (by simp)).bind fun _ => (h.simple keeps_value (by simp)).bind fun _ =>
    Kept.refl _

namespace Instr

section Split

variable {v content : Value} {op : String} {names : List String} {r : Record}

theorem split?_object_iff {entries : List (String × Value)} :
    split? (.object entries) = some (op, content) ↔
      Sole entries "op" ∧ entries.lookup "op" = some (.string op) ∧
        .object (entries.filter fun entry => !entry.1 == "op") = content := by
  rw [← and_assoc, ← filter_eq_singleton_iff]
  unfold split?
  simp only [List.partition_eq_filter_filter]
  constructor
  · intro h
    split at h
    · rename_i name op' others heq
      cases h
      rw [Prod.mk.injEq] at heq
      have hname : (name, Value.string op) ∈ entries.filter (·.1 == "op") := by
        rw [heq.1]
        exact List.mem_singleton_self _
      obtain rfl : name = "op" := beq_iff_eq.mp (List.mem_filter.mp hname).2
      exact ⟨heq.1, congrArg Value.object heq.2⟩
    · cases h
  · rintro ⟨hfilter, rfl⟩
    rw [hfilter]
    rfl

theorem split?_array_iff {elements : List Value} :
    split? (.array elements) = some (op, content) ↔
      ∃ others, elements = .string op :: others ∧ .array others = content := by
  constructor
  · intro h
    unfold split? at h
    split at h
    · rename_i heq
      cases heq
    · rename_i heq
      cases heq
      cases h
      exact ⟨_, rfl, rfl⟩
    · cases h
  · rintro ⟨others, rfl, rfl⟩
    rfl

/-- Without its kind, an instruction has the same fields. -/
theorem untagged_eq (entries : List (String × Value)) {name : String} (h : name ≠ "op") :
    (Sole (entries.filter fun entry => !entry.1 == "op") name ↔ Sole entries name) ∧
      (entries.filter fun entry => !entry.1 == "op").lookup name = entries.lookup name := by
  have hkept : (!name == "op") = true := by simp [h]
  refine ⟨?_, lookup_filter (p := fun name => !name == "op") hkept⟩
  unfold Sole
  rw [count_filter_fst (p := fun name => !name == "op"), if_pos hkept]

theorem kind_of_split? {kind : String} (h : split? v = some (op, content)) (hkind : v.IsKind "op" kind) :
    kind = op := by
  cases v with
  | object entries =>
    obtain ⟨hsole, hlookup, -⟩ := split?_object_iff.mp h
    have hlookup' := (lookup_eq_some_iff_mem hsole).mpr hkind
    rw [hlookup] at hlookup'
    cases hlookup'
    rfl
  | array elements =>
    obtain ⟨others, rfl, -⟩ := split?_array_iff.mp h
    cases hkind
    rfl
  | _ => cases hkind

/-- The kind of an instruction is one more field of it. -/
theorem asRecord?_of_split? (hop : "op" ∉ names) (hsplit : split? v = some (op, content))
    (hr : content.asRecord? names = some r) :
    ∃ whole, v.asRecord? ("op" :: names) = some whole ∧ whole.lookup "op" = some (.string op) ∧
      ∀ name ∈ names, whole.lookup name = r.lookup name := by
  have hne {name : String} (h : name ∈ names) : name ≠ "op" := ne_of_mem_of_not_mem h hop
  cases v with
  | object entries =>
    obtain ⟨hsole, hlookup, rfl⟩ := split?_object_iff.mp hsplit
    obtain ⟨hothers, rfl⟩ := asRecord?_object_iff.mp hr
    refine ⟨_, asRecord?_object_iff.mpr ⟨List.forall_mem_cons.mpr ⟨hsole, ?_⟩, rfl⟩, ?_, ?_⟩
    · exact fun name hname => (untagged_eq entries (hne hname)).1.mp (hothers name hname)
    · rwa [lookup_filter (List.contains_iff_mem.mpr List.mem_cons_self)]
    · intro name hname
      rw [lookup_filter (List.contains_iff_mem.mpr (List.mem_cons_of_mem _ hname)),
        lookup_filter (List.contains_iff_mem.mpr hname), (untagged_eq entries (hne hname)).2]
  | array elements =>
    obtain ⟨others, rfl, rfl⟩ := split?_array_iff.mp hsplit
    obtain ⟨hlength, rfl⟩ := asRecord?_array_iff.mp hr
    refine ⟨_, asRecord?_array_iff.mpr ⟨Nat.succ_le_succ hlength, rfl⟩, List.lookup_cons_self, ?_⟩
    intro name hname
    rw [List.zip_cons_cons, List.lookup_cons, beq_eq_false_iff_ne.mpr (hne hname)]
  | _ => cases hsplit

theorem split?_of_asRecord? {whole : Record} (hop : "op" ∉ names)
    (hwhole : v.asRecord? ("op" :: names) = some whole) (htag : whole.lookup "op" = some (.string op)) :
    ∃ content r, split? v = some (op, content) ∧ content.asRecord? names = some r ∧
      ∀ name ∈ names, r.lookup name = whole.lookup name := by
  have hne {name : String} (h : name ∈ names) : name ≠ "op" := ne_of_mem_of_not_mem h hop
  cases v with
  | object entries =>
    obtain ⟨hsole, rfl⟩ := asRecord?_object_iff.mp hwhole
    obtain ⟨hsole, hothers⟩ := List.forall_mem_cons.mp hsole
    rw [lookup_filter (List.contains_iff_mem.mpr List.mem_cons_self)] at htag
    refine ⟨_, _, split?_object_iff.mpr ⟨hsole, htag, rfl⟩, asRecord?_object_iff.mpr ⟨?_, rfl⟩, ?_⟩
    · exact fun name hname => (untagged_eq entries (hne hname)).1.mpr (hothers name hname)
    · intro name hname
      rw [lookup_filter (List.contains_iff_mem.mpr (List.mem_cons_of_mem _ hname)),
        lookup_filter (List.contains_iff_mem.mpr hname), (untagged_eq entries (hne hname)).2]
  | array elements =>
    obtain ⟨hlength, rfl⟩ := asRecord?_array_iff.mp hwhole
    cases elements with
    | nil => cases htag
    | cons element others =>
      rw [List.zip_cons_cons, List.lookup_cons_self] at htag
      cases htag
      refine ⟨_, _, split?_array_iff.mpr ⟨others, rfl, rfl⟩,
        asRecord?_array_iff.mpr ⟨Nat.le_of_succ_le_succ hlength, rfl⟩, fun name hname => ?_⟩
      rw [List.zip_cons_cons, List.lookup_cons, beq_eq_false_iff_ne.mpr (hne hname)]
  | _ => cases hwhole

end Split

/-- **An instruction after an edit is of the same kind**, and the same up to edits in its fields. -/
theorem split?_edit {fields : List (RecordField Schema)} {v v' content : Value} {op : String} {r : Record}
    (hnodup : ("op" :: fields.map RecordField.name).Nodup)
    (hedit : Edit (.record (simple "op" :: fields)) v v')
    (hsplit : split? v = some (op, content)) (hr : content.asRecord? (fields.map RecordField.name) = some r) :
    ∃ content' r', split? v' = some (op, content') ∧
      content'.asRecord? (fields.map RecordField.name) = some r' ∧ Agree fields r r' := by
  have hop := (List.nodup_cons.mp hnodup).1
  have hnodup' : ((simple "op" :: fields).map RecordField.name).Nodup := hnodup
  obtain ⟨whole, hwhole, htag, hothers⟩ := asRecord?_of_split? hop hsplit hr
  obtain ⟨whole', hwhole', hagree⟩ := asRecord?_edit hnodup' hedit hwhole
  -- a text does not change, and the kind cannot be left out
  have htag' : whole'.lookup "op" = some (.string op) := by
    have hbecomes : Becomes (simple "op") (whole.lookup "op") (whole'.lookup "op") :=
      hagree _ List.mem_cons_self
    rw [htag] at hbecomes
    generalize whole'.lookup "op" = tag? at hbecomes
    cases hbecomes with
    | same => rfl
    | edited edit =>
      cases edit with
      | shuffle shuffle => cases shuffle
    | leftOut omitted => cases omitted
  obtain ⟨content', r', hsplit', hr', hothers'⟩ := split?_of_asRecord? hop hwhole' htag'
  refine ⟨content', r', hsplit', hr', fun f hf => ?_⟩
  rw [← hothers _ (List.mem_map_of_mem hf), hothers' _ (List.mem_map_of_mem hf)]
  exact hagree f (List.mem_cons_of_mem _ hf)

theorem fieldNames?_eq (op : String) :
    fieldNames? op = (kinds.lookup op).map (List.map RecordField.name) := by
  unfold fieldNames?
  split
  case h_15 =>
    have hnone : kinds.lookup op = none := by
      rw [List.lookup_eq_none_iff]
      simp_all [kinds]
    rw [hnone, Option.map_none]
  all_goals rfl

/-- No kind is listed twice. -/
theorem lookup_kinds {op : String} {fields : List (RecordField Schema)} :
    kinds.lookup op = some fields ↔ (op, fields) ∈ kinds := by
  have hnodup : (kinds.map Prod.fst).Nodup := by decide
  exact lookup_eq_some_iff_mem (List.nodup_iff_count_le_one.mp hnodup op)

/-- No kind has two fields of one name. -/
theorem nodup_kinds {op : String} {fields : List (RecordField Schema)} (h : (op, fields) ∈ kinds) :
    ("op" :: fields.map RecordField.name).Nodup := by
  have hall : ∀ kind ∈ kinds, ("op" :: kind.2.map RecordField.name).Nodup := by decide
  exact hall (op, fields) h

/-- An instruction of a given kind is read by its fields. -/
theorem kept_ofRecord? {op : String} {fields : List (RecordField Schema)} {r r' : Record}
    (hkind : (op, fields) ∈ kinds) (h : Agree fields r r') : Kept (ofRecord? op r) (ofRecord? op r') := by
  have hvalue (name : String) (hf : simple name ∈ fields) := h.simple keeps_value hf
  have hblock (name : String) (hf : simple name ∈ fields) := h.simple keeps_block hf
  have htext (name : String) (hf : simple name ∈ fields) := h.simple keeps_text hf
  have hnumber (name : String) (hf : simple name ∈ fields) := h.simple keeps_number hf
  -- one case for each kind, and in it one step for each field, in the order in which they are read
  simp only [kinds, List.mem_cons, Prod.mk.injEq, List.not_mem_nil, or_false] at hkind
  rcases hkind with ⟨rfl, rfl⟩ | ⟨rfl, rfl⟩ | ⟨rfl, rfl⟩ | ⟨rfl, rfl⟩ | ⟨rfl, rfl⟩ | ⟨rfl, rfl⟩ | ⟨rfl, rfl⟩ |
    ⟨rfl, rfl⟩ | ⟨rfl, rfl⟩ | ⟨rfl, rfl⟩ | ⟨rfl, rfl⟩ | ⟨rfl, rfl⟩ | ⟨rfl, rfl⟩ | ⟨rfl, rfl⟩
  · exact (hvalue "dst" (by simp)).bind fun _ => (h.simple keeps_constant (by simp)).bind fun _ =>
      Kept.refl _
  · exact (hvalue "dst" (by simp)).bind fun _ => (h.simple keeps_named (by simp)).bind fun _ =>
      (hvalue "lhs" (by simp)).bind fun _ => (hvalue "rhs" (by simp)).bind fun _ => Kept.refl _
  · exact (hvalue "dst" (by simp)).bind fun _ => (h.simple keeps_named (by simp)).bind fun _ =>
      (hvalue "lhs" (by simp)).bind fun _ => (hvalue "rhs" (by simp)).bind fun _ => Kept.refl _
  · exact (hvalue "dst" (by simp)).bind fun _ => (h.simple keeps_named (by simp)).bind fun _ =>
      (h.required (by simp) (keeps_list keeps_phiEdge)).bind fun _ => Kept.refl _
  · exact (hvalue "dst" (by simp)).bind fun _ => (htext "global" (by simp)).bind fun _ => Kept.refl _
  · exact (htext "global" (by simp)).bind fun _ => (hvalue "value" (by simp)).bind fun _ => Kept.refl _
  · exact (hvalue "dst" (by simp)).bind fun _ => (h.required (by simp) (keeps_list keeps_named)).bind fun _ =>
      Kept.refl _
  · exact (hvalue "dst" (by simp)).bind fun _ => (h.simple keeps_named (by simp)).bind fun _ =>
      (hvalue "object" (by simp)).bind fun _ => (hnumber "field" (by simp)).bind fun _ => Kept.refl _
  · exact (hvalue "object" (by simp)).bind fun _ => (hnumber "field" (by simp)).bind fun _ =>
      (hvalue "value" (by simp)).bind fun _ => Kept.refl _
  · exact (h.absentable readsRigid_value (by simp)).bind fun _ => (htext "callee" (by simp)).bind fun _ =>
      (h.emptiable keeps_value (by simp)).bind fun _ => Kept.refl _
  · exact (h.absentable readsRigid_value (by simp)).bind fun _ => (htext "function" (by simp)).bind fun _ =>
      (h.emptiable keeps_value (by simp)).bind fun _ => Kept.refl _
  · exact (hblock "target" (by simp)).bind fun _ => Kept.refl _
  · exact (hvalue "condition" (by simp)).bind fun _ => (hblock "then_block" (by simp)).bind fun _ =>
      (hblock "else_block" (by simp)).bind fun _ => Kept.refl _
  · exact (h.absentable readsRigid_value (by simp)).bind fun _ => Kept.refl _

/-- **Edits of an instruction do not matter.** -/
theorem keeps_instr : Keeps schema ofJson? := by
  intro v v' hedit i hi
  unfold ofJson? at hi ⊢
  obtain ⟨⟨op, content⟩, hsplit, hrest⟩ := Option.bind_eq_some_iff.mp hi
  obtain ⟨names, hnames, hrest⟩ := Option.bind_eq_some_iff.mp hrest
  obtain ⟨r, hr, hread⟩ := Option.bind_eq_some_iff.mp hrest
  obtain ⟨fields, hfields, rfl⟩ := Option.map_eq_some_iff.mp ((fieldNames?_eq op).symm.trans hnames)
  have hkind : (op, fields) ∈ kinds := lookup_kinds.mp hfields
  have hinner : Edit (.record (simple "op" :: fields)) v v' := by
    cases hedit with
    | shuffle shuffle => exact .shuffle shuffle
    | kind known isKind inner =>
      obtain rfl := kind_of_split? hsplit isKind
      rw [lookup_kinds.mpr known] at hfields
      cases hfields
      exact inner
  obtain ⟨content', r', hsplit', hr', hagree⟩ := split?_edit (nodup_kinds hkind) hinner hsplit hr
  refine Option.bind_eq_some_iff.mpr ⟨(op, content'), hsplit', ?_⟩
  refine Option.bind_eq_some_iff.mpr ⟨fields.map RecordField.name, hnames, ?_⟩
  exact Option.bind_eq_some_iff.mpr ⟨r', hr', kept_ofRecord? hkind hagree i hread⟩

end Instr

/-! ## The whole -/

theorem keeps_basicBlock : Keeps Block.schema Block.ofJson? := by
  refine keeps_record (by decide) fun r r' h => ?_
  exact (h.required (by simp) (keeps_list Instr.keeps_instr)).bind fun _ => Kept.refl _

theorem keeps_function : Keeps Function.schema Function.ofJson? := by
  refine keeps_record (by decide) fun r r' h => ?_
  exact (h.simple keeps_text (by simp)).bind fun _ => (h.emptiable keeps_named (by simp)).bind fun _ =>
    (h.absentable readsRigid_named? (by simp)).bind fun _ =>
    (h.emptiable keeps_basicBlock (by simp)).bind fun _ => Kept.refl _

theorem keeps_global : Keeps Global.schema Global.ofJson? := by
  refine keeps_record (by decide) fun r r' h => ?_
  exact (h.simple keeps_text (by simp)).bind fun _ => (h.simple keeps_named (by simp)).bind fun _ =>
    Kept.refl _

theorem keeps_program : Keeps Program.schema Program.ofJson? := by
  refine keeps_record (by decide) fun r r' h => ?_
  exact (h.simple keeps_text (by simp)).bind fun _ =>
    (h.optional (List.mem_cons_of_mem _ List.mem_cons_self) keeps_text rfl).bind fun _ =>
    (h.emptiable keeps_global (by simp)).bind fun _ =>
    (h.emptiable keeps_function (by simp)).bind fun _ => Kept.refl _

namespace Program

/-- **The JSON form of a program loses nothing.** What is written is read back as the same program, if and
only if all numbers fit 64 bits and all reals are finite. And what is read as a program, in whatever form,
is read as the same program after any number of changes that do not matter: fields in another order,
fields that are not known, and fields left out that hold what is assumed without them. -/
theorem json_faithful (p : Program) :
    (ofJson? p.toJson = some p ↔ p.Portable) ∧
    ∀ j j', Relation.ReflTransGen (Edit schema) j j' → ofJson? j = some p → ofJson? j' = some p := by
  refine ⟨ofJson?_toJson, fun j j' hedits hj => ?_⟩
  induction hedits with
  | refl => exact hj
  | tail _ hedit ih => exact keeps_program _ _ hedit p ih

/-- A program that does nothing. -/
def idle : Program where
  sourcePath := "idle.go"
  entry := "main"
  globals := []
  functions := [⟨"main", [], none, [⟨[.const ⟨0⟩ (.real ⟨0x3FF0000000000000⟩), .ret none]⟩]⟩]

/-- The return of `idle` with some of its fields. -/
def idleReturn (rest : List (String × Value)) : Value := .object (("op", .string "return") :: rest)

/-- The functions of `idle`. -/
def idleFunctions (last : Value) : Value :=
  .array [.object [("name", .string "main"), ("parameters", .array []), ("result", .null),
    ("blocks", .array [.object [("instructions",
      .array [(Instr.const ⟨0⟩ (.real ⟨0x3FF0000000000000⟩)).toJson, last])]])]]

/-- The JSON form of `idle` with some of its fields. -/
def idleJson (rest : List (String × Value)) (last : Value) : Value :=
  .object (("source-path", .string "idle.go") :: rest ++ [("functions", idleFunctions last)])

theorem idleJson_edit (rest : List (String × Value)) {last last' : Value} (h : Edit Instr.schema last last') :
    Edit schema (idleJson rest last) (idleJson rest last') := by
  -- from the program to its function, its block and the second of its instructions
  refine @Edit.entry _ (("source-path", _) :: rest) [] (emptiable "functions" Function.schema) _ _
    (by simp) ?_
  refine @Edit.element _ [] [] _ _ (@Edit.entry _ [("name", _), ("parameters", _), ("result", _)] []
    (emptiable "blocks" Block.schema) _ _ (by simp) ?_)
  refine @Edit.element _ [] [] _ _ (@Edit.entry _ [] [] (needed "instructions" (.list Instr.schema)) _ _
    (by simp) ?_)
  exact @Edit.element _ [_] [] _ _ h

/-- Two fields of `idle` and one of its return are left out, the return gets a line number, and the
functions come first. -/
theorem json_faithful_idle :
    idle.Portable ∧
    Relation.ReflTransGen (Edit schema) idle.toJson (.object
      [("functions", idleFunctions (idleReturn [("line", .int 7)])), ("source-path", .string "idle.go")]) ∧
    ofJson? (.object
      [("functions", idleFunctions (idleReturn [("line", .int 7)])), ("source-path", .string "idle.go")]) =
      some idle := by
  have hportable : idle.Portable := by
    simp [Portable, idle, Instr.Portable, Constant.Portable, ValueId.Portable, Fits]
    decide
  have hentry : Edit schema idle.toJson (idleJson [("globals", .array [])] (idleReturn [("value", .null)])) :=
    @Edit.leaveOut _ [("source-path", _)] _ (optional "entry" .leaf (.string "main")) _ (by simp) rfl
  have hglobals : Edit schema (idleJson [("globals", .array [])] (idleReturn [("value", .null)]))
      (idleJson [] (idleReturn [("value", .null)])) :=
    @Edit.leaveOut _ [("source-path", _)] _ (emptiable "globals" Global.schema) _ (by simp) rfl
  have hvalue : Edit Instr.schema (idleReturn [("value", .null)]) (idleReturn []) :=
    .kind (List.mem_of_getElem? (i := 13) rfl) List.mem_cons_self
      (@Edit.leaveOut _ [("op", _)] [] (absentable "value") _ (by simp) rfl)
  have hline : Edit Instr.schema (idleReturn []) (idleReturn [("line", .int 7)]) :=
    .kind (List.mem_of_getElem? (i := 13) rfl) List.mem_cons_self
      (@Edit.extend _ [("op", _)] [] "line" _ (by decide))
  have hedits := ((((Relation.ReflTransGen.single hentry).tail hglobals).tail (idleJson_edit [] hvalue)).tail
    (idleJson_edit [] hline)).tail (.shuffle (.keys (.swap _ _ [])))
  obtain ⟨hwritten, hread⟩ := json_faithful idle
  exact ⟨hportable, hedits, hread _ _ hedits (hwritten.mpr hportable)⟩

end Program

end DisBackend.Ssa
