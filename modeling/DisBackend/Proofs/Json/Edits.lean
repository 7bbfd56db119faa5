import Mathlib.Data.List.Nodup
import DisBackend.Json.Value

/-!
# `Proofs.Json.Edits` — changes that do not matter

The same thing has many JSON forms. The fields of an object come in any order, fields that are not known
are ignored, and some fields may be left out if they hold the expected value. A `Schema` says which values
have which fields, and an `Edit` is one such change, anywhere in a value.

A reader keeps to a schema if no edit changes its answer. Records, lists and tagged records are read by
their parts, so that it is enough to look at the parts.

## Contents

* `Shuffle`, `Schema`, `Edit` — the changes;
* `Sole`, `lookup_zip`, … — finding a field of a record;
* `Becomes`, `Agree`, `asRecord?_edit` — a record after an edit of its value;
* `Kept`, `Keeps`, `keeps_leaf`, `keeps_list`, `keeps_record` — readers that keep to a schema.
-/

namespace DisBackend.Json

/-! ## Schemas and edits -/

/-- The fields of one object, somewhere in the value, come in another order. -/
inductive Shuffle : Value → Value → Prop where
  | keys {entries entries' : List (String × Value)} (perm : entries.Perm entries') :
      Shuffle (.object entries) (.object entries')
  | entry {before after : List (String × Value)} {name : String} {v v' : Value} (inner : Shuffle v v') :
      Shuffle (.object (before ++ (name, v) :: after)) (.object (before ++ (name, v') :: after))
  | element {before after : List Value} {v v' : Value} (inner : Shuffle v v') :
      Shuffle (.array (before ++ v :: after)) (.array (before ++ v' :: after))

/-- A field of a record. -/
structure RecordField (σ : Type) where
  name : String
  /-- What the field holds. -/
  schema : σ
  /-- The value with which the field may be left out. -/
  omitted : Option Value

/-- The form of a value. -/
inductive Schema where
  /-- A value without fields that may be added or left out. -/
  | leaf
  /-- An array of values of one form. -/
  | list (element : Schema)
  /-- An object with the given fields, or an array of their values in order. -/
  | record (fields : List (RecordField Schema))
  /-- A record with one more field, the first, that names the kind of the record. -/
  | tagged (tag : String) (kinds : List (String × List (RecordField Schema)))

/-- A field that must be there. -/
def needed (name : String) (schema : Schema) : RecordField Schema := ⟨name, schema, none⟩

/-- A field that may be left out if it holds a certain value. -/
def optional (name : String) (schema : Schema) (omitted : Value) : RecordField Schema :=
  ⟨name, schema, some omitted⟩

/-- A field with a simple value. -/
def simple (name : String) : RecordField Schema := needed name .leaf

/-- A simple value that may be absent. -/
def absentable (name : String) : RecordField Schema := optional name .leaf .null

/-- A list that may be empty. -/
def emptiable (name : String) (element : Schema) : RecordField Schema :=
  optional name (.list element) (.array [])

/-- The value names its kind. -/
def Value.IsKind (tag kind : String) : Value → Prop
  | .object entries => (tag, .string kind) ∈ entries
  | .array elements => elements.head? = some (.string kind)
  | _ => False

/-- One change, somewhere in a value of the given form, that does not matter. -/
inductive Edit : Schema → Value → Value → Prop where
  /-- Fields come in another order. -/
  | shuffle {schema : Schema} {v v' : Value} (shuffle : Shuffle v v') : Edit schema v v'
  /-- There is a field more that is not known. -/
  | extend {fields : List (RecordField Schema)} {before after : List (String × Value)} {name : String}
      {v : Value} (unknown : name ∉ fields.map RecordField.name) :
      Edit (.record fields) (.object (before ++ after)) (.object (before ++ (name, v) :: after))
  /-- A field is left out. -/
  | leaveOut {fields : List (RecordField Schema)} {before after : List (String × Value)}
      {f : RecordField Schema} {v : Value} (known : f ∈ fields) (omitted : f.omitted = some v) :
      Edit (.record fields) (.object (before ++ (f.name, v) :: after)) (.object (before ++ after))
  /-- A change in a field. -/
  | entry {fields : List (RecordField Schema)} {before after : List (String × Value)}
      {f : RecordField Schema} {v v' : Value} (known : f ∈ fields) (inner : Edit f.schema v v') :
      Edit (.record fields) (.object (before ++ (f.name, v) :: after))
        (.object (before ++ (f.name, v') :: after))
  /-- A change in a field of a record that is an array. -/
  | place {fields : List (RecordField Schema)} {before after : List Value} {f : RecordField Schema}
      {v v' : Value} (known : fields[before.length]? = some f) (inner : Edit f.schema v v') :
      Edit (.record fields) (.array (before ++ v :: after)) (.array (before ++ v' :: after))
  /-- A change in an element of a list. -/
  | element {schema : Schema} {before after : List Value} {v v' : Value} (inner : Edit schema v v') :
      Edit (.list schema) (.array (before ++ v :: after)) (.array (before ++ v' :: after))
  /-- A change in a record of a certain kind. -/
  | kind {tag kind : String} {kinds : List (String × List (RecordField Schema))}
      {fields : List (RecordField Schema)} {v v' : Value} (known : (kind, fields) ∈ kinds)
      (isKind : v.IsKind tag kind) (inner : Edit (.record (simple tag :: fields)) v v') :
      Edit (.tagged tag kinds) v v'

/-! ## Fields of a record -/

section Entries

variable {β : Type} {entries entries' before after : List (String × β)} {name other : String} {v : β}

/-- At most one entry has the name. -/
def Sole (entries : List (String × β)) (name : String) : Prop := (entries.map Prod.fst).count name ≤ 1

theorem lookup_eq_none_iff_count : entries.lookup name = none ↔ (entries.map Prod.fst).count name = 0 := by
  rw [List.lookup_eq_none_iff, List.count_eq_zero, List.mem_map]
  constructor
  · rintro h ⟨p, hp, rfl⟩
    exact bne_iff_ne.mp (h p hp) rfl
  · intro h p hp
    exact bne_iff_ne.mpr fun heq => h ⟨p, hp, heq.symm⟩

theorem count_insert : ((before ++ (other, v) :: after).map Prod.fst).count name =
    ((before ++ after).map Prod.fst).count name + if other = name then 1 else 0 := by
  simp only [List.map_append, List.map_cons, List.count_append, List.count_cons, beq_iff_eq, Nat.add_assoc]

theorem lookup_insert_of_ne (h : name ≠ other) :
    (before ++ (other, v) :: after).lookup name = (before ++ after).lookup name := by
  rw [List.lookup_append, List.lookup_append, List.lookup_cons, beq_eq_false_iff_ne.mpr h]

theorem lookup_insert_self (h : Sole (before ++ (name, v) :: after) name) :
    (before ++ (name, v) :: after).lookup name = some v ∧ (before ++ after).lookup name = none := by
  unfold Sole at h
  rw [count_insert, if_pos rfl] at h
  have hnone : (before ++ after).lookup name = none := lookup_eq_none_iff_count.mpr (by omega)
  refine ⟨?_, hnone⟩
  rw [List.lookup_append, Option.or_eq_none_iff] at hnone
  rw [List.lookup_append, hnone.1, List.lookup_cons_self, Option.none_or]

/-- To find an entry is to have it, if there is only one with the name. -/
theorem lookup_eq_some_iff_mem (h : Sole entries name) :
    entries.lookup name = some v ↔ (name, v) ∈ entries := by
  constructor
  · intro hlookup
    obtain ⟨before, after, rfl, -⟩ := List.lookup_eq_some_iff.mp hlookup
    exact List.mem_append_right before List.mem_cons_self
  · intro hmem
    obtain ⟨before, after, rfl⟩ := List.append_of_mem hmem
    exact (lookup_insert_self h).1

theorem sole_perm (h : entries.Perm entries') : Sole entries name ↔ Sole entries' name := by
  unfold Sole
  rw [(h.map Prod.fst).count_eq]

/-- The order does not matter if there is only one entry with the name. -/
theorem lookup_perm (h : entries.Perm entries') (hsole : Sole entries name) :
    entries.lookup name = entries'.lookup name := by
  ext v
  rw [lookup_eq_some_iff_mem hsole, lookup_eq_some_iff_mem ((sole_perm h).mp hsole), h.mem_iff]

/-- Among the entries with certain names. -/
theorem lookup_filter {p : String → Bool} (h : p name = true) :
    (entries.filter (p ·.1)).lookup name = entries.lookup name := by
  induction entries with
  | nil => rfl
  | cons entry entries ih =>
    rw [List.lookup_cons, List.filter_cons]
    by_cases heq : name = entry.1
    · rw [if_pos (heq ▸ h), List.lookup_cons, beq_iff_eq.mpr heq]
    · rw [beq_eq_false_iff_ne.mpr heq]
      split
      · rw [List.lookup_cons, beq_eq_false_iff_ne.mpr heq]
        exact ih
      · exact ih

theorem count_filter_fst {p : String → Bool} :
    ((entries.filter (p ·.1)).map Prod.fst).count name =
      if p name then (entries.map Prod.fst).count name else 0 := by
  have hmap : (entries.filter (p ·.1)).map Prod.fst = (entries.map Prod.fst).filter p := by
    rw [List.filter_map]
    rfl
  rw [hmap]
  split
  · exact List.count_filter ‹_›
  · refine List.count_eq_zero.mpr fun hmem => ?_
    exact absurd (List.mem_filter.mp hmem).2 ‹_›

/-- There is exactly one entry with the name. -/
theorem filter_eq_singleton_iff :
    entries.filter (·.1 == name) = [(name, v)] ↔ Sole entries name ∧ entries.lookup name = some v := by
  have hlength : (entries.map Prod.fst).count name = (entries.filter (·.1 == name)).length := by
    rw [List.count, List.countP_map, List.countP_eq_length_filter]
    rfl
  have hmem : (name, v) ∈ entries ↔ (name, v) ∈ entries.filter (·.1 == name) := by
    rw [List.mem_filter, and_iff_left (beq_self_eq_true name)]
  constructor
  · intro h
    have hsole : Sole entries name := Nat.le_of_eq (by rw [hlength, h, List.length_singleton])
    refine ⟨hsole, (lookup_eq_some_iff_mem hsole).mpr (hmem.mpr ?_)⟩
    rw [h]
    exact List.mem_singleton_self _
  · rintro ⟨hsole, hv⟩
    rw [lookup_eq_some_iff_mem hsole, hmem] at hv
    unfold Sole at hsole
    rw [hlength] at hsole
    obtain ⟨entry, hentry⟩ := List.length_eq_one_iff.mp (Nat.le_antisymm hsole (List.length_pos_of_mem hv))
    rw [hentry, List.mem_singleton] at hv
    rw [hentry, hv]

variable {names : List String}

theorem nodup_known_iff :
    ((entries.filter (names.contains ·.1)).map Prod.fst).Nodup ↔ ∀ name ∈ names, Sole entries name := by
  rw [List.nodup_iff_count_le_one]
  refine forall_congr' fun name => ?_
  rw [count_filter_fst]
  by_cases h : name ∈ names
  · rw [if_pos (List.contains_iff_mem.mpr h)]
    exact ⟨fun hcount _ => hcount, fun hsole => hsole h⟩
  · rw [if_neg (mt List.contains_iff_mem.mp h)]
    exact ⟨fun _ hmem => absurd hmem h, fun _ => Nat.zero_le 1⟩

/-- In an array the fields come in order. -/
theorem lookup_zip {elements : List β} {i : Nat} (hnodup : names.Nodup) (h : names[i]? = some name) :
    (names.zip elements).lookup name = elements[i]? := by
  induction names generalizing elements i with
  | nil => cases h
  | cons first names ih =>
    obtain ⟨hfirst, hnodup⟩ := List.nodup_cons.mp hnodup
    cases elements with
    | nil => rfl
    | cons element elements =>
      rw [List.zip_cons_cons, List.lookup_cons]
      cases i with
      | zero =>
        cases h
        rw [beq_self_eq_true]
        rfl
      | succ i =>
        have hne : name ≠ first := by
          rintro rfl
          exact hfirst (List.mem_of_getElem? h)
        rw [beq_eq_false_iff_ne.mpr hne]
        exact ih hnodup h

theorem asRecord?_object_iff {entries : List (String × Value)} {r : Record} :
    (Value.object entries).asRecord? names = some r ↔
      (∀ name ∈ names, Sole entries name) ∧ entries.filter (names.contains ·.1) = r := by
  show ite _ _ _ = _ ↔ _
  rw [Option.ite_none_right_eq_some, nodup_known_iff, Option.some.injEq]

theorem asRecord?_array_iff {elements : List Value} {r : Record} :
    (Value.array elements).asRecord? names = some r ↔
      elements.length ≤ names.length ∧ names.zip elements = r := by
  show ite _ _ _ = _ ↔ _
  rw [Option.ite_none_right_eq_some, Option.some.injEq]

end Entries

/-! ## Records after an edit -/

/-- What a field of a record may be after an edit. -/
inductive Becomes (f : RecordField Schema) : Option Value → Option Value → Prop where
  | same {v? : Option Value} : Becomes f v? v?
  | edited {v v' : Value} (edit : Edit f.schema v v') : Becomes f (some v) (some v')
  | leftOut {v : Value} (omitted : f.omitted = some v) : Becomes f (some v) none

/-- Two records are the same up to edits in the fields. -/
def Agree (fields : List (RecordField Schema)) (r r' : Record) : Prop :=
  ∀ f ∈ fields, Becomes f (r.lookup f.name) (r'.lookup f.name)

section Records

variable {fields : List (RecordField Schema)} {r : Record}

/-- A record that is an object: for each field by itself. -/
theorem asRecord?_object {entries entries' : List (String × Value)}
    (hr : (Value.object entries).asRecord? (fields.map RecordField.name) = some r)
    (h : ∀ f ∈ fields, Sole entries f.name →
      Sole entries' f.name ∧ Becomes f (entries.lookup f.name) (entries'.lookup f.name)) :
    ∃ r', (Value.object entries').asRecord? (fields.map RecordField.name) = some r' ∧ Agree fields r r' := by
  obtain ⟨hsole, rfl⟩ := asRecord?_object_iff.mp hr
  have hsole' : ∀ name ∈ fields.map RecordField.name, Sole entries' name :=
    List.forall_mem_map.mpr fun f hf => (h f hf (hsole f.name (List.mem_map_of_mem hf))).1
  refine ⟨_, asRecord?_object_iff.mpr ⟨hsole', rfl⟩, fun f hf => ?_⟩
  have hname := List.mem_map_of_mem (f := RecordField.name) hf
  rw [lookup_filter (List.contains_iff_mem.mpr hname), lookup_filter (List.contains_iff_mem.mpr hname)]
  exact (h f hf (hsole f.name hname)).2

/-- A change in one field of an object. The field need not be known. -/
theorem asRecord?_entry {before after : List (String × Value)} {name : String} {v v' : Value}
    (hr : (Value.object (before ++ (name, v) :: after)).asRecord? (fields.map RecordField.name) = some r)
    (h : ∀ f ∈ fields, f.name = name → Edit f.schema v v') :
    ∃ r', (Value.object (before ++ (name, v') :: after)).asRecord? (fields.map RecordField.name) = some r' ∧
      Agree fields r r' := by
  refine asRecord?_object hr fun f hf hsole => ?_
  have hsole' : Sole (before ++ (name, v') :: after) f.name := by
    unfold Sole at hsole ⊢
    rwa [count_insert] at hsole ⊢
  refine ⟨hsole', ?_⟩
  by_cases hname : f.name = name
  · subst hname
    rw [(lookup_insert_self hsole).1, (lookup_insert_self hsole').1]
    exact .edited (h f hf rfl)
  · rw [lookup_insert_of_ne hname, lookup_insert_of_ne hname]
    exact .same

/-- A change in one element of an array. -/
theorem asRecord?_place {before after : List Value} {v v' : Value}
    (hnodup : (fields.map RecordField.name).Nodup)
    (hr : (Value.array (before ++ v :: after)).asRecord? (fields.map RecordField.name) = some r)
    (h : ∀ f, fields[before.length]? = some f → Edit f.schema v v') :
    ∃ r', (Value.array (before ++ v' :: after)).asRecord? (fields.map RecordField.name) = some r' ∧
      Agree fields r r' := by
  obtain ⟨hlength, rfl⟩ := asRecord?_array_iff.mp hr
  have hlength' : (before ++ v' :: after).length ≤ (fields.map RecordField.name).length := by
    rwa [List.length_append, List.length_cons] at hlength ⊢
  refine ⟨_, asRecord?_array_iff.mpr ⟨hlength', rfl⟩, fun f hf => ?_⟩
  obtain ⟨i, hi⟩ := List.mem_iff_getElem?.mp hf
  have hname : (fields.map RecordField.name)[i]? = some f.name := by
    rw [List.getElem?_map, hi]
    rfl
  rw [lookup_zip hnodup hname, lookup_zip hnodup hname]
  -- the field is before the change, is the one that changes, or comes after it
  rcases Nat.lt_trichotomy i before.length with hlt | rfl | hgt
  · rw [List.getElem?_append_left hlt, List.getElem?_append_left hlt]
    exact .same
  · rw [List.getElem?_append_right (Nat.le_refl _), List.getElem?_append_right (Nat.le_refl _), Nat.sub_self]
    exact .edited (h f hi)
  · obtain ⟨k, rfl⟩ := Nat.exists_eq_add_of_lt hgt
    rw [List.getElem?_append_right (by omega), List.getElem?_append_right (by omega), Nat.add_assoc,
      Nat.add_sub_cancel_left]
    exact .same

/-- **A record after an edit is the same up to edits in its fields.** -/
theorem asRecord?_edit {v v' : Value} (hnodup : (fields.map RecordField.name).Nodup)
    (h : Edit (.record fields) v v') (hr : v.asRecord? (fields.map RecordField.name) = some r) :
    ∃ r', v'.asRecord? (fields.map RecordField.name) = some r' ∧ Agree fields r r' := by
  cases h with
  | shuffle shuffle =>
    cases shuffle with
    | keys perm =>
      refine asRecord?_object hr fun f hf hsole => ⟨(sole_perm perm).mp hsole, ?_⟩
      rw [lookup_perm perm hsole]
      exact .same
    | entry inner => exact asRecord?_entry hr fun f _ _ => .shuffle inner
    | element inner => exact asRecord?_place hnodup hr fun f _ => .shuffle inner
  | @extend _ _ _ name _ unknown =>
    refine asRecord?_object hr fun f hf hsole => ?_
    have hne : f.name ≠ name := by
      rintro rfl
      exact unknown (List.mem_map_of_mem hf)
    unfold Sole at hsole ⊢
    rw [count_insert, if_neg hne.symm, lookup_insert_of_ne hne]
    exact ⟨hsole, .same⟩
  | @leaveOut _ before after g v known omitted =>
    refine asRecord?_object hr fun f hf hsole => ?_
    have hsole' : Sole (before ++ after) f.name := by
      unfold Sole at hsole ⊢
      rw [count_insert] at hsole
      omega
    refine ⟨hsole', ?_⟩
    by_cases hname : f.name = g.name
    · obtain rfl := List.inj_on_of_nodup_map hnodup hf known hname
      rw [(lookup_insert_self hsole).1, (lookup_insert_self hsole).2]
      exact .leftOut omitted
    · rw [lookup_insert_of_ne hname]
      exact .same
  | entry known inner =>
    -- no other field of the schema has the name, and so the form it is changed in is that of the field
    refine asRecord?_entry hr fun f hf hname => ?_
    obtain rfl := List.inj_on_of_nodup_map hnodup hf known hname
    exact inner
  | place known inner =>
    refine asRecord?_place hnodup hr fun f hf => ?_
    rw [known] at hf
    cases hf
    exact inner

end Records

/-! ## Readers that keep to a schema -/

section Readers

variable {α β : Type}

/-- An answer, if there is one, stays the same. -/
def Kept (p q : Option α) : Prop := ∀ x, p = some x → q = some x

theorem Kept.refl (p : Option α) : Kept p p := fun _ h => h

theorem Kept.bind {p q : Option α} {k k' : α → Option β} (h : Kept p q) (h' : ∀ a, Kept (k a) (k' a)) :
    Kept (p >>= k) (q >>= k') := by
  intro y hy
  obtain ⟨a, ha, hk⟩ := Option.bind_eq_some_iff.mp hy
  exact Option.bind_eq_some_iff.mpr ⟨a, h a ha, h' a y hk⟩

/-- Edits of a value do not change what is read. -/
def Keeps (schema : Schema) (read : Value → Option α) : Prop :=
  ∀ v v', Edit schema v v' → Kept (read v) (read v')

variable {schema : Schema} {read : Value → Option α} {fields : List (RecordField Schema)} {name : String}

/-- Nothing in the value can be shuffled. -/
def Rigid (v : Value) : Prop := ∀ v', Shuffle v v' → v' = v

theorem rigid_null : Rigid .null := nofun

theorem rigid_bool (b : Bool) : Rigid (.bool b) := nofun

theorem rigid_int (n : Int) : Rigid (.int n) := nofun

theorem rigid_real (d : Double) : Rigid (.real d) := nofun

theorem rigid_string (s : String) : Rigid (.string s) := nofun

theorem rigid_empty : Rigid (.object []) := by
  intro v' h
  generalize hv : Value.object [] = v at h
  cases h with
  | keys perm =>
    cases hv
    rw [List.nil_perm.mp perm]
  | entry | element => simp at hv

/-- One field has no order. -/
theorem rigid_single {v : Value} (h : Rigid v) : Rigid (.object [(name, v)]) := by
  intro v' hshuffle
  generalize hv : Value.object [(name, v)] = w at hshuffle
  cases hshuffle with
  | keys perm =>
    cases hv
    rw [List.singleton_perm.mp perm]
  | @entry before after _ _ v'' inner =>
    rw [Value.object.injEq, List.singleton_eq_append_iff] at hv
    rcases hv with ⟨rfl, hv⟩ | ⟨-, hv⟩
    · cases hv
      rw [h v'' inner, List.nil_append]
    · cases hv
  | element => cases hv

/-- The reader only accepts values in which nothing can be shuffled. -/
def ReadsRigid (read : Value → Option α) : Prop := ∀ v x, read v = some x → Rigid v

theorem keeps_leaf (h : ReadsRigid read) : Keeps .leaf read := by
  intro v v' hedit x hx
  cases hedit with
  | shuffle shuffle => rwa [h v x hx v' shuffle]

theorem ReadsRigid.map (h : ReadsRigid read) (g : α → β) : ReadsRigid fun v => (read v).map g := by
  intro v y hy
  obtain ⟨x, hx, -⟩ := Option.map_eq_some_iff.mp hy
  exact h v x hx

theorem ReadsRigid.asOption? (h : ReadsRigid read) : ReadsRigid (Value.asOption? read) := by
  intro v y hy
  unfold Value.asOption? at hy
  split at hy
  · exact rigid_null
  · exact h.map some v y hy

theorem readsRigid_asNat? : ReadsRigid Value.asNat? := by
  intro v n hn
  cases v with
  | int n => exact rigid_int n
  | _ => cases hn

theorem readsRigid_asInt64? : ReadsRigid Value.asInt64? := by
  intro v n hn
  cases v with
  | int n => exact rigid_int n
  | _ => cases hn

theorem readsRigid_asDouble? : ReadsRigid Value.asDouble? := by
  intro v d hd
  cases v with
  | real d => exact rigid_real d
  | int n => exact rigid_int n
  | _ => cases hd

theorem readsRigid_asBool? : ReadsRigid Value.asBool? := by
  intro v b hb
  cases v with
  | bool b => exact rigid_bool b
  | _ => cases hb

theorem readsRigid_asString? : ReadsRigid Value.asString? := by
  intro v s hs
  cases v with
  | string s => exact rigid_string s
  | _ => cases hs

theorem keeps_list (h : Keeps schema read) : Keeps (.list schema) (Value.asList? read) := by
  have hone {before after : List Value} {v v' : Value} (hedit : Edit schema v v') :
      Kept ((before ++ v :: after).mapM read) ((before ++ v' :: after).mapM read) := by
    rw [List.mapM_append, List.mapM_append, List.mapM_cons, List.mapM_cons]
    exact (Kept.refl _).bind fun _ => ((h v v' hedit).bind fun _ => Kept.refl _).bind fun _ => Kept.refl _
  intro v v' hedit
  cases hedit with
  | shuffle shuffle =>
    cases shuffle with
    | keys | entry => nofun
    | element inner => exact hone (.shuffle inner)
  | element inner => exact hone inner

theorem Agree.required {r r' : Record} (h : Agree fields r r') (hf : needed name schema ∈ fields)
    (hread : Keeps schema read) : Kept (r.required name read) (r'.required name read) := by
  intro x hx
  unfold Record.required at hx ⊢
  obtain ⟨v, hv, hx⟩ := Option.bind_eq_some_iff.mp hx
  have hbecomes : Becomes (needed name schema) (r.lookup name) (r'.lookup name) := h _ hf
  rw [hv] at hbecomes
  generalize r'.lookup name = v? at hbecomes ⊢
  cases hbecomes with
  | same => exact hx
  | edited edit => exact hread _ _ edit x hx
  | leftOut omitted => cases omitted

theorem Agree.optional {r r' : Record} {omitted : Value} {default : α} (h : Agree fields r r')
    (hf : optional name schema omitted ∈ fields) (hread : Keeps schema read)
    (homitted : read omitted = some default) :
    Kept (r.optional name default read) (r'.optional name default read) := by
  intro x hx
  unfold Record.optional at hx ⊢
  have hbecomes : Becomes (Json.optional name schema omitted) (r.lookup name) (r'.lookup name) := h _ hf
  generalize r.lookup name = v? at hbecomes hx
  generalize r'.lookup name = v?' at hbecomes ⊢
  cases hbecomes with
  | same => exact hx
  | edited edit => exact hread _ _ edit x hx
  | leftOut left =>
    cases left
    exact homitted.symm.trans hx

theorem Agree.simple {r r' : Record} (h : Agree fields r r') (hread : Keeps .leaf read)
    (hf : simple name ∈ fields) : Kept (r.required name read) (r'.required name read) :=
  h.required hf hread

theorem Agree.absentable {r r' : Record} (h : Agree fields r r') (hread : ReadsRigid read)
    (hf : absentable name ∈ fields) :
    Kept (r.optional name none (Value.asOption? read)) (r'.optional name none (Value.asOption? read)) :=
  h.optional hf (keeps_leaf hread.asOption?) rfl

theorem Agree.emptiable {r r' : Record} (h : Agree fields r r') (hread : Keeps schema read)
    (hf : emptiable name schema ∈ fields) :
    Kept (r.optional name [] (Value.asList? read)) (r'.optional name [] (Value.asList? read)) :=
  h.optional hf (keeps_list hread) rfl

/-- A record is read by its fields. -/
theorem keeps_record {build : Record → Option α} (hnodup : (fields.map RecordField.name).Nodup)
    (h : ∀ r r', Agree fields r r' → Kept (build r) (build r')) :
    Keeps (.record fields) fun v => v.asRecord? (fields.map RecordField.name) >>= build := by
  intro v v' hedit x hx
  obtain ⟨r, hr, hbuild⟩ := Option.bind_eq_some_iff.mp hx
  obtain ⟨r', hr', hagree⟩ := asRecord?_edit hnodup hedit hr
  exact Option.bind_eq_some_iff.mpr ⟨r', hr', h r r' hagree x hbuild⟩

end Readers

end DisBackend.Json
