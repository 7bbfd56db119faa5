import DisBackend.Proofs.Linking.Assembly

/-!
# `Proofs.Linking.Handlers` — handlers in their places

The handlers of a module are those of its fragments, one fragment after the other, with every address
moved. The descriptor of a handler is known by its position among the call sites of the fragment, and that
number is not moved: in the module it is the position of another descriptor, which may be of any size.

## Contents

* `handlersBefore`, `Draft.handler_at` — where the handlers of a fragment are;
* `DescriptorAt`, `Draft.getElem?_types_iff` — what stands at a position among the descriptors;
* `Module.Describes` — an id that names a descriptor of the right size and map;
* `assemble_handler_descriptors` — which descriptor a handler names;
* `assemble_handler_misdescribed` — one that names a wrong one.
-/

namespace DisBackend

/-- The number of handlers in the fragments before number `k`. -/
def handlersBefore (fragments : List Fragment) (k : Nat) : Nat :=
  ((fragments.take k).map fun f => f.handlers.length).sum

/-- The descriptor at position `n` of a module that the fragments and the data make: that of module data
first, then the frames, then the call sites of one fragment after the other. -/
inductive DescriptorAt (fragments : List Fragment) (data : DataSegment) : Nat → TypeDescriptor → Prop where
  | data : DescriptorAt fragments data 0 data.descriptor
  | frame {k : Nat} {f : Fragment} {d : TypeDescriptor} (fragment : fragments[k]? = some f)
    (descriptor : f.frame.descriptor (k + 1) = .ok d) : DescriptorAt fragments data (k + 1) d
  | callSite {k c : Nat} {f : Fragment} {d : TypeDescriptor} (fragment : fragments[k]? = some f)
    (site : f.callSites[c]? = some d) :
    DescriptorAt fragments data (callSiteStart fragments k + c)
      { d with id := callSiteStart fragments k + c }

/-- The id names a descriptor with the size and the map of `d`. -/
def Module.Describes (m : Module) (id : Int) (d : TypeDescriptor) : Prop :=
  ∃ d', m.descriptor? id = some d' ∧ d'.size = d.size ∧ d'.map = d.map

namespace Draft

variable {options : LinkOptions} {fragments : List Fragment} {data : DataSegment}
  {compiled : CompiledModule} (A : Draft options fragments data compiled)

theorem handlersBefore_eq (k : Nat) :
    ((A.linked.take k).map fun l => l.handlers.length).sum = handlersBefore fragments k := by
  unfold handlersBefore
  rw [List.map_take, List.map_take, A.map_linked fun h => by rw [h.handlers, List.length_map]]

include A

/-- **Handler number `n` of fragment number `k`** comes after the handlers of the fragments before it. Of its
numbers only the addresses are moved. -/
theorem handler_at {k n : Nat} {f : Fragment} {handler : Handler} (hk : fragments[k]? = some f)
    (hn : f.handlers[n]? = some handler) :
    compiled.module.handlers[handlersBefore fragments k + n]? =
      some (handler.movedTo (startOf fragments k)) := by
  obtain ⟨l, hl, hlinked⟩ := A.fragment k f hk
  have hmoved : l.handlers[n]? = some (handler.movedTo (startOf fragments k)) := by
    rw [hlinked.handlers, List.getElem?_map, hn]
    simp
  have hlt : n < l.handlers.length := (List.getElem?_eq_some_iff.mp hmoved).1
  have hflat := getElem?_flatMap hl hlt
  rw [A.handlersBefore_eq k, hmoved] at hflat
  rw [A.module_eq]
  exact hflat

/-- A descriptor behind those of the frames is one of a call site. -/
theorem callSite_of_getElem? {n : Nat} {d : TypeDescriptor}
    (h : (A.linked.flatMap LinkedFragment.callSites)[n]? = some d) :
    DescriptorAt fragments data (fragments.length + 1 + n) d := by
  rw [List.flatMap_def] at h
  obtain ⟨k, c, sites, hsites, hd, hn⟩ := exists_of_getElem?_flatten h
  have hlt : k < fragments.length := by
    rw [← A.linked_length]
    simpa using (List.getElem?_eq_some_iff.mp hsites).1
  have hf := List.getElem?_eq_getElem hlt
  obtain ⟨l, hl, hlinked⟩ := A.fragment k _ hf
  rw [List.getElem?_map, hl, Option.map_some, Option.some.injEq] at hsites
  subst hsites
  -- the descriptor is the renumbered one of the fragment
  rw [hlinked.callSites, renumber, List.getElem?_mapIdx, Option.map_eq_some_iff] at hd
  obtain ⟨site, hsite, rfl⟩ := hd
  have hbefore : ((A.linked.map LinkedFragment.callSites).take k).flatten.length
      = callSitesBefore fragments k := by
    rw [← A.callSitesBefore_eq k, List.length_flatten, ← List.map_take, List.map_map]
    rfl
  have hindex : fragments.length + 1 + n = callSiteStart fragments k + c := by
    unfold callSiteStart
    omega
  rw [hindex]
  exact .callSite hf hsite

/-- **The descriptors of a module,** by their positions. -/
theorem getElem?_types_iff {n : Nat} {d : TypeDescriptor} :
    compiled.module.types[n]? = some d ↔ DescriptorAt fragments data n d := by
  constructor
  · intro h
    rw [A.types_eq, List.cons_append] at h
    cases n with
    | zero =>
      cases h
      exact .data
    | succ n =>
      rw [List.getElem?_cons_succ] at h
      by_cases hn : n < A.frames.length
      · rw [List.getElem?_append_left hn] at h
        have hf := List.getElem?_eq_getElem (A.frames_length ▸ hn)
        obtain ⟨d', hd', hdescriptor⟩ := A.frame n _ hf
        rw [h, Option.some.injEq] at hd'
        subst hd'
        exact .frame hf hdescriptor
      · rw [List.getElem?_append_right (Nat.le_of_not_lt hn)] at h
        have hindex : n + 1 = fragments.length + 1 + (n - A.frames.length) := by
          have hlength := A.frames_length
          omega
        rw [hindex]
        exact A.callSite_of_getElem? h
  · intro h
    cases h with
    | data =>
      rw [A.types_eq]
      rfl
    | frame hf hdescriptor =>
      obtain ⟨d', hd', hdescriptor'⟩ := A.frame_at hf
      rw [hdescriptor] at hdescriptor'
      cases hdescriptor'
      exact hd'
    | callSite hf hsite => exact A.callSite_at hf hsite

end Draft

namespace Assembly

variable {options : LinkOptions} {fragments : List Fragment} {data : DataSegment}
  {compiled : CompiledModule} (A : Assembly options fragments data compiled)

include A

/-- An id is the position of what it names. -/
theorem descriptor?_iff {n : Nat} {d : TypeDescriptor} :
    compiled.module.descriptor? n = some d ↔ DescriptorAt fragments data n d := by
  rw [← A.getElem?_types_iff]
  constructor
  · intro h
    obtain ⟨k, hk⟩ := List.mem_iff_getElem?.mp (List.mem_of_find?_eq_some h)
    have hid : d.id = n := by simpa using List.find?_some h
    rw [Module.id_of_consistent A.consistent hk] at hid
    rw [← Int.natCast_inj.mp hid]
    exact hk
  · intro h
    exact Module.descriptor?_of_consistent A.consistent h

theorem describes_iff {n : Nat} {d : TypeDescriptor} :
    compiled.module.Describes n d ↔
      ∃ d', DescriptorAt fragments data n d' ∧ d'.size = d.size ∧ d'.map = d.map := by
  unfold Module.Describes
  simp only [A.descriptor?_iff]

/-- A call site is described by its number, counted from the first call site of its fragment on. -/
theorem describes_callSite {k c : Nat} {f : Fragment} {d : TypeDescriptor} (hk : fragments[k]? = some f)
    (hd : f.callSites[c]? = some d) : compiled.module.Describes (callSiteStart fragments k + c : Nat) d :=
  A.describes_iff.mpr ⟨_, .callSite hk hd, rfl, rfl⟩

end Assembly

/-- **Which descriptor a handler names.** A handler without a descriptor stays without one. One that has call
site number `c` of its fragment keeps the number `c`: it names what stands at position `c` in the module,
and so the right descriptor if and only if what stands there has the same size and map. The right one
stands `callSiteStart fragments k` further. -/
theorem assemble_handler_descriptors {options : LinkOptions} {fragments : List Fragment} {data : DataSegment}
    {compiled : CompiledModule} {log log' : Log}
    (h : assemble options fragments data log = .ok compiled log') :
    ∀ (k n : Nat) (f : Fragment) (handler : Handler),
      fragments[k]? = some f → f.handlers[n]? = some handler →
      ∃ linked, compiled.module.handlers[handlersBefore fragments k + n]? = some linked ∧
        linked = handler.movedTo (startOf fragments k) ∧
        (handler.typeId = -1 → linked.typeId = -1) ∧
        ∀ (c : Nat) (d : TypeDescriptor), handler.typeId = c → f.callSites[c]? = some d →
          (compiled.module.Describes linked.typeId d ↔
            ∃ d', DescriptorAt fragments data c d' ∧ d'.size = d.size ∧ d'.map = d.map) ∧
          compiled.module.Describes (linked.typeId + callSiteStart fragments k) d := by
  obtain ⟨A⟩ := assemble_assembly h
  intro k n f handler hk hn
  refine ⟨_, A.handler_at hk hn, rfl, id, ?_⟩
  intro c d hc hd
  have hid : (handler.movedTo (startOf fragments k)).typeId = c := hc
  rw [hid]
  refine ⟨A.describes_iff, ?_⟩
  rw [Int.add_comm]
  exact A.describes_callSite hk hd

/-! ## Fragments with handlers -/

/-- The data of a module with no strings, constants and globals of its own. -/
def bareData : DataSegment := ⟨⟨0, 16, [192]⟩, 16, [.string 8 "$Sys"], [SysFunction.print.toImport], 0, 8⟩

/-- Handles all exceptions, with data of three words of which the last is a pointer. -/
def guardedFragment : Fragment where
  name := "main"
  code := [.plain .ret]
  frame := ⟨[true]⟩
  callSites := [⟨0, 24, [32]⟩]
  handlers := [{ Handler.catchAll 64 0 1 0 with typeId := 0 }]

/-- Has a handler of strings and one with data of two pointers. -/
def watchedFragment : Fragment where
  name := "watched"
  code := [.binary .new (.imm 0) (.fp 64), .plain .ret]
  frame := ⟨[true, true]⟩
  callSites := [⟨0, 8, [0]⟩, ⟨1, 16, [192]⟩]
  handlers := [.catchAll 72 0 1 1, { Handler.catchAll 72 0 2 1 with typeId := 1 }]

/-- The second handler of `watchedFragment` is the third of the module. It keeps the id 1, and the descriptor
it had is number 5. -/
theorem assemble_handler_descriptors_watched :
    ∃ compiled log, assemble { name := "Watched" } [guardedFragment, watchedFragment] bareData #[]
        = .ok compiled log ∧
      compiled.module.handlers[2]? = some { Handler.catchAll 72 2 4 3 with typeId := 1 } ∧
      (compiled.module.Describes 1 ⟨1, 16, [192]⟩ ↔
        ∃ d, DescriptorAt [guardedFragment, watchedFragment] bareData 1 d ∧ d.size = 16 ∧ d.map = [192]) ∧
      compiled.module.Describes 5 ⟨1, 16, [192]⟩ := by
  obtain ⟨compiled, log, h⟩ : ∃ compiled log,
      assemble { name := "Watched" } [guardedFragment, watchedFragment] bareData #[] = .ok compiled log :=
    ⟨_, _, rfl⟩
  obtain ⟨linked, hlinked, rfl, -, hdescribes⟩ :=
    assemble_handler_descriptors h 1 1 watchedFragment _ rfl rfl
  exact ⟨compiled, log, h, hlinked, hdescribes 1 ⟨1, 16, [192]⟩ rfl rfl⟩

/-- **The handler of `guardedFragment` names module data** and not the call site it had: two words, both
pointers, in place of three. -/
theorem assemble_handler_misdescribed :
    ∃ compiled log linked, assemble { name := "Guarded" } [guardedFragment] bareData #[] = .ok compiled log ∧
      ([guardedFragment].map Fragment.name).Nodup ∧
      guardedFragment.handlers.map Handler.typeId = [0] ∧
      guardedFragment.callSites[0]? = some ⟨0, 24, [32]⟩ ∧
      compiled.module.handlers = [linked] ∧
      compiled.module.descriptor? linked.typeId = some ⟨0, 16, [192]⟩ ∧
      ¬ compiled.module.Describes linked.typeId ⟨0, 24, [32]⟩ := by
  refine ⟨_, _, _, rfl, by decide, rfl, rfl, rfl, rfl, ?_⟩
  rintro ⟨d, hd, hsize, -⟩
  cases hd
  exact absurd hsize (by decide)

end DisBackend
