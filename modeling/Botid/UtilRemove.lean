import Botid.PatternSearch
import Botid.SscOps

/-! `ResolveUtilRemove`: the modules that the signature is looked up in, and the global behind it. -/
namespace Botid

open ByteMem

/-- A program header, as far as it is read. -/
structure Phdr where
  pType : UInt32
  pFlags : UInt32
  pVaddr : Nat
  pMemsz : Nat

def ptLoad : UInt32 := 1
def pfX : UInt32 := 1

def Phdr.isLoad (ph : Phdr) : Bool := ph.pType = ptLoad && ph.pMemsz ≠ 0

def Phdr.isExecutable (ph : Phdr) : Bool := ph.isLoad && ph.pFlags &&& pfX ≠ 0

/-- What `dl_iterate_phdr` reports of one loaded object; its segments are in memory. -/
structure LoadedObject where
  dlpiName : Option Bytes
  dlpiAddr : Nat
  phdrs : List Phdr
  mapped : ∀ ph ∈ phdrs, ph.isLoad = true →
    0 < dlpiAddr + ph.pVaddr ∧ dlpiAddr + ph.pVaddr + ph.pMemsz < 2 ^ 64

structure ServerModule where
  path : Bytes
  segments : List ModuleSegment

theorem Phdr.isLoad_of_isExecutable {ph : Phdr} (h : ph.isExecutable = true) : ph.isLoad = true := by
  rw [isExecutable, Bool.and_eq_true] at h
  exact h.1

namespace LoadedObject

/-- The segment of an executable header, as `AppendExecutableSegments` pushes it. -/
def segment (o : LoadedObject) (ph : { ph // ph ∈ o.phdrs }) : Option ModuleSegment :=
  if h : ph.1.isExecutable = true then
    some
      { base := some (o.dlpiAddr + ph.1.pVaddr)
        size := ph.1.pMemsz
        bounded := by
          rintro _ ⟨⟩
          exact o.mapped ph.1 ph.2 (Phdr.isLoad_of_isExecutable h) }
  else none

def executableSegments (o : LoadedObject) : List ModuleSegment := o.phdrs.attach.filterMap o.segment

def addressInModule (o : LoadedObject) (address : Nat) : Bool :=
  o.phdrs.any fun ph => ph.isLoad &&
    (decide (o.dlpiAddr + ph.pVaddr ≤ address) && decide (address < o.dlpiAddr + ph.pVaddr + ph.pMemsz))

def path (o : LoadedObject) : Bytes := o.dlpiName.getD []

def serverModule (o : LoadedObject) : ServerModule := ⟨o.path, o.executableSegments⟩

/-- What follows the last slash of the name is `libserver.so`. -/
def isLibServer (o : LoadedObject) : Bool :=
  o.dlpiName.any fun name =>
    (name.reverse.takeWhile (· ≠ 47)).reverse = ascii "libserver.so"

end LoadedObject

/-- `dl_iterate_phdr` with `FindByAddressCallback`, which stops it at the first module with code. -/
def findByAddress (address : Nat) : List LoadedObject → ServerModule → ServerModule
  | [], result => result
  | o :: objects, result =>
    if !o.addressInModule address then findByAddress address objects result
    else
      let result : ServerModule := ⟨o.path, result.segments ++ o.executableSegments⟩
      if result.segments.isEmpty then findByAddress address objects result else result

/-- `dl_iterate_phdr` with `CollectLibServerCallback`. -/
def collectLibServer (objects : List LoadedObject) : List ServerModule :=
  (objects.filter fun o => o.isLibServer && !o.executableSegments.isEmpty).map LoadedObject.serverModule

/-- A hit, and the path of its module. -/
def scanModule (mem : Nat → UInt8) (bytes : Bytes) (wild : List Bool) (mod : ServerModule) :
    Except SearchFault (Option (Nat × Bytes)) :=
  if mod.segments.isEmpty then pure none
  else do
    match ← findPattern mem mod.segments bytes wild with
    | some hit => pure (some (hit, mod.path))
    | none => pure none

def scanModules (mem : Nat → UInt8) (bytes : Bytes) (wild : List Bool) :
    List ServerModule → Except SearchFault (Option (Nat × Bytes))
  | [] => pure none
  | mod :: mods => do
    match ← scanModule mem bytes wild mod with
    | some hit => pure (some hit)
    | none => scanModules mem bytes wild mods

/-- `lea rax, [rip+disp32]` at this place of the signature. -/
def isLea (bytes : Bytes) (i : Nat) : Bool :=
  bytes[i]? = some 0x48 && bytes[i + 1]? = some 0x8D && bytes[i + 2]? = some 0x05

/-- The first one that has room for its displacement. -/
def findLea (bytes : Bytes) : Option Nat := (List.range (bytes.length + 1 - 7)).find? (isLea bytes)

/-- The address that the instruction names. -/
def leaTarget (mem : Nat → UInt8) (hit i : Nat) : Nat :=
  (((hit + i + 3 + 4 : Nat) + toInt32 (readLE mem (hit + i + 3) 4)) % 2 ^ 64).toNat

/-- The globals that `ResolveUtilRemove` sets; null pointers are `none` and `0`. -/
structure UtilRemove where
  target : Option Nat := none
  modulePath : Bytes := []
  ppEntSysGlobal : Nat := 0

/-- The end of `ResolveUtilRemove`, behind the search. -/
def UtilRemove.ofHit (mem : Nat → UInt8) (bytes : Bytes) : Option (Nat × Bytes) → UtilRemove
  | none => {}
  | some (hit, path) =>
    { target := some hit
      modulePath := path
      ppEntSysGlobal := (findLea bytes).elim 0 (leaTarget mem hit) }

/-- The module of the interface's vtable. -/
def interfaceModule (mem : Nat → UInt8) (objects : List LoadedObject) (serverInterface : Nat) :
    ServerModule :=
  if serverInterface = 0 then ⟨[], []⟩
  else if readLE mem serverInterface 8 = 0 then ⟨[], []⟩
  else findByAddress (readLE mem serverInterface 8) objects ⟨[], []⟩

def resolveUtilRemove (mem : Nat → UInt8) (objects : List LoadedObject) (sig : Bytes)
    (serverInterface : Nat) : Except SearchFault UtilRemove :=
  let parsed := parseSigString sig
  if !parsed.1 then pure {}
  else do
    let first ← scanModule mem parsed.2.1 parsed.2.2 (interfaceModule mem objects serverInterface)
    let found ← match first with
      | some hit => pure (some hit)
      | none => scanModules mem parsed.2.1 parsed.2.2 (collectLibServer objects)
    pure (UtilRemove.ofHit mem parsed.2.1 found)

/-- The lowest match in the first segment that has one, of the first module that has one. -/
inductive FirstModule (mem : Nat → UInt8) (pattern : List (Option UInt8)) :
    List ServerModule → Nat → Bytes → Prop
  | here {mod : ServerModule} {mods : List ServerModule} {a : Nat}
      (h : FirstMatch mem pattern mod.segments a) : FirstModule mem pattern (mod :: mods) a mod.path
  | later {mod : ServerModule} {mods : List ServerModule} {a : Nat} {path : Bytes}
      (hnone : ∀ segment ∈ mod.segments, ∀ a', ¬ segment.MatchAt mem pattern a')
      (h : FirstModule mem pattern mods a path) : FirstModule mem pattern (mod :: mods) a path

variable {mem : Nat → UInt8} {objects : List LoadedObject} {o : LoadedObject} {segment : ModuleSegment}
  {pattern : List (Option UInt8)} {mod : ServerModule} {mods : List ServerModule}
  {address serverInterface a i : Nat} {path text : Bytes}

theorem mem_executableSegments : segment ∈ o.executableSegments ↔
    ∃ ph ∈ o.phdrs, ph.isExecutable = true ∧ segment.base = some (o.dlpiAddr + ph.pVaddr) ∧
      segment.size = ph.pMemsz := by
  rw [LoadedObject.executableSegments, List.mem_filterMap]
  constructor
  · rintro ⟨⟨ph, hmem⟩, -, h⟩
    rw [LoadedObject.segment] at h
    split at h
    · rename_i hexec
      cases h
      exact ⟨ph, hmem, hexec, rfl, rfl⟩
    · cases h
  · rintro ⟨ph, hmem, hexec, hbase, hsize⟩
    refine ⟨⟨ph, hmem⟩, List.mem_attach _ _, ?_⟩
    rw [LoadedObject.segment, dif_pos hexec]
    obtain ⟨base, size, bounded⟩ := segment
    cases hbase
    cases hsize
    rfl

/-- Iterating ends with the first object that has the address in it and has code. -/
theorem findByAddress_cases : (∃ o ∈ objects, o.addressInModule address = true ∧
      findByAddress address objects ⟨path, []⟩ = o.serverModule) ∨
    (findByAddress address objects ⟨path, []⟩).segments = [] ∧
      ∀ o ∈ objects, o.addressInModule address = true → o.executableSegments = [] := by
  induction objects generalizing path with
  | nil => exact Or.inr ⟨rfl, List.forall_mem_nil _⟩
  | cons o objects ih =>
    have hlater : ∀ path', (o.addressInModule address = true → o.executableSegments = []) →
        (∃ o' ∈ o :: objects, o'.addressInModule address = true ∧
            findByAddress address objects ⟨path', []⟩ = o'.serverModule) ∨
          (findByAddress address objects ⟨path', []⟩).segments = [] ∧
            ∀ o' ∈ o :: objects, o'.addressInModule address = true → o'.executableSegments = [] := by
      intro path' ho
      rcases @ih path' with ⟨o', hmem, hin, h⟩ | ⟨h, hnone⟩
      · exact Or.inl ⟨o', List.mem_cons_of_mem _ hmem, hin, h⟩
      · exact Or.inr ⟨h, List.forall_mem_cons.mpr ⟨ho, hnone⟩⟩
    rw [findByAddress]
    cases hin : o.addressInModule address with
    | false =>
      rw [Bool.not_false, if_pos rfl]
      exact hlater path fun h => by simp [hin] at h
    | true =>
      rw [Bool.not_true, if_neg Bool.false_ne_true]
      dsimp only
      rw [List.nil_append]
      cases hcode : o.executableSegments with
      | nil =>
        rw [List.isEmpty_nil, if_pos rfl]
        exact hlater o.path fun _ => hcode
      | cons segment segments =>
        rw [List.isEmpty_cons, if_neg Bool.false_ne_true, ← hcode]
        exact Or.inl ⟨o, List.mem_cons_self, hin, rfl⟩

/-- The modules that are searched, in order. -/
def candidates (mem : Nat → UInt8) (objects : List LoadedObject) (serverInterface : Nat) :
    List ServerModule :=
  interfaceModule mem objects serverInterface :: collectLibServer objects

/-- The object is the interface's own, or goes by the name of the server's library. -/
def LoadedObject.IsCandidate (mem : Nat → UInt8) (serverInterface : Nat) (o : LoadedObject) : Prop :=
  (serverInterface ≠ 0 ∧ readLE mem serverInterface 8 ≠ 0 ∧
    o.addressInModule (readLE mem serverInterface 8) = true) ∨ o.isLibServer = true

/-- Every module that is searched is that of a candidate, or has no code. -/
theorem candidate_of_mem (h : mod ∈ candidates mem objects serverInterface) :
    mod.segments = [] ∨ ∃ o ∈ objects, o.IsCandidate mem serverInterface ∧ mod = o.serverModule := by
  rcases List.mem_cons.mp h with rfl | h
  · rw [interfaceModule]
    split
    · exact Or.inl rfl
    · split
      · exact Or.inl rfl
      · rename_i hinterface hvtable
        rcases @findByAddress_cases objects (readLE mem serverInterface 8) [] with
          ⟨o, hmem, hin, h⟩ | ⟨h, -⟩
        · exact Or.inr ⟨o, hmem, Or.inl ⟨hinterface, hvtable, hin⟩, h⟩
        · exact Or.inl h
  · obtain ⟨o, ho, rfl⟩ := List.mem_map.mp h
    obtain ⟨hmem, hlib⟩ := List.mem_filter.mp ho
    rw [Bool.and_eq_true] at hlib
    exact Or.inr ⟨o, hmem, Or.inr hlib.1, rfl⟩

theorem FirstModule.exists_match (h : FirstModule mem pattern mods a path) :
    ∃ mod ∈ mods, mod.path = path ∧ ∃ segment ∈ mod.segments, segment.MatchAt mem pattern a := by
  induction h with
  | here h => exact ⟨_, List.mem_cons_self, rfl, h.exists_match⟩
  | later _ _ ih =>
    obtain ⟨mod, hmem, hpath, hmatch⟩ := ih
    exact ⟨mod, List.mem_cons_of_mem _ hmem, hpath, hmatch⟩

/-- No fault, and the first match with the path of its module, or null. -/
def FindsFirst (mem : Nat → UInt8) (pattern : List (Option UInt8)) (mods : List ServerModule)
    (r : Except SearchFault (Option (Nat × Bytes))) : Prop :=
  (∃ a path, FirstModule mem pattern mods a path ∧ r = .ok (some (a, path))) ∨
    (∀ mod ∈ mods, ∀ segment ∈ mod.segments, ∀ a, ¬ segment.MatchAt mem pattern a) ∧ r = .ok none

theorem scanModule_cases (hne : pattern ≠ []) :
    (∃ a, FirstMatch mem pattern mod.segments a ∧
        scanModule mem (patternBytes pattern) (patternWild pattern) mod = .ok (some (a, mod.path))) ∨
      (∀ segment ∈ mod.segments, ∀ a, ¬ segment.MatchAt mem pattern a) ∧
        scanModule mem (patternBytes pattern) (patternWild pattern) mod = .ok none := by
  have hguard : ¬ (patternBytes pattern = [] ∨
      (patternBytes pattern).length ≠ (patternWild pattern).length) := by
    simp [patternBytes, patternWild, hne]
  rw [scanModule, findPattern, if_neg hguard]
  cases hsegments : mod.segments with
  | nil => exact Or.inr ⟨List.forall_mem_nil _, rfl⟩
  | cons segment segments =>
    rw [List.isEmpty_cons, if_neg Bool.false_ne_true]
    rcases @answers_findInSegments mem (segment :: segments) pattern with ⟨a, hfirst, h⟩ | ⟨hnone, h⟩
    · rw [h]
      exact Or.inl ⟨a, hfirst, rfl⟩
    · rw [h]
      exact Or.inr ⟨hnone, rfl⟩

theorem scanModules_finds (hne : pattern ≠ []) : FindsFirst mem pattern mods
    (scanModules mem (patternBytes pattern) (patternWild pattern) mods) := by
  induction mods with
  | nil => exact Or.inr ⟨List.forall_mem_nil _, rfl⟩
  | cons mod mods ih =>
    rw [scanModules]
    rcases @scanModule_cases mem pattern mod hne with ⟨a, hfirst, h⟩ | ⟨hnone, h⟩
    · rw [h]
      exact Or.inl ⟨a, mod.path, .here hfirst, rfl⟩
    · rw [h]
      rcases ih with ⟨a, path, hfirst, h'⟩ | ⟨hrest, h'⟩
      · exact Or.inl ⟨a, path, .later hnone hfirst, h'⟩
      · exact Or.inr ⟨List.forall_mem_cons.mpr ⟨hnone, hrest⟩, h'⟩

theorem FirstModule.unique {a' : Nat} {path' : Bytes} (h : FirstModule mem pattern mods a path)
    (h' : FirstModule mem pattern mods a' path') : a = a' ∧ path = path' := by
  induction h with
  | here h =>
    cases h' with
    | here h' => exact ⟨h.unique h', rfl⟩
    | later hnone _ =>
      obtain ⟨segment, hmem, hmatch⟩ := h.exists_match
      exact absurd hmatch (hnone segment hmem _)
  | later hnone _ ih =>
    cases h' with
    | here h' =>
      obtain ⟨segment, hmem, hmatch⟩ := h'.exists_match
      exact absurd hmatch (hnone segment hmem _)
    | later _ h' => exact ih h'

/-- The opcode of `lea rax, [rip+disp32]` stands in the pattern, with its displacement behind it. -/
def LeaAt (pattern : List (Option UInt8)) (i : Nat) : Prop :=
  i + 7 ≤ pattern.length ∧ pattern[i]? = some (some 0x48) ∧ pattern[i + 1]? = some (some 0x8D) ∧
    pattern[i + 2]? = some (some 0x05)

/-- A wildcard reads as zero, which is no byte of the opcode. -/
theorem patternBytes_eq_iff {b : UInt8} (hb : b ≠ 0) :
    (patternBytes pattern)[i]? = some b ↔ pattern[i]? = some (some b) := by
  rw [patternBytes, List.getElem?_map, Option.map_eq_some_iff]
  constructor
  · rintro ⟨e, he, h⟩
    cases e with
    | none => exact absurd h.symm hb
    | some c => rwa [← show c = b from h]
  · intro h
    exact ⟨some b, h, rfl⟩

theorem isLea_iff : isLea (patternBytes pattern) i = true ↔
    pattern[i]? = some (some 0x48) ∧ pattern[i + 1]? = some (some 0x8D) ∧
      pattern[i + 2]? = some (some 0x05) := by
  rw [isLea, Bool.and_eq_true, Bool.and_eq_true, decide_eq_true_eq, decide_eq_true_eq, decide_eq_true_eq,
    patternBytes_eq_iff (by decide), patternBytes_eq_iff (by decide), patternBytes_eq_iff (by decide),
    and_assoc]

theorem findLea_cases : (∃ i, LeaAt pattern i ∧ (∀ j < i, ¬ LeaAt pattern j) ∧
      findLea (patternBytes pattern) = some i) ∨
    (∀ i, ¬ LeaAt pattern i) ∧ findLea (patternBytes pattern) = none := by
  have hlen : (patternBytes pattern).length = pattern.length := List.length_map _
  have hat : ∀ i, LeaAt pattern i ↔
      i < pattern.length + 1 - 7 ∧ isLea (patternBytes pattern) i = true := by
    intro i
    rw [isLea_iff, LeaAt]
    refine and_congr_left fun _ => ?_
    omega
  cases h : findLea (patternBytes pattern) with
  | none =>
    refine Or.inr ⟨fun i hi => ?_, rfl⟩
    rw [findLea, hlen, List.find?_range_eq_none] at h
    obtain ⟨hlt, hlea⟩ := (hat i).mp hi
    simpa [hlea] using h i hlt
  | some i =>
    rw [findLea, hlen, List.find?_range_eq_some] at h
    obtain ⟨hlea, hmem, hbefore⟩ := h
    refine Or.inl ⟨i, (hat i).mpr ⟨List.mem_range.mp hmem, hlea⟩, fun j hj hat' => ?_, rfl⟩
    simpa [((hat j).mp hat').2] using hbefore j hj

/-- The signature is found where it should be, or not at all, and never by a read outside a segment: the
target is the lowest match in the first module that has one, in code of the interface's module or of a
`libserver.so`, and the global is the one that the first `lea` of the match names. -/
theorem util_remove_resolved (mem : Nat → UInt8) (objects : List LoadedObject) (serverInterface : Nat)
    (pattern : List (Option UInt8)) (text : Bytes) (h : Rendered pattern text) :
    ∃ r, resolveUtilRemove mem objects text serverInterface = .ok r ∧
      (∀ a path, r.target = some a ∧ r.modulePath = path ↔
        FirstModule mem pattern (candidates mem objects serverInterface) a path) ∧
      (∀ a, r.target = some a → ∃ o ∈ objects, o.IsCandidate mem serverInterface ∧ r.modulePath = o.path ∧
        ∃ ph ∈ o.phdrs, ph.isExecutable = true ∧ o.dlpiAddr + ph.pVaddr ≤ a ∧
          a + pattern.length ≤ o.dlpiAddr + ph.pVaddr + ph.pMemsz) ∧
      (∀ a i, r.target = some a → LeaAt pattern i → (∀ j < i, ¬ LeaAt pattern j) →
        r.ppEntSysGlobal = leaTarget mem a i) ∧
      (r.target = none ∨ (∀ i, ¬ LeaAt pattern i) → r.ppEntSysGlobal = 0) := by
  have hne : pattern ≠ [] := by
    obtain ⟨_, _, _, hbody, -⟩ := h
    exact hbody.ne_nil
  have hresolve : resolveUtilRemove mem objects text serverInterface =
      (scanModules mem (patternBytes pattern) (patternWild pattern)
        (candidates mem objects serverInterface)).map (UtilRemove.ofHit mem (patternBytes pattern)) := by
    rw [resolveUtilRemove, parseSigString_rendered h, candidates, scanModules]
    dsimp only
    rw [Bool.not_true, if_neg Bool.false_ne_true]
    cases scanModule mem (patternBytes pattern) (patternWild pattern)
        (interfaceModule mem objects serverInterface) with
    | error fault => rfl
    | ok first =>
      cases first with
      | some hit => rfl
      | none =>
        generalize scanModules mem (patternBytes pattern) (patternWild pattern)
          (collectLibServer objects) = found
        cases found with
        | error fault => rfl
        | ok found => rfl
  rw [hresolve]
  rcases @scanModules_finds mem pattern (candidates mem objects serverInterface) hne with
    ⟨a, path, hfirst, hscan⟩ | ⟨hnone, hscan⟩
  · rw [hscan]
    refine ⟨_, rfl, fun a' path' => ?_, fun a' ha' => ?_, fun a' i ha' hlea hbefore => ?_, ?_⟩
    · constructor
      · rintro ⟨⟨⟩, rfl⟩
        exact hfirst
      · intro hfirst'
        obtain ⟨rfl, rfl⟩ := hfirst.unique hfirst'
        exact ⟨rfl, rfl⟩
    · cases ha'
      obtain ⟨mod, hmem, rfl, segment, hsegment, base, hbase, hlow, hhigh, -⟩ := hfirst.exists_match
      rcases candidate_of_mem hmem with hempty | ⟨o, ho, hcandidate, rfl⟩
      · rw [hempty] at hsegment
        cases hsegment
      · obtain ⟨ph, hph, hexec, hsbase, hsize⟩ := mem_executableSegments.mp hsegment
        rw [hsbase] at hbase
        cases hbase
        rw [hsize] at hhigh
        exact ⟨o, ho, hcandidate, rfl, ph, hph, hexec, hlow, hhigh⟩
    · cases ha'
      rcases @findLea_cases pattern with ⟨j, hlea', hbefore', hfind⟩ | ⟨hnolea, -⟩
      · have hij : j = i := by
          rcases Nat.lt_trichotomy j i with hlt | heq | hlt
          · exact absurd hlea' (hbefore j hlt)
          · exact heq
          · exact absurd hlea (hbefore' i hlt)
        rw [UtilRemove.ofHit, hfind, hij]
        rfl
      · exact absurd hlea (hnolea i)
    · rintro (hnull | hnolea)
      · cases hnull
      · rcases @findLea_cases pattern with ⟨j, hlea, -⟩ | ⟨-, hfind⟩
        · exact absurd hlea (hnolea j)
        · rw [UtilRemove.ofHit, hfind]
          rfl
  · rw [hscan]
    refine ⟨_, rfl, fun a' path' => ?_, fun a' ha' => ?_, fun a' i ha' => ?_, fun _ => rfl⟩
    · refine iff_of_false (fun h => by cases h.1) fun hfirst => ?_
      obtain ⟨mod, hmem, -, segment, hsegment, hmatch⟩ := hfirst.exists_match
      exact hnone mod hmem segment hsegment a' hmatch
    · cases ha'
    · cases ha'

/-- The server's library with 32 bytes of code, and a `lea` in them. -/
def leaServer : LoadedObject where
  dlpiName := some (ascii "/game/libserver.so")
  dlpiAddr := 0x1000
  phdrs := [⟨1, 5, 0, 0x20⟩]
  mapped := by
    intro ph hph _
    rw [List.mem_singleton.mp hph]
    decide

def leaMemory (a : Nat) : UInt8 :=
  if a = 0x1008 then 0x48 else if a = 0x1009 then 0x8D else if a = 0x100A then 0x05
  else if a = 0x100B then 0x10 else 0

def leaPattern : List (Option UInt8) := [some 0x48, some 0x8D, some 0x05, none, none, none, none]

theorem rendered_leaPattern : Rendered leaPattern (ascii "48 8D 05 ? ? ? ?") :=
  ⟨0, 0, _, .cons 0 (@ElementText.byte 52 56 4 8 rfl rfl) (.cons 0 (@ElementText.byte 56 68 8 13 rfl rfl)
    (.cons 0 (@ElementText.byte 48 53 0 5 rfl rfl) (.cons 0 .wildcard (.cons 0 .wildcard (.cons 0 .wildcard
      (.last .wildcard)))))), rfl⟩

theorem firstModule_leaServer : FirstModule leaMemory leaPattern (candidates leaMemory [leaServer] 0) 0x1008
    leaServer.serverModule.path := by
  have hcandidates : candidates leaMemory [leaServer] 0 = [⟨[], []⟩, leaServer.serverModule] := rfl
  have hfirst : ∀ a, a ≠ 0x1008 → leaMemory a ≠ 0x48 := by
    intro a ha
    unfold leaMemory
    rw [if_neg ha]
    split_ifs <;> decide
  rw [hcandidates]
  refine .later (List.forall_mem_nil _) (.here (.here ⟨0x1000, rfl, by decide, by decide, ?_⟩ ?_))
  · intro k b hb
    have hk : k < 7 := (List.getElem?_eq_some_iff.mp hb).1
    obtain rfl | rfl | rfl | rfl | rfl | rfl | rfl : k = 0 ∨ k = 1 ∨ k = 2 ∨ k = 3 ∨ k = 4 ∨ k = 5 ∨ k = 6 := by
      omega
    all_goals cases hb <;> rfl
  · rintro a ⟨-, -, -, -, hmatch⟩
    by_contra hlt
    exact hfirst a (by omega) (hmatch 0 0x48 rfl)

theorem util_remove_resolved_lea : ∃ r,
    resolveUtilRemove leaMemory [leaServer] (ascii "48 8D 05 ? ? ? ?") 0 = .ok r ∧
      r.target = some 0x1008 ∧ r.ppEntSysGlobal = 0x101F := by
  obtain ⟨r, hr, hfirst, -, hlea, -⟩ :=
    util_remove_resolved leaMemory [leaServer] 0 leaPattern _ rendered_leaPattern
  have htarget := ((hfirst _ _).mpr firstModule_leaServer).1
  refine ⟨r, hr, htarget, ?_⟩
  rw [hlea 0x1008 0 htarget ⟨by decide, rfl, rfl, rfl⟩ (by simp)]
  decide

end Botid
