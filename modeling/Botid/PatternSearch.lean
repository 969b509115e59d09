import Botid.SignatureText

/-! `FindPattern`: the search for a signature in the executable segments of the server module. Every
subscript is checked against the segment or the vector it goes into. -/
namespace Botid

/-- A range of the server module; a null `base` is `none`. One past its end is still an address. -/
structure ModuleSegment where
  base : Option Nat
  size : Nat
  bounded : ∀ b ∈ base, 0 < b ∧ b + size < 2 ^ 64

/-- What the search must never do. -/
inductive SearchFault
  /-- A read outside the segment, or behind the end of a vector. -/
  | outside
  /-- A loop still under way after more turns than there are places. -/
  | stuck

/-- `segment.base[k]`. -/
def ModuleSegment.read (segment : ModuleSegment) (mem : Nat → UInt8) (base : Nat) (k : Nat) :
    Except SearchFault UInt8 :=
  if k < segment.size then .ok (mem (base + k)) else .error .outside

/-- `v[j]` of a vector. -/
def vectorAt {α : Type} (v : List α) (j : Nat) : Except SearchFault α :=
  match v[j]? with
  | some x => .ok x
  | none => .error .outside

/-- One turn of the innermost loop, over `j`; the answer is `match`. -/
def compareTurn (segment : ModuleSegment) (mem : Nat → UInt8) (base : Nat) (pattern : Bytes)
    (wild : List Bool) (i j : Nat) : Except SearchFault (Option Bool) :=
  if j < pattern.length then do
    if ← vectorAt wild j then pure none
    else
      let c ← segment.read mem base ((i + j) % 2 ^ 64)
      let b ← vectorAt pattern j
      pure (if c ≠ b then some false else none)
  else pure (some true)

/-- One turn of the loop over the places `i` of a segment. -/
def placeTurn (segment : ModuleSegment) (mem : Nat → UInt8) (base : Nat) (pattern : Bytes)
    (wild : List Bool) (i : Nat) : Except SearchFault (Option (Option Nat)) :=
  if (i + pattern.length) % 2 ^ 64 ≤ segment.size then do
    let hit ← Loop.upward .stuck (compareTurn segment mem base pattern wild i) (pattern.length + 1) 0
    pure (if hit then some (some (base + i)) else none)
  else pure (some none)

/-- The loop over the segments. -/
def findInSegments (mem : Nat → UInt8) (pattern : Bytes) (wild : List Bool) :
    List ModuleSegment → Except SearchFault (Option Nat)
  | [] => pure none
  | segment :: segments =>
    match segment.base with
    | none => findInSegments mem pattern wild segments
    | some base =>
      if segment.size < pattern.length then findInSegments mem pattern wild segments
      else do
        match ← Loop.upward .stuck (placeTurn segment mem base pattern wild) (segment.size + 2) 0 with
        | some hit => pure (some hit)
        | none => findInSegments mem pattern wild segments

def findPattern (mem : Nat → UInt8) (segments : List ModuleSegment) (pattern : Bytes)
    (wild : List Bool) : Except SearchFault (Option Nat) :=
  if pattern = [] ∨ pattern.length ≠ wild.length then pure none
  else findInSegments mem pattern wild segments

/-- Inside the segment, the pattern lies at an address. -/
def ModuleSegment.MatchAt (segment : ModuleSegment) (mem : Nat → UInt8)
    (pattern : List (Option UInt8)) (a : Nat) : Prop :=
  ∃ base ∈ segment.base, base ≤ a ∧ a + pattern.length ≤ base + segment.size ∧
    ∀ j b, pattern[j]? = some (some b) → mem (a + j) = b

/-- The lowest match in the first segment that has one. -/
inductive FirstMatch (mem : Nat → UInt8) (pattern : List (Option UInt8)) :
    List ModuleSegment → Nat → Prop
  | here {segment : ModuleSegment} {segments : List ModuleSegment} {a : Nat}
      (h : segment.MatchAt mem pattern a) (hleast : ∀ a', segment.MatchAt mem pattern a' → a ≤ a') :
      FirstMatch mem pattern (segment :: segments) a
  | later {segment : ModuleSegment} {segments : List ModuleSegment} {a : Nat}
      (hnone : ∀ a', ¬ segment.MatchAt mem pattern a') (h : FirstMatch mem pattern segments a) :
      FirstMatch mem pattern (segment :: segments) a

variable {mem : Nat → UInt8} {segment : ModuleSegment} {segments : List ModuleSegment} {base a : Nat}
  {pattern : List (Option UInt8)} {i j : Nat} {e : Option UInt8}

theorem FirstMatch.unique {a' : Nat} (h : FirstMatch mem pattern segments a)
    (h' : FirstMatch mem pattern segments a') : a = a' := by
  induction h with
  | here h hleast =>
    cases h' with
    | here h' hleast' => exact le_antisymm (hleast _ h') (hleast' _ h)
    | later hnone _ => exact absurd h (hnone _)
  | later hnone _ ih =>
    cases h' with
    | here h' _ => exact absurd h' (hnone _)
    | later _ h' => exact ih h'

theorem FirstMatch.exists_match (h : FirstMatch mem pattern segments a) :
    ∃ segment ∈ segments, segment.MatchAt mem pattern a := by
  induction h with
  | here h _ => exact ⟨_, List.mem_cons_self, h⟩
  | later _ _ ih =>
    obtain ⟨segment, hmem, hmatch⟩ := ih
    exact ⟨segment, List.mem_cons_of_mem _ hmem, hmatch⟩

/-- An element of the pattern that memory disagrees with. -/
def Mismatch (mem : Nat → UInt8) (pattern : List (Option UInt8)) (a : Nat) (j : Nat) : Prop :=
  ∃ b, pattern[j]? = some (some b) ∧ mem (a + j) ≠ b

theorem compareTurn_cases (hbound : 0 < base ∧ base + segment.size < 2 ^ 64)
    (hi : i + pattern.length ≤ segment.size) (hj : j < pattern.length) :
    Mismatch mem pattern (base + i) j ∧
        compareTurn segment mem base (patternBytes pattern) (patternWild pattern) i j =
          .ok (some false) ∨
      ¬ Mismatch mem pattern (base + i) j ∧
        compareTurn segment mem base (patternBytes pattern) (patternWild pattern) i j = .ok none := by
  obtain ⟨e, he⟩ : ∃ e, pattern[j]? = some e := ⟨_, List.getElem?_eq_getElem hj⟩
  have hwild : vectorAt (patternWild pattern) j = .ok e.isNone := by
    rw [vectorAt, patternWild, List.getElem?_map, he]
    rfl
  have hbyte : vectorAt (patternBytes pattern) j = .ok (e.getD 0) := by
    rw [vectorAt, patternBytes, List.getElem?_map, he]
    rfl
  have hread : segment.read mem base ((i + j) % 2 ^ 64) = .ok (mem (base + i + j)) := by
    rw [ModuleSegment.read, Nat.mod_eq_of_lt (by omega), if_pos (by omega), Nat.add_assoc]
  have hlen : j < (patternBytes pattern).length := by rwa [patternBytes, List.length_map]
  rw [compareTurn, if_pos hlen, hwild, hread, hbyte]
  cases e with
  | none =>
    refine Or.inr ⟨?_, rfl⟩
    rintro ⟨b, hb, -⟩
    rw [he] at hb
    cases hb
  | some b =>
    by_cases hb : mem (base + i + j) = b
    · refine Or.inr ⟨?_, ?_⟩
      · rintro ⟨b', hb', hne⟩
        rw [he] at hb'
        cases hb'
        exact hne hb
      · change Except.ok (if mem (base + i + j) ≠ b then some false else none) = _
        rw [if_neg (not_not.mpr hb)]
    · refine Or.inl ⟨⟨b, he, hb⟩, ?_⟩
      change Except.ok (if mem (base + i + j) ≠ b then some false else none) = _
      rw [if_pos hb]

/-- At a place, the pattern matches when memory disagrees with none of its elements. -/
theorem matchAt_iff (hbase : segment.base = some base) (hi : i + pattern.length ≤ segment.size) :
    segment.MatchAt mem pattern (base + i) ↔
      ∀ j < pattern.length, ¬ Mismatch mem pattern (base + i) j := by
  constructor
  · rintro ⟨_, -, -, -, hmatch⟩ j - ⟨b, hb, hne⟩
    exact hne (hmatch j b hb)
  · intro h
    refine ⟨base, hbase, Nat.le_add_right _ _, by omega, fun j b hb => ?_⟩
    have hj : j < pattern.length := (List.getElem?_eq_some_iff.mp hb).1
    by_contra hne
    exact h j hj ⟨b, hb, hne⟩

/-- A turn at a place of the segment compares the whole pattern. -/
theorem placeTurn_cases (hbase : segment.base = some base) (hi : i + pattern.length ≤ segment.size) :
    segment.MatchAt mem pattern (base + i) ∧
        placeTurn segment mem base (patternBytes pattern) (patternWild pattern) i =
          .ok (some (some (base + i))) ∨
      ¬ segment.MatchAt mem pattern (base + i) ∧
        placeTurn segment mem base (patternBytes pattern) (patternWild pattern) i = .ok none := by
  have hbound := segment.bounded base hbase
  have hlen : (patternBytes pattern).length = pattern.length := List.length_map _
  have hend : compareTurn segment mem base (patternBytes pattern) (patternWild pattern) i
      pattern.length = .ok (some true) := by
    rw [compareTurn, if_neg (by omega)]
    rfl
  have hguard : (i + pattern.length) % 2 ^ 64 ≤ segment.size := by
    rwa [Nat.mod_eq_of_lt (by omega)]
  rw [placeTurn, hlen, if_pos hguard, matchAt_iff hbase hi]
  have hturn := fun j (hj : j < pattern.length) =>
    @compareTurn_cases mem segment base pattern i j hbound hi hj
  rcases @Loop.upward_first _ _ SearchFault.stuck _ _ _ _ _ _ (by omega) (Nat.lt_succ_self _) hturn hend
    with ⟨j, hj, hmis, -, heq⟩ | ⟨hnone, heq⟩
  · refine Or.inr ⟨fun h => h j hj hmis, ?_⟩
    rw [heq]
    rfl
  · refine Or.inl ⟨hnone, ?_⟩
    rw [heq]
    rfl

/-- The search of one segment finds its lowest match. -/
theorem searchSegment_cases (hbase : segment.base = some base)
    (hsize : pattern.length ≤ segment.size) :
    (∃ a, segment.MatchAt mem pattern a ∧ (∀ a', segment.MatchAt mem pattern a' → a ≤ a') ∧
        Loop.upward .stuck (placeTurn segment mem base (patternBytes pattern) (patternWild pattern))
          (segment.size + 2) 0 = .ok (some a)) ∨
      (∀ a, ¬ segment.MatchAt mem pattern a) ∧
        Loop.upward .stuck (placeTurn segment mem base (patternBytes pattern) (patternWild pattern))
          (segment.size + 2) 0 = .ok none := by
  have hbound := segment.bounded base hbase
  have hplace : ∀ a, segment.MatchAt mem pattern a →
      ∃ i < segment.size - pattern.length + 1, a = base + i := by
    rintro a ⟨base', hbase', hle, hin, -⟩
    rw [hbase] at hbase'
    cases hbase'
    exact ⟨a - base, by omega, by omega⟩
  have hend : placeTurn segment mem base (patternBytes pattern) (patternWild pattern)
      (segment.size - pattern.length + 1) = .ok (some none) := by
    have hlen : (patternBytes pattern).length = pattern.length := List.length_map _
    rw [placeTurn, hlen, Nat.mod_eq_of_lt (by omega), if_neg (by omega)]
    rfl
  have hturn := fun i (hi : i < segment.size - pattern.length + 1) =>
    @placeTurn_cases mem segment base pattern i hbase (by omega)
  rcases @Loop.upward_first _ _ SearchFault.stuck _ (segment.size + 2) _ _ _ _ (by omega) (by omega) hturn
    hend with ⟨i, hi, hmatch, hbefore, heq⟩ | ⟨hnone, heq⟩
  · refine Or.inl ⟨base + i, hmatch, fun a' ha' => ?_, heq⟩
    obtain ⟨k, -, rfl⟩ := hplace a' ha'
    have hik : i ≤ k := Nat.le_of_not_lt fun hlt => hbefore k hlt ha'
    omega
  · refine Or.inr ⟨fun a ha => ?_, heq⟩
    obtain ⟨i, hi, rfl⟩ := hplace a ha
    exact hnone i hi ha

/-- A segment that the search skips has no match. -/
theorem not_matchAt_of_skipped
    (h : segment.base = none ∨ segment.size < pattern.length) : ¬ segment.MatchAt mem pattern a := by
  rintro ⟨base, hbase, hle, hin, -⟩
  rcases h with hnull | hsmall
  · rw [hnull] at hbase
    cases hbase
  · omega

/-- No fault, and the first match or null. -/
def Answers (mem : Nat → UInt8) (pattern : List (Option UInt8)) (segments : List ModuleSegment)
    (r : Except SearchFault (Option Nat)) : Prop :=
  (∃ a, FirstMatch mem pattern segments a ∧ r = .ok (some a)) ∨
    (∀ segment ∈ segments, ∀ a, ¬ segment.MatchAt mem pattern a) ∧ r = .ok none

theorem Answers.later {r : Except SearchFault (Option Nat)} (h : Answers mem pattern segments r)
    (hnone : ∀ a, ¬ segment.MatchAt mem pattern a) : Answers mem pattern (segment :: segments) r := by
  rcases h with ⟨a, hfirst, heq⟩ | ⟨hrest, heq⟩
  · exact Or.inl ⟨a, .later hnone hfirst, heq⟩
  · exact Or.inr ⟨List.forall_mem_cons.mpr ⟨hnone, hrest⟩, heq⟩

/-- The segments are searched one after the other. -/
theorem answers_findInSegments : Answers mem pattern segments
    (findInSegments mem (patternBytes pattern) (patternWild pattern) segments) := by
  induction segments with
  | nil => exact Or.inr ⟨List.forall_mem_nil _, rfl⟩
  | cons segment segments ih =>
    have hlen : (patternBytes pattern).length = pattern.length := List.length_map _
    cases hbase : segment.base with
    | none =>
      rw [findInSegments, hbase]
      exact ih.later fun a => not_matchAt_of_skipped (.inl hbase)
    | some base =>
      rw [findInSegments, hbase, hlen]
      dsimp only
      by_cases hsize : segment.size < pattern.length
      · rw [if_pos hsize]
        exact ih.later fun a => not_matchAt_of_skipped (.inr hsize)
      · rw [if_neg hsize]
        rcases searchSegment_cases hbase (Nat.le_of_not_lt hsize) with
          ⟨a, hmatch, hleast, heq⟩ | ⟨hnone, heq⟩
        · rw [heq]
          exact Or.inl ⟨a, .here hmatch hleast, rfl⟩
        · rw [heq]
          exact ih.later hnone

/-- The text of a signature parses to the pattern it was written from, and the search for a pattern
reads inside the segments only: it returns the lowest match in the first segment that has one, and null
exactly where none has. -/
theorem signature_search_faithful :
    (∀ pattern text, Rendered pattern text →
      parseSigString text = (true, patternBytes pattern, patternWild pattern)) ∧
    ∀ mem segments pattern, pattern ≠ [] →
      ∃ hit, findPattern mem segments (patternBytes pattern) (patternWild pattern) = .ok hit ∧
        (hit = none ↔ ∀ segment ∈ segments, ∀ a, ¬ segment.MatchAt mem pattern a) ∧
        ∀ a, hit = some a ↔ FirstMatch mem pattern segments a := by
  refine ⟨fun _ _ => parseSigString_rendered, fun mem segments pattern hne => ?_⟩
  have hguard : ¬ (patternBytes pattern = [] ∨
      (patternBytes pattern).length ≠ (patternWild pattern).length) := by
    simp [patternBytes, patternWild, hne]
  rw [findPattern, if_neg hguard]
  rcases @answers_findInSegments mem segments pattern with ⟨a, hfirst, heq⟩ | ⟨hnone, heq⟩
  · obtain ⟨segment, hmem, hmatch⟩ := hfirst.exists_match
    refine ⟨some a, heq, iff_of_false (Option.some_ne_none a) fun h => h segment hmem a hmatch, ?_⟩
    intro a'
    rw [Option.some.injEq]
    constructor
    · rintro rfl
      exact hfirst
    · exact hfirst.unique
  · refine ⟨none, heq, iff_of_true rfl hnone, fun a => ?_⟩
    refine iff_of_false (Option.some_ne_none a).symm fun hfirst => ?_
    obtain ⟨segment, hmem, hmatch⟩ := hfirst.exists_match
    exact hnone segment hmem a hmatch

/-- A null segment, one shorter than the pattern, and one that matches at its last place. -/
example : findPattern (fun a => UInt8.ofNat a)
    [⟨none, 9, nofun⟩, ⟨some 34, 1, by simp⟩, ⟨some 32, 4, by simp⟩] [34, 0] [false, true] =
      .ok (some 34) :=
  rfl

end Botid
