import Botid.World
import Mathlib.Logic.Relation

/-! The engine's entity list in memory: `ResolveEntityInstance` walks it as `World` says it does. -/
namespace Botid

open ByteMem Relation

/-- The two ways to the entity system and the offsets of `gamedata.json`; a null pointer is `0`. -/
structure EntityGlobals where
  gameResourceService : Nat := 0
  ppEntSysGlobal : Nat := 0
  offsetInGameResSvc : Nat := 0x58
  identityChunksOffset : Nat := 0x10
  identitySize : Nat := 0x70
  instanceOffset : Nat := 0x00
  classNameOffset : Nat := 0x20

def kEntListChunkSize : Nat := 512

/-- `SafeReadPointer`: null where there is no address. -/
def safeReadPointer (m : Mem) (address : Nat) : Nat := if address = 0 then 0 else readLE m address 8

/-- The loop that copies a class name: at most `n` bytes, up to the first NUL. -/
def copyName (m : Mem) (name : Nat) : Nat → Bytes
  | 0 => []
  | n + 1 => if m name = 0 then [] else m name :: copyName m (name + 1) n

namespace EntityGlobals

def entitySystem (g : EntityGlobals) (m : Mem) : Nat :=
  let fromGlobal := safeReadPointer m g.ppEntSysGlobal
  if fromGlobal = 0 ∧ g.gameResourceService ≠ 0 then
    safeReadPointer m (g.gameResourceService + g.offsetInGameResSvc)
  else fromGlobal

/-- `ResolveEntityInstance`: the instance, and the string it leaves in a buffer of `classnameCap` bytes. -/
def resolveEntityInstance (g : EntityGlobals) (m : Mem) (entityIndex : Int) (classnameCap : Nat) :
    Option Ptr × Bytes :=
  if entityIndex ≤ 0 ∨ 0x8000 ≤ entityIndex then (none, [])
  else if g.entitySystem m = 0 then (none, [])
  else
    let i := entityIndex.toNat
    let chunk := safeReadPointer m
      (g.entitySystem m + g.identityChunksOffset + i / kEntListChunkSize * 8)
    if chunk = 0 then (none, [])
    else
      let identity := chunk + i % kEntListChunkSize * g.identitySize
      let name := readLE m (identity + g.classNameOffset) 8
      let entity := safeReadPointer m (identity + g.instanceOffset)
      (if entity = 0 then none else some entity,
        if name = 0 then [] else copyName m name (classnameCap - 1))

/-- What every caller makes of it: `char className[64]`, and a comparison with `strcmp`. -/
def resolveController (g : EntityGlobals) (m : Mem) (entityIndex : Int) : Option Ptr :=
  let found := g.resolveEntityInstance m entityIndex 64
  if found.2 = ascii "cs_player_controller" then found.1 else none

end EntityGlobals

/-- Where the engine has its entity system and the chunks of its list, `0` for a missing one. -/
structure EntityPlaces where
  system : Nat
  chunk : Nat → Nat
  /-- Class names lie from here. -/
  namesStart : Nat
  namesEnd : Nat

/-- The same places with a chunk that was missing. -/
def EntityPlaces.withChunk (P : EntityPlaces) (c p : Nat) : EntityPlaces :=
  { P with chunk := Function.update P.chunk c p }

@[simp] theorem EntityPlaces.chunk_withChunk {P : EntityPlaces} {c p : Nat} :
    (P.withChunk c p).chunk c = p := by
  simp [EntityPlaces.withChunk]

theorem EntityPlaces.chunk_withChunk_of_ne {P : EntityPlaces} {c d p : Nat} (h : d ≠ c) :
    (P.withChunk c p).chunk d = P.chunk d := by
  simp [EntityPlaces.withChunk, h]

/-- A class name as a C string, or the null pointer for an empty one. -/
inductive NameAt (P : EntityPlaces) (m : Mem) : Nat → Bytes → Prop
  | null : NameAt P m 0 []
  | text {a : Nat} {name : Bytes} (ne : a ≠ 0) (plain : ∀ c ∈ name, c ≠ 0)
    (start : P.namesStart ≤ a) (room : a + name.length < P.namesEnd)
    (bytes : readBytes m a (name.length + 1) = name ++ [0]) : NameAt P m a name

section

variable (g : EntityGlobals) (P : EntityPlaces)

/-- The record of one entity. -/
def EntityPlaces.identity (i : Nat) : Nat :=
  P.chunk (i / kEntListChunkSize) + i % kEntListChunkSize * g.identitySize

/-- The record of entity `i` holds this entry of the table. -/
inductive EntryAt (m : Mem) (i : Nat) : Option (Ptr × Bytes) → Prop
  | missing (chunk : P.chunk (i / kEntListChunkSize) = 0) : EntryAt m i none
  | vacant (chunk : P.chunk (i / kEntListChunkSize) ≠ 0)
    (entity : readLE m (P.identity g i + g.instanceOffset) 8 = 0) : EntryAt m i none
  | entity {p : Ptr} {a : Nat} {name : Bytes} (chunk : P.chunk (i / kEntListChunkSize) ≠ 0) (ne : p ≠ 0)
    (entity : readLE m (P.identity g i + g.instanceOffset) 8 = p)
    (pointer : readLE m (P.identity g i + g.classNameOffset) 8 = a) (name_at : NameAt P m a name) :
    EntryAt m i (some (p, name))

/-- The pointers of the list lead to its chunks. -/
def Chunked (m : Mem) : Prop :=
  ∀ c < 64, safeReadPointer m (P.system + g.identityChunksOffset + c * 8) = P.chunk c

/-- The memory holds the table. -/
structure Laid (m : Mem) (table : Int → Option (Ptr × Bytes)) : Prop where
  system : g.entitySystem m = P.system
  chunks : Chunked g P m
  entries : ∀ i : Nat, 0 < i → i < 0x8000 → EntryAt g P m i (table i)

def InIdentity (i a : Nat) : Prop := P.identity g i ≤ a ∧ a < P.identity g i + g.identitySize

def InChunk (c a : Nat) : Prop := P.chunk c ≤ a ∧ a < P.chunk c + kEntListChunkSize * g.identitySize

/-- The bytes that lead to the entity system, and those of the names. -/
def Settled (a : Nat) : Prop :=
  (g.ppEntSysGlobal ≤ a ∧ a < g.ppEntSysGlobal + 8) ∨
  (g.gameResourceService + g.offsetInGameResSvc ≤ a ∧
    a < g.gameResourceService + g.offsetInGameResSvc + 8) ∨
  (P.namesStart ≤ a ∧ a < P.namesEnd)

/-- With them the pointers to the chunks. -/
def OnTheWay (a : Nat) : Prop :=
  Settled g P a ∨
    (P.system + g.identityChunksOffset ≤ a ∧ a < P.system + g.identityChunksOffset + 64 * 8)

/-- The bytes of all chunks there are. -/
def InChunks (a : Nat) : Prop := ∃ c, c < 64 ∧ P.chunk c ≠ 0 ∧ InChunk g P c a

/-- The engine's objects do not overlap. -/
structure Apart : Prop where
  system_ne : P.system ≠ 0
  instance_fits : g.instanceOffset + 8 ≤ g.identitySize
  name_fits : g.classNameOffset + 8 ≤ g.identitySize
  chunks_apart : ∀ c d a, c < 64 → d < 64 → P.chunk c ≠ 0 → P.chunk d ≠ 0 →
    InChunk g P c a → InChunk g P d a → c = d
  way_apart : ∀ c a, c < 64 → P.chunk c ≠ 0 → InChunk g P c a → ¬ OnTheWay g P a

end

/-- The engine's entities: its places, its memory, and the table the memory stands for. -/
structure EntityHeap where
  places : EntityPlaces
  mem : Mem
  table : Int → Option (Ptr × Bytes)

/-- The engine at work: it rewrites the record of one entity, allocates a chunk of vacant records apart
from everything else, or writes memory that is no part of the list. -/
inductive EntityStep (g : EntityGlobals) : EntityHeap → EntityHeap → Prop
  | rewrite {P : EntityPlaces} {m m' : Mem} {table : Int → Option (Ptr × Bytes)} {i : Nat}
    {entry : Option (Ptr × Bytes)} (pos : 0 < i) (lt : i < 0x8000)
    (chunk : P.chunk (i / kEntListChunkSize) ≠ 0)
    (same : ∀ a, ¬ InIdentity g P i a → m' a = m a) (laid : EntryAt g P m' i entry) :
    EntityStep g ⟨P, m, table⟩ ⟨P, m', Function.update table i entry⟩
  | allocate {P : EntityPlaces} {m m' : Mem} {table : Int → Option (Ptr × Bytes)} {c p : Nat}
    (lt : c < 64) (missing : P.chunk c = 0) (ne : p ≠ 0) (apart : Apart g (P.withChunk c p))
    (same : ∀ a, Settled g P a ∨ InChunks g P a → m' a = m a) (linked : Chunked g (P.withChunk c p) m')
    (vacant : ∀ i : Nat, i / kEntListChunkSize = c →
      readLE m' ((P.withChunk c p).identity g i + g.instanceOffset) 8 = 0) :
    EntityStep g ⟨P, m, table⟩ ⟨P.withChunk c p, m', table⟩
  | other {P : EntityPlaces} {m m' : Mem} {table : Int → Option (Ptr × Bytes)}
    (same : ∀ a, OnTheWay g P a ∨ InChunks g P a → m' a = m a) :
    EntityStep g ⟨P, m, table⟩ ⟨P, m', table⟩

variable {g : EntityGlobals} {P P' : EntityPlaces} {m m' : Mem} {table : Int → Option (Ptr × Bytes)}
  {i j a n : Nat} {c : UInt8} {name : Bytes} {p : Ptr} {entry : Option (Ptr × Bytes)}

theorem copyName_eq (plain : ∀ c ∈ name, c ≠ 0) (bytes : readBytes m a (name.length + 1) = name ++ [0]) :
    copyName m a n = name.take n := by
  induction name generalizing a n with
  | nil =>
    have hnul : m a = 0 := (List.cons.inj bytes).1
    cases n with
    | zero => rfl
    | succ n => rw [copyName, if_pos hnul, List.take_nil]
  | cons c name ih =>
    obtain ⟨hc, hrest⟩ := List.cons.inj bytes
    cases n with
    | zero => rfl
    | succ n =>
      rw [copyName, hc, if_neg (plain c List.mem_cons_self), List.take_succ_cons,
        ih (fun d hd => plain d (List.mem_cons_of_mem c hd)) hrest]

theorem NameAt.copied (h : NameAt P m a name) :
    (if a = 0 then [] else copyName m a n) = name.take n := by
  cases h with
  | null => rw [if_pos rfl, List.take_nil]
  | text ne plain start room bytes => rw [if_neg ne, copyName_eq plain bytes]

theorem safeReadPointer_eq (h : a ≠ 0) : safeReadPointer m a = readLE m a 8 := if_neg h

/-- The walk, once the entity system and its chunks are where they are. -/
theorem Laid.resolveEntityInstance_eq (h : Laid g P m table) (hsystem : P.system ≠ 0) (hpos : 0 < i)
    (hlt : i < 0x8000) (cap : Nat) : g.resolveEntityInstance m i cap =
      if P.chunk (i / kEntListChunkSize) = 0 then (none, [])
      else
        (if readLE m (P.identity g i + g.instanceOffset) 8 = 0 then none
          else some (readLE m (P.identity g i + g.instanceOffset) 8),
          if readLE m (P.identity g i + g.classNameOffset) 8 = 0 then []
          else copyName m (readLE m (P.identity g i + g.classNameOffset) 8) (cap - 1)) := by
  have hrange : ¬ ((i : Int) ≤ 0 ∨ 0x8000 ≤ (i : Int)) := by omega
  have hchunk := h.chunks (i / kEntListChunkSize) (by simp only [kEntListChunkSize]; omega)
  rw [EntityGlobals.resolveEntityInstance, if_neg hrange, h.system, if_neg hsystem]
  dsimp only
  rw [Int.toNat_natCast, hchunk]
  by_cases hnone : P.chunk (i / kEntListChunkSize) = 0
  · rw [if_pos hnone, if_pos hnone]
  · have hne : P.identity g i + g.instanceOffset ≠ 0 := by
      rw [EntityPlaces.identity]
      omega
    rw [if_neg hnone, if_neg hnone, ← EntityPlaces.identity, safeReadPointer_eq hne]

/-- A walk through memory that holds a table ends at the entry of the table. -/
theorem Laid.resolves (h : Laid g P m table) (hsystem : P.system ≠ 0) (w : World)
    (hw : w.entity = table) (index : Int) (cap : Nat) :
    (g.resolveEntityInstance m index cap).1 = (w.resolveEntityInstance index).map Prod.fst ∧
      ∀ p name, w.resolveEntityInstance index = some (p, name) →
        (g.resolveEntityInstance m index cap).2 = name.take (cap - 1) := by
  rw [World.resolveEntityInstance, hw]
  by_cases hrange : index ≤ 0 ∨ 0x8000 ≤ index
  · rw [EntityGlobals.resolveEntityInstance, if_pos hrange, if_pos hrange]
    exact ⟨rfl, by simp⟩
  · obtain ⟨i, rfl⟩ : ∃ i : Nat, index = i := ⟨index.toNat, by omega⟩
    rw [if_neg hrange, h.resolveEntityInstance_eq hsystem (by omega) (by omega) cap]
    have hentry := h.entries i (by omega) (by omega)
    generalize table i = entry at hentry
    cases hentry with
    | missing chunk =>
      rw [if_pos chunk]
      exact ⟨rfl, by simp⟩
    | vacant chunk entity =>
      rw [if_neg chunk, entity]
      exact ⟨rfl, by simp⟩
    | entity chunk ne entity pointer name_at =>
      rw [if_neg chunk, entity, pointer, name_at.copied, if_neg ne]
      refine ⟨rfl, ?_⟩
      rintro _ _ ⟨⟩
      rfl

/-- A string that was cut compares with a shorter one as the whole does. -/
theorem take_eq_iff {s t : Bytes} (h : t.length < n) : s.take n = t ↔ s = t := by
  constructor
  · rintro rfl
    rw [List.length_take] at h
    rw [List.take_of_length_le (by omega)]
  · rintro rfl
    exact List.take_of_length_le h.le

/-- A buffer of 64 bytes is room enough to tell a controller from everything else. -/
theorem Laid.resolveController_eq (h : Laid g P m table) (hsystem : P.system ≠ 0) (w : World)
    (hw : w.entity = table) (index : Int) : g.resolveController m index = w.resolveController index := by
  obtain ⟨hfirst, hname⟩ := h.resolves hsystem w hw index 64
  rw [EntityGlobals.resolveController, World.resolveController, hfirst]
  cases hentry : w.resolveEntityInstance index with
  | none => simp
  | some entry =>
    obtain ⟨p, name⟩ := entry
    have hcut : name.take (64 - 1) = ascii "cs_player_controller" ↔ name = ascii "cs_player_controller" :=
      take_eq_iff (by decide)
    rw [hname p name hentry]
    simp only [hcut, Option.map_some]

theorem inChunk_of_inIdentity (h : InIdentity g P i a) : InChunk g P (i / kEntListChunkSize) a := by
  obtain ⟨hlow, hhigh⟩ := h
  rw [EntityPlaces.identity] at hlow hhigh
  have hroom : i % kEntListChunkSize * g.identitySize + g.identitySize ≤ kEntListChunkSize * g.identitySize := by
    rw [← Nat.succ_mul]
    exact Nat.mul_le_mul_right _ (Nat.mod_lt _ (by decide))
  exact ⟨by omega, by omega⟩

/-- Two entities have two records. -/
theorem not_inIdentity (hapart : Apart g P) (hi : i < 0x8000) (hj : j < 0x8000)
    (hchunk : P.chunk (i / kEntListChunkSize) ≠ 0) (hchunk' : P.chunk (j / kEntListChunkSize) ≠ 0)
    (hne : i ≠ j) (h : InIdentity g P i a) : ¬ InIdentity g P j a := by
  intro h'
  have hlow : i / kEntListChunkSize < 64 := by simp only [kEntListChunkSize]; omega
  have hlow' : j / kEntListChunkSize < 64 := by simp only [kEntListChunkSize]; omega
  have hsame := hapart.chunks_apart _ _ a hlow hlow' hchunk hchunk' (inChunk_of_inIdentity h)
    (inChunk_of_inIdentity h')
  obtain ⟨h₁, h₂⟩ := h
  obtain ⟨h₃, h₄⟩ := h'
  rw [EntityPlaces.identity] at h₁ h₂ h₃ h₄
  rw [hsame] at h₁ h₂
  -- in one chunk the records follow one another
  have hmod : i % kEntListChunkSize ≠ j % kEntListChunkSize := by
    simp only [kEntListChunkSize] at hsame ⊢
    omega
  rcases Nat.lt_or_gt_of_ne hmod with hlt | hlt
  · have := Nat.mul_le_mul_right g.identitySize (Nat.succ_le_of_lt hlt)
    rw [Nat.succ_mul] at this
    omega
  · have := Nat.mul_le_mul_right g.identitySize (Nat.succ_le_of_lt hlt)
    rw [Nat.succ_mul] at this
    omega

theorem NameAt.congr (hsame : ∀ a, Settled g P a → m' a = m a) (h : NameAt P m a name) :
    NameAt P m' a name := by
  cases h with
  | null => exact .null
  | text ne plain start room bytes =>
    refine .text ne plain start room ?_
    rw [← bytes]
    refine readBytes_congr fun k hk => hsame _ ?_
    exact Or.inr (Or.inr ⟨by omega, by omega⟩)

/-- An entry is a matter of its record and of the names. -/
theorem EntryAt.congr (hapart : Apart g P) (hsettled : ∀ a, Settled g P a → m' a = m a)
    (hrecord : P.chunk (i / kEntListChunkSize) ≠ 0 → ∀ a, InIdentity g P i a → m' a = m a)
    (h : EntryAt g P m i entry) : EntryAt g P m' i entry := by
  have hfield : ∀ off, P.chunk (i / kEntListChunkSize) ≠ 0 → off + 8 ≤ g.identitySize →
      readLE m' (P.identity g i + off) 8 = readLE m (P.identity g i + off) 8 := by
    intro off hchunk hoff
    exact readLE_congr fun k hk => hrecord hchunk _ ⟨by omega, by omega⟩
  cases h with
  | missing chunk => exact .missing chunk
  | vacant chunk entity => exact .vacant chunk ((hfield _ chunk hapart.instance_fits).trans entity)
  | entity chunk ne entity pointer name_at =>
    exact .entity chunk ne ((hfield _ chunk hapart.instance_fits).trans entity)
      ((hfield _ chunk hapart.name_fits).trans pointer) (name_at.congr hsettled)

/-- The entity system is a matter of the bytes that lead to it. -/
theorem Laid.system_congr (h : Laid g P m table) (hsettled : ∀ a, Settled g P a → m' a = m a) :
    g.entitySystem m' = P.system := by
  have hpointer : ∀ at', (∀ k < 8, Settled g P (at' + k)) →
      safeReadPointer m' at' = safeReadPointer m at' := by
    intro at' hat
    rw [safeReadPointer, safeReadPointer, readLE_congr fun k hk => hsettled _ (hat k hk)]
  rw [← h.system, EntityGlobals.entitySystem, EntityGlobals.entitySystem,
    hpointer g.ppEntSysGlobal fun k hk => Or.inl ⟨by omega, by omega⟩,
    hpointer (g.gameResourceService + g.offsetInGameResSvc) fun k hk =>
      Or.inr (Or.inl ⟨by omega, by omega⟩)]

theorem Chunked.congr (h : Chunked g P m) (hway : ∀ a, OnTheWay g P a → m' a = m a) :
    Chunked g P m' := by
  intro c hc
  have hpointer : ∀ k < 8, m' (P.system + g.identityChunksOffset + c * 8 + k) =
      m (P.system + g.identityChunksOffset + c * 8 + k) := fun k hk =>
    hway _ (Or.inr ⟨by omega, by omega⟩)
  rw [← h c hc, safeReadPointer, safeReadPointer, readLE_congr hpointer]

/-- A new chunk leaves the entries of the others where they are. -/
theorem EntryAt.withChunk {c p : Nat} (hc : i / kEntListChunkSize ≠ c) (h : EntryAt g P m i entry) :
    EntryAt g (P.withChunk c p) m i entry := by
  have hchunk : (P.withChunk c p).chunk (i / kEntListChunkSize) = P.chunk (i / kEntListChunkSize) :=
    EntityPlaces.chunk_withChunk_of_ne hc
  have hidentity : (P.withChunk c p).identity g i = P.identity g i := by
    rw [EntityPlaces.identity, hchunk, EntityPlaces.identity]
  cases h with
  | missing chunk => exact .missing (hchunk.trans chunk)
  | vacant chunk entity =>
    rw [← hchunk] at chunk
    rw [← hidentity] at entity
    exact .vacant chunk entity
  | entity chunk ne entity pointer name_at =>
    rw [← hchunk] at chunk
    rw [← hidentity] at entity pointer
    refine .entity chunk ne entity pointer ?_
    cases name_at with
    | null => exact .null
    | text ne plain start room bytes => exact .text ne plain start room bytes

/-- An entry of a chunk that is missing. -/
theorem EntryAt.eq_none (h : EntryAt g P m i entry) (hchunk : P.chunk (i / kEntListChunkSize) = 0) :
    entry = none := by
  cases h with
  | missing | vacant => rfl
  | entity chunk => exact absurd hchunk chunk

/-- The engine's objects lie apart, and its memory holds its table. -/
structure EntityHeap.Good (g : EntityGlobals) (h : EntityHeap) : Prop where
  apart : Apart g h.places
  laid : Laid g h.places h.mem h.table

/-- Whatever the engine does to one entity, every other index finds what it found before. -/
theorem good_step {x y : EntityHeap} (h : x.Good g) (hstep : EntityStep g x y) : y.Good g := by
  obtain ⟨hapart, hlaid⟩ := h
  cases hstep with
  | @rewrite P m m' table i entry pos lt chunk same laid =>
    have hlow : i / kEntListChunkSize < 64 := by simp only [kEntListChunkSize]; omega
    have hway : ∀ a, OnTheWay g P a → m' a = m a := fun a ha => same a fun hin =>
      hapart.way_apart _ a hlow chunk (inChunk_of_inIdentity hin) ha
    have hsettled : ∀ a, Settled g P a → m' a = m a := fun a ha => hway a (Or.inl ha)
    refine ⟨hapart, hlaid.system_congr hsettled, hlaid.chunks.congr hway, fun j hj hj' => ?_⟩
    dsimp only
    by_cases hij : j = i
    · subst hij
      rw [Function.update_self]
      exact laid
    · have hother : (j : Int) ≠ i := by omega
      rw [Function.update_of_ne hother]
      exact (hlaid.entries j hj hj').congr hapart hsettled fun hchunk a ha => same a
        (not_inIdentity hapart hj' lt hchunk chunk hij ha)
  | @allocate P m m' table c p lt missing ne apart same linked vacant =>
    have hsettled : ∀ a, Settled g P a → m' a = m a := fun a ha => same a (Or.inl ha)
    refine ⟨apart, hlaid.system_congr hsettled, linked, fun j hj hj' => ?_⟩
    have hentry := hlaid.entries j hj hj'
    have hlow : j / kEntListChunkSize < 64 := by simp only [kEntListChunkSize]; omega
    by_cases hc : j / kEntListChunkSize = c
    · -- no record of the new chunk holds an entity, and the table had none for them
      subst hc
      dsimp only at hentry ⊢
      rw [hentry.eq_none missing]
      refine .vacant ?_ (vacant j rfl)
      rwa [EntityPlaces.chunk_withChunk]
    · refine (hentry.congr hapart hsettled fun hchunk a ha => ?_).withChunk hc
      exact same a (Or.inr ⟨_, hlow, hchunk, inChunk_of_inIdentity ha⟩)
  | @other P m m' table same =>
    have hway : ∀ a, OnTheWay g P a → m' a = m a := fun a ha => same a (Or.inl ha)
    have hsettled : ∀ a, Settled g P a → m' a = m a := fun a ha => hway a (Or.inl ha)
    refine ⟨hapart, hlaid.system_congr hsettled, hlaid.chunks.congr hway, fun j hj hj' => ?_⟩
    have hlow : j / kEntListChunkSize < 64 := by simp only [kEntListChunkSize]; omega
    exact (hlaid.entries j hj hj').congr hapart hsettled fun hchunk a ha =>
      same a (Or.inr ⟨_, hlow, hchunk, inChunk_of_inIdentity ha⟩)

theorem good_run {x y : EntityHeap} (h : x.Good g) (hrun : ReflTransGen (EntityStep g) x y) :
    y.Good g := by
  induction hrun with
  | refl => exact h
  | tail _ hstep ih => exact good_step ih hstep

/-- Through every run of the engine, walking its entity list in memory finds at each index what the table
of the list has there, and takes the same entities for controllers. -/
theorem entity_lookup_refines (g : EntityGlobals) (x y : EntityHeap) (h : x.Good g)
    (hrun : ReflTransGen (EntityStep g) x y) (w : World) (index : Int) :
    let w' : World := { w with entity := y.table }
    g.resolveController y.mem index = w'.resolveController index ∧
      (g.resolveEntityInstance y.mem index 64).1 = (w'.resolveEntityInstance index).map Prod.fst ∧
      ∀ p name, w'.resolveEntityInstance index = some (p, name) →
        (g.resolveEntityInstance y.mem index 64).2 = name.take 63 := by
  intro w'
  obtain ⟨hapart, hlaid⟩ := good_run h hrun
  exact ⟨hlaid.resolveController_eq hapart.system_ne w' rfl index,
    hlaid.resolves hapart.system_ne w' rfl index 64⟩

/-- An entity system without any chunk yet, reached through the global of `UTIL_Remove`. -/
def noChunk : EntityPlaces where
  system := 0x1000
  chunk := fun _ => 0
  namesStart := 0x800
  namesEnd := 0x900

/-- The engine puts its first chunk here. -/
def onlyChunk : EntityPlaces := noChunk.withChunk 0 0x10000

def viaGlobal : EntityGlobals := { ppEntSysGlobal := 8 }

/-- The list before its first chunk, and the class name of controllers. -/
def noList : Mem :=
  writeBytes (writeLE (fun _ => 0) 8 8 0x1000) 0x800 (ascii "cs_player_controller" ++ [0])

/-- The empty list. -/
def emptyList : Mem := writeLE noList 0x1010 8 0x10000

/-- The engine spawns a controller as entity 1. -/
def oneController : Mem := writeLE (writeLE emptyList 0x10070 8 0x9000) 0x10090 8 0x800

theorem onlyChunk_ne {c : Nat} (h : onlyChunk.chunk c ≠ 0) : c = 0 := by
  by_contra hc
  exact h (EntityPlaces.chunk_withChunk_of_ne hc)

theorem apart_onlyChunk : Apart viaGlobal onlyChunk where
  system_ne := by decide
  instance_fits := by decide
  name_fits := by decide
  chunks_apart := by
    intro c d a _ _ hc hd _ _
    rw [onlyChunk_ne hc, onlyChunk_ne hd]
  way_apart := by
    intro c a _ hc hin
    rw [onlyChunk_ne hc] at hin
    simp only [InChunk, onlyChunk, EntityPlaces.chunk_withChunk] at hin
    simp only [OnTheWay, Settled, onlyChunk, EntityPlaces.withChunk, noChunk, viaGlobal]
    omega

theorem good_noList : EntityHeap.Good viaGlobal ⟨noChunk, noList, fun _ => none⟩ where
  apart :=
    { system_ne := by decide
      instance_fits := by decide
      name_fits := by decide
      chunks_apart := fun _ _ _ _ _ hc => absurd rfl hc
      way_apart := fun _ _ _ hc => absurd rfl hc }
  laid :=
    { system := by decide
      chunks := by
        intro c hc
        revert c
        decide
      entries := fun _ _ _ => .missing rfl }

theorem readLE_emptyList (h : 0x10000 ≤ a) : readLE emptyList a 8 = 0 := by
  have hzero : ∀ k < 8, emptyList (a + k) = (fun _ => 0 : Mem) (a + k) := by
    intro k _
    have hlen : (ascii "cs_player_controller" ++ [0]).length = 21 := by decide
    have hout : ¬ (0x800 ≤ a + k ∧ a + k < 0x800 + 21) := by omega
    rw [emptyList, writeLE_out (by omega), noList, writeBytes, hlen, if_neg hout, writeLE_out (by omega)]
  rw [@readLE_congr emptyList (fun _ => 0) a 8 hzero]
  simp [readLE]

theorem allocates_onlyChunk : EntityStep viaGlobal ⟨noChunk, noList, fun _ => none⟩
    ⟨onlyChunk, emptyList, fun _ => none⟩ := by
  refine .allocate (c := 0) (by decide) rfl (by decide) apart_onlyChunk (fun a ha => ?_) ?_ fun i hi => ?_
  · rcases ha with hsettled | ⟨_, _, hchunk, _⟩
    · simp only [Settled, noChunk, viaGlobal] at hsettled
      rw [emptyList, writeLE_out (by omega)]
    · exact absurd rfl hchunk
  · intro c hc
    revert c
    decide
  · refine readLE_emptyList ?_
    rw [EntityPlaces.identity, hi, EntityPlaces.chunk_withChunk]
    omega

theorem spawns_oneController : EntityStep viaGlobal ⟨onlyChunk, emptyList, fun _ => none⟩
    ⟨onlyChunk, oneController,
      Function.update (fun _ => none) 1 (some (0x9000, ascii "cs_player_controller"))⟩ := by
  refine .rewrite (i := 1) (by decide) (by decide) (by decide) (fun a ha => ?_) ?_
  · simp only [InIdentity, EntityPlaces.identity, onlyChunk, EntityPlaces.chunk_withChunk, viaGlobal,
      kEntListChunkSize] at ha
    norm_num at ha
    rw [oneController, writeLE_out (by omega), writeLE_out (by omega)]
  · exact .entity (a := 0x800) (by decide) (by decide) (by decide) (by decide)
      (.text (by decide) (by decide +kernel) (by decide) (by decide) (by decide))

theorem entity_lookup_refines_spawn :
    viaGlobal.resolveController oneController 1 = some 0x9000 := by
  have h := entity_lookup_refines viaGlobal _ _ good_noList
    (.tail (.single allocates_onlyChunk) spawns_oneController) (World.ofClients [100] nodup_solo) 1
  exact h.1.trans (by simp [World.resolveController, World.resolveEntityInstance])

end Botid
