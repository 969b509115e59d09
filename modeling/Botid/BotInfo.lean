import Botid.Bytes
import Mathlib.Data.List.Basic

/-! The identity pool of `bot_info`: records, plugin features, the map blacklist and `GetFree`. -/
namespace Botid

def kMaxSlots : Int := 64
def kMaxBotIdentities : Nat := 256
def kMaxPersonaNameBytes : Nat := 31
def kSteamIdBase : UInt64 := 0x7400000000000001

structure BotIdentity where
  slot : Int := -1
  steamId : UInt64 := 0
  name : Bytes := []
  ping : Int := 0
  crosshair : Bytes := []
  scoreboardFlair : UInt32 := 0
  applied : Bool := false
  reused : UInt16 := 0
  deriving DecidableEq

structure PluginFeatures where
  enableFakePing : Bool := true
  fakePingMin : Int := 20
  fakePingMax : Int := 90
  enableScoreboardFlair : Bool := true
  scoreboardFlairProbability : Float := 0.3
  defaultScoreboardFlair : UInt32 := 0
  enableCrosshair : Bool := true
  pingJitterPercent : Int := 30
  voteTransactionHoldFrames : Int := 3

/-- Features with every optional decoration switched off. -/
def PluginFeatures.plain : PluginFeatures :=
  { enableFakePing := false, enableScoreboardFlair := false, enableCrosshair := false }

/-- The `rand()` results still to come. -/
structure Rand where
  draws : Nat → Nat
  pos : Nat := 0

def Rand.value (r : Rand) : Nat := r.draws r.pos
def Rand.next (r : Rand) : Rand := { r with pos := r.pos + 1 }

/-- `MapNameMatchesBlacklist`: a non-empty token occurs in the map name, case aside. -/
def mapNameMatchesBlacklist (mapName : Bytes) (tokens : List Bytes) : Bool :=
  if mapName = [] then false
  else tokens.any fun token =>
    token ≠ [] && decide (asciiLowerCopy token <:+: asciiLowerCopy mapName)

/-- The pool `LoadBots` leaves behind: bounded, unassigned, with names that fit their cells. -/
structure LoadedPool where
  bots : List BotIdentity
  count_le : bots.length ≤ kMaxBotIdentities
  slot_eq : ∀ b ∈ bots, b.slot = -1
  not_applied : ∀ b ∈ bots, b.applied = false
  name_le : ∀ b ∈ bots, b.name.length ≤ kMaxPersonaNameBytes

/-- A pool of one identity. -/
def LoadedPool.single (name : Bytes) (steamId : UInt64)
    (h : name.length ≤ kMaxPersonaNameBytes) : LoadedPool where
  bots := [{ name, steamId }]
  count_le := by simp [kMaxBotIdentities]
  slot_eq := by simp
  not_applied := by simp
  name_le := by simpa using h

theorem intel_fits : (ascii "INTEL").length ≤ kMaxPersonaNameBytes := by decide

def resetForReuse (b : BotIdentity) : BotIdentity :=
  { b with slot := -1, applied := false, reused := b.reused + 1 }

def isNameInUse (bots : List BotIdentity) (name : Bytes) (self : Nat) : Bool :=
  bots.zipIdx.any fun (b, i) => i ≠ self && (0 ≤ b.slot && b.name = name)

def isSteamIdInUse (bots : List BotIdentity) (steamId : UInt64) (self : Nat) : Bool :=
  if steamId = 0 then false
  else bots.zipIdx.any fun (b, i) => i ≠ self && (0 ≤ b.slot && b.steamId = steamId)

/-- No other assigned entry has the candidate's name or SteamID64. -/
def isAssignable (bots : List BotIdentity) (i : Nat) : Bool :=
  match bots[i]? with
  | some b => !isNameInUse bots b.name i && !isSteamIdInUse bots b.steamId i
  | none => false

def isFree (bots : List BotIdentity) (i : Nat) : Bool :=
  match bots[i]? with
  | some b => b.slot < 0 && isAssignable bots i
  | none => false

/-- The recycle test: out of range, or on a slot that `IsSlotActive` denies. -/
def isRecyclable (isSlotActive : Int → Bool) (bots : List BotIdentity) (i : Nat) : Bool :=
  match bots[i]? with
  | some b =>
    ((b.slot < 0 || 64 ≤ b.slot) && isAssignable bots i) ||
      (0 ≤ b.slot && b.slot < 64 && !isSlotActive b.slot && isAssignable bots i)
  | none => false

/-- `BotInfo::GetFree`: the index of the entry handed out, the pool after a recycle, the generator. -/
def getFree (isSlotActive : Int → Bool) (bots : List BotIdentity) (r : Rand) :
    Option Nat × List BotIdentity × Rand :=
  let free := (List.range bots.length).filter (isFree bots)
  if 0 < free.length then (free[r.value % free.length]?, bots, r.next)
  else
    match (List.range bots.length).find? (isRecyclable isSlotActive bots) with
    | some i => (some i, bots.modify i resetForReuse, r)
    | none => (none, bots, r)

variable {bots : List BotIdentity} {i j : Nat} {b c : BotIdentity} {active : Int → Bool} {r : Rand}

/-- The entries after one of them was rewritten. -/
theorem getElem?_modify_eq_some {f : BotIdentity → BotIdentity} :
    (bots.modify i f)[j]? = some c ↔
      ∃ b, bots[j]? = some b ∧ c = if j = i then f b else b := by
  rw [List.getElem?_modify]
  cases bots[j]? with
  | none => simp
  | some b => simp [eq_comm]

theorem isNameInUse_iff {name : Bytes} {self : Nat} : isNameInUse bots name self = true ↔
    ∃ i b, bots[i]? = some b ∧ i ≠ self ∧ 0 ≤ b.slot ∧ b.name = name := by
  simp only [isNameInUse, List.any_eq_true, Prod.exists, List.mem_zipIdx_iff_getElem?,
    Bool.and_eq_true, decide_eq_true_eq, ne_eq]
  exact exists_comm

theorem isSteamIdInUse_iff {steamId : UInt64} {self : Nat} :
    isSteamIdInUse bots steamId self = true ↔
      steamId ≠ 0 ∧ ∃ i b, bots[i]? = some b ∧ i ≠ self ∧ 0 ≤ b.slot ∧ b.steamId = steamId := by
  rw [isSteamIdInUse]
  split
  · simp_all
  · simp only [List.any_eq_true, Prod.exists, List.mem_zipIdx_iff_getElem?, Bool.and_eq_true,
      decide_eq_true_eq, ne_eq]
    rw [exists_comm]
    simp_all

/-- Assignability in full: every other assigned entry differs in name and in non-zero SteamID64. -/
theorem isAssignable_iff (hb : bots[i]? = some b) : isAssignable bots i = true ↔
    ∀ j c, bots[j]? = some c → j ≠ i → 0 ≤ c.slot →
      c.name ≠ b.name ∧ (b.steamId ≠ 0 → c.steamId ≠ b.steamId) := by
  rw [isAssignable, hb]
  simp only [Bool.and_eq_true, Bool.not_eq_true', ← Bool.not_eq_true, isNameInUse_iff,
    isSteamIdInUse_iff]
  constructor
  · rintro ⟨hn, hs⟩ j c hj hji hc
    exact ⟨fun he => hn ⟨j, c, hj, hji, hc, he⟩, fun h0 he => hs ⟨h0, j, c, hj, hji, hc, he⟩⟩
  · intro h
    refine ⟨?_, ?_⟩
    · rintro ⟨j, c, hj, hji, hc, he⟩
      exact (h j c hj hji hc).1 he
    · rintro ⟨h0, j, c, hj, hji, hc, he⟩
      exact (h j c hj hji hc).2 h0 he

/-- A refusal leaves the pool as it was. -/
theorem getFree_none {bots' : List BotIdentity} {r' : Rand}
    (h : getFree active bots r = (none, bots', r')) : bots' = bots := by
  rw [getFree] at h
  split at h
  · simp only [Prod.mk.injEq] at h
    exact h.2.1.symm
  · split at h
    · simp at h
    · simp only [Prod.mk.injEq] at h
      exact h.2.1.symm

/-- What `GetFree` can hand out: an unassigned entry as it is, or a reset one off an inactive slot. -/
theorem getFree_some {bots' : List BotIdentity} {r' : Rand}
    (h : getFree active bots r = (some i, bots', r')) :
    ∃ b, bots[i]? = some b ∧ isAssignable bots i = true ∧
      ((b.slot < 0 ∧ bots' = bots) ∨
        (bots' = bots.modify i resetForReuse ∧ (∀ j, isFree bots j = false) ∧
          (b.slot < 0 ∨ 64 ≤ b.slot ∨ active b.slot = false))) := by
  rw [getFree] at h
  split at h
  · simp only [Prod.mk.injEq] at h
    obtain ⟨hi, rfl, -⟩ := h
    have hm := List.mem_of_getElem? hi
    rw [List.mem_filter] at hm
    cases hb : bots[i]? with
    | none => simp [isFree, hb] at hm
    | some b =>
      simp only [isFree, hb, Bool.and_eq_true, decide_eq_true_eq] at hm
      exact ⟨b, rfl, hm.2.2, Or.inl ⟨hm.2.1, rfl⟩⟩
  · rename_i hfree
    have hnone : ∀ j, isFree bots j = false := by
      intro j
      by_contra hj
      rw [Bool.not_eq_false] at hj
      apply hfree
      apply List.length_pos_of_mem (a := j)
      rw [List.mem_filter, List.mem_range]
      refine ⟨?_, hj⟩
      by_contra hlt
      rw [isFree, List.getElem?_eq_none (by omega)] at hj
      simp at hj
    split at h
    · rename_i k hk
      simp only [Prod.mk.injEq, Option.some.injEq] at h
      obtain ⟨rfl, rfl, -⟩ := h
      have hr := List.find?_some hk
      cases hb : bots[k]? with
      | none => simp [isRecyclable, hb] at hr
      | some b =>
        simp only [isRecyclable, hb, Bool.or_eq_true, Bool.and_eq_true, decide_eq_true_eq,
          Bool.not_eq_true'] at hr
        refine ⟨b, rfl, ?_, Or.inr ⟨rfl, hnone, ?_⟩⟩
        · rcases hr with hr | hr <;> exact hr.2
        · rcases hr with ⟨h1 | h1, -⟩ | ⟨⟨-, h1⟩, -⟩
          · exact Or.inl h1
          · exact Or.inr (Or.inl h1)
          · exact Or.inr (Or.inr h1)
    · simp at h

theorem length_getFree {o : Option Nat} {bots' : List BotIdentity} {r' : Rand}
    (h : getFree active bots r = (o, bots', r')) : bots'.length = bots.length := by
  cases o with
  | none => rw [getFree_none h]
  | some i =>
    obtain ⟨b, -, -, ⟨-, rfl⟩ | ⟨rfl, -⟩⟩ := getFree_some h
    · rfl
    · exact List.length_modify _ _ _

end Botid
