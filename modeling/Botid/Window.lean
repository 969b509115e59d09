import Botid.LiveIdentities

/-! The identity window covers its command, as long as it is opened for it. -/
namespace Botid

open Machine ByteMem World

variable {E : EngineCalls} {st : State} {w w' : World} {ids : Identities} {v : Vote} {s t : Int}
  {p q : Ptr} {m : Mem} {snapshot : VoteSlotSnapshot} {controller : Option Ptr}
  {name target : Bytes} {arguments : List Bytes}

/-- The slot's client, where it resolves, carries the native markers. -/
def Covered (w : World) (s : Int) : Prop :=
  ∀ p, w.resolveClientBySlot s = some p → Native (w.client p)

/-- Zeroing the copies of a client's SteamID64 also zeroes its `m_bFakePlayer`. -/
def ScanHitsFakePlayer (m : Mem) : Prop :=
  readSteamId m ≠ 0 ∧
    Covers (steamIdHits (readSteamId m) kSscScanBytes (setFakePlayer m)) offFakePlayer

theorem client_applyNativeVoteMarkers :
    (applyNativeVoteMarkers w snapshot p controller).2.client p =
      writeSteamId
        (if snapshot.sscSteamId = 0 then setFakePlayer (w.client p)
        else (scanRegion snapshot.sscSteamId false kSscScanBytes snapshot.copies
          (setFakePlayer (w.client p))).2) 0 := by
  simp only [applyNativeVoteMarkers, scanAndZeroSteamIdCopies]
  split
  · simp
  · cases controller with
    | none => simp [onLiveController]
    | some c => simp [onLiveController]

/-- The markers come out native unless the scan takes the fake-player byte for a copy. -/
theorem native_applyNativeVoteMarkers (hsid : snapshot.sscSteamId = readSteamId (w.client p)) :
    Native ((applyNativeVoteMarkers w snapshot p controller).2.client p) ↔
      ¬ ScanHitsFakePlayer (w.client p) := by
  rw [client_applyNativeVoteMarkers, hsid]
  have hids : ∀ m : Mem, readLE (writeSteamId m 0) offSteamID 8 = 0 ∧
      readLE (writeSteamId m 0) offSteamIDMirror 8 = 0 := fun m => readLE_writeSteamId
  rw [Native, and_iff_left (hids _), writeSteamId_out (by decide), ScanHitsFakePlayer]
  by_cases h0 : readSteamId (w.client p) = 0
  · simp [h0]
  · rw [if_neg h0, scanRegion_mem, setFakePlayer_fakePlayer]
    simp [h0]

@[simp] theorem sscSteamId_takeSnapshot :
    (takeSnapshot w s p).sscSteamId = readSteamId (w.client p) := by
  simp only [takeSnapshot]
  split <;> rfl

/-- A capture writes the slot's own client only. -/
theorem onlyClient_captureOneManagedSlot :
    w.OnlyMemory (captureOneManagedSlot ids v w s).2.2 ∧
      ∀ q, w.resolveClientBySlot s ≠ some q →
        (captureOneManagedSlot ids v w s).2.2.client q = w.client q := by
  rw [captureOneManagedSlot]
  split
  · exact ⟨.refl, fun _ _ => rfl⟩
  · dsimp only
    split
    · exact ⟨.refl, fun _ _ => rfl⟩
    · split
      · exact ⟨.refl, fun _ _ => rfl⟩
      · rename_i client hc
        have h := onlyClient_applyNativeVoteMarkers w client (takeSnapshot w s client)
          (takeSnapshot w s client).controller
        refine ⟨h.1, fun q hq => h.2 q ?_⟩
        rintro rfl
        exact hq hc

theorem native_captureOneManagedSlot (hm : ids.isManaged s = true)
    (hp : w.resolveClientBySlot s = some p) :
    Native ((captureOneManagedSlot ids v w s).2.2.client p) ↔ ¬ ScanHitsFakePlayer (w.client p) := by
  have hrange := Identities.range_of_isManaged hm
  rw [captureOneManagedSlot, if_neg (by omega)]
  simp only [hm, hp, Bool.not_true, Bool.false_eq_true, if_false]
  exact native_applyNativeVoteMarkers sscSteamId_takeSnapshot

/-- A capture covers a slot that is managed, whoever else is captured before and after it. -/
theorem native_captureManagedSlots (hm : ids.isManaged s = true)
    (hp : w.resolveClientBySlot s = some p) :
    w.OnlyMemory (captureManagedSlots ids v w).2 ∧
      (Native ((captureManagedSlots ids v w).2.client p) ↔ ¬ ScanHitsFakePlayer (w.client p)) := by
  have hrange := Identities.range_of_isManaged hm
  have hother : ∀ (y : Vote × World) (t : Int), t ≠ s → w.OnlyMemory y.2 →
      w.OnlyMemory (if ids.isManaged t then (captureOneManagedSlot ids y.1 y.2 t).2 else y).2 ∧
        (if ids.isManaged t then (captureOneManagedSlot ids y.1 y.2 t).2 else y).2.client p =
          y.2.client p := by
    intro y t hts hy
    split
    · obtain ⟨hmem, hclient⟩ :=
        onlyClient_captureOneManagedSlot (v := y.1) (w := y.2) (s := t)
      refine ⟨hy.trans hmem, hclient p fun ht => hts ?_⟩
      rw [hy.resolveClientBySlot] at ht
      exact resolveClientBySlot_inj ht hp
    · exact ⟨hy, rfl⟩
  apply forSlots_at _ (J := fun y : Vote × World => w.OnlyMemory y.2 ∧ y.2.client p = w.client p)
    (Q := fun y : Vote × World =>
      w.OnlyMemory y.2 ∧ (Native (y.2.client p) ↔ ¬ ScanHitsFakePlayer (w.client p)))
    hrange.1 hrange.2
  · rintro y t hts ⟨hy, hc⟩
    obtain ⟨hmem, hclient⟩ := hother y t hts hy
    exact ⟨hmem, hclient.trans hc⟩
  · rintro y ⟨hy, hc⟩
    rw [if_pos hm]
    refine ⟨hy.trans onlyClient_captureOneManagedSlot.1, ?_⟩
    rw [← hc]
    exact native_captureOneManagedSlot hm (by rw [hy.resolveClientBySlot, hp])
  · rintro y t hts ⟨hy, hc⟩
    obtain ⟨hmem, hclient⟩ := hother y t hts hy
    exact ⟨hmem, by rw [hclient, hc]⟩
  · exact ⟨.refl, rfl⟩

/-- Opening a window in this engine state covers the slot: no window is open yet and the scan spares
the slot's fake-player byte, or the open window covers the slot already. -/
def WindowReaches (v : Vote) (w : World) (s : Int) : Prop :=
  if v.depth = 0 then ∀ p, w.resolveClientBySlot s = some p → ¬ ScanHitsFakePlayer (w.client p)
  else Covered w s

theorem covered_iff_of_native (hw : w.OnlyMemory w')
    (h : ∀ p, w.resolveClientBySlot s = some p →
      (Native (w'.client p) ↔ ¬ ScanHitsFakePlayer (w.client p))) :
    Covered w' s ↔
      ∀ p, w.resolveClientBySlot s = some p → ¬ ScanHitsFakePlayer (w.client p) := by
  simp only [Covered, hw.resolveClientBySlot]
  exact forall_congr' fun p => forall_congr' fun hp => h p hp

theorem covered_beginVoteTransaction (hm : st.ids.isManaged s = true) :
    Covered (beginVoteTransaction st).world s ↔ WindowReaches st.vote st.world s := by
  rw [beginVoteTransaction, WindowReaches]
  split
  · cases hc : st.world.resolveClientBySlot s with
    | none =>
      refine iff_of_true (fun p hp => ?_) (fun p hp => by simp at hp)
      have hmem : st.world.OnlyMemory (captureManagedSlots st.ids
          { st.vote with depth := st.vote.depth + 1 } st.world).2 :=
        forSlots_invariant (I := fun y : Vote × World => st.world.OnlyMemory y.2) (fun y t hy => by
          split
          · exact hy.trans onlyClient_captureOneManagedSlot.1
          · exact hy) .refl
      rw [hmem.resolveClientBySlot, hc] at hp
      simp at hp
    | some p =>
      have hcap := native_captureManagedSlots (v := { st.vote with depth := st.vote.depth + 1 }) hm hc
      rw [← hc]
      refine covered_iff_of_native hcap.1 fun q hq => ?_
      obtain rfl : p = q := Option.some.inj (hc.symm.trans hq)
      exact hcap.2
  · rfl

theorem covered_beginVoteTransactionForSlot (hm : st.ids.isManaged s = true) :
    Covered (beginVoteTransactionForSlot st s).world s ↔ WindowReaches st.vote st.world s := by
  rw [beginVoteTransactionForSlot, WindowReaches]
  split
  · exact covered_iff_of_native onlyClient_captureOneManagedSlot.1
      fun p hp => native_captureOneManagedSlot hm hp
  · rfl

/-- What leaves the client list and all marker bytes alone leaves the cover alone. -/
theorem covered_congr (h : WritesWithin (fun _ => False) (fun _ => True) w w') :
    Covered w' s ↔ Covered w s := by
  simp only [Covered, h.stays s trivial]
  refine forall_congr' fun p => forall_congr' fun _ => native_congr fun a ha => ?_
  exact h.keeps p (fun _ hf => hf.elim) a ha

/-- The commands that concern every managed slot. -/
def addressesEveryone (name : Bytes) (arguments : List Bytes) : Bool :=
  name = ascii "callvote" ∨ name = ascii "kick" ∨ name = ascii "kickid" ∨ name = ascii "banid" ∨
    (name = ascii "bot_kick" ∧
      arguments[1]?.all fun arg => copyKickTarget arg = [] ∨ isBotKickGroupTarget (copyKickTarget arg))

/-- The engine by the time a command asks for its window: some bots were moved to spectators. -/
def worldAtWindow (E : EngineCalls) (st : State) (name : Bytes) (arguments : List Bytes) : World :=
  let named := namedBotKickSlot st.ids name arguments
  if 0 ≤ named.1 then moveManagedBotToSpectator E st.ids st.world named.1
  else if name = ascii "bot_kick" ∧ (named.2 = [] ∨ named.2 = ascii "all") then
    forSlots (moveManagedBotToSpectator E st.ids) st.world
  else st.world

/-- A kick of a group opens its window in the state it finds after the spectator moves. -/
theorem covered_kickGroup (hm : st.ids.isManaged s = true) :
    Covered (kickGroup E st name target).world s ↔
      WindowReaches st.vote
        (if name = ascii "bot_kick" ∧ (target = [] ∨ target = ascii "all") then
          forSlots (moveManagedBotToSpectator E st.ids) st.world
        else st.world) s := by
  have hbegin : ∀ w : World, Covered
      (if !st.vote.active ∨ st.populationDepth ≠ 0 then
        { beginVoteTransaction { st with world := w } with
          populationDepth :=
            (beginVoteTransaction { st with world := w }).populationDepth + 1 }
      else { st with world := w }).world s ↔ WindowReaches st.vote w s := by
    intro w
    split
    · exact covered_beginVoteTransaction hm
    · rename_i ha
      rw [WindowReaches, if_neg]
      rw [not_or] at ha
      simpa [Vote.active] using ha.1
  unfold kickGroup
  dsimp only
  split
  · exact hbegin _
  · exact hbegin _

theorem isManaged_findManagedSlotByPersonaName (h : 0 ≤ findManagedSlotByPersonaName ids name) :
    ids.isManaged (findManagedSlotByPersonaName ids name) = true := by
  rw [findManagedSlotByPersonaName] at h ⊢
  split at h
  · omega
  · rename_i hname
    rw [if_neg hname]
    refine forSlots_invariant (I := fun found => 0 ≤ found → ids.isManaged found = true) ?_
      (fun h => by omega) h
    intro found t hfound
    rw [findPersonaStep]
    split
    · exact hfound
    · rename_i hm
      split
      · exact hfound
      · split
        · exact hfound
        · split
          · exact fun _ => by simpa using hm
          · exact hfound

/-- A named kick names a managed slot. -/
theorem isManaged_namedBotKickSlot (h : 0 ≤ (namedBotKickSlot ids name arguments).1) :
    ids.isManaged (namedBotKickSlot ids name arguments).1 = true := by
  rw [namedBotKickSlot] at h ⊢
  split
  · rename_i hname
    rw [if_pos hname] at h
    simp at h
  · rename_i hname
    rw [if_neg hname] at h
    split at h
    · simp at h
    · dsimp only at h ⊢
      split at h
      · simp at h
      · rename_i ht
        rw [if_neg ht]
        exact isManaged_findManagedSlotByPersonaName h

theorem namedBotKickSlot_of_addressesEveryone (ids : Identities)
    (h : addressesEveryone name arguments = true) :
    (namedBotKickSlot ids name arguments).1 = -1 ∧
      (name = ascii "bot_kick" → (namedBotKickSlot ids name arguments).2 = [] ∨
        isBotKickGroupTarget (namedBotKickSlot ids name arguments).2 = true) := by
  rw [namedBotKickSlot]
  split
  · exact ⟨rfl, fun _ => Or.inl rfl⟩
  · rename_i hname
    rw [ne_eq, not_not] at hname
    subst hname
    cases harg : arguments[1]? with
    | none => exact ⟨rfl, fun _ => Or.inl rfl⟩
    | some arg =>
      have hgroup : copyKickTarget arg = [] ∨ isBotKickGroupTarget (copyKickTarget arg) = true := by
        rw [addressesEveryone, harg, decide_eq_true_eq] at h
        rcases h with h | h | h | h | h
        · exact absurd h (by decide)
        · exact absurd h (by decide)
        · exact absurd h (by decide)
        · exact absurd h (by decide)
        · simpa using h.2
      dsimp only
      rw [if_pos hgroup]
      exact ⟨rfl, fun _ => hgroup⟩

/-- A command for everyone that is no vote is a group kick. -/
theorem isKickCommand_of_addressesEveryone (h : addressesEveryone name arguments = true)
    (hv : name ≠ ascii "callvote") : isKickCommand name = true := by
  rw [addressesEveryone, decide_eq_true_eq] at h
  rw [isKickCommand, decide_eq_true_eq]
  rcases h with h | h | h | h | ⟨h, -⟩
  · exact absurd h hv
  · exact Or.inr (Or.inl h)
  · exact Or.inr (Or.inr (Or.inl h))
  · exact Or.inr (Or.inr (Or.inr h))
  · exact Or.inl h

theorem covered_addressesEveryone (hg : st.gate.suspended = false)
    (h : addressesEveryone name arguments = true) (hm : st.ids.isManaged s = true) :
    Covered (dispatchConCommandPre E st (some name) arguments).world s ↔
      WindowReaches st.vote (worldAtWindow E st name arguments) s := by
  obtain ⟨hnone, hgroup⟩ := namedBotKickSlot_of_addressesEveryone st.ids h
  rw [worldAtWindow]
  simp only [dispatchConCommandPre, hg, Bool.false_eq_true, if_false, hnone,
    show ¬ (0 : Int) ≤ -1 by decide]
  by_cases hv : name = ascii "callvote"
  · subst hv
    rw [if_pos rfl, if_neg fun h => absurd h.1 (by decide)]
    exact covered_beginVoteTransaction hm
  · rw [if_neg hv, if_pos (isKickCommand_of_addressesEveryone h hv), if_neg]
    · exact covered_kickGroup hm
    · rintro ⟨hk, hne, hng⟩
      rcases hgroup hk with hnil | hg'
      · exact hne hnil
      · simp [hg'] at hng

theorem not_callvote_of_named (h : 0 ≤ (namedBotKickSlot ids name arguments).1) :
    name = ascii "bot_kick" := by
  by_contra hne
  rw [namedBotKickSlot, if_pos hne] at h
  simp at h

theorem covered_namedKick (hg : st.gate.suspended = false)
    (h : (namedBotKickSlot st.ids name arguments).1 = s) (h0 : 0 ≤ s) :
    Covered (dispatchConCommandPre E st (some name) arguments).world s ↔
      WindowReaches st.vote (worldAtWindow E st name arguments) s := by
  subst h
  have hm := isManaged_namedBotKickSlot h0
  have hname := not_callvote_of_named h0
  rw [worldAtWindow, if_pos h0]
  generalize hs : (namedBotKickSlot st.ids name arguments).1 = s at h0 hm ⊢
  subst hname
  simp only [dispatchConCommandPre, hg, Bool.false_eq_true, if_false, hs, h0, if_true,
    show ascii "bot_kick" ≠ ascii "callvote" by decide, show isKickCommand (ascii "bot_kick") = true by decide]
  unfold kickNamedBot
  rw [covered_congr writesWithin_kickManagedBotByUserId]
  dsimp only
  split
  · have hm' : ({ st with world := moveManagedBotToSpectator E st.ids st.world s } :
        State).ids.isManaged s = true := hm
    exact covered_beginVoteTransactionForSlot hm'
  · rename_i ha
    rw [WindowReaches, if_neg]
    rw [not_or] at ha
    simpa [Vote.active] using ha.1

/-- In every reachable unsuspended state, a command that needs its window finds a slot covered exactly
when no window is open and the scan spares the slot, or the open one covers the slot already. -/
theorem window_covers_command_iff {features : PluginFeatures} {mapBlacklist : List Bytes}
    {pool : LoadedPool} {mapped : Bool} {draws : Nat → Nat} {w₀ : World} {es : List Event}
    (hg : (run (step E) (load features mapBlacklist pool mapped draws w₀) es).gate.suspended = false) :
    let st := (run (step E) (load features mapBlacklist pool mapped draws w₀) es).withWorld w
    let st' := dispatchConCommandPre E st (some name) arguments
    (addressesEveryone name arguments = true → ∀ s, st.ids.isManaged s = true →
      (Covered st'.world s ↔ WindowReaches st.vote (worldAtWindow E st name arguments) s)) ∧
    (∀ s, (namedBotKickSlot st.ids name arguments).1 = s → 0 ≤ s →
      (Covered st'.world s ↔ WindowReaches st.vote (worldAtWindow E st name arguments) s)) := by
  intro st st'
  exact ⟨fun h s hm => covered_addressesEveryone hg h hm,
    fun s h h0 => covered_namedKick hg h h0⟩

theorem window_covers_first_vote :
    Covered (dispatchConCommandPre .idle
      ((run (step .idle) duoLoad twoConnectsRun).withWorld (onTwoClients 0 (.gameFrame 0)).world)
      (some (ascii "callvote")) []).world 0 := by
  apply ((window_covers_command_iff (by decide +kernel)).1 (by decide) 0 (by decide +kernel)).mpr
  rw [WindowReaches, if_pos (by decide +kernel)]
  intro p hp
  obtain rfl : 100 = p :=
    Option.some.inj ((by decide +kernel : some 100 = _).trans hp)
  exact fun h => h.1 (by decide +kernel)

/-- A hook that finds the engine as the last one left it. -/
def quietStep (E : EngineCalls) (st : State) (hook : Hook) : State := step E st ⟨st.world, hook⟩

/-- Two bots connect, and one of them is kicked by name. -/
def kickedByNameRun : List Hook :=
  [.onClientConnected 0 none 0 true, .onClientConnected 1 none 0 true,
    .dispatchConCommandPre (some (ascii "bot_kick")) [ascii "bot_kick", ascii "INTEL"],
    .dispatchConCommandPost (some (ascii "bot_kick")) [ascii "bot_kick", ascii "INTEL"]]

/-- A vote called while the named kick's window is held leaves the other bot disguised. -/
theorem window_misses_second_bot :
    let held := run (quietStep .idle) duoLoad kickedByNameRun
    let voted := quietStep .idle held (.dispatchConCommandPre (some (ascii "callvote")) [])
    (held.gate.suspended = false ∧ held.populationDepth = 0 ∧ held.vote.endScheduled = true ∧
      held.serverCommands = [ascii "kickid 0\n"]) ∧
      voted.ids.isManaged 1 = true ∧ ¬ Covered voted.world 1 := by
  refine ⟨by decide +kernel, by decide +kernel, fun h => absurd (h 400 ?_) ?_⟩
  · decide +kernel
  · decide +kernel

end Botid
