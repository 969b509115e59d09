import Botid.RegistryRules

/-! What each hook does to the registry. -/
namespace Botid

variable {st : State} {s : Int} {i : Nat} {b : BotIdentity} {E : EngineCalls}
  {I I' J : Registry → Prop} {P : Int → Prop} {name target : Bytes} {command : Option Bytes}
  {arguments : List Bytes} {nowSec : Float}

@[simp] theorem registry_beginVoteTransaction :
    (beginVoteTransaction st).registry = st.registry := by
  rw [beginVoteTransaction]
  split <;> rfl

@[simp] theorem registry_beginVoteTransactionForSlot :
    (beginVoteTransactionForSlot st s).registry = st.registry := by
  rw [beginVoteTransactionForSlot]
  split <;> rfl

@[simp] theorem registry_kickManagedBotByUserId :
    (kickManagedBotByUserId st s).registry = st.registry := by
  rw [kickManagedBotByUserId]
  split
  · rfl
  · dsimp only
    split <;> rfl

@[simp] theorem registry_kickNamedBot : (kickNamedBot E st s).registry = st.registry := by
  simp only [kickNamedBot, registry_kickManagedBotByUserId]
  split
  · exact registry_beginVoteTransactionForSlot
  · rfl

@[simp] theorem registry_kickGroup : (kickGroup E st name target).registry = st.registry := by
  simp only [kickGroup]
  split <;> split
  · exact registry_beginVoteTransaction
  · rfl
  · exact registry_beginVoteTransaction
  · rfl

@[simp] theorem registry_endKickCommand : (endKickCommand st).registry = st.registry := by
  rw [endKickCommand]
  split
  · rfl
  · dsimp only
    split <;> rfl

@[simp] theorem registry_reapAfterPopulationCommand :
    (reapAfterPopulationCommand E st).registry = st.registry := rfl

/-- A pass of the jitter loop leaves everything, or publishes one ping with one draw. -/
theorem jitterSlot_cases (pct : Int) (ids : Identities) (p : Shm × Rand) (s : Int) :
    jitterSlot pct ids p s = p ∨ ∃ ping, jitterSlot pct ids p s = (p.1.publishPing s ping, p.2.next) := by
  rw [jitterSlot]
  split
  · exact Or.inl rfl
  · split
    · exact Or.inl rfl
    · split
      · exact Or.inl rfl
      · exact Or.inr ⟨_, rfl⟩

@[simp] theorem registry_jitterPings : (jitterPings st nowSec).registry = st.registry := by
  have hloop : ∀ pct : Int,
      (forSlots (jitterSlot pct st.ids) (st.shm, st.rand)).1.mapped = st.shm.mapped ∧
        (forSlots (jitterSlot pct st.ids) (st.shm, st.rand)).1.record = st.shm.record := by
    intro pct
    apply forSlots_invariant (I := fun p : Shm × Rand =>
      p.1.mapped = st.shm.mapped ∧ p.1.record = st.shm.record) _ ⟨rfl, rfl⟩
    rintro p t ⟨hm, hr⟩
    rcases jitterSlot_cases pct st.ids p t with h | ⟨ping, h⟩
    · rw [h]
      exact ⟨hm, hr⟩
    · rw [h]
      exact ⟨Shm.mapped_publish.trans hm, Shm.record_publishPing.trans hr⟩
  rw [jitterPings]
  split
  · rfl
  · split
    · rfl
    · simp only [State.registry, hloop]

@[simp] theorem world_jitterPings : (jitterPings st nowSec).world = st.world := by
  rw [jitterPings]
  split
  · rfl
  · split <;> rfl

/-- Only a `bot_add` touches the registry before it runs. -/
theorem dispatchConCommandPre_rule
    (h : command.any isBotAddCommand = true → DisguiseRule I fun _ => True)
    (hi : I st.registry) : I (dispatchConCommandPre E st command arguments).registry := by
  rcases dispatchConCommandPre_cases E st command arguments with
    he | ⟨-, he | ⟨s, he⟩ | ⟨name, target, he⟩ | ⟨hadd, -, he⟩⟩
  · rwa [he]
  · rwa [he, registry_beginVoteTransaction]
  · rwa [he, registry_kickNamedBot]
  · rwa [he, registry_kickGroup]
  · rw [he, forceEndVoteTransaction]
    split
    · exact hi
    · exact closeVoteTransaction_rule (h hadd) hi

theorem pollMapGate_rule
    (h : mapNameMatchesBlacklist (buildMapIdentity st.world) st.mapBlacklist = true →
      ReleaseRule st.world I J)
    (hi : I st.registry) : I (pollMapGate st).registry := by
  rw [pollMapGate]
  split
  · exact hi
  · exact applyMapGate_rule h hi

/-- Two names in a row, the second one read off the engine after the first took effect. -/
theorem applyMapGate_pollMapGate_rule
    (hn : mapNameMatchesBlacklist name st.mapBlacklist = true → ReleaseRule st.world I J)
    (h : mapNameMatchesBlacklist (buildMapIdentity st.world) st.mapBlacklist = true →
      ReleaseRule st.world I J)
    (hi : I st.registry) : I (pollMapGate (applyMapGate st name)).registry := by
  apply pollMapGate_rule (J := J) _ (applyMapGate_rule hn hi)
  rw [buildMapIdentity_of_onlyMemory onlyMemory_applyMapGate, mapBlacklist_applyMapGate]
  exact fun hm => (h hm).of_onlyMemory onlyMemory_applyMapGate

theorem onLevelInit_rule {mapName : Option Bytes}
    (h : st.OffersBlacklisted (.onLevelInit mapName) → ReleaseRule st.world I J)
    (hi : I st.registry) : I (onLevelInit st mapName).registry := by
  have hlive : mapNameMatchesBlacklist (buildMapIdentity st.world) st.mapBlacklist = true →
      ReleaseRule st.world I J := fun hm => h ⟨_, by simp [State.offers], hm⟩
  cases mapName with
  | none => exact pollMapGate_rule hlive hi
  | some name =>
    simp only [onLevelInit]
    split
    · exact applyMapGate_pollMapGate_rule (fun hm => h ⟨_, by simp [State.offers], hm⟩) hlive hi
    · exact pollMapGate_rule hlive hi

theorem dispatchConCommandPost_rule
    (hg : st.OffersBlacklisted (.dispatchConCommandPost command arguments) →
      ReleaseRule st.world I J)
    (h : command.any isBotAddCommand = true → DisguiseRule I fun _ => True)
    (hi : I st.registry) : I (dispatchConCommandPost E st command arguments).registry := by
  cases command with
  | none => exact hi
  | some name =>
    rcases dispatchConCommandPost_cases E st (some name) arguments with
      he | ⟨hm, hmap⟩ | ⟨-, he | ⟨st₁, hkick, he⟩⟩
    · rwa [he]
    · rw [Option.any_some] at hm
      have hlive : mapNameMatchesBlacklist (buildMapIdentity st.world) st.mapBlacklist = true →
          ReleaseRule st.world I J := fun h => hg ⟨_, by simp [State.offers, hm], h⟩
      rcases hmap with he | ⟨arg, harg, he⟩
      · rw [he]
        exact pollMapGate_rule hlive hi
      · rw [he, hintMapGate]
        split
        · exact pollMapGate_rule hlive hi
        · exact applyMapGate_pollMapGate_rule
            (fun h => hg ⟨_, by simp [State.offers, hm, harg], h⟩) hlive hi
    · rw [he]
      exact hi
    · have hkicked : I st₁.registry := by
        rcases hkick with rfl | rfl
        · exact hi
        · rwa [registry_endKickCommand]
      rcases he with he | he | ⟨hadd, he⟩
      · rwa [he]
      · rwa [he, registry_reapAfterPopulationCommand]
      · rw [he, registry_reapAfterPopulationCommand]
        exact applyPendingDisguises_rule (h hadd) hkicked

/-- A `bot_add` offers the gate nothing. -/
theorem not_offersBlacklisted_of_isBotAddCommand (h : command.any isBotAddCommand = true) :
    ¬ st.OffersBlacklisted (.dispatchConCommandPost command arguments) := by
  rintro ⟨n, hn, -⟩
  cases command with
  | none => simp at h
  | some name =>
    simp [State.offers, not_isMapChangeCommand_of_isBotAddCommand (by simpa using h)] at hn

/-- The gate first, and unless it suspends, the hold countdown over the same window. -/
theorem gameFrame_rule
    (hg : st.OffersBlacklisted (.gameFrame nowSec) → ReleaseRule st.world I J)
    (hI : ∀ r, I r → I' r)
    (h : st.vote.endScheduled = true → st.vote.holdFramesRemaining ≤ 1 →
      DisguiseRule I' fun _ => True)
    (hi : I st.registry) : I' (gameFrame E st nowSec).registry := by
  have hpoll : I (pollMapGate st).registry :=
    pollMapGate_rule (fun hm => hg ⟨_, by simp [State.offers], hm⟩) hi
  rw [gameFrame]
  split
  · exact hI _ hpoll
  · rename_i hs
    simp only [registry_jitterPings]
    apply tickVoteTransaction_rule (I := I') _ (hI _ hpoll)
    obtain ⟨gate, he⟩ | ⟨-, he⟩ := pollMapGate_cases
    · rw [he]
      exact h
    · rw [he] at hs
      exact absurd rfl hs

theorem clientPutInServer_rule (h : DisguiseRule I (· = s)) (hi : I st.registry) :
    I (clientPutInServer st s).registry := by
  rw [clientPutInServer]
  split
  · exact hi
  · exact applyDisguiseIfPending_rule h rfl hi

theorem isManaged_releaseOccupant : (releaseOccupant st s).ids.isManaged s = false := by
  rw [releaseOccupant]
  split
  · exact Identities.isManaged_unmark_self
  · rename_i h
    simpa using h

/-- An entry goes to a slot: taken only when it counts as applied, else also claimed or adopted. -/
structure TakeRule (I : Registry → Prop) (r : Registry) (s : Int) (i : Nat)
    (bots : List BotIdentity) (b : BotIdentity) : Prop where
  taken : b.applied = true → I (r.take s i bots)
  claimed : b.applied = false → I ((r.take s i bots).claim s i)
  adopted : b.applied = false → I ((r.take s i bots).adopt s i b)

/-- An invariant that survives the table entry alone and every disguise. -/
theorem TakeRule.of_disguiseRule {r : Registry} {bots : List BotIdentity}
    (hb : bots[i]? = some b) (hs : 0 ≤ s) (hs' : s < kMaxSlots) (hi : i < kMaxBotIdentities)
    (ht : I (r.take s i bots)) (h : DisguiseRule I (· = s)) : TakeRule I r s i bots b := by
  have hold : (r.take s i bots).ids.Holds s i :=
    (Identities.holds_mark hs hs' hi).mpr (Or.inl ⟨rfl, rfl⟩)
  have hb' : (r.take s i bots).ids.bots[i]? = some b := by
    rwa [Registry.take, Identities.bots_mark]
  exact ⟨fun _ => ht, fun ha => (h _ s i b ht rfl hold hb' ha).1,
    fun ha => (h _ s i b ht rfl hold hb' ha).2⟩

/-- An entry that is handed out is taken, and then disguised. -/
theorem assignIdentity_rule (hi : I st.registry) (hg : st.gate.suspended = false) (h0 : 0 ≤ s)
    (h1 : s < kMaxSlots)
    (htake : ∀ i bots r' b,
      getFree st.world.isSlotActive st.ids.bots st.rand = (some i, bots, r') → bots[i]? = some b →
        TakeRule I st.registry s i bots b) :
    I (assignIdentity st s).registry := by
  rcases assignIdentity_cases st s with ⟨_, _, -, h⟩ | ⟨i, bots, r', hf, h⟩
  · rw [h]
    exact hi
  · rw [h]
    obtain ⟨b₀, hb₀, -⟩ := getFree_some hf
    have hlt : i < bots.length := by
      rw [length_getFree hf]
      exact (List.getElem?_eq_some_iff.mp hb₀).1
    have hentry : bots[i]? = some bots[i] := List.getElem?_eq_getElem hlt
    have hrule := htake i bots r' _ hf hentry
    have hbots : (markIdentity st s i bots r').ids.bots[i]? = some bots[i] := by
      rwa [markIdentity, Identities.bots_mark]
    have hreg : (markIdentity st s i bots r').registry = st.registry.take s i bots := rfl
    have hopen : (markIdentity st s i bots r').gate.suspended = false := hg
    cases ha : bots[i].applied with
    | true =>
      rw [applyDisguise_of_applied hbots ha, hreg]
      exact hrule.taken ha
    | false =>
      rw [registry_applyDisguise hopen hbots ha h0 h1, hreg]
      split
      · exact hrule.claimed ha
      · exact hrule.adopted ha

/-- A connect releases the previous occupant, then may take an entry and disguise it. -/
theorem onClientConnected_rule {xuid : UInt64} {fakePlayer : Bool} {pszName : Option Bytes}
    (hi : isHltvName pszName = true ∨ st.ids.isManaged s = false → I st.registry)
    (hrelease : isHltvName pszName = false → st.ids.isManaged s = true → I (st.registry.vacate s))
    (htake : st.AsksForIdentity s pszName xuid fakePlayer →
      I (releaseOccupant st s).registry → ∀ i bots r' b,
        getFree st.world.isSlotActive (releaseOccupant st s).ids.bots st.rand = (some i, bots, r') →
        bots[i]? = some b → TakeRule I (releaseOccupant st s).registry s i bots b) :
    I (onClientConnected st s pszName xuid fakePlayer).registry := by
  rcases onClientConnected_cases st s pszName xuid fakePlayer with ⟨hr, h⟩ | ⟨h0, h1, hn, hcases⟩
  · rw [h]
    apply hi
    rcases hr with hr | hr | hr
    · exact Or.inr (if_pos (Or.inl hr))
    · exact Or.inr (if_pos (Or.inr hr))
    · exact Or.inl hr
  · have hreleased : I (releaseOccupant st s).registry := by
      rw [registry_releaseOccupant h0 h1]
      split
      · exact hrelease hn ‹_›
      · exact hi (Or.inr (by simpa using ‹¬ st.ids.isManaged s = true›))
    rcases hcases with ⟨-, h⟩ | ⟨⟨hopen, hx, hfake⟩, h⟩
    · rwa [h]
    · rw [h]
      exact assignIdentity_rule hreleased (by rwa [gate_releaseOccupant]) h0 h1 fun i bots r' b hf hb => by
        rw [world_releaseOccupant, rand_releaseOccupant] at hf
        exact htake ⟨hopen, h0, h1, hn, hx, hfake⟩ hreleased i bots r' b hf hb

/-- A disconnect leaves the slot unmanaged; its cells are released only through a live client. -/
theorem clientDisconnect_rule {reason : Int} (hi : I st.registry)
    (h : st.ids.isManaged s = true →
      ((worldAtDisconnect E st s reason).resolveClientBySlot s = none → I (st.registry.abandon s)) ∧
      ((worldAtDisconnect E st s reason).resolveClientBySlot s ≠ none → I (st.registry.vacate s))) :
    I (clientDisconnect E st s reason).registry := by
  rcases clientDisconnect_cases E st s reason with ⟨-, hd⟩ | ⟨⟨-, h0, h1, hm⟩, pending, hd⟩
  · rwa [hd]
  · have hreg := registry_restoreIdentity_unmark { st with
      vote := resetVoteTransactionSlot st.vote s
      world := worldAtDisconnect E st s reason } h0 h1
    rw [ids_restoreIdentity] at hreg
    rw [hd]
    change I ({ restoreIdentity _ s with ids := st.ids.unmark s } : State).registry
    rw [hreg]
    split
    · exact (h hm).1 ‹_›
    · exact (h hm).2 ‹_›

/-- What every registry operation preserves, every hook preserves. -/
theorem runHook_rule {active : Int → Bool} (hactive : active = st.world.isSlotActive)
    (hlen : ∀ r, I r → r.ids.bots.length ≤ kMaxBotIdentities)
    (hvacate : ∀ r s, I r → I (r.vacate s)) (habandon : ∀ r s, I r → I (r.abandon s))
    (htake : ∀ r s i bots rd rd', I r → r.ids.isManaged s = false → 0 ≤ s → s < kMaxSlots →
      getFree active r.ids.bots rd = (some i, bots, rd') → I (r.take s i bots))
    (hdis : DisguiseRule I fun _ => True) (hi : I st.registry) (hook : Hook) :
    I (runHook E st hook).registry := by
  have hrel : ReleaseRule st.world I I :=
    ⟨fun _ h => h, fun r s h _ _ => habandon r s h, fun r s h _ _ => hvacate r s h, fun _ h _ => h⟩
  subst hactive
  cases hook with
  | onClientConnected slot name xuid fakePlayer =>
    refine onClientConnected_rule (fun _ => hi) (fun _ _ => hvacate _ _ hi) ?_
    rintro ⟨-, h0, h1, -, -, -⟩ h i bots r' b hf hb
    have hlt := (List.getElem?_eq_some_iff.mp hb).1
    have hsize : bots.length ≤ kMaxBotIdentities := (length_getFree hf).trans_le (hlen _ h)
    exact .of_disguiseRule hb h0 h1 (lt_of_lt_of_le hlt hsize)
      (htake _ slot _ _ _ _ h isManaged_releaseOccupant h0 h1 hf)
      fun r s i b h _ => hdis r s i b h trivial
  | clientPutInServer slot =>
    exact clientPutInServer_rule (fun r s i b h _ => hdis r s i b h trivial) hi
  | clientDisconnect slot reason =>
    exact clientDisconnect_rule hi fun _ => ⟨fun _ => habandon _ _ hi, fun _ => hvacate _ _ hi⟩
  | dispatchConCommandPre command arguments => exact dispatchConCommandPre_rule (fun _ => hdis) hi
  | dispatchConCommandPost command arguments =>
    exact dispatchConCommandPost_rule (fun _ => hrel) (fun _ => hdis) hi
  | gameFrame nowSec => exact gameFrame_rule (fun _ => hrel) (fun _ h => h) (fun _ _ => hdis) hi
  | onLevelInit mapName => exact onLevelInit_rule (fun _ => hrel) hi

/-- The pool never changes its size and shared memory stays mapped or unmapped. -/
def Registry.Sized (n : Nat) (m : Bool) (r : Registry) : Prop :=
  r.ids.bots.length = n ∧ r.mapped = m

theorem sized_runHook {n : Nat} {m : Bool} (hn : n ≤ kMaxBotIdentities)
    (hi : st.registry.Sized n m) (hook : Hook) : (runHook E st hook).registry.Sized n m := by
  refine runHook_rule rfl ?_ ?_ ?_ ?_ ?_ hi hook
  · rintro r ⟨h, -⟩
    omega
  · rintro r s ⟨h, hm⟩
    exact ⟨by simpa [Identities.length_bots_unmark] using h, by simpa using hm⟩
  · rintro r s ⟨h, hm⟩
    exact ⟨by simpa [Identities.length_bots_unmark] using h, hm⟩
  · rintro r s i bots rd rd' ⟨h, hm⟩ - - - hf
    refine ⟨?_, hm⟩
    rw [← h, ← length_getFree hf, Registry.take, Identities.bots_mark]
  · rintro r s i b ⟨h, hm⟩ - - - -
    exact ⟨⟨by simpa using h, hm⟩, ⟨by simpa using h, by simpa using hm⟩⟩

/-- What an entry of the pool keeps through every assignment, disguise and release. -/
def Lasting {β : Type} (g : BotIdentity → β) : Prop :=
  ∀ b slot applied reused, g { b with slot, applied, reused } = g b

theorem map_modify_of_lasting {β : Type} {g : BotIdentity → β} {bots : List BotIdentity}
    {f : BotIdentity → BotIdentity} (hf : ∀ b, g (f b) = g b) :
    (bots.modify i f).map g = bots.map g := by
  apply List.ext_getElem?
  intro j
  rw [List.getElem?_map, List.getElem?_map, List.getElem?_modify]
  cases bots[j]? with
  | none => rfl
  | some b =>
    simp only [Option.map_some]
    split
    · exact congrArg some (hf b)
    · rfl

theorem map_unmark {β : Type} {g : BotIdentity → β} (hg : Lasting g) {ids : Identities} :
    (ids.unmark s).bots.map g = ids.bots.map g := by
  by_cases hm : ids.isManaged s = true
  · obtain ⟨k, hold⟩ := Identities.isManaged_iff.mp hm
    rw [hold.bots_unmark]
    exact map_modify_of_lasting fun b => hg b (-1) false b.reused
  · rw [Identities.unmark_of_not_managed (by simpa using hm)]

theorem map_runHook {β : Type} {g : BotIdentity → β} {vs : List β} (hg : Lasting g)
    (hn : vs.length ≤ kMaxBotIdentities) (hi : st.ids.bots.map g = vs) (hook : Hook) :
    (runHook E st hook).ids.bots.map g = vs := by
  refine runHook_rule (I := fun r => r.ids.bots.map g = vs) rfl ?_ ?_ ?_ ?_ ?_ hi hook
  · intro r h
    rwa [← h, List.length_map] at hn
  · intro r s h
    rw [Registry.ids_vacate, map_unmark hg]
    exact h
  · intro r s h
    rw [Registry.ids_abandon, map_unmark hg]
    exact h
  · intro r s i bots rd rd' h _ _ _ hf
    rw [Registry.take, Identities.bots_mark]
    obtain ⟨b, -, -, ⟨-, rfl⟩ | ⟨rfl, -⟩⟩ := getFree_some hf
    · exact h
    · exact (map_modify_of_lasting fun b => hg b (-1) false (b.reused + 1)).trans h
  · intro r s i b h _ _ _ _
    constructor
    · exact (map_modify_of_lasting fun b => hg b s b.applied b.reused).trans h
    · dsimp only
      rw [Registry.ids_adopt]
      exact (map_modify_of_lasting fun b => hg b s true b.reused).trans h

/-- Loading leaves the pool as read, every slot unmanaged and every record vacant. -/
theorem registry_load {features : PluginFeatures} {mapBlacklist : List Bytes} {pool : LoadedPool}
    {mapped : Bool} {draws : Nat → Nat} {w : World} :
    (load features mapBlacklist pool mapped draws w).registry =
      ⟨⟨pool.bots, fun _ => -1⟩, mapped, fun _ => .vacant⟩ := by
  have hnone : ∀ s, (⟨pool.bots, fun _ => -1⟩ : Identities).isManaged s = false := by
    intro s
    simp [Identities.isManaged]
  apply pollMapGate_rule (I := (· = ⟨⟨pool.bots, fun _ => -1⟩, mapped, fun _ => .vacant⟩))
    (J := (· = ⟨⟨pool.bots, fun _ => -1⟩, mapped, fun _ => .vacant⟩)) _ rfl
  intro _
  refine ⟨fun _ h => h, ?_, ?_, fun _ h _ => h⟩
  · rintro _ s rfl hm
    simp [hnone] at hm
  · rintro _ s rfl hm
    simp [hnone] at hm

end Botid
