import Botid.RealPlayers

/-! The map-change hint: what the gate remembers, over whole runs. -/
namespace Botid

open Machine

variable {E : EngineCalls} {st st' st₁ st₂ st₃ : State} {ev : Event} {w : World} {s : Int} {i : Nat}
  {name : Bytes} {tokens : List Bytes} {g : Gate}

/-- One name offered to the gate: an empty or a remembered one says nothing. -/
def Gate.offer (tokens : List Bytes) (g : Gate) (name : Bytes) : Gate :=
  if name = [] ∨ g.gateMap = name then g
  else { gateMap := name, suspended := mapNameMatchesBlacklist name tokens }

/-- Hosting is suspended exactly while the remembered name matches. -/
def Gate.Sound (tokens : List Bytes) (g : Gate) : Prop :=
  g.suspended = mapNameMatchesBlacklist g.gateMap tokens

/-- A function that leaves the gate and its blacklist alone. -/
def SameHosting (st st' : State) : Prop :=
  st'.gate = st.gate ∧ st'.mapBlacklist = st.mapBlacklist

theorem SameHosting.refl : SameHosting st st := ⟨rfl, rfl⟩

theorem SameHosting.trans (h : SameHosting st₁ st₂) (h' : SameHosting st₂ st₃) :
    SameHosting st₁ st₃ :=
  ⟨h'.1.trans h.1, h'.2.trans h.2⟩

/-- And the features alone. -/
def SameSettings (st st' : State) : Prop := SameHosting st st' ∧ st'.features = st.features

theorem SameSettings.refl : SameSettings st st := ⟨.refl, rfl⟩

theorem SameSettings.trans (h : SameSettings st₁ st₂) (h' : SameSettings st₂ st₃) :
    SameSettings st₁ st₃ :=
  ⟨h.1.trans h'.1, h'.2.trans h.2⟩

theorem sameSettings_applyDisguise : SameSettings st (applyDisguise st s i) := by
  rcases applyDisguise_cases st s i with h | ⟨b, -, -, -, ⟨-, h⟩ | ⟨client, -, -, h⟩⟩
  · rw [h]
    exact .refl
  · rw [h]
    exact ⟨⟨rfl, rfl⟩, rfl⟩
  · rw [h]
    exact ⟨⟨rfl, rfl⟩, rfl⟩

theorem sameSettings_applyDisguiseIfPending : SameSettings st (applyDisguiseIfPending st s) := by
  rcases applyDisguiseIfPending_cases st s with h | ⟨i, -, h⟩
  · rw [h]
    exact .refl
  · rw [h]
    exact sameSettings_applyDisguise

theorem sameSettings_forSlots (st : State) : SameSettings st (forSlots applyDisguiseIfPending st) :=
  forSlots_invariant (I := SameSettings st)
    (fun _ _ h => h.trans sameSettings_applyDisguiseIfPending) .refl

theorem sameSettings_closeVoteTransaction : SameSettings st (closeVoteTransaction st) := by
  rw [closeVoteTransaction, restorePlayerIdentity]
  split
  · exact ⟨⟨rfl, rfl⟩, rfl⟩
  · exact SameSettings.trans ⟨⟨rfl, rfl⟩, rfl⟩
      (sameSettings_forSlots _)

theorem sameSettings_restoreIdentity : SameSettings st (restoreIdentity st s) := by
  rw [restoreIdentity]
  split <;> exact ⟨⟨rfl, rfl⟩, rfl⟩

theorem sameSettings_onClientConnected {pszName : Option Bytes} {xuid : UInt64} {fakePlayer : Bool} :
    SameSettings st (onClientConnected st s pszName xuid fakePlayer) := by
  have hreleased : SameSettings st (releaseOccupant st s) := by
    rw [releaseOccupant]
    split <;> exact ⟨⟨rfl, rfl⟩, rfl⟩
  rcases onClientConnected_cases st s pszName xuid fakePlayer with
    ⟨-, h⟩ | ⟨-, -, -, ⟨-, h⟩ | ⟨-, h⟩⟩
  · rw [h]
    exact .refl
  · rw [h]
    exact hreleased
  · rw [h]
    apply hreleased.trans
    rcases assignIdentity_cases (releaseOccupant st s) s with ⟨_, _, -, ha⟩ | ⟨i, _, _, -, ha⟩
    · rw [ha]
      exact ⟨⟨rfl, rfl⟩, rfl⟩
    · rw [ha]
      exact SameSettings.trans ⟨⟨rfl, rfl⟩, rfl⟩ sameSettings_applyDisguise

theorem sameSettings_clientDisconnect {reason : Int} :
    SameSettings st (clientDisconnect E st s reason) := by
  rcases clientDisconnect_cases E st s reason with ⟨-, h⟩ | ⟨-, pending, h⟩
  · rw [h]
    exact .refl
  · rw [h]
    have hreset : SameSettings st { st with
        vote := resetVoteTransactionSlot st.vote s
        world := worldAtDisconnect E st s reason } := ⟨⟨rfl, rfl⟩, rfl⟩
    have hrestored := hreset.trans (sameSettings_restoreIdentity (s := s))
    exact ⟨hrestored.1, hrestored.2⟩

theorem sameSettings_beginVoteTransaction : SameSettings st (beginVoteTransaction st) := by
  rw [beginVoteTransaction]
  split <;> exact ⟨⟨rfl, rfl⟩, rfl⟩

theorem sameSettings_kickNamedBot : SameSettings st (kickNamedBot E st s) := by
  have hkick : ∀ st : State, SameSettings st (kickManagedBotByUserId st s) := by
    intro st
    rw [kickManagedBotByUserId]
    split
    · exact .refl
    · dsimp only
      split <;> exact ⟨⟨rfl, rfl⟩, rfl⟩
  unfold kickNamedBot
  refine SameSettings.trans ?_ (hkick _)
  dsimp only
  split
  · rw [beginVoteTransactionForSlot]
    split <;> exact ⟨⟨rfl, rfl⟩, rfl⟩
  · exact ⟨⟨rfl, rfl⟩, rfl⟩

theorem sameSettings_kickGroup {target : Bytes} : SameSettings st (kickGroup E st name target) := by
  have hbegin : ∀ st : State, SameSettings st
      (if !st.vote.active ∨ st.populationDepth ≠ 0 then
        { beginVoteTransaction st with
          populationDepth := (beginVoteTransaction st).populationDepth + 1 }
      else st) := by
    intro st
    split
    · exact ⟨sameSettings_beginVoteTransaction.1, sameSettings_beginVoteTransaction.2⟩
    · exact .refl
  unfold kickGroup
  dsimp only
  split
  · exact SameSettings.trans ⟨⟨rfl, rfl⟩, rfl⟩ (hbegin _)
  · exact hbegin _

theorem sameSettings_clientPutInServer : SameSettings st (clientPutInServer st s) := by
  rw [clientPutInServer]
  split
  · exact .refl
  · exact sameSettings_applyDisguiseIfPending

theorem sameSettings_dispatchConCommandPre {command : Option Bytes} {arguments : List Bytes} :
    SameSettings st (dispatchConCommandPre E st command arguments) := by
  rcases dispatchConCommandPre_cases E st command arguments with
    h | ⟨-, h | ⟨s, h⟩ | ⟨name, target, h⟩ | ⟨-, -, h⟩⟩
  · rw [h]
    exact .refl
  · rw [h]
    exact sameSettings_beginVoteTransaction
  · rw [h]
    exact sameSettings_kickNamedBot
  · rw [h]
    exact sameSettings_kickGroup
  · rw [h, forceEndVoteTransaction]
    split
    · exact .refl
    · exact sameSettings_closeVoteTransaction

theorem sameSettings_tickVoteTransaction : SameSettings st (tickVoteTransaction st) := by
  rw [tickVoteTransaction]
  split
  · exact .refl
  · split
    · exact ⟨⟨rfl, rfl⟩, rfl⟩
    · split
      · exact .refl
      · split
        · exact ⟨⟨rfl, rfl⟩, rfl⟩
        · exact sameSettings_closeVoteTransaction

theorem sameSettings_gameFrame {nowSec : Float} :
    SameSettings (pollMapGate st) (gameFrame E st nowSec) := by
  have hjitter : ∀ st : State, SameSettings st (jitterPings st nowSec) := by
    intro st
    rw [jitterPings]
    split
    · exact .refl
    · split <;> exact ⟨⟨rfl, rfl⟩, rfl⟩
  have hdrain : ∀ (st : State) pending w, SameSettings st { st with pending := pending, world := w } :=
    fun _ _ _ => ⟨⟨rfl, rfl⟩, rfl⟩
  rw [gameFrame]
  dsimp only
  split
  · exact .refl
  · exact (sameSettings_tickVoteTransaction.trans (hdrain _ _ _)).trans (hjitter _)

/-- A command that changes no map leaves the gate alone. -/
theorem sameSettings_dispatchConCommandPost {command : Option Bytes} {arguments : List Bytes}
    (h : command.any isMapChangeCommand = false) :
    SameSettings st (dispatchConCommandPost E st command arguments) := by
  have hend : SameSettings st (endKickCommand st) := by
    rw [endKickCommand]
    split
    · exact .refl
    · dsimp only
      split <;> exact ⟨⟨rfl, rfl⟩, rfl⟩
  have hpass : ∀ st : State, SameSettings st (applyPendingDisguises st) := by
    intro st
    rw [applyPendingDisguises]
    split
    · exact .refl
    · exact sameSettings_forSlots st
  rcases dispatchConCommandPost_cases E st command arguments with
    he | ⟨hmap, -⟩ | ⟨-, he | ⟨st₁, hkick, he⟩⟩
  · rw [he]
    exact .refl
  · rw [h] at hmap
    cases hmap
  · rw [he]
    exact ⟨⟨rfl, rfl⟩, rfl⟩
  · have hkicked : SameSettings st st₁ := by
      rcases hkick with rfl | rfl
      · exact .refl
      · exact hend
    rcases he with he | he | ⟨-, he⟩
    · rwa [he]
    · rw [he]
      exact hkicked.trans ⟨⟨rfl, rfl⟩, rfl⟩
    · rw [he]
      exact (hkicked.trans (hpass st₁)).trans ⟨⟨rfl, rfl⟩, rfl⟩

theorem gate_applyMapGate : (applyMapGate st name).gate = st.gate.offer st.mapBlacklist name := by
  rw [applyMapGate, Gate.offer]
  split
  · rfl
  · split
    · rw [‹mapNameMatchesBlacklist name st.mapBlacklist = true›]
    · rw [(Bool.not_eq_true _).mp ‹¬ mapNameMatchesBlacklist name st.mapBlacklist = true›]

theorem gate_pollMapGate :
    (pollMapGate st).gate = st.gate.offer st.mapBlacklist (buildMapIdentity st.world) := by
  rw [pollMapGate]
  split
  · rename_i h
    rw [Gate.offer, if_pos (Or.inl h)]
  · exact gate_applyMapGate

theorem mapBlacklist_pollMapGate : (pollMapGate st).mapBlacklist = st.mapBlacklist := by
  rw [pollMapGate]
  split
  · rfl
  · exact mapBlacklist_applyMapGate

theorem features_pollMapGate : (pollMapGate st).features = st.features := by
  rw [pollMapGate]
  split
  · rfl
  · exact features_applyMapGate

/-- The gate is offered these names in turn; the settings stay. -/
structure OffersGate (names : List Bytes) (st st' : State) : Prop where
  gate : st'.gate = names.foldl (Gate.offer st.mapBlacklist) st.gate
  mapBlacklist : st'.mapBlacklist = st.mapBlacklist
  features : st'.features = st.features

theorem SameSettings.offersGate (h : SameSettings st st') : OffersGate [] st st' := ⟨h.1.1, h.1.2, h.2⟩

theorem OffersGate.trans {names names' : List Bytes} (h : OffersGate names st st')
    (h' : OffersGate names' st' st'') : OffersGate (names ++ names') st st'' where
  gate := by rw [h'.gate, h.mapBlacklist, h.gate, List.foldl_append]
  mapBlacklist := h'.mapBlacklist.trans h.mapBlacklist
  features := h'.features.trans h.features

theorem offersGate_applyMapGate : OffersGate [name] st (applyMapGate st name) :=
  ⟨gate_applyMapGate, mapBlacklist_applyMapGate, features_applyMapGate⟩

theorem offersGate_pollMapGate : OffersGate [buildMapIdentity st.world] st (pollMapGate st) :=
  ⟨gate_pollMapGate, mapBlacklist_pollMapGate, features_pollMapGate⟩

/-- The live map is the same for a second evaluation within one hook. -/
theorem offersGate_pollMapGate_applyMapGate :
    OffersGate [name, buildMapIdentity st.world] st (pollMapGate (applyMapGate st name)) := by
  have hpoll : OffersGate [buildMapIdentity (applyMapGate st name).world] (applyMapGate st name)
      (pollMapGate (applyMapGate st name)) := offersGate_pollMapGate
  rw [buildMapIdentity_of_onlyMemory onlyMemory_applyMapGate] at hpoll
  exact offersGate_applyMapGate.trans hpoll

/-- The names a hook makes the gate evaluate: a hint counts only when it matches. -/
def Hook.evaluates (tokens : List Bytes) (live : Bytes) : Hook → List Bytes
  | .dispatchConCommandPost (some name) arguments =>
    if isMapChangeCommand name then
      (arguments[1]?.toList.filter (mapNameMatchesBlacklist · tokens)) ++ [live]
    else []
  | .gameFrame _ => [live]
  | .onLevelInit name => name.toList ++ [live]
  | _ => []

/-- The names of a map change: a matching hint, and the live map. -/
theorem offersGate_mapChange {arguments : List Bytes} (hm : isMapChangeCommand name = true) :
    OffersGate ((arguments[1]?.toList.filter (mapNameMatchesBlacklist · st.mapBlacklist)) ++
        [buildMapIdentity st.world]) st (dispatchConCommandPost E st (some name) arguments) := by
  simp only [dispatchConCommandPost, hm, if_true]
  cases arguments[1]? with
  | none => exact offersGate_pollMapGate
  | some arg =>
    simp only [hintMapGate, Option.toList_some, List.filter_cons, List.filter_nil]
    cases hmatch : mapNameMatchesBlacklist arg st.mapBlacklist with
    | false =>
      simp only [Bool.not_false, or_true, if_true, Bool.false_eq_true, if_false, List.nil_append]
      exact offersGate_pollMapGate
    | true =>
      have hne : arg ≠ [] := by
        rintro rfl
        simp [mapNameMatchesBlacklist] at hmatch
      rw [if_pos rfl, if_neg (by simp [hne])]
      exact offersGate_pollMapGate_applyMapGate

/-- The gate after a hook: the names it evaluates, offered in turn. -/
theorem offersGate_runHook (hook : Hook) :
    OffersGate (hook.evaluates st.mapBlacklist (buildMapIdentity st.world)) st (runHook E st hook) := by
  cases hook with
  | onClientConnected slot name xuid fakePlayer => exact sameSettings_onClientConnected.offersGate
  | clientPutInServer slot => exact sameSettings_clientPutInServer.offersGate
  | clientDisconnect slot reason => exact sameSettings_clientDisconnect.offersGate
  | dispatchConCommandPre command arguments => exact sameSettings_dispatchConCommandPre.offersGate
  | dispatchConCommandPost command arguments =>
    cases command with
    | none => exact SameSettings.refl.offersGate
    | some name =>
      cases hm : isMapChangeCommand name with
      | false =>
        rw [Hook.evaluates, if_neg (by simp [hm])]
        have hsame : SameSettings st (dispatchConCommandPost E st (some name) arguments) :=
          sameSettings_dispatchConCommandPost (by rwa [Option.any_some])
        exact hsame.offersGate
      | true =>
        rw [Hook.evaluates, if_pos hm]
        exact offersGate_mapChange hm
  | gameFrame nowSec =>
    exact offersGate_pollMapGate.trans sameSettings_gameFrame.offersGate
  | onLevelInit mapName =>
    cases mapName with
    | none => exact offersGate_pollMapGate
    | some name =>
      rw [runHook, onLevelInit]
      split
      · exact offersGate_pollMapGate_applyMapGate
      · rename_i hne
        rw [ne_eq, not_not] at hne
        subst hne
        -- an empty name says nothing to the gate
        exact ⟨gate_pollMapGate, mapBlacklist_pollMapGate, features_pollMapGate⟩

theorem offersGate_step : OffersGate (ev.hook.evaluates st.mapBlacklist (buildMapIdentity ev.world)) st
    (step E st ev) := by
  have hhook : OffersGate _ (st.withWorld ev.world) (step E st ev) := offersGate_runHook ev.hook
  exact ⟨hhook.gate, hhook.mapBlacklist, hhook.features⟩

theorem gate_step : (step E st ev).gate =
      (ev.hook.evaluates st.mapBlacklist (buildMapIdentity ev.world)).foldl
        (Gate.offer st.mapBlacklist) st.gate ∧
    (step E st ev).mapBlacklist = st.mapBlacklist :=
  ⟨offersGate_step.gate, offersGate_step.mapBlacklist⟩

theorem features_step : (step E st ev).features = st.features := offersGate_step.features

theorem Gate.Sound.offer (h : g.Sound tokens) : (g.offer tokens name).Sound tokens := by
  rw [Gate.offer]
  split
  · exact h
  · rfl

/-- A suspended gate stays suspended exactly on empty and on matching names. -/
theorem Gate.Sound.suspended_offer (h : g.Sound tokens) (hg : g.suspended = true) :
    (g.offer tokens name).suspended = true ↔
      name = [] ∨ mapNameMatchesBlacklist name tokens = true := by
  rw [Gate.offer]
  split
  · rename_i hsame
    refine iff_of_true hg (hsame.imp_right ?_)
    rintro rfl
    exact h.symm.trans hg
  · rename_i hsame
    rw [not_or] at hsame
    simp [hsame.1]

/-- What every hook leaves of the gate. -/
def GateSound (tokens : List Bytes) (st : State) : Prop :=
  st.mapBlacklist = tokens ∧ st.gate.Sound tokens

theorem gateSound_step (h : GateSound tokens st) : GateSound tokens (step E st ev) := by
  obtain ⟨rfl, hs⟩ := h
  refine ⟨gate_step.2, ?_⟩
  rw [gate_step.1]
  exact run_invariant_of_step (I := Gate.Sound st.mapBlacklist) (fun _ _ h => h.offer) hs

/-- A hook that offers no other map than the live one and matching ones. -/
def KeepsSuspended (tokens : List Bytes) (hook : Hook) : Prop :=
  ∀ name, hook = .onLevelInit (some name) → name = [] ∨ mapNameMatchesBlacklist name tokens = true

/-- With no live map name at all, only an `OnLevelInit` can end a suspension. -/
theorem suspended_step_of_no_map (h : GateSound tokens st) (hg : st.gate.suspended = true)
    (hw : buildMapIdentity ev.world = []) :
    (step E st ev).gate.suspended = true ↔ KeepsSuspended tokens ev.hook := by
  obtain ⟨rfl, hs⟩ := h
  rw [gate_step.1, hw]
  have hempty : ∀ g : Gate, g.offer st.mapBlacklist [] = g := fun g => by simp [Gate.offer]
  obtain ⟨w, hook⟩ := ev
  cases hook with
  | onLevelInit mapName =>
    cases mapName with
    | none => simp [Hook.evaluates, hempty, hg, KeepsSuspended]
    | some name =>
      simp only [Hook.evaluates, Option.toList_some, List.cons_append, List.nil_append,
        List.foldl_cons, List.foldl_nil, hempty, hs.suspended_offer hg]
      simp [KeepsSuspended]
  | dispatchConCommandPost command arguments =>
    refine iff_of_true ?_ (by simp [KeepsSuspended])
    cases command with
    | none => exact hg
    | some name =>
      simp only [Hook.evaluates]
      split
      · rw [List.foldl_append, List.foldl_cons, List.foldl_nil, hempty]
        cases harg : arguments[1]? with
        | none => exact hg
        | some arg =>
          rw [Option.toList_some, List.filter_cons]
          split
          · exact (hs.suspended_offer hg).mpr (Or.inr ‹_›)
          · exact hg
      · exact hg
  | gameFrame nowSec =>
    refine iff_of_true ?_ (by simp [KeepsSuspended])
    simpa [Hook.evaluates, hempty] using hg
  | onClientConnected slot name xuid fakePlayer => exact iff_of_true hg (by simp [KeepsSuspended])
  | clientPutInServer slot => exact iff_of_true hg (by simp [KeepsSuspended])
  | clientDisconnect slot reason => exact iff_of_true hg (by simp [KeepsSuspended])
  | dispatchConCommandPre command arguments => exact iff_of_true hg (by simp [KeepsSuspended])

/-- A matching hint suspends hosting past its own command exactly when the engine names no map. -/
theorem suspended_after_hint {hint : Bytes} {command : Bytes} {arguments : List Bytes}
    (h : GateSound tokens st) (hg : st.gate.suspended = false)
    (hc : isMapChangeCommand command = true) (ha : arguments[1]? = some hint)
    (hm : mapNameMatchesBlacklist hint tokens = true)
    (hw : mapNameMatchesBlacklist (buildMapIdentity w) tokens = false) :
    (step E st ⟨w, .dispatchConCommandPost (some command) arguments⟩).gate.suspended = true ↔
      buildMapIdentity w = [] := by
  obtain ⟨rfl, hs⟩ := h
  have hne : ¬ (hint = [] ∨ st.gate.gateMap = hint) := by
    rintro (rfl | rfl)
    · simp [mapNameMatchesBlacklist] at hm
    · have hs' : st.gate.suspended = _ := hs
      rw [hm, hg] at hs'
      simp at hs'
  have hhinted : st.gate.offer st.mapBlacklist hint = { gateMap := hint, suspended := true } := by
    rw [Gate.offer, if_neg hne, hm]
  rw [gate_step.1]
  simp only [Hook.evaluates, hc, if_true, ha, Option.toList_some, List.filter_cons, hm,
    List.filter_nil, List.cons_append, List.nil_append, List.foldl_cons, List.foldl_nil, hhinted]
  rw [Gate.Sound.suspended_offer (g := { gateMap := hint, suspended := true }) hm.symm rfl, hw]
  simp

/-- A matching map-change hint outlives its own command, and every later hook, exactly when the
engine names no map at all and no later `OnLevelInit` names one that misses the blacklist. -/
theorem hint_keeps_suspended_iff {features : PluginFeatures} {mapBlacklist : List Bytes}
    {pool : LoadedPool} {mapped : Bool} {draws : Nat → Nat} {w₀ : World} {es later : List Event}
    {live hint command : Bytes} {arguments : List Bytes}
    (hg : (run (step E) (load features mapBlacklist pool mapped draws w₀) es).gate.suspended = false)
    (hc : isMapChangeCommand command = true) (ha : arguments[1]? = some hint)
    (hm : mapNameMatchesBlacklist hint mapBlacklist = true)
    (hlive : mapNameMatchesBlacklist live mapBlacklist = false) (hw : buildMapIdentity w = live)
    (hlater : ∀ ev ∈ later, buildMapIdentity ev.world = live) :
    let hinted := step E (run (step E) (load features mapBlacklist pool mapped draws w₀) es)
      ⟨w, .dispatchConCommandPost (some command) arguments⟩
    (∀ n, (run (step E) hinted (later.take n)).gate.suspended = true) ↔
      live = [] ∧ ∀ ev ∈ later, KeepsSuspended mapBlacklist ev.hook := by
  intro hinted
  have hload : GateSound mapBlacklist (load features mapBlacklist pool mapped draws w₀) :=
    ⟨mapBlacklist_pollMapGate, by
      rw [load, gate_pollMapGate]
      exact Gate.Sound.offer (by simp [Gate.Sound, mapNameMatchesBlacklist])⟩
  have hsound : GateSound mapBlacklist
      (run (step E) (load features mapBlacklist pool mapped draws w₀) es) :=
    run_invariant_of_step (I := GateSound mapBlacklist) (fun _ _ => gateSound_step) hload
  have hfirst : hinted.gate.suspended = true ↔ live = [] := by
    rw [← hw]
    exact suspended_after_hint hsound hg hc ha hm (by rw [hw, hlive])
  by_cases hnil : live = []
  · subst hnil
    have hlasts : (∀ n, (run (step E) hinted (later.take n)).gate.suspended = true) ↔
        ∀ ev ∈ later, KeepsSuspended mapBlacklist ev.hook :=
      lasts_iff (I := GateSound mapBlacklist) (P := fun st => st.gate.suspended = true)
        (fun _ _ => gateSound_step)
        (fun st ev hev h hst => suspended_step_of_no_map h hst (hlater ev hev))
        (gateSound_step hsound) (hfirst.mpr rfl)
    rw [hlasts]
    simp
  · refine iff_of_false (fun h => hnil (hfirst.mp (h 0))) (fun h => hnil h.1)

/-- A server that refuses surf maps, seen while it reports a map name. -/
def surfBlacklistLoad (mapName : Bytes) : State :=
  load .plain [ascii "surf"] (.single (ascii "INTEL") 0 intel_fits) true (fun _ => 0)
    { World.ofClients [100] nodup_solo with mapName := mapName }

/-- An operator asks for a surf map while the engine reports a map name. -/
def surfHint (mapName : Bytes) : Event :=
  ⟨{ World.ofClients [100] nodup_solo with mapName := mapName },
    .dispatchConCommandPost (some (ascii "changelevel")) [ascii "changelevel", ascii "surf_ski_2"]⟩

theorem hint_keeps_suspended_without_map_name :
    (run (step .idle) (step .idle (surfBlacklistLoad []) (surfHint []))
      [onSolo (.gameFrame 0)]).gate.suspended = true :=
  (@hint_keeps_suspended_iff .idle _ _ _ _ _ _ _ [] [onSolo (.gameFrame 0)] _ (ascii "surf_ski_2") _ _
    (by decide +kernel) (by decide) (by decide) (by decide +kernel) (by decide) (by decide)
    (by decide)).mpr ⟨rfl, by simp [KeepsSuspended, onSolo]⟩ 1

/-- With a live map in place, the command that suspends hosting resumes it before it returns. -/
theorem hint_suspension_dropped_at_once :
    buildMapIdentity (surfHint (ascii "de_dust2")).world = ascii "de_dust2" ∧
      mapNameMatchesBlacklist (ascii "de_dust2") [ascii "surf"] = false ∧
      mapNameMatchesBlacklist (ascii "surf_ski_2") [ascii "surf"] = true ∧
      (surfBlacklistLoad (ascii "de_dust2")).gate.suspended = false ∧
      (step .idle (surfBlacklistLoad (ascii "de_dust2"))
        (surfHint (ascii "de_dust2"))).gate.suspended = false := by
  decide +kernel

end Botid
