import Botid.Suspension

/-! A run while hosting is suspended: nothing happens, and nothing is left of it afterwards. -/
namespace Botid

open Machine

variable {E : EngineCalls} {st : State} {ev : Event} {es mid : List Event} {w : World} {s : Int}
  {name hint : Bytes}

/-- No slot is managed, and the window is as `ResetVoteTransaction` leaves it. -/
structure Resting (st : State) : Prop where
  managed : ∀ s, st.ids.isManaged s = false
  vote : st.vote = resetVoteTransaction

/-- While hosting is suspended the plugin rests. -/
def RestsSuspended (st : State) : Prop := st.gate.suspended = true → Resting st

section Resting

variable (h : Resting st)
include h

theorem Resting.release : releaseManagedSlots st = st := by
  have hreset : { st with vote := resetVoteTransaction } = st := by rw [← h.vote]
  rw [releaseManagedSlots, hreset]
  apply forSlots_invariant (I := fun y : State => y = st) _ rfl
  rintro y t rfl
  rw [releaseSlot, if_pos (by simp [h.managed t])]

/-- The gate can only move its switch. -/
theorem Resting.applyMapGate : ∃ gate, applyMapGate st name = { st with gate := gate } := by
  rcases @applyMapGate_cases st name with hgate | ⟨-, hreleased⟩
  · exact hgate
  · rw [h.release] at hreleased
    exact ⟨_, hreleased⟩

theorem Resting.pollMapGate : ∃ gate, pollMapGate st = { st with gate := gate } := by
  rw [Botid.pollMapGate]
  split
  · exact ⟨st.gate, rfl⟩
  · exact h.applyMapGate

theorem Resting.applyMapGate_pollMapGate :
    ∃ gate, Botid.pollMapGate (Botid.applyMapGate st name) = { st with gate := gate } := by
  obtain ⟨gate, happlied⟩ := @Resting.applyMapGate st name h
  have hrests : Resting { st with gate := gate } := ⟨h.managed, h.vote⟩
  obtain ⟨gate', hpolled⟩ := hrests.pollMapGate
  exact ⟨gate', by rw [happlied, hpolled]⟩

theorem Resting.releaseOccupant : releaseOccupant st s = st := by
  rw [Botid.releaseOccupant, if_neg (by simp [h.managed s])]

end Resting

/-- A hook that finds and leaves hosting suspended moves the gate at most. -/
theorem runHook_suspended {hook : Hook} (h : Resting st) (hs : st.gate.suspended = true)
    (hs' : (runHook E st hook).gate.suspended = true) :
    ∃ gate, runHook E st hook = { st with gate := gate } := by
  cases hook with
  | onClientConnected slot name xuid fakePlayer =>
    refine ⟨st.gate, ?_⟩
    change onClientConnected st slot name xuid fakePlayer = st
    rcases onClientConnected_cases st slot name xuid fakePlayer with
      ⟨-, he⟩ | ⟨-, -, -, ⟨-, he⟩ | ⟨⟨hg, -⟩, -⟩⟩
    · exact he
    · rw [he, h.releaseOccupant]
    · rw [hs] at hg
      cases hg
  | clientPutInServer slot =>
    refine ⟨st.gate, ?_⟩
    change clientPutInServer st slot = st
    rw [clientPutInServer, if_pos (Or.inl hs)]
  | clientDisconnect slot reason =>
    refine ⟨st.gate, ?_⟩
    change clientDisconnect E st slot reason = st
    rw [clientDisconnect, if_pos (Or.inl hs)]
  | dispatchConCommandPre command arguments =>
    refine ⟨st.gate, ?_⟩
    change dispatchConCommandPre E st command arguments = st
    rcases dispatchConCommandPre_cases E st command arguments with he | ⟨hg, -⟩
    · exact he
    · rw [hs] at hg
      cases hg
  | dispatchConCommandPost command arguments =>
    change ∃ gate, dispatchConCommandPost E st command arguments = { st with gate := gate }
    rcases dispatchConCommandPost_cases E st command arguments with
      he | ⟨-, he | ⟨arg, -, he⟩⟩ | ⟨⟨hg, -⟩, -⟩
    · exact ⟨st.gate, he⟩
    · rw [he]
      exact h.pollMapGate
    · rw [he]
      rcases hintMapGate_cases st arg with hh | hh
      · rw [hh]
        exact h.pollMapGate
      · rw [hh]
        exact h.applyMapGate_pollMapGate
    · rw [hs] at hg
      cases hg
  | gameFrame nowSec =>
    have hpolled : (pollMapGate st).gate.suspended = true := by
      rw [← sameSettings_gameFrame.1.1]
      exact hs'
    change ∃ gate, gameFrame E st nowSec = { st with gate := gate }
    rw [gameFrame]
    dsimp only
    rw [if_pos hpolled]
    exact h.pollMapGate
  | onLevelInit mapName =>
    cases mapName with
    | none => exact h.pollMapGate
    | some name =>
      change ∃ gate, pollMapGate (if name ≠ [] then applyMapGate st name else st) =
        { st with gate := gate }
      split
      · exact h.applyMapGate_pollMapGate
      · exact h.pollMapGate

theorem RestsSuspended.applyMapGate (h : RestsSuspended st) : RestsSuspended (applyMapGate st name) := by
  intro hs
  rw [Botid.applyMapGate] at hs ⊢
  split
  · rename_i hname
    rw [if_pos hname] at hs
    exact h hs
  · rename_i hname
    rw [if_neg hname] at hs
    split
    · dsimp only
      split
      · rename_i hbefore
        exact ⟨(h hbefore).managed, (h hbefore).vote⟩
      · obtain ⟨ids, shm, w, -, hreleased⟩ := releaseManagedSlots_eq st
        refine ⟨fun _ => isManaged_releaseManagedSlots, ?_⟩
        rw [hreleased]
    · rename_i hmiss
      rw [if_neg hmiss] at hs
      cases hs

theorem RestsSuspended.pollMapGate (h : RestsSuspended st) : RestsSuspended (pollMapGate st) := by
  rw [Botid.pollMapGate]
  split
  · exact h
  · exact h.applyMapGate

theorem restsSuspended_runHook (h : RestsSuspended st) (hook : Hook) :
    RestsSuspended (runHook E st hook) := by
  intro hs'
  cases hs : st.gate.suspended with
  | true =>
    obtain ⟨gate, he⟩ := runHook_suspended (h hs) hs hs'
    rw [he]
    exact ⟨(h hs).managed, (h hs).vote⟩
  | false =>
    -- the hook has shut the gate, so it is one that evaluates it
    have hopen : ∀ st' : State, st'.gate = st.gate → st'.gate.suspended = true → Resting st' := by
      intro st' he hst'
      rw [he, hs] at hst'
      cases hst'
    cases hook with
    | onClientConnected slot name xuid fakePlayer =>
      exact hopen _ sameSettings_onClientConnected.1.1 hs'
    | clientPutInServer slot => exact hopen _ sameSettings_clientPutInServer.1.1 hs'
    | clientDisconnect slot reason => exact hopen _ sameSettings_clientDisconnect.1.1 hs'
    | dispatchConCommandPre command arguments =>
      exact hopen _ sameSettings_dispatchConCommandPre.1.1 hs'
    | dispatchConCommandPost command arguments =>
      rw [runHook] at hs' ⊢
      rcases dispatchConCommandPost_cases E st command arguments with
        he | ⟨-, he | ⟨arg, -, he⟩⟩ | ⟨⟨-, hmap⟩, -⟩
      · exact hopen _ (by rw [he]) hs'
      · rw [he] at hs' ⊢
        exact h.pollMapGate hs'
      · rw [he] at hs' ⊢
        rcases hintMapGate_cases st arg with hh | hh
        · rw [hh] at hs' ⊢
          exact h.pollMapGate hs'
        · rw [hh] at hs' ⊢
          exact h.applyMapGate.pollMapGate hs'
      · exact hopen _ (sameSettings_dispatchConCommandPost hmap).1.1 hs'
    | gameFrame nowSec =>
      have hpolled : (pollMapGate st).gate.suspended = true := by
        rw [← sameSettings_gameFrame.1.1]
        exact hs'
      have hstops : runHook E st (.gameFrame nowSec) = pollMapGate st := by
        rw [runHook, gameFrame]
        dsimp only
        rw [if_pos hpolled]
      rw [hstops]
      exact h.pollMapGate hpolled
    | onLevelInit mapName =>
      cases mapName with
      | none => exact h.pollMapGate hs'
      | some name =>
        simp only [runHook, onLevelInit] at hs' ⊢
        split at hs'
        · rename_i hne
          rw [if_pos hne]
          exact h.applyMapGate.pollMapGate hs'
        · rename_i hne
          rw [if_neg hne]
          exact h.pollMapGate hs'

/-- Hosting is still suspended after the hook. -/
def StaysSuspended (E : EngineCalls) (st : State) (ev : Event) : Prop :=
  (step E st ev).gate.suspended = true

/-- A suspended stretch of a run changes the gate's map at most, and leaves the engine to itself. -/
theorem run_suspended (h : Resting st) (hs : st.gate.suspended = true)
    (hmid : Guarded (step E) (StaysSuspended E) st mid) :
    Guarded (step E) (fun st ev => (step E st ev).world = ev.world) st mid ∧
      ∃ gate w, run (step E) st mid = { st with gate := gate, world := w } := by
  induction mid generalizing st with
  | nil => exact ⟨trivial, st.gate, st.world, rfl⟩
  | cons ev mid ih =>
    obtain ⟨hstays, hmid⟩ := hmid
    have hrests : Resting (st.withWorld ev.world) := ⟨h.managed, h.vote⟩
    obtain ⟨gate, hstep⟩ := runHook_suspended (E := E) hrests hs hstays
    have hstep' : step E st ev = { st with gate := gate, world := ev.world } := hstep
    have hnext : Resting (step E st ev) := by
      rw [hstep']
      exact ⟨h.managed, h.vote⟩
    obtain ⟨hworlds, gate', w, hrun⟩ := ih hnext hstays hmid
    have hworld : (step E st ev).world = ev.world := by rw [hstep']
    refine ⟨⟨hworld, hworlds⟩, gate', w, ?_⟩
    rw [run_cons, hrun, hstep']

/-- While hosting is suspended, from any reachable state and over any hooks that leave it so, each hook
leaves the engine as it finds it, and the run that follows is the one that would have followed at once: of
the whole stretch only the map that the gate remembers is left. -/
theorem suspended_stretch_leaves_no_trace {features : PluginFeatures} {mapBlacklist : List Bytes}
    {pool : LoadedPool} {mapped : Bool} {draws : Nat → Nat} {w₀ : World}
    (hst : st = run (step E) (load features mapBlacklist pool mapped draws w₀) es)
    (hs : st.gate.suspended = true) (hmid : Guarded (step E) (StaysSuspended E) st mid) :
    Guarded (step E) (fun st ev => (step E st ev).world = ev.world) st mid ∧
      ∃ map, ∀ ev post, run (step E) st (mid ++ ev :: post) =
        run (step E) { st with gate := { gateMap := map, suspended := true } } (ev :: post) := by
  have hrests : RestsSuspended st := by
    rw [hst]
    refine run_invariant_of_step (I := RestsSuspended) (fun st ev h => ?_) ?_
    · have hmoved : RestsSuspended (st.withWorld ev.world) := fun hs => ⟨(h hs).managed, (h hs).vote⟩
      exact restsSuspended_runHook hmoved ev.hook
    · exact RestsSuspended.pollMapGate fun h => by cases h
  obtain ⟨hworlds, gate, w, hrun⟩ := run_suspended (hrests hs) hs hmid
  refine ⟨hworlds, gate.gateMap, fun ev post => ?_⟩
  have hends : (run (step E) st mid).gate.suspended = true :=
    run_invariant (I := fun st : State => st.gate.suspended = true) (fun _ _ hstays _ => hstays) hmid hs
  rw [hrun] at hends
  have hgate : ({ gateMap := gate.gateMap, suspended := true } : Gate) = gate := by
    obtain ⟨suspended, map⟩ := gate
    dsimp only at hends ⊢
    rw [hends]
  rw [run_append, hrun, run_cons, run_cons, hgate]
  -- a step does not look at the engine of the state before
  rfl

/-- A bot connects and a vote is called while a surf map is announced. -/
def suspendedVisit : List Event :=
  [onSolo (.onClientConnected 0 none 0 true), onSolo (.dispatchConCommandPre (some (ascii "callvote")) []),
    onSolo (.dispatchConCommandPost (some (ascii "callvote")) []), onSolo (.gameFrame 0)]

theorem suspended_visit_leaves_no_trace :
    let st := run (step .idle) (surfBlacklistLoad []) [surfHint []]
    Guarded (step .idle) (fun st ev => (step .idle st ev).world = ev.world) st suspendedVisit ∧
      ∃ map, ∀ ev post, run (step .idle) st (suspendedVisit ++ ev :: post) =
        run (step .idle) { st with gate := { gateMap := map, suspended := true } } (ev :: post) :=
  suspended_stretch_leaves_no_trace rfl (by decide +kernel)
    ⟨by unfold StaysSuspended; decide +kernel, by unfold StaysSuspended; decide +kernel,
      by unfold StaysSuspended; decide +kernel, by unfold StaysSuspended; decide +kernel, trivial⟩

end Botid
