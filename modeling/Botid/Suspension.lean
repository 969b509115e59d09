import Botid.Clock
import Botid.MapHint
import Botid.Unexposed

/-! While the map gate holds hosting suspended, nothing of the identities is left. -/
namespace Botid

open Machine

variable {E : EngineCalls} {st : State} {ev : Event} {w : World} {s t : Int} {i : Nat}
  {b : BotIdentity} {c : Clock} {name : Bytes} {p : Ptr}

/-- A suspended gate leaves no window and no schedule behind. -/
def Clock.Muted (c : Clock) : Prop := c.suspended = true → c.depth = 0 ∧ c.scheduled = false

theorem Clock.Muted.of_hosted (h : c.suspended = false) : c.Muted := by
  intro hs
  simp [h] at hs

theorem Clock.Muted.gated (h : c.Muted) (b : Bool) : (c.gated b).Muted := by
  rw [Clock.gated]
  split
  · exact fun _ => ⟨rfl, rfl⟩
  · rename_i hb
    intro hs
    have hb' : b = true := hs
    exact h (by simpa [hb'] using hb)

theorem Clock.suspended_entered {named : Int × Bytes} :
    (c.entered name named).suspended = c.suspended := by
  have hopened : c.openedForKick.suspended = c.suspended := by
    rw [Clock.openedForKick]
    split <;> rfl
  rw [Clock.entered]
  repeat' split
  all_goals first | rfl | exact hopened

theorem Clock.suspended_left : (c.left name).suspended = c.suspended := by
  have hend : ∀ c : Clock, c.scheduledEnd.suspended = c.suspended := by
    intro c
    rw [Clock.scheduledEnd]
    split <;> rfl
  rw [Clock.left]
  split
  · rfl
  · split
    · exact hend c
    · split
      · rw [Clock.kickEnded]
        repeat' split
        all_goals first | rfl | exact hend _
      · rfl

theorem Clock.suspended_ticked {alive : Bool} : (c.ticked alive).suspended = c.suspended := by
  rw [Clock.ticked]
  repeat' split
  all_goals rfl

theorem Clock.Muted.entered (h : c.Muted) {named : Int × Bytes} : (c.entered name named).Muted := by
  cases hs : c.suspended with
  | true =>
    rw [Clock.entered, if_pos hs]
    exact h
  | false => exact .of_hosted (Clock.suspended_entered.trans hs)

theorem Clock.Muted.left (h : c.Muted) : (c.left name).Muted := by
  cases hs : c.suspended with
  | true =>
    rw [Clock.left, if_pos hs]
    exact h
  | false => exact .of_hosted (Clock.suspended_left.trans hs)

theorem muted_step (h : st.clock.Muted) : (step E st ev).clock.Muted := by
  have hturn := @clock_step E st ev
  generalize (step E st ev).clock = c at hturn
  cases hturn with
  | stay => exact h
  | enter name named => exact h.entered
  | leave name => exact h.left
  | judge b b' => exact (h.gated b).gated b'
  | suspend => exact h.gated true
  | tick alive =>
    have hoff : (st.clock.gated false).suspended = false := by rw [Clock.gated, if_neg (by simp)]
    exact .of_hosted (Clock.suspended_ticked.trans hoff)

theorem muted_run {features : PluginFeatures} {mapBlacklist : List Bytes} {pool : LoadedPool}
    {mapped : Bool} {draws : Nat → Nat} {es : List Event} :
    (run (step E) (load features mapBlacklist pool mapped draws w) es).clock.Muted := by
  refine run_invariant_of_step (I := fun st : State => st.clock.Muted) (fun _ _ => muted_step) ?_
  rw [load, clock_pollMapGate]
  exact Clock.Muted.gated (fun _ => ⟨rfl, rfl⟩) _

/-- An entry is either unassigned or in the table, under some slot. -/
def Registry.Referenced (r : Registry) : Prop :=
  r.ids.bots.length ≤ kMaxBotIdentities ∧
    ∀ i b, r.ids.bots[i]? = some b → (b.slot = -1 ∧ b.applied = false) ∨ ∃ s, r.ids.Holds s i

theorem Registry.Referenced.abandon {r : Registry} (h : r.Referenced) :
    (r.abandon s).Referenced := by
  refine ⟨by simpa [Identities.length_bots_unmark] using h.1, fun j c hc => ?_⟩
  rw [Registry.ids_abandon] at hc ⊢
  by_cases hm : r.ids.isManaged s = true
  · obtain ⟨k, hold⟩ := Identities.isManaged_iff.mp hm
    rw [hold.bots_unmark, getElem?_modify_eq_some] at hc
    obtain ⟨b, hb, rfl⟩ := hc
    split
    · exact Or.inl ⟨rfl, rfl⟩
    · rename_i hjk
      refine (h.2 j b hb).imp_right ?_
      rintro ⟨t, ht⟩
      -- another entry than the one let go, so another slot
      refine ⟨t, Identities.holds_unmark.mpr ⟨?_, ht⟩⟩
      rintro rfl
      exact hjk (ht.unique hold)
  · rw [Identities.unmark_of_not_managed (by simpa using hm)] at hc ⊢
    exact h.2 j c hc

/-- The slot that takes an entry was unmanaged, so no other entry loses its reference. -/
theorem Registry.Referenced.take {r : Registry} {active : Int → Bool} {rd rd' : Rand}
    {bots : List BotIdentity} (h : r.Referenced) (hm : r.ids.isManaged s = false) (h0 : 0 ≤ s)
    (h1 : s < kMaxSlots) (hf : getFree active r.ids.bots rd = (some i, bots, rd')) :
    (r.take s i bots).Referenced := by
  obtain ⟨hholds, hothers, -⟩ := Identities.take_spec (f := id) h.1 h0 h1 hf
  have hlen : bots.length ≤ kMaxBotIdentities := (length_getFree hf).trans_le h.1
  refine ⟨by rwa [Registry.take, Identities.bots_mark], fun j c hc => ?_⟩
  have hmodify : ∀ ids : Identities, ids.modifyBot i id = ids := by
    intro ids
    simp [Identities.modifyBot]
  rw [hmodify] at hholds hothers
  by_cases hji : j = i
  · exact Or.inr ⟨s, (hholds s j).mpr (Or.inl ⟨rfl, hji⟩)⟩
  · refine (h.2 j c ((hothers j hji).symm.trans hc)).imp_right ?_
    rintro ⟨t, ht⟩
    refine ⟨t, (hholds t j).mpr (Or.inr ⟨?_, ht⟩)⟩
    rintro rfl
    simp [ht.isManaged] at hm

theorem referenced_runHook (h : st.registry.Referenced) (hook : Hook) :
    (runHook E st hook).registry.Referenced := by
  refine runHook_rule rfl (fun r h => h.1) ?_ (fun r s h => h.abandon) ?_ ?_ h hook
  · intro r s h
    rw [Registry.Referenced, Registry.ids_vacate, ← Registry.ids_abandon]
    exact h.abandon
  · intro r s i bots rd rd' h hm h0 h1 hf
    exact h.take hm h0 h1 hf
  · intro r s i b h _ hold hb _
    have hclaimed : ∀ f : BotIdentity → BotIdentity, ∀ j c,
        (r.ids.modifyBot i f).bots[j]? = some c →
        (c.slot = -1 ∧ c.applied = false) ∨ ∃ s, r.ids.Holds s j := by
      intro f j c hc
      obtain ⟨b, hb, rfl⟩ := getElem?_modify_eq_some.mp hc
      split
      · rename_i hji
        exact Or.inr ⟨s, hji ▸ hold⟩
      · exact h.2 j b hb
    refine ⟨⟨?_, hclaimed _⟩, ⟨?_, ?_⟩⟩
    · simpa using h.1
    · simpa using h.1
    · rw [Registry.ids_adopt]
      exact hclaimed _

/-- While hosting is suspended no slot is managed. -/
def Emptied (st : State) : Prop := st.gate.suspended = true → ∀ s, st.ids.isManaged s = false

theorem Emptied.applyMapGate (h : Emptied st) : Emptied (applyMapGate st name) :=
  hosting_applyMapGate h

theorem Emptied.pollMapGate (h : Emptied st) : Emptied (pollMapGate st) := by
  rw [Botid.pollMapGate]
  split
  · exact h
  · exact h.applyMapGate

theorem hintMapGate_cases (st : State) (hint : Bytes) :
    hintMapGate st hint = st ∨ hintMapGate st hint = applyMapGate st hint := by
  rw [hintMapGate]
  split
  · exact Or.inl rfl
  · exact Or.inr rfl

/-- A function that leaves the gate alone need only leave an empty table alone while suspended. -/
theorem Emptied.of_sameHosting {st' : State} (h : Emptied st) (hg : st'.gate = st.gate)
    (hids : st.gate.suspended = true → (∀ s, st.ids.isManaged s = false) → st'.ids = st.ids) :
    Emptied st' := by
  intro hs
  rw [hg] at hs
  rw [hids hs (h hs)]
  exact h hs

theorem ids_onClientConnected_of_suspended {pszName : Option Bytes} {xuid : UInt64}
    {fakePlayer : Bool} (hs : st.gate.suspended = true) (hm : st.ids.isManaged s = false) :
    (onClientConnected st s pszName xuid fakePlayer).ids = st.ids := by
  have hreleased : releaseOccupant st s = st := by
    rw [releaseOccupant, if_neg (by simp [hm])]
  rcases onClientConnected_cases st s pszName xuid fakePlayer with
    ⟨-, h⟩ | ⟨-, -, -, ⟨-, h⟩ | ⟨⟨hg, -, -⟩, -⟩⟩
  · rw [h]
  · rw [h, hreleased]
  · rw [hs] at hg
    cases hg

theorem emptied_step (h : Emptied st) : Emptied (step E st ev) := by
  obtain ⟨w, hook⟩ := ev
  have hst : Emptied (st.withWorld w) := h
  cases hook with
  | onClientConnected slot pszName xuid fakePlayer =>
    exact hst.of_sameHosting sameSettings_onClientConnected.1.1 fun hs hnone =>
      ids_onClientConnected_of_suspended hs (hnone slot)
  | clientPutInServer slot =>
    change Emptied (clientPutInServer (st.withWorld w) slot)
    refine hst.of_sameHosting sameSettings_clientPutInServer.1.1 fun hs _ => ?_
    rw [clientPutInServer, if_pos (Or.inl hs)]
  | clientDisconnect slot reason =>
    change Emptied (clientDisconnect E (st.withWorld w) slot reason)
    refine hst.of_sameHosting sameSettings_clientDisconnect.1.1 fun hs _ => ?_
    rw [clientDisconnect, if_pos (Or.inl hs)]
  | dispatchConCommandPre command arguments =>
    change Emptied (dispatchConCommandPre E (st.withWorld w) command arguments)
    refine hst.of_sameHosting sameSettings_dispatchConCommandPre.1.1 fun hs _ => ?_
    rcases dispatchConCommandPre_cases E (st.withWorld w) command arguments with he | ⟨hg, -⟩
    · rw [he]
    · rw [hs] at hg
      cases hg
  | dispatchConCommandPost command arguments =>
    change Emptied (dispatchConCommandPost E (st.withWorld w) command arguments)
    rcases dispatchConCommandPost_cases E (st.withWorld w) command arguments with
      he | ⟨-, he | ⟨hint, -, he⟩⟩ | ⟨⟨hg, hmap⟩, -⟩
    · rwa [he]
    · rw [he]
      exact hst.pollMapGate
    · rw [he]
      rcases hintMapGate_cases (st.withWorld w) hint with hh | hh
      · rw [hh]
        exact hst.pollMapGate
      · rw [hh]
        exact hst.applyMapGate.pollMapGate
    · refine hst.of_sameHosting (sameSettings_dispatchConCommandPost hmap).1.1 fun hs _ => ?_
      rw [hs] at hg
      cases hg
  | gameFrame nowSec =>
    have hpolled : Emptied (pollMapGate (st.withWorld w)) := hst.pollMapGate
    change Emptied (gameFrame E (st.withWorld w) nowSec)
    refine hpolled.of_sameHosting sameSettings_gameFrame.1.1 fun hs _ => ?_
    rw [gameFrame]
    dsimp only
    rw [if_pos hs]
  | onLevelInit mapName =>
    simp only [step, runHook, onLevelInit]
    split
    · split
      · exact hst.applyMapGate.pollMapGate
      · exact hst.pollMapGate
    · exact hst.pollMapGate

/-- Releasing writes every client back that answers for a managed slot. -/
theorem native_releaseManagedSlots (hm : st.ids.isManaged s = true)
    (hp : st.world.resolveClientBySlot s = some p) :
    Native ((releaseManagedSlots st).world.client p) := by
  have hrange := Identities.range_of_isManaged hm
  have hother : ∀ (y : State) (t : Int), t ≠ s → st.world.OnlyMemory y.world →
      (releaseSlot y t).world.client p = y.world.client p ∧
        st.world.OnlyMemory (releaseSlot y t).world := by
    intro y t hts hw
    rw [releaseSlot]
    split
    · exact ⟨rfl, hw⟩
    · rw [restoreIdentity]
      split
      · exact ⟨rfl, hw⟩
      · rename_i q hq
        refine ⟨World.onlyClient_restore.2 p ?_, hw.trans onlyMemory_restore⟩
        rintro rfl
        rw [hw.resolveClientBySlot] at hq
        exact hts (World.resolveClientBySlot_inj hq hp)
  rw [releaseManagedSlots]
  refine (forSlots_at releaseSlot (x := { st with vote := resetVoteTransaction })
    (J := fun y => y.ids.isManaged s = true ∧ st.world.OnlyMemory y.world)
    (Q := fun y => Native (y.world.client p) ∧ st.world.OnlyMemory y.world)
    hrange.1 hrange.2 ?_ ?_ ?_ ⟨hm, .refl⟩).1
  · rintro y t hts ⟨hmy, hw⟩
    refine ⟨?_, (hother y t hts hw).2⟩
    rw [ids_releaseSlot]
    exact Identities.isManaged_unmark.mpr ⟨Ne.symm hts, hmy⟩
  · rintro y ⟨hmy, hw⟩
    have hq : y.world.resolveClientBySlot s = some p := hw.resolveClientBySlot.trans hp
    rw [releaseSlot, if_neg (by simp [hmy]), restoreIdentity, hq]
    refine ⟨?_, hw.trans onlyMemory_restore⟩
    dsimp only
    rw [World.restore, World.client_onClient_self]
    refine ⟨?_, readLE_writeSteamId⟩
    rw [writeSteamId_out (by decide), setFakePlayer_fakePlayer]
  · rintro y t hts ⟨hy, hw⟩
    rw [(hother y t hts hw).1]
    exact ⟨hy, (hother y t hts hw).2⟩

/-- Every client that answers for a slot managed before carries the native markers afterwards. -/
def WrittenBack (st st' : State) : Prop :=
  ∀ s p, st.ids.isManaged s = true → st.world.resolveClientBySlot s = some p →
    Native (st'.world.client p)

theorem writtenBack_applyMapGate (hg : st.gate.suspended = false)
    (hs : (applyMapGate st name).gate.suspended = true) : WrittenBack st (applyMapGate st name) := by
  intro s p hm hp
  rw [applyMapGate] at hs ⊢
  split at hs
  · rw [hg] at hs
    simp at hs
  · rename_i hname
    rw [if_neg hname]
    split at hs
    · rename_i hmatch
      rw [if_pos hmatch]
      dsimp only
      rw [if_neg (by simp [hg])]
      exact native_releaseManagedSlots hm hp
    · simp at hs

theorem writtenBack_pollMapGate (hg : st.gate.suspended = false)
    (hs : (pollMapGate st).gate.suspended = true) : WrittenBack st (pollMapGate st) := by
  rw [pollMapGate] at hs ⊢
  split at hs
  · rw [hg] at hs
    simp at hs
  · rename_i hname
    rw [if_neg hname]
    exact writtenBack_applyMapGate hg hs

/-- A gate that is shut already only moves its switch. -/
theorem applyMapGate_of_suspended (hg : st.gate.suspended = true) :
    ∃ gate, applyMapGate st name = { st with gate := gate } := by
  rw [applyMapGate]
  split
  · exact ⟨st.gate, rfl⟩
  · split
    · exact ⟨_, rfl⟩
    · exact ⟨_, rfl⟩

/-- A gate that stays open only moves its switch, too. -/
theorem applyMapGate_of_hosted (hs : (applyMapGate st name).gate.suspended = false) :
    ∃ gate, applyMapGate st name = { st with gate := gate } := by
  by_cases hname : name = [] ∨ st.gate.gateMap = name
  · exact ⟨st.gate, by rw [applyMapGate, if_pos hname]⟩
  · cases hm : mapNameMatchesBlacklist name st.mapBlacklist with
    | true =>
      rw [applyMapGate, if_neg hname, if_pos hm] at hs
      simp at hs
    | false => exact ⟨_, by rw [applyMapGate, if_neg hname, if_neg (by simp [hm])]⟩

theorem writtenBack_twice (hg : st.gate.suspended = false)
    (hs : (pollMapGate (applyMapGate st name)).gate.suspended = true) :
    WrittenBack st (pollMapGate (applyMapGate st name)) := by
  cases hfirst : (applyMapGate st name).gate.suspended with
  | true =>
    have hkept : (pollMapGate (applyMapGate st name)).world = (applyMapGate st name).world := by
      rw [pollMapGate]
      split
      · rfl
      · obtain ⟨gate, he⟩ := @applyMapGate_of_suspended (applyMapGate st name)
          (buildMapIdentity (applyMapGate st name).world) hfirst
        rw [he]
    intro s p hm hp
    rw [hkept]
    exact writtenBack_applyMapGate hg hfirst s p hm hp
  | false =>
    obtain ⟨gate, he⟩ := applyMapGate_of_hosted hfirst
    have hsecond := writtenBack_pollMapGate hfirst hs
    rw [he] at hsecond ⊢
    exact hsecond

theorem writtenBack_step (hg : st.gate.suspended = false)
    (hs : (step E st ev).gate.suspended = true) :
    WrittenBack (st.withWorld ev.world) (step E st ev) := by
  obtain ⟨w, hook⟩ := ev
  have hg' : (st.withWorld w).gate.suspended = false := hg
  -- only a hook that evaluates the gate can shut it
  have hopen : ∀ st' : State, st'.gate = (st.withWorld w).gate → st'.gate.suspended = true →
      WrittenBack (st.withWorld w) st' := by
    intro st' he hs'
    rw [he, hg'] at hs'
    simp at hs'
  cases hook with
  | onClientConnected slot pszName xuid fakePlayer =>
    exact hopen _ sameSettings_onClientConnected.1.1 hs
  | clientPutInServer slot => exact hopen _ sameSettings_clientPutInServer.1.1 hs
  | clientDisconnect slot reason => exact hopen _ sameSettings_clientDisconnect.1.1 hs
  | dispatchConCommandPre command arguments =>
    exact hopen _ sameSettings_dispatchConCommandPre.1.1 hs
  | dispatchConCommandPost command arguments =>
    rw [step, runHook] at hs ⊢
    rcases dispatchConCommandPost_cases E (st.withWorld w) command arguments with
      he | ⟨-, he | ⟨hint, -, he⟩⟩ | ⟨⟨-, hmap⟩, -⟩
    · exact hopen _ (by rw [he]) hs
    · rw [he] at hs ⊢
      exact writtenBack_pollMapGate hg' hs
    · rw [he] at hs ⊢
      rcases hintMapGate_cases (st.withWorld w) hint with hh | hh
      · rw [hh] at hs ⊢
        exact writtenBack_pollMapGate hg' hs
      · rw [hh] at hs ⊢
        exact writtenBack_twice hg' hs
    · exact hopen _ (sameSettings_dispatchConCommandPost hmap).1.1 hs
  | gameFrame nowSec =>
    have hpolled : (pollMapGate (st.withWorld w)).gate.suspended = true := by
      rw [← sameSettings_gameFrame.1.1]
      exact hs
    have hstops : step E st ⟨w, .gameFrame nowSec⟩ = pollMapGate (st.withWorld w) := by
      rw [step, runHook, gameFrame]
      dsimp only
      rw [if_pos hpolled]
    rw [hstops]
    exact writtenBack_pollMapGate hg' hpolled
  | onLevelInit mapName =>
    simp only [step, runHook, onLevelInit] at hs ⊢
    split at hs
    · split at hs
      · rename_i hne
        rw [if_pos hne]
        exact writtenBack_twice hg' hs
      · rename_i hne
        rw [if_neg hne]
        exact writtenBack_pollMapGate hg' hs
    · exact writtenBack_pollMapGate hg' hs

theorem gateMap_gameFrame {nowSec : Float} (hw : buildMapIdentity w ≠ []) :
    (step E st ⟨w, .gameFrame nowSec⟩).gate.gateMap = buildMapIdentity w := by
  have hgate : (step E st ⟨w, .gameFrame nowSec⟩).gate =
      st.gate.offer st.mapBlacklist (buildMapIdentity w) := gate_step.1
  rw [hgate, Gate.offer]
  split
  · rename_i h
    exact h.resolve_left hw
  · rfl

/-- Suspension follows the remembered map, leaves no slot, entry or window behind, and writes the
managed clients back the moment it begins; every frame remembers the map that is live. -/
theorem suspension_complete {features : PluginFeatures} {mapBlacklist : List Bytes}
    {pool : LoadedPool} {mapped : Bool} {draws : Nat → Nat} {w₀ : World} {es : List Event} :
    let st := run (step E) (load features mapBlacklist pool mapped draws w₀) es
    st.gate.suspended = mapNameMatchesBlacklist st.gate.gateMap mapBlacklist ∧
      (st.gate.suspended = true →
        (∀ s, st.ids.isManaged s = false) ∧
        (∀ b ∈ st.ids.bots, b.slot = -1 ∧ b.applied = false) ∧
        st.vote.depth = 0 ∧ st.vote.endScheduled = false) ∧
      (∀ (before : State) name, before.gate.suspended = false →
        (applyMapGate before name).gate.suspended = true →
        WrittenBack before (applyMapGate before name)) ∧
      (∀ ev, st.gate.suspended = false → (step E st ev).gate.suspended = true →
        WrittenBack (st.withWorld ev.world) (step E st ev)) ∧
      ∀ w nowSec, buildMapIdentity w ≠ [] →
        (step E st ⟨w, .gameFrame nowSec⟩).gate.gateMap = buildMapIdentity w := by
  intro st
  have hsound : GateSound mapBlacklist st := by
    refine run_invariant_of_step (I := GateSound mapBlacklist) (fun _ _ => gateSound_step) ?_
    refine ⟨mapBlacklist_pollMapGate, ?_⟩
    rw [load, gate_pollMapGate]
    exact Gate.Sound.offer (by simp [Gate.Sound, mapNameMatchesBlacklist])
  have hmuted : st.clock.Muted := muted_run
  have hempty : Emptied st := by
    refine run_invariant_of_step (I := Emptied) (fun _ _ => emptied_step) ?_
    exact Emptied.pollMapGate fun hs => by simp at hs
  have hreferenced : st.registry.Referenced := by
    refine run_invariant_of_step (I := fun st : State => st.registry.Referenced)
      (fun st ev (h : (st.withWorld ev.world).registry.Referenced) => referenced_runHook h ev.hook) ?_
    rw [registry_load]
    exact ⟨pool.count_le, fun i b hb => Or.inl
      ⟨pool.slot_eq b (List.mem_of_getElem? hb), pool.not_applied b (List.mem_of_getElem? hb)⟩⟩
  refine ⟨?_, fun hs => ?_, fun _ _ => writtenBack_applyMapGate, fun _ => writtenBack_step,
    fun _ _ => gateMap_gameFrame⟩
  · exact hsound.2
  · obtain ⟨hdepth, hend⟩ := hmuted hs
    refine ⟨hempty hs, fun b hb => ?_, hdepth, hend⟩
    obtain ⟨i, hi⟩ := List.mem_iff_getElem?.mp hb
    refine (hreferenced.2 i b hi).resolve_right ?_
    rintro ⟨s, hold⟩
    exact Identities.isManaged_eq_false_iff.mp (hempty hs s) i hold

end Botid
