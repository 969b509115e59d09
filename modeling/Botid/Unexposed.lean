import Botid.Clock
import Botid.Closing

/-! Over a whole run no managed bot is exposed outside the identity window. -/
namespace Botid

open Machine ByteMem World

variable {E : EngineCalls} {st st' : State} {ev : Event} {w w' : World} {s t : Int} {b : BotIdentity}
  {name target : Bytes} {command : Option Bytes} {arguments : List Bytes} {pending : Prop}

/-- Nothing is exposed: where no window is open, no disguise is pending either. -/
def Unexposed (st : State) : Prop := Safe (st.vote.depth ≠ 0) st

theorem Safe.mono {pending' : Prop} (h : Safe pending st) (hp : pending → pending') :
    Safe pending' st :=
  h.frame rfl rfl id rfl rfl hp .refl

/-- Only the table, the gate, the window and the clients matter. -/
theorem Unexposed.frame (h : Unexposed st) (hids : st'.ids = st.ids) (hgate : st'.gate = st.gate)
    (hdepth : st'.vote.depth = st.vote.depth) (hvalid : st'.vote.valid = st.vote.valid)
    (hsnap : st'.vote.snapshots = st.vote.snapshots)
    (hw : World.Untouched st.ids.Managed st.world st'.world) : Unexposed st' :=
  Safe.frame h hids (by rw [hgate]) (fun hd => hdepth ▸ hd) hvalid hsnap (fun hd => hdepth ▸ hd) hw

theorem Unexposed.applyDisguiseIfPending (h : Unexposed st) :
    Unexposed (applyDisguiseIfPending st s) := by
  rw [Unexposed, vote_applyDisguiseIfPending]
  exact Safe.applyDisguiseIfPending h s

theorem Unexposed.closeVoteTransaction (h : Unexposed st) (hg : st.gate.suspended = false)
    (hclose : ClosesWell st) : Unexposed (closeVoteTransaction st) :=
  (Safe.closeVoteTransaction h hg hclose).mono False.elim

/-- The gate never suspends hosting over managed slots. -/
theorem hosting_applyMapGate {name : Bytes}
    (h : st.gate.suspended = true → ∀ s, st.ids.isManaged s = false) :
    (applyMapGate st name).gate.suspended = true →
      ∀ s, (applyMapGate st name).ids.isManaged s = false := by
  rw [applyMapGate]
  split
  · exact h
  · split
    · intro _ s
      dsimp only
      split
      · exact h ‹_› s
      · exact isManaged_releaseManagedSlots
    · intro hg
      simp at hg

theorem Unexposed.applyMapGate (h : Unexposed st) {name : Bytes} :
    Unexposed (applyMapGate st name) := by
  have hlive : Live everyone (Botid.applyMapGate st name).registry :=
    (applyMapGate_rule (I := Spared everyone fun _ => False) (J := PoolSound)
      (fun _ => spared_releaseRule) ⟨h.live, fun _ hf => hf.elim⟩).1
  have hhosting : (Botid.applyMapGate st name).gate.suspended = true →
      ∀ s, (Botid.applyMapGate st name).ids.isManaged s = false := hosting_applyMapGate h.hosting
  obtain ⟨gate, he⟩ | ⟨-, he⟩ := applyMapGate_cases
  · rw [he] at hlive hhosting ⊢
    exact ⟨hlive, hhosting, h.window, h.slot⟩
  · obtain ⟨ids, shm, w, -, hr⟩ := releaseManagedSlots_eq st
    have hnone : ∀ s, (releaseManagedSlots st).ids.isManaged s = false :=
      fun _ => isManaged_releaseManagedSlots
    rw [he] at hlive hhosting ⊢
    refine ⟨hlive, hhosting, fun s hs => ?_, fun s => slotSafe_of_not_managed (hnone s)⟩
    rw [hr] at hs
    simp [resetVoteTransaction] at hs

theorem Unexposed.pollMapGate (h : Unexposed st) : Unexposed (pollMapGate st) := by
  rw [Botid.pollMapGate]
  split
  · exact h
  · exact h.applyMapGate

theorem Unexposed.onLevelInit (h : Unexposed st) {mapName : Option Bytes} :
    Unexposed (onLevelInit st mapName) := by
  cases mapName with
  | none => exact h.pollMapGate
  | some name =>
    simp only [Botid.onLevelInit]
    split
    · exact h.applyMapGate.pollMapGate
    · exact h.pollMapGate

/-- On a dead server no slot has a client that could be exposed. -/
theorem Unexposed.reset (h : Unexposed st) (hw : st.world.serverAlive = false) :
    Unexposed { st with vote := resetVoteTransaction } := by
  refine ⟨h.live, h.hosting, fun s hs => by simp [resetVoteTransaction] at hs, fun s b _ => ?_⟩
  refine ⟨fun hc => by simp [resetVoteTransaction] at hc, fun _ p hp => ?_⟩
  simp [resolveClientBySlot, hw] at hp

theorem Unexposed.tickVoteTransaction (h : Unexposed st) (hg : st.gate.suspended = false)
    (hclose : st.vote.endScheduled = true → st.vote.holdFramesRemaining ≤ 1 → ClosesWell st) :
    Unexposed (tickVoteTransaction st) := by
  rw [Botid.tickVoteTransaction]
  split
  · exact h
  · split
    · exact h.reset (by simpa using ‹(!st.world.serverAlive) = true›)
    · split
      · exact h
      · rename_i hend
        split
        · have hdepth : (reassertNativeVoteMarkers st.ids st.vote st.world).1.depth =
              st.vote.depth := by
            rw [reassertNativeVoteMarkers]
            split
            · rfl
            · refine forSlots_invariant (I := fun z : Vote × World => z.1.depth = st.vote.depth)
                (fun z t hz => ?_) rfl
              rw [← hz]
              unfold reassertSlot
              dsimp only
              split
              · rfl
              · split
                · rfl
                · split <;> rfl
          have hsafe := Safe.reassert h
          refine ⟨hsafe.live, hsafe.hosting, hsafe.window, fun s => ?_⟩
          exact (hsafe.slot s).frame rfl rfl (fun hd => by rwa [← hdepth] at hd) .refl
        · exact h.closeVoteTransaction hg (hclose (by simpa using hend) (by omega))

/-- An open window forgets a slot; the other snapshots stay. -/
theorem resetVoteTransactionSlot_spec {v : Vote} (hs : 0 ≤ s) (hs' : s < kMaxSlots) :
    (resetVoteTransactionSlot v s).depth = v.depth ∧ (resetVoteTransactionSlot v s).valid = v.valid ∧
      (∀ t, t ≠ s → (resetVoteTransactionSlot v s).snapshots t = v.snapshots t) ∧
      ((resetVoteTransactionSlot v s).snapshots s).captured = false := by
  rw [resetVoteTransactionSlot, if_neg (by omega)]
  split
  · exact ⟨rfl, rfl, fun _ _ => rfl, by simpa using ‹(!(v.snapshots s).captured) = true›⟩
  · exact ⟨rfl, rfl, fun t ht => by simp [Vote.setSnapshot, ht], by simp [Vote.setSnapshot]⟩

/-- The previous occupant of a slot goes, whatever the engine did to that slot's client. -/
theorem Unexposed.releaseOccupant (h : Unexposed st)
    (hw : World.Untouched (fun t => st.ids.Managed t ∧ t ≠ s) st.world w) :
    Unexposed (releaseOccupant (st.withWorld w) s) := by
  rw [Botid.releaseOccupant]
  split
  · rename_i hm
    have hrange := Identities.range_of_isManaged hm
    obtain ⟨hdepth, hvalid, hother, hself⟩ :=
      resetVoteTransactionSlot_spec (v := st.vote) hrange.1 hrange.2
    have hvacated : Safe (st.vote.depth ≠ 0) { st.withWorld w with
        ids := st.ids.unmark s
        shm := st.shm.publishRelease s
        vote := resetVoteTransactionSlot st.vote s } :=
      Safe.vacated h rfl rfl hdepth hvalid hother hself hw
    exact hvacated.mono fun hd => hdepth ▸ hd
  · rename_i hm
    refine h.frame rfl rfl rfl rfl rfl (hw.mono fun t ht => ⟨ht, ?_⟩)
    rintro rfl
    exact hm ht

/-- Marking an entry that nobody owns keeps the slots apart, and the other slots as they are. -/
theorem exclusive_markIdentity {i : Nat} {bots : List BotIdentity} {rand : Rand}
    (h : Live everyone st.registry) (hs : 0 ≤ s) (hs' : s < kMaxSlots)
    (hkeeps : KeepsOwned st.world.isSlotActive everyone st.ids)
    (hf : getFree st.world.isSlotActive st.ids.bots st.rand = (some i, bots, rand)) :
    let ids := (markIdentity st s i bots rand).ids
    ids.Exclusive ∧ ids.Holds s i ∧ ∀ t, t ≠ s → ids.isManaged t = st.ids.isManaged t ∧
      ids.getIdentity t = st.ids.getIdentity t := by
  intro ids
  have hsize : st.ids.bots.length ≤ kMaxBotIdentities := h.size
  obtain ⟨hhold, hbots, -⟩ := Identities.take_spec (f := id) hsize hs hs' hf
  have hid : (({ st.ids with bots := bots } : Identities).mark s i).modifyBot i id = ids := by
    simp [Identities.modifyBot, List.modify_id, ids, markIdentity]
  rw [hid] at hhold hbots
  have hfresh : ∀ t, ¬ st.ids.Holds t i := fun t => h.not_owned_of_getFree hkeeps hf rfl
  refine ⟨?_, (hhold s i).mpr (Or.inl ⟨rfl, rfl⟩), fun t hts => ?_⟩
  · intro t u j ht hu
    rcases (hhold t j).mp ht with ⟨rfl, rfl⟩ | ⟨-, ht'⟩
    · rcases (hhold u j).mp hu with ⟨rfl, -⟩ | ⟨-, hu'⟩
      · rfl
      · exact absurd hu' (hfresh u)
    · rcases (hhold u j).mp hu with ⟨rfl, rfl⟩ | ⟨-, hu'⟩
      · exact absurd ht' (hfresh t)
      · exact h.exclusive t u j ht' hu'
  · have hm : ids.isManaged t = st.ids.isManaged t := by
      rw [Bool.eq_iff_iff, Identities.isManaged_iff, Identities.isManaged_iff]
      refine exists_congr fun j => (hhold t j).trans ?_
      simp [hts]
    refine ⟨hm, ?_⟩
    cases hmt : st.ids.isManaged t with
    | false =>
      rw [Identities.getIdentity_of_not_managed hmt,
        Identities.getIdentity_of_not_managed (hm.trans hmt)]
    | true =>
      obtain ⟨j, htj⟩ := Identities.isManaged_iff.mp hmt
      have hji : j ≠ i := by
        rintro rfl
        exact hfresh t htj
      rw [htj.getIdentity, Identities.Holds.getIdentity ((hhold t j).mpr (Or.inr ⟨hts, htj⟩)),
        hbots j hji]

/-- The first disguise of an uncaptured slot: it shows, or the open window defers it. -/
theorem slotSafe_applyDisguise_self {i : Nat} (hold : st.ids.Holds s i)
    (hempty : (st.vote.snapshots s).captured = false) (hg : st.gate.suspended = false)
    (hb : st.ids.bots[i]? = some b) (ha : b.applied = false) :
    SlotSafe (st.vote.depth ≠ 0) (applyDisguise st s i).ids st.vote (applyDisguise st s i).world s := by
  have hid : ∀ f, (st.ids.modifyBot i f).getIdentity s = some (f b) := by
    intro f
    rw [Identities.getIdentity_modifyBot_self hold, hold.getIdentity, hb, Option.map_some]
  intro c hc
  refine ⟨fun hcap => by simp [hempty] at hcap, fun _ p hp => ?_⟩
  by_cases hd : st.vote.active = true ∨ st.world.resolveClientBySlot s = none
  · rw [applyDisguise_deferred hg hb ha hd] at hc hp
    dsimp only at hc hp
    rw [hid, Option.some.injEq] at hc
    subst hc
    refine ⟨fun hfalse => by simp [ha] at hfalse, fun _ => ?_⟩
    rcases hd with hv | hnone
    · simpa [Vote.active] using hv
    · simp [hnone] at hp
  · rw [not_or, Bool.not_eq_true, ← ne_eq, Option.ne_none_iff_exists'] at hd
    obtain ⟨hv, client, hres⟩ := hd
    rw [applyDisguise_adopted hg hb ha hv hres] at hc hp ⊢
    dsimp only at hc hp ⊢
    rw [hid, Option.some.injEq] at hc
    subst hc
    rw [onlyClient_disguise.1.resolveClientBySlot, hres, Option.some.injEq] at hp
    subst hp
    refine ⟨fun _ => ?_, fun hfalse => by simp at hfalse⟩
    rw [World.disguise, client_onLiveController, client_onClient_self]
    exact disguised_writeSteamId_clearFakePlayer

/-- A bot that takes an entry is disguised at once, or waits for the window to close. -/
theorem Unexposed.assignIdentity (h : Unexposed st) (hm : st.ids.isManaged s = false) (hs : 0 ≤ s)
    (hs' : s < kMaxSlots) (hg : st.gate.suspended = false)
    (hkeeps : KeepsOwned st.world.isSlotActive everyone st.ids)
    (hlive : Live everyone (assignIdentity st s).registry) : Unexposed (assignIdentity st s) := by
  rcases assignIdentity_cases st s with ⟨_, _, -, ha⟩ | ⟨i, bots, rand, hf, ha⟩
  · rw [ha]
    exact h.frame rfl rfl rfl rfl rfl .refl
  · rw [ha] at hlive ⊢
    obtain ⟨hexcl, hself, hothers⟩ := exclusive_markIdentity h.live hs hs' hkeeps hf
    have hempty : (st.vote.snapshots s).captured = false := by
      by_contra hc
      have := (h.window s (by simpa using hc)).2.2
      simp [hm] at this
    refine ⟨hlive, fun hsus => ?_, fun t ht => ?_, fun t => ?_⟩
    · rw [gate_applyDisguise] at hsus
      exact absurd (hsus.symm.trans hg) (by simp)
    · rw [vote_applyDisguise] at ht ⊢
      obtain ⟨hv, hd, hmt⟩ := h.window t ht
      have hts : t ≠ s := by
        rintro rfl
        exact absurd (hmt.symm.trans hm) (by simp)
      refine ⟨hv, hd, ?_⟩
      rw [Identities.isManaged_congr slots_applyDisguise, (hothers t hts).1, hmt]
    · by_cases hts : t = s
      · subst hts
        obtain ⟨b, hb, ha⟩ := unapplied_of_getFree h.live.unassigned hf
        rw [vote_applyDisguise]
        have hb : (markIdentity st t i bots rand).ids.bots[i]? = some b := by
          rwa [markIdentity, Identities.bots_mark]
        exact slotSafe_applyDisguise_self hself hempty hg hb ha
      · obtain ⟨hget, hun⟩ := applyDisguise_frame hexcl hself hts
        rw [vote_applyDisguise]
        exact (h.slot t).frame (hget.trans (hothers t hts).2) rfl id hun

/-- The engine may do what it likes to the client of a slot that is not managed. -/
theorem Unexposed.withWorld_of_not_managed (h : Unexposed st) (hm : st.ids.isManaged s = false)
    (hw : World.Untouched (fun t => st.ids.Managed t ∧ t ≠ s) st.world w) :
    Unexposed (st.withWorld w) := by
  refine h.frame rfl rfl rfl rfl rfl (hw.mono fun t ht => ⟨ht, ?_⟩)
  rintro rfl
  exact absurd (hm.symm.trans ht) (by simp)

theorem not_managed_of_range (h : s < 0 ∨ kMaxSlots ≤ s) : st.ids.isManaged s = false := by
  rw [Identities.isManaged, if_pos h]

theorem Unexposed.onClientConnected {xuid : UInt64} {fakePlayer : Bool} {pszName : Option Bytes}
    (h : Unexposed st) (hw : World.Untouched (fun t => st.ids.Managed t ∧ t ≠ s) st.world w)
    (hhltv : isHltvName pszName = true → st.ids.isManaged s = false)
    (hkeeps : st.AsksForIdentity s pszName xuid fakePlayer →
      KeepsOwned w.isSlotActive everyone (st.ids.unmark s)) :
    Unexposed (onClientConnected (st.withWorld w) s pszName xuid fakePlayer) := by
  have hids : (Botid.releaseOccupant (st.withWorld w) s).ids = st.ids.unmark s := ids_releaseOccupant
  have hlive : Live everyone
      (Botid.onClientConnected (st.withWorld w) s pszName xuid fakePlayer).registry := by
    apply onClientConnected_rule
    · exact fun _ => h.live
    · exact fun _ _ => live_congr (h.live.unmark h.live.not_superseded) Registry.ids_vacate
    · rintro ⟨hopen, h0, h1, hn, hx, hfake⟩ hreleased i bots r' b hf hb
      have hkeeps' : KeepsOwned w.isSlotActive everyone
          (Botid.releaseOccupant (st.withWorld w) s).registry.ids := by
        rw [State.registry, hids]
        exact hkeeps ⟨hopen, h0, h1, hn, hx, hfake⟩
      exact hreleased.takeRule hkeeps' h0 h1 hf hb
  rcases onClientConnected_cases (st.withWorld w) s pszName xuid fakePlayer with
    ⟨hr, he⟩ | ⟨h0, h1, hn, ⟨-, he⟩ | ⟨⟨hopen, hx, hfake⟩, he⟩⟩
  · rw [he]
    refine h.withWorld_of_not_managed ?_ hw
    rcases hr with hr | hr | hr
    · exact not_managed_of_range (Or.inl hr)
    · exact not_managed_of_range (Or.inr hr)
    · exact hhltv hr
  · rw [he]
    exact h.releaseOccupant hw
  · rw [he] at hlive ⊢
    refine (h.releaseOccupant hw).assignIdentity isManaged_releaseOccupant h0 h1 ?_ ?_ hlive
    · rwa [gate_releaseOccupant]
    · rw [world_releaseOccupant, hids]
      exact hkeeps ⟨hopen, h0, h1, hn, hx, hfake⟩

/-- A disconnect lets go of its own slot and touches nobody else's client. -/
theorem Unexposed.clientDisconnect (hE : E.KeepsClients) {reason : Int} (h : Unexposed st)
    (hw : World.Untouched (fun t => st.ids.Managed t ∧ t ≠ s) st.world w) :
    Unexposed (clientDisconnect E (st.withWorld w) s reason) := by
  rcases clientDisconnect_cases E (st.withWorld w) s reason with
    ⟨hr, hd⟩ | ⟨⟨-, h0, h1, -⟩, pending, hd⟩
  · rw [hd]
    refine h.withWorld_of_not_managed ?_ hw
    rcases hr with hg | hr | hr | hr
    · exact h.hosting hg s
    · exact not_managed_of_range (Or.inl hr)
    · exact not_managed_of_range (Or.inr hr)
    · exact hr
  · obtain ⟨hdepth, hvalid, hother, hself⟩ := resetVoteTransactionSlot_spec (v := st.vote) h0 h1
    have hmoved : World.Untouched (fun t => st.ids.Managed t ∧ t ≠ s) st.world
        (worldAtDisconnect E (st.withWorld w) s reason) := by
      refine hw.trans ?_
      rw [worldAtDisconnect]
      split
      · exact (writesWithin_moveManagedBotToSpectator hE (M := fun _ => False)).untouched
      · exact .refl
    have hvacated : ∀ st' : State, st'.ids = st.ids.unmark s → st'.gate = st.gate →
        st'.vote = resetVoteTransactionSlot st.vote s →
        World.Untouched (fun t => st.ids.Managed t ∧ t ≠ s) st.world st'.world → Unexposed st' := by
      intro st' hids hgate hvote hworld
      have hsafe := Safe.vacated h hids (by rw [hgate]) (by rw [hvote, hdepth])
        (by rw [hvote, hvalid]) (by rw [hvote]; exact hother) (by rw [hvote]; exact hself) hworld
      refine hsafe.mono fun hd => ?_
      rwa [hvote, hdepth]
    rw [hd]
    dsimp only [restoreIdentity]
    cases hres : (worldAtDisconnect E (st.withWorld w) s reason).resolveClientBySlot s with
    | none => exact hvacated _ rfl rfl rfl hmoved
    | some client =>
      have hrestored := hmoved.trans ((onlyClient_restore.untouched hres).mono fun t ht => ht.2)
      exact hvacated _ rfl rfl rfl hrestored

/-- Work of the engine's own functions on managed slots. -/
theorem Unexposed.writesWithin (h : Unexposed st)
    (hw : WritesWithin (fun _ => False) st.ids.Managed st.world w) :
    Unexposed { st with world := w } :=
  h.frame rfl rfl rfl rfl rfl hw.untouched

theorem Unexposed.kickNamedBot (hE : E.KeepsClients) (h : Unexposed st)
    (hwrap : st.vote.depth + 1 ≠ 0) : Unexposed (kickNamedBot E st s) := by
  have hmove : WritesWithin (fun _ => False) st.ids.Managed st.world
      (moveManagedBotToSpectator E st.ids st.world s) := writesWithin_moveManagedBotToSpectator hE
  have hmoved := h.writesWithin hmove
  have hkick : ∀ st' : State, Unexposed st' → Unexposed (kickManagedBotByUserId st' s) := by
    intro st' h'
    rw [kickManagedBotByUserId]
    split
    · exact h'
    · dsimp only
      split
      · exact h'
      · exact h'.frame rfl rfl rfl rfl rfl
          writesWithin_neutralizeCollidingLeftoverUserIds.untouched
  unfold Botid.kickNamedBot
  dsimp only
  apply hkick
  split
  · exact (hmoved.beginVoteTransactionForSlot (s := s) hwrap).frame rfl rfl id rfl rfl id .refl
  · exact hmoved

theorem Unexposed.kickGroup (hE : E.KeepsClients) (h : Unexposed st)
    (hwrap : st.vote.depth + 1 ≠ 0) : Unexposed (kickGroup E st name target) := by
  have hbegin : ∀ st' : State, Unexposed st' → st'.vote.depth = st.vote.depth →
      Unexposed (if !st'.vote.active ∨ st'.populationDepth ≠ 0 then
        { beginVoteTransaction st' with
          populationDepth := (beginVoteTransaction st').populationDepth + 1 }
      else st') := by
    intro st' h' hdepth
    split
    · have hsafe := Safe.beginVoteTransaction h' (by rwa [hdepth])
      exact hsafe.frame rfl rfl id rfl rfl id .refl
    · exact h'
  unfold Botid.kickGroup
  dsimp only
  split
  · refine hbegin _ (h.writesWithin ?_) rfl
    exact forSlots_invariant
      (I := fun w' => WritesWithin (fun _ => False) st.ids.Managed st.world w')
      (fun w' t hw => hw.trans (writesWithin_moveManagedBotToSpectator hE)) .refl
  · exact hbegin _ h rfl

theorem Unexposed.dispatchConCommandPre (hE : E.KeepsClients) (h : Unexposed st)
    (hwrap : st.vote.depth + 1 ≠ 0)
    (hclose : command.any isBotAddCommand = true → st.vote.active = true → ClosesWell st) :
    Unexposed (dispatchConCommandPre E st command arguments) := by
  rcases dispatchConCommandPre_cases E st command arguments with
    he | ⟨hg, he | ⟨s, he⟩ | ⟨name, target, he⟩ | ⟨hadd, hv, he⟩⟩
  · rwa [he]
  · rw [he]
    exact Safe.beginVoteTransaction h hwrap
  · rw [he]
    exact h.kickNamedBot hE hwrap
  · rw [he]
    exact h.kickGroup hE hwrap
  · rw [he, forceEndVoteTransaction]
    split
    · exact h
    · exact h.closeVoteTransaction hg (hclose hadd hv)

theorem Unexposed.scheduleHold (h : Unexposed st) : Unexposed (scheduleHold st) := by
  rw [Botid.scheduleHold, scheduleVoteTransactionEnd]
  split
  · exact h
  · exact h.frame rfl rfl rfl rfl rfl .refl

theorem Unexposed.applyPendingDisguises (h : Unexposed st) : Unexposed (applyPendingDisguises st) := by
  rw [Botid.applyPendingDisguises]
  split
  · exact h
  · exact forSlots_invariant (fun _ _ h' => h'.applyDisguiseIfPending) h

theorem Unexposed.endKickCommand (h : Unexposed st) : Unexposed (endKickCommand st) := by
  have hcounted : Unexposed { st with populationDepth := st.populationDepth - 1 } :=
    h.frame rfl rfl rfl rfl rfl .refl
  rw [Botid.endKickCommand]
  split
  · exact h
  · dsimp only
    split
    · exact hcounted.scheduleHold
    · exact hcounted

theorem Unexposed.dispatchConCommandPost (hE : E.KeepsClients) (h : Unexposed st) :
    Unexposed (dispatchConCommandPost E st command arguments) := by
  have hreap : ∀ st' : State, Unexposed st' → Unexposed (reapAfterPopulationCommand E st') :=
    fun st' h' => h'.frame rfl rfl rfl rfl rfl
      (writesWithin_reapAfterPopulationCommand hE).untouched
  rcases dispatchConCommandPost_cases E st command arguments with
    he | ⟨-, he | ⟨arg, -, he⟩⟩ | ⟨-, he | ⟨st₁, hkick, he⟩⟩
  · rwa [he]
  · rw [he]
    exact h.pollMapGate
  · rw [he, hintMapGate]
    split
    · exact h.pollMapGate
    · exact h.applyMapGate.pollMapGate
  · rw [he]
    exact h.scheduleHold
  · have hkicked : Unexposed st₁ := by
      rcases hkick with rfl | rfl
      · exact h
      · exact h.endKickCommand
    rcases he with he | he | ⟨-, he⟩
    · rwa [he]
    · rw [he]
      exact hreap _ hkicked
    · rw [he]
      exact hreap _ hkicked.applyPendingDisguises

theorem Unexposed.gameFrame (hE : E.KeepsClients) {nowSec : Float} (h : Unexposed st)
    (hclose : st.vote.endScheduled = true → st.vote.holdFramesRemaining ≤ 1 → ClosesWell st) :
    Unexposed (gameFrame E st nowSec) := by
  have hpolled := h.pollMapGate
  rw [Botid.gameFrame]
  split
  · exact hpolled
  · rename_i hs
    obtain ⟨gate, he⟩ | ⟨-, he⟩ := pollMapGate_cases
    · rw [he] at hpolled hs ⊢
      have hticked := hpolled.tickVoteTransaction (by simpa using hs) hclose
      have hdrained : Unexposed { Botid.tickVoteTransaction { st with gate := gate } with
          pending := (drainPendingControllerRemovals E
            (Botid.tickVoteTransaction { st with gate := gate }).ids
            (Botid.tickVoteTransaction { st with gate := gate }).pending
            (Botid.tickVoteTransaction { st with gate := gate }).world).1
          world := (drainPendingControllerRemovals E
            (Botid.tickVoteTransaction { st with gate := gate }).ids
            (Botid.tickVoteTransaction { st with gate := gate }).pending
            (Botid.tickVoteTransaction { st with gate := gate }).world).2 } :=
        hticked.frame rfl rfl rfl rfl rfl (writesWithin_drainPendingControllerRemovals hE).untouched
      rw [jitterPings]
      split
      · exact hdrained
      · split
        · exact hdrained.frame rfl rfl rfl rfl rfl .refl
        · exact hdrained.frame rfl rfl rfl rfl rfl .refl
    · rw [he] at hs
      exact absurd rfl hs

/-- The slot whose client the engine exchanges together with a hook. -/
def Hook.moves : Hook → Int → Prop
  | .onClientConnected slot _ _ _ => (· = slot)
  | .clientDisconnect slot _ => (· = slot)
  | _ => fun _ => False

/-- Between hooks the engine writes no markers of managed clients, and exchanges a client only
together with a connect or disconnect. -/
def EngineKeepsMarkers (st : State) (ev : Event) : Prop :=
  World.Untouched (fun t => st.ids.Managed t ∧ ¬ ev.hook.moves t) st.world ev.world

/-- A hook that ends the window: the last frame of the hold, or a `bot_add` that forces the end. -/
def State.closesWindow (st : State) : Hook → Prop
  | .gameFrame _ => st.vote.endScheduled = true ∧ st.vote.holdFramesRemaining ≤ 1
  | .dispatchConCommandPre command _ => command.any isBotAddCommand = true ∧ st.vote.active = true
  | _ => False

/-- Every window closes well, no HLTV client comes to a managed slot, and no connect recycles an entry
that a managed slot still holds: two slots on one entry share its `applied`, so the disguise of one would
leave the other exposed. -/
def WindowsCloseWell (st : State) (ev : Event) : Prop :=
  (st.closesWindow ev.hook → ClosesWell (st.withWorld ev.world)) ∧
    match ev.hook with
    | .onClientConnected slot name xuid fakePlayer =>
      (isHltvName name = true → st.ids.isManaged slot = false) ∧
        (st.AsksForIdentity slot name xuid fakePlayer →
          KeepsOwned ev.world.isSlotActive everyone (st.ids.unmark slot))
    | .dispatchConCommandPre _ _ => st.vote.depth + 1 ≠ 0
    | _ => True

theorem unexposed_step (hE : E.KeepsClients) (hengine : EngineKeepsMarkers st ev)
    (hok : WindowsCloseWell st ev) (h : Unexposed st) : Unexposed (step E st ev) := by
  obtain ⟨w, hook⟩ := ev
  obtain ⟨hclose, hok⟩ := hok
  have hstill : (∀ t, ¬ hook.moves t) → Unexposed (st.withWorld w) := fun hmoves =>
    h.frame rfl rfl rfl rfl rfl (hengine.mono fun t ht => ⟨ht, hmoves t⟩)
  rw [step]
  cases hook with
  | onClientConnected slot name xuid fakePlayer => exact h.onClientConnected hengine hok.1 hok.2
  | clientPutInServer slot =>
    rw [runHook, clientPutInServer]
    split
    · exact hstill fun _ => id
    · exact (hstill fun _ => id).applyDisguiseIfPending
  | clientDisconnect slot reason => exact h.clientDisconnect hE hengine
  | dispatchConCommandPre command arguments =>
    exact (hstill fun _ => id).dispatchConCommandPre hE hok fun hadd hv => hclose ⟨hadd, hv⟩
  | dispatchConCommandPost command arguments =>
    exact (hstill fun _ => id).dispatchConCommandPost hE
  | gameFrame nowSec =>
    exact (hstill fun _ => id).gameFrame hE fun hend hhold => hclose ⟨hend, hhold⟩
  | onLevelInit mapName => exact (hstill fun _ => id).onLevelInit

/-- Closing hooks close: no window is open after them. -/
theorem depth_step_of_closesWindow (hg : st.gate.suspended = false)
    (h : st.closesWindow ev.hook) : (step E st ev).vote.depth = 0 := by
  obtain ⟨w, hook⟩ := ev
  cases hook with
  | dispatchConCommandPre command arguments =>
    obtain ⟨hadd, hv⟩ := h
    cases command with
    | none => simp at hadd
    | some name =>
      replace hadd : isBotAddCommand name = true := hadd
      have hother : name ≠ ascii "callvote" ∧ isKickCommand name = false := by
        simp only [isBotAddCommand, decide_eq_true_eq] at hadd
        rcases hadd with rfl | rfl | rfl <;> decide
      have hstep : step E st ⟨w, .dispatchConCommandPre (some name) arguments⟩ =
          closeVoteTransaction (st.withWorld w) := by
        have hg' : (st.withWorld w).gate.suspended = false := hg
        have hv' : (st.withWorld w).vote.active = true := hv
        simp [step, runHook, dispatchConCommandPre, forceEndVoteTransaction, hg', hv', hadd, hother]
      rw [hstep]
      exact congrArg Clock.depth clock_closeVoteTransaction
  | gameFrame nowSec =>
    obtain ⟨hend, hhold⟩ := h
    obtain ⟨b, hclock⟩ := @clock_gameFrame E (st.withWorld w) nowSec
    exact (congrArg Clock.depth hclock).trans (Clock.depth_of_due hg hend hhold)
  | onClientConnected | clientPutInServer | clientDisconnect | dispatchConCommandPost | onLevelInit =>
    exact h.elim

theorem unexposed_load {features : PluginFeatures} {mapBlacklist : List Bytes}
    {pool : LoadedPool} {mapped : Bool} {draws : Nat → Nat} {w : World} :
    Unexposed (load features mapBlacklist pool mapped draws w) := by
  rw [load]
  apply Unexposed.pollMapGate
  have hnone : ∀ s, (⟨pool.bots, fun _ => -1⟩ : Identities).isManaged s = false := by
    intro s
    simp [Identities.isManaged]
  have hfree : ∀ s i, ¬ (⟨pool.bots, fun _ => -1⟩ : Identities).Holds s i :=
    fun s => Identities.isManaged_eq_false_iff.mp (hnone s)
  refine ⟨⟨pool.count_le, fun i b hb _ => pool.not_applied b (List.mem_of_getElem? hb), ?_, ?_⟩,
    fun _ => hnone, fun s hs => by simp at hs, fun s => slotSafe_of_not_managed (hnone s)⟩
  · exact fun s i _ hold => absurd hold (hfree s i)
  · exact fun s t i j b c _ _ _ hold => absurd hold (hfree s i)

/-- In a run whose windows all close well, the hooks that close a window leave none open, and while
none is open every managed slot whose client resolves shows its applied identity. -/
theorem closing_leaves_none_exposed (hE : E.KeepsClients) {features : PluginFeatures}
    {mapBlacklist : List Bytes} {pool : LoadedPool} {mapped : Bool} {draws : Nat → Nat} {w₀ : World}
    {es : List Event}
    (hengine : Guarded (step E) EngineKeepsMarkers
      (load features mapBlacklist pool mapped draws w₀) es)
    (hok : Guarded (step E) WindowsCloseWell
      (load features mapBlacklist pool mapped draws w₀) es) :
    let st := run (step E) (load features mapBlacklist pool mapped draws w₀) es
    (∀ ev, st.gate.suspended = false → st.closesWindow ev.hook → (step E st ev).vote.depth = 0) ∧
      (st.vote.depth = 0 → ∀ s p, st.ids.isManaged s = true →
        st.world.resolveClientBySlot s = some p →
        ∃ b, st.ids.getIdentity s = some b ∧ b.applied = true ∧
          Disguised (st.world.client p) b.steamId) := by
  intro st
  have hst : Unexposed st :=
    run_invariant (fun _ _ hok => unexposed_step hE hok.1 hok.2) (guarded_and.mpr ⟨hengine, hok⟩)
      unexposed_load
  refine ⟨fun ev => depth_step_of_closesWindow, fun hd s p hm hp => ?_⟩
  obtain ⟨i, b, -, -, hid⟩ := hst.identity_of_managed hm
  obtain ⟨happ, hpend⟩ :=
    (hst.slot s b hid).2 (hst.not_captured (by simp [Vote.active, hd])) p hp
  have ha : b.applied = true := by
    by_contra ha
    exact hpend (by simpa using ha) hd
  exact ⟨b, hid, ha, happ ha⟩

/-- The events of a run through which the engine itself does nothing. -/
def quietEvents (E : EngineCalls) : State → List Hook → List Event
  | _, [] => []
  | st, hook :: hooks => ⟨st.world, hook⟩ :: quietEvents E (quietStep E st hook) hooks

theorem run_quietEvents {hooks : List Hook} :
    run (step E) st (quietEvents E st hooks) = run (quietStep E) st hooks := by
  induction hooks generalizing st with
  | nil => rfl
  | cons hook hooks ih => exact ih

theorem guarded_quietEvents {hooks : List Hook} :
    Guarded (step E) EngineKeepsMarkers st (quietEvents E st hooks) := by
  induction hooks generalizing st with
  | nil => trivial
  | cons hook hooks ih => exact ⟨.refl, ih⟩

/-- A bot connects, and a vote opens a window that runs out. -/
def votedRun : List Hook :=
  [.onClientConnected 0 none 0 true, .dispatchConCommandPre (some (ascii "callvote")) [],
    .dispatchConCommandPost (some (ascii "callvote")) [], .gameFrame 0, .gameFrame 0]

theorem closing_leaves_none_exposed_after_vote :
    let st := run (step .idle) soloLoad (quietEvents .idle soloLoad (votedRun ++ [.gameFrame 0]))
    ∃ b, st.ids.getIdentity 0 = some b ∧ b.applied = true ∧
      Disguised (st.world.client 100) b.steamId := by
  intro st
  have hcloses : ClosesWell (run (quietStep .idle) soloLoad votedRun) := by
    have hcopies : ∀ n : Fin 64,
        ((run (quietStep .idle) soloLoad votedRun).vote.snapshots (n : Nat)).copies = [] := by
      decide +kernel
    refine ⟨Or.inl (by decide +kernel), fun s h0 h1 _ => ?_⟩
    rw [kMaxSlots] at h1
    have hs := hcopies ⟨s.toNat, by omega⟩
    rw [Int.toNat_of_nonneg h0] at hs
    simp [hs, CopiesAgree]
  refine (closing_leaves_none_exposed EngineCalls.keepsClients_idle guarded_quietEvents ?_).2 ?_ 0 100 ?_ ?_
  · refine ⟨⟨False.elim, by decide, fun _ => Or.inl ⟨0, by decide⟩⟩,
      ⟨fun h => ?_, by decide +kernel⟩, ⟨False.elim, trivial⟩, ⟨fun h => ?_, trivial⟩,
      ⟨fun h => ?_, trivial⟩, ⟨fun _ => hcloses, trivial⟩, trivial⟩
    · exact absurd h.1 (by decide)
    · exact absurd h.2 (by decide +kernel)
    · exact absurd h.2 (by decide +kernel)
  · rw [run_quietEvents]
    decide +kernel
  · rw [run_quietEvents]
    decide +kernel
  · rw [run_quietEvents]
    decide +kernel

/-- Both bots of the list, on a server whose second client never shows up. -/
def loneLoad : State := load .plain [] duoPool true (fun _ => 0) (.ofClients [100] nodup_solo)

/-- A bot without a client is kicked by name, another one connects, and the window runs out. -/
def failedCaptureRun : List Hook :=
  [.onClientConnected 1 none 0 true,
    .dispatchConCommandPre (some (ascii "bot_kick")) [ascii "bot_kick", ascii "INTEL"],
    .dispatchConCommandPost (some (ascii "bot_kick")) [ascii "bot_kick", ascii "INTEL"],
    .onClientConnected 0 none 0 true, .gameFrame 0, .gameFrame 0]

/-- The window whose only capture failed closes on a bot that is still waiting for its disguise. -/
theorem closing_leaves_deferred_bot_exposed :
    let es := quietEvents .idle loneLoad (failedCaptureRun ++ [.gameFrame 0])
    let held := run (quietStep .idle) loneLoad failedCaptureRun
    let closed := run (step .idle) loneLoad es
    Guarded (step .idle) EngineKeepsMarkers loneLoad es ∧
      (held.vote.depth ≠ 0 ∧ held.world.serverAlive = true ∧ closed.vote.depth = 0) ∧
      closed.ids.isManaged 0 = true ∧ closed.world.resolveClientBySlot 0 = some 100 ∧
      (closed.ids.getIdentity 0).map (·.applied) = some false := by
  refine ⟨guarded_quietEvents, ?_⟩
  rw [run_quietEvents]
  decide +kernel

end Botid
