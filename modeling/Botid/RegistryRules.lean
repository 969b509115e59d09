import Botid.Registry

/-! What each plugin function does to the registry, and the invariant rules that follow. -/
namespace Botid

variable {st : State} {s t : Int} {i : Nat} {b : BotIdentity} {shm : Shm} {f : ShmSlot → ShmSlot}
  {E : EngineCalls} {I : Registry → Prop}

/-- Publishers of the other cells leave the record alone. -/
theorem Shm.record_publish_of_record (h : ∀ c, (f c).record = c.record) :
    (shm.publish s f).record = shm.record := by
  funext t
  rw [publish]
  split
  · rfl
  · by_cases ht : t = s
    · subst ht
      simp [Shm.record, h]
    · simp [Shm.record, ht]

@[simp] theorem Shm.record_publishPing {p : Int} : (shm.publishPing s p).record = shm.record :=
  record_publish_of_record fun _ => rfl

@[simp] theorem Shm.record_publishCrosshair {code : Bytes} :
    (shm.publishCrosshair s code).record = shm.record :=
  record_publish_of_record fun _ => rfl

@[simp] theorem Shm.record_publishScoreboardFlair {d : UInt32} :
    (shm.publishScoreboardFlair s d).record = shm.record :=
  record_publish_of_record fun _ => rfl

@[simp] theorem Shm.record_bumpIncarnation : (shm.bumpIncarnation s).record = shm.record :=
  record_publish_of_record fun _ => rfl

theorem Shm.mapped_publishDisguise {g : PluginFeatures} {r : Rand} :
    (publishDisguise g shm r s b).1.mapped = shm.mapped := by
  simp only [publishDisguise]
  split <;> split <;> split <;>
    simp [publishAdopt, bumpIncarnation, publishPing, publishCrosshair, publishScoreboardFlair,
      apply_ite Shm.mapped]

theorem Shm.record_publishDisguise {g : PluginFeatures} {r : Rand} :
    (publishDisguise g shm r s b).1.record = (shm.publishAdopt s b.steamId b.name).record := by
  simp only [publishDisguise]
  split <;> split <;> split <;> simp [apply_ite Shm.record]

/-- A publisher that fixes the whole record of its slot. -/
theorem Shm.record_publish_const {c : ShmRecord} (hf : ∀ d, (f d).record = c) (hs : 0 ≤ s)
    (hs' : s < kMaxSlots) :
    (shm.publish s f).record = if shm.mapped then Function.update shm.record s c else shm.record := by
  have hrange : ¬ (s < 0 ∨ kShmMaxSlots ≤ s) := by simp only [kMaxSlots, kShmMaxSlots] at *; omega
  by_cases hm : shm.mapped = true
  · rw [publish, if_neg (by simp [hm, hrange]), if_pos hm]
    funext t
    by_cases ht : t = s
    · subst ht
      simp [Shm.record, hf]
    · simp [Shm.record, ht]
  · rw [publish, if_pos (by simp [hm]), if_neg hm]

/-- A rewritten record on the registry's side. -/
theorem Registry.publish_eq {ids : Identities} {shm' : Shm} {c : ShmRecord}
    (hm : shm'.mapped = shm.mapped)
    (hr : shm'.record = if shm.mapped then Function.update shm.record s c else shm.record) :
    (⟨ids, shm'.mapped, shm'.record⟩ : Registry) =
      Registry.publish ⟨ids, shm.mapped, shm.record⟩ s c := by
  rw [hm, hr, publish]
  by_cases h : shm.mapped = true
  · rw [if_pos h, if_pos h]
  · rw [if_neg h, if_neg h]

/-- `PublishRelease` on the registry's side. -/
theorem Registry.publishRelease_eq {ids : Identities} (hs : 0 ≤ s) (hs' : s < kMaxSlots) :
    (⟨ids, (shm.publishRelease s).mapped, (shm.publishRelease s).record⟩ : Registry) =
      Registry.publish ⟨ids, shm.mapped, shm.record⟩ s .vacant :=
  publish_eq Shm.mapped_publish (Shm.record_publish_const (fun _ => rfl) hs hs')

/-- `RestoreIdentity` then `Unmark`, on a client that resolves and on one that does not. -/
theorem registry_restoreIdentity_unmark (st : State) (hs : 0 ≤ s) (hs' : s < kMaxSlots) :
    ({ restoreIdentity st s with ids := (restoreIdentity st s).ids.unmark s } : State).registry =
      if st.world.resolveClientBySlot s = none then st.registry.abandon s
      else st.registry.vacate s := by
  rw [restoreIdentity]
  split
  · rename_i h
    rw [if_pos h]
    rfl
  · rename_i client h
    rw [if_neg (by simp [h])]
    exact Registry.publishRelease_eq hs hs'

theorem registry_releaseOccupant (hs : 0 ≤ s) (hs' : s < kMaxSlots) :
    (releaseOccupant st s).registry =
      if st.ids.isManaged s then st.registry.vacate s else st.registry := by
  rw [releaseOccupant]
  split
  · exact Registry.publishRelease_eq hs hs'
  · rfl

/-- A pending disguise claims the slot while a window is open or the client is null, else adopts. -/
theorem registry_applyDisguise (hg : st.gate.suspended = false) (hb : st.ids.bots[i]? = some b)
    (ha : b.applied = false) (hs : 0 ≤ s) (hs' : s < kMaxSlots) :
    (applyDisguise st s i).registry =
      if st.vote.active ∨ st.world.resolveClientBySlot s = none then st.registry.claim s i
      else st.registry.adopt s i b := by
  split
  · rename_i hd
    rw [applyDisguise_deferred hg hb ha hd]
    rfl
  · rename_i hd
    rw [not_or, Bool.not_eq_true, ← ne_eq, Option.ne_none_iff_exists'] at hd
    obtain ⟨hv, client, hc⟩ := hd
    rw [applyDisguise_adopted hg hb ha hv hc]
    apply Registry.publish_eq Shm.mapped_publishDisguise
    rw [Shm.record_publishDisguise]
    exact Shm.record_publish_const (fun _ => rfl) hs hs'

/-- Disguising a slot in scope preserves an invariant, whether it only claims or adopts. -/
def DisguiseRule (I : Registry → Prop) (P : Int → Prop) : Prop :=
  ∀ r s i b, I r → P s → r.ids.Holds s i → r.ids.bots[i]? = some b → b.applied = false →
    I (r.claim s i) ∧ I (r.adopt s i b)

/-- Releasing slot by slot preserves an invariant, with `J` while the loop is under way. -/
structure ReleaseRule (w : World) (I J : Registry → Prop) : Prop where
  enter : ∀ r, I r → J r
  abandon : ∀ r s, J r → r.ids.isManaged s = true → w.resolveClientBySlot s = none →
    J (r.abandon s)
  vacate : ∀ r s, J r → r.ids.isManaged s = true → w.resolveClientBySlot s ≠ none →
    J (r.vacate s)
  leave : ∀ r, J r → (∀ s, r.ids.isManaged s = false) → I r

variable {J I' : Registry → Prop} {P : Int → Prop} {name : Bytes}

theorem applyDisguise_rule (h : DisguiseRule I P) (hs : P s) (hold : st.ids.Holds s i)
    (hi : I st.registry) : I (applyDisguise st s i).registry := by
  rcases applyDisguise_cases st s i with he | ⟨b, hg, hb, ha, -⟩
  · rwa [he]
  · have := h st.registry s i b hi hs hold hb ha
    rw [registry_applyDisguise hg hb ha hold.1 hold.2.1]
    split
    · exact this.1
    · exact this.2

theorem applyDisguiseIfPending_rule (h : DisguiseRule I P) (hs : P s) (hi : I st.registry) :
    I (applyDisguiseIfPending st s).registry := by
  rcases applyDisguiseIfPending_cases st s with he | ⟨i, hold, he⟩
  · rwa [he]
  · rw [he]
    exact applyDisguise_rule h hs hold hi

theorem forSlots_applyDisguiseIfPending_rule (h : DisguiseRule I fun _ => True)
    (hi : I st.registry) : I (forSlots applyDisguiseIfPending st).registry :=
  forSlots_invariant (I := fun st : State => I st.registry)
    (fun _ _ => applyDisguiseIfPending_rule h trivial) hi

theorem applyPendingDisguises_rule (h : DisguiseRule I fun _ => True) (hi : I st.registry) :
    I (applyPendingDisguises st).registry := by
  rw [applyPendingDisguises]
  split
  · exact hi
  · exact forSlots_applyDisguiseIfPending_rule h hi

theorem restorePlayerIdentity_rule (h : DisguiseRule I fun _ => True) (hi : I st.registry) :
    I (restorePlayerIdentity st).registry := by
  rw [restorePlayerIdentity]
  split
  · exact hi
  · exact forSlots_applyDisguiseIfPending_rule h hi

theorem closeVoteTransaction_rule (h : DisguiseRule I fun _ => True) (hi : I st.registry) :
    I (closeVoteTransaction st).registry :=
  restorePlayerIdentity_rule h hi

theorem tickVoteTransaction_rule
    (h : st.vote.endScheduled = true → st.vote.holdFramesRemaining ≤ 1 →
      DisguiseRule I fun _ => True)
    (hi : I st.registry) : I (tickVoteTransaction st).registry := by
  rw [tickVoteTransaction]
  split
  · exact hi
  · split
    · exact hi
    · split
      · exact hi
      · rename_i hend
        split
        · exact hi
        · exact closeVoteTransaction_rule (h (by simpa using hend) (by omega)) hi

theorem ReleaseRule.of_onlyMemory {w w' : World} (hw : w.OnlyMemory w')
    (h : ReleaseRule w I J) : ReleaseRule w' I J :=
  { h with
    abandon := fun r s hj hm hn => h.abandon r s hj hm (hw.resolveClientBySlot ▸ hn)
    vacate := fun r s hj hm hn => h.vacate r s hj hm (hw.resolveClientBySlot ▸ hn) }

theorem releaseManagedSlots_rule (h : ReleaseRule st.world I J) (hi : I st.registry) :
    I (releaseManagedSlots st).registry := by
  apply h.leave
  · have hstart : J ({ st with vote := resetVoteTransaction } : State).registry := h.enter _ hi
    refine (forSlots_invariant_of_mem (I := fun st' : State =>
      J st'.registry ∧ st.world.OnlyMemory st'.world) ?_ ⟨hstart, .refl⟩).1
    rintro st' t ht ht' ⟨hj, hw⟩
    rw [releaseSlot]
    split
    · exact ⟨hj, hw⟩
    · rename_i hm
      have hm : st'.ids.isManaged t = true := by simpa using hm
      refine ⟨?_, hw.trans ?_⟩
      · rw [registry_restoreIdentity_unmark _ ht ht']
        split
        · exact (h.of_onlyMemory hw).abandon _ _ hj hm ‹_›
        · exact (h.of_onlyMemory hw).vacate _ _ hj hm ‹_›
      · rw [restoreIdentity]
        split
        · exact .refl
        · exact onlyMemory_restore
  · intro s
    exact isManaged_releaseManagedSlots

theorem applyMapGate_rule
    (h : mapNameMatchesBlacklist name st.mapBlacklist = true → ReleaseRule st.world I J)
    (hi : I st.registry) : I (applyMapGate st name).registry := by
  obtain ⟨gate, he⟩ | ⟨hm, he⟩ := applyMapGate_cases
  · rw [he]
    exact hi
  · rw [he]
    exact releaseManagedSlots_rule (h hm) hi

end Botid
