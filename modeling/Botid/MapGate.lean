import Botid.Vote

/-! The map gate: hosting is suspended while the remembered map matches the blacklist. -/
namespace Botid

def buildMapIdentity (w : World) : Bytes :=
  if w.engineMapName ≠ [] then w.engineMapName else w.engineAddonName

/-- One pass of the loop in `ReleaseManagedSlots`. -/
def releaseSlot (st : State) (slot : Int) : State :=
  if !st.ids.isManaged slot then st
  else
    let st := restoreIdentity st slot
    { st with ids := st.ids.unmark slot }

def releaseManagedSlots (st : State) : State :=
  forSlots releaseSlot { st with vote := resetVoteTransaction }

def applyMapGate (st : State) (mapName : Bytes) : State :=
  if mapName = [] ∨ st.gate.gateMap = mapName then st
  else if mapNameMatchesBlacklist mapName st.mapBlacklist then
    let st := if st.gate.suspended then st else releaseManagedSlots st
    { st with gate := { gateMap := mapName, suspended := true } }
  else { st with gate := { gateMap := mapName, suspended := false } }

def pollMapGate (st : State) : State :=
  if buildMapIdentity st.world = [] then st else applyMapGate st (buildMapIdentity st.world)

/-- A hint only ever suspends: names that miss the blacklist are dropped here. -/
def hintMapGate (st : State) (mapName : Bytes) : State :=
  if mapName = [] ∨ !mapNameMatchesBlacklist mapName st.mapBlacklist then st
  else applyMapGate st mapName

variable {st : State} {s t : Int} {w : World} {client : Ptr}

theorem onlyMemory_restore : w.OnlyMemory (w.restore client) := by
  rw [World.restore]
  exact World.onlyMemory_onLiveController.trans World.onlyMemory_onClient

/-- Releasing goes through the table, shared memory and the clients; all else stays. -/
theorem releaseManagedSlots_eq (st : State) : ∃ ids shm w, st.world.OnlyMemory w ∧
    releaseManagedSlots st =
      { st with vote := resetVoteTransaction, ids := ids, shm := shm, world := w } := by
  apply forSlots_invariant (I := fun st' : State => ∃ ids shm w, st.world.OnlyMemory w ∧
    st' = { st with vote := resetVoteTransaction, ids := ids, shm := shm, world := w })
  · rintro _ t ⟨ids, shm, w, hw, rfl⟩
    rw [releaseSlot, restoreIdentity]
    split
    · exact ⟨_, _, _, hw, rfl⟩
    · split
      · exact ⟨_, _, _, hw, rfl⟩
      · exact ⟨_, _, _, hw.trans onlyMemory_restore, rfl⟩
  · exact ⟨_, _, _, .refl, rfl⟩

theorem onlyMemory_releaseManagedSlots : st.world.OnlyMemory (releaseManagedSlots st).world := by
  obtain ⟨ids, shm, w, hw, h⟩ := releaseManagedSlots_eq st
  rw [h]
  exact hw

theorem ids_releaseSlot : (releaseSlot st s).ids = st.ids.unmark s := by
  rw [releaseSlot]
  split
  · rename_i h
    rw [Identities.unmark_of_not_managed (by simpa using h)]
  · rw [restoreIdentity]
    split <;> rfl

/-- Nothing stays managed once every slot has been through the loop. -/
theorem isManaged_releaseManagedSlots : (releaseManagedSlots st).ids.isManaged s = false := by
  by_cases hs : 0 ≤ s ∧ s < kMaxSlots
  · apply forSlots_establishes (P := fun s (st : State) => st.ids.isManaged s = false) _ _ hs.1 hs.2
    · intro st s
      rw [ids_releaseSlot]
      exact Identities.isManaged_unmark_self
    · intro st s t h
      rw [ids_releaseSlot, ← Bool.not_eq_true, Identities.isManaged_unmark]
      simp [h]
  · rw [Identities.isManaged, if_pos (by omega)]

theorem buildMapIdentity_of_onlyMemory {w' : World} (h : w.OnlyMemory w') :
    buildMapIdentity w' = buildMapIdentity w := by
  obtain ⟨_, _, rfl⟩ := h
  rfl

/-- What one evaluation of the gate does, whichever name it is given. -/
theorem applyMapGate_cases {name : Bytes} :
    (∃ gate, applyMapGate st name = { st with gate := gate }) ∨
      (mapNameMatchesBlacklist name st.mapBlacklist = true ∧
        applyMapGate st name =
          { releaseManagedSlots st with gate := { gateMap := name, suspended := true } }) := by
  rw [applyMapGate]
  split
  · exact Or.inl ⟨st.gate, rfl⟩
  · split
    · rename_i h
      split
      · exact Or.inl ⟨_, rfl⟩
      · exact Or.inr ⟨h, rfl⟩
    · exact Or.inl ⟨_, rfl⟩

theorem pollMapGate_cases :
    (∃ gate, pollMapGate st = { st with gate := gate }) ∨
      (mapNameMatchesBlacklist (buildMapIdentity st.world) st.mapBlacklist = true ∧
        pollMapGate st =
          { releaseManagedSlots st with
            gate := { gateMap := buildMapIdentity st.world, suspended := true } }) := by
  rw [pollMapGate]
  split
  · exact Or.inl ⟨st.gate, rfl⟩
  · exact applyMapGate_cases

theorem onlyMemory_applyMapGate {name : Bytes} :
    st.world.OnlyMemory (applyMapGate st name).world := by
  obtain ⟨gate, h⟩ | ⟨-, h⟩ := applyMapGate_cases
  · rw [h]
    exact .refl
  · rw [h]
    exact onlyMemory_releaseManagedSlots

theorem mapBlacklist_applyMapGate {name : Bytes} :
    (applyMapGate st name).mapBlacklist = st.mapBlacklist := by
  obtain ⟨gate, h⟩ | ⟨-, h⟩ := applyMapGate_cases
  · rw [h]
  · obtain ⟨ids, shm, w, -, hr⟩ := releaseManagedSlots_eq st
    rw [h, hr]

theorem features_applyMapGate {name : Bytes} : (applyMapGate st name).features = st.features := by
  obtain ⟨gate, h⟩ | ⟨-, h⟩ := applyMapGate_cases
  · rw [h]
  · obtain ⟨ids, shm, w, -, hr⟩ := releaseManagedSlots_eq st
    rw [h, hr]

end Botid
