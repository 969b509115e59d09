import Botid.Revalidation
import Botid.StartUp

/-! What other plugins are shown of a slot is nothing, or a persona of the identity list. -/
namespace Botid

open Machine ByteMem SharedMemoryClient

variable {E : EngineCalls} {st : State} {r : Registry} {ev : Event} {es : List Event} {s t : Int} {i : Nat}
  {c : ShmRecord} {b : BotIdentity} {bots : List BotIdentity} {list : List (Bytes × UInt64)}

/-- A record that says nothing, or names a persona of the list. -/
def OfList (list : List (Bytes × UInt64)) (c : ShmRecord) : Prop :=
  c = .vacant ∨ ∃ p ∈ list, c = ⟨1, p.2, charCell kShmNameLen p.1⟩

/-- The pool still has the list's personas, and every record is of that list. -/
structure Listed (list : List (Bytes × UInt64)) (r : Registry) : Prop where
  named : r.Named list
  record : ∀ s, OfList list (r.record s)

theorem record_publish_cases : (r.publish s c).record t = c ∨ (r.publish s c).record t = r.record t := by
  by_cases hts : t = s
  · subst hts
    cases hm : r.mapped with
    | true => exact Or.inl (Registry.record_publish_self hm)
    | false =>
      right
      rw [Registry.publish, if_neg (by simp [hm])]
  · exact Or.inr (Registry.record_publish_of_ne hts)

theorem Listed.publish (h : ∀ t, OfList list (r.record t)) (hc : OfList list c) (t : Int) :
    OfList list ((r.publish s c).record t) := by
  rcases @record_publish_cases r s t c with heq | heq
  · rw [heq]
    exact hc
  · rw [heq]
    exact h t

/-- An entry of the pool has a persona of the list. -/
theorem Registry.Named.mem (h : r.Named list) (hb : r.ids.bots[i]? = some b) :
    (b.name, b.steamId) ∈ list := by
  rw [← h]
  exact List.mem_map_of_mem (List.mem_of_getElem? hb)

theorem lasting_persona : Lasting fun b : BotIdentity => (b.name, b.steamId) := fun _ _ _ _ => rfl

theorem Listed.abandon (h : Listed list r) : Listed list (r.abandon s) :=
  ⟨(map_unmark lasting_persona).trans h.named, h.record⟩

theorem Listed.vacate (h : Listed list r) : Listed list (r.vacate s) := by
  refine ⟨?_, Listed.publish h.abandon.record (Or.inl rfl)⟩
  rw [Registry.Named, Registry.ids_vacate]
  exact h.abandon.named

theorem Listed.take {active : Int → Bool} {rd rd' : Rand} (h : Listed list r)
    (hf : getFree active r.ids.bots rd = (some i, bots, rd')) : Listed list (r.take s i bots) := by
  refine ⟨?_, h.record⟩
  rw [Registry.Named, Registry.take, Identities.bots_mark]
  obtain ⟨b, -, -, ⟨-, rfl⟩ | ⟨rfl, -⟩⟩ := getFree_some hf
  · exact h.named
  · exact (map_modify_of_lasting fun b => lasting_persona b (-1) false (b.reused + 1)).trans h.named

/-- A disguise publishes the entry it is made from. -/
theorem Listed.disguiseRule : DisguiseRule (Listed list) fun _ => True := by
  intro r s i b h _ _ hb _
  constructor
  · exact ⟨(map_modify_of_lasting fun b => lasting_persona b s b.applied b.reused).trans h.named, h.record⟩
  · refine ⟨?_, Listed.publish h.record (Or.inr ⟨_, h.named.mem hb, rfl⟩)⟩
    rw [Registry.Named, Registry.ids_adopt]
    exact (map_modify_of_lasting fun b => lasting_persona b s true b.reused).trans h.named

theorem listed_step (hn : list.length ≤ kMaxBotIdentities) (h : Listed list st.registry) :
    Listed list (step E st ev).registry := by
  have hw : Listed list (st.withWorld ev.world).registry := h
  refine runHook_rule rfl ?_ ?_ ?_ ?_ Listed.disguiseRule hw ev.hook
  · intro r h
    rwa [← h.named, List.length_map] at hn
  · exact fun r s h => h.vacate
  · exact fun r s h => h.abandon
  · exact fun r s i bots rd rd' h _ _ _ hf => h.take hf

variable {files : Files} {baseDir : Bytes} {mapped : Bool} {draws : Nat → Nat} {w : World}

/-- After any number of hooks the cells hold personas of the list that was loaded. -/
theorem listed_run : Listed (personas (startInfo files baseDir).2.bots)
    (run (step E) (pluginLoad files baseDir mapped draws w) es).registry := by
  refine run_invariant_of_step (I := fun st : State => Listed _ st.registry) (fun st ev h => ?_) ?_
  · exact listed_step (by simpa [personas] using freshBots_startInfo.count_le) h
  · rw [pluginLoad, registry_load]
    exact ⟨rfl, fun _ => Or.inl rfl⟩

/-- A name that `LoadBots` kept is shown up to its first NUL. -/
theorem cstr_personaCell (hb : b ∈ (startInfo files baseDir).2.bots) :
    cstr (charCell kShmNameLen b.name) = cstr b.name := by
  have hname := freshBots_startInfo.name_le b hb
  have hlen : (cstr b.name).length ≤ kShmNameLen - 1 :=
    (List.takeWhile_prefix _).length_le.trans hname
  rw [cstr_charCell (by decide), List.take_of_length_le hlen]

/-- Wherever the reads of `GetManagedBotSnapshots` fall between the hooks of a run, a snapshot shows no
SteamID64 but 0 and those of the loaded list, and of a slot left alone meanwhile one bot of that list. -/
theorem snapshots_show_listed_bots (connected : Bool) (files : Files) (baseDir : Bytes) (mapped : Bool)
    (draws : Nat → Nat) (w : World) (es : List Event) (hist : History) (done : Nat → Nat)
    (h : ∀ k, RegionOf (run (step E) (pluginLoad files baseDir mapped draws w) (es.take (done k))).shm
      (hist k)) :
    let shms := fun k => (run (step E) (pluginLoad files baseDir mapped draws w) (es.take (done k))).shm
    ∃ snapshots, getManagedBotSnapshots connected hist = some snapshots ∧
      ∀ x ∈ snapshots,
        (x.steamId = 0 ∨ ∃ b ∈ (startInfo files baseDir).2.bots, x.steamId = b.steamId) ∧
        ((∀ k, (shms k).slot x.slot = (shms 0).slot x.slot) →
          ∃ b ∈ (startInfo files baseDir).2.bots, x.steamId = b.steamId ∧ x.personaName = cstr b.name) := by
  intro shms
  have hlisted : ∀ k s, OfList (personas (startInfo files baseDir).2.bots) ((shms k).slot s).record :=
    fun k s => listed_run.record s
  obtain ⟨snapshots, hcall, hmap, hmem⟩ := @getManagedBotSnapshots_of_region connected _ shms h
  refine ⟨snapshots, hcall, fun x hx => ?_⟩
  have hseen : x.slot ∈ managedSeen shms := hmap ▸ List.mem_map_of_mem hx
  obtain ⟨⟨hs, hs'⟩, hmanaged⟩ := mem_managedSeen.mp hseen
  obtain ⟨k, hk⟩ := hmem x hx
  constructor
  · have hread := hk
    rw [@snapshotAt_of_region hist shms k x.slot h hs hs'] at hread
    have hsid : ((shms (k + 1)).slot x.slot).syntheticSid = x.steamId :=
      congrArg ManagedBotSnapshot.steamId (Option.some.inj hread)
    rw [← hsid]
    rcases hlisted (k + 1) x.slot with hvacant | ⟨p, hp, hadopted⟩
    · exact Or.inl (congrArg ShmRecord.syntheticSid hvacant)
    · obtain ⟨b, hb, rfl⟩ := List.mem_map.mp hp
      exact Or.inr ⟨b, hb, congrArg ShmRecord.syntheticSid hadopted⟩
  · intro hquiet
    have hx := snapshot_eq_of_region h hs hs' hquiet hk
    rw [hquiet] at hmanaged
    rcases hlisted 0 x.slot with hvacant | ⟨p, hp, hadopted⟩
    · exact absurd (congrArg ShmRecord.slotState hvacant) hmanaged
    · obtain ⟨b, hb, rfl⟩ := List.mem_map.mp hp
      have hname : ((shms 0).slot x.slot).personaName = charCell kShmNameLen b.name :=
        congrArg ShmRecord.personaName hadopted
      refine ⟨b, hb, ?_, ?_⟩
      · rw [hx]
        exact congrArg ShmRecord.syntheticSid hadopted
      · rw [hx, snapshotOf, hname, cstr_personaCell hb]

/-- Two bots in the default list, and no decorations. -/
def plainFiles : Files := fun path =>
  if path = botsPath [] then some (ascii "\x7b\"bots\":\x7b\"A\":\x7b\x7d,\"B\":\x7b\x7d\x7d\x7d")
  else if path = configPath [] then
    some (ascii "\x7b\"features\":\x7b\"enableFakePing\":false,\"enableScoreboardFlair\":false\x7d\x7d")
  else none

/-- A bot connects, and then another one. -/
def plainRun : List Event :=
  [onTwoClients 0 (.onClientConnected 0 none 0 true), onTwoClients 0 (.onClientConnected 1 none 0 true)]

def plainCalls : List (Int × SlotCall) :=
  [(0, .adopt kSteamIdBase (some (ascii "A"))), (0, .bumpIncarnation),
    (1, .adopt (kSteamIdBase + 1) (some (ascii "B"))), (1, .bumpIncarnation)]

def plainLoad : State := pluginLoad plainFiles [] true (fun _ => 0) (.ofClients [100, 400] nodup_duo)

set_option maxRecDepth 20000 in
theorem shm_plainRun :
    (run (step .idle) plainLoad (plainRun.take 1)).shm =
        (plainCalls.take 2).foldl (fun shm (c : Int × SlotCall) => shm.call c.1 c.2) (Shm.init true) ∧
      (run (step .idle) plainLoad (plainRun.take 2)).shm =
        plainCalls.foldl (fun shm (c : Int × SlotCall) => shm.call c.1 c.2) (Shm.init true) :=
  ⟨rfl, rfl⟩

/-- The second bot does nothing to the slot of the first one. -/
theorem slot_plainRun : (run (step .idle) plainLoad (plainRun.take 2)).shm.slot 0 =
    (run (step .idle) plainLoad (plainRun.take 1)).shm.slot 0 := by
  rw [shm_plainRun.1, shm_plainRun.2, (slot_foldl_call plainCalls rfl (by decide) (by decide) rfl).2,
    (slot_foldl_call (plainCalls.take 2) rfl (by decide) (by decide) rfl).2]
  rfl

/-- The second bot connects while the reader is at its slot. -/
theorem snapshots_show_listed_bots_of_two : ∃ hist snapshots,
    (∀ k, RegionOf (run (step .idle) plainLoad (plainRun.take (if k < 4 then 1 else 2))).shm (hist k)) ∧
      getManagedBotSnapshots false hist = some snapshots ∧
      ∀ x ∈ snapshots, x.slot = 0 → ∃ b ∈ (startInfo plainFiles []).2.bots,
        x.steamId = b.steamId ∧ x.personaName = cstr b.name := by
  obtain ⟨m₁, -, hregion₁⟩ := exists_refines_foldl_call (plainCalls.take 2)
  obtain ⟨m₂, -, hregion₂⟩ := exists_refines_foldl_call plainCalls
  rw [← shm_plainRun.1] at hregion₁
  rw [← shm_plainRun.2] at hregion₂
  have hregion : ∀ k, RegionOf
      (run (step .idle) plainLoad (plainRun.take (if k < 4 then 1 else 2))).shm (if k < 4 then m₁ else m₂) := by
    intro k
    split
    · exact hregion₁
    · exact hregion₂
  obtain ⟨snapshots, hcall, hshown⟩ := snapshots_show_listed_bots false plainFiles [] true (fun _ => 0)
    (.ofClients [100, 400] nodup_duo) plainRun _ _ hregion
  refine ⟨_, snapshots, hregion, hcall, fun x hx hslot => (hshown x hx).2 fun k => ?_⟩
  rw [hslot]
  dsimp only
  split
  · rfl
  · exact slot_plainRun

end Botid
