import Botid.NamedKick

/-! The passes of a window for other slots: they spare a slot's objects and its snapshot. -/
namespace Botid

open Machine ByteMem World

variable {st : State} {ids : Identities} {v : Vote} {w w' w₁ w₂ w₃ : World} {s t : Int} {p q : Ptr}
  {oc controller : Option Ptr} {snapshot : VoteSlotSnapshot} {f : Mem → Mem}

namespace World

/-- Nothing but memory was written, and neither this client nor this controller. -/
structure Spares (p : Ptr) (oc : Option Ptr) (w w' : World) : Prop where
  mem : w.OnlyMemory w'
  client : w'.client p = w.client p
  controller : ∀ c, oc = some c → w'.controller c = w.controller c

theorem Spares.refl : Spares p oc w w := ⟨.refl, rfl, fun _ _ => rfl⟩

theorem Spares.trans (h : Spares p oc w₁ w₂) (h' : Spares p oc w₂ w₃) : Spares p oc w₁ w₃ :=
  ⟨h.mem.trans h'.mem, h'.client.trans h.client,
    fun c hc => (h'.controller c hc).trans (h.controller c hc)⟩

theorem spares_onClient (hq : q ≠ p) : Spares p oc w (w.onClient q f) :=
  ⟨onlyMemory_onClient, client_onClient_of_ne hq.symm, fun _ _ => rfl⟩

theorem spares_onController (hq : oc ≠ some q) : Spares p oc w (w.onController q f) := by
  refine ⟨onlyMemory_onController, rfl, fun c hc => ?_⟩
  have hne : c ≠ q := by
    rintro rfl
    exact hq hc
  simp [onController, hne]

theorem spares_onLiveController (hc : ∀ c, controller = some c → oc ≠ some c) :
    Spares p oc w (w.onLiveController controller f) := by
  cases controller with
  | none => exact .refl
  | some c => exact spares_onController (hc c rfl)

theorem spares_scanAndZeroSteamIdCopies (hq : q ≠ p) (hc : ∀ c, controller = some c → oc ≠ some c) :
    Spares p oc w (scanAndZeroSteamIdCopies w snapshot q controller).2 := by
  rw [scanAndZeroSteamIdCopies]
  split
  · exact .refl
  · cases controller with
    | none =>
      dsimp only
      exact spares_onClient hq
    | some c =>
      dsimp only
      exact (spares_onClient hq).trans (spares_onController (hc c rfl))

theorem spares_applyNativeVoteMarkers (hq : q ≠ p) (hc : ∀ c, controller = some c → oc ≠ some c) :
    Spares p oc w (applyNativeVoteMarkers w snapshot q controller).2 := by
  unfold applyNativeVoteMarkers
  dsimp only
  exact ((spares_onClient hq).trans (spares_onLiveController hc)).trans
    ((spares_scanAndZeroSteamIdCopies hq hc).trans (spares_onClient hq))

theorem spares_restoreSteamIdCopies (hq : q ≠ p) (hc : ∀ c, controller = some c → oc ≠ some c) :
    Spares p oc w (restoreSteamIdCopies w snapshot q controller) := by
  apply Machine.run_invariant_of_step (I := Spares p oc w) _ .refl
  intro w' copy h
  apply h.trans
  unfold restoreCopy
  split
  · split
    · exact .refl
    · exact spares_onLiveController hc
  · split
    · exact .refl
    · exact spares_onClient hq

/-- The live controller is the one in the snapshot. -/
theorem snapshotControllerLive_eq_some {c : Ptr} (h : snapshotControllerLive w snapshot q = some c) :
    snapshot.controller = some c := by
  rw [snapshotControllerLive] at h
  split at h
  · simp at h
  · split at h
    · simp at h
    · split at h
      · simp at h
      · rename_i hsame
        rw [← h]
        exact (not_not.mp (not_or.mp hsame).1).symm

theorem spares_replayDisguise (hq : q ≠ p)
    (hlive : ∀ c, snapshotControllerLive
      (w.onClient q fun m => writeSteamId (clearFakePlayer m) snapshot.sscSteamId) snapshot q = some c →
        oc ≠ some c) :
    Spares p oc w (replayDisguise w snapshot q) := by
  rw [replayDisguise]
  exact ((spares_onClient hq).trans (spares_onLiveController hlive)).trans
    (spares_restoreSteamIdCopies hq hlive)

end World

/-- The other slots' snapshots name their own slots and other controllers. -/
def OthersAway (s : Int) (oc : Option Ptr) (v : Vote) : Prop :=
  ∀ t, t ≠ s → (v.snapshots t).captured = true →
    (v.snapshots t).slot = t ∧ ∀ c, (v.snapshots t).controller = some c → oc ≠ some c

/-- A pass for another slot: it spares this slot's objects and snapshot. -/
structure PassSpares (s : Int) (p : Ptr) (oc : Option Ptr) (y y' : Vote × World) : Prop where
  world : World.Spares p oc y.2 y'.2
  snapshot : y'.1.snapshots s = y.1.snapshots s
  others : OthersAway s oc y.1 → OthersAway s oc y'.1
  valid : y'.1.valid = y.1.valid

theorem PassSpares.refl {y : Vote × World} : PassSpares s p oc y y := ⟨.refl, rfl, id, rfl⟩

theorem PassSpares.trans {y y' y'' : Vote × World} (h : PassSpares s p oc y y')
    (h' : PassSpares s p oc y' y'') : PassSpares s p oc y y'' :=
  ⟨h.world.trans h'.world, h'.snapshot.trans h.snapshot, fun ho => h'.others (h.others ho),
    h'.valid.trans h.valid⟩

theorem setSnapshot_self : (v.setSnapshot s snapshot).snapshots s = snapshot := by
  simp [Vote.setSnapshot]

theorem passSpares_setSnapshot (hts : t ≠ s) (hworld : World.Spares p oc w w')
    (haway : snapshot.captured = true →
      snapshot.slot = t ∧ ∀ c, snapshot.controller = some c → oc ≠ some c) :
    PassSpares s p oc (v, w) (v.setSnapshot t snapshot, w') := by
  refine ⟨hworld, by simp [Vote.setSnapshot, hts.symm], fun ho u hu hc => ?_, rfl⟩
  rcases eq_or_ne u t with rfl | hut
  · simp only [Vote.setSnapshot, Function.update_self] at hc ⊢
    exact haway hc
  · simp only [Vote.setSnapshot, Function.update_of_ne hut] at hc ⊢
    exact ho u hu hc

theorem passSpares_reassertSlot (hts : t ≠ s) (hp : w.resolveClientBySlot s = some p)
    (ho : OthersAway s oc v) : PassSpares s p oc (v, w) (reassertSlot ids (v, w) t) := by
  unfold reassertSlot
  dsimp only
  split
  · exact .refl
  · rename_i hc
    have hc : (v.snapshots t).captured = true := by simpa using (not_or.mp hc).1
    obtain ⟨hslot, haway⟩ := ho t hts hc
    split
    · exact .refl
    · rename_i client hres
      split
      · exact .refl
      · rw [hslot] at hres
        have hne : client ≠ p := by
          rintro rfl
          exact hts (resolveClientBySlot_inj hres hp)
        obtain ⟨copies, hcopies⟩ := @snapshot_applyNativeVoteMarkers w client (v.snapshots t)
          (snapshotControllerLive w (v.snapshots t) client)
        refine passSpares_setSnapshot hts (spares_applyNativeVoteMarkers hne fun c h =>
          haway c (snapshotControllerLive_eq_some h)) ?_
        rw [hcopies]
        exact fun _ => ⟨hslot, haway⟩

theorem passSpares_restoreSlot (hts : t ≠ s) (hp : w.resolveClientBySlot s = some p)
    (ho : OthersAway s oc v) : PassSpares s p oc (v, w) (restoreSlot ids (v, w) t) := by
  unfold restoreSlot
  dsimp only
  split
  · exact .refl
  · rename_i hc
    have hc : (v.snapshots t).captured = true := by simpa using hc
    obtain ⟨hslot, haway⟩ := ho t hts hc
    split
    · exact passSpares_setSnapshot hts .refl (by simp)
    · split
      · exact passSpares_setSnapshot hts .refl (by simp)
      · rename_i client hres
        split
        · exact passSpares_setSnapshot hts .refl (by simp)
        · rw [hslot] at hres
          have hne : client ≠ p := by
            rintro rfl
            exact hts (resolveClientBySlot_inj hres hp)
          exact passSpares_setSnapshot hts (spares_replayDisguise hne fun c h =>
            haway c (snapshotControllerLive_eq_some h)) (by simp)

theorem takeSnapshot_controller :
    (takeSnapshot w s p).controller = w.resolveController (getEntityIndex (w.client p)) ∧
    (takeSnapshot w s p).hasController = (w.resolveController (getEntityIndex (w.client p))).isSome ∧
    (takeSnapshot w s p).copies = [] ∧
    ∀ c, w.resolveController (getEntityIndex (w.client p)) = some c →
      (takeSnapshot w s p).controllerHandle = w.refEHandle c := by
  simp only [takeSnapshot]
  cases w.resolveController (getEntityIndex (w.client p)) with
  | none => exact ⟨rfl, rfl, rfl, by simp⟩
  | some c => exact ⟨rfl, rfl, rfl, fun c' hc => by rw [Option.some.inj hc]⟩

theorem controllerOf_eq (hp : w.resolveClientBySlot s = some p) :
    w.controllerOf s = w.resolveController (getEntityIndex (w.client p)) := by
  rw [World.controllerOf, hp]
  rfl

theorem passSpares_captureOneManagedSlot (hts : t ≠ s) (hp : w.resolveClientBySlot s = some p)
    (haway : ids.isManaged t = true → ∀ c, w.controllerOf t = some c → oc ≠ some c) :
    PassSpares s p oc (v, w) (captureOneManagedSlot ids v w t).2 := by
  rw [captureOneManagedSlot]
  split
  · exact .refl
  · dsimp only
    split
    · exact passSpares_setSnapshot hts .refl (by simp)
    · rename_i hm
      split
      · exact passSpares_setSnapshot hts .refl (by simp)
      · rename_i client hres
        have hne : client ≠ p := by
          rintro rfl
          exact hts (resolveClientBySlot_inj hres hp)
        have hc : ∀ c, (takeSnapshot w t client).controller = some c → oc ≠ some c := by
          intro c hc
          rw [takeSnapshot_controller.1, ← controllerOf_eq hres] at hc
          exact haway (by simpa using hm) c hc
        obtain ⟨copies, hcopies⟩ := @snapshot_applyNativeVoteMarkers w client (takeSnapshot w t client)
          (takeSnapshot w t client).controller
        have hcleared : PassSpares s p oc (v, w) (v.setSnapshot t {}, w) :=
          passSpares_setSnapshot hts .refl (by simp)
        refine hcleared.trans (passSpares_setSnapshot hts (spares_applyNativeVoteMarkers hne hc) ?_)
        rw [hcopies]
        exact fun _ => ⟨takeSnapshot_spec.2.1, hc⟩

/-- A capture moves no other slot's controller. -/
theorem controllerOf_captureOneManagedSlot {u : Int} (hut : u ≠ t) :
    (captureOneManagedSlot ids v w t).2.2.controllerOf u = w.controllerOf u := by
  obtain ⟨hmem, hclient⟩ := @onlyClient_captureOneManagedSlot w ids v t
  rw [World.controllerOf, World.controllerOf, hmem.resolveClientBySlot]
  cases hres : w.resolveClientBySlot u with
  | none => rw [Option.bind_none, Option.bind_none]
  | some q =>
    have hq : w.resolveClientBySlot t ≠ some q := fun h => hut (resolveClientBySlot_inj hres h)
    rw [Option.bind_some, Option.bind_some, hmem.resolveController, hclient q hq]

/-- One pass of `CaptureAndRestoreNativeBotIdentity`. -/
def capturePass (ids : Identities) (y : Vote × World) (slot : Int) : Vote × World :=
  if ids.isManaged slot then (captureOneManagedSlot ids y.1 y.2 slot).2 else y

theorem controllerOf_captureLoop {l : List Int} {y : Vote × World} (ht : t ∉ l) :
    (run (capturePass ids) y l).2.controllerOf t = y.2.controllerOf t := by
  apply Machine.run_invariant (I := fun z : Vote × World => z.2.controllerOf t = y.2.controllerOf t)
  · intro z u hut hz
    rw [capturePass]
    split
    · exact (controllerOf_captureOneManagedSlot hut).trans hz
    · exact hz
  · apply Machine.guarded_of_forall
    rintro u hu - rfl
    exact ht hu
  · rfl

theorem passSpares_captureLoop {l : List Int} {y : Vote × World} (hl : l.Nodup) (hs : s ∉ l)
    (hp : y.2.resolveClientBySlot s = some p)
    (haway : ∀ t ∈ l, ids.isManaged t = true → ∀ c, y.2.controllerOf t = some c → oc ≠ some c) :
    PassSpares s p oc y (run (capturePass ids) y l) := by
  induction l generalizing y with
  | nil => exact .refl
  | cons t l ih =>
    rw [List.nodup_cons] at hl
    rw [List.mem_cons, not_or] at hs
    rw [run_cons, capturePass]
    cases hm : ids.isManaged t with
    | false => exact ih hl.2 hs.2 hp fun u hu => haway u (List.mem_cons_of_mem t hu)
    | true =>
      rw [if_pos rfl]
      have hpass : PassSpares s p oc y (captureOneManagedSlot ids y.1 y.2 t).2 :=
        passSpares_captureOneManagedSlot (Ne.symm hs.1) hp (haway t List.mem_cons_self)
      refine hpass.trans (ih hl.2 hs.2 (by rw [hpass.world.mem.resolveClientBySlot, hp]) ?_)
      intro u hu hmu c hc
      have hut : u ≠ t := by
        rintro rfl
        exact hl.1 hu
      rw [controllerOf_captureOneManagedSlot hut] at hc
      exact haway u (List.mem_cons_of_mem t hu) hmu c hc

end Botid
