import Botid.Machine
import Botid.RegistryRules

/-! The publishers store by store, as a reader of the region sees them happen. -/
namespace Botid

open Machine

/-- One store to the cells of a slot. -/
inductive CellStore
  | slotState (v : UInt8)
  | syntheticSid (v : UInt64)
  | personaName (v : Bytes)
  | currentPing (v : Int)
  | crosshair (v : Bytes)
  | scoreboardFlair (v : UInt32)
  /-- `*IncarnationPtr(slot) = *IncarnationPtr(slot) + 1`; nobody else writes the counter. -/
  | incarnation

def ShmSlot.store (c : ShmSlot) : CellStore → ShmSlot
  | .slotState v => { c with slotState := v }
  | .syntheticSid v => { c with syntheticSid := v }
  | .personaName v => { c with personaName := v }
  | .currentPing v => { c with currentPing := v }
  | .crosshair v => { c with crosshair := v }
  | .scoreboardFlair v => { c with scoreboardFlair := v }
  | .incarnation => { c with incarnation := c.incarnation + 1 }

def emptyName : Bytes := List.replicate kShmNameLen 0

/-- `PublishAdopt`: a null name leaves the name cell alone, another one is cleared and copied. -/
def publishAdoptStores (steamId : UInt64) (name : Option Bytes) : List CellStore :=
  [.slotState 1, .syntheticSid steamId] ++
    match name with
    | none => []
    | some n => [.personaName emptyName, .personaName (charCell kShmNameLen n)]

def publishReleaseStores : List CellStore := [.slotState 0, .syntheticSid 0, .personaName emptyName]

def publishCrosshairStores (code : Bytes) : List CellStore :=
  [.crosshair (List.replicate kCrosshairLen 0), .crosshair (charCell kCrosshairLen code)]

/-- What the plugin publishes about a slot; an adoption bumps the incarnation last. -/
inductive Publication
  | adoption (steamId : UInt64) (name : Option Bytes)
  | release
  | ping (ping : Int)
  | crosshair (code : Bytes)
  | scoreboardFlair (itemDefIndex : UInt32)

def Publication.stores : Publication → List CellStore
  | .adoption steamId name => publishAdoptStores steamId name ++ [.incarnation]
  | .release => publishReleaseStores
  | .ping value => [.currentPing value]
  | .crosshair code => publishCrosshairStores code
  | .scoreboardFlair itemDefIndex => [.scoreboardFlair itemDefIndex]

def Publication.keepsOccupant : Publication → Bool
  | .adoption _ _ | .release => false
  | .ping _ | .crosshair _ | .scoreboardFlair _ => true

/-- The cells after the first `n` stores of a run. -/
def seenAt (c : ShmSlot) (ops : List Publication) (n : Nat) : ShmSlot :=
  run ShmSlot.store c ((ops.flatMap Publication.stores).take n)

/-- Two looks that find the slot managed under one incarnation find one occupant. -/
def IdentifiesOccupant (c : ShmSlot) (ops : List Publication) : Prop :=
  ∀ m n, (seenAt c ops m).slotState = 1 → (seenAt c ops n).slotState = 1 →
    (seenAt c ops m).incarnation = (seenAt c ops n).incarnation →
    (seenAt c ops m).syntheticSid = (seenAt c ops n).syntheticSid ∧
      (seenAt c ops m).personaName = (seenAt c ops n).personaName

/-- A publication that says nothing about an occupant. -/
def Publication.Anonymous : Publication → Prop
  | .adoption steamId name => steamId = 0 ∧ ∀ n ∈ name, cstr n = []
  | _ => True

variable {c : ShmSlot} {op : Publication} {ops : List Publication} {shm : Shm} {s : Int}
  {steamId : UInt64} {name : Bytes} {b : BotIdentity}

/-- The stores in order are the call. -/
theorem slot_publishAdopt (hm : shm.mapped = true) (hs : 0 ≤ s) (hs' : s < kShmMaxSlots) :
    (shm.publishAdopt s steamId name).slot s =
      run ShmSlot.store (shm.slot s) (publishAdoptStores steamId (some name)) :=
  Shm.slot_publish hm hs hs'

theorem slot_bumpIncarnation (hm : shm.mapped = true) (hs : 0 ≤ s) (hs' : s < kShmMaxSlots) :
    (shm.bumpIncarnation s).slot s = run ShmSlot.store (shm.slot s) [.incarnation] :=
  Shm.slot_publish hm hs hs'

/-- The region went from one state to another by publications that need no new occupant. -/
def PublishesMore (s : Int) (shm shm' : Shm) : Prop :=
  shm'.mapped = shm.mapped ∧ ∃ others : List Publication,
    (∀ op ∈ others, op.keepsOccupant = true) ∧
      shm'.slot s = run ShmSlot.store (shm.slot s) (others.flatMap Publication.stores)

theorem PublishesMore.refl : PublishesMore s shm shm := ⟨rfl, [], by simp, rfl⟩

theorem PublishesMore.trans {shm₁ shm₂ shm₃ : Shm} (h : PublishesMore s shm₁ shm₂)
    (h' : PublishesMore s shm₂ shm₃) : PublishesMore s shm₁ shm₃ := by
  obtain ⟨hm, others, hkeep, hslot⟩ := h
  obtain ⟨hm', others', hkeep', hslot'⟩ := h'
  refine ⟨hm'.trans hm, others ++ others', fun op hop => ?_, ?_⟩
  · exact (List.mem_append.mp hop).elim (hkeep op) (hkeep' op)
  · rw [hslot', hslot, List.flatMap_append, run_append]

/-- One more publication, when a condition of the plugin's settings asks for it. -/
theorem PublishesMore.ite (op : Publication) {P : Prop} [Decidable P] {f : ShmSlot → ShmSlot}
    (hm : shm.mapped = true) (hs : 0 ≤ s) (hs' : s < kShmMaxSlots)
    (hop : op.keepsOccupant = true) (hf : ∀ c, f c = run ShmSlot.store c op.stores) :
    PublishesMore s shm (if P then shm.publish s f else shm) := by
  split
  · refine ⟨Shm.mapped_publish, [op], by simpa using hop, ?_⟩
    rw [Shm.slot_publish hm hs hs', hf]
    simp
  · exact .refl

/-- A disguise is published as one adoption, followed by what needs no new occupant. -/
theorem slot_publishDisguise_stores {f : PluginFeatures} {r : Rand} (hm : shm.mapped = true)
    (hs : 0 ≤ s) (hs' : s < kShmMaxSlots) :
    ∃ others : List Publication, (∀ op ∈ others, op.keepsOccupant = true) ∧
      (publishDisguise f shm r s b).1.slot s =
        run ShmSlot.store (shm.slot s)
          ((Publication.adoption b.steamId (some b.name) :: others).flatMap Publication.stores) := by
  generalize hadopted : (shm.publishAdopt s b.steamId b.name).bumpIncarnation s = adopted
  have hma : adopted.mapped = true := by
    rw [← hadopted, Shm.bumpIncarnation, Shm.mapped_publish, Shm.publishAdopt, Shm.mapped_publish, hm]
  have hslot : adopted.slot s =
      run ShmSlot.store (shm.slot s) (Publication.adoption b.steamId (some b.name)).stores := by
    rw [Publication.stores, run_append, ← slot_publishAdopt hm hs hs', ← hadopted]
    exact slot_bumpIncarnation (Shm.mapped_publish.trans hm) hs hs'
  have hmore : PublishesMore s adopted (publishDisguise f shm r s b).1 := by
    rw [publishDisguise, hadopted]
    dsimp only
    have hping : PublishesMore s adopted
        (if f.enableFakePing then
          (if 0 < (pickFakePing f b r).1 then adopted.publishPing s (pickFakePing f b r).1 else adopted,
            (pickFakePing f b r).2)
        else (adopted, r)).1 := by
      split
      · exact .ite (.ping _) hma hs hs' rfl fun _ => rfl
      · exact .refl
    generalize (if f.enableFakePing then
          (if 0 < (pickFakePing f b r).1 then adopted.publishPing s (pickFakePing f b r).1 else adopted,
            (pickFakePing f b r).2)
        else (adopted, r)) = pinged at hping ⊢
    have hmp : pinged.1.mapped = true := hping.1.trans hma
    have hcross : PublishesMore s pinged.1
        (if f.enableCrosshair ∧ b.crosshair ≠ [] then pinged.1.publishCrosshair s b.crosshair
        else pinged.1) :=
      .ite (.crosshair _) hmp hs hs' rfl fun _ => rfl
    refine (hping.trans hcross).trans ?_
    exact .ite (.scoreboardFlair _) (hcross.1.trans hmp) hs hs' rfl fun _ => rfl
  obtain ⟨-, others, hkeep, hothers⟩ := hmore
  refine ⟨others, hkeep, ?_⟩
  rw [hothers, hslot, List.flatMap_cons, run_append]

/-- The first publication's own stores are seen first. -/
theorem seenAt_head {n : Nat} (hn : n ≤ op.stores.length) :
    seenAt c (op :: ops) n = run ShmSlot.store c (op.stores.take n) := by
  rw [seenAt, List.flatMap_cons, List.take_append_of_le_length hn]

theorem seenAt_tail {n : Nat} :
    seenAt c (op :: ops) (op.stores.length + n) = seenAt (run ShmSlot.store c op.stores) ops n := by
  rw [seenAt, List.flatMap_cons, List.take_length_add_append, run_append, seenAt]

theorem IdentifiesOccupant.tail (h : IdentifiesOccupant c (op :: ops)) :
    IdentifiesOccupant (run ShmSlot.store c op.stores) ops := by
  intro m n hm hn hinc
  simp only [← seenAt_tail] at hm hn hinc ⊢
  exact h _ _ hm hn hinc

theorem charCell_eq_emptyName : charCell kShmNameLen name = emptyName ↔ cstr name = [] := by
  constructor
  · intro h
    have hcell : cstr (charCell kShmNameLen name) = (cstr name).take 31 := cstr_charCell (by decide)
    rw [h, show cstr emptyName = [] from by decide] at hcell
    simpa using hcell.symm
  · intro h
    simp [charCell, h, emptyName]

/-- The counter moves after every other store of an adoption, so the looks in between must agree:
on the name cell just cleared, and on whatever SteamID64 the slot held before. -/
theorem anonymous_of_identifies {name : Option Bytes}
    (h : IdentifiesOccupant c (.adoption steamId name :: ops)) (hc : c.syntheticSid = 0) :
    (Publication.adoption steamId name).Anonymous := by
  have hlook : ∀ n, n ≤ (publishAdoptStores steamId name ++ [CellStore.incarnation]).length →
      seenAt c (.adoption steamId name :: ops) n =
        run ShmSlot.store c ((publishAdoptStores steamId name ++ [CellStore.incarnation]).take n) :=
    fun n hn => seenAt_head hn
  constructor
  · have h1 := hlook 1 (by simp [publishAdoptStores])
    have h2 := hlook 2 (by simp [publishAdoptStores])
    have hsid := (h 1 2 (by rw [h1]; rfl) (by rw [h2]; rfl) (by rw [h1, h2]; rfl)).1
    rw [h1, h2] at hsid
    exact hsid.symm.trans hc
  · rintro n rfl
    have h3 := hlook 3 (by simp [publishAdoptStores])
    have h4 := hlook 4 (by simp [publishAdoptStores])
    have hname := (h 3 4 (by rw [h3]; rfl) (by rw [h4]; rfl) (by rw [h3, h4]; rfl)).2
    rw [h3, h4] at hname
    exact charCell_eq_emptyName.mp hname.symm

/-- Cells that name no occupant. -/
def ShmSlot.Blank (c : ShmSlot) : Prop := c.syntheticSid = 0 ∧ c.personaName = emptyName

/-- A store that names no occupant. -/
def CellStore.Blank : CellStore → Prop
  | .syntheticSid v => v = 0
  | .personaName v => v = emptyName
  | _ => True

theorem ShmSlot.Blank.store (h : c.Blank) {e : CellStore} (he : e.Blank) : (c.store e).Blank := by
  cases e with
  | syntheticSid v => exact ⟨he, h.2⟩
  | personaName v => exact ⟨h.1, he⟩
  | slotState | currentPing | crosshair | scoreboardFlair | incarnation => exact h

theorem blank_of_anonymous (h : op.Anonymous) : ∀ e ∈ op.stores, e.Blank := by
  cases op with
  | adoption steamId name =>
    obtain ⟨hsid, hname⟩ := h
    cases name with
    | none => simp [Publication.stores, publishAdoptStores, CellStore.Blank, hsid]
    | some n =>
      have hcell : charCell kShmNameLen n = emptyName := charCell_eq_emptyName.mpr (hname n rfl)
      simp [Publication.stores, publishAdoptStores, CellStore.Blank, hsid, hcell]
  | release => simp [Publication.stores, publishReleaseStores, CellStore.Blank]
  | ping value => simp [Publication.stores, CellStore.Blank]
  | crosshair code => simp [Publication.stores, publishCrosshairStores, CellStore.Blank]
  | scoreboardFlair itemDefIndex => simp [Publication.stores, CellStore.Blank]

/-- Stores that name no occupant keep blank cells blank, however many of them have happened. -/
theorem blank_run {es : List CellStore} (hc : c.Blank) (h : ∀ e ∈ es, e.Blank) :
    (run ShmSlot.store c es).Blank := by
  have hguard : Guarded ShmSlot.store (fun _ e => e.Blank) c es :=
    guarded_of_forall fun e he _ => h e he
  exact run_invariant (fun _ _ he hc => hc.store he) hguard hc

theorem blank_seenAt (hc : c.Blank) (h : ∀ op ∈ ops, op.Anonymous) (n : Nat) :
    (seenAt c ops n).Blank := by
  refine blank_run hc fun e he => ?_
  obtain ⟨op, hop, hmem⟩ := List.mem_flatMap.mp (List.mem_of_mem_take he)
  exact blank_of_anonymous (h op hop) e hmem

theorem anonymous_of_identifiesOccupant (hc : c.Blank) (h : IdentifiesOccupant c ops) :
    ∀ op ∈ ops, op.Anonymous := by
  induction ops generalizing c with
  | nil => simp
  | cons op ops ih =>
    have hop : op.Anonymous := by
      cases op with
      | adoption steamId name => exact anonymous_of_identifies h hc.1
      | release | ping | crosshair | scoreboardFlair => trivial
    rw [List.forall_mem_cons]
    exact ⟨hop, ih (blank_run hc (blank_of_anonymous hop)) h.tail⟩

/-- Slot and incarnation identify the occupant at every instant exactly when no adoption of the run
names one. -/
theorem incarnation_identifies_iff :
    IdentifiesOccupant {} ops ↔ ∀ op ∈ ops, op.Anonymous := by
  have hempty : ShmSlot.Blank {} := ⟨rfl, rfl⟩
  constructor
  · exact anonymous_of_identifiesOccupant hempty
  · intro h m n _ _ _
    obtain ⟨hm, hm'⟩ := blank_seenAt hempty h m
    obtain ⟨hn, hn'⟩ := blank_seenAt hempty h n
    exact ⟨hm.trans hn.symm, hm'.trans hn'.symm⟩

/-- Between the first store of an adoption and its last the slot shows two occupants under one
incarnation. -/
theorem adoption_shows_two_occupants :
    let ops := [Publication.adoption 76561197960265729 (some (ascii "INTEL"))]
    ((seenAt {} ops 1).slotState = 1 ∧ (seenAt {} ops 4).slotState = 1 ∧
      (seenAt {} ops 1).incarnation = (seenAt {} ops 4).incarnation) ∧
      (seenAt {} ops 1).syntheticSid ≠ (seenAt {} ops 4).syntheticSid ∧
      (seenAt {} ops 1).personaName ≠ (seenAt {} ops 4).personaName := by
  decide

end Botid
