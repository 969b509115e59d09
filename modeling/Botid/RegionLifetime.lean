import Botid.SharedMemoryClient

/-! The region under its name: reloads replace it, and a reader that stays connected keeps the old one. -/
namespace Botid

open ByteMem Machine SharedMemoryClient

/-- Which system calls of one `InitSharedMemory` succeed. -/
structure SysCalls where
  openExisting : Bool
  unlink : Bool
  create : Bool
  truncate : Bool
  map : Bool

/-- The objects under `/CS2BotHider_Slots` so far, and who has which one mapped. -/
structure Host where
  /-- The bytes of each object, in the order they were created. -/
  object : Nat → Mem := fun _ _ => 0
  created : Nat := 0
  /-- The object the name leads to. -/
  named : Option Nat := none
  /-- `s_ShmView`. -/
  writer : Option Nat := none
  /-- The client's `_view`. -/
  reader : Option Nat := none

namespace Host

/-- The existing object is opened only to unlink its name. -/
def unlinkExisting (h : Host) (sys : SysCalls) : Host :=
  if h.named.isSome ∧ sys.openExisting ∧ sys.unlink then { h with named := none } else h

/-- `shm_open` with `O_CREAT`: the object under the name, or a new one. -/
def openCreate (h : Host) : Host × Nat :=
  match h.named with
  | some i => (h, i)
  | none =>
    ({ h with
      object := Function.update h.object h.created fun _ => 0
      created := h.created + 1
      named := some h.created }, h.created)

def setObject (h : Host) (i : Nat) (m : Mem) : Host :=
  { h with object := Function.update h.object i m }

def initSharedMemory (h : Host) (sys : SysCalls) : Bool × Host :=
  if h.writer.isSome then (true, h)
  else
    let h := h.unlinkExisting sys
    if !sys.create then (false, h)
    else
      let opened := h.openCreate
      if !sys.truncate ∨ !sys.map then (false, opened.1)
      else
        match (Botid.initSharedMemory none (some (opened.1.object opened.2))).2 with
        | none => (false, opened.1)
        | some m => (true, { opened.1.setObject opened.2 m with writer := some opened.2 })

/-- `ShutdownSharedMemory` unmaps and leaves the name. -/
def shutdownSharedMemory (h : Host) : Host := { h with writer := none }

/-- A publisher's call, through `s_ShmView`. -/
def publish (h : Host) (s : Int) (c : SlotCall) : Host :=
  match h.writer with
  | none => h
  | some i =>
    match ShmView.call (some (h.object i)) s c with
    | none => h
    | some m => h.setObject i m

/-- `TryConnect`; a missing object is a caught `FileNotFoundException`. -/
def tryConnect (h : Host) : Bool × Host :=
  if h.reader.isSome then (true, h)
  else
    match h.named with
    | none => (false, h)
    | some i =>
      if SharedMemoryClient.tryConnect false (h.object i) then (true, { h with reader := some i })
      else (false, h)

/-- The client's `Dispose`. -/
def dispose (h : Host) : Host := { h with reader := none }

end Host

/-- What the plugin and the client do with the region. -/
inductive HostCall
  | initSharedMemory (sys : SysCalls)
  | shutdownSharedMemory
  | publish (s : Int) (c : SlotCall)
  | tryConnect
  | dispose

/-- The host, with the table that the writer's calls since it mapped the region amount to. -/
def hostStep (p : Host × Shm) : HostCall → Host × Shm
  | .initSharedMemory sys =>
    let done := p.1.initSharedMemory sys
    (done.2, if p.1.writer.isSome then p.2 else Shm.init done.1)
  | .shutdownSharedMemory => (p.1.shutdownSharedMemory, { p.2 with mapped := false })
  | .publish s c => (p.1.publish s c, p.2.call s c)
  | .tryConnect => (p.1.tryConnect.2, p.2)
  | .dispose => (p.1.dispose, p.2)

/-- The name leads to what the writer has mapped, and that is the table. -/
structure Host.Sound (h : Host) (shm : Shm) : Prop where
  named_lt : ∀ i, h.named = some i → i < h.created
  reader_lt : ∀ i, h.reader = some i → i < h.created
  writer_named : ∀ i, h.writer = some i → h.named = some i
  region : ShmView.Refines (h.writer.map h.object) shm

/-- An object that the name does not lead to, among those created. -/
def Host.Old (h : Host) (i : Nat) : Prop := i < h.created ∧ h.named ≠ some i

variable {h : Host} {shm : Shm} {p : Host × Shm} {i : Nat} {s : Int} {c : SlotCall} {sys : SysCalls}
  {call : HostCall} {calls more : List HostCall} {m : Mem}

theorem openCreate_spec (hs : ∀ i, h.named = some i → i < h.created) :
    h.openCreate.1.named = some h.openCreate.2 ∧ h.openCreate.2 < h.openCreate.1.created ∧
      h.created ≤ h.openCreate.1.created ∧ h.openCreate.1.reader = h.reader ∧
      h.openCreate.1.writer = h.writer ∧
      ∀ i, h.Old i → h.openCreate.2 ≠ i ∧ h.openCreate.1.object i = h.object i := by
  rw [Host.openCreate]
  cases hn : h.named with
  | some j =>
    refine ⟨hn, hs j hn, Nat.le_refl _, rfl, rfl, ?_⟩
    rintro i ⟨-, hne⟩
    refine ⟨?_, rfl⟩
    rintro rfl
    exact hne hn
  | none =>
    refine ⟨rfl, Nat.lt_succ_self _, Nat.le_succ _, rfl, rfl, ?_⟩
    rintro i ⟨hi, -⟩
    exact ⟨Nat.ne_of_gt hi, Function.update_of_ne (Nat.ne_of_lt hi) _ _⟩

theorem unlinkExisting_spec : (h.unlinkExisting sys).created = h.created ∧
    (h.unlinkExisting sys).object = h.object ∧ (h.unlinkExisting sys).reader = h.reader ∧
      (h.unlinkExisting sys).writer = h.writer ∧
      ((h.unlinkExisting sys).named = h.named ∨ (h.unlinkExisting sys).named = none) := by
  rw [Host.unlinkExisting]
  split
  · exact ⟨rfl, rfl, rfl, rfl, Or.inr rfl⟩
  · exact ⟨rfl, rfl, rfl, rfl, Or.inl rfl⟩

/-- All that an `InitSharedMemory` can come to: the region is there already, or the name now leads nowhere
or to a mapped or unmapped object, and no older one was touched. -/
theorem initSharedMemory_cases (hw : h.writer = none) (hs : ∀ i, h.named = some i → i < h.created) :
    ∃ h', (h.initSharedMemory sys).2 = h' ∧ h.created ≤ h'.created ∧ h'.reader = h.reader ∧
      (∀ i, h'.named = some i → i < h'.created) ∧
      (∀ i, h.Old i → h'.named ≠ some i ∧ h'.object i = h.object i) ∧
      ((h.initSharedMemory sys).1 = false ∧ h'.writer = none ∨
        (h.initSharedMemory sys).1 = true ∧ h'.writer = h'.named ∧
          ShmView.Refines (h'.writer.map h'.object) (Shm.init true)) := by
  refine ⟨_, rfl, ?_⟩
  obtain ⟨hcreated, hobject, hreader, hwriter, hnamed⟩ := @unlinkExisting_spec h sys
  have hlt : ∀ i, (h.unlinkExisting sys).named = some i → i < (h.unlinkExisting sys).created := by
    intro i hi
    rw [hcreated]
    rcases hnamed with heq | heq
    · exact hs i (heq ▸ hi)
    · rw [heq] at hi
      cases hi
  have hold : ∀ i, h.Old i → (h.unlinkExisting sys).Old i := by
    rintro i ⟨hi, hne⟩
    refine ⟨by rwa [hcreated], ?_⟩
    rcases hnamed with heq | heq
    · rwa [heq]
    · rw [heq]
      simp
  rw [Host.initSharedMemory, if_neg (by simp [hw])]
  dsimp only
  generalize h.unlinkExisting sys = h₁ at hcreated hobject hreader hwriter hlt hold ⊢
  rw [hw] at hwriter
  split
  · refine ⟨hcreated.ge, hreader, hlt, fun i hi => ⟨(hold i hi).2, by rw [hobject]⟩, Or.inl ⟨rfl, hwriter⟩⟩
  · obtain ⟨hname, hnew, hle, hreader', hwriter', hother⟩ := openCreate_spec hlt
    have hnames : ∀ i, h₁.openCreate.1.named = some i → i < h₁.openCreate.1.created := by
      intro i hi
      rw [hname] at hi
      rwa [← Option.some.inj hi]
    have hle' : h.created ≤ h₁.openCreate.1.created := hcreated ▸ hle
    have hkept : ∀ i, h.Old i → h₁.openCreate.1.named ≠ some i ∧ h₁.openCreate.1.object i = h.object i := by
      intro i hi
      obtain ⟨hne, hsame⟩ := hother i (hold i hi)
      exact ⟨by rw [hname]; simpa using hne, hsame.trans (by rw [hobject])⟩
    split
    · exact ⟨hle', hreader'.trans hreader, hnames, hkept, Or.inl ⟨rfl, hwriter'.trans hwriter⟩⟩
    · have hrefines := refines_initSharedMemory (some (h₁.openCreate.1.object h₁.openCreate.2))
      split
      · rename_i hnone
        rw [hnone] at hrefines
        simp [ShmView.Refines, Shm.init, Botid.initSharedMemory] at hrefines
      · rename_i m hm
        rw [hm] at hrefines
        refine ⟨hle', hreader'.trans hreader, hnames, fun i hi => ⟨(hkept i hi).1, ?_⟩,
          Or.inr ⟨rfl, hname.symm, ?_⟩⟩
        · have hne := (hother i (hold i hi)).1
          exact (Function.update_of_ne (Ne.symm hne) _ _).trans (hkept i hi).2
        · have hview : ({ h₁.openCreate.1.setObject h₁.openCreate.2 m with
              writer := some h₁.openCreate.2 } : Host).object h₁.openCreate.2 = m :=
            Function.update_self _ _ _
          rw [Option.map_some, hview]
          exact hrefines

theorem publish_spec : (h.publish s c).created = h.created ∧ (h.publish s c).named = h.named ∧
    (h.publish s c).reader = h.reader ∧ (h.publish s c).writer = h.writer ∧
      (∀ i, h.writer ≠ some i → (h.publish s c).object i = h.object i) ∧
      (h.publish s c).writer.map (h.publish s c).object = (h.writer.map h.object).bind fun m =>
        ShmView.call (some m) s c := by
  rw [Host.publish]
  cases hw : h.writer with
  | none => exact ⟨rfl, rfl, rfl, hw, fun _ _ => rfl, by simp [hw]⟩
  | some j =>
    have hsome : ∃ m, ShmView.call (some (h.object j)) s c = some m := by
      by_cases hrange : s < 0 ∨ kShmMaxSlots ≤ s
      · exact ⟨_, call_out_of_range hrange⟩
      · obtain ⟨m, hm, -⟩ := @stored_call (h.object j) s c (by omega) (by omega)
        exact ⟨m, hm⟩
    obtain ⟨m, hm⟩ := hsome
    dsimp only
    rw [hm]
    refine ⟨rfl, rfl, rfl, hw, fun i hi => ?_, ?_⟩
    · refine Function.update_of_ne ?_ _ _
      rintro rfl
      exact hi rfl
    · have hview : (h.setObject j m).object j = m := Function.update_self _ _ _
      have hw' : (h.setObject j m).writer = some j := hw
      dsimp only
      rw [hw', Option.map_some, Option.map_some, hview, Option.bind_some, hm]

theorem tryConnect_spec : h.tryConnect.2.created = h.created ∧ h.tryConnect.2.object = h.object ∧
    h.tryConnect.2.named = h.named ∧ h.tryConnect.2.writer = h.writer ∧
      (h.tryConnect.2.reader = h.reader ∨ h.reader = none ∧ h.tryConnect.2.reader = h.named) := by
  rw [Host.tryConnect]
  split
  · exact ⟨rfl, rfl, rfl, rfl, Or.inl rfl⟩
  · rename_i hr
    have hnone : h.reader = none := by simpa using hr
    split
    · exact ⟨rfl, rfl, rfl, rfl, Or.inl rfl⟩
    · rename_i i hi
      split
      · exact ⟨rfl, rfl, rfl, rfl, Or.inr ⟨hnone, hi.symm⟩⟩
      · exact ⟨rfl, rfl, rfl, rfl, Or.inl rfl⟩

/-- The name, the reader and the table keep their meaning through every call. -/
theorem sound_hostStep (hp : p.1.Sound p.2) : (hostStep p call).1.Sound (hostStep p call).2 := by
  obtain ⟨h, shm⟩ := p
  obtain ⟨hnamed, hreader, hwriter, hregion⟩ := hp
  cases call with
  | initSharedMemory sys =>
    rw [hostStep]
    dsimp only
    cases hw : h.writer with
    | some j =>
      have hsame : h.initSharedMemory sys = (true, h) := by
        rw [Host.initSharedMemory, if_pos (by simp [hw])]
      rw [hsame]
      exact ⟨hnamed, hreader, hwriter, hregion⟩
    | none =>
      obtain ⟨h', hh', hle, hr, hn, -, hdone⟩ := @initSharedMemory_cases h sys hw hnamed
      rw [hh']
      have hr' : ∀ i, h'.reader = some i → i < h'.created :=
        fun i hi => lt_of_lt_of_le (hreader i (hr ▸ hi)) hle
      rcases hdone with ⟨hfalse, hnone⟩ | ⟨htrue, hsame, hrefines⟩
      · rw [hfalse]
        refine ⟨hn, hr', ?_, ?_⟩
        · intro i hi
          rw [hnone] at hi
          cases hi
        · rw [hnone]
          rfl
      · rw [htrue]
        exact ⟨hn, hr', fun i hi => hsame ▸ hi, hrefines⟩
  | shutdownSharedMemory =>
    refine ⟨hnamed, hreader, ?_, rfl⟩
    intro i hi
    cases hi
  | publish s c =>
    obtain ⟨hcreated, hname, hread, hwrite, -, hview⟩ := @publish_spec h s c
    refine ⟨?_, ?_, ?_, ?_⟩
    · rw [hostStep, hname, hcreated]
      exact hnamed
    · rw [hostStep, hread, hcreated]
      exact hreader
    · rw [hostStep, hname, hwrite]
      exact hwriter
    · rw [hostStep]
      dsimp only
      rw [hview]
      have hcall := @refines_call _ (h.writer.map h.object) s c hregion
      cases hw : h.writer with
      | none =>
        have hidle : ShmView.call none s c = none := by cases c <;> simp [ShmView.call, ShmView.publishAdopt,
          ShmView.publishRelease, ShmView.publishPing, ShmView.publishCrosshair,
          ShmView.publishScoreboardFlair, ShmView.bumpIncarnation, ShmView.publish]
        rwa [hw, Option.map_none, hidle] at hcall
      | some j => rwa [hw] at hcall
  | tryConnect =>
    obtain ⟨hcreated, hobject, hname, hwrite, hread⟩ := @tryConnect_spec h
    refine ⟨?_, ?_, ?_, ?_⟩
    · rw [hostStep, hname, hcreated]
      exact hnamed
    · rw [hostStep, hcreated]
      rcases hread with heq | ⟨-, heq⟩
      · rw [heq]
        exact hreader
      · rw [heq]
        exact hnamed
    · rw [hostStep, hname, hwrite]
      exact hwriter
    · rw [hostStep, hobject, hwrite]
      exact hregion
  | dispose =>
    refine ⟨hnamed, ?_, hwriter, hregion⟩
    intro i hi
    cases hi

/-- An object that has lost its name never gets it back, and no call writes to it. -/
theorem old_hostStep (hp : p.1.Sound p.2) (hi : p.1.Old i) :
    (hostStep p call).1.Old i ∧ (hostStep p call).1.object i = p.1.object i := by
  obtain ⟨h, shm⟩ := p
  have hwriter : h.writer ≠ some i := fun hw => hi.2 (hp.writer_named i hw)
  cases call with
  | initSharedMemory sys =>
    rw [hostStep]
    dsimp only
    cases hw : h.writer with
    | some j =>
      have hsame : h.initSharedMemory sys = (true, h) := by
        rw [Host.initSharedMemory, if_pos (by simp [hw])]
      rw [hsame]
      exact ⟨hi, rfl⟩
    | none =>
      obtain ⟨h', hh', hle, -, -, hold, -⟩ := @initSharedMemory_cases h sys hw hp.named_lt
      rw [hh']
      exact ⟨⟨lt_of_lt_of_le hi.1 hle, (hold i hi).1⟩, (hold i hi).2⟩
  | shutdownSharedMemory => exact ⟨hi, rfl⟩
  | publish s c =>
    obtain ⟨hcreated, hname, -, -, hobject, -⟩ := @publish_spec h s c
    rw [hostStep]
    refine ⟨⟨?_, ?_⟩, hobject i hwriter⟩
    · rw [hcreated]
      exact hi.1
    · rw [hname]
      exact hi.2
  | tryConnect =>
    obtain ⟨hcreated, hobject, hname, -, -⟩ := @tryConnect_spec h
    rw [hostStep]
    refine ⟨⟨?_, ?_⟩, congrFun hobject i⟩
    · rw [hcreated]
      exact hi.1
    · rw [hname]
      exact hi.2
  | dispose => exact ⟨hi, rfl⟩

theorem reader_hostStep (hi : p.1.Sound p.2) (hcall : call ≠ .dispose) (hr : p.1.reader = some i) :
    (hostStep p call).1.reader = some i := by
  obtain ⟨h, shm⟩ := p
  cases call with
  | initSharedMemory sys =>
    rw [hostStep]
    dsimp only
    cases hw : h.writer with
    | some j =>
      rw [Host.initSharedMemory, if_pos (by simp [hw])]
      exact hr
    | none =>
      obtain ⟨h', hh', -, hr', -⟩ := @initSharedMemory_cases h sys hw hi.named_lt
      rw [hh', hr']
      exact hr
  | shutdownSharedMemory => exact hr
  | publish s c => exact (@publish_spec h s c).2.2.1.trans hr
  | tryConnect =>
    rcases (@tryConnect_spec h).2.2.2.2 with heq | ⟨hnone, -⟩
    · exact heq.trans hr
    · rw [hnone] at hr
      cases hr
  | dispose => exact absurd rfl hcall

theorem sound_run (hp : p.1.Sound p.2) : (run hostStep p calls).1.Sound (run hostStep p calls).2 :=
  run_invariant_of_step (I := fun p : Host × Shm => p.1.Sound p.2) (fun _ _ h => sound_hostStep h) hp

theorem sound_init : ({} : Host).Sound (Shm.init false) := by
  refine ⟨?_, ?_, ?_, rfl⟩ <;>
  · intro i hi
    cases hi

/-- A reader that stays connected keeps its object. While the writer has that one mapped, it is the table
of the writer's calls; once the name leads elsewhere, its bytes never change again. -/
theorem reader_current_or_frozen (calls more : List HostCall) :
    let p := run hostStep ({}, Shm.init false) calls
    let q := run hostStep p more
    ∀ i, p.1.reader = some i → HostCall.dispose ∉ more →
      q.1.reader = some i ∧ (q.1.writer = some i → RegionOf q.2 (q.1.object i)) ∧
        (p.1.named ≠ some i → q.1.writer ≠ some i ∧ q.1.object i = p.1.object i) := by
  intro p q i hr hmore
  have hp : p.1.Sound p.2 := sound_run sound_init
  have hq : q.1.Sound q.2 := sound_run hp
  refine ⟨?_, fun hw => ?_, fun hne => ?_⟩
  · have hguard : Guarded hostStep (fun _ call => call ≠ .dispose) p more := by
      apply guarded_of_forall
      rintro call hcall - rfl
      exact hmore hcall
    exact (run_invariant (I := fun p : Host × Shm => p.1.Sound p.2 ∧ p.1.reader = some i)
      (fun _ _ hc h => ⟨sound_hostStep h.1, reader_hostStep h.1 hc h.2⟩) hguard ⟨hp, hr⟩).2
  · have hregion := hq.region
    rw [hw] at hregion
    exact hregion.2
  · have hold : p.1.Old i := ⟨hp.reader_lt i hr, hne⟩
    obtain ⟨-, hkept, hsame⟩ := run_invariant_of_step
      (I := fun y : Host × Shm => y.1.Sound y.2 ∧ y.1.Old i ∧ y.1.object i = p.1.object i)
      (fun y call h => by
        obtain ⟨hi, hsame⟩ := @old_hostStep y i call h.1 h.2.1
        exact ⟨sound_hostStep h.1, hi, hsame.trans h.2.2⟩) ⟨hp, hold, rfl⟩
    exact ⟨fun hw => hkept.2 (hq.writer_named i hw), hsame⟩

/-- The plugin loads, a client connects, and the plugin is reloaded. -/
def reload : List HostCall :=
  [.initSharedMemory ⟨true, true, true, true, true⟩, .tryConnect, .shutdownSharedMemory,
    .initSharedMemory ⟨true, true, true, true, true⟩]

theorem reader_frozen_by_reload :
    let p := run hostStep ({}, Shm.init false) reload
    let q := run hostStep p [.publish 3 .bumpIncarnation]
    q.1.reader = some 0 ∧ q.1.writer ≠ some 0 ∧ q.1.object 0 = p.1.object 0 := by
  intro p q
  obtain ⟨hreader, -, hfrozen⟩ := reader_current_or_frozen reload [.publish 3 .bumpIncarnation] 0 rfl
    (by simp)
  have hname : p.1.named = some 1 := rfl
  exact ⟨hreader, hfrozen (by rw [hname]; simp)⟩

end Botid
