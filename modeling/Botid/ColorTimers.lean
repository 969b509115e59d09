import Botid.ColorBudget

/-! The C# plugin from `Load` to `Unload`: when a color pass runs, and the timers that bring it about. -/
namespace Botid
namespace Colors

open Machine

/-- The two delayed passes, with their intervals in milliseconds. -/
inductive ColorDelay
  | short
  | long
  deriving DecidableEq

def ColorDelay.interval : ColorDelay → Nat
  | .short => 500
  | .long => 2000

/-- A timer that has neither fired nor been killed. -/
structure Timer where
  id : Nat
  due : Nat
  delay : ColorDelay

inductive Phase
  | created
  | loaded
  | unloaded
  deriving DecidableEq

/-- `BotIdentityImplPlugin` and what the framework holds for it: the clock, the callbacks queued for the
next frame and the timers. The last two fields record when a pass was scheduled and when one ran. -/
structure ImplPlugin where
  api : Bool := false
  registered : Nat := 0
  connected : Bool := false
  colorDelayShort : Option Nat := none
  colorDelayLong : Option Nat := none
  colors : ColorState := {}
  phase : Phase := .created
  now : Nat := 0
  nextFrame : Nat := 0
  timers : List Timer := []
  made : Nat := 0
  scheduled : List Nat := []
  passes : List Nat := []

/-- What a pass finds: the game, and whether the region opens if it has to be. -/
structure Seen where
  peers : Peers
  getPlayers : UInt8 → List (Option Player)
  opens : Bool

/-- `Timer.Kill` on a field, if it is set. -/
def kill (timers : List Timer) : Option Nat → List Timer
  | none => timers
  | some id => timers.filter (·.id ≠ id)

namespace ImplPlugin

def field (p : ImplPlugin) : ColorDelay → Option Nat
  | .short => p.colorDelayShort
  | .long => p.colorDelayLong

/-- The callback's `_colorDelayShort = null` or `_colorDelayLong = null`. -/
def clearField (p : ImplPlugin) (delay : ColorDelay) : ImplPlugin :=
  { p with
    colorDelayShort := if delay = .short then none else p.colorDelayShort
    colorDelayLong := if delay = .long then none else p.colorDelayLong }

/-- `TryRegister`, and what `Load` does for the same purpose. -/
def tryRegister (p : ImplPlugin) (opens : Bool) : ImplPlugin :=
  if p.connected || opens then { p with connected := true, api := true, registered := p.registered + 1 }
  else p

def killColorDelayTimers (p : ImplPlugin) : ImplPlugin :=
  let p := { p with timers := kill p.timers p.colorDelayShort, colorDelayShort := none }
  { p with timers := kill p.timers p.colorDelayLong, colorDelayLong := none }

def addTimer (p : ImplPlugin) (delay : ColorDelay) : ImplPlugin × Nat :=
  ({ p with
      timers := p.timers ++ [⟨p.made, p.now + delay.interval, delay⟩]
      made := p.made + 1 }, p.made)

def scheduleTeammateColorReconcile (p : ImplPlugin) : ImplPlugin :=
  let p := { p with nextFrame := p.nextFrame + 1, scheduled := p.scheduled ++ [p.now] }
  let p := p.killColorDelayTimers
  let short := p.addTimer .short
  let p := { short.1 with colorDelayShort := some short.2 }
  let long := p.addTimer .long
  { long.1 with colorDelayLong := some long.2 }

/-- `ReconcileTeammateColors`; asking whether the client is connected connects it. -/
def reconcileTeammateColors (p : ImplPlugin) (seen : Seen) : ImplPlugin :=
  { p with
    connected := p.connected || seen.opens
    colors := colorStep p.colors (.reconcile seen.peers (p.connected || seen.opens) seen.getPlayers)
    passes := p.passes ++ [p.now] }

def load (p : ImplPlugin) (opens : Bool) : ImplPlugin := { p.tryRegister opens with phase := .loaded }

def onAllPluginsLoaded (p : ImplPlugin) (opens : Bool) : ImplPlugin :=
  (if p.api then p else p.tryRegister opens).scheduleTeammateColorReconcile

def onClientDisconnect (p : ImplPlugin) (slot : Int) : ImplPlugin :=
  { p with colors := colorStep p.colors (.clientDisconnect slot) }

def unload (p : ImplPlugin) : ImplPlugin :=
  { p.killColorDelayTimers with api := false, connected := false, phase := .unloaded }

/-- The framework calls back a timer that is due, once. -/
def fire (p : ImplPlugin) (id : Nat) (seen : Seen) : ImplPlugin :=
  match p.timers.find? fun t => t.id = id ∧ t.due ≤ p.now with
  | none => p
  | some t =>
    (({ p with timers := p.timers.filter (·.id ≠ id) } : ImplPlugin).clearField
      t.delay).reconcileTeammateColors seen

/-- It runs one callback queued for this frame. -/
def frame (p : ImplPlugin) (seen : Seen) : ImplPlugin :=
  if p.nextFrame = 0 then p
  else ({ p with nextFrame := p.nextFrame - 1 } : ImplPlugin).reconcileTeammateColors seen

end ImplPlugin

/-- What happens to the plugin, one thing at a time. -/
inductive LifeInput
  | load (opens : Bool)
  | onAllPluginsLoaded (opens : Bool)
  | onPlayerTeam
  | onPlayerSpawn
  | onRoundStart
  | onClientDisconnect (slot : Int)
  | unload
  | frame (seen : Seen)
  | timer (id : Nat) (seen : Seen)
  | wait (milliseconds : Nat)

/-- The framework loads a plugin once and calls its handlers while it is loaded; what is queued for a
frame runs in any case. -/
def lifeStep (p : ImplPlugin) : LifeInput → ImplPlugin
  | .load opens => if p.phase = .created then p.load opens else p
  | .onAllPluginsLoaded opens => if p.phase = .loaded then p.onAllPluginsLoaded opens else p
  | .onPlayerTeam | .onPlayerSpawn | .onRoundStart =>
    if p.phase = .loaded then p.scheduleTeammateColorReconcile else p
  | .onClientDisconnect slot => if p.phase = .loaded then p.onClientDisconnect slot else p
  | .unload => if p.phase = .loaded then p.unload else p
  | .frame seen => p.frame seen
  | .timer id seen => p.fire id seen
  | .wait milliseconds => { p with now := p.now + milliseconds }

/-- Both timers of one schedule at time `t`, as far as they are left, and the fields that hold them. -/
structure Armed (p : ImplPlugin) (t n : Nat) : Prop where
  timers : p.timers.Sublist
    [⟨n, t + ColorDelay.short.interval, .short⟩, ⟨n + 1, t + ColorDelay.long.interval, .long⟩]
  field : ∀ d id, p.field d = some id ↔ ∃ x ∈ p.timers, x.delay = d ∧ x.id = id

/-- Each pass that was promised is still to come or has run; `t` is the last time one was scheduled. -/
structure Kept (p : ImplPlugin) (t : Nat) : Prop where
  le_now : t ≤ p.now
  last : ∀ u ∈ p.scheduled, u ≤ t
  mem : p.scheduled ≠ [] → t ∈ p.scheduled
  frame : ∀ u ∈ p.scheduled, 0 < p.nextFrame ∨ ∃ x ∈ p.passes, u ≤ x
  delay : p.phase = .loaded → p.scheduled ≠ [] → ∀ d : ColorDelay,
    (∃ x ∈ p.timers, x.delay = d) ∨ ∃ x ∈ p.passes, t + d.interval ≤ x

/-- The capability is registered for a connected client, and only once. -/
structure RegisteredOnce (p : ImplPlugin) : Prop where
  created : p.phase = .created → p.registered = 0 ∧ p.api = false
  loaded : p.phase = .loaded → p.registered = p.api.toNat ∧ (p.api = true → p.connected = true)
  le_one : p.registered ≤ 1

def ColorInput.isReconcile : ColorInput → Bool
  | .reconcile _ _ _ => true
  | .clientDisconnect _ => false

/-- The leases and their log are those of a run of passes and disconnects, with the passes that ran. -/
def RunsColors (p : ImplPlugin) : Prop :=
  ∃ calls : List ColorInput, p.colors = run colorStep {} calls ∧
    calls.countP ColorInput.isReconcile = p.passes.length

structure Lives (p : ImplPlugin) : Prop where
  armed : ∃ t n, Armed p t n ∧ Kept p t
  idle : p.phase ≠ .loaded → p.timers = []
  fresh : p.phase = .created → p.scheduled = []
  registered : RegisteredOnce p
  colors : RunsColors p

variable {p : ImplPlugin} {t n : Nat} {seen : Seen} {d : ColorDelay} {x y : Timer} {opens : Bool}
  {input : LifeInput} {slot : Int}

theorem Armed.due (h : Armed p t n) (hx : x ∈ p.timers) : x.due = t + x.delay.interval := by
  have hmem := h.timers.subset hx
  simp only [List.mem_cons, List.not_mem_nil, or_false] at hmem
  rcases hmem with rfl | rfl <;> rfl

theorem Armed.eq_of_id (h : Armed p t n) (hx : x ∈ p.timers) (hy : y ∈ p.timers) (hid : x.id = y.id) :
    x = y := by
  have hx := h.timers.subset hx
  have hy := h.timers.subset hy
  simp only [List.mem_cons, List.not_mem_nil, or_false] at hx hy
  rcases hx with rfl | rfl <;> rcases hy with rfl | rfl
  · rfl
  · simp at hid
  · simp at hid
  · rfl

theorem mem_kill {timers : List Timer} {o : Option Nat} :
    x ∈ kill timers o ↔ x ∈ timers ∧ ∀ id, o = some id → x.id ≠ id := by
  cases o with
  | none => simp [kill]
  | some id => simp [kill]

/-- `KillColorDelayTimers` leaves no timer behind. -/
theorem Armed.timers_kill (h : Armed p t n) : p.killColorDelayTimers.timers = [] := by
  apply List.eq_nil_iff_forall_not_mem.mpr
  intro x hx
  obtain ⟨hx, hlong⟩ := mem_kill.mp hx
  obtain ⟨hx, hshort⟩ := mem_kill.mp hx
  have hfield := (h.field x.delay x.id).mpr ⟨x, hx, rfl, rfl⟩
  cases hd : x.delay with
  | short =>
    rw [hd] at hfield
    exact hshort x.id hfield rfl
  | long =>
    rw [hd] at hfield
    exact hlong x.id hfield rfl

theorem armed_of_none (hnone : p.timers = []) (hfield : ∀ d, p.field d = none) : Armed p t n := by
  refine ⟨by simp [hnone], fun d id => ?_⟩
  simp [hnone, hfield]

/-- One schedule arms both timers afresh, and queues a pass. -/
theorem schedule_armed (h : Armed p t n) :
    Armed p.scheduleTeammateColorReconcile p.now p.made := by
  have hkill : (ImplPlugin.killColorDelayTimers
      { p with nextFrame := p.nextFrame + 1, scheduled := p.scheduled ++ [p.now] }).timers = [] :=
    h.timers_kill
  have htimers : p.scheduleTeammateColorReconcile.timers =
      [⟨p.made, p.now + ColorDelay.short.interval, .short⟩,
        ⟨p.made + 1, p.now + ColorDelay.long.interval, .long⟩] := by
    unfold ImplPlugin.scheduleTeammateColorReconcile ImplPlugin.addTimer
    dsimp only
    rw [hkill]
    rfl
  refine ⟨htimers ▸ List.Sublist.refl _, fun d id => ?_⟩
  rw [htimers]
  cases d with
  | short =>
    have hfield : p.scheduleTeammateColorReconcile.field .short = some p.made := rfl
    simp [hfield]
  | long =>
    have hfield : p.scheduleTeammateColorReconcile.field .long = some (p.made + 1) := rfl
    simp [hfield]

theorem schedule_kept (ha : Armed p.scheduleTeammateColorReconcile p.now p.made) (h : Kept p t) :
    Kept p.scheduleTeammateColorReconcile p.now := by
  have hscheduled : p.scheduleTeammateColorReconcile.scheduled = p.scheduled ++ [p.now] := rfl
  have hframe : p.scheduleTeammateColorReconcile.nextFrame = p.nextFrame + 1 := rfl
  refine ⟨Nat.le_refl _, fun u hu => ?_, fun _ => by simp [hscheduled], fun u _ => ?_, fun _ _ d => ?_⟩
  · rw [hscheduled, List.mem_append, List.mem_singleton] at hu
    rcases hu with hu | rfl
    · exact (h.last u hu).trans h.le_now
    · exact Nat.le_refl _
  · left
    omega
  · obtain ⟨id, hid⟩ : ∃ id, p.scheduleTeammateColorReconcile.field d = some id := by
      cases d <;> exact ⟨_, rfl⟩
    obtain ⟨x, hx, hd, -⟩ := (ha.field d id).mp hid
    exact Or.inl ⟨x, hx, hd⟩

theorem Lives.schedule (h : Lives p) (hloaded : p.phase = .loaded) :
    Lives p.scheduleTeammateColorReconcile := by
  obtain ⟨t, n, ha, hk⟩ := h.armed
  have ha' := schedule_armed ha
  have hphase : p.scheduleTeammateColorReconcile.phase = .loaded := hloaded
  exact ⟨⟨_, _, ha', schedule_kept ha' hk⟩, fun hne => absurd hphase hne, fun hc => by simp [hphase] at hc,
    ⟨h.registered.created, h.registered.loaded, h.registered.le_one⟩, h.colors⟩

/-- A pass is remembered, and the calls it makes are one more. -/
theorem RunsColors.reconcile (h : RunsColors p) : RunsColors (p.reconcileTeammateColors seen) := by
  obtain ⟨calls, hcolors, hcount⟩ := h
  refine ⟨calls ++ [.reconcile seen.peers (p.connected || seen.opens) seen.getPlayers], ?_, ?_⟩
  · rw [run_append, ← hcolors]
    rfl
  · rw [List.countP_append, hcount]
    exact (@List.length_append _ p.passes [p.now]).symm

theorem RunsColors.disconnect (h : RunsColors p) : RunsColors (p.onClientDisconnect slot) := by
  obtain ⟨calls, hcolors, hcount⟩ := h
  refine ⟨calls ++ [.clientDisconnect slot], ?_, ?_⟩
  · rw [run_append, ← hcolors]
    rfl
  · rw [List.countP_append, hcount]
    rfl

theorem RegisteredOnce.reconcile (h : RegisteredOnce p) :
    RegisteredOnce (p.reconcileTeammateColors seen) := by
  refine ⟨h.created, fun hphase => ⟨(h.loaded hphase).1, fun hapi => ?_⟩, h.le_one⟩
  have hconnected : p.connected = true := (h.loaded hphase).2 hapi
  simp [ImplPlugin.reconcileTeammateColors, hconnected]

/-- A pass that was due at `u` has now run. -/
theorem mem_passes {u : Nat} (hu : u ≤ p.now) : ∃ x ∈ (p.reconcileTeammateColors seen).passes, u ≤ x :=
  ⟨p.now, List.mem_append_right _ List.mem_cons_self, hu⟩

theorem passes_mono {u : Nat} (h : ∃ x ∈ p.passes, u ≤ x) :
    ∃ x ∈ (p.reconcileTeammateColors seen).passes, u ≤ x := by
  obtain ⟨x, hx, hu⟩ := h
  exact ⟨x, List.mem_append_left _ hx, hu⟩

theorem Lives.frame (h : Lives p) : Lives (p.frame seen) := by
  rw [ImplPlugin.frame]
  split
  · exact h
  · obtain ⟨t, n, ha, hk⟩ := h.armed
    refine ⟨⟨t, n, ⟨ha.timers, ha.field⟩, hk.le_now, hk.last, hk.mem, fun u hu => Or.inr ?_, ?_⟩,
      h.idle, h.fresh, RegisteredOnce.reconcile ⟨h.registered.created, h.registered.loaded, h.registered.le_one⟩,
      RunsColors.reconcile h.colors⟩
    · exact @mem_passes { p with nextFrame := p.nextFrame - 1 } seen u ((hk.last u hu).trans hk.le_now)
    · intro hloaded hne d
      exact (hk.delay hloaded hne d).imp_right
        (@passes_mono { p with nextFrame := p.nextFrame - 1 } seen _)

/-- A timer that fires leaves its field, and the other timer where it is. -/
theorem Armed.fired {q : ImplPlugin} (h : Armed p t n) (hx : x ∈ p.timers)
    (htimers : q.timers = p.timers.filter (·.id ≠ x.id)) (hself : q.field x.delay = none)
    (hother : ∀ d, d ≠ x.delay → q.field d = p.field d) : Armed q t n := by
  refine ⟨htimers ▸ List.filter_sublist.trans h.timers, fun d id => ?_⟩
  have hmem : ∀ y, y ∈ q.timers ↔ y ∈ p.timers ∧ y.id ≠ x.id := by
    intro y
    simp [htimers]
  by_cases hd : d = x.delay
  · subst hd
    rw [hself]
    constructor
    · intro hnone
      cases hnone
    · rintro ⟨y, hy, hdelay, -⟩
      obtain ⟨hy, hne⟩ := (hmem y).mp hy
      have hfield := (h.field x.delay y.id).mpr ⟨y, hy, hdelay, rfl⟩
      rw [(h.field x.delay x.id).mpr ⟨x, hx, rfl, rfl⟩] at hfield
      exact absurd (Option.some.inj hfield).symm hne
  · rw [hother d hd, h.field]
    refine exists_congr fun y => ⟨?_, fun ⟨hy, hrest⟩ => ⟨((hmem y).mp hy).1, hrest⟩⟩
    rintro ⟨hy, rfl, hid⟩
    refine ⟨(hmem y).mpr ⟨hy, ?_⟩, rfl, hid⟩
    intro hsame
    exact hd (by rw [h.eq_of_id hy hx hsame])

theorem Lives.fire {id : Nat} (h : Lives p) : Lives (p.fire id seen) := by
  rw [ImplPlugin.fire]
  split
  · exact h
  · rename_i x hfind
    have hx := List.mem_of_find?_eq_some hfind
    obtain ⟨rfl, hdue⟩ : x.id = id ∧ x.due ≤ p.now := by simpa using List.find?_some hfind
    obtain ⟨t, n, ha, hk⟩ := h.armed
    have hloaded : p.phase = .loaded := by
      by_contra hphase
      rw [h.idle hphase] at hx
      cases hx
    generalize hq : ({ p with timers := p.timers.filter (·.id ≠ x.id) } : ImplPlugin).clearField x.delay = q
    have hself : q.field x.delay = none := by
      subst hq
      cases hd : x.delay <;> simp [ImplPlugin.field, ImplPlugin.clearField]
    have hother : ∀ d, d ≠ x.delay → q.field d = p.field d := by
      subst hq
      intro d hd
      cases d <;> simp [ImplPlugin.field, ImplPlugin.clearField, Ne.symm hd]
    subst hq
    have ha' := ha.fired hx rfl hself hother
    refine ⟨⟨t, n, ⟨ha'.timers, ha'.field⟩, hk.le_now, hk.last, hk.mem, fun u hu => ?_, fun _ hne d => ?_⟩,
      fun hne => absurd hloaded hne, h.fresh,
      RegisteredOnce.reconcile ⟨h.registered.created, h.registered.loaded, h.registered.le_one⟩,
      RunsColors.reconcile h.colors⟩
    · exact Or.inr (@mem_passes (ImplPlugin.clearField _ _) _ u ((hk.last u hu).trans hk.le_now))
    · by_cases hd : d = x.delay
      · subst hd
        right
        apply mem_passes
        rw [← ha.due hx]
        exact hdue
      · rcases hk.delay hloaded hne d with ⟨y, hy, hdelay⟩ | hpass
        · left
          obtain ⟨z, hz, hzdelay, -⟩ := (ha'.field d y.id).mp
            ((hother d hd).trans ((ha.field d y.id).mpr ⟨y, hy, hdelay, rfl⟩))
          exact ⟨z, hz, hzdelay⟩
        · exact Or.inr (passes_mono hpass)

/-- Registering touches nothing that the passes rest on. -/
theorem tryRegister_cases : p.tryRegister opens = p ∨ p.tryRegister opens =
    { p with connected := true, api := true, registered := p.registered + 1 } := by
  rw [ImplPlugin.tryRegister]
  split
  · exact Or.inr rfl
  · exact Or.inl rfl

theorem Lives.load (h : Lives p) (hcreated : p.phase = .created) : Lives (p.load opens) := by
  obtain ⟨t, n, ha, hk⟩ := h.armed
  obtain ⟨hzero, hapi⟩ := h.registered.created hcreated
  have hnone := h.fresh hcreated
  rw [ImplPlugin.load]
  rcases @tryRegister_cases p opens with heq | heq
  · rw [heq]
    exact ⟨⟨t, n, ⟨ha.timers, ha.field⟩, hk.le_now, hk.last, hk.mem, hk.frame,
      fun _ hne => absurd hnone hne⟩, fun hne => absurd rfl hne, (by rintro ⟨⟩),
      ⟨(by rintro ⟨⟩), fun _ => by simp [hzero, hapi], h.registered.le_one⟩, h.colors⟩
  · rw [heq]
    exact ⟨⟨t, n, ⟨ha.timers, ha.field⟩, hk.le_now, hk.last, hk.mem, hk.frame,
      fun _ hne => absurd hnone hne⟩, fun hne => absurd rfl hne, (by rintro ⟨⟩),
      ⟨(by rintro ⟨⟩), fun _ => by simp [hzero], by simp [hzero]⟩, h.colors⟩

theorem Lives.onAllPluginsLoaded (h : Lives p) (hloaded : p.phase = .loaded) :
    Lives (p.onAllPluginsLoaded opens) := by
  rw [ImplPlugin.onAllPluginsLoaded]
  split
  · exact h.schedule hloaded
  · rename_i hapi
    rcases @tryRegister_cases p opens with heq | heq
    · rw [heq]
      exact h.schedule hloaded
    · rw [heq]
      obtain ⟨t, n, ha, hk⟩ := h.armed
      have hzero : p.registered = 0 := by
        rw [(h.registered.loaded hloaded).1]
        simp [hapi]
      refine Lives.schedule ?_ hloaded
      exact ⟨⟨t, n, ⟨ha.timers, ha.field⟩, hk.le_now, hk.last, hk.mem, hk.frame, hk.delay⟩, h.idle, h.fresh,
        ⟨fun hc => by simp [hloaded] at hc, fun _ => by simp [hzero], by simp [hzero]⟩, h.colors⟩

theorem Lives.unload (h : Lives p) : Lives p.unload := by
  obtain ⟨t, n, ha, hk⟩ := h.armed
  have hnone : p.unload.timers = [] := ha.timers_kill
  refine ⟨⟨t, n, armed_of_none hnone fun d => ?_, hk.le_now, hk.last, hk.mem, hk.frame, (by rintro ⟨⟩)⟩,
    fun _ => hnone, (by rintro ⟨⟩),
    ⟨(by rintro ⟨⟩), (by rintro ⟨⟩), h.registered.le_one⟩, h.colors⟩
  cases d <;> rfl

theorem Lives.wait {milliseconds : Nat} (h : Lives p) :
    Lives { p with now := p.now + milliseconds } := by
  obtain ⟨t, n, ha, hk⟩ := h.armed
  exact ⟨⟨t, n, ⟨ha.timers, ha.field⟩, Nat.le_add_right_of_le hk.le_now, hk.last, hk.mem, hk.frame,
    hk.delay⟩, h.idle, h.fresh,
    ⟨h.registered.created, h.registered.loaded, h.registered.le_one⟩, h.colors⟩

theorem Lives.onClientDisconnect (h : Lives p) : Lives (p.onClientDisconnect slot) := by
  obtain ⟨t, n, ha, hk⟩ := h.armed
  exact ⟨⟨t, n, ⟨ha.timers, ha.field⟩, hk.le_now, hk.last, hk.mem, hk.frame, hk.delay⟩, h.idle, h.fresh,
    ⟨h.registered.created, h.registered.loaded, h.registered.le_one⟩, h.colors.disconnect⟩

theorem lives_lifeStep (h : Lives p) : Lives (lifeStep p input) := by
  have hguard : ∀ (P : Prop) [Decidable P] (q : ImplPlugin), (P → Lives q) → Lives (if P then q else p) := by
    intro P _ q hq
    split
    · exact hq ‹_›
    · exact h
  cases input with
  | load opens => exact hguard _ _ h.load
  | onAllPluginsLoaded opens => exact hguard _ _ h.onAllPluginsLoaded
  | onPlayerTeam | onPlayerSpawn | onRoundStart => exact hguard _ _ h.schedule
  | onClientDisconnect slot => exact hguard _ _ fun _ => h.onClientDisconnect
  | unload => exact hguard _ _ fun _ => h.unload
  | frame seen => exact h.frame
  | timer id seen => exact h.fire
  | wait milliseconds => exact h.wait

theorem lives_init : Lives {} := by
  have harmed : Armed {} 0 0 := armed_of_none rfl fun d => by cases d <;> rfl
  refine ⟨⟨0, 0, harmed, Nat.le_refl _, by simp, by simp, by simp, fun _ hne => absurd rfl hne⟩, fun _ => rfl,
    fun _ => rfl, ⟨fun _ => ⟨rfl, rfl⟩, (by rintro ⟨⟩), Nat.zero_le _⟩, ⟨[], rfl, rfl⟩⟩

/-- However team changes, spawns, round starts, frames and timers fall: the fields hold the live timers,
two at most and none after `Unload`; the capability is registered at most once; once the frame's queue is
empty every trigger has had its pass, and once no timer is due the last one has also had its delayed ones;
and the leases come from these passes and the disconnects alone. -/
theorem triggers_get_their_passes (inputs : List LifeInput) :
    let p := run lifeStep {} inputs
    (∀ d id, p.field d = some id ↔ ∃ x ∈ p.timers, x.delay = d ∧ x.id = id) ∧ p.timers.length ≤ 2 ∧
    (p.phase ≠ .loaded → p.timers = []) ∧ p.registered ≤ 1 ∧
    (p.nextFrame = 0 → ∀ t ∈ p.scheduled, ∃ x ∈ p.passes, t ≤ x) ∧
    (p.phase = .loaded → (∀ x ∈ p.timers, p.now < x.due) →
      ∀ t ∈ p.scheduled, (∀ u ∈ p.scheduled, u ≤ t) → ∀ d : ColorDelay, t + d.interval ≤ p.now →
        ∃ x ∈ p.passes, t + d.interval ≤ x) ∧
    ∃ calls : List ColorInput, p.colors = run colorStep {} calls ∧
      calls.countP ColorInput.isReconcile = p.passes.length := by
  intro p
  have h : Lives p := run_invariant_of_step (I := Lives) (fun _ _ h => lives_lifeStep h) lives_init
  obtain ⟨t, n, ha, hk⟩ := h.armed
  refine ⟨ha.field, ha.timers.length_le, h.idle, h.registered.le_one, fun hframe u hu => ?_, ?_, h.colors⟩
  · rcases hk.frame u hu with hqueued | hpass
    · omega
    · exact hpass
  · intro hloaded hdue u hu hlast d hpast
    have hmem := hk.mem (List.ne_nil_of_mem hu)
    obtain rfl : u = t := Nat.le_antisymm (hk.last u hu) (hlast t hmem)
    rcases hk.delay hloaded (List.ne_nil_of_mem hu) d with ⟨x, hx, rfl⟩ | hpass
    · have hlate := hdue x hx
      rw [ha.due hx] at hlate
      omega
    · exact hpass

/-- A spawn a second after another one puts the delayed passes off; the short one has run by then. -/
example (seen : Seen) : (run lifeStep {} [.load true, .onPlayerSpawn, .frame seen, .wait 1000, .timer 0 seen,
    .onPlayerSpawn, .frame seen, .wait 1000, .timer 1 seen, .timer 2 seen, .wait 1000, .timer 3 seen]).passes =
    [0, 1000, 1000, 2000, 3000] := by
  simp [lifeStep, ImplPlugin.load, ImplPlugin.tryRegister, ImplPlugin.scheduleTeammateColorReconcile,
    ImplPlugin.killColorDelayTimers, ImplPlugin.addTimer, ImplPlugin.frame, ImplPlugin.fire,
    ImplPlugin.clearField, ImplPlugin.reconcileTeammateColors, kill, ColorDelay.interval]

end Colors
end Botid
