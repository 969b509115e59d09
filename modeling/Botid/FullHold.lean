import Botid.WindowEnd

/-! How long a window outlives the command that found it open. -/
namespace Botid

open Machine

variable {E : EngineCalls} {st : State} {ev : Event} {w : World} {stack rest : List Command}
  {command : Command} {name : Bytes} {arguments : List Bytes} {tokens : List Bytes} {n : Int}
  {es later : List Event}

def Event.isFrame (ev : Event) : Bool :=
  match ev.hook with
  | .gameFrame _ => true
  | _ => false

def framesIn (es : List Event) : Nat := es.countP Event.isFrame

/-- The engine runs its frames between top-level commands. -/
def FrameBetweenCommands (p : State × List Command) (ev : Event) : Prop :=
  ev.isFrame = true → p.2 = []

/-- No `bot_add` begins, no map suspends hosting, and no frame finds the server gone. -/
def NotInterrupted (st : State) (ev : Event) : Prop :=
  ¬ (st.withWorld ev.world).OffersBlacklisted ev.hook ∧
    match ev.hook with
    | .dispatchConCommandPre (some name) _ => isBotAddCommand name = false
    | .gameFrame _ => ev.world.serverAlive = true
    | _ => True

/-- What may follow a command without cutting its window short. -/
structure Undisturbed (E : EngineCalls) (stack : List Command) (st : State) (later : List Event) :
    Prop where
  nested : Calls.Nested (step E) Event.move stack st later
  frames : Guarded (watch (step E) (Calls.inFlight Event.move)) FrameBetweenCommands (st, stack) later
  counted : Guarded (step E) EndsCounted st later
  quiet : Guarded (step E) NotInterrupted st later

/-- A command whose end schedules an open window anew, or suspends hosting. -/
def Command.settles (tokens : List Bytes) (c : Command) : Prop :=
  c.isCallvote = true ∨ ∃ name hint, c.1 = some name ∧ isMapChangeCommand name = true ∧
    c.2[1]? = some hint ∧ mapNameMatchesBlacklist hint tokens = true

/-- An open window with `n` frames before it, or a command in flight that will settle it. -/
structure Clock.HeldFor (tokens : List Bytes) (n : Int) (c : Clock) (stack : List Command) :
    Prop where
  onItsWay : c.OnItsWay stack
  hosted : c.suspended = false
  isOpen : c.depth ≠ 0
  lasts : n ≤ c.hold ∨ c.population ≠ 0 ∨ ∃ command ∈ stack, command.settles tokens
  renewed : n ≤ c.holdFrames ∧ c.holdFrames ≤ 32

/-- A name that the blacklist does not match leaves an unsuspended clock alone. -/
theorem clock_applyMapGate_of_allowed (hg : st.gate.suspended = false)
    (hm : mapNameMatchesBlacklist name st.mapBlacklist = false) :
    (applyMapGate st name).clock = st.clock := by
  rw [applyMapGate]
  split
  · rfl
  · rw [if_neg (by simp [hm])]
    simp only [State.clock, hg]

theorem clock_pollMapGate_of_allowed (hg : st.gate.suspended = false)
    (hm : mapNameMatchesBlacklist (buildMapIdentity st.world) st.mapBlacklist = false) :
    (pollMapGate st).clock = st.clock := by
  rw [pollMapGate]
  split
  · rfl
  · exact clock_applyMapGate_of_allowed hg hm

theorem allowed_of_not_offers {hook : Hook} (h : ¬ st.OffersBlacklisted hook) {offered : Bytes}
    (hmem : offered ∈ st.offers hook) : mapNameMatchesBlacklist offered st.mapBlacklist = false := by
  rw [Bool.eq_false_iff]
  intro hm
  exact h ⟨offered, hmem, hm⟩

theorem clock_onLevelInit_of_allowed {mapName : Option Bytes} (hg : st.gate.suspended = false)
    (h : ¬ st.OffersBlacklisted (.onLevelInit mapName)) :
    (onLevelInit st mapName).clock = st.clock := by
  have hlive : mapNameMatchesBlacklist (buildMapIdentity st.world) st.mapBlacklist = false :=
    allowed_of_not_offers h (by simp [State.offers])
  unfold onLevelInit
  cases mapName with
  | none => exact clock_pollMapGate_of_allowed hg hlive
  | some mapName =>
    have hname : mapNameMatchesBlacklist mapName st.mapBlacklist = false :=
      allowed_of_not_offers h (by simp [State.offers])
    dsimp only
    split
    · have hclock := clock_applyMapGate_of_allowed hg hname
      have hg' : (applyMapGate st mapName).gate.suspended = false :=
        (congrArg Clock.suspended hclock).trans hg
      rw [clock_pollMapGate_of_allowed hg', hclock]
      rwa [buildMapIdentity_of_onlyMemory onlyMemory_applyMapGate, mapBlacklist_applyMapGate]
    · exact clock_pollMapGate_of_allowed hg hlive

theorem clock_mapChange_of_allowed (hg : st.gate.suspended = false)
    (hmap : isMapChangeCommand name = true)
    (h : ¬ st.OffersBlacklisted (.dispatchConCommandPost (some name) arguments)) :
    (dispatchConCommandPost E st (some name) arguments).clock = st.clock := by
  have hoffer : ∀ offered, offered ∈ arguments[1]?.toList ++ [buildMapIdentity st.world] →
      mapNameMatchesBlacklist offered st.mapBlacklist = false := by
    intro offered hmem
    exact allowed_of_not_offers h (by rwa [State.offers, if_pos hmap])
  have hlive := hoffer (buildMapIdentity st.world) (by simp)
  simp only [dispatchConCommandPost, hmap, if_true]
  cases harg : arguments[1]? with
  | none => exact clock_pollMapGate_of_allowed hg hlive
  | some arg =>
    have hhint : hintMapGate st arg = st := by
      rw [hintMapGate, if_pos]
      exact Or.inr (by simp [hoffer arg (by simp [harg])])
    dsimp only
    rw [hhint]
    exact clock_pollMapGate_of_allowed hg hlive

theorem clock_gameFrame_of_allowed {nowSec : Float} (hg : st.gate.suspended = false)
    (h : ¬ st.OffersBlacklisted (.gameFrame nowSec)) :
    (gameFrame E st nowSec).clock = st.clock.ticked st.world.serverAlive := by
  have hlive : mapNameMatchesBlacklist (buildMapIdentity st.world) st.mapBlacklist = false :=
    allowed_of_not_offers h (by simp [State.offers])
  have hpoll := clock_pollMapGate_of_allowed hg hlive
  have hg' : (pollMapGate st).gate.suspended = false :=
    (congrArg Clock.suspended hpoll).trans hg
  rw [gameFrame]
  dsimp only
  rw [if_neg (by simp [hg']), clock_jitterPings, ← hpoll, ← serverAlive_pollMapGate,
    ← clock_tickVoteTransaction]
  rfl

theorem not_settles (hname : name ≠ ascii "callvote") (hmap : isMapChangeCommand name = false) :
    ¬ Command.settles tokens (some name, arguments) := by
  rintro (hvote | ⟨_, hint, heq, hmap', -, -⟩)
  · simp [Command.isCallvote, hname] at hvote
  · rw [← Option.some.inj heq, hmap] at hmap'
    simp at hmap'

namespace Clock.HeldFor

variable {c : Clock}

theorem push (h : c.HeldFor tokens n stack) : c.HeldFor tokens n (command :: stack) where
  onItsWay := h.onItsWay.push
  hosted := h.hosted
  isOpen := h.isOpen
  lasts := h.lasts.imp_right fun hl => hl.imp_right
    fun ⟨other, hmem, hsettles⟩ => ⟨other, List.mem_cons_of_mem _ hmem, hsettles⟩
  renewed := h.renewed

theorem entered (h : c.HeldFor tokens n stack) (named : Int × Bytes)
    (hok : (name = ascii "callvote" ∨ isKickCommand name = true) →
      c.depth + 1 ≠ 0 ∧ c.population + 1 ≠ 0)
    (hadd : isBotAddCommand name = false) :
    (c.entered name named).HeldFor tokens n ((some name, arguments) :: stack) := by
  have hway : (c.entered name named).OnItsWay ((some name, arguments) :: stack) :=
    h.onItsWay.entered named hok
  have hkick : isKickCommand name = true →
      c.openedForKick.suspended = false ∧ c.openedForKick.depth ≠ 0 ∧
      (c.population ≠ 0 → c.openedForKick.population ≠ 0) ∧
      c.openedForKick.hold = c.hold ∧ c.openedForKick.holdFrames = c.holdFrames := by
    intro hk
    obtain ⟨hd, hp⟩ := hok (Or.inr hk)
    rw [Clock.openedForKick]
    split
    · exact ⟨h.hosted, hd, fun _ => hp, rfl, rfl⟩
    · exact ⟨h.hosted, h.isOpen, id, rfl, rfl⟩
  have hopened : isKickCommand name = true →
      c.openedForKick.OnItsWay ((some name, arguments) :: stack) →
      c.openedForKick.HeldFor tokens n ((some name, arguments) :: stack) := by
    intro hk hway
    obtain ⟨hs, hd, hp, hh, hf⟩ := hkick hk
    refine ⟨hway, hs, hd, ?_, by rw [hf]; exact h.renewed⟩
    rw [hh]
    exact h.push.lasts.imp_right fun hl => hl.imp_left hp
  rw [Clock.entered, if_neg (by simp [h.hosted])] at hway ⊢
  split at hway
  · rename_i hname
    rw [if_pos hname]
    exact ⟨hway, h.hosted, (hok (Or.inl hname)).1, h.push.lasts, h.renewed⟩
  · rename_i hname
    rw [if_neg hname]
    split at hway
    · rename_i hk
      rw [if_pos hk]
      split
      · exact hopened hk (by rwa [if_pos ‹_›] at hway)
      · rename_i hnamed
        rw [if_neg hnamed] at hway
        split
        · exact h.push
        · exact hopened hk (by rwa [if_neg ‹_›] at hway)
    · rename_i hk
      rw [if_neg hk, if_neg (by simp [hadd])]
      exact h.push

theorem pop (h : c.HeldFor tokens n (command :: stack)) (hk : command.isKick = false)
    (hc : ¬ command.settles tokens) : c.HeldFor tokens n stack where
  onItsWay := h.onItsWay.pop hk (by simpa using fun hvote => hc (Or.inl hvote))
  hosted := h.hosted
  isOpen := h.isOpen
  lasts := by simpa [hc] using h.lasts
  renewed := h.renewed

/-- The command that ends was not the one the window waits for, or it schedules the window anew. -/
theorem left (h : c.HeldFor tokens n ((some name, arguments) :: stack))
    (hmap : isMapChangeCommand name = false) :
    (c.left name).HeldFor tokens n stack := by
  have hway : (c.left name).OnItsWay stack :=
    h.onItsWay.left fun _ hs => by simp [h.hosted] at hs
  have hscheduled : ∀ c' : Clock, c'.suspended = false → c'.depth ≠ 0 →
      c'.holdFrames = c.holdFrames → c'.scheduledEnd.OnItsWay stack →
      c'.scheduledEnd.HeldFor tokens n stack := by
    intro c' hs hd hf hway
    rw [Clock.scheduledEnd, if_neg hd] at hway ⊢
    have hhold : n ≤ min (max c'.holdFrames 1) 32 := by
      have hrenewed := h.renewed
      omega
    exact ⟨hway, hs, hd, Or.inl hhold, by rw [hf]; exact h.renewed⟩
  rw [Clock.left, if_neg (by simp [h.hosted])] at hway ⊢
  split at hway
  · rename_i hname
    rw [if_pos hname]
    exact hscheduled c h.hosted h.isOpen rfl hway
  · rename_i hname
    have hlasts : n ≤ c.hold ∨ c.population ≠ 0 ∨ ∃ command ∈ stack, command.settles tokens := by
      refine h.lasts.imp_right fun hl => hl.imp_right ?_
      rw [List.exists_mem_cons_iff]
      exact fun hsettles => hsettles.resolve_left (not_settles hname hmap)
    rw [if_neg hname]
    split at hway
    · rename_i hk
      rw [if_pos hk]
      rw [Clock.kickEnded] at hway ⊢
      split at hway
      · rename_i hp
        rw [if_pos hp]
        exact ⟨hway, h.hosted, h.isOpen, hlasts, h.renewed⟩
      · rename_i hp
        rw [if_neg hp]
        split at hway
        · rename_i hp'
          rw [if_pos hp']
          exact hscheduled _ h.hosted h.isOpen rfl hway
        · rename_i hp'
          rw [if_neg hp']
          exact ⟨hway, h.hosted, h.isOpen, Or.inr (Or.inl hp'), h.renewed⟩
    · rename_i hk
      rw [if_neg hk]
      exact ⟨hway, h.hosted, h.isOpen, hlasts, h.renewed⟩

/-- A frame with more than one to go only counts down. -/
theorem ticked (h : c.HeldFor tokens n []) (hn : 1 < n) : (c.ticked true).HeldFor tokens (n - 1) [] := by
  have hway := h.onItsWay.ticked true
  have hp : c.population = 0 := UInt32.toNat.inj (Nat.le_zero.mp h.onItsWay.counted)
  have hhold : n ≤ c.hold := by
    rcases h.lasts with hhold | hpop | ⟨command, hmem, -⟩
    · exact hhold
    · exact absurd hp hpop
    · simp at hmem
  have hs : c.scheduled = true := by
    rw [← Bool.not_eq_false]
    intro hs
    rcases h.onItsWay.owned h.isOpen hs with hpop | ⟨vote, hmem, -⟩
    · exact hpop hp
    · simp at hmem
  have heq : c.ticked true = { c with hold := c.hold - 1 } := by
    have hhold' : 1 < c.hold := by omega
    simp [Clock.ticked, h.isOpen, hs, hhold']
  rw [heq] at hway ⊢
  have hleft : n - 1 ≤ c.hold - 1 := by omega
  have hrenewed := h.renewed
  exact ⟨hway, h.hosted, h.isOpen, Or.inl hleft, by dsimp only; omega⟩

end Clock.HeldFor

theorem heldFor_step (htokens : st.mapBlacklist = tokens) (h : st.clock.HeldFor tokens n stack)
    (hbrackets : Calls.Brackets stack ev.move)
    (hframe : FrameBetweenCommands (st, stack) ev) (hok : EndsCounted st ev)
    (hquiet : NotInterrupted st ev) (hn : ev.isFrame = true → 1 < n) :
    (step E st ev).clock.HeldFor tokens (if ev.isFrame then n - 1 else n)
      (Calls.inFlight Event.move stack st ev) := by
  obtain ⟨w, hook⟩ := ev
  obtain ⟨hoffers, hhook⟩ := hquiet
  have hst : (st.withWorld w).clock.HeldFor tokens n stack := h
  cases hook with
  | onClientConnected slot pszName xuid fakePlayer =>
    rw [step, runHook, clock_onClientConnected]
    exact hst
  | clientPutInServer slot =>
    rw [step, runHook, clock_clientPutInServer]
    exact hst
  | clientDisconnect slot reason =>
    rw [step, runHook, clock_clientDisconnect]
    exact hst
  | dispatchConCommandPre command arguments =>
    cases command with
    | none => exact h.push
    | some name =>
      rw [step, runHook, clock_dispatchConCommandPre]
      exact hst.entered _ hok hhook
  | dispatchConCommandPost command arguments =>
    obtain ⟨rest, rfl⟩ := List.head?_eq_some_iff.mp hbrackets
    cases command with
    | none => exact h.pop rfl (by simp [Command.settles, Command.isCallvote])
    | some name =>
      cases hmap : isMapChangeCommand name with
      | true =>
        have hother : isKickCommand name = false ∧ name ≠ ascii "callvote" := by
          simp only [isMapChangeCommand, decide_eq_true_eq] at hmap
          rcases hmap with rfl | rfl | rfl | rfl <;> decide
        rw [step, runHook, clock_mapChange_of_allowed hst.hosted hmap hoffers]
        refine hst.pop hother.1 ?_
        rintro (hvote | ⟨_, hint, -, -, hhint, hm⟩)
        · simp [Command.isCallvote, hother.2] at hvote
        · refine hoffers ⟨hint, ?_, by rw [← htokens] at hm; exact hm⟩
          rw [State.offers, if_pos hmap, hhint]
          simp
      | false =>
        rw [step, runHook, clock_dispatchConCommandPost hmap]
        exact hst.left hmap
  | gameFrame nowSec =>
    obtain rfl : stack = [] := hframe rfl
    have halive : (st.withWorld w).world.serverAlive = true := hhook
    rw [step, runHook, clock_gameFrame_of_allowed hst.hosted hoffers, halive]
    exact hst.ticked (hn rfl)
  | onLevelInit mapName =>
    rw [step, runHook, clock_onLevelInit_of_allowed hst.hosted hoffers]
    exact hst

theorem Undisturbed.tail (h : Undisturbed E stack st (ev :: later)) :
    Undisturbed E (Calls.inFlight Event.move stack st ev) (step E st ev) later :=
  ⟨h.nested.2, h.frames.2, h.counted.2, h.quiet.2⟩

theorem Undisturbed.cons (hbrackets : Calls.Brackets stack ev.move)
    (hframe : FrameBetweenCommands (st, stack) ev) (hok : EndsCounted st ev)
    (hquiet : NotInterrupted st ev)
    (h : Undisturbed E (Calls.inFlight Event.move stack st ev) (step E st ev) later) :
    Undisturbed E stack st (ev :: later) :=
  ⟨⟨hbrackets, h.nested⟩, ⟨hframe, h.frames⟩, ⟨hok, h.counted⟩, ⟨hquiet, h.quiet⟩⟩

/-- A window that is held for more frames than a run has is still open after the run. -/
theorem open_of_heldFor (htokens : st.mapBlacklist = tokens) (h : st.clock.HeldFor tokens n stack)
    (hlater : Undisturbed E stack st later)
    (hn : (framesIn later : Int) < n) : (run (step E) st later).vote.depth ≠ 0 := by
  induction later generalizing n st stack with
  | nil => exact h.isOpen
  | cons ev later ih =>
    have hcount : (framesIn (ev :: later) : Int) =
        framesIn later + if ev.isFrame then 1 else 0 := by
      rw [framesIn, List.countP_cons]
      push_cast
      rfl
    have hpos : 0 ≤ (framesIn later : Int) := Int.natCast_nonneg _
    have hstep := heldFor_step (E := E) htokens h hlater.nested.1 hlater.frames.1 hlater.counted.1
      hlater.quiet.1 (fun hframe => by rw [hcount, if_pos hframe] at hn; omega)
    refine ih (gate_step.2.trans htokens) hstep hlater.tail ?_
    split at hcount <;> rename_i hframe
    · rw [if_pos hframe]
      omega
    · rw [if_neg hframe]
      omega

/-- The commands in flight end one after another, and then frames pass, on a server with no map. -/
def unwinding (stack : List Command) (frames : Nat) : List Event :=
  stack.map (fun command => onNobody (.dispatchConCommandPost command.1 command.2)) ++
    List.replicate frames (onNobody (.gameFrame 0))

theorem framesIn_unwinding {frames : Nat} : framesIn (unwinding stack frames) = frames := by
  have hposts : framesIn
      (stack.map fun command => onNobody (.dispatchConCommandPost command.1 command.2)) = 0 := by
    rw [framesIn, List.countP_eq_zero]
    intro ev hev
    obtain ⟨command, -, rfl⟩ := List.mem_map.mp hev
    simp [Event.isFrame, onNobody]
  have hframes : framesIn (List.replicate frames (onNobody (.gameFrame 0))) = frames := by
    rw [framesIn, List.countP_eq_length.mpr, List.length_replicate]
    intro ev hev
    rw [List.eq_of_mem_replicate hev]
    rfl
  rw [unwinding, framesIn, List.countP_append]
  exact (congrArg₂ (· + ·) hposts hframes).trans (Nat.zero_add _)

/-- An open window that runs out although nothing disturbs it: its end is scheduled, and no command
in flight will move it. -/
structure Clock.RunsOut (tokens : List Bytes) (c : Clock) (stack : List Command) : Prop where
  hosted : c.suspended = false
  isOpen : c.depth ≠ 0
  scheduled : c.scheduled = true
  uncounted : c.population = 0
  unsettled : ∀ command ∈ stack, ¬ command.settles tokens

theorem not_offers_onNobody (htokens : st.mapBlacklist = tokens) (hc : ¬ command.settles tokens) :
    ¬ (st.withWorld (onNobody (.dispatchConCommandPost command.1 command.2)).world).OffersBlacklisted
      (.dispatchConCommandPost command.1 command.2) := by
  rintro ⟨offered, hmem, hm⟩
  obtain ⟨_ | name, arguments⟩ := command
  · simp [State.offers] at hmem
  · rw [State.offers] at hmem
    split at hmem
    · rename_i hmap
      rcases List.mem_append.mp hmem with hhint | hlive
      · rw [Option.mem_toList] at hhint
        exact hc (Or.inr ⟨name, offered, rfl, hmap, hhint, htokens ▸ hm⟩)
      · obtain rfl := List.mem_singleton.mp hlive
        simp [State.withWorld, onNobody, buildMapIdentity, World.engineMapName,
          World.engineAddonName, World.ofClients, mapNameMatchesBlacklist] at hm
    · simp at hmem

theorem clock_post_of_runsOut (htokens : st.mapBlacklist = tokens)
    (h : st.clock.RunsOut tokens (command :: stack)) :
    (step E st (onNobody (.dispatchConCommandPost command.1 command.2))).clock = st.clock := by
  have hc : ¬ command.settles tokens := h.unsettled command List.mem_cons_self
  have hoffers := not_offers_onNobody htokens hc
  obtain ⟨_ | name, arguments⟩ := command
  · rfl
  · cases hmap : isMapChangeCommand name with
    | true => exact clock_mapChange_of_allowed h.hosted hmap hoffers
    | false =>
      have hname : name ≠ ascii "callvote" := by
        rintro rfl
        exact hc (Or.inl rfl)
      rw [step, onNobody, runHook, clock_dispatchConCommandPost hmap, clock_withWorld, Clock.left,
        if_neg (by simp [h.hosted]), if_neg hname, Clock.kickEnded, if_pos h.uncounted, ite_self]

theorem frame_onNobody (hg : st.clock.suspended = false) :
    NotInterrupted st (onNobody (.gameFrame 0)) ∧
      (step E st (onNobody (.gameFrame 0))).clock = st.clock.ticked true := by
  have hoffers : ¬ (st.withWorld (onNobody (.gameFrame 0)).world).OffersBlacklisted (.gameFrame 0) := by
    rintro ⟨offered, hmem, hm⟩
    rw [State.offers, List.mem_singleton] at hmem
    simp [hmem, State.withWorld, onNobody, buildMapIdentity, World.engineMapName,
      World.engineAddonName, World.ofClients, mapNameMatchesBlacklist] at hm
  exact ⟨⟨hoffers, rfl⟩, clock_gameFrame_of_allowed hg hoffers⟩

theorem runs_out_in_frames {frames : Nat} (htokens : st.mapBlacklist = tokens)
    (h : st.clock.RunsOut tokens []) (hhold : st.clock.hold = (frames + 1 : Nat)) :
    Undisturbed E [] st (List.replicate (frames + 1) (onNobody (.gameFrame 0))) ∧
      (run (step E) st (List.replicate (frames + 1) (onNobody (.gameFrame 0)))).vote.depth = 0 := by
  induction frames generalizing st with
  | zero =>
    obtain ⟨hquiet, hclock⟩ := frame_onNobody (E := E) h.hosted
    have hreset : (step E st (onNobody (.gameFrame 0))).clock = st.clock.reset := by
      rw [hclock, Clock.ticked, if_neg (by simp [h.isOpen]), if_neg (by simp),
        if_neg (by simp [h.scheduled]), if_neg (by simp [hhold])]
    exact ⟨.cons trivial (fun _ => rfl) trivial hquiet ⟨trivial, trivial, trivial, trivial⟩,
      congrArg Clock.depth hreset⟩
  | succ frames ih =>
    obtain ⟨hquiet, hclock⟩ := frame_onNobody (E := E) h.hosted
    have hlong : 1 < st.clock.hold := by
      rw [hhold]
      omega
    have hcount : (step E st (onNobody (.gameFrame 0))).clock =
        { st.clock with hold := st.clock.hold - 1 } := by
      rw [hclock]
      simp [Clock.ticked, h.isOpen, h.scheduled, hlong]
    have hruns : (step E st (onNobody (.gameFrame 0))).clock.RunsOut tokens [] := by
      rw [hcount]
      exact ⟨h.hosted, h.isOpen, h.scheduled, h.uncounted, h.unsettled⟩
    have hleft : (step E st (onNobody (.gameFrame 0))).clock.hold = (frames + 1 : Nat) := by
      rw [hcount]
      dsimp only
      omega
    have hnext := ih (gate_step.2.trans htokens) hruns hleft
    exact ⟨.cons trivial (fun _ => rfl) trivial hquiet hnext.1, hnext.2⟩

/-- When every command in flight has ended, the frames that are left close the window. -/
theorem runs_out {frames : Nat} (htokens : st.mapBlacklist = tokens)
    (h : st.clock.RunsOut tokens stack) (hhold : st.clock.hold = (frames + 1 : Nat)) :
    Undisturbed E stack st (unwinding stack (frames + 1)) ∧
      (run (step E) st (unwinding stack (frames + 1))).vote.depth = 0 := by
  induction stack generalizing st with
  | nil => exact runs_out_in_frames htokens h hhold
  | cons command rest ih =>
    obtain ⟨name, arguments⟩ := command
    have hclock := clock_post_of_runsOut (E := E) htokens h
    have hruns :
        (step E st (onNobody (.dispatchConCommandPost name arguments))).clock.RunsOut tokens rest := by
      rw [hclock]
      exact ⟨h.hosted, h.isOpen, h.scheduled, h.uncounted,
        fun c hc => h.unsettled c (List.mem_cons_of_mem _ hc)⟩
    have hnext := ih (gate_step.2.trans htokens) hruns (by rw [hclock, hhold])
    refine ⟨.cons rfl (fun hframe => by simp [Event.isFrame, onNobody] at hframe) ?_ ?_ hnext.1,
      hnext.2⟩
    · cases name with
      | none => trivial
      | some name => exact fun _ hs => absurd hs (by simp [show st.gate.suspended = false from h.hosted])
    · refine ⟨not_offers_onNobody htokens (h.unsettled _ List.mem_cons_self), trivial⟩

theorem Clock.Turn.holdFrames {c c' : Clock} (h : c.Turn c') : c'.holdFrames = c.holdFrames := by
  have hgated : ∀ (c : Clock) b, (c.gated b).holdFrames = c.holdFrames := by
    intro c b
    rw [Clock.gated]
    split <;> rfl
  have hend : ∀ c : Clock, c.scheduledEnd.holdFrames = c.holdFrames := by
    intro c
    rw [Clock.scheduledEnd]
    split <;> rfl
  have hopened : c.openedForKick.holdFrames = c.holdFrames := by
    rw [Clock.openedForKick]
    split <;> rfl
  cases h with
  | stay => rfl
  | enter name named =>
    rw [Clock.entered]
    repeat' split
    all_goals first | rfl | exact hopened
  | leave name =>
    rw [Clock.left]
    split
    · rfl
    · split
      · exact hend c
      · rw [Clock.kickEnded]
        repeat' split
        all_goals first | rfl | exact hend _
  | judge b b' => rw [hgated, hgated]
  | suspend => exact hgated c true
  | tick alive =>
    rw [Clock.ticked]
    repeat' split
    all_goals exact hgated c false

theorem holdFrames_run : (run (step E) st es).clock.holdFrames = st.clock.holdFrames :=
  run_invariant_of_step (I := fun st' : State => st'.clock.holdFrames = st.clock.holdFrames)
    (fun _ _ h => clock_step.holdFrames.trans h) rfl

theorem clock_load {features : PluginFeatures} {mapBlacklist : List Bytes} {pool : LoadedPool}
    {mapped : Bool} {draws : Nat → Nat} {w : World} :
    ∃ b, (load features mapBlacklist pool mapped draws w).clock =
      Clock.gated ⟨features.voteTransactionHoldFrames, false, 0, false, 0, 0⟩ b :=
  ⟨_, clock_pollMapGate⟩

/-- A command that leaves a window open gets its full hold exactly when it is a vote, is counted,
finds that many frames left already, or runs inside a command that settles the window. -/
theorem full_hold_iff {features : PluginFeatures} {mapBlacklist : List Bytes} {pool : LoadedPool}
    {mapped : Bool} {draws : Nat → Nat} {w₀ : World} (hN : features.voteTransactionHoldFrames ≤ 32)
    (hn : Calls.Nested (step E) Event.move [] (load features mapBlacklist pool mapped draws w₀) es)
    (hok : Guarded (step E) EndsCounted (load features mapBlacklist pool mapped draws w₀) es)
    (hflight : commandsInFlight E [] (load features mapBlacklist pool mapped draws w₀) es =
      (some name, arguments) :: rest)
    (hname : name = ascii "callvote" ∨ isKickCommand name = true) :
    let st := run (step E) (load features mapBlacklist pool mapped draws w₀) es
    let ended := step E st ⟨w, .dispatchConCommandPost (some name) arguments⟩
    st.gate.suspended = false → st.vote.depth ≠ 0 →
      ((∀ later, Undisturbed E rest ended later →
          (framesIn later : Int) < features.voteTransactionHoldFrames →
          (run (step E) ended later).vote.depth ≠ 0) ↔
        (features.voteTransactionHoldFrames ≤ st.vote.holdFramesRemaining ∨
          st.populationDepth ≠ 0 ∨
          ∃ command ∈ (some name, arguments) :: rest, Command.settles mapBlacklist command)) := by
  intro st ended hg hopen
  have hway : st.clock.OnItsWay ((some name, arguments) :: rest) := by
    have hrun := onItsWay_run hn hok onItsWay_load
    rwa [hflight] at hrun
  have hframes : st.clock.holdFrames = features.voteTransactionHoldFrames := by
    obtain ⟨b, hclock⟩ := @clock_load features mapBlacklist pool mapped draws w₀
    rw [holdFrames_run, hclock, Clock.gated]
    split <;> rfl
  have htokens : st.mapBlacklist = mapBlacklist :=
    run_invariant_of_step (I := fun st : State => st.mapBlacklist = mapBlacklist)
      (fun _ _ h => gate_step.2.trans h) mapBlacklist_pollMapGate
  have hmap : isMapChangeCommand name = false := by
    rcases hname with rfl | hk
    · decide
    · simp only [isKickCommand, decide_eq_true_eq] at hk
      rcases hk with rfl | rfl | rfl | rfl <;> decide
  have hended : ended.clock = st.clock.left name := clock_dispatchConCommandPost hmap
  have hended_tokens : ended.mapBlacklist = mapBlacklist := gate_step.2.trans htokens
  constructor
  · intro hlasts
    by_contra hshort
    rw [not_or, not_or, not_le, not_not] at hshort
    obtain ⟨hhold, hcount, hnone⟩ := hshort
    have hpop : st.clock.population = 0 := hcount
    have hunsettled : ∀ command ∈ (some name, arguments) :: rest, ¬ Command.settles mapBlacklist command :=
      fun command hmem hc => hnone ⟨command, hmem, hc⟩
    have hvote : name ≠ ascii "callvote" := by
      rintro rfl
      exact hunsettled _ List.mem_cons_self (Or.inl rfl)
    have hs : st.vote.endScheduled = true := by
      rw [← Bool.not_eq_false]
      intro hs
      rcases hway.owned hopen hs with hcounted | ⟨command, hmem, hc⟩
      · exact hcounted hpop
      · exact hunsettled command hmem (Or.inl hc)
    -- the command's own hook does nothing, and what is left of the old hold runs out
    have hsame : ended.clock = st.clock := by
      rw [hended, Clock.left, if_neg (by simp [show st.clock.suspended = false from hg]),
        if_neg hvote, Clock.kickEnded, if_pos hpop, ite_self]
    have hruns : ended.clock.RunsOut mapBlacklist rest := by
      rw [hsame]
      exact ⟨hg, hopen, hs, hpop, fun c hc => hunsettled c (List.mem_cons_of_mem _ hc)⟩
    obtain ⟨-, hpos, -⟩ := hway.scheduled hs
    obtain ⟨frames, hfr⟩ : ∃ frames : Nat, st.clock.hold = (frames + 1 : Nat) :=
      ⟨(st.clock.hold - 1).toNat, by omega⟩
    obtain ⟨hquiet, hclosed⟩ := runs_out hended_tokens hruns (hsame ▸ hfr)
    refine hlasts _ hquiet ?_ hclosed
    rw [framesIn_unwinding, ← hfr]
    exact hhold
  · intro hlasts later hlater hcount
    have hheld : st.clock.HeldFor mapBlacklist features.voteTransactionHoldFrames
        ((some name, arguments) :: rest) :=
      ⟨hway, hg, hopen, hlasts, by rw [hframes]; exact ⟨le_rfl, hN⟩⟩
    have hleft : ended.clock.HeldFor mapBlacklist features.voteTransactionHoldFrames rest := by
      rw [hended]
      exact hheld.left hmap
    exact open_of_heldFor hended_tokens hleft hlater hcount

/-- A vote with a bot on the server gets the three frames of its hold. -/
theorem full_hold_after_vote :
    let es := [onSolo (.dispatchConCommandPre (some (ascii "callvote")) [])]
    let ended := step .idle (run (step .idle) soloLoad es)
      (onSolo (.dispatchConCommandPost (some (ascii "callvote")) []))
    ∀ later, Undisturbed .idle [] ended later → (framesIn later : Int) < 3 →
      (run (step .idle) ended later).vote.depth ≠ 0 := by
  intro es
  have hn : Calls.Nested (step .idle) Event.move [] soloLoad es := ⟨trivial, trivial⟩
  have hok : Guarded (step .idle) EndsCounted soloLoad es := ⟨fun _ => by decide +kernel, trivial⟩
  exact (full_hold_iff (by decide) hn hok rfl (Or.inl rfl) (by decide +kernel)
    (by decide +kernel)).mpr (Or.inr (Or.inr ⟨_, List.mem_cons_self, Or.inl rfl⟩))

/-- A vote, and two frames later a kick that reuses its window. -/
def reusedWindowRun : List Event :=
  [onSolo (.dispatchConCommandPre (some (ascii "callvote")) []),
    onSolo (.dispatchConCommandPost (some (ascii "callvote")) []), onSolo (.gameFrame 0),
    onSolo (.gameFrame 0), onSolo (.dispatchConCommandPre (some (ascii "bot_kick")) [ascii "bot_kick"])]

/-- The first frame after the kick already closes the window that the kick found open. -/
theorem reused_window_closes_early :
    let st := run (step .idle) soloLoad reusedWindowRun
    let ended := step .idle st
      (onSolo (.dispatchConCommandPost (some (ascii "bot_kick")) [ascii "bot_kick"]))
    Calls.Nested (step .idle) Event.move [] soloLoad reusedWindowRun ∧
      (st.gate.suspended = false ∧ ended.vote.depth ≠ 0 ∧
        st.features.voteTransactionHoldFrames = 3) ∧
      Undisturbed .idle [] ended [onSolo (.gameFrame 0)] ∧
      (step .idle ended (onSolo (.gameFrame 0))).vote.depth = 0 := by
  refine ⟨⟨trivial, rfl, trivial, trivial, trivial, trivial⟩, by decide +kernel,
    ⟨⟨trivial, trivial⟩, ⟨fun _ => rfl, trivial⟩, ⟨trivial, trivial⟩, ⟨⟨?_, rfl⟩, trivial⟩⟩,
    by decide +kernel⟩
  rintro ⟨offered, hmem, hm⟩
  obtain rfl : offered = [] := List.mem_singleton.mp hmem
  simp [mapNameMatchesBlacklist] at hm

end Botid
