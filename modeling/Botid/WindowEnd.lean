import Botid.Calls
import Botid.Clock
import Botid.MapHint

/-! Between commands an open window is always on its way to closing. -/
namespace Botid

open Machine

/-- A console command and its arguments, as both of its hooks receive them. -/
abbrev Command := Option Bytes × List Bytes

def Hook.move : Hook → Calls.Move Command
  | .dispatchConCommandPre command arguments => .enter (command, arguments)
  | .dispatchConCommandPost command arguments => .leave (command, arguments)
  | _ => .stay

def Event.move (ev : Event) : Calls.Move Command := ev.hook.move

/-- The console commands that have begun and not ended, innermost first. -/
def commandsInFlight (E : EngineCalls) (stack : List Command) (st : State) (es : List Event) :
    List Command :=
  observe (step E) (Calls.inFlight Event.move) st stack es

def Command.isKick (c : Command) : Bool := c.1.any isKickCommand

def Command.isCallvote (c : Command) : Bool := c.1 = some (ascii "callvote")

/-- No counter wraps when a command begins, and no kick that hosting counted ends while a
suspension mutes its hook. -/
def EndsCounted (st : State) (ev : Event) : Prop :=
  match ev.hook with
  | .dispatchConCommandPre (some name) _ =>
    (name = ascii "callvote" ∨ isKickCommand name = true) →
      st.vote.depth + 1 ≠ 0 ∧ st.populationDepth + 1 ≠ 0
  | .dispatchConCommandPost (some name) _ =>
    isKickCommand name = true → st.gate.suspended = true → st.populationDepth = 0
  | _ => True

/-- The clock against the commands in flight. -/
structure Clock.OnItsWay (c : Clock) (stack : List Command) : Prop where
  /-- Every counted kick is still in flight. -/
  counted : c.population.toNat ≤ stack.countP Command.isKick
  /-- A window without an end belongs to a command that will schedule one. -/
  owned : c.depth ≠ 0 → c.scheduled = false →
    c.population ≠ 0 ∨ ∃ vote ∈ stack, vote.isCallvote = true
  scheduled : c.scheduled = true → c.depth ≠ 0 ∧ 1 ≤ c.hold ∧ c.hold ≤ 32
  closed : c.suspended = true → c.depth = 0

namespace Clock.OnItsWay

variable {c : Clock} {stack : List Command} {command : Command} {name : Bytes}

theorem reset (h : c.OnItsWay stack) : c.reset.OnItsWay stack where
  counted := h.counted
  owned := fun hd => absurd rfl hd
  scheduled := fun hs => by simp [Clock.reset] at hs
  closed := fun _ => rfl

theorem gated (h : c.OnItsWay stack) (b : Bool) : (c.gated b).OnItsWay stack := by
  rw [Clock.gated]
  split
  · exact ⟨h.counted, h.reset.owned, h.reset.scheduled, fun _ => rfl⟩
  · rename_i hb
    refine ⟨h.counted, h.owned, h.scheduled, fun hs => h.closed ?_⟩
    have hb' : b = true := hs
    simpa [hb'] using hb

theorem ticked (h : c.OnItsWay stack) (alive : Bool) : (c.ticked alive).OnItsWay stack := by
  rw [Clock.ticked]
  split
  · exact h
  · split
    · exact h.reset
    · split
      · exact h
      · split
        · rename_i hs hhold
          have hs : c.scheduled = true := by simpa using hs
          obtain ⟨hd, -, h32⟩ := h.scheduled hs
          have hpos : 1 ≤ c.hold - 1 := by omega
          have hle : c.hold - 1 ≤ 32 := by omega
          exact ⟨h.counted, h.owned, fun _ => ⟨hd, hpos, hle⟩, h.closed⟩
        · exact h.reset

/-- A command that leaves the clock alone may begin at any time. -/
theorem push (h : c.OnItsWay stack) : c.OnItsWay (command :: stack) where
  counted := h.counted.trans (List.suffix_cons command stack).countP_le
  owned := fun hd hs => (h.owned hd hs).imp_right
    fun ⟨vote, hmem, hvote⟩ => ⟨vote, List.mem_cons_of_mem _ hmem, hvote⟩
  scheduled := h.scheduled
  closed := h.closed

theorem push_callvote (h : c.OnItsWay stack) (hs : c.suspended = false) (hd : c.depth + 1 ≠ 0)
    (hc : command.isCallvote = true) : c.opened.OnItsWay (command :: stack) where
  counted := h.push.counted
  owned := fun _ _ => Or.inr ⟨command, List.mem_cons_self, hc⟩
  scheduled := fun he => ⟨hd, (h.scheduled he).2⟩
  closed := fun h' => by simp [Clock.opened, hs] at h'

theorem push_kick (h : c.OnItsWay stack) (hs : c.suspended = false) (hd : c.depth + 1 ≠ 0)
    (hp : c.population + 1 ≠ 0) (hk : command.isKick = true) :
    c.openedForKick.OnItsWay (command :: stack) := by
  rw [Clock.openedForKick]
  split
  · refine ⟨?_, fun _ _ => Or.inl hp, fun he => ⟨hd, (h.scheduled he).2⟩, fun h' => ?_⟩
    · have hcounted := h.counted
      have hnat : (c.population + 1).toNat ≤ c.population.toNat + 1 := by
        rw [UInt32.toNat_add]
        exact Nat.mod_le _ _
      rw [List.countP_cons_of_pos hk]
      exact hnat.trans (by omega)
    · have hs' : c.suspended = true := h'
      simp [hs] at hs'
  · exact h.push

/-- A command's `Pre` hook. -/
theorem entered (h : c.OnItsWay stack) (named : Int × Bytes) {arguments : List Bytes}
    (hok : (name = ascii "callvote" ∨ isKickCommand name = true) →
      c.depth + 1 ≠ 0 ∧ c.population + 1 ≠ 0) :
    (c.entered name named).OnItsWay ((some name, arguments) :: stack) := by
  rw [Clock.entered]
  split
  · exact h.push
  · rename_i hs
    have hs : c.suspended = false := by simpa using hs
    split
    · rename_i hname
      exact h.push_callvote hs (hok (Or.inl hname)).1 (by simp [Command.isCallvote, hname])
    · split
      · rename_i hkick
        obtain ⟨hd, hp⟩ := hok (Or.inr hkick)
        have hopened : c.openedForKick.OnItsWay ((some name, arguments) :: stack) :=
          h.push_kick hs hd hp hkick
        split
        · exact hopened
        · split
          · exact h.push
          · exact hopened
      · split
        · exact h.reset.push
        · exact h.push

theorem scheduledEnd (hcounted : c.population.toNat ≤ stack.countP Command.isKick)
    (hclosed : c.suspended = true → c.depth = 0)
    (hidle : c.depth = 0 → c.scheduled = false) : c.scheduledEnd.OnItsWay stack := by
  rw [Clock.scheduledEnd]
  split
  · rename_i hd
    exact ⟨hcounted, fun hd' => absurd hd hd', fun hs => by simp [hidle hd] at hs, hclosed⟩
  · rename_i hd
    have hpos : 1 ≤ min (max c.holdFrames 1) 32 := by omega
    have hle : min (max c.holdFrames 1) 32 ≤ 32 := by omega
    exact ⟨hcounted, fun _ hs => by simp at hs, fun _ => ⟨hd, hpos, hle⟩, hclosed⟩

theorem idle (h : c.OnItsWay stack) (hd : c.depth = 0) : c.scheduled = false := by
  rw [Bool.eq_false_iff]
  intro hs
  exact (h.scheduled hs).1 hd

/-- A command that counts no kick and calls no vote may end at any time. -/
theorem pop (h : c.OnItsWay (command :: stack)) (hk : command.isKick = false)
    (hc : command.isCallvote = false) : c.OnItsWay stack where
  counted := by simpa [List.countP_cons, hk] using h.counted
  owned := fun hd hs => (h.owned hd hs).imp_right fun hvote => by simpa [hc] using hvote
  scheduled := h.scheduled
  closed := h.closed

theorem pop_callvote (h : c.OnItsWay (command :: stack)) (hk : command.isKick = false) :
    c.scheduledEnd.OnItsWay stack :=
  scheduledEnd (by simpa [List.countP_cons, hk] using h.counted) h.closed h.idle

theorem pop_kick (h : c.OnItsWay (command :: stack)) (hk : command.isKick = true)
    (hc : command.isCallvote = false) : c.kickEnded.OnItsWay stack := by
  have hcounted := h.counted
  rw [List.countP_cons_of_pos hk] at hcounted
  rw [Clock.kickEnded]
  split
  · rename_i hp
    refine ⟨by simp [hp], fun hd hs => Or.inr ?_, h.scheduled, h.closed⟩
    rcases h.owned hd hs with hp' | hvote
    · exact absurd hp hp'
    · simpa [hc] using hvote
  · rename_i hp
    have hnat : (c.population - 1).toNat + 1 = c.population.toNat := by
      have hpos : c.population.toNat ≠ 0 := fun h0 => hp (UInt32.toNat.inj h0)
      have hone : (1 : UInt32) ≤ c.population := by
        rw [UInt32.le_iff_toNat_le]
        exact Nat.one_le_iff_ne_zero.mpr hpos
      rw [UInt32.toNat_sub_of_le _ _ hone]
      have htoNat : (1 : UInt32).toNat = 1 := rfl
      omega
    have hcounted' : (c.population - 1).toNat ≤ stack.countP Command.isKick := by omega
    split
    · exact scheduledEnd hcounted' h.closed h.idle
    · rename_i hp'
      exact ⟨hcounted', fun _ _ => Or.inl hp', h.scheduled, h.closed⟩

/-- The `Post` hook of a command that changes no map. -/
theorem left {arguments : List Bytes} (h : c.OnItsWay ((some name, arguments) :: stack))
    (hok : isKickCommand name = true → c.suspended = true → c.population = 0) :
    (c.left name).OnItsWay stack := by
  have hkick : Command.isKick (some name, arguments) = isKickCommand name := rfl
  have hvote : Command.isCallvote (some name, arguments) = decide (name = ascii "callvote") := by
    simp [Command.isCallvote]
  rw [Clock.left]
  split
  · rename_i hs
    -- a muted hook: nothing is open, and a kick may only end if it was never counted
    refine ⟨?_, fun hd => absurd (h.closed hs) hd, fun he => absurd (h.closed hs) (h.scheduled he).1,
      h.closed⟩
    by_cases hk : isKickCommand name = true
    · simp [hok hk hs]
    · simpa [List.countP_cons, hkick, hk] using h.counted
  · split
    · rename_i hname
      subst hname
      exact h.pop_callvote (hkick.trans (by decide))
    · rename_i hname
      split
      · rename_i hk
        exact h.pop_kick hk (by simp [hvote, hname])
      · rename_i hk
        exact h.pop (by simpa [hkick] using hk) (by simp [hvote, hname])

end Clock.OnItsWay

variable {E : EngineCalls} {st : State} {ev : Event} {stack : List Command} {command : Command}

theorem onItsWay_stay (hmove : ev.move = .stay) (h : st.clock.OnItsWay stack) :
    (step E st ev).clock.OnItsWay stack := by
  obtain ⟨w, hook⟩ := ev
  have hst : (st.withWorld w).clock.OnItsWay stack := h
  cases hook with
  | dispatchConCommandPre command arguments => simp [Event.move, Hook.move] at hmove
  | dispatchConCommandPost command arguments => simp [Event.move, Hook.move] at hmove
  | onClientConnected slot pszName xuid fakePlayer =>
    rw [step, runHook, clock_onClientConnected]
    exact hst
  | clientPutInServer slot =>
    rw [step, runHook, clock_clientPutInServer]
    exact hst
  | clientDisconnect slot reason =>
    rw [step, runHook, clock_clientDisconnect]
    exact hst
  | gameFrame nowSec =>
    obtain ⟨b, hclock⟩ := @clock_gameFrame E (st.withWorld w) nowSec
    rw [step, runHook, hclock]
    split
    · exact hst.gated true
    · exact (hst.gated false).ticked _
  | onLevelInit mapName =>
    obtain ⟨b, b', hclock⟩ := @clock_onLevelInit (st.withWorld w) mapName
    rw [step, runHook, hclock]
    exact (hst.gated b).gated b'

theorem onItsWay_enter (hok : EndsCounted st ev) (hmove : ev.move = .enter command)
    (h : st.clock.OnItsWay stack) : (step E st ev).clock.OnItsWay (command :: stack) := by
  obtain ⟨w, hook⟩ := ev
  cases hook with
  | dispatchConCommandPre name arguments =>
    obtain rfl : (name, arguments) = command := Calls.Move.enter.inj hmove
    cases name with
    | none => exact h.push
    | some name =>
      rw [step, runHook, clock_dispatchConCommandPre]
      exact Clock.OnItsWay.entered h _ hok
  | onClientConnected | clientPutInServer | clientDisconnect | dispatchConCommandPost | gameFrame
  | onLevelInit => simp [Event.move, Hook.move] at hmove

theorem onItsWay_leave (hok : EndsCounted st ev) (hmove : ev.move = .leave command)
    (h : st.clock.OnItsWay (command :: stack)) : (step E st ev).clock.OnItsWay stack := by
  obtain ⟨w, hook⟩ := ev
  cases hook with
  | dispatchConCommandPost name arguments =>
    obtain rfl : (name, arguments) = command := Calls.Move.leave.inj hmove
    cases name with
    | none => exact h.pop rfl rfl
    | some name =>
      cases hmap : isMapChangeCommand name with
      | true =>
        obtain ⟨b, b', hclock⟩ := @clock_dispatchConCommandPost_map E (st.withWorld w) name arguments hmap
        have hother : isKickCommand name = false ∧ name ≠ ascii "callvote" := by
          simp only [isMapChangeCommand, decide_eq_true_eq] at hmap
          rcases hmap with rfl | rfl | rfl | rfl <;> decide
        rw [step, runHook, hclock]
        have hpop : st.clock.OnItsWay stack :=
          h.pop hother.1 (by simp [Command.isCallvote, hother.2])
        exact (hpop.gated b).gated b'
      | false =>
        rw [step, runHook, clock_dispatchConCommandPost hmap]
        exact Clock.OnItsWay.left h hok
  | onClientConnected | clientPutInServer | clientDisconnect | dispatchConCommandPre | gameFrame
  | onLevelInit => simp [Event.move, Hook.move] at hmove

/-- The clock against the commands in flight, at every moment of a bracketed run. -/
theorem onItsWay_run {es : List Event} (hn : Calls.Nested (step E) Event.move stack st es)
    (hok : Guarded (step E) EndsCounted st es) (h : st.clock.OnItsWay stack) :
    (run (step E) st es).clock.OnItsWay (commandsInFlight E stack st es) :=
  Calls.nested_invariant (I := fun st stack => st.clock.OnItsWay stack)
    (fun _ _ _ _ hmove h => onItsWay_stay hmove h)
    (fun _ _ _ _ hok hmove h => onItsWay_enter hok hmove h)
    (fun _ _ _ _ hok hmove h => onItsWay_leave hok hmove h) hn hok h

theorem onItsWay_load {features : PluginFeatures} {mapBlacklist : List Bytes} {pool : LoadedPool}
    {mapped : Bool} {draws : Nat → Nat} {w : World} :
    (load features mapBlacklist pool mapped draws w).clock.OnItsWay [] := by
  rw [load, clock_pollMapGate]
  apply Clock.OnItsWay.gated
  exact ⟨Nat.le_refl _, fun hd => absurd rfl hd, fun hs => by simp [State.clock] at hs, fun _ => rfl⟩

/-- With no command in flight no kick is counted, and an open window has a scheduled end at most 32
frames away. -/
theorem open_window_closes_soon {features : PluginFeatures} {mapBlacklist : List Bytes}
    {pool : LoadedPool} {mapped : Bool} {draws : Nat → Nat} {w : World} {es : List Event}
    (hn : Calls.Nested (step E) Event.move [] (load features mapBlacklist pool mapped draws w) es)
    (hok : Guarded (step E) EndsCounted (load features mapBlacklist pool mapped draws w) es)
    (hidle : commandsInFlight E [] (load features mapBlacklist pool mapped draws w) es = []) :
    let st := run (step E) (load features mapBlacklist pool mapped draws w) es
    st.populationDepth = 0 ∧
      (st.vote.depth ≠ 0 → st.vote.endScheduled = true ∧ 1 ≤ st.vote.holdFramesRemaining ∧
        st.vote.holdFramesRemaining ≤ 32) ∧
      (st.vote.depth = 0 → st.vote.endScheduled = false) := by
  intro st
  have h : st.clock.OnItsWay [] := by
    have hrun := onItsWay_run hn hok onItsWay_load
    rwa [hidle] at hrun
  have hp : st.populationDepth = 0 := UInt32.toNat.inj (Nat.le_zero.mp h.counted)
  refine ⟨hp, fun hd => ?_, h.idle⟩
  have hend : st.vote.endScheduled = true := by
    rw [← Bool.not_eq_false]
    intro hs
    rcases h.owned hd hs with hcount | ⟨vote, hmem, -⟩
    · exact hcount hp
    · simp at hmem
  exact ⟨hend, (h.scheduled hend).2⟩

/-- A vote is called, and a frame passes. -/
def heldVoteRun : List Event :=
  [onSolo (.dispatchConCommandPre (some (ascii "callvote")) []),
    onSolo (.dispatchConCommandPost (some (ascii "callvote")) []), onSolo (.gameFrame 0)]

theorem open_window_closes_soon_after_vote :
    let st := run (step .idle) soloLoad heldVoteRun
    st.vote.depth ≠ 0 ∧ 1 ≤ st.vote.holdFramesRemaining ∧ st.vote.holdFramesRemaining ≤ 32 := by
  have hn : Calls.Nested (step .idle) Event.move [] soloLoad heldVoteRun :=
    ⟨trivial, rfl, trivial, trivial⟩
  have hok : Guarded (step .idle) EndsCounted soloLoad heldVoteRun :=
    ⟨fun _ => by decide, fun h => absurd h (by decide), trivial, trivial⟩
  have hopen : (run (step .idle) soloLoad heldVoteRun).vote.depth ≠ 0 := by decide +kernel
  exact ⟨hopen, ((open_window_closes_soon hn hok rfl).2.1 hopen).2⟩

/-- The level changes to a refused map while a kick is in flight. -/
def interruptedKickRun : List Event :=
  [onSolo (.dispatchConCommandPre (some (ascii "bot_kick")) [ascii "bot_kick"]),
    onSolo (.onLevelInit (some (ascii "surf_ski_2"))),
    onSolo (.dispatchConCommandPost (some (ascii "bot_kick")) [ascii "bot_kick"])]

/-- The muted `Post` hook never takes the kick off the count. -/
theorem interrupted_kick_stays_counted :
    Calls.Nested (step .idle) Event.move [] (surfBlacklistLoad []) interruptedKickRun ∧
      commandsInFlight .idle [] (surfBlacklistLoad []) interruptedKickRun = [] ∧
      (run (step .idle) (surfBlacklistLoad []) interruptedKickRun).populationDepth = 1 :=
  ⟨⟨trivial, trivial, rfl, trivial⟩, rfl, by decide +kernel⟩

end Botid
