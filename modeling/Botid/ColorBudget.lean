import Botid.Budget
import Botid.ColorRules
import Botid.Machine

/-! Forced color writes over whole runs: at most three per lease, and none once the slot gave up. -/
namespace Botid
namespace Colors

open Machine

variable {E : Peers} {team : UInt8} {taken : Taken} {lease lease' : Lease} {leases leases' : Leases}
  {bot : Player} {bots : List Player} {players : List (Option Player)} {s : Int} {o : Outcome}

/-- What happens to a slot's lease, as far as the bound on writes goes. -/
inductive LeaseEvent
  | reset (slot : Int)
  | wrote (slot : Int)
  | gaveUp (slot : Int)
  deriving DecidableEq

def Turn.events (t : Turn) : List LeaseEvent :=
  (if t.reset then [.reset t.bot.slot] else []) ++
    match t.outcome with
    | .wrote _ => [.wrote t.bot.slot]
    | .gaveUp _ => [.gaveUp t.bot.slot]
    | _ => []

/-- What the plugin is called for, with everything it gets to see at that time. -/
inductive ColorInput
  | reconcile (E : Peers) (isConnected : Bool) (getPlayers : UInt8 → List (Option Player))
  | clientDisconnect (slot : Int)

/-- The leases, and the log of what happened to them. -/
structure ColorState where
  leases : Leases := fun _ => {}
  log : List LeaseEvent := []

def colorStep (st : ColorState) : ColorInput → ColorState
  | .reconcile E isConnected getPlayers =>
    let pass := reconcileTeammateColors E isConnected getPlayers st.leases
    { leases := pass.1, log := st.log ++ pass.2.flatMap Turn.events }
  | .clientDisconnect slot =>
    { leases := onClientDisconnect st.leases slot,
      log := st.log ++ if inSlots slot then [.reset slot] else [] }

/-- Between two resets of a slot's lease at most three writes go to it, and none behind its giving up. -/
def WritesBounded (log : List LeaseEvent) (s : Int) : Prop :=
  ∀ pre seg post, log = pre ++ (seg ++ post) → .reset s ∉ seg →
    seg.count (.wrote s) ≤ maxForceWrites.toNat ∧
      ∀ a b, seg = a ++ .gaveUp s :: b → .wrote s ∉ b

/-- The events of one slot, as its budget sees them. -/
def kindFor (s : Int) : LeaseEvent → Budget.Kind
  | .reset slot => if slot = s then .reset else .other
  | .wrote slot => if slot = s then .spend else .other
  | .gaveUp slot => if slot = s then .stop else .other

/-- What a lease has left to write. -/
def Lease.left (l : Lease) : Nat := (maxForceWrites - l.forceWrites).toNat

/-- From one lease to the next, the log is within what the first leaves, up to what the second does. -/
def Spends (s : Int) (lease : Lease) (log : List LeaseEvent) (lease' : Lease) : Prop :=
  ∀ more, Budget.Within (kindFor s) maxForceWrites.toNat lease'.left lease'.gaveUp more →
    Budget.Within (kindFor s) maxForceWrites.toNat lease.left lease.gaveUp (log ++ more)

theorem Spends.nil : Spends s lease [] lease := fun _ h => h

theorem Spends.append {lease'' : Lease} {log log' : List LeaseEvent} (h : Spends s lease log lease')
    (h' : Spends s lease' log' lease'') : Spends s lease (log ++ log') lease'' := by
  intro more hmore
  rw [List.append_assoc]
  exact h _ (h' more hmore)

/-- What happens on other slots is no expense of this one. -/
theorem Spends.other {log : List LeaseEvent} (h : ∀ e ∈ log, kindFor s e = .other) :
    Spends s lease log lease := by
  intro more hmore
  induction log with
  | nil => exact hmore
  | cons e log ih =>
    rw [List.cons_append, Budget.Within, h e List.mem_cons_self]
    exact ih fun e' he' => h e' (List.mem_cons_of_mem e he')

/-- A reset starts a new budget. -/
theorem Spends.reset (hleft : lease'.left = maxForceWrites.toNat) (hlive : lease'.gaveUp = false) :
    Spends s lease [.reset s] lease' := by
  intro more hmore
  rw [hleft, hlive] at hmore
  simpa [Budget.Within, kindFor] using hmore

theorem Spends.renew : Spends bot.slot lease (if isStale E lease bot then [.reset bot.slot] else [])
    (renewLease E lease bot) := by
  rw [renewLease]
  split
  · exact .reset rfl rfl
  · exact .nil

/-- One turn's outcome, on the lease it is on. -/
theorem TurnStep.spends (h : TurnStep E taken lease bot lease' o) :
    Spends bot.slot lease (Turn.events ⟨bot, false, o⟩) lease' := by
  intro more hmore
  cases h with
  | reserved | unset | kept | failed => exact hmore
  | gaveUp live free chosen spent =>
    simpa [Turn.events, Budget.Within, kindFor, Lease.left] using hmore
  | wrote live free chosen left success =>
    have hkind : kindFor bot.slot (.wrote bot.slot) = .spend := if_pos rfl
    have hleft : (maxForceWrites - (lease.forceWrites + 1)).toNat =
        (maxForceWrites - lease.forceWrites).toNat - 1 := by omega
    change Budget.Within _ _ _ _ (.wrote bot.slot :: more)
    rw [Budget.Within, hkind]
    simp only [Lease.left, hleft, live] at hmore ⊢
    exact ⟨by omega, trivial, hmore⟩

theorem botTurn_spends : Spends bot.slot lease
    (Turn.events ⟨bot, isStale E lease bot, (botTurn E taken lease bot).2⟩)
    (botTurn E taken lease bot).1 :=
  Spends.renew.append botTurn_step.spends

/-- A turn's events are about the bot's own slot. -/
theorem kindFor_events {t : Turn} (h : t.bot.slot ≠ s) : ∀ e ∈ t.events, kindFor s e = .other := by
  intro e he
  have hslot : e = .reset t.bot.slot ∨ e = .wrote t.bot.slot ∨ e = .gaveUp t.bot.slot := by
    rcases List.mem_append.mp he with he | he
    · split at he
      · exact Or.inl (List.mem_singleton.mp he)
      · cases he
    · split at he
      · exact Or.inr (Or.inl (List.mem_singleton.mp he))
      · exact Or.inr (Or.inr (List.mem_singleton.mp he))
      · cases he
  rcases hslot with rfl | rfl | rfl
  · exact if_neg h
  · exact if_neg h
  · exact if_neg h

theorem botLoop_spends : Spends s (leases s) ((botLoop E taken leases bots).2.flatMap Turn.events)
    ((botLoop E taken leases bots).1 s) := by
  induction bots generalizing taken leases with
  | nil => exact .nil
  | cons bot bots ih =>
    rw [botLoop]
    split
    · dsimp only
      rw [List.flatMap_cons]
      refine Spends.append ?_ ih
      by_cases hs : bot.slot = s
      · subst hs
        rw [Function.update_self]
        exact botTurn_spends
      · rw [Function.update_of_ne (Ne.symm hs)]
        exact .other (kindFor_events hs)
    · exact ih

theorem colorStep_spends (s : Int) (st : ColorState) (input : ColorInput) : ∃ log,
    (colorStep st input).log = st.log ++ log ∧
      Spends s (st.leases s) log ((colorStep st input).leases s) := by
  cases input with
  | reconcile E isConnected getPlayers =>
    refine ⟨_, rfl, ?_⟩
    dsimp only [colorStep]
    rw [reconcileTeammateColors]
    split
    · dsimp only
      rw [List.flatMap_append]
      exact botLoop_spends.append botLoop_spends
    · exact .nil
  | clientDisconnect slot =>
    refine ⟨_, rfl, ?_⟩
    dsimp only [colorStep]
    rw [onClientDisconnect]
    split
    · rw [clearColorLease]
      by_cases hs : slot = s
      · subst hs
        rw [Function.update_self]
        exact .reset rfl rfl
      · rw [Function.update_of_ne (Ne.symm hs)]
        refine .other fun e he => ?_
        rw [List.mem_singleton.mp he]
        exact if_neg hs
    · exact .nil

/-- The whole run spends from the leases it starts with. -/
theorem run_spends (s : Int) (st : ColorState) (inputs : List ColorInput) : ∃ log,
    (run colorStep st inputs).log = st.log ++ log ∧
      Spends s (st.leases s) log ((run colorStep st inputs).leases s) := by
  induction inputs generalizing st with
  | nil => exact ⟨[], (List.append_nil st.log).symm, .nil⟩
  | cons input inputs ih =>
    obtain ⟨log, hlog, hspends⟩ := colorStep_spends s st input
    obtain ⟨rest, hrest, hspends'⟩ := ih (colorStep st input)
    refine ⟨log ++ rest, ?_, hspends.append hspends'⟩
    rw [run_cons, hrest, hlog, List.append_assoc]

theorem kindFor_spend {e : LeaseEvent} : kindFor s e = .spend ↔ e = .wrote s := by
  cases e with
  | reset slot | gaveUp slot =>
    rw [kindFor]
    split <;> simp
  | wrote slot => simp [kindFor]

theorem kindFor_reset {e : LeaseEvent} : kindFor s e = .reset ↔ e = .reset s := by
  cases e with
  | reset slot => simp [kindFor]
  | wrote slot | gaveUp slot =>
    rw [kindFor]
    split <;> simp

theorem color_writes_bounded (inputs : List ColorInput) (s : Int) :
    WritesBounded (run colorStep {} inputs).log s := by
  intro pre seg post hlog hseg
  obtain ⟨log, hrun, hspends⟩ := run_spends s {} inputs
  have hwithin : Budget.Within (kindFor s) maxForceWrites.toNat 3 false (pre ++ (seg ++ post)) := by
    have h := hspends [] trivial
    rwa [List.append_nil, ← List.nil_append log, ← hrun, hlog] at h
  have hreset : ∀ e ∈ seg, kindFor s e ≠ .reset := by
    intro e he hk
    rw [kindFor_reset.mp hk] at he
    exact hseg he
  obtain ⟨hspent, hstop⟩ := hwithin.segment (by decide) hreset
  constructor
  · refine le_of_eq_of_le ?_ hspent
    rw [List.count, Budget.spent]
    refine List.countP_congr fun e _ => ?_
    simp [kindFor_spend]
  · intro a b hsplit hmem
    exact hstop a _ b hsplit (if_pos rfl) _ hmem (if_pos rfl)

end Colors
end Botid
