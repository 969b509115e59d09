import Botid.ColorBudget
import Botid.Revalidation
import Botid.StuckColors

/-! Both plugins on one server: the lease that a color pass works on was started for the bot that is there. -/
namespace Botid
namespace Colors

open Machine ByteMem

/-- The native plugin and the C# plugin's leases. What is remembered beside them: the hooks so far, and of
each lease, after how many of them it was started. -/
structure Server where
  plugin : State
  leases : Leases := fun _ => {}
  hooks : List Event := []
  since : Int → Option Nat := fun _ => none

inductive ServerInput
  | hook (ev : Event)
  | reconcile (isConnected : Bool) (m : Mem) (tryWrite : Player → Int → Bool)
    (getPlayers : UInt8 → List (Option Player))
  | clientDisconnect (slot : Int)

/-- A pass on the region `m`. -/
def Server.pass (srv : Server) (isConnected : Bool) (m : Mem) (tryWrite : Player → Int → Bool)
    (getPlayers : UInt8 → List (Option Player)) : Leases × List Turn :=
  reconcileTeammateColors (.ofRegion m tryWrite) isConnected getPlayers srv.leases

def serverStep (E : EngineCalls) (srv : Server) : ServerInput → Server
  | .hook ev => { srv with plugin := step E srv.plugin ev, hooks := srv.hooks ++ [ev] }
  | .reconcile isConnected m tryWrite getPlayers =>
    let done := srv.pass isConnected m tryWrite getPlayers
    { srv with
      leases := done.1
      since := fun s => if done.2.any fun t => t.reset && t.bot.slot = s then some srv.hooks.length
        else srv.since s }
  | .clientDisconnect slot =>
    { srv with
      leases := onClientDisconnect srv.leases slot
      since := if inSlots slot then Function.update srv.since slot none else srv.since }

/-- A pass reads the region as the native plugin has left it. -/
def ReadsRegion (srv : Server) : ServerInput → Prop
  | .reconcile _ m _ _ => ShmView.Refines (some m) srv.plugin.shm
  | _ => True

variable {E : EngineCalls} {P : Peers} {s : Int} {lease lease' lease'' : Lease} {turns turns' : List Turn}
  {bot : Player} {taken : Taken} {leases : Leases} {bots : List Player} {o : Outcome} {srv : Server}
  {input : ServerInput} {st₀ : State} {isConnected : Bool} {m : Mem} {tryWrite : Player → Int → Bool}
  {getPlayers : UInt8 → List (Option Player)} {t : Turn}

/-- What turns do to the lease of one slot: nothing if none is on it, and else they leave it to the
slot's incarnation, which it already had unless one of them reset it. -/
def Follows (P : Peers) (s : Int) (lease lease' : Lease) (turns : List Turn) : Prop :=
  (∀ t ∈ turns, t.bot.slot ≠ s) ∧ lease' = lease ∨
    (∃ t ∈ turns, t.bot.slot = s) ∧ lease'.incarnation = P.getSlotIncarnation s ∧
      ((∀ t ∈ turns, t.bot.slot = s → t.reset = false) →
        lease.incarnation = P.getSlotIncarnation s ∧ lease.team ≠ 0)

theorem Follows.nil : Follows P s lease lease [] := Or.inl ⟨List.forall_mem_nil _, rfl⟩

theorem Follows.append (h : Follows P s lease lease' turns) (h' : Follows P s lease' lease'' turns') :
    Follows P s lease lease'' (turns ++ turns') := by
  rcases h with ⟨hnone, rfl⟩ | ⟨⟨t, ht, hs⟩, hleft, hkept⟩
  · rcases h' with ⟨hnone', rfl⟩ | ⟨⟨t, ht, hs⟩, hleft, hkept⟩
    · left
      refine ⟨fun t ht => ?_, rfl⟩
      rcases List.mem_append.mp ht with ht | ht
      · exact hnone t ht
      · exact hnone' t ht
    · right
      exact ⟨⟨t, List.mem_append_right _ ht, hs⟩, hleft,
        fun hreset => hkept fun t ht => hreset t (List.mem_append_right _ ht)⟩
  · right
    refine ⟨⟨t, List.mem_append_left _ ht, hs⟩, ?_,
      fun hreset => hkept fun t ht => hreset t (List.mem_append_left _ ht)⟩
    rcases h' with ⟨-, rfl⟩ | ⟨-, hleft', -⟩
    · exact hleft
    · exact hleft'

theorem incarnation_renewLease :
    (renewLease P lease bot).incarnation = P.getSlotIncarnation bot.slot := by
  rw [renewLease]
  split
  · rfl
  · rename_i hfresh
    simp only [isStale, Bool.or_eq_true, decide_eq_true_eq, not_or, not_not] at hfresh
    exact hfresh.1

theorem TurnStep.incarnation_eq (h : TurnStep P taken lease bot lease' o) :
    lease'.incarnation = lease.incarnation := by
  cases h <;> rfl

theorem botTurn_follows (hteam : bot.teamNum ≠ 0) : Follows P bot.slot lease (botTurn P taken lease bot).1
    [⟨bot, isStale P lease bot, (botTurn P taken lease bot).2⟩] := by
  right
  refine ⟨⟨_, List.mem_cons_self, rfl⟩, botTurn_step.incarnation_eq.trans incarnation_renewLease, ?_⟩
  intro hreset
  have hfresh : isStale P lease bot = false := hreset _ List.mem_cons_self rfl
  simp only [isStale, Bool.or_eq_false_iff, decide_eq_false_iff_not, not_not] at hfresh
  exact ⟨hfresh.1, hfresh.2 ▸ hteam⟩

theorem botLoop_follows (h : ∀ bot ∈ bots, bot.teamNum ≠ 0) (s : Int) :
    Follows P s (leases s) ((botLoop P taken leases bots).1 s) (botLoop P taken leases bots).2 := by
  induction bots generalizing taken leases with
  | nil => exact .nil
  | cons bot bots ih =>
    have hrest := fun bot' hbot => h bot' (List.mem_cons_of_mem bot hbot)
    rw [botLoop]
    split
    · dsimp only
      have htail := @ih ((botTurn P taken (leases bot.slot) bot).2.added.toList ++ taken)
        (Function.update leases bot.slot (botTurn P taken (leases bot.slot) bot).1) hrest
      refine @Follows.append _ _ _ _ _ [_] _ ?_ htail
      by_cases hs : bot.slot = s
      · subst hs
        rw [Function.update_self]
        exact botTurn_follows (h bot List.mem_cons_self)
      · rw [Function.update_of_ne (Ne.symm hs)]
        exact Or.inl ⟨fun t ht => by rwa [List.mem_singleton.mp ht], rfl⟩
    · exact ih hrest

theorem pass_follows (s : Int) : Follows (.ofRegion m tryWrite) s (srv.leases s)
    ((srv.pass isConnected m tryWrite getPlayers).1 s) (srv.pass isConnected m tryWrite getPlayers).2 := by
  rw [Server.pass, reconcileTeammateColors]
  split
  · refine Follows.append (botLoop_follows (fun bot hbot => ?_) s) (botLoop_follows (fun bot hbot => ?_) s)
    · rw [teamNum_of_mem_teamBots hbot]
      decide
    · rw [teamNum_of_mem_teamBots hbot]
      decide
  · exact .nil

/-- A turn is on a slot whose cells say it is managed. -/
theorem managed_of_pass (h : RegionOf srv.plugin.shm m)
    (ht : t ∈ (srv.pass isConnected m tryWrite getPlayers).2) :
    inSlots t.bot.slot = true ∧ (srv.plugin.shm.slot t.bot.slot).slotState ≠ 0 := by
  rw [Server.pass, reconcileTeammateColors] at ht
  split at ht
  · dsimp only at ht
    have hbot : ∃ team players, t.bot ∈ teamBots (.ofRegion m tryWrite) team players := by
      rcases List.mem_append.mp ht with ht | ht
      · exact ⟨_, _, mem_of_botLoop ht⟩
      · exact ⟨_, _, mem_of_botLoop ht⟩
    obtain ⟨team, players, hbot⟩ := hbot
    have hmanaged := (mem_teamBots.mp hbot).2
    rw [isTeamBot, Bool.and_eq_true] at hmanaged
    exact (isManaged_ofRegion h).mp hmanaged.2
  · cases ht

/-- The region `n` hooks after the start. -/
def Server.shmAfter (E : EngineCalls) (st₀ : State) (srv : Server) (n : Nat) : Shm :=
  (run (step E) st₀ (srv.hooks.take n)).shm

/-- A lease that was started is of the incarnation that its slot had then; one that was not is of no
team. -/
structure Owned (E : EngineCalls) (st₀ : State) (srv : Server) : Prop where
  plugin : srv.plugin = run (step E) st₀ srv.hooks
  none : ∀ s, inSlots s = true → srv.since s = none → (srv.leases s).team = 0
  some : ∀ s k, inSlots s = true → srv.since s = some k → k ≤ srv.hooks.length ∧
    (srv.leases s).incarnation = ((srv.shmAfter E st₀ k).slot s).incarnation

theorem Owned.shm_eq (h : Owned E st₀ srv) : srv.shmAfter E st₀ srv.hooks.length = srv.plugin.shm := by
  rw [Server.shmAfter, List.take_length, h.plugin]

theorem Owned.hook {ev : Event} (h : Owned E st₀ srv) : Owned E st₀ (serverStep E srv (.hook ev)) := by
  refine ⟨?_, h.none, fun s k hs hk => ?_⟩
  · simp [serverStep, run_append, h.plugin]
  · obtain ⟨hle, hlease⟩ := h.some s k hs hk
    have hshm : Server.shmAfter E st₀ (serverStep E srv (.hook ev)) k = srv.shmAfter E st₀ k := by
      simp [Server.shmAfter, serverStep, List.take_append_of_le_length hle]
    rw [hshm]
    exact ⟨by simpa [serverStep] using Nat.le_succ_of_le hle, hlease⟩

theorem Owned.clientDisconnect {slot : Int} (h : Owned E st₀ srv) :
    Owned E st₀ (serverStep E srv (.clientDisconnect slot)) := by
  have hcases : ∀ s, inSlots s = true →
      ((serverStep E srv (.clientDisconnect slot)).since s = .none ∧
        (serverStep E srv (.clientDisconnect slot)).leases s = {}) ∨
      ((serverStep E srv (.clientDisconnect slot)).since s = srv.since s ∧
        (serverStep E srv (.clientDisconnect slot)).leases s = srv.leases s) := by
    intro s hs
    dsimp only [serverStep]
    rw [onClientDisconnect]
    by_cases hslot : inSlots slot = true
    · rw [if_pos hslot, if_pos hslot, clearColorLease]
      by_cases hss : s = slot
      · subst hss
        exact Or.inl ⟨Function.update_self _ _ _, Function.update_self _ _ _⟩
      · exact Or.inr ⟨Function.update_of_ne hss _ _, Function.update_of_ne hss _ _⟩
    · rw [if_neg hslot, if_neg hslot]
      exact Or.inr ⟨rfl, rfl⟩
  refine ⟨h.plugin, fun s hs hnone => ?_, fun s k hs hk => ?_⟩
  · rcases hcases s hs with ⟨-, hlease⟩ | ⟨hsince, hlease⟩
    · rw [hlease]
    · rw [hlease]
      exact h.none s hs (hsince.symm.trans hnone)
  · rcases hcases s hs with ⟨hsince, -⟩ | ⟨hsince, hlease⟩
    · rw [hsince] at hk
      cases hk
    · rw [hlease]
      exact h.some s k hs (hsince.symm.trans hk)

/-- After a pass with a turn on the slot, its lease was started at the incarnation that the slot has. -/
theorem since_pass (h : Owned E st₀ srv) (hm : RegionOf srv.plugin.shm m) (hs : inSlots s = true)
    (hturn : ∃ t ∈ (srv.pass isConnected m tryWrite getPlayers).2, t.bot.slot = s) :
    ((srv.pass isConnected m tryWrite getPlayers).1 s).incarnation = (srv.plugin.shm.slot s).incarnation ∧
      ∃ k ≤ srv.hooks.length,
        (serverStep E srv (.reconcile isConnected m tryWrite getPlayers)).since s = some k ∧
        ((srv.shmAfter E st₀ k).slot s).incarnation = (srv.plugin.shm.slot s).incarnation := by
  have hfollows := @pass_follows srv isConnected m tryWrite getPlayers s
  rw [Follows, getSlotIncarnation_ofRegion hm hs] at hfollows
  rcases hfollows with ⟨hnone, -⟩ | ⟨-, hleft, hkept⟩
  · obtain ⟨t, ht, hts⟩ := hturn
    exact absurd hts (hnone t ht)
  · refine ⟨hleft, ?_⟩
    dsimp only [serverStep]
    by_cases hreset : ((srv.pass isConnected m tryWrite getPlayers).2.any fun t =>
        t.reset && t.bot.slot = s) = true
    · rw [if_pos hreset]
      exact ⟨_, Nat.le_refl _, rfl, by rw [h.shm_eq]⟩
    · rw [if_neg hreset]
      have hnot : ∀ t ∈ (srv.pass isConnected m tryWrite getPlayers).2, t.bot.slot = s →
          t.reset = false := by
        intro t ht hts
        by_contra hne
        exact hreset (List.any_eq_true.mpr ⟨t, ht, by simp [hts, hne]⟩)
      obtain ⟨hlease, hteam⟩ := hkept hnot
      cases hsince : srv.since s with
      | none => exact absurd (h.none s hs hsince) hteam
      | some k =>
        obtain ⟨hle, hstarted⟩ := h.some s k hs hsince
        exact ⟨k, hle, rfl, hstarted.symm.trans hlease⟩

theorem Owned.reconcile (h : Owned E st₀ srv) (hm : RegionOf srv.plugin.shm m) :
    Owned E st₀ (serverStep E srv (.reconcile isConnected m tryWrite getPlayers)) := by
  have hidle : ∀ s, (∀ t ∈ (srv.pass isConnected m tryWrite getPlayers).2, t.bot.slot ≠ s) →
      (serverStep E srv (.reconcile isConnected m tryWrite getPlayers)).since s = srv.since s ∧
      (serverStep E srv (.reconcile isConnected m tryWrite getPlayers)).leases s = srv.leases s := by
    intro s hnone
    have hlease : (srv.pass isConnected m tryWrite getPlayers).1 s = srv.leases s := by
      rcases @pass_follows srv isConnected m tryWrite getPlayers s with ⟨-, heq⟩ | ⟨⟨t, ht, hts⟩, -⟩
      · exact heq
      · exact absurd hts (hnone t ht)
    refine ⟨if_neg ?_, hlease⟩
    rw [List.any_eq_true]
    rintro ⟨t, ht, hreset⟩
    simp only [Bool.and_eq_true, decide_eq_true_eq] at hreset
    exact hnone t ht hreset.2
  have hturn : ∀ s, (∀ t ∈ (srv.pass isConnected m tryWrite getPlayers).2, t.bot.slot ≠ s) ∨
      ∃ t ∈ (srv.pass isConnected m tryWrite getPlayers).2, t.bot.slot = s := by
    intro s
    by_contra hnot
    push Not at hnot
    obtain ⟨⟨t, ht, hts⟩, hnone⟩ := hnot
    exact hnone t ht hts
  refine ⟨h.plugin, fun s hs hnone => ?_, fun s k hs hk => ?_⟩
  · rcases hturn s with hno | hyes
    · obtain ⟨hsince, hlease⟩ := hidle s hno
      rw [hlease]
      exact h.none s hs (hsince.symm.trans hnone)
    · obtain ⟨-, k, -, hsince, -⟩ := since_pass h hm hs hyes
      cases hsince.symm.trans hnone
  · rcases hturn s with hno | hyes
    · obtain ⟨hsince, hlease⟩ := hidle s hno
      rw [hlease]
      exact h.some s k hs (hsince.symm.trans hk)
    · obtain ⟨hleft, j, hle, hsince, hstarted⟩ := since_pass h hm hs hyes
      obtain rfl : j = k := Option.some.inj (hsince.symm.trans hk)
      exact ⟨hle, hleft.trans hstarted.symm⟩

theorem owned_run {inputs : List ServerInput}
    (hreads : Guarded (serverStep E) ReadsRegion { plugin := st₀ } inputs) :
    Owned E st₀ (run (serverStep E) { plugin := st₀ } inputs) := by
  refine run_invariant (fun srv input hread h => ?_) hreads
    ⟨rfl, fun _ _ _ => rfl, fun _ _ _ hk => by cases hk⟩
  cases input with
  | hook ev => exact h.hook
  | reconcile isConnected m tryWrite getPlayers => exact h.reconcile hread.2
  | clientDisconnect slot => exact h.clientDisconnect

/-- Between two moments of the run at which a managed slot has the same incarnation, nothing happened to
its occupant. -/
theorem occupant_kept {k n : Nat} (h : Owned E st₀ srv) (hm : srv.plugin.shm.mapped = true)
    (hs : inSlots s = true) (hlen : srv.hooks.length < 2 ^ 64) (hkn : k ≤ n) (hn : n ≤ srv.hooks.length)
    (hstate : (srv.plugin.shm.slot s).slotState ≠ 0)
    (hsame : ((srv.shmAfter E st₀ k).slot s).incarnation = (srv.plugin.shm.slot s).incarnation) :
    ((srv.shmAfter E st₀ n).slot s).slotState ≠ 0 ∧
      (srv.shmAfter E st₀ n).record s = (srv.shmAfter E st₀ k).record s := by
  obtain ⟨hs0, hs1⟩ := slot_of_inSlots hs
  have hsplit : srv.hooks.take n = srv.hooks.take k ++ (srv.hooks.take n).drop k := by
    conv_lhs => rw [← List.take_append_drop k (srv.hooks.take n), List.take_take, Nat.min_eq_left hkn]
  have hprefix : Publishes ((srv.hooks.take n).drop k).length s (srv.shmAfter E st₀ k)
      (srv.shmAfter E st₀ n) := by
    have hrun : srv.shmAfter E st₀ n = (run (step E) (run (step E) st₀ (srv.hooks.take k))
        ((srv.hooks.take n).drop k)).shm := by
      rw [Server.shmAfter, ← run_append, ← hsplit]
    rw [hrun]
    exact publishes_run hs0 hs1
  have hsuffix : Publishes (srv.hooks.drop n).length s (srv.shmAfter E st₀ n) srv.plugin.shm := by
    rw [h.plugin, Server.shmAfter]
    conv_rhs => rw [← List.take_append_drop n srv.hooks, run_append]
    exact publishes_run hs0 hs1
  have hmapped : (srv.shmAfter E st₀ k).mapped = true := by
    rw [← hprefix.1, ← hsuffix.1, hm]
  have hlt : ((srv.hooks.take n).drop k).length + (srv.hooks.drop n).length < 2 ^ 64 := by
    rw [List.length_drop, List.length_drop, List.length_take]
    omega
  obtain ⟨hmanaged, hrecord, -⟩ := record_of_incarnation hprefix hsuffix hmapped hlt hsame.symm hstate
  exact ⟨hmanaged, hrecord⟩

/-- Whatever hooks, passes and disconnects there were: each bot that a further pass takes its turn with has
held its slot under this SteamID64 and name ever since the lease that the turn works on was started. -/
theorem lease_of_one_occupant (E : EngineCalls) (st₀ : State) (inputs : List ServerInput)
    (hreads : Guarded (serverStep E) ReadsRegion { plugin := st₀ } inputs) (isConnected : Bool) (m : Mem)
    (tryWrite : Player → Int → Bool) (getPlayers : UInt8 → List (Option Player)) :
    let srv := run (serverStep E) { plugin := st₀ } inputs
    ShmView.Refines (some m) srv.plugin.shm → srv.hooks.length < 2 ^ 64 →
      ∀ t ∈ (srv.pass isConnected m tryWrite getPlayers).2, ∃ k ≤ srv.hooks.length,
        (serverStep E srv (.reconcile isConnected m tryWrite getPlayers)).since t.bot.slot = some k ∧
        ∀ n, k ≤ n → n ≤ srv.hooks.length →
          ((srv.shmAfter E st₀ n).slot t.bot.slot).slotState ≠ 0 ∧
            (srv.shmAfter E st₀ n).record t.bot.slot = srv.plugin.shm.record t.bot.slot := by
  intro srv hm hlen t ht
  have howned : Owned E st₀ srv := owned_run hreads
  obtain ⟨hs, hstate⟩ := managed_of_pass hm.2 ht
  obtain ⟨-, k, hle, hsince, hsame⟩ := since_pass howned hm.2 hs ⟨t, ht, rfl⟩
  refine ⟨k, hle, hsince, fun n hkn hn => ?_⟩
  obtain ⟨hmanaged, hrecord⟩ := occupant_kept howned hm.1 hs hlen hkn hn hstate hsame
  obtain ⟨-, hnow⟩ := occupant_kept howned hm.1 hs hlen hle (Nat.le_refl _) hstate hsame
  rw [howned.shm_eq] at hnow
  exact ⟨hmanaged, hrecord.trans hnow.symm⟩

/-- The bot that is managed on slot 0. -/
def loneBot : List (Option Player) :=
  [some { teamNum := 2, slot := 0, isBot := true, compTeammateColor := -1, teammatePreferredColor := -1 }]

/-- A pass, and a player connects to another slot. -/
def passAndConnect (m : Mem) : List ServerInput :=
  [.reconcile true m (fun _ _ => true) fun _ => loneBot,
    .hook (onSolo (.onClientConnected 1 none 76561197960265730 false))]

theorem lease_of_one_occupant_of_player_connect : ∃ m, ShmView.Refines (some m) adoptedState.shm ∧
    let srv := run (serverStep .idle) { plugin := adoptedState } (passAndConnect m)
    ∀ t ∈ (srv.pass true m (fun _ _ => true) fun _ => loneBot).2, ∃ k ≤ srv.hooks.length,
      (serverStep .idle srv (.reconcile true m (fun _ _ => true) fun _ => loneBot)).since t.bot.slot = some k ∧
      ∀ n, k ≤ n → n ≤ srv.hooks.length →
        ((srv.shmAfter .idle adoptedState n).slot t.bot.slot).slotState ≠ 0 ∧
          (srv.shmAfter .idle adoptedState n).record t.bot.slot = srv.plugin.shm.record t.bot.slot := by
  obtain ⟨m, hm⟩ := refines_adoptedState
  have hreads : Guarded (serverStep .idle) ReadsRegion { plugin := adoptedState } (passAndConnect m) :=
    ⟨hm, trivial, trivial⟩
  exact ⟨m, hm, lease_of_one_occupant .idle adoptedState (passAndConnect m) hreads true m (fun _ _ => true)
    (fun _ => loneBot) hm (show 1 < 2 ^ 64 by decide)⟩

end Colors
end Botid
