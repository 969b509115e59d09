import Botid.Published
import Botid.Suspension

/-! A kick by persona name: the slot it selects, the user id it kicks, and who else holds that id. -/
namespace Botid

open Machine ByteMem World

variable {E : EngineCalls} {st : State} {w w' : World} {ids : Identities} {s t : Int} {p q : Ptr}
  {m : Mem} {b : BotIdentity} {u : UInt16} {name : Bytes} {arguments : List Bytes} {v : Vote}

/-- Names that `CopyKickTarget` leaves as they are: nothing to strip at either end. -/
def Unpadded (name : Bytes) : Prop :=
  (∀ c ∈ name.head?, isTargetPadding c = false) ∧ ∀ c ∈ name.getLast?, isTargetPadding c = false

theorem dropWhile_of_head {l : Bytes} {P : UInt8 → Bool} (h : ∀ c ∈ l.head?, P c = false) :
    l.dropWhile P = l := by
  cases l with
  | nil => rfl
  | cons c l => rw [List.dropWhile_cons_of_neg (by simp [h c rfl])]

theorem copyKickTarget_eq (h : Unpadded name) (hlen : name.length ≤ kMaxPersonaNameBytes) :
    copyKickTarget name = name := by
  have hlast : ∀ c ∈ name.reverse.head?, isTargetPadding c = false := by
    rw [List.head?_reverse]
    exact h.2
  rw [copyKickTarget, dropWhile_of_head h.1, dropWhile_of_head hlast, List.reverse_reverse,
    List.take_of_length_le]
  simp only [kMaxPersonaNameBytes] at hlen
  omega

/-- Managed slots with one name are one slot. -/
def DistinctPersonas (ids : Identities) : Prop :=
  ∀ s t b c, ids.getIdentity s = some b → ids.getIdentity t = some c → b.name = c.name → s = t

/-- The lookup finds the slot that goes by the name. -/
theorem findManagedSlotByPersonaName_eq (hd : DistinctPersonas ids) (hb : ids.getIdentity s = some b)
    (hne : b.name ≠ []) : findManagedSlotByPersonaName ids b.name = s := by
  obtain ⟨i, hold, -⟩ := Identities.holds_of_getIdentity hb
  have hothers : ∀ found t, t ≠ s → findPersonaStep ids b.name found t = found := by
    intro found t ht
    rw [findPersonaStep]
    split
    · rfl
    · cases hc : ids.getIdentity t with
      | none => rfl
      | some c =>
        have hname : c.name ≠ b.name := fun hname => ht (hd t s c b hc hb hname)
        dsimp only
        rw [if_pos hname]
  rw [findManagedSlotByPersonaName, if_neg hne]
  refine forSlots_at _ (J := fun found : Int => found = -1) (Q := fun found : Int => found = s)
    hold.1 hold.2.1 (fun _ _ ht hf => (hothers _ _ ht).trans hf) ?_
    (fun _ _ ht hf => (hothers _ _ ht).trans hf) rfl
  rintro found rfl
  simp [findPersonaStep, hold.isManaged, hb]

theorem namedBotKickSlot_eq (hd : DistinctPersonas ids) (hb : ids.getIdentity s = some b)
    (hne : b.name ≠ []) (hpad : Unpadded b.name) (hlen : b.name.length ≤ kMaxPersonaNameBytes)
    (hgroup : isBotKickGroupTarget b.name = false) (harg : arguments[1]? = some b.name) :
    namedBotKickSlot ids (ascii "bot_kick") arguments = (s, b.name) := by
  simp [namedBotKickSlot, harg, copyKickTarget_eq hpad hlen, hne, hgroup,
    findManagedSlotByPersonaName_eq hd hb hne]

/-- Zeroing the copies of a client's SteamID64 also zeroes a byte of its user id. -/
def ScanHitsUserId (m : Mem) : Prop :=
  readSteamId m ≠ 0 ∧ ∃ k < 2,
    Covers (steamIdHits (readSteamId m) kSscScanBytes (setFakePlayer m)) (offUserID + k)

theorem readUserId_congr {m' : Mem} (h : ∀ k < 2, m' (offUserID + k) = m (offUserID + k)) :
    readUserId m' = readUserId m := congrArg UInt16.ofNat (readLE_congr h)

/-- The native markers leave the user id as it is, unless the scan takes it for a copy. -/
theorem readUserId_captureOneManagedSlot (hm : ids.isManaged s = true)
    (hp : w.resolveClientBySlot s = some p) (hscan : ¬ ScanHitsUserId (w.client p)) :
    readUserId ((captureOneManagedSlot ids v w s).2.2.client p) = readUserId (w.client p) := by
  have hrange := Identities.range_of_isManaged hm
  rw [captureOneManagedSlot, if_neg (by omega)]
  simp only [hm, hp, Bool.not_true, Bool.false_eq_true, if_false, client_applyNativeVoteMarkers,
    sscSteamId_takeSnapshot]
  apply readUserId_congr
  intro k hk
  have hfake : setFakePlayer (w.client p) (offUserID + k) = w.client p (offUserID + k) :=
    setFakePlayer_of_ne (by simp only [offUserID, offConnectionTypeFlags]; omega)
      (by simp only [offUserID, offFakePlayer]; omega)
  rw [writeSteamId_out (by simp only [offUserID, offSteamID]; omega)]
  split
  · exact hfake
  · rename_i h0
    rw [scanRegion_mem, if_neg fun hc => hscan ⟨h0, k, hk, hc⟩, hfake]

/-- `ChangeTeam` leaves the client objects and the client list alone. -/
def EngineCalls.LeavesClients (E : EngineCalls) : Prop :=
  ∀ c n w w', E.changeTeam c n w = some w' →
    w'.client = w.client ∧ w'.clients = w.clients ∧ w'.serverAlive = w.serverAlive

/-- The controller that answers for a slot. -/
def World.controllerOf (w : World) (s : Int) : Option Ptr :=
  (w.resolveClientBySlot s).bind fun p => w.resolveController (getEntityIndex (w.client p))

/-- A spectator move asks for the slot's own controller only. -/
theorem moveManagedBotToSpectator_congr {E' : EngineCalls}
    (h : ∀ c, w.controllerOf s = some c → ∀ n w, E'.changeTeam c n w = E.changeTeam c n w) :
    moveManagedBotToSpectator E' ids w s = moveManagedBotToSpectator E ids w s := by
  rw [moveManagedBotToSpectator, moveManagedBotToSpectator]
  split
  · rfl
  · cases hp : w.resolveClientBySlot s with
    | none => rfl
    | some p =>
      cases hc : w.resolveController (getEntityIndex (w.client p)) with
      | none => simp only [hc]
      | some c =>
        have hown : w.controllerOf s = some c := by simp [World.controllerOf, hp, hc]
        simp only [hc, h c hown]

theorem moveManagedBotToSpectator_keeps (hE : E.LeavesClients) :
    (moveManagedBotToSpectator E ids w s).client = w.client ∧
      (moveManagedBotToSpectator E ids w s).clients = w.clients ∧
      (moveManagedBotToSpectator E ids w s).serverAlive = w.serverAlive := by
  have hkept : ∀ c n, ((E.changeTeam c n w).getD w).client = w.client ∧
      ((E.changeTeam c n w).getD w).clients = w.clients ∧
      ((E.changeTeam c n w).getD w).serverAlive = w.serverAlive := by
    intro c n
    cases hmoved : E.changeTeam c n w with
    | none => exact ⟨rfl, rfl, rfl⟩
    | some w' => exact hE c n w w' hmoved
  rw [moveManagedBotToSpectator]
  split
  · exact ⟨rfl, rfl, rfl⟩
  · split
    · exact ⟨rfl, rfl, rfl⟩
    · split
      · exact ⟨rfl, rfl, rfl⟩
      · dsimp only
        split
        · exact ⟨rfl, rfl, rfl⟩
        · exact hkept _ _

/-- A leftover that still answers to a user id: unmanaged, without net channel and SteamID64. -/
def HoldsUserId (ids : Identities) (w : World) (u : UInt16) (t : Int) : Prop :=
  ∃ q, w.resolveClientBySlot t = some q ∧ ids.isManaged t = false ∧ readNetChannel (w.client q) = 0 ∧
    readSteamId (w.client q) = 0 ∧ readUserId (w.client q) = u

theorem readUserId_writeUserId : readUserId (writeUserId m u) = u := by
  rw [readUserId, writeUserId, readLE_writeLE u.toNat_lt, UInt16.ofNat_toNat]

/-- A pass writes no client but the one of its slot, and never the one that is kept. -/
theorem neutralizeSlot_keeps : w.OnlyMemory (neutralizeSlot ids s u w t) ∧
    ∀ q, (w.resolveClientBySlot t = some q → t = s) →
      (neutralizeSlot ids s u w t).client q = w.client q := by
  rw [neutralizeSlot]
  split
  · exact ⟨.refl, fun _ _ => rfl⟩
  · rename_i hts
    split
    · exact ⟨.refl, fun _ _ => rfl⟩
    · rename_i client hc
      split
      · exact ⟨.refl, fun _ _ => rfl⟩
      · refine ⟨onlyMemory_onClient, fun q hq => client_onClient_of_ne ?_⟩
        rintro rfl
        exact hts (hq hc)

/-- Behind a pass its slot is no leftover with the user id. -/
theorem neutralizeSlot_done (hts : t ≠ s) (hu : u ≠ 65535) :
    ¬ HoldsUserId ids (neutralizeSlot ids s u w t) u t := by
  rintro ⟨q, hq, hm, hnet, hsid, huid⟩
  rw [neutralizeSlot_keeps.1.resolveClientBySlot] at hq
  by_cases hleft : ids.isManaged t = true ∨ readNetChannel (w.client q) ≠ 0 ∨
      readSteamId (w.client q) ≠ 0 ∨ readUserId (w.client q) ≠ u
  · have hpass : neutralizeSlot ids s u w t = w := by
      simp only [neutralizeSlot, if_neg hts, hq]
      rw [if_pos hleft]
    rw [hpass] at hnet hsid huid
    rcases hleft with h | h | h | h
    · simp [hm] at h
    · exact h hnet
    · exact h hsid
    · exact h huid
  · have hpass : neutralizeSlot ids s u w t = w.onClient q fun m => writeUserId m 65535 := by
      simp only [neutralizeSlot, if_neg hts, hq]
      rw [if_neg hleft]
    rw [hpass, client_onClient_self, readUserId_writeUserId] at huid
    exact hu huid.symm

theorem holdsUserId_congr {q : Ptr} (hmem : w.OnlyMemory w') (hq : w.resolveClientBySlot t = some q)
    (hclient : w'.client q = w.client q) : HoldsUserId ids w' u t ↔ HoldsUserId ids w u t := by
  simp only [HoldsUserId, hmem.resolveClientBySlot, hq, Option.some.injEq]
  constructor
  · rintro ⟨q, rfl, h⟩
    exact ⟨q, rfl, by rwa [hclient] at h⟩
  · rintro ⟨q, rfl, h⟩
    exact ⟨q, rfl, by rwa [hclient]⟩

/-- The sweep leaves the kept client alone and no leftover with its user id. -/
theorem neutralizeCollidingLeftoverUserIds_spec (hs : 0 ≤ s) (hs' : s < kMaxSlots) (hu : u ≠ 65535)
    (hcount : w.clients.length ≤ 64) (hp : w.resolveClientBySlot s = some p) :
    (neutralizeCollidingLeftoverUserIds ids w s u).client p = w.client p ∧
      ∀ t, t ≠ s → ¬ HoldsUserId ids (neutralizeCollidingLeftoverUserIds ids w s u) u t := by
  have hguard : ¬ (s < 0 ∨ kMaxSlots ≤ s ∨ u = 65535) := by
    rintro (h | h | h)
    · omega
    · omega
    · exact hu h
  have hkept : ∀ (y : World) (t : Int), w.OnlyMemory y ∧ y.client p = w.client p →
      w.OnlyMemory (neutralizeSlot ids s u y t) ∧ (neutralizeSlot ids s u y t).client p = w.client p := by
    rintro y t ⟨hy, hclient⟩
    refine ⟨hy.trans neutralizeSlot_keeps.1, ?_⟩
    rw [neutralizeSlot_keeps.2 p fun ht => ?_, hclient]
    rw [hy.resolveClientBySlot] at ht
    exact resolveClientBySlot_inj ht hp
  obtain ⟨hmem, hclient⟩ := forSlots_invariant
    (I := fun y : World => w.OnlyMemory y ∧ y.client p = w.client p) hkept ⟨.refl, rfl⟩
  rw [neutralizeCollidingLeftoverUserIds, if_neg hguard]
  refine ⟨hclient, fun t hts hholds => ?_⟩
  obtain ⟨q, hq, -⟩ := id hholds
  rw [hmem.resolveClientBySlot] at hq
  have ht := resolveClientBySlot_eq_some hq
  have hlt := (List.getElem?_eq_some_iff.mp ht.2).1
  -- the pass for the slot itself does it, the others leave its client alone
  have hdone : w.OnlyMemory (forSlots (neutralizeSlot ids s u) w) ∧
      ¬ HoldsUserId ids (forSlots (neutralizeSlot ids s u) w) u t := by
    refine forSlots_at (neutralizeSlot ids s u) (J := fun y : World => w.OnlyMemory y)
      (Q := fun y : World => w.OnlyMemory y ∧ ¬ HoldsUserId ids y u t) ht.1
      (by simp only [kMaxSlots]; omega) (fun y _ _ hy => hy.trans neutralizeSlot_keeps.1)
      (fun y hy => ⟨hy.trans neutralizeSlot_keeps.1, neutralizeSlot_done hts hu⟩) ?_ .refl
    rintro y t' ht' ⟨hy, hnot⟩
    refine ⟨hy.trans neutralizeSlot_keeps.1, ?_⟩
    rw [← hy.resolveClientBySlot] at hq
    have hkeep : (neutralizeSlot ids s u y t').client q = y.client q :=
      neutralizeSlot_keeps.2 q fun h => absurd (resolveClientBySlot_inj h hq) ht'
    rwa [holdsUserId_congr neutralizeSlot_keeps.1 hq hkeep]
  exact hdone.2 hholds

/-- Opening the slot's window keeps its user id. -/
theorem beginVoteTransactionForSlot_keeps (hm : st.ids.isManaged s = true)
    (hp : st.world.resolveClientBySlot s = some p)
    (hscan : st.vote.depth = 0 → ¬ ScanHitsUserId (st.world.client p)) :
    (beginVoteTransactionForSlot st s).ids = st.ids ∧
      (beginVoteTransactionForSlot st s).serverCommands = st.serverCommands ∧
      st.world.OnlyMemory (beginVoteTransactionForSlot st s).world ∧
      readUserId ((beginVoteTransactionForSlot st s).world.client p) =
        readUserId (st.world.client p) := by
  rw [beginVoteTransactionForSlot]
  split
  · rename_i h0
    exact ⟨rfl, rfl, onlyClient_captureOneManagedSlot.1,
      readUserId_captureOneManagedSlot hm hp (hscan h0)⟩
  · exact ⟨rfl, rfl, .refl, rfl⟩

/-- The kick itself, once the user id is read. -/
theorem kickManagedBotByUserId_spec (hm : st.ids.isManaged s = true)
    (hp : st.world.resolveClientBySlot s = some p) (hu : readUserId (st.world.client p) = u)
    (hne : u ≠ 65535) (hcount : st.world.clients.length ≤ 64) :
    (kickManagedBotByUserId st s).serverCommands = st.serverCommands ++ [kickIdCommand u] ∧
      readUserId ((kickManagedBotByUserId st s).world.client p) = u ∧
      ∀ t, t ≠ s →
        ¬ HoldsUserId (kickManagedBotByUserId st s).ids (kickManagedBotByUserId st s).world u t := by
  have hrange := Identities.range_of_isManaged hm
  obtain ⟨hclient, hothers⟩ := @neutralizeCollidingLeftoverUserIds_spec st.world st.ids s p u hrange.1
    hrange.2 hne hcount hp
  have hkick : kickManagedBotByUserId st s =
      { st with
        world := neutralizeCollidingLeftoverUserIds st.ids st.world s u
        serverCommands := st.serverCommands ++ [kickIdCommand u] } := by
    simp only [kickManagedBotByUserId, hp, hu, if_neg hne]
  rw [hkick]
  exact ⟨rfl, (congrArg readUserId hclient).trans hu, hothers⟩

theorem World.OnlyMemory.clients (h : w.OnlyMemory w') : w'.clients = w.clients := by
  obtain ⟨_, _, rfl⟩ := h
  rfl

/-- A named kick issues one command, for the slot's user id, which then belongs to no leftover; only
the slot's own controller is asked to change its team. -/
theorem kickNamedBot_spec (hE : E.LeavesClients) (hm : st.ids.isManaged s = true)
    (hp : st.world.resolveClientBySlot s = some p) (hu : readUserId (st.world.client p) = u)
    (hne : u ≠ 65535) (hcount : st.world.clients.length ≤ 64)
    (hscan : st.vote.depth = 0 → ¬ ScanHitsUserId (st.world.client p)) :
    (kickNamedBot E st s).serverCommands = st.serverCommands ++ [kickIdCommand u] ∧
      readUserId ((kickNamedBot E st s).world.client p) = u ∧
      (∀ t, t ≠ s → ¬ HoldsUserId (kickNamedBot E st s).ids (kickNamedBot E st s).world u t) ∧
      ∀ E' : EngineCalls, (∀ c, st.world.controllerOf s = some c →
        ∀ n w, E'.changeTeam c n w = E.changeTeam c n w) →
        kickNamedBot E' st s = kickNamedBot E st s := by
  obtain ⟨hclient, hclients, halive⟩ := @moveManagedBotToSpectator_keeps E st.world st.ids s hE
  have hcongr : ∀ E' : EngineCalls, (∀ c, st.world.controllerOf s = some c →
      ∀ n w, E'.changeTeam c n w = E.changeTeam c n w) → kickNamedBot E' st s = kickNamedBot E st s := by
    intro E' h
    rw [kickNamedBot, kickNamedBot, moveManagedBotToSpectator_congr h]
  have hkicked : ∀ st' : State, st'.ids = st.ids → st'.serverCommands = st.serverCommands →
      st'.world.resolveClientBySlot s = some p → readUserId (st'.world.client p) = u →
      st'.world.clients = st.world.clients →
      (kickManagedBotByUserId st' s).serverCommands = st.serverCommands ++ [kickIdCommand u] ∧
        readUserId ((kickManagedBotByUserId st' s).world.client p) = u ∧
        ∀ t, t ≠ s →
          ¬ HoldsUserId (kickManagedBotByUserId st' s).ids (kickManagedBotByUserId st' s).world u t := by
    intro st' hids hcommands hp' hu' hlist
    rw [← hcommands]
    exact kickManagedBotByUserId_spec (hids ▸ hm) hp' hu' hne (hlist ▸ hcount)
  suffices hspec : (kickNamedBot E st s).serverCommands = st.serverCommands ++ [kickIdCommand u] ∧
      readUserId ((kickNamedBot E st s).world.client p) = u ∧
      ∀ t, t ≠ s → ¬ HoldsUserId (kickNamedBot E st s).ids (kickNamedBot E st s).world u t from
    ⟨hspec.1, hspec.2.1, hspec.2.2, hcongr⟩
  rw [kickNamedBot]
  generalize moveManagedBotToSpectator E st.ids st.world s = moved at hclient hclients halive
  have hresolve : moved.resolveClientBySlot s = some p := by
    rw [← hp, resolveClientBySlot, resolveClientBySlot, hclients, halive]
  have hmoved : readUserId (moved.client p) = u := by rw [hclient, hu]
  dsimp only
  split
  · obtain ⟨hids, hcommands, hmem, huid⟩ := @beginVoteTransactionForSlot_keeps { st with world := moved }
      s p hm hresolve (by simpa only [hclient] using hscan)
    refine hkicked _ hids hcommands (hmem.resolveClientBySlot.trans hresolve) (huid.trans hmoved) ?_
    exact hmem.clients.trans hclients
  · exact hkicked _ rfl rfl hresolve hmoved hclients

/-- The hook on a `bot_kick` by name, where hosting is not suspended. -/
theorem dispatchConCommandPre_named (hg : st.gate.suspended = false) (hs : 0 ≤ s)
    (hnamed : namedBotKickSlot st.ids (ascii "bot_kick") arguments = (s, name)) :
    dispatchConCommandPre E st (some (ascii "bot_kick")) arguments = kickNamedBot E st s := by
  have hkick : isKickCommand (ascii "bot_kick") = true := by decide
  simp only [dispatchConCommandPre, hg, Bool.false_eq_true, if_false, hkick, if_true, hnamed, if_pos hs,
    if_neg (show ascii "bot_kick" ≠ ascii "callvote" by decide)]

/-- In every reachable state a kick by a live bot's own name selects that bot's slot, kicks its user
id with one command, leaves no other leftover with that id, and moves nobody else to spectator. -/
theorem named_kick_hits {features : PluginFeatures} {mapBlacklist : List Bytes} {pool : LoadedPool}
    {mapped : Bool} {draws : Nat → Nat} {w₀ : World} {es : List Event} {i : Nat}
    (hE : E.LeavesClients)
    (hst : st = run (step E) (load features mapBlacklist pool mapped draws w₀) es)
    (hdistinct : DistinctPersonas st.ids) (hold : st.ids.Holds s i) (hb : pool.bots[i]? = some b)
    (hname : b.name ≠ []) (harg : arguments[1]? = some b.name)
    (hp : w.resolveClientBySlot s = some p) (hu : readUserId (w.client p) ≠ 65535)
    (hcount : w.clients.length ≤ 64) (hpad : Unpadded b.name)
    (hgroup : isBotKickGroupTarget b.name = false)
    (hscan : st.vote.depth = 0 → ¬ ScanHitsUserId (w.client p)) :
    let kicked := step E st ⟨w, .dispatchConCommandPre (some (ascii "bot_kick")) arguments⟩
    (namedBotKickSlot st.ids (ascii "bot_kick") arguments).1 = s ∧
      kicked.serverCommands = st.serverCommands ++ [kickIdCommand (readUserId (w.client p))] ∧
      readUserId (kicked.world.client p) = readUserId (w.client p) ∧
      (∀ t, t ≠ s → ¬ HoldsUserId kicked.ids kicked.world (readUserId (w.client p)) t) ∧
      ∀ E' : EngineCalls, (∀ c, w.controllerOf s = some c →
        ∀ n w, E'.changeTeam c n w = E.changeTeam c n w) →
        step E' st ⟨w, .dispatchConCommandPre (some (ascii "bot_kick")) arguments⟩ = kicked := by
  have hempty : Emptied st := by
    rw [hst]
    refine run_invariant_of_step (I := Emptied) (fun _ _ => emptied_step) ?_
    exact Emptied.pollMapGate fun hs => by simp at hs
  have hnames : st.registry.Named (pool.bots.map fun b => (b.name, b.steamId)) := by
    rw [hst]
    refine run_invariant_of_step (I := fun st : State => st.registry.Named _)
      (fun st ev (h : (st.withWorld ev.world).registry.Named _) =>
        named_runHook (by simpa using pool.count_le) h ev.hook) ?_
    rw [registry_load]
    exact rfl
  have hg : st.gate.suspended = false := by
    cases hg : st.gate.suspended with
    | false => rfl
    | true => exact absurd ((hempty hg s).symm.trans hold.isManaged) (by simp)
  obtain ⟨b', hb', hb'name⟩ : ∃ b', st.ids.getIdentity s = some b' ∧ b'.name = b.name := by
    have hentry : (st.ids.bots[i]?).map (fun b => (b.name, b.steamId)) = some (b.name, b.steamId) := by
      rw [← List.getElem?_map, show st.ids.bots.map _ = _ from hnames, List.getElem?_map, hb]
      rfl
    obtain ⟨b', hb', hpersona⟩ := Option.map_eq_some_iff.mp hentry
    exact ⟨b', hold.getIdentity.trans hb', (Prod.mk.inj hpersona).1⟩
  have hlen : b.name.length ≤ kMaxPersonaNameBytes := pool.name_le b (List.mem_of_getElem? hb)
  rw [← hb'name] at hname hpad hgroup harg hlen
  have hnamed := namedBotKickSlot_eq hdistinct hb' hname hpad hlen hgroup harg
  have hstep : ∀ E' : EngineCalls,
      step E' st ⟨w, .dispatchConCommandPre (some (ascii "bot_kick")) arguments⟩ =
        kickNamedBot E' (st.withWorld w) s :=
    fun E' => dispatchConCommandPre_named hg hold.1 hnamed
  intro kicked
  have hkicked : kicked = kickNamedBot E (st.withWorld w) s := hstep E
  obtain ⟨hcommands, huid, hothers, hcongr⟩ := @kickNamedBot_spec E (st.withWorld w) s p _ hE
    hold.isManaged hp rfl hu hcount hscan
  rw [hkicked]
  exact ⟨congrArg Prod.fst hnamed, hcommands, huid, hothers,
    fun E' hE' => (hstep E').trans (hcongr E' hE')⟩

/-- An engine whose `ChangeTeam` writes the controller's team. -/
def EngineCalls.teams : EngineCalls :=
  ⟨fun c n w => some (w.onController c fun m => writeControllerTeam m (UInt8.ofNat n)), none, fun _ => 0⟩

/-- The engine calls a hook with clients in the slots 0 and 1. -/
def onDuo (hook : Hook) : Event := ⟨.ofClients [100, 400] nodup_duo, hook⟩

theorem named_kick_hits_intel :
    let st := run (step .teams) soloLoad [onDuo (.onClientConnected 0 none 0 true)]
    let kicked := step .teams st
      (onDuo (.dispatchConCommandPre (some (ascii "bot_kick")) [ascii "bot_kick", ascii "INTEL"]))
    kicked.serverCommands = [kickIdCommand 0] ∧ ¬ HoldsUserId kicked.ids kicked.world 0 1 := by
  intro st kicked
  have hslots : st.ids.slots = Function.update (fun _ => -1) 0 0 := rfl
  have hE : EngineCalls.teams.LeavesClients := by
    rintro c n w w' ⟨⟩
    exact ⟨rfl, rfl, rfl⟩
  have hold : st.ids.Holds 0 0 := ⟨by decide, by decide, by rw [hslots]; rfl⟩
  have hsolo : ∀ s b, st.ids.getIdentity s = some b → s = 0 := by
    intro s b hb
    obtain ⟨i, hi, -⟩ := Identities.holds_of_getIdentity hb
    by_contra hne
    have hslot := hi.2.2
    rw [hslots, Function.update_of_ne hne] at hslot
    omega
  have hdistinct : DistinctPersonas st.ids :=
    fun s t b c hb hc _ => (hsolo s b hb).trans (hsolo t c hc).symm
  have hpad : Unpadded (ascii "INTEL") := by
    unfold Unpadded
    decide +kernel
  have harg : [ascii "bot_kick", ascii "INTEL"][1]? = some (ascii "INTEL") := rfl
  have hp : (World.ofClients [100, 400] nodup_duo).resolveClientBySlot 0 = some 100 := rfl
  obtain ⟨-, hcommands, -, hothers, -⟩ := named_kick_hits hE rfl hdistinct hold rfl (by decide) harg hp
    (by decide) (by decide) hpad (by decide) fun _ h => h.1 rfl
  exact ⟨hcommands, hothers 1 (by decide)⟩

/-- A bot of this name is kicked by it, and the command is for nobody. -/
def KickMisses (name : Bytes) : Prop :=
  let st := run (step .idle)
    (load .plain [] (.single (name.take 31) 0 (List.length_take_le 31 name)) true (fun _ => 0)
      (.ofClients [100] nodup_solo)) [onSolo (.onClientConnected 0 none 0 true)]
  let kicked := step .idle st
    (onSolo (.dispatchConCommandPre (some (ascii "bot_kick")) [ascii "bot_kick", name]))
  (st.ids.getIdentity 0).map BotIdentity.name = some name ∧
    readUserId ((World.ofClients [100] nodup_solo).client 100) ≠ 65535 ∧
    (namedBotKickSlot st.ids (ascii "bot_kick") [ascii "bot_kick", name]).1 = -1 ∧
    kicked.serverCommands = []

/-- A group keyword addresses everybody, and of a name that ends in an apostrophe the apostrophe is
stripped. -/
theorem kick_by_name_misses : KickMisses (ascii "all") ∧ KickMisses (ascii "INTEL'") := by
  unfold KickMisses
  decide +kernel

end Botid
