import Botid.LivePlayers

/-! What the plugin sends to the console: kicks of bots that a command named, and nothing else. -/
namespace Botid

open Machine World

variable {E : EngineCalls} {st : State} {ev : Event} {es : List Event} {s t : Int} {i k : Nat} {u : UInt16}
  {ids : Identities} {w : World} {p : Ptr} {name hint : Bytes} {arguments : List Bytes}

/-- No two clients that are managed or have somebody in them share a user id. -/
def UserIdsDistinct (ids : Identities) (w : World) : Prop :=
  ∀ s t p q, w.resolveClientBySlot s = some p → w.resolveClientBySlot t = some q →
    ids.isManaged s = true ∨ Present (w.client p) → ids.isManaged t = true ∨ Present (w.client q) →
    readUserId (w.client p) = readUserId (w.client q) → s = t

/-- The user id of a managed slot's client, that no other client answers to. -/
structure BotUserId (ids : Identities) (w : World) (s : Int) (u : UInt16) : Prop where
  managed : ids.isManaged s = true
  valid : u ≠ 65535
  own : ∃ p, w.resolveClientBySlot s = some p ∧ readUserId (w.client p) = u
  alone : w.clients.length ≤ 64 → UserIdsDistinct ids w →
    ∀ t q, w.resolveClientBySlot t = some q → readUserId (w.client q) = u → t = s

/-- The call is the `Pre` hook of a `bot_kick` with the name of the slot's bot. -/
def NamesBot (ids : Identities) (hook : Hook) (s : Int) : Prop :=
  ∃ arguments arg b, hook = .dispatchConCommandPre (some (ascii "bot_kick")) arguments ∧
    arguments[1]? = some arg ∧ ids.getIdentity s = some b ∧ b.name = copyKickTarget arg ∧
    isBotKickGroupTarget b.name = false

section Queue

theorem serverCommands_applyDisguise : (applyDisguise st s i).serverCommands = st.serverCommands := by
  rcases applyDisguise_cases st s i with h | ⟨b, -, -, -, ⟨-, h⟩ | ⟨client, -, -, h⟩⟩ <;> rw [h]

theorem serverCommands_applyDisguiseIfPending :
    (applyDisguiseIfPending st s).serverCommands = st.serverCommands := by
  rcases applyDisguiseIfPending_cases st s with h | ⟨i, -, h⟩
  · rw [h]
  · rw [h, serverCommands_applyDisguise]

theorem serverCommands_applyPending (st : State) :
    (forSlots applyDisguiseIfPending st).serverCommands = st.serverCommands := by
  apply forSlots_invariant (I := fun st' : State => st'.serverCommands = st.serverCommands) _ rfl
  intro st' t h
  rw [serverCommands_applyDisguiseIfPending, h]

theorem serverCommands_restoreIdentity :
    (restoreIdentity st s).serverCommands = st.serverCommands := by
  rw [restoreIdentity]
  split <;> rfl

theorem serverCommands_closeVoteTransaction :
    (closeVoteTransaction st).serverCommands = st.serverCommands := by
  rw [closeVoteTransaction, restorePlayerIdentity]
  split
  · rfl
  · exact serverCommands_applyPending _

theorem serverCommands_tickVoteTransaction :
    (tickVoteTransaction st).serverCommands = st.serverCommands := by
  rw [tickVoteTransaction]
  split
  · rfl
  · split
    · rfl
    · split
      · rfl
      · split
        · rfl
        · exact serverCommands_closeVoteTransaction

theorem serverCommands_applyMapGate : (applyMapGate st name).serverCommands = st.serverCommands := by
  obtain ⟨gate, h⟩ | ⟨-, h⟩ := @applyMapGate_cases st name
  · rw [h]
  · obtain ⟨ids, shm, w, -, hreleased⟩ := releaseManagedSlots_eq st
    rw [h, hreleased]

theorem serverCommands_pollMapGate : (pollMapGate st).serverCommands = st.serverCommands := by
  rw [pollMapGate]
  split
  · rfl
  · exact serverCommands_applyMapGate

theorem serverCommands_onClientConnected {name : Option Bytes} {xuid : UInt64} {fakePlayer : Bool} :
    (onClientConnected st s name xuid fakePlayer).serverCommands = st.serverCommands := by
  have hreleased : (releaseOccupant st s).serverCommands = st.serverCommands := by
    rw [releaseOccupant]
    split <;> rfl
  rcases onClientConnected_cases st s name xuid fakePlayer with ⟨-, h⟩ | ⟨-, -, -, ⟨-, h⟩ | ⟨-, h⟩⟩
  · rw [h]
  · rw [h, hreleased]
  · rw [h]
    rcases assignIdentity_cases (releaseOccupant st s) s with ⟨bots, r', -, ha⟩ | ⟨i, bots, r', -, ha⟩
    · rw [ha, hreleased]
    · rw [ha, serverCommands_applyDisguise]
      exact hreleased

theorem serverCommands_clientDisconnect {reason : Int} :
    (clientDisconnect E st s reason).serverCommands = st.serverCommands := by
  rcases clientDisconnect_cases E st s reason with ⟨-, h⟩ | ⟨-, pending, h⟩
  · rw [h]
  · rw [h]
    exact serverCommands_restoreIdentity

theorem serverCommands_beginVoteTransaction :
    (beginVoteTransaction st).serverCommands = st.serverCommands := by
  rw [beginVoteTransaction]
  split <;> rfl

theorem serverCommands_kickGroup {target : Bytes} :
    (kickGroup E st name target).serverCommands = st.serverCommands := by
  rw [kickGroup]
  dsimp only
  split
  · split
    · exact serverCommands_beginVoteTransaction
    · rfl
  · split
    · exact serverCommands_beginVoteTransaction
    · rfl

theorem serverCommands_forceEndVoteTransaction :
    (forceEndVoteTransaction st).serverCommands = st.serverCommands := by
  rw [forceEndVoteTransaction]
  split
  · rfl
  · exact serverCommands_closeVoteTransaction

theorem serverCommands_dispatchConCommandPost {command : Option Bytes} :
    (dispatchConCommandPost E st command arguments).serverCommands = st.serverCommands := by
  rcases dispatchConCommandPost_cases E st command arguments with
    h | ⟨-, h | ⟨hint, -, h⟩⟩ | ⟨-, h | ⟨st₁, hst, h⟩⟩
  · rw [h]
  · rw [h, serverCommands_pollMapGate]
  · rw [h, serverCommands_pollMapGate]
    rcases hintMapGate_cases st hint with hh | hh
    · rw [hh]
    · rw [hh, serverCommands_applyMapGate]
  · rw [h]
    rfl
  · have hended : st₁.serverCommands = st.serverCommands := by
      rcases hst with rfl | rfl
      · rfl
      · rw [endKickCommand]
        split
        · rfl
        · dsimp only
          split <;> rfl
    rcases h with h | h | ⟨-, h⟩
    · rw [h, hended]
    · rw [h]
      exact hended
    · rw [h, ← hended]
      change (applyPendingDisguises st₁).serverCommands = _
      rw [applyPendingDisguises]
      split
      · rfl
      · exact serverCommands_applyPending st₁

theorem serverCommands_gameFrame {nowSec : Float} :
    (gameFrame E st nowSec).serverCommands = st.serverCommands := by
  have hjitter : ∀ st : State, (jitterPings st nowSec).serverCommands = st.serverCommands := by
    intro st
    rw [jitterPings]
    split
    · rfl
    · split <;> rfl
  rw [gameFrame]
  dsimp only
  split
  · exact serverCommands_pollMapGate
  · rw [hjitter]
    exact serverCommands_tickVoteTransaction.trans serverCommands_pollMapGate

theorem serverCommands_onLevelInit {mapName : Option Bytes} :
    (onLevelInit st mapName).serverCommands = st.serverCommands := by
  refine serverCommands_pollMapGate.trans ?_
  cases mapName with
  | none => rfl
  | some name =>
    dsimp only
    split
    · exact serverCommands_applyMapGate
    · rfl

end Queue

/-- The lookup by name answers with a slot whose bot has that name. -/
theorem getIdentity_findManagedSlotByPersonaName (h : 0 ≤ findManagedSlotByPersonaName ids name) :
    ∃ b, ids.getIdentity (findManagedSlotByPersonaName ids name) = some b ∧ b.name = name := by
  rw [findManagedSlotByPersonaName] at h ⊢
  split at h
  · omega
  · rename_i hname
    rw [if_neg hname]
    refine forSlots_invariant (I := fun found => 0 ≤ found →
      ∃ b, ids.getIdentity found = some b ∧ b.name = name) ?_ (fun h => by omega) h
    intro found t hfound
    rw [findPersonaStep]
    split
    · exact hfound
    · split
      · exact hfound
      · rename_i b hb
        split
        · exact hfound
        · rename_i hbname
          split
          · exact fun _ => ⟨b, hb, not_not.mp hbname⟩
          · exact hfound

theorem namesBot_namedBotKickSlot (h : 0 ≤ (namedBotKickSlot ids name arguments).1) :
    NamesBot ids (.dispatchConCommandPre (some name) arguments) (namedBotKickSlot ids name arguments).1 := by
  obtain rfl := not_callvote_of_named h
  rw [namedBotKickSlot, if_neg (by simp)] at h ⊢
  cases harg : arguments[1]? with
  | none =>
    rw [harg] at h
    simp at h
  | some arg =>
    rw [harg] at h
    dsimp only at h ⊢
    split at h
    · simp at h
    · rename_i htarget
      rw [if_neg htarget]
      obtain ⟨b, hb, hname⟩ := getIdentity_findManagedSlotByPersonaName h
      refine ⟨arguments, arg, b, rfl, harg, hb, hname, ?_⟩
      rw [hname]
      simpa using (not_or.mp htarget).2

/-- Behind the sweep over the leftovers the user id is that of the slot alone. -/
theorem botUserId_neutralize (hm : ids.isManaged s = true) (hu : readUserId (w.client p) ≠ 65535)
    (hp : w.resolveClientBySlot s = some p) :
    BotUserId ids (neutralizeCollidingLeftoverUserIds ids w s (readUserId (w.client p))) s
      (readUserId (w.client p)) := by
  have hrange := Identities.range_of_isManaged hm
  generalize hid : readUserId (w.client p) = u at hu ⊢
  have hguard : ¬ (s < 0 ∨ kMaxSlots ≤ s ∨ u = 65535) := by
    rintro (h | h | h)
    · omega
    · omega
    · exact hu h
  have hmem : w.OnlyMemory (neutralizeCollidingLeftoverUserIds ids w s u) := by
    rw [neutralizeCollidingLeftoverUserIds, if_neg hguard]
    exact forSlots_invariant (I := fun y : World => w.OnlyMemory y)
      (fun y t hy => hy.trans neutralizeSlot_keeps.1) .refl
  have hkept : (neutralizeCollidingLeftoverUserIds ids w s u).client p = w.client p := by
    rw [neutralizeCollidingLeftoverUserIds, if_neg hguard]
    refine (forSlots_invariant (I := fun y : World => w.OnlyMemory y ∧ y.client p = w.client p)
      (fun y t hy => ⟨hy.1.trans neutralizeSlot_keeps.1, ?_⟩) ⟨.refl, rfl⟩).2
    rw [neutralizeSlot_keeps.2 p fun ht => ?_, hy.2]
    rw [hy.1.resolveClientBySlot] at ht
    exact resolveClientBySlot_inj ht hp
  have hown : (neutralizeCollidingLeftoverUserIds ids w s u).resolveClientBySlot s = some p :=
    hmem.resolveClientBySlot.trans hp
  refine ⟨hm, hu, ⟨p, hown, by rw [hkept, hid]⟩, fun hcount hdistinct t q hq hqid => ?_⟩
  by_contra hts
  by_cases hthere : ids.isManaged t = true ∨
      Present ((neutralizeCollidingLeftoverUserIds ids w s u).client q)
  · refine hts (hdistinct t s q p hq hown hthere (Or.inl hm) ?_)
    rw [hqid, hkept, hid]
  · -- a leftover with the user id, but the sweep has taken it from all of them
    rw [not_or, Present, not_or, not_not, not_not] at hthere
    have hsweep := (@neutralizeCollidingLeftoverUserIds_spec w ids s p u hrange.1 hrange.2 hu
      (hmem.clients ▸ hcount) hp).2
    exact hsweep t hts ⟨q, hq, by simpa using hthere.1, hthere.2.1, hthere.2.2, hqid⟩

/-- The text names one user id. -/
theorem kickIdCommand_inj {u' : UInt16} (h : kickIdCommand u = kickIdCommand u') : u = u' := by
  -- the digits are ASCII, so no two of them share a byte
  have hdigits : ∀ n : Nat, ((toString n).toList.map fun c => UInt8.ofNat c.toNat).map
      (fun b => Char.ofNat b.toNat) = Nat.toDigits 10 n := by
    intro n
    rw [List.map_map, show (toString n).toList = Nat.toDigits 10 n from Nat.toList_repr]
    refine (List.map_congr_left fun c hc => ?_).trans (List.map_id _)
    have hdigit := Nat.isDigit_of_mem_toDigits (by decide) (by decide) hc
    simp only [Char.isDigit, Bool.and_eq_true, decide_eq_true_eq] at hdigit
    have hlt : c.toNat < 256 := lt_of_le_of_lt (UInt32.le_iff_toNat_le.mp hdigit.2) (by decide)
    simp [UInt8.toNat_ofNat', Nat.mod_eq_of_lt hlt]
  simp only [kickIdCommand, ascii, String.toList_append, List.map_append] at h
  have hbytes := List.append_cancel_left (List.append_cancel_right h)
  have hchars := congrArg (List.map fun b : UInt8 => Char.ofNat b.toNat) hbytes
  rw [hdigits, hdigits] at hchars
  have hvalue := congrArg (Nat.ofDigitChars 10 · 0) hchars
  simp only [Nat.ofDigitChars_ten_toDigits] at hvalue
  exact UInt16.toNat_inj.mp hvalue

/-- What a kick by user id sends. -/
theorem kickManagedBotByUserId_sends (hm : st.ids.isManaged s = true) :
    (kickManagedBotByUserId st s).serverCommands = st.serverCommands ∨
      ∃ u, (kickManagedBotByUserId st s).serverCommands = st.serverCommands ++ [kickIdCommand u] ∧
        BotUserId (kickManagedBotByUserId st s).ids (kickManagedBotByUserId st s).world s u := by
  cases hp : st.world.resolveClientBySlot s with
  | none =>
    left
    simp only [kickManagedBotByUserId, hp]
  | some p =>
    by_cases hu : readUserId (st.world.client p) = 65535
    · left
      simp only [kickManagedBotByUserId, hp, if_pos hu]
    · right
      simp only [kickManagedBotByUserId, hp, if_neg hu]
      exact ⟨_, rfl, botUserId_neutralize hm hu hp⟩

theorem kickNamedBot_sends (hm : st.ids.isManaged s = true) :
    (kickNamedBot E st s).serverCommands = st.serverCommands ∨
      ∃ u, (kickNamedBot E st s).serverCommands = st.serverCommands ++ [kickIdCommand u] ∧
        BotUserId (kickNamedBot E st s).ids (kickNamedBot E st s).world s u := by
  have hopened : ∀ st' : State, st'.ids = st.ids → st'.serverCommands = st.serverCommands →
      (kickManagedBotByUserId st' s).serverCommands = st.serverCommands ∨
        ∃ u, (kickManagedBotByUserId st' s).serverCommands = st.serverCommands ++ [kickIdCommand u] ∧
          BotUserId (kickManagedBotByUserId st' s).ids (kickManagedBotByUserId st' s).world s u := by
    intro st' hids hcommands
    rw [← hcommands]
    exact kickManagedBotByUserId_sends (hids ▸ hm)
  rw [kickNamedBot]
  dsimp only
  split
  · apply hopened
    · rw [beginVoteTransactionForSlot]
      split <;> rfl
    · rw [beginVoteTransactionForSlot]
      split <;> rfl
  · exact hopened _ rfl rfl

/-- What one step sends: nothing, or the kick of a bot that the step's command named. -/
theorem step_sends (E : EngineCalls) (st : State) (ev : Event) :
    (step E st ev).serverCommands = st.serverCommands ∨
      ∃ s u, (step E st ev).serverCommands = st.serverCommands ++ [kickIdCommand u] ∧
        st.gate.suspended = false ∧ NamesBot st.ids ev.hook s ∧
        BotUserId (step E st ev).ids (step E st ev).world s u := by
  obtain ⟨w, hook⟩ := ev
  cases hook with
  | onClientConnected slot name xuid fakePlayer => exact Or.inl serverCommands_onClientConnected
  | clientPutInServer slot =>
    left
    change (clientPutInServer (st.withWorld w) slot).serverCommands = _
    rw [clientPutInServer]
    split
    · rfl
    · exact serverCommands_applyDisguiseIfPending
  | clientDisconnect slot reason => exact Or.inl serverCommands_clientDisconnect
  | dispatchConCommandPost command arguments => exact Or.inl serverCommands_dispatchConCommandPost
  | gameFrame nowSec => exact Or.inl serverCommands_gameFrame
  | onLevelInit mapName => exact Or.inl serverCommands_onLevelInit
  | dispatchConCommandPre command arguments =>
    cases command with
    | none => exact Or.inl rfl
    | some name =>
      simp only [step, runHook, dispatchConCommandPre]
      split
      · exact Or.inl rfl
      · rename_i hg
        have hhosted : st.gate.suspended = false := Bool.eq_false_iff.mpr hg
        split
        · exact Or.inl serverCommands_beginVoteTransaction
        · split
          · split
            · rename_i hnamed
              have hm := isManaged_namedBotKickSlot hnamed
              refine (kickNamedBot_sends hm).imp_right ?_
              rintro ⟨u, hsent, hbot⟩
              exact ⟨_, u, hsent, hhosted, namesBot_namedBotKickSlot hnamed, hbot⟩
            · split
              · exact Or.inl rfl
              · exact Or.inl serverCommands_kickGroup
          · split
            · split
              · exact Or.inl serverCommands_forceEndVoteTransaction
              · exact Or.inl rfl
            · exact Or.inl rfl

/-- Every command that a run has sent is the `kickid` of a managed bot, sent at the `Pre` hook of a
`bot_kick` with this bot's name, with a user id that was the bot's and nobody else's then. -/
theorem kick_commands_hit_bots {features : PluginFeatures} {mapBlacklist : List Bytes} {pool : LoadedPool}
    {mapped : Bool} {draws : Nat → Nat} {w₀ : World} {command : Bytes}
    (hk : (run (step E) (load features mapBlacklist pool mapped draws w₀) es).serverCommands[k]? =
      some command) :
    ∃ es₁ ev es₂ s u, es = es₁ ++ ev :: es₂ ∧ (∀ u', command = kickIdCommand u' ↔ u' = u) ∧
      let st := run (step E) (load features mapBlacklist pool mapped draws w₀) es₁
      let st' := step E st ev
      (st.serverCommands.length = k ∧ st'.serverCommands = st.serverCommands ++ [command]) ∧
        st.gate.suspended = false ∧ NamesBot st.ids ev.hook s ∧ BotUserId st'.ids st'.world s u := by
  have hlog : ∀ (st : State) ev, st.serverCommands <+: (step E st ev).serverCommands := by
    intro st ev
    rcases step_sends E st ev with h | ⟨s, u, h, -⟩
    · rw [h]
    · rw [h]
      exact List.prefix_append _ _
  have hload : (load features mapBlacklist pool mapped draws w₀).serverCommands = [] :=
    serverCommands_pollMapGate
  obtain ⟨es₁, ev, es₂, rfl, hbefore, hafter⟩ :=
    exists_step_of_log hlog hk (by rw [hload]; exact Nat.zero_le k)
  rcases step_sends E (run (step E) (load features mapBlacklist pool mapped draws w₀) es₁) ev with
    h | ⟨s, u, h, hsent⟩
  · rw [h, List.getElem?_eq_none hbefore] at hafter
    cases hafter
  · rw [h, List.getElem?_append_right hbefore] at hafter
    -- a step writes one entry, so it is the last one
    obtain ⟨hk0, hlast⟩ := List.getElem?_eq_some_iff.mp hafter
    simp only [List.length_singleton, Nat.lt_one_iff] at hk0
    simp only [List.getElem_singleton] at hlast
    have htext : ∀ u', command = kickIdCommand u' ↔ u' = u := by
      intro u'
      rw [← hlast]
      exact ⟨fun hu => (kickIdCommand_inj hu).symm, fun hu => hu ▸ rfl⟩
    exact ⟨es₁, ev, es₂, s, u, rfl, htext, ⟨by omega, hlast ▸ h⟩, hsent⟩

/-- A bot connects and is kicked by its name. -/
def kickedIntelRun : List Event :=
  [onDuo (.onClientConnected 0 none 0 true),
    onDuo (.dispatchConCommandPre (some (ascii "bot_kick")) [ascii "bot_kick", ascii "INTEL"])]

theorem kick_commands_hit_intel :
    ∃ es₁ ev es₂ s u, kickedIntelRun = es₁ ++ ev :: es₂ ∧
      (∀ u', kickIdCommand 0 = kickIdCommand u' ↔ u' = u) ∧
      let st := run (step .idle) soloLoad es₁
      let st' := step .idle st ev
      (st.serverCommands.length = 0 ∧ st'.serverCommands = st.serverCommands ++ [kickIdCommand 0]) ∧
        st.gate.suspended = false ∧ NamesBot st.ids ev.hook s ∧ BotUserId st'.ids st'.world s u :=
  kick_commands_hit_bots
    (show (run (step .idle) soloLoad kickedIntelRun).serverCommands[0]? = some (kickIdCommand 0) by
      decide +kernel)

end Botid
