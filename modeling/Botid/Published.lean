import Botid.LiveIdentities

/-! Shared memory tells the truth about management, as long as every release reaches its cells. -/
namespace Botid

open Machine

variable {E : EngineCalls} {st : State} {ev : Event} {r : Registry} {w : World} {s t : Int}
  {i j : Nat} {b c : BotIdentity} {bots : List BotIdentity} {hook : Hook}

/-- The slot is managed and its identity is applied on it. -/
def AppliedOn (ids : Identities) (s : Int) : Prop :=
  ∃ b, ids.getIdentity s = some b ∧ b.applied = true ∧ b.slot = s

/-- The slot's cells name the identity applied on it, and are empty where there is none. -/
structure TellsTruth (ids : Identities) (cell : ShmSlot) (s : Int) : Prop where
  state : cell.slotState = 1 ↔ AppliedOn ids s
  identity : ∀ b, ids.getIdentity s = some b → b.applied = true → b.slot = s →
    cell.syntheticSid = b.steamId ∧ cstr cell.personaName = b.name
  vacant : ¬ AppliedOn ids s → cell.syntheticSid = 0 ∧ cstr cell.personaName = []

/-- The entry a slot holds is applied on another slot that holds it too. -/
def UsedElsewhere (ids : Identities) (s : Int) : Prop :=
  ∃ t i, t ≠ s ∧ ids.Holds s i ∧ ids.Holds t i ∧
    ∃ b : BotIdentity, ids.bots[i]? = some b ∧ b.applied = true ∧ b.slot = t

/-- `GetFree` finds a free entry, or every slot with an identity applied on it is still active. Otherwise
it may recycle the entry of a slot that stays managed, whose cells nobody then corrects. -/
def RecycleSpares (w : World) (ids : Identities) : Prop :=
  (∃ i, isFree ids.bots i = true) ∨ ∀ t, AppliedOn ids t → w.isSlotActive t = true

/-- No hook lets go of a slot whose entry is applied on another one, no connect that asks for an identity
recycles an applied entry off a managed slot, and clients resolve when their published slots are
released. -/
def ReleasesCells (E : EngineCalls) (st : State) (ev : Event) : Prop :=
  match ev.hook with
  | .onClientConnected slot name xuid fakePlayer =>
    (isHltvName name = false → ¬ UsedElsewhere st.ids slot) ∧
      (st.AsksForIdentity slot name xuid fakePlayer → RecycleSpares ev.world (st.ids.unmark slot))
  | .clientDisconnect slot reason =>
    ¬ UsedElsewhere st.ids slot ∧
      ((st.shm.slot slot).slotState ≠ 0 →
        (worldAtDisconnect E (st.withWorld ev.world) slot reason).resolveClientBySlot slot ≠ none)
  | hook =>
    (st.withWorld ev.world).OffersBlacklisted hook →
      ∀ s, (st.shm.slot s).slotState ≠ 0 → ev.world.resolveClientBySlot s ≠ none

/-- One slot's record and what it should say. -/
def Told (r : Registry) (s : Int) : Prop :=
  (∃ i b, r.ids.Holds s i ∧ r.ids.bots[i]? = some b ∧ b.applied = true ∧ b.slot = s ∧
      r.record s = .adopted b) ∨
    ((∀ i b, r.ids.Holds s i → r.ids.bots[i]? = some b → b.applied = true → b.slot ≠ s) ∧
      r.record s = .vacant)

structure Truthful (r : Registry) : Prop where
  mapped : r.mapped = true
  sound : PoolSound r
  told : ∀ s, Told r s

theorem told_of_slotState (h : Told r s) (hs : (r.record s).slotState ≠ 0) :
    ∃ i b, r.ids.Holds s i ∧ r.ids.bots[i]? = some b ∧ b.applied = true ∧ b.slot = s ∧
      r.record s = .adopted b := by
  rcases h with h | ⟨-, hr⟩
  · exact h
  · rw [hr] at hs
    exact absurd rfl hs

/-- A record with state 0 is vacant in full. -/
theorem vacant_of_slotState (h : Told r s) (hs : (r.record s).slotState = 0) :
    r.record s = .vacant := by
  rcases h with ⟨_, _, -, -, -, -, hr⟩ | ⟨-, hr⟩
  · rw [hr] at hs
    simp [ShmRecord.adopted] at hs
  · exact hr

/-- Letting go of one slot keeps every other slot's record true, unless that slot used the entry. -/
theorem Truthful.told_unmark {r' : Registry} (h : Truthful r) (hused : ¬ UsedElsewhere r.ids s)
    (hids : r'.ids = r.ids.unmark s) (hself : r'.record s = .vacant)
    (hother : ∀ t, t ≠ s → r'.record t = r.record t) : Told r' t := by
  by_cases hts : t = s
  · subst hts
    refine Or.inr ⟨fun i b hold => ?_, hself⟩
    rw [hids, Identities.holds_unmark] at hold
    exact absurd rfl hold.1
  · rw [Told, hids, hother t hts]
    rcases h.told t with ⟨i, b, hold, hb, ha, hbt, hr⟩ | ⟨hno, hr⟩
    · refine Or.inl ⟨i, b, Identities.holds_unmark.mpr ⟨hts, hold⟩, ?_, ha, hbt, hr⟩
      by_cases hm : r.ids.isManaged s = true
      · obtain ⟨k, hk⟩ := Identities.isManaged_iff.mp hm
        rw [hk.bots_unmark, getElem?_modify_eq_some]
        refine ⟨b, hb, ?_⟩
        rw [if_neg]
        rintro rfl
        exact hused ⟨t, i, hts, hk, hold, b, hb, ha, hbt⟩
      · rwa [Identities.unmark_of_not_managed (by simpa using hm)]
    · refine Or.inr ⟨fun i b hold hb ha hbt => ?_, hr⟩
      rw [Identities.holds_unmark] at hold
      by_cases hm : r.ids.isManaged s = true
      · obtain ⟨k, hk⟩ := Identities.isManaged_iff.mp hm
        rw [hk.bots_unmark, getElem?_modify_eq_some] at hb
        obtain ⟨b', hb', rfl⟩ := hb
        split at ha
        · simp [Identities.released] at ha
        · rw [if_neg ‹_›] at hbt
          exact hno i b' hold.2 hb' ha hbt
      · rw [Identities.unmark_of_not_managed (by simpa using hm)] at hb
        exact hno i b hold.2 hb ha hbt

theorem Truthful.vacate (h : Truthful r) (hused : ¬ UsedElsewhere r.ids s) :
    Truthful (r.vacate s) := by
  refine ⟨by simpa using h.mapped, ?_, fun t => ?_⟩
  · rw [PoolSound, Registry.ids_vacate, ← Registry.ids_abandon]
    exact h.sound.unmark
  · exact h.told_unmark hused Registry.ids_vacate (Registry.record_vacate_self h.mapped)
      fun u hu => Registry.record_vacate_of_ne hu

theorem Truthful.abandon (h : Truthful r) (hused : ¬ UsedElsewhere r.ids s)
    (hs : (r.record s).slotState = 0) : Truthful (r.abandon s) :=
  ⟨h.mapped, h.sound.unmark, fun _ =>
    h.told_unmark hused rfl (vacant_of_slotState (r := r) (h.told s) hs) fun _ _ => rfl⟩

/-- A disguise never touches what another slot was told: its entry was not applied anywhere. -/
theorem Truthful.disguiseRule : DisguiseRule Truthful fun _ => True := by
  rintro r s i b h - hold hb ha
  have hne : ∀ j c, r.ids.bots[j]? = some c → c.applied = true → j ≠ i := by
    rintro j c hc hca rfl
    obtain rfl : b = c := Option.some.inj (hb.symm.trans hc)
    simp [ha] at hca
  have hsound : ∀ f : BotIdentity → BotIdentity, (∀ b, (f b).slot = s) →
      PoolSound { r with ids := r.ids.modifyBot i f } := by
    refine fun f hf => ⟨by simpa using h.sound.1, fun j c hc hneg => ?_⟩
    rw [Identities.modifyBot, getElem?_modify_eq_some] at hc
    obtain ⟨c, hc, rfl⟩ := hc
    split at hneg
    · rw [hf] at hneg
      exact absurd hold.1 (by omega)
    · rw [if_neg ‹_›]
      exact h.sound.2 j c hc hneg
  -- a slot that already had an identity applied keeps it
  have hkept : ∀ t j c f, r.ids.Holds t j → r.ids.bots[j]? = some c → c.applied = true →
      (r.ids.modifyBot i f).Holds t j ∧ (r.ids.modifyBot i f).bots[j]? = some c := by
    intro t j c f htj hc hca
    refine ⟨htj, ?_⟩
    rw [Identities.modifyBot, getElem?_modify_eq_some]
    exact ⟨c, hc, by rw [if_neg (hne j c hc hca)]⟩
  constructor
  · refine ⟨h.mapped, hsound _ fun _ => rfl, fun t => ?_⟩
    rcases h.told t with ⟨j, c, htj, hc, hca, hct, hr⟩ | ⟨hno, hr⟩
    · obtain ⟨htj, hc⟩ := hkept t j c _ htj hc hca
      exact Or.inl ⟨j, c, htj, hc, hca, hct, hr⟩
    · refine Or.inr ⟨fun j c htj hc hca => ?_, hr⟩
      rw [Registry.ids_claim, Identities.modifyBot, getElem?_modify_eq_some] at hc
      obtain ⟨c, hc, rfl⟩ := hc
      split at hca
      · exact absurd ‹j = i› (hne j c hc hca)
      · rw [if_neg ‹_›]
        exact hno j c htj hc hca
  · refine ⟨by simpa using h.mapped, ?_, fun t => ?_⟩
    · rw [PoolSound, Registry.ids_adopt]
      exact hsound (fun b => { b with slot := s, applied := true }) fun _ => rfl
    · rw [Told, Registry.ids_adopt]
      by_cases hts : t = s
      · subst hts
        refine Or.inl ⟨i, { b with slot := t, applied := true }, hold, ?_, rfl, rfl,
          Registry.record_adopt_self h.mapped⟩
        rw [Identities.modifyBot, getElem?_modify_eq_some]
        exact ⟨b, hb, by rw [if_pos rfl]⟩
      · rw [Registry.record_adopt_of_ne hts]
        rcases h.told t with ⟨j, c, htj, hc, hca, hct, hr⟩ | ⟨hno, hr⟩
        · obtain ⟨htj, hc⟩ := hkept t j c (fun b => { b with slot := s, applied := true }) htj hc hca
          exact Or.inl ⟨j, c, htj, hc, hca, hct, hr⟩
        · refine Or.inr ⟨fun j c htj hc hca => ?_, hr⟩
          rw [Identities.modifyBot, getElem?_modify_eq_some] at hc
          obtain ⟨c, hc, rfl⟩ := hc
          split
          · exact fun he => hts he.symm
          · rw [if_neg ‹_›] at hca
            exact hno j c htj hc hca

/-- What the pool holds after `GetFree`: it hands out an entry that does not count as applied, and
applies none. -/
theorem entry_of_getFree {active : Int → Bool} {rd rd' : Rand} (h : PoolSound r)
    (hf : getFree active r.ids.bots rd = (some i, bots, rd')) {j : Nat} {c : BotIdentity}
    (hc : bots[j]? = some c) : (j = i → c.applied = false) ∧ (c.slot < 0 → c.applied = false) ∧
      (c.applied = true → r.ids.bots[j]? = some c) := by
  obtain ⟨b, hb, -, ⟨hneg, rfl⟩ | ⟨rfl, -, -⟩⟩ := getFree_some hf
  · refine ⟨?_, h.2 j c hc, fun _ => hc⟩
    rintro rfl
    obtain rfl : b = c := Option.some.inj (hb.symm.trans hc)
    exact h.2 j b hb hneg
  · rw [getElem?_modify_eq_some] at hc
    obtain ⟨c, hc, rfl⟩ := hc
    split
    · exact ⟨fun _ => rfl, fun _ => rfl, fun ha => by simp [resetForReuse] at ha⟩
    · exact ⟨fun hji => absurd hji ‹_›, h.2 j c hc, fun _ => hc⟩

/-- An entry of an active slot is not recycled, and none is while one is free. -/
theorem kept_of_getFree {active : Int → Bool} {rd rd' : Rand} {old : List BotIdentity} {j : Nat}
    {c : BotIdentity} (hf : getFree active old rd = (some i, bots, rd')) (hc : old[j]? = some c)
    (hrange : 0 ≤ c.slot ∧ c.slot < kMaxSlots)
    (hspare : (∃ k, isFree old k = true) ∨ active c.slot = true) : bots[j]? = some c := by
  obtain ⟨b, hb, -, ⟨-, rfl⟩ | ⟨rfl, hnone, hback⟩⟩ := getFree_some hf
  · exact hc
  · rw [getElem?_modify_eq_some]
    refine ⟨c, hc, ?_⟩
    rw [if_neg]
    rintro rfl
    obtain rfl : b = c := Option.some.inj (hb.symm.trans hc)
    have hactive : active b.slot = true := by
      rcases hspare with ⟨k, hk⟩ | hactive
      · simp [hnone k] at hk
      · exact hactive
    rw [kMaxSlots] at hrange
    rcases hback with hback | hback | hback
    · omega
    · omega
    · simp [hactive] at hback

/-- Taking an entry that is applied on no managed slot. -/
theorem Truthful.take {active : Int → Bool} {rd rd' : Rand} (h : Truthful r)
    (hm : r.ids.isManaged s = false) (h0 : 0 ≤ s) (h1 : s < kMaxSlots)
    (hspare : (∃ i, isFree r.ids.bots i = true) ∨ ∀ t, AppliedOn r.ids t → active t = true)
    (hf : getFree active r.ids.bots rd = (some i, bots, rd')) : Truthful (r.take s i bots) := by
  have hi : i < kMaxBotIdentities := by
    obtain ⟨b, hb, -⟩ := getFree_some hf
    exact lt_of_lt_of_le (List.getElem?_eq_some_iff.mp hb).1 h.sound.1
  have hhold : ∀ t j, (r.take s i bots).ids.Holds t j ↔
      (t = s ∧ j = i) ∨ (t ≠ s ∧ r.ids.Holds t j) := by
    intro t j
    rw [Registry.take, Identities.holds_mark h0 h1 hi]
    rfl
  have hbots : (r.take s i bots).ids.bots = bots := by rw [Registry.take, Identities.bots_mark]
  refine ⟨h.mapped, ⟨?_, fun j c hc => ?_⟩, fun t => ?_⟩
  · rw [hbots, length_getFree hf]
    exact h.sound.1
  · rw [hbots] at hc
    exact (entry_of_getFree h.sound hf hc).2.1
  · by_cases hts : t = s
    · subst hts
      have hvac : r.record t = .vacant := by
        rcases h.told t with ⟨j, c, htj, -⟩ | ⟨-, hr⟩
        · exact absurd htj (Identities.isManaged_eq_false_iff.mp hm j)
        · exact hr
      refine Or.inr ⟨fun j c htj hc ha => ?_, hvac⟩
      rcases (hhold t j).mp htj with ⟨-, rfl⟩ | ⟨hne, -⟩
      · rw [hbots] at hc
        simp [(entry_of_getFree h.sound hf hc).1 rfl] at ha
      · exact absurd rfl hne
    · rcases h.told t with ⟨j, c, htj, hc, hca, hct, hr⟩ | ⟨hno, hr⟩
      · refine Or.inl ⟨j, c, (hhold t j).mpr (Or.inr ⟨hts, htj⟩), ?_, hca, hct, hr⟩
        rw [hbots]
        refine kept_of_getFree hf hc (hct ▸ htj.range) (hspare.imp id fun hactive => ?_)
        rw [hct]
        exact hactive t ⟨c, by rw [htj.getIdentity, hc], hca, hct⟩
      · refine Or.inr ⟨fun j c htj hc hca => ?_, hr⟩
        rcases (hhold t j).mp htj with ⟨hts', -⟩ | ⟨-, htj⟩
        · exact absurd hts' hts
        · rw [hbots] at hc
          exact hno j c htj ((entry_of_getFree h.sound hf hc).2.2 hca) hca

theorem truthful_onClientConnected {slot : Int} {name : Option Bytes} {xuid : UInt64}
    {fakePlayer : Bool} (hused : isHltvName name = false → ¬ UsedElsewhere st.ids slot)
    (hspare : st.AsksForIdentity slot name xuid fakePlayer →
      RecycleSpares st.world (st.ids.unmark slot)) (h : Truthful st.registry) :
    Truthful (onClientConnected st slot name xuid fakePlayer).registry := by
  refine onClientConnected_rule (fun _ => h) (fun hn _ => h.vacate (hused hn)) ?_
  rintro hasks hreleased i bots r' b hf hb
  have ⟨_, h0, h1, _⟩ := hasks
  have hlt := (List.getElem?_eq_some_iff.mp hb).1
  have hsize : bots.length ≤ kMaxBotIdentities := (length_getFree hf).trans_le hreleased.sound.1
  refine .of_disguiseRule hb h0 h1 (lt_of_lt_of_le hlt hsize) ?_
    fun r s i b hr _ => Truthful.disguiseRule r s i b hr trivial
  refine hreleased.take isManaged_releaseOccupant h0 h1 ?_ hf
  rw [show (releaseOccupant st slot).registry.ids = st.ids.unmark slot from ids_releaseOccupant]
  exact hspare hasks

/-- The invariant while a gate is evaluated: published slots can also be released. -/
def CellsReady (st : State) (hook : Hook) (r : Registry) : Prop :=
  Truthful r ∧ (st.OffersBlacklisted hook →
    ∀ s, (r.record s).slotState ≠ 0 → st.world.resolveClientBySlot s ≠ none)

/-- What of it remains while the gate releases slot by slot: unreleased records are on their way. -/
structure Releasing (w : World) (r : Registry) : Prop where
  mapped : r.mapped = true
  sound : PoolSound r
  pending : ∀ s, r.record s = .vacant ∨
    (r.ids.isManaged s = true ∧ w.resolveClientBySlot s ≠ none)

theorem cellsReady_releaseRule (ho : st.OffersBlacklisted hook) :
    ReleaseRule st.world (CellsReady st hook) (Releasing st.world) := by
  refine ⟨?_, ?_, ?_, ?_⟩
  · rintro r ⟨h, hready⟩
    refine ⟨h.mapped, h.sound, fun s => ?_⟩
    by_cases hs : (r.record s).slotState = 0
    · exact Or.inl (vacant_of_slotState (h.told s) hs)
    · obtain ⟨i, b, hold, -⟩ := told_of_slotState (h.told s) hs
      exact Or.inr ⟨hold.isManaged, hready ho s hs⟩
  · intro r s h _ hc
    refine ⟨h.mapped, h.sound.unmark, fun t => ?_⟩
    rcases h.pending t with hr | ⟨hm, hres⟩
    · exact Or.inl hr
    · refine Or.inr ⟨?_, hres⟩
      rw [Registry.ids_abandon, Identities.isManaged_unmark]
      refine ⟨?_, hm⟩
      rintro rfl
      exact hres hc
  · intro r s h _ _
    refine ⟨by simpa using h.mapped, ?_, fun t => ?_⟩
    · rw [PoolSound, Registry.ids_vacate, ← Registry.ids_abandon]
      exact h.sound.unmark
    · by_cases hts : t = s
      · subst hts
        exact Or.inl (Registry.record_vacate_self h.mapped)
      · rw [Registry.record_vacate_of_ne hts, Registry.ids_vacate, Identities.isManaged_unmark]
        exact (h.pending t).imp_right fun hpending => ⟨⟨hts, hpending.1⟩, hpending.2⟩
  · intro r h hnone
    have hvac : ∀ s, r.record s = .vacant := by
      intro s
      rcases h.pending s with hr | ⟨hm, -⟩
      · exact hr
      · simp [hnone s] at hm
    refine ⟨⟨h.mapped, h.sound, fun s => Or.inr ⟨fun i b hold => ?_, hvac s⟩⟩, fun _ s hs => ?_⟩
    · exact absurd hold (Identities.isManaged_eq_false_iff.mp (hnone s) i)
    · rw [hvac s] at hs
      exact absurd rfl hs

theorem truthful_step (hok : ReleasesCells E st ev) (h : Truthful st.registry) :
    Truthful (step E st ev).registry := by
  obtain ⟨w, hook⟩ := ev
  have hw : Truthful (st.withWorld w).registry := h
  cases hook with
  | onClientConnected slot name xuid fakePlayer =>
    exact truthful_onClientConnected hok.1 hok.2 hw
  | clientPutInServer slot =>
    exact clientPutInServer_rule (fun r s i b h _ => Truthful.disguiseRule r s i b h trivial) hw
  | clientDisconnect slot reason =>
    refine clientDisconnect_rule hw fun _ => ⟨fun hc => hw.abandon hok.1 ?_, fun _ => hw.vacate hok.1⟩
    by_contra hne
    exact hok.2 hne hc
  | dispatchConCommandPre command arguments =>
    exact dispatchConCommandPre_rule (fun _ => Truthful.disguiseRule) hw
  | dispatchConCommandPost command arguments =>
    refine (dispatchConCommandPost_rule (I := CellsReady (st.withWorld w) _)
      cellsReady_releaseRule ?_ ⟨hw, hok⟩).1
    intro hadd r s i b hr hs hold hb ha
    have := Truthful.disguiseRule r s i b hr.1 hs hold hb ha
    have hno : ¬ (st.withWorld w).OffersBlacklisted (.dispatchConCommandPost command arguments) :=
      not_offersBlacklisted_of_isBotAddCommand hadd
    exact ⟨⟨this.1, fun ho => absurd ho hno⟩, ⟨this.2, fun ho => absurd ho hno⟩⟩
  | gameFrame nowSec =>
    exact gameFrame_rule (I := CellsReady (st.withWorld w) _) cellsReady_releaseRule
      (fun _ hr => hr.1) (fun _ _ => Truthful.disguiseRule) ⟨hw, hok⟩
  | onLevelInit mapName =>
    exact (onLevelInit_rule (I := CellsReady (st.withWorld w) _) cellsReady_releaseRule
      ⟨hw, hok⟩).1

/-- Persona names and SteamID64s stay as `LoadBots` read them. -/
def Registry.Named (personas : List (Bytes × UInt64)) (r : Registry) : Prop :=
  r.ids.bots.map (fun b => (b.name, b.steamId)) = personas

theorem named_runHook {personas : List (Bytes × UInt64)} (hn : personas.length ≤ kMaxBotIdentities)
    (hi : st.registry.Named personas) (hook : Hook) : (runHook E st hook).registry.Named personas :=
  map_runHook (fun _ _ _ _ => rfl) hn hi hook

/-- A record that was told the truth is the truth, for a persona that fits its cell. -/
theorem tellsTruth_of_told {ids : Identities} {shm : Shm} (h : Told ⟨ids, true, shm.record⟩ s)
    (hfits : ∀ (i : Nat) (b : BotIdentity), ids.bots[i]? = some b →
      (∀ c ∈ b.name, c ≠ 0) ∧ b.name.length < kShmNameLen) :
    TellsTruth ids (shm.slot s) s := by
  rcases h with ⟨i, b, hold, hb, ha, hbs, hr⟩ | ⟨hno, hr⟩
  · have hget : ids.getIdentity s = some b := by rw [Identities.Holds.getIdentity hold, hb]
    have hr : (shm.slot s).slotState = 1 ∧ (shm.slot s).syntheticSid = b.steamId ∧
        (shm.slot s).personaName = charCell kShmNameLen b.name := by
      simpa [Shm.record, ShmSlot.record, ShmRecord.adopted] using hr
    obtain ⟨hstate, hsid, hname⟩ := hr
    refine ⟨⟨fun _ => ⟨b, hget, ha, hbs⟩, fun _ => hstate⟩, ?_, fun h => absurd ⟨b, hget, ha, hbs⟩ h⟩
    intro c hc _ _
    obtain rfl : b = c := Option.some.inj (hget.symm.trans hc)
    obtain ⟨hnul, hlen⟩ := hfits i b hb
    exact ⟨hsid, by rw [hname, cstr_charCell_of_fits hnul hlen]⟩
  · have hr : (shm.slot s).slotState = 0 ∧ (shm.slot s).syntheticSid = 0 ∧
        (shm.slot s).personaName = List.replicate kShmNameLen 0 := by
      simpa [Shm.record, ShmSlot.record, ShmRecord.vacant] using hr
    obtain ⟨hstate, hsid, hname⟩ := hr
    have hnot : ¬ AppliedOn ids s := by
      rintro ⟨b, hb, ha, hbs⟩
      obtain ⟨i, hold, hb⟩ := Identities.holds_of_getIdentity hb
      exact hno i b hold hb ha hbs
    refine ⟨⟨fun h => ?_, fun h => absurd h hnot⟩, fun b hb ha hbs => absurd ⟨b, hb, ha, hbs⟩ hnot,
      fun _ => ⟨hsid, ?_⟩⟩
    · rw [hstate] at h
      exact absurd h (by decide)
    · rw [hname]
      decide

/-- When every release reaches its cells, shared memory names exactly the identities applied on
managed slots. -/
theorem shared_memory_tells_truth {features : PluginFeatures} {mapBlacklist : List Bytes}
    {pool : LoadedPool} {draws : Nat → Nat} {w : World} {es : List Event}
    (hname : ∀ b ∈ pool.bots, ∀ c ∈ b.name, c ≠ 0)
    (hok : Guarded (step E) (ReleasesCells E) (load features mapBlacklist pool true draws w) es) :
    let st := run (step E) (load features mapBlacklist pool true draws w) es
    ∀ s, TellsTruth st.ids (st.shm.slot s) s := by
  intro st s
  set personas := pool.bots.map fun b => (b.name, b.steamId) with hpersonas
  have hinit : Truthful (load features mapBlacklist pool true draws w).registry ∧
      (load features mapBlacklist pool true draws w).registry.Named personas := by
    rw [registry_load]
    refine ⟨⟨rfl, ⟨pool.count_le, fun i b hb _ => pool.not_applied b (List.mem_of_getElem? hb)⟩,
      fun s => Or.inr ⟨fun i b hold => ?_, rfl⟩⟩, rfl⟩
    have := hold.2.2
    simp at this
  obtain ⟨htrue, hnamed⟩ : Truthful st.registry ∧ st.registry.Named personas :=
    run_invariant (I := fun st : State => Truthful st.registry ∧ st.registry.Named personas)
      (fun st ev hok h => by
        have hst : (st.withWorld ev.world).registry.Named personas := h.2
        exact ⟨truthful_step hok h.1,
          named_runHook (by simpa [hpersonas] using pool.count_le) hst ev.hook⟩)
      hok hinit
  apply tellsTruth_of_told
  · have := htrue.told s
    rw [Told] at this ⊢
    exact this
  · intro i b hb
    have hmem : (b.name, b.steamId) ∈ personas := by
      rw [← hnamed]
      exact List.mem_map_of_mem (List.mem_of_getElem? hb)
    obtain ⟨b₀, hb₀, he⟩ := List.mem_map.mp hmem
    rw [Prod.mk.injEq] at he
    rw [← he.1]
    exact ⟨hname b₀ hb₀, Nat.lt_succ_of_le (pool.name_le b₀ hb₀)⟩

/-- A bot connects and is put in the server. -/
def putInServerRun : List Event :=
  [onSolo (.onClientConnected 0 none 0 true), onSolo (.clientPutInServer 0)]

theorem shared_memory_tells_truth_after_put_in_server :
    let st := run (step .idle) soloLoad putInServerRun
    TellsTruth st.ids (st.shm.slot 0) 0 := by
  have hunused : ¬ UsedElsewhere soloLoad.ids 0 := by
    rintro ⟨t, i, -, hold, -⟩
    exact Identities.isManaged_eq_false_iff.mp (by decide +kernel) i hold
  have hok : Guarded (step .idle) (ReleasesCells .idle) soloLoad putInServerRun := by
    refine ⟨⟨fun _ => hunused, fun _ => Or.inl ⟨0, by decide +kernel⟩⟩, ?_, trivial⟩
    rintro ⟨name, hname, -⟩
    simp [State.offers, onSolo] at hname
  exact shared_memory_tells_truth (by decide +kernel) hok 0

/-- In the first run a bot leaves while its client is null, in the second one its entry is recycled:
both times shared memory goes on publishing it. -/
theorem shared_memory_goes_stale :
    let left := run (step .idle) soloLoad (nullClientRun.take 2)
    let recycled := run (step .idle) soloLoad (reconnectRun.take 2)
    ¬ TellsTruth left.ids (left.shm.slot 0) 0 ∧
      ¬ TellsTruth recycled.ids (recycled.shm.slot 0) 0 := by
  intro left recycled
  constructor
  · intro h
    obtain ⟨b, hb, -, -⟩ := h.state.mp (by decide +kernel)
    have : left.ids.getIdentity 0 = none := by decide +kernel
    simp [this] at hb
  · intro h
    obtain ⟨b, hb, -, hbs⟩ := h.state.mp (by decide +kernel)
    have : (recycled.ids.getIdentity 0).map (·.slot) = some 1 := by decide +kernel
    rw [hb, Option.map_some, hbs] at this
    exact absurd this (by decide)

end Botid
