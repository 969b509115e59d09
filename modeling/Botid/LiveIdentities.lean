import Botid.RealPlayers

/-! Live identities are unique, as long as no hook touches a slot whose entry was handed on. -/
namespace Botid

open Machine

variable {E : EngineCalls} {st : State} {ev : Event} {conn conn' : Int → Bool} {r : Registry}
  {s t : Int} {i j : Nat} {b c : BotIdentity} {bots : List BotIdentity}

/-- Which slots are connected: from their connect hook until their disconnect hook, or until the
engine stops reporting them active when another connect asks it. -/
def trackConnected (conn : Int → Bool) (_ : State) (ev : Event) : Int → Bool :=
  match ev.hook with
  | .onClientConnected slot _ _ _ =>
    Function.update (fun t => conn t && ev.world.isSlotActive t) slot true
  | .clientDisconnect slot _ => Function.update conn slot false
  | _ => conn

/-- Another slot, still connected, uses the entry that this slot holds. -/
def Superseded (conn : Int → Bool) (ids : Identities) (t : Int) : Prop :=
  ∃ s i, s ≠ t ∧ conn s = true ∧ ids.Holds s i ∧ ids.Holds t i

/-- The entry behind a slot, if there is one, counts as applied. -/
def EntryApplied (ids : Identities) (t : Int) : Prop :=
  ∀ b, ids.getIdentity t = some b → b.applied = true

/-- A hook that may run the disguise pass over all slots. -/
def State.mayDisguiseAll (st : State) : Hook → Prop
  | .dispatchConCommandPre command _ => command.any isBotAddCommand = true
  | .dispatchConCommandPost command _ => command.any isBotAddCommand = true
  | .gameFrame _ => st.vote.endScheduled = true ∧ st.vote.holdFramesRemaining ≤ 1
  | _ => False

/-- No hook connects, disconnects or disguises a superseded slot, and nobody called HLTV connects
to a managed slot that has lost its connection. -/
def SparesSuperseded (p : State × (Int → Bool)) (ev : Event) : Prop :=
  match ev.hook with
  | .onClientConnected slot name _ _ =>
    if isHltvName name then p.1.ids.isManaged slot = true → p.2 slot = true
    else ¬ Superseded (trackConnected p.2 p.1 ev) p.1.ids slot
  | .clientDisconnect slot _ => ¬ Superseded p.2 p.1.ids slot
  | .clientPutInServer slot => Superseded p.2 p.1.ids slot → EntryApplied p.1.ids slot
  | hook => p.1.mayDisguiseAll hook → ∀ t, Superseded p.2 p.1.ids t → EntryApplied p.1.ids t

/-- Connected managed slots own their entries, and no two of them share a name or a SteamID64. -/
structure Live (conn : Int → Bool) (r : Registry) : Prop where
  size : r.ids.bots.length ≤ kMaxBotIdentities
  unassigned : ∀ (i : Nat) (b : BotIdentity), r.ids.bots[i]? = some b → b.slot < 0 →
    b.applied = false
  owned : ∀ s i, conn s = true → r.ids.Holds s i →
    ∃ b : BotIdentity, r.ids.bots[i]? = some b ∧ b.slot = s
  distinct : ∀ (s t : Int) (i j : Nat) (b c : BotIdentity), s ≠ t → conn s = true →
    conn t = true → r.ids.Holds s i → r.ids.Holds t j → r.ids.bots[i]? = some b →
    r.ids.bots[j]? = some c → b.name ≠ c.name ∧ (b.steamId ≠ 0 → b.steamId ≠ c.steamId)

theorem Live.weaken (h : Live conn r)
    (hc : ∀ t, conn' t = true → conn t = true ∨ r.ids.isManaged t = false) : Live conn' r := by
  have hconn : ∀ t i, conn' t = true → r.ids.Holds t i → conn t = true := by
    intro t i ht hold
    rcases hc t ht with ht | hm
    · exact ht
    · exact absurd hold.isManaged (by simp [hm])
  refine ⟨h.size, h.unassigned, fun s i hs hold => h.owned s i (hconn s i hs hold) hold, ?_⟩
  intro s t i j b c hst hs ht hsi htj
  exact h.distinct s t i j b c hst (hconn s i hs hsi) (hconn t j ht htj) hsi htj

/-- The owner of an entry is one slot only. -/
theorem Live.owner_unique (h : Live conn r) (hs : conn s = true) (ht : conn t = true)
    (hsi : r.ids.Holds s i) (hti : r.ids.Holds t i) : s = t := by
  obtain ⟨b, hb, hbs⟩ := h.owned s i hs hsi
  obtain ⟨c, hc, hct⟩ := h.owned t i ht hti
  obtain rfl : b = c := Option.some.inj (hb.symm.trans hc)
  exact hbs.symm.trans hct

/-- An identity table that keeps names and SteamID64s, drops no entry of a connected slot, and
manages no slot anew. -/
theorem Live.of_identities {ids : Identities} (h : Live conn r)
    (hlen : ids.bots.length = r.ids.bots.length)
    (hhold : ∀ t i, ids.Holds t i → r.ids.Holds t i)
    (hbots : ∀ (j : Nat) (c : BotIdentity), ids.bots[j]? = some c → ∃ b, r.ids.bots[j]? = some b ∧
      c.name = b.name ∧ c.steamId = b.steamId ∧ (c.slot < 0 → c.applied = false))
    (howned : ∀ (t : Int) (i : Nat) (b : BotIdentity), conn t = true → ids.Holds t i →
      r.ids.bots[i]? = some b → b.slot = t →
      ∃ c : BotIdentity, ids.bots[i]? = some c ∧ c.slot = t) :
    Live conn { r with ids := ids } := by
  refine ⟨by simpa [hlen] using h.size, ?_, ?_, ?_⟩
  · intro j c hc hneg
    obtain ⟨b, -, -, -, happ⟩ := hbots j c hc
    exact happ hneg
  · intro t i ht hold
    obtain ⟨b, hb, hbt⟩ := h.owned t i ht (hhold t i hold)
    exact howned t i b ht hold hb hbt
  · intro s t i j b c hst hs ht hsi htj hb hc
    obtain ⟨b₀, hb₀, hbn, hbs, -⟩ := hbots i b hb
    obtain ⟨c₀, hc₀, hcn, hcs, -⟩ := hbots j c hc
    have := h.distinct s t i j b₀ c₀ hst hs ht (hhold s i hsi) (hhold t j htj) hb₀ hc₀
    rw [hbn, hcn, hbs, hcs]
    exact this

/-- Only the table and the pool matter. -/
theorem live_congr {r' : Registry} (h : Live conn r) (hids : r'.ids = r.ids) : Live conn r' :=
  ⟨hids ▸ h.size, hids ▸ h.unassigned, hids ▸ h.owned, hids ▸ h.distinct⟩

/-- A slot that nobody has superseded may be unmarked. -/
theorem Live.unmark (h : Live conn r) (hs : ¬ Superseded conn r.ids s) :
    Live conn { r with ids := r.ids.unmark s } := by
  by_cases hm : r.ids.isManaged s = true
  · obtain ⟨k, hold⟩ := Identities.isManaged_iff.mp hm
    refine h.of_identities Identities.length_bots_unmark
      (fun t i ht => (Identities.holds_unmark.mp ht).2) ?_ ?_
    · intro j c hc
      rw [hold.bots_unmark, getElem?_modify_eq_some] at hc
      obtain ⟨b, hb, rfl⟩ := hc
      refine ⟨b, hb, ?_⟩
      split
      · exact ⟨rfl, rfl, fun _ => rfl⟩
      · exact ⟨rfl, rfl, h.unassigned j b hb⟩
    · intro t i b ht hti hb hbt
      rw [Identities.holds_unmark] at hti
      have hik : i ≠ k := by
        rintro rfl
        exact hs ⟨t, i, hti.1, ht, hti.2, hold⟩
      refine ⟨b, ?_, hbt⟩
      rw [hold.bots_unmark, getElem?_modify_eq_some]
      exact ⟨b, hb, by rw [if_neg hik]⟩
  · rw [Identities.unmark_of_not_managed (by simpa using hm)]
    exact h

/-- Writing a disguise's slot into an entry that no other connected slot uses. -/
theorem Live.disguise (h : Live conn r) (hold : r.ids.Holds s i)
    (hs : ¬ Superseded conn r.ids s) {f : BotIdentity → BotIdentity}
    (hslot : ∀ b, (f b).slot = s) (hname : ∀ b, (f b).name = b.name)
    (hsid : ∀ b, (f b).steamId = b.steamId) : Live conn { r with ids := r.ids.modifyBot i f } := by
  refine h.of_identities Identities.length_bots_modifyBot (fun _ _ ht => ht) ?_ ?_
  · intro j c hc
    rw [Identities.modifyBot, getElem?_modify_eq_some] at hc
    obtain ⟨b, hb, rfl⟩ := hc
    refine ⟨b, hb, ?_⟩
    split
    · refine ⟨hname b, hsid b, fun hneg => ?_⟩
      rw [hslot] at hneg
      exact absurd hold.1 (by omega)
    · exact ⟨rfl, rfl, h.unassigned j b hb⟩
  · intro t j b ht htj hb hbt
    by_cases hji : j = i
    · subst hji
      have hts : t = s := by
        by_contra hne
        exact hs ⟨t, j, hne, ht, htj, hold⟩
      refine ⟨f b, ?_, (hslot b).trans hts.symm⟩
      rw [Identities.modifyBot, getElem?_modify_eq_some]
      exact ⟨b, hb, by rw [if_pos rfl]⟩
    · refine ⟨b, ?_, hbt⟩
      rw [Identities.modifyBot, getElem?_modify_eq_some]
      exact ⟨b, hb, by rw [if_neg hji]⟩

/-- The invariant while slots in scope may still be disguised: superseded ones have nothing left. -/
def Spared (conn : Int → Bool) (P : Int → Prop) (r : Registry) : Prop :=
  Live conn r ∧ ∀ t, P t → Superseded conn r.ids t → EntryApplied r.ids t

theorem spared_disguiseRule {P : Int → Prop} : DisguiseRule (Spared conn P) P := by
  rintro r s i b ⟨h, hspare⟩ hP hold hb ha
  have hs : ¬ Superseded conn r.ids s := by
    intro hsup
    have := hspare s hP hsup b (by rw [hold.getIdentity, hb])
    simp [ha] at this
  have happlied : ∀ f : BotIdentity → BotIdentity, (∀ b, b.applied = true → (f b).applied = true) →
      ∀ t, P t → Superseded conn (r.ids.modifyBot i f) t → EntryApplied (r.ids.modifyBot i f) t := by
    intro f hf t ht hsup c hc
    obtain ⟨j, htj, hjc⟩ := Identities.holds_of_getIdentity hc
    rw [Identities.modifyBot, getElem?_modify_eq_some] at hjc
    obtain ⟨b', hb', rfl⟩ := hjc
    have hb'' : b'.applied = true := hspare t ht hsup b' (by
      rw [(Identities.holds_modifyBot.mp htj).getIdentity, hb'])
    split
    · exact hf b' hb''
    · exact hb''
  constructor
  · exact ⟨h.disguise hold hs (fun _ => rfl) (fun _ => rfl) (fun _ => rfl),
      happlied _ fun _ h => h⟩
  · have hadopt := h.disguise hold hs (f := fun b => { b with slot := s, applied := true })
      (fun _ => rfl) (fun _ => rfl) (fun _ => rfl)
    refine ⟨live_congr hadopt Registry.ids_adopt, ?_⟩
    rw [Registry.ids_adopt]
    exact happlied _ fun _ _ => rfl

/-- What of the invariant remains while the gate takes every slot off the table. -/
def PoolSound (r : Registry) : Prop :=
  r.ids.bots.length ≤ kMaxBotIdentities ∧
    ∀ (i : Nat) (b : BotIdentity), r.ids.bots[i]? = some b → b.slot < 0 → b.applied = false

theorem PoolSound.unmark (h : PoolSound r) : PoolSound (r.abandon s) := by
  refine ⟨by simpa [Identities.length_bots_unmark] using h.1, fun j c hc hneg => ?_⟩
  rw [Registry.ids_abandon] at hc
  by_cases hm : r.ids.isManaged s = true
  · obtain ⟨k, hold⟩ := Identities.isManaged_iff.mp hm
    rw [hold.bots_unmark, getElem?_modify_eq_some] at hc
    obtain ⟨b, hb, rfl⟩ := hc
    split
    · rfl
    · rw [if_neg ‹_›] at hneg
      exact h.2 j b hb hneg
  · rw [Identities.unmark_of_not_managed (by simpa using hm)] at hc
    exact h.2 j c hc hneg

theorem spared_releaseRule {w : World} {P : Int → Prop} :
    ReleaseRule w (Spared conn P) PoolSound := by
  refine ⟨fun r h => ⟨h.1.size, h.1.unassigned⟩, fun r s h _ _ => h.unmark, ?_, ?_⟩
  · intro r s h _ _
    rw [PoolSound, Registry.ids_vacate, ← Registry.ids_abandon]
    exact h.unmark
  · intro r h hnone
    have hfree : ∀ s i, ¬ r.ids.Holds s i := fun s => Identities.isManaged_eq_false_iff.mp (hnone s)
    refine ⟨⟨h.1, h.2, fun s i _ hold => absurd hold (hfree s i), ?_⟩, ?_⟩
    · intro s t i j b c _ _ _ hold
      exact absurd hold (hfree s i)
    · rintro t - ⟨s, i, -, -, hold, -⟩
      exact absurd hold (hfree s i)

/-- `GetFree` finds a free entry, or every connected managed slot is still active. -/
def KeepsOwned (active : Int → Bool) (conn : Int → Bool) (ids : Identities) : Prop :=
  (∃ i, isFree ids.bots i = true) ∨
    ∀ t, conn t = true → ids.isManaged t = true → active t = true

/-- An entry that `GetFree` hands out is owned by no connected slot. -/
theorem Live.not_owned_of_getFree {active : Int → Bool} {rd rd' : Rand} (h : Live conn r)
    (hactive : KeepsOwned active conn r.ids)
    (hf : getFree active r.ids.bots rd = (some i, bots, rd')) (ht : conn t = true) :
    ¬ r.ids.Holds t i := by
  intro hti
  obtain ⟨b, hb, hbt⟩ := h.owned t i ht hti
  obtain ⟨b', hb', -, hcase⟩ := getFree_some hf
  obtain rfl : b' = b := Option.some.inj (hb'.symm.trans hb)
  obtain ⟨h0, h1⟩ := hti.range
  rw [kMaxSlots] at h1
  rcases hcase with ⟨hneg, -⟩ | ⟨-, hnone, hneg | hbig | hin⟩
  · omega
  · omega
  · omega
  · rcases hactive with ⟨k, hk⟩ | hactive
    · simp [hnone k] at hk
    · rw [hbt, hactive t ht hti.isManaged] at hin
      simp at hin

/-- Taking an entry and writing the slot into it, whatever else the disguise writes there. -/
theorem Live.take {active : Int → Bool} {rd rd' : Rand} (h : Live conn r)
    (hactive : KeepsOwned active conn r.ids)
    (hf : getFree active r.ids.bots rd = (some i, bots, rd')) (h0 : 0 ≤ s) (h1 : s < kMaxSlots)
    {f : BotIdentity → BotIdentity} (hslot : ∀ b, (f b).slot = s)
    (hname : ∀ b, (f b).name = b.name) (hsid : ∀ b, (f b).steamId = b.steamId) :
    Live conn { r with ids := (r.take s i bots).ids.modifyBot i f } := by
  obtain ⟨b₀, hb₀, hassign, -⟩ := getFree_some hf
  obtain ⟨hhold, hother, b₁, hb₁, hself⟩ :=
    Identities.take_spec (f := f) h.size h0 h1 hf
  obtain rfl : b₀ = b₁ := Option.some.inj (hb₀.symm.trans hb₁)
  -- the new entry keeps its persona and names its new slot
  obtain ⟨c₀, hc₀, hc₀n, hc₀s, hc₀slot⟩ : ∃ c : BotIdentity,
      ((r.take s i bots).ids.modifyBot i f).bots[i]? = some c ∧ c.name = b₀.name ∧
        c.steamId = b₀.steamId ∧ c.slot = s := by
    rcases hself with hself | hself
    · exact ⟨_, hself, hname _, hsid _, hslot _⟩
    · exact ⟨_, hself, hname _, hsid _, hslot _⟩
  have hne : ∀ (t : Int) (j : Nat), conn t = true → r.ids.Holds t j → j ≠ i := by
    rintro t j ht htj rfl
    exact h.not_owned_of_getFree hactive hf ht htj
  -- the new slot against an old one: `GetFree` checked the entry against every assigned one
  have hnew : ∀ (t : Int) (j : Nat) (c : BotIdentity), conn t = true → r.ids.Holds t j →
      r.ids.bots[j]? = some c → c.name ≠ b₀.name ∧ (b₀.steamId ≠ 0 → c.steamId ≠ b₀.steamId) := by
    intro t j c ht htj hc
    obtain ⟨c', hc', hct⟩ := h.owned t j ht htj
    obtain rfl : c' = c := Option.some.inj (hc'.symm.trans hc)
    exact (isAssignable_iff hb₀).mp hassign j c' hc (hne t j ht htj) (by rw [hct]; exact htj.1)
  refine ⟨?_, ?_, ?_, ?_⟩
  · rw [Identities.length_bots_modifyBot, Registry.take, Identities.bots_mark, length_getFree hf]
    exact h.size
  · intro j c hc hneg
    by_cases hji : j = i
    · subst hji
      obtain rfl : c₀ = c := Option.some.inj (hc₀.symm.trans hc)
      omega
    · exact h.unassigned j c ((hother j hji).symm.trans hc) hneg
  · intro t j ht htj
    rcases (hhold t j).mp htj with ⟨rfl, rfl⟩ | ⟨-, hold⟩
    · exact ⟨c₀, hc₀, hc₀slot⟩
    · obtain ⟨b, hb, hbt⟩ := h.owned t j ht hold
      exact ⟨b, (hother j (hne t j ht hold)).trans hb, hbt⟩
  · intro t u j k b c htu ht hu htj huk hb hc
    rcases (hhold t j).mp htj with ⟨rfl, rfl⟩ | ⟨-, hold⟩
    · obtain rfl : c₀ = b := Option.some.inj (hc₀.symm.trans hb)
      rcases (hhold u k).mp huk with ⟨rfl, -⟩ | ⟨-, hold'⟩
      · exact absurd rfl htu
      · have := hnew u k c hu hold' ((hother k (hne u k hu hold')).symm.trans hc)
        rw [hc₀n, hc₀s]
        exact ⟨this.1.symm, fun h0 he => this.2 h0 he.symm⟩
    · have hbj := (hother j (hne t j ht hold)).symm.trans hb
      rcases (hhold u k).mp huk with ⟨rfl, rfl⟩ | ⟨-, hold'⟩
      · obtain rfl : c₀ = c := Option.some.inj (hc₀.symm.trans hc)
        have := hnew t j b ht hold hbj
        rw [hc₀n, hc₀s]
        exact ⟨this.1, fun h0 he => this.2 (he ▸ h0) he⟩
      · have hck := (hother k (hne u k hu hold')).symm.trans hc
        exact h.distinct t u j k b c htu ht hu hold hold' hbj hck

/-- An entry that `GetFree` hands out does not count as applied. -/
theorem unapplied_of_getFree {active : Int → Bool} {old : List BotIdentity} {rd rd' : Rand}
    (h : ∀ (i : Nat) (b : BotIdentity), old[i]? = some b → b.slot < 0 → b.applied = false)
    (hf : getFree active old rd = (some i, bots, rd')) :
    ∃ b, bots[i]? = some b ∧ b.applied = false := by
  obtain ⟨b, hb, -, ⟨hneg, rfl⟩ | ⟨rfl, -⟩⟩ := getFree_some hf
  · exact ⟨b, hb, h i b hb hneg⟩
  · exact ⟨resetForReuse b, getElem?_modify_eq_some.mpr ⟨b, hb, by rw [if_pos rfl]⟩, rfl⟩

/-- A connect that takes an entry and disguises it leaves the connected slots' identities unique. -/
theorem Live.takeRule {active : Int → Bool} {rd rd' : Rand} (h : Live conn r)
    (hactive : KeepsOwned active conn r.ids)
    (h0 : 0 ≤ s) (h1 : s < kMaxSlots)
    (hf : getFree active r.ids.bots rd = (some i, bots, rd')) (hb : bots[i]? = some b) :
    TakeRule (Live conn) r s i bots b := by
  have ha : b.applied = false := by
    obtain ⟨b₀, hb₀, ha⟩ := unapplied_of_getFree h.unassigned hf
    obtain rfl : b₀ = b := Option.some.inj (hb₀.symm.trans hb)
    exact ha
  refine ⟨fun ha' => by simp [ha] at ha', fun _ => ?_, fun _ => ?_⟩
  · exact h.take hactive hf h0 h1 (fun _ => rfl) (fun _ => rfl) (fun _ => rfl)
  · refine live_congr (h.take hactive hf h0 h1
      (f := fun b => { b with slot := s, applied := true })
      (fun _ => rfl) (fun _ => rfl) (fun _ => rfl)) ?_
    rw [Registry.ids_adopt]

/-- The slots still connected once the engine has answered a connect's questions. -/
theorem trackConnected_onClientConnected {w : World} {slot : Int} {name : Option Bytes}
    {xuid : UInt64} {fakePlayer : Bool} :
    trackConnected conn st ⟨w, .onClientConnected slot name xuid fakePlayer⟩ t = true ↔
      t = slot ∨ (t ≠ slot ∧ conn t = true ∧ w.isSlotActive t = true) := by
  rw [trackConnected]
  by_cases ht : t = slot
  · simp [ht]
  · simp [ht]

theorem live_onClientConnected {slot : Int} {name : Option Bytes} {xuid : UInt64}
    {fakePlayer : Bool}
    (hok : SparesSuperseded (st, conn) ⟨st.world, .onClientConnected slot name xuid fakePlayer⟩)
    (h : Live conn st.registry) :
    Live (trackConnected conn st ⟨st.world, .onClientConnected slot name xuid fakePlayer⟩)
      (onClientConnected st slot name xuid fakePlayer).registry := by
  set conn' := trackConnected conn st ⟨st.world, .onClientConnected slot name xuid fakePlayer⟩
    with hconn'
  have hconn : ∀ t, conn' t = true → t = slot ∨ conn t = true := by
    intro t ht
    rcases trackConnected_onClientConnected.mp ht with rfl | ⟨-, hc, -⟩
    · exact Or.inl rfl
    · exact Or.inr hc
  apply onClientConnected_rule
  · intro hc
    apply h.weaken
    intro t ht
    rcases hconn t ht with rfl | ht
    · cases hm : st.ids.isManaged t with
      | false => exact Or.inr hm
      | true =>
        have hn : isHltvName name = true := hc.resolve_right (by simp [hm])
        simp only [SparesSuperseded, hn, if_true] at hok
        exact Or.inl (hok hm)
    · exact Or.inl ht
  · intro hn _
    simp only [SparesSuperseded, hn, Bool.false_eq_true, if_false] at hok
    -- unmark first among the others, then let the slot itself reconnect
    have hothers : Live (fun t => decide (t ≠ slot) && conn' t) st.registry := by
      apply h.weaken
      intro t ht
      simp only [ne_eq, Bool.and_eq_true, decide_eq_true_eq] at ht
      exact Or.inl ((hconn t ht.2).resolve_left ht.1)
    have hsup : ¬ Superseded (fun t => decide (t ≠ slot) && conn' t) st.registry.ids slot := by
      rintro ⟨u, i, hne, hu, hold⟩
      simp only [ne_eq, Bool.and_eq_true, decide_eq_true_eq] at hu
      exact hok ⟨u, i, hne, hu.2, hold⟩
    refine (live_congr (hothers.unmark hsup) Registry.ids_vacate).weaken ?_
    intro t ht
    by_cases hts : t = slot
    · subst hts
      refine Or.inr ?_
      rw [Registry.ids_vacate]
      exact Identities.isManaged_unmark_self
    · exact Or.inl (by simp [hts, ht])
  · rintro ⟨-, h0, h1, -, rfl, rfl⟩ hreleased i bots r' b hf hb
    refine hreleased.takeRule (Or.inr ?_) h0 h1 hf hb
    intro t ht hm
    rcases trackConnected_onClientConnected.mp ht with rfl | ⟨-, -, hact⟩
    · have : (releaseOccupant st t).ids.isManaged t = false := isManaged_releaseOccupant
      exact absurd (this.symm.trans hm) (by simp)
    · exact hact

theorem live_clientDisconnect {slot reason : Int} (hok : ¬ Superseded conn st.ids slot)
    (h : Live conn st.registry) :
    Live (Function.update conn slot false) (clientDisconnect E st slot reason).registry := by
  have hconn : ∀ r : Registry, Live conn r → Live (Function.update conn slot false) r := by
    intro r hr
    apply hr.weaken
    intro t ht
    by_cases hts : t = slot
    · simp [hts] at ht
    · exact Or.inl (by simpa [hts] using ht)
  apply clientDisconnect_rule (hconn _ h)
  intro _
  have hunmark := h.unmark hok
  exact ⟨fun _ => hconn _ hunmark, fun _ => hconn _ (live_congr hunmark Registry.ids_vacate)⟩

theorem live_step (hok : SparesSuperseded (st, conn) ev) (h : Live conn st.registry) :
    Live (trackConnected conn st ev) (step E st ev).registry := by
  obtain ⟨w, hook⟩ := ev
  have hw : Live conn (st.withWorld w).registry := h
  -- the hooks that may disguise every slot
  have hpass : (∀ t, st.mayDisguiseAll hook → Superseded conn st.ids t → EntryApplied st.ids t) →
      Spared conn (fun _ => st.mayDisguiseAll hook) (st.withWorld w).registry :=
    fun hspare => ⟨hw, fun t hall hsup => hspare t hall hsup⟩
  have hrule : st.mayDisguiseAll hook →
      DisguiseRule (Spared conn fun _ => st.mayDisguiseAll hook) fun _ => True :=
    fun hall r s i b hi _ => spared_disguiseRule r s i b hi hall
  cases hook with
  | onClientConnected slot name xuid fakePlayer =>
    exact live_onClientConnected hok hw
  | clientPutInServer slot =>
    refine (clientPutInServer_rule (I := Spared conn (· = slot)) spared_disguiseRule ⟨hw, ?_⟩).1
    rintro t rfl hsup
    exact hok hsup
  | clientDisconnect slot reason => exact live_clientDisconnect hok hw
  | dispatchConCommandPre command arguments =>
    exact (dispatchConCommandPre_rule hrule (hpass fun t hall => hok hall t)).1
  | dispatchConCommandPost command arguments =>
    exact (dispatchConCommandPost_rule (fun _ => spared_releaseRule) hrule
      (hpass fun t hall => hok hall t)).1
  | gameFrame nowSec =>
    have hspared : Spared conn (fun _ => st.mayDisguiseAll (.gameFrame nowSec))
        (gameFrame E (st.withWorld w) nowSec).registry :=
      gameFrame_rule (fun _ => spared_releaseRule) (fun _ hr => hr)
        (fun hend hhold => hrule ⟨hend, hhold⟩) (hpass fun t hall => hok hall t)
    exact hspared.1
  | onLevelInit mapName =>
    exact (onLevelInit_rule (fun _ => spared_releaseRule)
      (hpass fun t hall => absurd hall id)).1

/-- As long as no superseded slot is touched, connected managed slots are backed by different pool
entries with different names and SteamID64s, and each entry still names its slot. -/
theorem live_identities_unique {features : PluginFeatures} {mapBlacklist : List Bytes}
    {pool : LoadedPool} {mapped : Bool} {draws : Nat → Nat} {w : World} {es : List Event}
    (hok : Guarded (watch (step E) trackConnected) SparesSuperseded
      (load features mapBlacklist pool mapped draws w, fun _ => false) es) :
    let st := run (step E) (load features mapBlacklist pool mapped draws w) es
    let conn := observe (step E) trackConnected (load features mapBlacklist pool mapped draws w)
      (fun _ => false) es
    (∀ (s t : Int) (i j : Nat) (b c : BotIdentity), s ≠ t → conn s = true → conn t = true →
      st.ids.Holds s i → st.ids.Holds t j → st.ids.bots[i]? = some b → st.ids.bots[j]? = some c →
      i ≠ j ∧ b.name ≠ c.name ∧ (b.steamId ≠ 0 → b.steamId ≠ c.steamId)) ∧
    (∀ (s : Int) (i : Nat), conn s = true → st.ids.Holds s i →
      ∃ b : BotIdentity, st.ids.bots[i]? = some b ∧ b.slot = s) := by
  intro st conn
  have hinit : Live (fun _ => false) (load features mapBlacklist pool mapped draws w).registry := by
    rw [registry_load]
    refine ⟨pool.count_le, fun i b hb _ => pool.not_applied b (List.mem_of_getElem? hb), ?_, ?_⟩
    · intro s i hs
      simp at hs
    · intro s t i j b c _ hs
      simp at hs
  have hlive : Live conn st.registry := by
    have := run_invariant (I := fun p : State × (Int → Bool) => Live p.2 p.1.registry)
      (fun _ _ hok => live_step hok) hok hinit
    rwa [run_watch_fst] at this
  refine ⟨fun s t i j b c hst hs ht hsi htj hb hc => ⟨?_, ?_⟩, hlive.owned⟩
  · rintro rfl
    exact hst (hlive.owner_unique hs ht hsi htj)
  · exact hlive.distinct s t i j b c hst hs ht hsi htj hb hc

/-- Two bots of the list. -/
def duoPool : LoadedPool where
  bots := [{ name := ascii "INTEL" }, { name := ascii "IMPERIAL" }]
  count_le := by decide
  slot_eq := by decide
  not_applied := by decide
  name_le := by decide

/-- Both of them, on a server with two clients. -/
def duoLoad : State := load .plain [] duoPool true (fun _ => 0) (.ofClients [100, 400] nodup_duo)

/-- The engine calls a hook with two clients, reporting the slots below a bound as inactive. -/
def onTwoClients (inactiveBelow : Int) (hook : Hook) : Event :=
  ⟨{ World.ofClients [100, 400] nodup_duo with connected := fun s => decide (inactiveBelow ≤ s) },
    hook⟩

/-- A connect to an unmanaged slot is always spared. -/
theorem sparesSuperseded_of_not_managed {p : State × (Int → Bool)} {w : World} {slot : Int}
    {name : Option Bytes} {xuid : UInt64} {fakePlayer : Bool}
    (h : p.1.ids.isManaged slot = false) :
    SparesSuperseded p ⟨w, .onClientConnected slot name xuid fakePlayer⟩ := by
  simp only [SparesSuperseded]
  split
  · simp [h]
  · rintro ⟨s, i, -, -, -, hold⟩
    exact Identities.isManaged_eq_false_iff.mp h i hold

/-- Both slots are connected and hold an entry of their own. -/
def twoConnectsRun : List Event :=
  [onTwoClients 0 (.onClientConnected 0 none 0 true),
    onTwoClients 0 (.onClientConnected 1 none 0 true)]

theorem live_identities_unique_after_two_connects :
    let st := run (step .idle) duoLoad twoConnectsRun
    ∀ b c, st.ids.bots[0]? = some b → st.ids.bots[1]? = some c → b.name ≠ c.name := by
  intro st b c hb hc
  have hok : Guarded (watch (step .idle) trackConnected) SparesSuperseded
      (duoLoad, fun _ => false) twoConnectsRun :=
    ⟨sparesSuperseded_of_not_managed (by decide +kernel),
      sparesSuperseded_of_not_managed (by decide +kernel), trivial⟩
  exact ((live_identities_unique hok).1 0 1 0 1 b c (by decide) (by decide +kernel)
    (by decide +kernel) ⟨by decide, by decide, by decide +kernel⟩
    ⟨by decide, by decide, by decide +kernel⟩ hb hc).2.1

/-- The only entry moves to slot 1 when slot 0 falls silent, and is let go when slot 0 reconnects. -/
def reconnectRun : List Event :=
  [onTwoClients 0 (.onClientConnected 0 none 0 true),
    onTwoClients 1 (.onClientConnected 1 none 0 true),
    onTwoClients 0 (.onClientConnected 0 none 0 true)]

/-- Two connected managed slots end up on the same pool entry. -/
theorem live_identity_shared :
    let st := run (step .idle) soloLoad reconnectRun
    let conn := observe (step .idle) trackConnected soloLoad (fun _ => false) reconnectRun
    conn 0 = true ∧ conn 1 = true ∧ st.ids.slots 0 = 0 ∧ st.ids.slots 1 = 0 := by
  decide +kernel

end Botid
