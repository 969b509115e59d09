import Botid.FreeIdentity
import Botid.Published
import Mathlib.Data.List.Perm.Subperm

/-! No pool entry is ever lost: an assigned one is held by the slot it names, so a pool of distinct
identities that is larger than the number of managed slots has one for every bot that connects. -/
namespace Botid

open Machine

variable {E : EngineCalls} {st : State} {ev : Event} {r : Registry} {s t : Int} {i j : Nat}
  {b c : BotIdentity} {bots : List BotIdentity} {w : World} {name : Option Bytes}

/-- An entry is unassigned, or held by the slot it names. -/
def Registry.Accounted (r : Registry) : Prop :=
  r.ids.bots.length ≤ kMaxBotIdentities ∧
    ∀ i b, r.ids.bots[i]? = some b → (b.slot = -1 ∧ b.applied = false) ∨ r.ids.Holds b.slot i

/-- The managed slots, in order. -/
def managedSlots (ids : Identities) : List Int := allSlots.filter ids.isManaged

def isAssigned (bots : List BotIdentity) (i : Nat) : Bool := bots[i]?.any fun b => 0 ≤ b.slot

/-- The entries that name a slot. -/
def assignedEntries (bots : List BotIdentity) : List Nat :=
  (List.range bots.length).filter (isAssigned bots)

/-- No two entries share a name or a non-zero SteamID64. -/
def DistinctEntries (bots : List BotIdentity) : Prop :=
  ∀ (i j : Nat) (b c : BotIdentity), i ≠ j → bots[i]? = some b → bots[j]? = some c →
    b.name ≠ c.name ∧ (b.steamId ≠ 0 → b.steamId ≠ c.steamId)

theorem isAssigned_iff : isAssigned bots i = true ↔ ∃ b, bots[i]? = some b ∧ 0 ≤ b.slot := by
  simp [isAssigned, Option.any_eq_true]

theorem mem_assignedEntries : i ∈ assignedEntries bots ↔ ∃ b, bots[i]? = some b ∧ 0 ≤ b.slot := by
  rw [assignedEntries, List.mem_filter, List.mem_range, isAssigned_iff]
  constructor
  · exact fun h => h.2
  · rintro ⟨b, hb, hs⟩
    exact ⟨(List.getElem?_eq_some_iff.mp hb).1, b, hb, hs⟩

theorem mem_managedSlots {ids : Identities} : s ∈ managedSlots ids ↔ ids.isManaged s = true := by
  rw [managedSlots, List.mem_filter, mem_allSlots]
  constructor
  · exact fun h => h.2
  · intro h
    exact ⟨Identities.range_of_isManaged h, h⟩

theorem length_managedSlots_le (ids : Identities) : (managedSlots ids).length ≤ 64 := by
  have hle := List.length_filter_le ids.isManaged allSlots
  rwa [allSlots, List.length_map, List.length_range, ← allSlots] at hle

theorem Registry.Accounted.unmark (h : r.Accounted) : (r.abandon s).Accounted := by
  refine ⟨by simpa [Identities.length_bots_unmark] using h.1, fun j c hc => ?_⟩
  rw [Registry.ids_abandon] at hc ⊢
  cases hm : r.ids.isManaged s with
  | false =>
    rw [Identities.unmark_of_not_managed hm] at hc ⊢
    exact h.2 j c hc
  | true =>
    obtain ⟨k, hold⟩ := Identities.isManaged_iff.mp hm
    rw [hold.bots_unmark, getElem?_modify_eq_some] at hc
    obtain ⟨b, hb, rfl⟩ := hc
    split
    · exact Or.inl ⟨rfl, rfl⟩
    · rename_i hjk
      refine (h.2 j b hb).imp_right fun ht => Identities.holds_unmark.mpr ⟨?_, ht⟩
      -- the slot let go holds another entry
      intro hts
      rw [hts] at ht
      exact hjk (ht.unique hold)

theorem Registry.Accounted.take {active : Int → Bool} {rd rd' : Rand} (h : r.Accounted)
    (hm : r.ids.isManaged s = false) (h0 : 0 ≤ s) (h1 : s < kMaxSlots)
    (hf : getFree active r.ids.bots rd = (some i, bots, rd')) : (r.take s i bots).Accounted := by
  obtain ⟨hholds, hothers, b, hb, -⟩ := Identities.take_spec (f := id) h.1 h0 h1 hf
  have hlen : bots.length ≤ kMaxBotIdentities := (length_getFree hf).trans_le h.1
  have hmodify : ∀ ids : Identities, ids.modifyBot i id = ids := by
    intro ids
    simp [Identities.modifyBot]
  rw [hmodify] at hholds hothers
  refine ⟨by rwa [Registry.take, Identities.bots_mark], fun j c hc => ?_⟩
  by_cases hji : j = i
  · subst hji
    -- what is handed out names no slot any more
    rw [Registry.take, Identities.bots_mark] at hc
    obtain ⟨b', hb', -, ⟨hneg, rfl⟩ | ⟨rfl, -⟩⟩ := getFree_some hf
    · obtain rfl : b' = c := Option.some.inj (hb'.symm.trans hc)
      rcases h.2 j b' hb' with hfree | hold
      · exact Or.inl hfree
      · exact absurd hold.1 (by omega)
    · obtain ⟨d, -, rfl⟩ := getElem?_modify_eq_some.mp hc
      rw [if_pos rfl]
      exact Or.inl ⟨rfl, rfl⟩
  · refine (h.2 j c ((hothers j hji).symm.trans hc)).imp_right fun ht => ?_
    refine (hholds _ j).mpr (Or.inr ⟨?_, ht⟩)
    intro hts
    rw [hts] at ht
    simp [ht.isManaged] at hm

theorem Registry.Accounted.disguise (h : r.Accounted) (hold : r.ids.Holds s i)
    {f : BotIdentity → BotIdentity} (hf : ∀ b, (f b).slot = s) :
    r.ids.bots.length ≤ kMaxBotIdentities ∧ ∀ j c, (r.ids.modifyBot i f).bots[j]? = some c →
      (c.slot = -1 ∧ c.applied = false) ∨ r.ids.Holds c.slot j := by
  refine ⟨h.1, fun j c hc => ?_⟩
  obtain ⟨b, hb, rfl⟩ := getElem?_modify_eq_some.mp hc
  split
  · rename_i hji
    rw [hf, hji]
    exact Or.inr hold
  · exact h.2 j b hb

theorem accounted_runHook (h : st.registry.Accounted) (hook : Hook) :
    (runHook E st hook).registry.Accounted := by
  refine runHook_rule rfl (fun r h => h.1) ?_ (fun r s h => h.unmark) ?_ ?_ h hook
  · intro r s h
    rw [Registry.Accounted, Registry.ids_vacate, ← Registry.ids_abandon]
    exact h.unmark
  · intro r s i bots rd rd' h hm h0 h1 hf
    exact h.take hm h0 h1 hf
  · intro r s i b h _ hold _ _
    constructor
    · obtain ⟨hlen, hbots⟩ := h.disguise hold (f := fun b => { b with slot := s }) fun _ => rfl
      exact ⟨by simpa using hlen, hbots⟩
    · obtain ⟨hlen, hbots⟩ :=
        h.disguise hold (f := fun b => { b with slot := s, applied := true }) fun _ => rfl
      rw [Registry.Accounted, Registry.ids_adopt]
      exact ⟨by simpa using hlen, hbots⟩

/-- Different entries name different slots, and all of these are managed. -/
theorem Registry.Accounted.length_assignedEntries_le (h : r.Accounted) :
    (assignedEntries r.ids.bots).length ≤ (managedSlots r.ids).length := by
  have hheld : ∀ i ∈ assignedEntries r.ids.bots, ∃ b : BotIdentity, r.ids.bots[i]? = some b ∧
      r.ids.Holds b.slot i := by
    intro i hi
    obtain ⟨b, hb, hs⟩ := mem_assignedEntries.mp hi
    rcases h.2 i b hb with ⟨hneg, -⟩ | hold
    · omega
    · exact ⟨b, hb, hold⟩
  have hslot : ∀ (i : Nat) (b : BotIdentity), r.ids.bots[i]? = some b →
      (r.ids.bots[i]?.elim (-1) BotIdentity.slot) = b.slot := by
    intro i b hb
    rw [hb]
    rfl
  rw [← List.length_map fun i => r.ids.bots[i]?.elim (-1) BotIdentity.slot]
  apply List.Subperm.length_le
  apply List.Nodup.subperm
  · apply List.Nodup.map_on _ (List.nodup_range.filter _)
    intro i hi j hj he
    obtain ⟨b, hb, hold⟩ := hheld i hi
    obtain ⟨c, hc, hold'⟩ := hheld j hj
    rw [hslot i b hb, hslot j c hc] at he
    exact hold.unique (he ▸ hold')
  · intro s hs
    obtain ⟨i, hi, rfl⟩ := List.mem_map.mp hs
    obtain ⟨b, hb, hold⟩ := hheld i hi
    rw [hslot i b hb]
    exact mem_managedSlots.mpr hold.isManaged

/-- Fewer managed slots than entries leave an entry unassigned. -/
theorem Registry.Accounted.exists_unassigned (h : r.Accounted)
    (hlt : (managedSlots r.ids).length < r.ids.bots.length) :
    ∃ (i : Nat) (b : BotIdentity), r.ids.bots[i]? = some b ∧ b.slot < 0 := by
  by_contra hnone
  simp only [not_exists, not_and, Int.not_lt] at hnone
  have hall : assignedEntries r.ids.bots = List.range r.ids.bots.length := by
    rw [assignedEntries, List.filter_eq_self]
    intro i hi
    have hb := List.getElem?_eq_getElem (List.mem_range.mp hi)
    exact isAssigned_iff.mpr ⟨_, hb, hnone i _ hb⟩
  have hle := h.length_assignedEntries_le
  rw [hall, List.length_range] at hle
  omega

/-- Names and SteamID64s decide it, and these never change. -/
theorem distinctEntries_of_named {ids : Identities} (hd : DistinctEntries bots)
    (h : ids.bots.map (fun b => (b.name, b.steamId)) = bots.map fun b => (b.name, b.steamId)) :
    DistinctEntries ids.bots := by
  have hsame : ∀ (i : Nat) (b : BotIdentity), ids.bots[i]? = some b → ∃ b₀, bots[i]? = some b₀ ∧
      b₀.name = b.name ∧ b₀.steamId = b.steamId := by
    intro i b hb
    have hget := congrArg (·[i]?) h
    simp only [List.getElem?_map, hb, Option.map_some] at hget
    obtain ⟨b₀, hb₀, he⟩ := Option.map_eq_some_iff.mp hget.symm
    exact ⟨b₀, hb₀, (Prod.mk.inj he).1, (Prod.mk.inj he).2⟩
  intro i j b c hij hb hc
  obtain ⟨b₀, hb₀, hbn, hbs⟩ := hsame i b hb
  obtain ⟨c₀, hc₀, hcn, hcs⟩ := hsame j c hc
  rw [← hbn, ← hbs, ← hcn, ← hcs]
  exact hd i j b₀ c₀ hij hb₀ hc₀

/-- Among distinct entries, one that names no slot is free for the taking. -/
theorem getFree_of_distinct {active : Int → Bool} {rd : Rand} (hd : DistinctEntries bots)
    (hb : bots[i]? = some b) (hs : b.slot < 0) :
    ∃ k bots' rd', getFree active bots rd = (some k, bots', rd') := by
  have hfree : Unassigned bots i := by
    refine ⟨b, hb, hs, fun j c hc hji _ => ?_⟩
    obtain ⟨hname, hsid⟩ := hd i j b c hji.symm hb hc
    exact ⟨hname.symm, fun h0 he => hsid h0 he.symm⟩
  rcases hg : getFree active bots rd with ⟨o, bots', rd'⟩
  cases o with
  | some k => exact ⟨k, bots', rd', rfl⟩
  | none =>
    have hnone := getFree_eq_none_iff.mp (congrArg Prod.fst hg)
    exact absurd hfree.eligible (hnone i)

/-- An entry was handed out, so the slot is managed from then on. -/
theorem isManaged_assignIdentity {rd' : Rand} (hlen : st.ids.bots.length ≤ kMaxBotIdentities)
    (h0 : 0 ≤ s) (h1 : s < kMaxSlots)
    (hf : getFree st.world.isSlotActive st.ids.bots st.rand = (some i, bots, rd')) :
    (assignIdentity st s).ids.isManaged s = true := by
  rw [assignIdentity, hf]
  dsimp only
  rw [Identities.isManaged_congr slots_applyDisguise]
  obtain ⟨hholds, -⟩ := Identities.take_spec (f := id) hlen h0 h1 hf
  have hold : (({ st.ids with bots := bots } : Identities).mark s i).Holds s i :=
    (hholds s i).mpr (Or.inl ⟨rfl, rfl⟩)
  exact hold.isManaged

/-- What a run of the plugin keeps about its pool. -/
theorem accounted_run {features : PluginFeatures} {mapBlacklist : List Bytes} {pool : LoadedPool}
    {mapped : Bool} {draws : Nat → Nat} {es : List Event} :
    let st := run (step E) (load features mapBlacklist pool mapped draws w) es
    st.registry.Accounted ∧ st.registry.Named (pool.bots.map fun b => (b.name, b.steamId)) := by
  intro st
  have hload := @registry_load features mapBlacklist pool mapped draws w
  have hlen : (pool.bots.map fun b => (b.name, b.steamId)).length ≤ kMaxBotIdentities := by
    rw [List.length_map]
    exact pool.count_le
  apply run_invariant_of_step (I := fun st : State => st.registry.Accounted ∧
    st.registry.Named (pool.bots.map fun b => (b.name, b.steamId)))
  · rintro st ev ⟨hacc, hnamed⟩
    have hw : (st.withWorld ev.world).registry.Accounted := hacc
    exact ⟨accounted_runHook hw ev.hook,
      @named_runHook _ (st.withWorld ev.world) _ hlen hnamed ev.hook⟩
  · rw [hload]
    refine ⟨⟨pool.count_le, fun i b hb => ?_⟩, rfl⟩
    have hmem := List.mem_of_getElem? hb
    exact Or.inl ⟨pool.slot_eq b hmem, pool.not_applied b hmem⟩

/-- In every reachable state each entry is unassigned or held by the slot it names, and no more entries
are assigned than slots managed. -/
theorem pool_never_leaks (E : EngineCalls) (features : PluginFeatures) (mapBlacklist : List Bytes)
    (pool : LoadedPool) (mapped : Bool) (draws : Nat → Nat) (w : World) (es : List Event) :
    let st := run (step E) (load features mapBlacklist pool mapped draws w) es
    st.ids.bots.length = pool.bots.length ∧
    (∀ i b, st.ids.bots[i]? = some b →
      (b.slot = -1 ∧ b.applied = false) ∨ st.ids.Holds b.slot i) ∧
    (assignedEntries st.ids.bots).length ≤ (managedSlots st.ids).length ∧
    (managedSlots st.ids).length ≤ 64 := by
  intro st
  obtain ⟨hacc, hmap⟩ := @accounted_run E w features mapBlacklist pool mapped draws es
  refine ⟨?_, hacc.2, hacc.length_assignedEntries_le, length_managedSlots_le _⟩
  have hlen := congrArg List.length hmap
  rwa [List.length_map, List.length_map] at hlen

/-- From a pool of distinct identities with more entries than other managed slots, a bot that connects
is always given one. -/
theorem connect_never_refused (E : EngineCalls) (features : PluginFeatures) (mapBlacklist : List Bytes)
    (pool : LoadedPool) (mapped : Bool) (draws : Nat → Nat) (w w' : World) (es : List Event) (s : Int)
    (name : Option Bytes) (hd : DistinctEntries pool.bots) (h0 : 0 ≤ s) (h1 : s < kMaxSlots)
    (hn : isHltvName name = false)
    (hopen : (run (step E) (load features mapBlacklist pool mapped draws w) es).gate.suspended = false)
    (hroom : ((managedSlots (run (step E) (load features mapBlacklist pool mapped draws w) es).ids).filter
      (· ≠ s)).length < pool.bots.length) :
    (step E (run (step E) (load features mapBlacklist pool mapped draws w) es)
      ⟨w', .onClientConnected s name 0 true⟩).ids.isManaged s = true := by
  obtain ⟨hacc, hmap⟩ := @accounted_run E w features mapBlacklist pool mapped draws es
  generalize run (step E) (load features mapBlacklist pool mapped draws w) es = st at *
  -- the previous occupant is off the table before the pool is asked
  have hreleased : ({ st.registry with ids := st.ids.unmark s } : Registry).Accounted :=
    @Registry.Accounted.unmark st.registry s hacc
  have hbots : (st.ids.unmark s).bots.map (fun b => (b.name, b.steamId)) =
      pool.bots.map fun b => (b.name, b.steamId) :=
    (map_unmark (g := fun b : BotIdentity => (b.name, b.steamId)) fun _ _ _ _ => rfl).trans hmap
  have hothers : managedSlots (st.ids.unmark s) = (managedSlots st.ids).filter (· ≠ s) := by
    rw [managedSlots, managedSlots, List.filter_filter]
    apply List.filter_congr
    intro t _
    rw [Bool.eq_iff_iff, Identities.isManaged_unmark]
    simp
  have hlen : (st.ids.unmark s).bots.length = pool.bots.length := by
    have := congrArg List.length hbots
    rwa [List.length_map, List.length_map] at this
  obtain ⟨i, b, hb, hs⟩ := hreleased.exists_unassigned (by
    dsimp only
    rw [hothers, hlen]
    exact hroom)
  change (onClientConnected (st.withWorld w') s name 0 true).ids.isManaged s = true
  rcases onClientConnected_cases (st.withWorld w') s name 0 true with
    ⟨hout, -⟩ | ⟨-, -, -, ⟨hskip, -⟩ | ⟨-, he⟩⟩
  · rcases hout with hout | hout | hout
    · omega
    · omega
    · exact absurd (hn.symm.trans hout) (by simp)
  · rcases hskip with hskip | hskip | hskip
    · exact absurd (hopen.symm.trans hskip) (by simp)
    · exact absurd rfl hskip
    · exact absurd hskip (by simp)
  · have hids : (releaseOccupant (st.withWorld w') s).ids = st.ids.unmark s := ids_releaseOccupant
    obtain ⟨k, bots', rd', hf⟩ := getFree_of_distinct (distinctEntries_of_named hd hbots) hb hs
    rw [he]
    have hlen' : (releaseOccupant (st.withWorld w') s).ids.bots.length ≤ kMaxBotIdentities := by
      rw [hids]
      exact hlen.trans_le pool.count_le
    rw [← hids] at hf
    exact isManaged_assignIdentity hlen' h0 h1 hf

/-- The second slot has its bot before the first one gets one. -/
theorem connect_never_refused_of_two :
    let st := run (step .idle) duoLoad [onTwoClients 0 (.onClientConnected 1 none 0 true)]
    st.ids.isManaged 1 = true ∧
      (step .idle st (onTwoClients 0 (.onClientConnected 0 none 0 true))).ids.isManaged 0 = true := by
  intro st
  have hdistinct : DistinctEntries duoPool.bots := by
    intro i j b c hij hb hc
    match i, j with
    | 0, 0 => exact absurd rfl hij
    | 0, 1 => cases hb; cases hc; decide
    | 1, 0 => cases hb; cases hc; decide
    | 1, 1 => exact absurd rfl hij
    | 0, n + 2 => cases hc
    | 1, n + 2 => cases hc
    | n + 2, _ => cases hb
  refine ⟨by decide +kernel, ?_⟩
  exact connect_never_refused .idle .plain [] duoPool true (fun _ => 0)
    (.ofClients [100, 400] nodup_duo) _ _ 0 none hdistinct (by decide) (by decide) rfl rfl
    (by decide +kernel)

end Botid
