import Botid.Reap

/-! Deferred controller removals: what a drain removes, what it keeps, and for how long. -/
namespace Botid

open Machine

variable {E : EngineCalls} {ids : Identities} {remove : Ptr → World → World} {w : World}
  {item : PendingControllerRemoval} {items pending : List PendingControllerRemoval} {c client : Ptr}
  {slot : Int} {userId : UInt16}

/-- What `drainItem` decides: what stays queued of the item, and the controller to call `UTIL_Remove`
on. -/
def verdict (E : EngineCalls) (w : World) (item : PendingControllerRemoval) :
    Option PendingControllerRemoval × Option Ptr :=
  match w.resolveController (E.getEntryIndex item.handle) with
  | none => (none, none)
  | some current =>
    if current ≠ item.controller ∨ w.entityIdentity current = none ∨
        w.refEHandle current ≠ item.handle then (none, none)
    else
      match isControllerReferencedByClient w current with
      | none => (none, some current)
      | some userId =>
        if userId = 65535 then (none, some current)
        else if userId ≠ item.userId then (none, none)
        else if item.referencedFrames = 0 then
          (some { item with referencedFrames := item.referencedFrames + 1 }, none)
        else (none, some current)

/-- One item's turn in a drain, with the world it is looked at in. -/
structure Visit where
  item : PendingControllerRemoval
  world : World

def Visit.kept (E : EngineCalls) (v : Visit) : Option PendingControllerRemoval := (verdict E v.world v.item).1
def Visit.removed (E : EngineCalls) (v : Visit) : Option Ptr := (verdict E v.world v.item).2

/-- The world after a visit: changed by the removal, if there was one. -/
def Visit.after (E : EngineCalls) (remove : Ptr → World → World) (v : Visit) : World :=
  match v.removed E with
  | some controller => remove controller (detachControllerFromTeam E v.world controller)
  | none => v.world

/-- The visits of a drain, first to last, and the world behind them. -/
def visits (E : EngineCalls) (remove : Ptr → World → World) :
    World → List PendingControllerRemoval → List Visit × World
  | w, [] => ([], w)
  | w, item :: items =>
    let v : Visit := ⟨item, w⟩
    let rest := visits E remove (v.after E remove) items
    (v :: rest.1, rest.2)

theorem drainItem_eq_visit : drainItem E remove w item =
    (Visit.kept E ⟨item, w⟩, Visit.after E remove ⟨item, w⟩) := by
  unfold drainItem Visit.after Visit.removed Visit.kept verdict
  cases w.resolveController (E.getEntryIndex item.handle) with
  | none => rfl
  | some current =>
    dsimp only
    split
    · rfl
    · cases isControllerReferencedByClient w current with
      | none => rfl
      | some userId =>
        dsimp only
        split
        · rfl
        · split
          · rfl
          · split
            · rfl
            · rfl

theorem foldl_drainStep {kept : List PendingControllerRemoval} :
    items.foldl (drainStep E remove) (kept, w) =
      (kept ++ (visits E remove w items).1.filterMap (Visit.kept E), (visits E remove w items).2) := by
  induction items generalizing kept w with
  | nil => simp [visits]
  | cons item items ih =>
    rw [List.foldl_cons, drainStep, drainItem_eq_visit, ih, visits]
    cases h : Visit.kept E ⟨item, w⟩ with
    | none => simp [h]
    | some i => simp [h]

/-- The visits a whole drain makes: none where it clears the queue. -/
def drainVisits (E : EngineCalls) (pending : List PendingControllerRemoval) (w : World) : List Visit :=
  if !w.serverAlive then []
  else
    match E.utilRemove with
    | none => []
    | some remove => (visits E remove w pending).1

theorem drain_eq_visits : (drainPendingControllerRemovals E ids pending w).1 =
    (drainVisits E pending w).filterMap (Visit.kept E) := by
  rw [drainPendingControllerRemovals, drainVisits]
  split
  · rfl
  · cases E.utilRemove with
    | none => rfl
    | some remove =>
      dsimp only
      rw [foldl_drainStep]
      rfl

/-- And the world the drain leaves is the one the visits lead to. -/
theorem drain_world (halive : w.serverAlive = true) (hremove : E.utilRemove = some remove) :
    (drainPendingControllerRemovals E ids pending w).2 =
      shrinkTrailingLeftoverClients ids (visits E remove w pending).2 := by
  rw [drainPendingControllerRemovals, halive, hremove, if_neg (by simp)]
  dsimp only
  rw [foldl_drainStep]

theorem drainVisits_eq (halive : w.serverAlive = true) (hremove : E.utilRemove = some remove) :
    drainVisits E pending w = (visits E remove w pending).1 := by
  rw [drainVisits, halive, hremove]
  rfl

/-- Without a server, or without `UTIL_Remove`, the drain clears the queue and calls nothing. -/
theorem drain_off (h : w.serverAlive = false ∨ E.utilRemove = none) : drainVisits E pending w = [] ∧
    drainPendingControllerRemovals E ids pending w =
      ([], if w.serverAlive then shrinkTrailingLeftoverClients ids w else w) := by
  rw [drainVisits, drainPendingControllerRemovals]
  cases halive : w.serverAlive with
  | false => exact ⟨rfl, rfl⟩
  | true =>
    rcases h with h | h
    · rw [halive] at h
      cases h
    · rw [h]
      exact ⟨rfl, rfl⟩

theorem visits_items : (visits E remove w items).1.map Visit.item = items := by
  induction items generalizing w with
  | nil => rfl
  | cons item items ih => rw [visits, List.map_cons, ih]

/-- The entity at the handle's index is the queued controller, with an identity and its live handle. -/
structure IsTarget (E : EngineCalls) (w : World) (item : PendingControllerRemoval) : Prop where
  resolves : w.resolveController (E.getEntryIndex item.handle) = some item.controller
  identity : w.entityIdentity item.controller ≠ none
  live : w.refEHandle item.controller = item.handle

/-- The client in the slot has the controller. -/
structure References (w : World) (slot : Int) (client c : Ptr) : Prop where
  resolves : w.resolveClientBySlot slot = some client
  controller : w.resolveController (getEntityIndex (w.client client)) = some c

/-- At most 64 clients, no two of them with the same controller's entity index, and no controller at
two indices. -/
structure OneReference (w : World) : Prop where
  count_le : w.clients.length ≤ 64
  index_once : ∀ s t p q c, References w s p c → w.resolveClientBySlot t = some q →
    getEntityIndex (w.client q) = getEntityIndex (w.client p) → s = t
  instance_once : ∀ i j c, w.resolveController i = some c → w.resolveController j = some c → i = j

/-- What can become of an item: dropped, kept for another frame, or removed. -/
inductive Decision (E : EngineCalls) (w : World) (item : PendingControllerRemoval) :
    Option PendingControllerRemoval × Option Ptr → Prop
  | dropped : Decision E w item (none, none)
  | waits (target : IsTarget E w item) (first : item.referencedFrames = 0)
      (referenced : isControllerReferencedByClient w item.controller = some item.userId) :
    Decision E w item (some { item with referencedFrames := 1 }, none)
  | removed (target : IsTarget E w item)
      (free : ∀ userId, isControllerReferencedByClient w item.controller = some userId →
        userId = 65535 ∨ userId = item.userId) :
    Decision E w item (none, some item.controller)

theorem verdict_decision : Decision E w item (verdict E w item) := by
  unfold verdict
  cases hr : w.resolveController (E.getEntryIndex item.handle) with
  | none => exact .dropped
  | some current =>
    dsimp only
    split
    · exact .dropped
    · rename_i hguard
      simp only [not_or, not_not] at hguard
      obtain ⟨rfl, hid, hlive⟩ := hguard
      have htarget : IsTarget E w item := ⟨hr, hid, hlive⟩
      cases href : isControllerReferencedByClient w item.controller with
      | none =>
        refine .removed htarget fun userId h => ?_
        rw [href] at h
        cases h
      | some userId =>
        dsimp only
        split
        · refine .removed htarget fun userId' h => ?_
          rw [href] at h
          cases h
          exact Or.inl ‹_›
        · split
          · exact .dropped
          · rename_i huser
            rw [ne_eq, not_not] at huser
            subst huser
            split
            · rename_i hfirst
              rw [hfirst]
              exact .waits htarget hfirst href
            · refine .removed htarget fun userId' h => ?_
              rw [href] at h
              cases h
              exact Or.inr rfl

theorem references_of_some (h : isControllerReferencedByClient w c = some userId) :
    ∃ slot client, References w slot client c ∧ readUserId (w.client client) = userId := by
  obtain ⟨slot, -, hslot⟩ := List.exists_of_findSome?_eq_some h
  split at hslot
  · cases hslot
  · rename_i client hclient
    split at hslot
    · rename_i hcontroller
      cases hslot
      exact ⟨slot, client, ⟨hclient, hcontroller⟩, rfl⟩
    · cases hslot

/-- Where no two clients share a controller, the search finds the client that has it. -/
theorem referenced_of_references (h : OneReference w) (href : References w slot client c) :
    isControllerReferencedByClient w c = some (readUserId (w.client client)) := by
  cases hfound : isControllerReferencedByClient w c with
  | none =>
    obtain ⟨h0, hlt⟩ := World.resolveClientBySlot_eq_some href.resolves
    have hbound := (List.getElem?_eq_some_iff.mp hlt).1
    have hcount := h.count_le
    have hmem : slot ∈ allSlots := mem_allSlots.mpr ⟨h0, by simp only [kMaxSlots]; omega⟩
    have hnone := List.findSome?_eq_none_iff.mp hfound slot hmem
    rw [href.resolves] at hnone
    dsimp only at hnone
    rw [if_pos href.controller] at hnone
    cases hnone
  | some userId =>
    obtain ⟨slot', client', href', huser⟩ := references_of_some hfound
    have hindex := h.instance_once _ _ _ href.controller href'.controller
    have hslot := h.index_once slot slot' client client' c href href'.resolves hindex.symm
    subst hslot
    have hclient := href.resolves.symm.trans href'.resolves
    cases hclient
    rw [huser]

/-- A visit that called `UTIL_Remove`, or left the item queued, was right to. -/
structure Justified (E : EngineCalls) (v : Visit) : Prop where
  removes : ∀ c, v.removed E = some c → c = v.item.controller ∧ IsTarget E v.world v.item
  spares : OneReference v.world → ∀ c slot client, v.removed E = some c → References v.world slot client c →
    readUserId (v.world.client client) = 65535 ∨ readUserId (v.world.client client) = v.item.userId
  keeps : ∀ item, v.kept E = some item → item = { v.item with referencedFrames := 1 } ∧
    v.item.referencedFrames = 0 ∧ ∃ slot client, References v.world slot client v.item.controller ∧
      readUserId (v.world.client client) = v.item.userId

theorem justified (v : Visit) : Justified E v := by
  have h : Decision E v.world v.item (verdict E v.world v.item) := verdict_decision
  constructor
  · intro c hc
    rw [Visit.removed] at hc
    generalize verdict E v.world v.item = d at h hc
    cases h with
    | dropped | waits => cases hc
    | removed target free =>
      cases hc
      exact ⟨rfl, target⟩
  · intro hone c slot client hc href
    rw [Visit.removed] at hc
    generalize verdict E v.world v.item = d at h hc
    cases h with
    | dropped | waits => cases hc
    | removed target free =>
      cases hc
      exact free _ (referenced_of_references hone href)
  · intro item hitem
    rw [Visit.kept] at hitem
    generalize verdict E v.world v.item = d at h hitem
    cases h with
    | dropped | removed => cases hitem
    | waits target first referenced =>
      cases hitem
      exact ⟨rfl, first, references_of_some referenced⟩

theorem map_item_drainVisits : (drainVisits E pending w).map Visit.item = pending ∨
    drainVisits E pending w = [] := by
  rw [drainVisits]
  split
  · exact Or.inr rfl
  · cases E.utilRemove with
    | none => exact Or.inr rfl
    | some remove => exact Or.inl visits_items

/-- Every visit is to a queued item, in order and at most once. -/
theorem sublist_drainVisits : ((drainVisits E pending w).map Visit.item).Sublist pending := by
  rcases map_item_drainVisits with h | h
  · rw [h]
  · rw [h]
    exact List.nil_sublist pending

/-- What the two functions are called with: each time on the engine and the world of that moment. -/
inductive ReapInput
  | queueControllerRemovalForClient (E : EngineCalls) (w : World) (client : Ptr) (slot : Int)
  | drainPendingControllerRemovals (E : EngineCalls) (ids : Identities) (w : World)

/-- `g_Pending` after a call. -/
def reapStep (pending : List PendingControllerRemoval) : ReapInput → List PendingControllerRemoval
  | .queueControllerRemovalForClient E w client slot =>
    queueControllerRemovalForClient E w pending client slot
  | .drainPendingControllerRemovals E ids w => (drainPendingControllerRemovals E ids pending w).1

/-- Queueing leaves the queue alone or appends one new item that has not waited. -/
theorem queue_cases : queueControllerRemovalForClient E w pending client slot = pending ∨
    ∃ item : PendingControllerRemoval, item.referencedFrames = 0 ∧
      (∀ other ∈ pending, other.handle ≠ item.handle) ∧
      queueControllerRemovalForClient E w pending client slot = pending ++ [item] := by
  unfold queueControllerRemovalForClient
  split
  · exact Or.inl rfl
  · split
    · exact Or.inl rfl
    · dsimp only
      split
      · exact Or.inl rfl
      · split
        · exact Or.inl rfl
        · rename_i hnew
          simp only [List.any_eq_true, decide_eq_true_eq, not_exists, not_and] at hnew
          exact Or.inr ⟨_, rfl, hnew, rfl⟩

theorem handle_of_kept {v : Visit} (h : v.kept E = some item) : item.handle = v.item.handle := by
  rw [((justified v).keeps item h).1]

/-- What a drain keeps are handles that were queued, in the same order. -/
theorem handles_drain {vs : List Visit} : ((vs.filterMap (Visit.kept E)).map fun item => item.handle).Sublist
    (vs.map fun v => v.item.handle) := by
  induction vs with
  | nil => exact List.Sublist.refl []
  | cons v vs ih =>
    rw [List.filterMap_cons]
    cases hkept : v.kept E with
    | none => exact ih.cons _
    | some item =>
      rw [List.map_cons, List.map_cons, handle_of_kept hkept]
      exact ih.cons_cons _

/-- No two queued items have the same handle. -/
def DistinctHandles (pending : List PendingControllerRemoval) : Prop :=
  (pending.map fun item => item.handle).Nodup

theorem nodup_reapStep {input : ReapInput} (h : DistinctHandles pending) :
    DistinctHandles (reapStep pending input) := by
  cases input with
  | queueControllerRemovalForClient E w client slot =>
    rw [reapStep]
    rcases @queue_cases E w pending client slot with hq | ⟨item, -, hnew, hq⟩
    · rwa [hq]
    · rw [hq, DistinctHandles, List.map_append, List.map_singleton]
      refine List.nodup_append.mpr ⟨h, by simp, ?_⟩
      rintro handle hmem _ hsingle rfl
      obtain ⟨other, hother, heq⟩ := List.mem_map.mp hmem
      exact hnew other hother (heq.trans (List.mem_singleton.mp hsingle))
  | drainPendingControllerRemovals E ids w =>
    rw [reapStep, drain_eq_visits]
    refine handles_drain.nodup ?_
    rw [← Function.comp_def (fun item : PendingControllerRemoval => item.handle) Visit.item, ← List.map_map]
    exact (sublist_drainVisits.map _).nodup h

/-- A queued item, and which call of the run queued it. -/
structure Entry where
  item : PendingControllerRemoval
  since : Nat

/-- The queue with that memory, and the number of calls so far. -/
def tagStep (p : Nat × List Entry) : ReapInput → Nat × List Entry
  | .queueControllerRemovalForClient E w client slot =>
    let pending := queueControllerRemovalForClient E w (p.2.map Entry.item) client slot
    (p.1 + 1, p.2 ++ (pending.drop p.2.length).map fun item => ⟨item, p.1⟩)
  | .drainPendingControllerRemovals E _ w =>
    (p.1 + 1, (p.2.zip (drainVisits E (p.2.map Entry.item) w)).filterMap fun q =>
      (q.2.kept E).map fun item => ⟨item, q.1.since⟩)

variable {entries : List Entry} {vs : List Visit} {entry : Entry} {n k : Nat}

theorem map_item_kept (h : vs.map Visit.item = entries.map Entry.item ∨ vs = []) :
    (((entries.zip vs).filterMap fun q => (q.2.kept E).map fun item => (⟨item, q.1.since⟩ : Entry)).map
      Entry.item) = vs.filterMap (Visit.kept E) := by
  induction vs generalizing entries with
  | nil => simp
  | cons v vs ih =>
    rcases h with h | h
    · cases entries with
      | nil => cases h
      | cons e entries =>
        have hrest := ih (Or.inl (List.cons.inj h).2)
        rw [List.zip_cons_cons, List.filterMap_cons, List.filterMap_cons]
        cases hkept : v.kept E with
        | none => simpa using hrest
        | some item => simpa using hrest
    · cases h

/-- The memory does not change what is queued. -/
theorem tagStep_items {p : Nat × List Entry} {input : ReapInput} :
    (tagStep p input).2.map Entry.item = reapStep (p.2.map Entry.item) input := by
  cases input with
  | queueControllerRemovalForClient E w client slot =>
    rw [tagStep, reapStep]
    rcases @queue_cases E w (p.2.map Entry.item) client slot with hq | ⟨item, -, -, hq⟩
    · simp [hq]
    · simp [hq]
  | drainPendingControllerRemovals E ids w =>
    rw [tagStep, reapStep, drain_eq_visits]
    exact map_item_kept map_item_drainVisits

theorem run_tagStep_items (p : Nat × List Entry) (inputs : List ReapInput) :
    (run tagStep p inputs).2.map Entry.item = run reapStep (p.2.map Entry.item) inputs := by
  induction inputs generalizing p with
  | nil => rfl
  | cons input inputs ih => rw [run_cons, run_cons, ih, tagStep_items]

theorem tagStep_count {p : Nat × List Entry} {input : ReapInput} : (tagStep p input).1 = p.1 + 1 := by
  cases input <;> rfl

theorem run_tagStep_count (p : Nat × List Entry) (inputs : List ReapInput) :
    (run tagStep p inputs).1 = p.1 + inputs.length := by
  induction inputs generalizing p with
  | nil => rfl
  | cons input inputs ih =>
    rw [run_cons, ih, tagStep_count, List.length_cons]
    omega

theorem item_of_mem_zip {v : Visit} (h : vs.map Visit.item = entries.map Entry.item)
    (hmem : (entry, v) ∈ entries.zip vs) : v.item = entry.item := by
  induction vs generalizing entries with
  | nil => simp at hmem
  | cons u vs ih =>
    cases entries with
    | nil => cases hmem
    | cons e entries =>
      obtain ⟨hfirst, hrest⟩ := List.cons.inj h
      rw [List.zip_cons_cons] at hmem
      rcases List.mem_cons.mp hmem with heq | hmem
      · cases heq
        exact hfirst
      · exact ih hrest hmem

/-- What survives a drain had not waited before, and has now. -/
theorem survivor {p : Nat × List Entry}
    (h : entry ∈ (tagStep p (.drainPendingControllerRemovals E ids w)).2) :
    ∃ before ∈ p.2, before.since = entry.since ∧ before.item.referencedFrames = 0 ∧
      entry.item.referencedFrames = 1 := by
  obtain ⟨⟨before, v⟩, hmem, hkept⟩ := List.mem_filterMap.mp h
  obtain ⟨item, hitem, rfl⟩ := Option.map_eq_some_iff.mp hkept
  obtain ⟨heq, hfirst, -⟩ := (justified v).keeps item hitem
  refine ⟨before, (List.of_mem_zip hmem).1, rfl, ?_, ?_⟩
  · rcases @map_item_drainVisits E w (p.2.map Entry.item) with hvs | hvs
    · rwa [← item_of_mem_zip hvs hmem]
    · rw [hvs] at hmem
      simp at hmem
  · dsimp only
    rw [heq]

/-- Whatever was queued before call `k` has waited. -/
def OldWaited (k : Nat) (p : Nat × List Entry) : Prop :=
  k ≤ p.1 ∧ ∀ entry ∈ p.2, entry.since < k → entry.item.referencedFrames ≠ 0

theorem oldWaited_step {p : Nat × List Entry} {input : ReapInput} (h : OldWaited k p) :
    OldWaited k (tagStep p input) := by
  obtain ⟨hk, hold⟩ := h
  refine ⟨by rw [tagStep_count]; omega, ?_⟩
  intro entry hentry hsince
  cases input with
  | queueControllerRemovalForClient E w client slot =>
    rw [tagStep] at hentry
    rcases List.mem_append.mp hentry with hentry | hentry
    · exact hold entry hentry hsince
    · obtain ⟨item, -, rfl⟩ := List.mem_map.mp hentry
      dsimp only at hsince
      omega
  | drainPendingControllerRemovals E ids w =>
    obtain ⟨before, -, -, -, hone⟩ := survivor hentry
    omega

theorem oldWaited_drain {p : Nat × List Entry} :
    OldWaited (p.1 + 1) (tagStep p (.drainPendingControllerRemovals E ids w)) := by
  refine ⟨by rw [tagStep_count], ?_⟩
  intro entry hentry _
  obtain ⟨before, -, -, -, hone⟩ := survivor hentry
  omega

/-- After two drains nothing is queued that was there before the first of them. -/
theorem gone_after_two {before mid : List ReapInput} {E' : EngineCalls} {ids' : Identities} {w' : World}
    (h : entry ∈ (run tagStep (0, []) (before ++ .drainPendingControllerRemovals E ids w :: (mid ++
      [.drainPendingControllerRemovals E' ids' w']))).2) : before.length < entry.since := by
  rw [run_append, run_cons, run_append, run_cons, run_nil] at h
  have hcount := run_tagStep_count (0, []) before
  generalize run tagStep (0, []) before = p at h hcount
  have hold : OldWaited (p.1 + 1) (run tagStep (tagStep p (.drainPendingControllerRemovals E ids w)) mid) :=
    run_invariant_of_step (fun _ _ => oldWaited_step) oldWaited_drain
  obtain ⟨e, he, hsince, hfirst, -⟩ := survivor h
  by_contra hle
  refine hold.2 e he ?_ hfirst
  dsimp only at hcount
  omega

theorem controller_removals_bounded (inputs : List ReapInput) :
    let pending := run reapStep [] inputs
    DistinctHandles pending ∧
    (∀ E ids w,
      (drainPendingControllerRemovals E ids pending w).1 =
          (drainVisits E pending w).filterMap (Visit.kept E) ∧
        ((drainVisits E pending w).map Visit.item).Sublist pending ∧
        (∀ v ∈ drainVisits E pending w, Justified E v) ∧
        (∀ remove, w.serverAlive = true → E.utilRemove = some remove →
          drainVisits E pending w = (visits E remove w pending).1 ∧
            (drainPendingControllerRemovals E ids pending w).2 =
              shrinkTrailingLeftoverClients ids (visits E remove w pending).2) ∧
        (w.serverAlive = false ∨ E.utilRemove = none →
          drainVisits E pending w = [] ∧ drainPendingControllerRemovals E ids pending w =
            ([], if w.serverAlive then shrinkTrailingLeftoverClients ids w else w))) ∧
    (run tagStep (0, []) inputs).2.map Entry.item = pending ∧
    ∀ before E ids w mid E' ids' w',
      inputs = before ++ .drainPendingControllerRemovals E ids w :: (mid ++
        [.drainPendingControllerRemovals E' ids' w']) →
      ∀ entry ∈ (run tagStep (0, []) inputs).2, before.length < entry.since := by
  intro pending
  refine ⟨?_, ?_, run_tagStep_items (0, []) inputs, ?_⟩
  · exact run_invariant_of_step (fun _ _ => nodup_reapStep) List.nodup_nil
  · intro E ids w
    exact ⟨drain_eq_visits, sublist_drainVisits, fun v _ => justified v,
      fun remove halive hremove => ⟨drainVisits_eq halive hremove, drain_world halive hremove⟩,
      drain_off⟩
  · rintro before E ids w mid E' ids' w' rfl entry hentry
    exact gone_after_two hentry

end Botid
