import Botid.LivePlayers

/-! What a population command leaves behind: no leftover on a team, none at the end of the client list. -/
namespace Botid

open ByteMem Machine World

variable {E : EngineCalls} {st : State} {ids : Identities} {w w' : World} {s t i : Int} {p c d : Ptr}
  {M : Int → Prop} {pending : List PendingControllerRemoval} {remove : Ptr → World → World} {n k : Nat}

/-- Engine functions that do what they are for: `ChangeTeam` puts its controller on the team, `UTIL_Remove`
takes entities away at most, and neither touches a client or another controller's team. -/
structure EngineCalls.Orderly (E : EngineCalls) : Prop extends E.SparesClients where
  moved : ∀ c n w w', E.changeTeam c n w = some w' →
    readControllerTeam (w'.controller c) = UInt8.ofNat n ∧
      ∀ d, d ≠ c → readControllerTeam (w'.controller d) = readControllerTeam (w.controller d)
  movedEntities : ∀ c n w w', E.changeTeam c n w = some w' →
    ∀ i d, w'.resolveController i = some d → w.resolveController i = some d
  removedTeams : ∀ remove, E.utilRemove = some remove → ∀ c w d,
    readControllerTeam ((remove c w).controller d) = readControllerTeam (w.controller d)
  removedEntities : ∀ remove, E.utilRemove = some remove →
    ∀ c w i d, (remove c w).resolveController i = some d → w.resolveController i = some d

/-- No leftover at the end of the client list. -/
def Trimmed (ids : Identities) (w : World) : Prop :=
  w.clientListCount = 0 ∨ isTrailingLeftoverSlot ids w ((w.clientListCount : Int) - 1) = false

/-- The entity behind a slot plays for a team only while somebody has the slot. -/
def NoOrphan (ids : Identities) (s : Int) (w : World) : Prop :=
  ∀ c, w.resolveController (s + 1) = some c → w.OnTeam c → clientLooksLeftoverOrEmpty ids w s = false

/-- Nothing a leftover is told by has changed, nobody has joined a team, and no entity is new. -/
structure Clears (w w' : World) : Prop where
  client : w'.client = w.client
  clients : w'.clients = w.clients
  alive : w'.serverAlive = w.serverAlive
  teams : ∀ d, w'.OnTeam d → w.OnTeam d
  entities : ∀ i d, w'.resolveController i = some d → w.resolveController i = some d

theorem Clears.refl : Clears w w := ⟨rfl, rfl, rfl, fun _ h => h, fun _ _ h => h⟩

theorem Clears.trans {w₁ w₂ w₃ : World} (h : Clears w₁ w₂) (h' : Clears w₂ w₃) : Clears w₁ w₃ :=
  ⟨h'.client.trans h.client, h'.clients.trans h.clients, h'.alive.trans h.alive,
    fun d hd => h.teams d (h'.teams d hd), fun i d hd => h.entities i d (h'.entities i d hd)⟩

theorem Clears.leftover (h : Clears w w') :
    leftoverOrEmpty ids w' s = leftoverOrEmpty ids w s := by
  simp only [leftoverOrEmpty, resolveClientBySlot, h.client, h.clients, h.alive]

theorem Clears.trimmed (h : Clears w w') (ht : Trimmed ids w) : Trimmed ids w' := by
  have hcount : w'.clientListCount = w.clientListCount := by
    rw [clientListCount, clientListCount, h.clients, h.alive]
  rwa [Trimmed, hcount, isTrailingLeftoverSlot, h.leftover]

theorem Clears.noOrphan (h : Clears w w') (hs : NoOrphan ids s w) : NoOrphan ids s w' := by
  intro c hc hteam
  rw [clientLooksLeftoverOrEmpty, h.leftover]
  exact hs c (h.entities _ c hc) (h.teams c hteam)

theorem readControllerTeam_write {m : Mem} {team : UInt8} :
    readControllerTeam (writeControllerTeam m team) = team := by
  rw [readControllerTeam, writeControllerTeam, readLE_writeLE (by have := team.toNat_lt; omega)]
  exact UInt8.ofNat_toNat

theorem clears_clearTeam : Clears w (w.clearTeam c) ∧ ¬ (w.clearTeam c).OnTeam c := by
  have hself : readControllerTeam ((w.clearTeam c).controller c) = 0 := by
    rw [clearTeam, controller_onController_self, readControllerTeam_write]
  have hnot : ¬ (w.clearTeam c).OnTeam c := by
    rw [OnTeam, hself]
    decide
  refine ⟨⟨rfl, rfl, rfl, fun d hd => ?_, fun _ _ h => h⟩, hnot⟩
  by_cases hdc : d = c
  · subst hdc
    exact absurd hd hnot
  · have hother : (w.clearTeam c).controller d = w.controller d := by simp [clearTeam, onController, hdc]
    rwa [OnTeam, hother] at hd

theorem clears_changeTeam (hE : E.Orderly) (h : E.changeTeam c kSpectatorTeam w = some w') :
    Clears w w' ∧ ¬ w'.OnTeam c := by
  obtain ⟨hself, hother⟩ := hE.moved c _ w w' h
  obtain ⟨hclient, hclients, halive⟩ := hE.changeTeam c _ w w' h
  have hnot : ¬ w'.OnTeam c := by
    rw [OnTeam, hself]
    decide
  refine ⟨⟨hclient, hclients, halive, fun d hd => ?_, hE.movedEntities c _ w w' h⟩, hnot⟩
  by_cases hdc : d = c
  · subst hdc
    exact absurd hd hnot
  · rwa [OnTeam, hother d hdc] at hd

theorem clears_detachControllerFromTeam (hE : E.Orderly) :
    Clears w (detachControllerFromTeam E w c) ∧ ¬ (detachControllerFromTeam E w c).OnTeam c := by
  rw [detachControllerFromTeam]
  split
  · rename_i hteam
    refine ⟨.refl, ?_⟩
    rintro (h | h)
    · exact hteam.1 h
    · exact hteam.2 h
  · split
    · exact clears_clearTeam
    · cases ht : E.changeTeam c kSpectatorTeam w with
      | none => exact clears_clearTeam
      | some w' => exact clears_changeTeam hE ht

theorem clears_remove (hE : E.Orderly) (hr : E.utilRemove = some remove) : Clears w (remove c w) := by
  obtain ⟨hclient, hclients, halive⟩ := hE.utilRemove remove hr c w
  refine ⟨hclient, hclients, halive, fun d hd => ?_, hE.removedEntities remove hr c w⟩
  rwa [OnTeam, hE.removedTeams remove hr c w d] at hd

/-- A pass leaves its slot without an orphan, and what it clears stays cleared. -/
theorem reapOrphan_spec (hE : E.Orderly) (hr : E.utilRemove = some remove) (w : World) (s : Int) :
    Clears w (reapOrphan E ids remove w s) ∧ NoOrphan ids s (reapOrphan E ids remove w s) := by
  rw [reapOrphan]
  split
  · rename_i hnone
    refine ⟨.refl, fun c hc _ => ?_⟩
    rw [hnone] at hc
    cases hc
  · rename_i c hc
    dsimp only
    split
    · rename_i hspared
      refine ⟨.refl, fun d hd hteam => ?_⟩
      obtain rfl : c = d := Option.some.inj (hc.symm.trans hd)
      rcases hspared with hleft | hteam'
      · simpa using hleft
      · exact absurd hteam (by rintro (h | h); exacts [hteam'.1 h, hteam'.2 h])
    · obtain ⟨hclears, hnot⟩ := @clears_detachControllerFromTeam E w c hE
      have hremoved : Clears w (remove c (detachControllerFromTeam E w c)) :=
        hclears.trans (clears_remove hE hr)
      have hno : ∀ w', Clears (detachControllerFromTeam E w c) w' → NoOrphan ids s w' := by
        intro w' h d hd hteam
        obtain rfl : c = d := Option.some.inj (hc.symm.trans (hclears.entities _ d (h.entities _ d hd)))
        exact absurd (h.teams c hteam) hnot
      split
      · exact ⟨hclears, hno _ .refl⟩
      · exact ⟨hremoved, hno _ (clears_remove hE hr)⟩

theorem noOrphan_reapOrphanControllers (hE : E.Orderly) (hr : E.utilRemove = some remove) :
    Clears w (reapOrphanControllers E ids w) ∧ (w.serverAlive = true → ∀ s, 0 ≤ s → s < kMaxSlots →
      NoOrphan ids s (reapOrphanControllers E ids w)) := by
  rw [reapOrphanControllers, hr]
  dsimp only
  split
  · rename_i halive
    exact ⟨.refl, fun h => by simp [h] at halive⟩
  · refine ⟨?_, fun _ s hs hs' => ?_⟩
    · exact forSlots_invariant (I := Clears w)
        (fun y t h => h.trans (reapOrphan_spec hE hr y t).1) .refl
    · exact forSlots_establishes (P := fun s w => NoOrphan ids s w)
        (fun y t => (reapOrphan_spec hE hr y t).2)
        (fun y t u h => (reapOrphan_spec hE hr y u).1.noOrphan h) hs hs'

/-- Where the count-down stops, there is nothing left or somebody. -/
theorem keepTrailing_stops (ids : Identities) (w : World) (n : Nat) : keepTrailing ids w n = 0 ∨
    isTrailingLeftoverSlot ids w ((keepTrailing ids w n : Int) - 1) = false := by
  induction n with
  | zero => exact Or.inl rfl
  | succ n ih =>
    rw [keepTrailing]
    split
    · exact ih
    · rename_i hn
      refine Or.inr ?_
      rw [Int.natCast_add, Int.natCast_one, Int.add_sub_cancel]
      simpa using hn

theorem trimmed_shrinkTrailingLeftoverClients : Trimmed ids (shrinkTrailingLeftoverClients ids w) := by
  have hstop := keepTrailing_stops ids w w.clientListCount
  have hle := (keepTrailing_spec ids w w.clientListCount).1
  rw [shrinkTrailingLeftoverClients]
  split
  · rename_i hkeep
    rwa [hkeep] at hstop
  · rename_i hkeep
    generalize keepTrailing ids w w.clientListCount = n at hstop hle hkeep ⊢
    have hcount : w.clientListCount = w.clients.length ∧ ¬ (!w.serverAlive ∨ 256 < w.clients.length) := by
      rw [clientListCount] at hle hkeep ⊢
      split at hle
      · simp_all
      · simp_all
    have hlength : (w.shrinkClientListTo n).clientListCount = n := by
      obtain ⟨hcount, hok⟩ := hcount
      rw [not_or] at hok
      have hcut : ¬ (!w.serverAlive ∨ 256 < w.clients.length ∨ w.clients.length ≤ n) := by
        simp only [not_or]
        exact ⟨hok.1, hok.2, by omega⟩
      rw [shrinkClientListTo, if_neg hcut, clientListCount, if_neg]
      · simp only [List.length_take]
        omega
      · simp only [not_or, List.length_take]
        exact ⟨hok.1, by omega⟩
    rw [Trimmed, hlength]
    refine hstop.imp_right fun h => ?_
    rw [← h]
    simp only [isTrailingLeftoverSlot, leftoverOrEmpty, resolveClientBySlot_shrinkClientListTo,
      client_shrinkClientListTo]
    rw [if_pos (Or.inr (by omega))]

theorem trimmed_drainPendingControllerRemovals :
    Trimmed ids (drainPendingControllerRemovals E ids pending w).2 := by
  rw [drainPendingControllerRemovals]
  split
  · rename_i halive
    refine Or.inl ?_
    rw [clientListCount, if_pos (Or.inl halive)]
  · split
    · exact trimmed_shrinkTrailingLeftoverClients
    · exact trimmed_shrinkTrailingLeftoverClients

theorem serverAlive_of_effect (hE : E.SparesClients) (h : Effect E M ids pending w w') :
    w'.serverAlive = w.serverAlive := by
  have hdetach : ∀ c, (detachControllerFromTeam E w c).serverAlive = w.serverAlive := by
    intro c
    rw [detachControllerFromTeam]
    split
    · rfl
    · split
      · rfl
      · cases ht : E.changeTeam c kSpectatorTeam w with
        | none => rfl
        | some w' => exact (hE.changeTeam c _ w w' ht).2.2
  have hremoved : ∀ remove, E.utilRemove = some remove → ∀ c,
      (w.removed E remove c).serverAlive = w.serverAlive :=
    fun remove hr c => (hE.utilRemove remove hr c _).2.2.trans (hdetach c)
  cases h with
  | @rewrite _ _ q _ _ h =>
    obtain ⟨_, _, rfl⟩ := (h (q + 1) none (Nat.ne_of_lt (Nat.lt_succ_self q)) (by simp)).mem
    rfl
  | spectate _ _ _ _ h => exact (hE.changeTeam _ _ _ _ h).2.2
  | drain _ _ hr => exact hremoved _ hr _
  | reap _ _ _ hr =>
    split
    · exact hdetach _
    · exact hremoved _ hr _
  | shrink h =>
    rw [shrinkClientListTo]
    split <;> rfl
  | neutralize => rfl

theorem serverAlive_of_effects (hE : E.SparesClients) (h : Effects E M ids pending w w') :
    w'.serverAlive = w.serverAlive := by
  induction h with
  | refl => rfl
  | tail _ hlast ih => exact (serverAlive_of_effect hE hlast).trans ih

theorem not_mapChange_of_isPopulationCommand {name : Bytes} (h : isPopulationCommand name = true) :
    isMapChangeCommand name = false ∧ name ≠ ascii "callvote" := by
  simp only [isPopulationCommand, isKickCommand, isBotAddCommand, Bool.or_eq_true, decide_eq_true_eq] at h
  rcases h with (rfl | rfl | rfl | rfl) | rfl | rfl | rfl <;> decide

/-- A population command's `Post` ends in the two drains and the reap. -/
theorem dispatchConCommandPost_population {name : Bytes} {arguments : List Bytes}
    (hname : isPopulationCommand name = true) (hg : st.gate.suspended = false) :
    ∃ st₁, dispatchConCommandPost E st (some name) arguments = reapAfterPopulationCommand E st₁ := by
  obtain ⟨hmap, hvote⟩ := not_mapChange_of_isPopulationCommand hname
  simp only [dispatchConCommandPost, hmap, hg, hname, Bool.false_eq_true, if_false, if_true, if_neg hvote]
  exact ⟨_, rfl⟩

/-- With an orderly engine, once `kick`, `bot_kick` or `bot_add` is through, nobody left over or gone plays
for a team, and the client list does not end in a leftover. -/
theorem population_command_leaves_no_orphan (E : EngineCalls) (st : State) (name : Bytes)
    (arguments : List Bytes) (hE : E.Orderly) (hr : E.utilRemove ≠ none)
    (hname : isPopulationCommand name = true) (hg : st.gate.suspended = false)
    (halive : st.world.serverAlive = true) :
    let st' := dispatchConCommandPost E st (some name) arguments
    Trimmed st'.ids st'.world ∧ ∀ s, 0 ≤ s → s < kMaxSlots → NoOrphan st'.ids s st'.world := by
  intro st'
  obtain ⟨remove, hremove⟩ := Option.ne_none_iff_exists'.mp hr
  have halive' : st'.world.serverAlive = true := by
    have hframe := serverAlive_of_effects hE.toSparesClients
      (effects_runHook E st (.dispatchConCommandPost (some name) arguments))
    exact hframe.trans halive
  obtain ⟨st₁, hpost⟩ := @dispatchConCommandPost_population E st name arguments hname hg
  have hst' : st' = reapAfterPopulationCommand E st₁ := hpost
  rw [hst'] at halive' ⊢
  rw [reapAfterPopulationCommand] at halive' ⊢
  dsimp only at halive' ⊢
  generalize drainPendingControllerRemovals E st₁.ids st₁.pending st₁.world = first at halive' ⊢
  have htrimmed : Trimmed st₁.ids (drainPendingControllerRemovals E st₁.ids first.1 first.2).2 :=
    trimmed_drainPendingControllerRemovals
  generalize drainPendingControllerRemovals E st₁.ids first.1 first.2 = second at halive' htrimmed ⊢
  obtain ⟨hclears, hnone⟩ := @noOrphan_reapOrphanControllers E st₁.ids second.2 remove hE hremove
  exact ⟨hclears.trimmed htrimmed, hnone (hclears.alive.symm.trans halive')⟩

/-- An engine that moves controllers as told and marks removed ones for deletion. -/
def EngineCalls.marking : EngineCalls where
  changeTeam c n w := some (w.onController c fun m => writeControllerTeam m (UInt8.ofNat n))
  utilRemove := some fun c w => { w with entityIdentity := Function.update w.entityIdentity c (some true) }
  getEntryIndex handle := handle.toNat % 0x8000

theorem orderly_marking : EngineCalls.marking.Orderly := by
  refine ⟨⟨?_, ?_⟩, ?_, ?_, ?_, ?_⟩
  · rintro c n w w' ⟨⟩
    exact ⟨rfl, rfl, rfl⟩
  · rintro remove ⟨⟩ c w
    exact ⟨rfl, rfl, rfl⟩
  · rintro c n w w' ⟨⟩
    refine ⟨by rw [controller_onController_self, readControllerTeam_write], fun d hd => ?_⟩
    simp [onController, hd]
  · rintro c n w w' ⟨⟩ i d h
    exact h
  · rintro remove ⟨⟩ c w d
    rfl
  · rintro remove ⟨⟩ c w i d h
    exact h

/-- An empty server with a controller on team 2 behind slot 0. -/
def orphaned : World :=
  { ofClients [] List.nodup_nil with
    entity := fun i => if i = 1 then some (200, ascii "cs_player_controller") else none
    controller := fun _ => writeControllerTeam (fun _ => 0) 2 }

theorem kick_leaves_no_orphan :
    let st' := dispatchConCommandPost .marking (soloLoad.withWorld orphaned) (some (ascii "kick")) []
    Trimmed st'.ids st'.world ∧ ∀ s, 0 ≤ s → s < kMaxSlots → NoOrphan st'.ids s st'.world :=
  population_command_leaves_no_orphan .marking (soloLoad.withWorld orphaned) (ascii "kick") []
    orderly_marking (Option.some_ne_none _) (by decide) (by decide) rfl

end Botid
