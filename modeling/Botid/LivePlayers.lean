import Botid.Effects

/-! What the effects leave out: a player who is no managed bot keeps the bytes of the client object. -/
namespace Botid

open ByteMem Machine World

variable {E : EngineCalls} {st : State} {ids : Identities} {w w' : World} {s : Int} {p c : Ptr}
  {M : Int → Prop} {pending : List PendingControllerRemoval} {remove : Ptr → World → World} {m : Mem}
  {t : Int} {q : Ptr} {a : Nat}

/-- Neither `ChangeTeam` nor `UTIL_Remove` touches client objects or the client list. -/
structure EngineCalls.SparesClients (E : EngineCalls) : Prop where
  changeTeam : E.LeavesClients
  utilRemove : ∀ remove, E.utilRemove = some remove → ∀ c w,
    (remove c w).client = w.client ∧ (remove c w).clients = w.clients ∧
      (remove c w).serverAlive = w.serverAlive

/-- A client object with a network channel or a SteamID64. -/
def Present (m : Mem) : Prop := readNetChannel m ≠ 0 ∨ readSteamId m ≠ 0

instance : Decidable (Present m) := inferInstanceAs (Decidable (_ ∨ _))

/-- The slot's client is this one, with every byte as it was. -/
def World.KeepsPlayer (s : Int) (p : Ptr) (w w' : World) : Prop :=
  w'.client p = w.client p ∧ w'.resolveClientBySlot s = w.resolveClientBySlot s

theorem World.KeepsPlayer.trans {w₁ w₂ w₃ : World} (h : KeepsPlayer s p w₁ w₂) (h' : KeepsPlayer s p w₂ w₃) :
    KeepsPlayer s p w₁ w₃ := ⟨h'.1.trans h.1, h'.2.trans h.2⟩

theorem keepsPlayer_of_eq (hclient : w'.client = w.client) (hclients : w'.clients = w.clients)
    (halive : w'.serverAlive = w.serverAlive) : KeepsPlayer s p w w' := by
  refine ⟨by rw [hclient], ?_⟩
  rw [resolveClientBySlot, resolveClientBySlot, hclients, halive]

theorem keepsPlayer_changeTeam (hE : E.SparesClients) {n : Nat}
    (h : E.changeTeam c n w = some w') : KeepsPlayer s p w w' := by
  obtain ⟨hclient, hclients, halive⟩ := hE.changeTeam c n w w' h
  exact keepsPlayer_of_eq hclient hclients halive

theorem keepsPlayer_detachControllerFromTeam (hE : E.SparesClients) :
    KeepsPlayer s p w (detachControllerFromTeam E w c) := by
  have hclear : KeepsPlayer s p w (w.clearTeam c) := ⟨rfl, rfl⟩
  rw [detachControllerFromTeam]
  split
  · exact ⟨rfl, rfl⟩
  · split
    · exact hclear
    · cases ht : E.changeTeam c kSpectatorTeam w with
      | none => exact hclear
      | some w' => exact keepsPlayer_changeTeam hE ht

theorem keepsPlayer_removed (hE : E.SparesClients) (hr : E.utilRemove = some remove) :
    KeepsPlayer s p w (w.removed E remove c) := by
  obtain ⟨hclient, hclients, halive⟩ := hE.utilRemove remove hr c (detachControllerFromTeam E w c)
  exact (keepsPlayer_detachControllerFromTeam hE).trans (keepsPlayer_of_eq hclient hclients halive)

theorem not_leftover_of_present (hp : w.resolveClientBySlot s = some p) (h : Present (w.client p)) :
    leftoverOrEmpty ids w s = false := by
  rw [leftoverOrEmpty, hp]
  rcases h with h | h
  · simp [h]
  · simp [h]

theorem client_shrinkClientListTo {n : Nat} : (w.shrinkClientListTo n).client = w.client := by
  rw [shrinkClientListTo]
  split <;> rfl

theorem World.OnlyPair.keepsPlayer (h : w.OnlyPair q w') (hne : q ≠ p) : KeepsPlayer s p w w' := by
  have hspares := h p none hne (by simp)
  exact ⟨hspares.client, hspares.mem.resolveClientBySlot⟩

/-- No effect touches the client of a slot outside `M` that has somebody in it. -/
theorem keepsPlayer_of_effect (hE : E.SparesClients) (hs : ¬ M s) (hp : w.resolveClientBySlot s = some p)
    (hpresent : Present (w.client p)) (h : Effect E M ids pending w w') : KeepsPlayer s p w w' := by
  cases h with
  | @rewrite _ t q ht hq h =>
    have hne : q ≠ p := by
      rintro rfl
      exact hs (resolveClientBySlot_inj hp hq ▸ ht)
    exact h.keepsPlayer hne
  | spectate _ _ _ _ h => exact keepsPlayer_changeTeam hE h
  | drain _ _ hr => exact keepsPlayer_removed hE hr
  | reap _ _ _ hr =>
    split
    · exact keepsPlayer_detachControllerFromTeam hE
    · exact keepsPlayer_removed hE hr
  | @shrink n h =>
    refine ⟨by rw [client_shrinkClientListTo], ?_⟩
    rw [resolveClientBySlot_shrinkClientListTo]
    split
    · rfl
    · rename_i hcut
      -- the slot would be in the tail that is cut off, so it would be a leftover
      obtain ⟨hs0, hget⟩ := resolveClientBySlot_eq_some hp
      have hlt := (List.getElem?_eq_some_iff.mp hget).1
      have hcount := clientListCount_of_resolve hp
      have hleft := h s.toNat (by omega) (by omega)
      rw [Int.toNat_of_nonneg hs0, isTrailingLeftoverSlot, not_leftover_of_present hp hpresent] at hleft
      cases hleft
  | @neutralize t q ht hq hchannel hsid =>
    have hne : p ≠ q := by
      rintro rfl
      exact hpresent.elim (fun h => h hchannel) (fun h => h hsid)
    exact ⟨client_onClient_of_ne hne, rfl⟩

theorem keepsPlayer_of_effects (hE : E.SparesClients) (hs : ¬ M s)
    (hp : w.resolveClientBySlot s = some p) (hpresent : Present (w.client p))
    (h : Effects E M ids pending w w') : KeepsPlayer s p w w' := by
  induction h with
  | refl => exact ⟨rfl, rfl⟩
  | tail _ hlast ih =>
    refine ih.trans (keepsPlayer_of_effect hE hs (ih.2.trans hp) ?_ hlast)
    rwa [ih.1]

/-- Nobody has got a client, and this one has kept all bytes but its user id. -/
structure World.KeepsBytes (p : Ptr) (w w' : World) : Prop where
  resolves : ∀ t q, w'.resolveClientBySlot t = some q → w.resolveClientBySlot t = some q
  bytes : ∀ a, a < offUserID ∨ offUserID + 2 ≤ a → w'.client p a = w.client p a

theorem World.KeepsBytes.trans {w₁ w₂ w₃ : World} (h : KeepsBytes p w₁ w₂) (h' : KeepsBytes p w₂ w₃) :
    KeepsBytes p w₁ w₃ :=
  ⟨fun t q hq => h.resolves t q (h'.resolves t q hq), fun a ha => (h'.bytes a ha).trans (h.bytes a ha)⟩

theorem World.KeepsPlayer.keepsBytes (h : ∀ t, KeepsPlayer t p w w') : KeepsBytes p w w' :=
  ⟨fun t _ hq => (h t).2 ▸ hq, fun a _ => congrFun (h 0).1 a⟩

/-- No effect writes more than the user id of a client that no slot in `M` has. -/
theorem keepsBytes_of_effect (hE : E.SparesClients) (hp : ∀ t, M t → w.resolveClientBySlot t ≠ some p)
    (h : Effect E M ids pending w w') : KeepsBytes p w w' := by
  cases h with
  | @rewrite _ t q ht hq h =>
    have hne : q ≠ p := by
      rintro rfl
      exact hp t ht hq
    exact KeepsPlayer.keepsBytes fun _ => h.keepsPlayer hne
  | spectate _ _ _ _ h => exact KeepsPlayer.keepsBytes fun _ => keepsPlayer_changeTeam hE h
  | drain _ _ hr => exact KeepsPlayer.keepsBytes fun _ => keepsPlayer_removed hE hr
  | reap _ _ _ hr =>
    split
    · exact KeepsPlayer.keepsBytes fun _ => keepsPlayer_detachControllerFromTeam hE
    · exact KeepsPlayer.keepsBytes fun _ => keepsPlayer_removed hE hr
  | @shrink n h =>
    refine ⟨fun t q hq => ?_, fun a _ => by rw [client_shrinkClientListTo]⟩
    rw [resolveClientBySlot_shrinkClientListTo] at hq
    split at hq
    · exact hq
    · cases hq
  | @neutralize t q ht hq hchannel hsid =>
    refine ⟨fun _ _ h => h, fun a ha => ?_⟩
    by_cases hqp : p = q
    · rw [hqp, client_onClient_self, writeUserId, writeLE_out ha]
    · rw [client_onClient_of_ne hqp]

theorem keepsBytes_of_effects (hE : E.SparesClients) (hp : ∀ t, M t → w.resolveClientBySlot t ≠ some p)
    (h : Effects E M ids pending w w') : KeepsBytes p w w' := by
  induction h with
  | refl => exact ⟨fun _ _ h => h, fun _ _ => rfl⟩
  | tail _ hlast ih =>
    exact ih.trans (keepsBytes_of_effect hE (fun t ht hq => hp t ht (ih.resolves t p hq)) hlast)

/-- Neither `ChangeTeam` nor `UTIL_Remove` touches the fake-client flag of a controller. -/
structure EngineCalls.KeepsFlags (E : EngineCalls) : Prop where
  changeTeam : ∀ c n w w', E.changeTeam c n w = some w' →
    ∀ d, controllerFlags (w'.controller d) = controllerFlags (w.controller d)
  utilRemove : ∀ remove, E.utilRemove = some remove →
    ∀ c w d, controllerFlags ((remove c w).controller d) = controllerFlags (w.controller d)

theorem controllerFlags_clearTeam {d : Ptr} :
    controllerFlags ((w.clearTeam c).controller d) = controllerFlags (w.controller d) := by
  rw [World.clearTeam]
  by_cases hd : d = c
  · rw [hd, controller_onController_self, controllerFlags, controllerFlags, writeControllerTeam,
      readLE_writeLE_of_disjoint (by decide)]
  · rw [onController]
    simp [hd]

theorem controllerFlags_detachControllerFromTeam (hE : E.KeepsFlags) {d : Ptr} :
    controllerFlags ((detachControllerFromTeam E w c).controller d) = controllerFlags (w.controller d) := by
  rw [detachControllerFromTeam]
  split
  · rfl
  · split
    · exact controllerFlags_clearTeam
    · cases ht : E.changeTeam c kSpectatorTeam w with
      | none => exact controllerFlags_clearTeam
      | some w' => exact hE.changeTeam c _ w w' ht d

theorem controllerFlags_removed (hE : E.KeepsFlags) (hr : E.utilRemove = some remove) {d : Ptr} :
    controllerFlags ((w.removed E remove c).controller d) = controllerFlags (w.controller d) :=
  (hE.utilRemove remove hr c _ d).trans (controllerFlags_detachControllerFromTeam hE)

/-- The only effect on a controller's flag is a rewrite of the slot that leads to the controller. -/
theorem controllerFlags_of_effect (hE : E.KeepsFlags) {d : Ptr} (h : Effect E M ids pending w w') :
    controllerFlags (w'.controller d) = controllerFlags (w.controller d) ∨
      ∃ t, M t ∧ w.controllerOf t = some d := by
  cases h with
  | @rewrite _ t q ht hq h =>
    by_cases hd : w.resolveController (getEntityIndex (w.client q)) = some d
    · exact Or.inr ⟨t, ht, (controllerOf_eq hq).trans hd⟩
    · have hspares := h (q + 1) (some d) (Nat.succ_ne_self q).symm (by rintro _ hc ⟨⟩; exact hd hc)
      exact Or.inl (by rw [hspares.controller d rfl])
  | spectate _ _ _ _ h => exact Or.inl (hE.changeTeam _ _ _ _ h d)
  | drain _ _ hr => exact Or.inl (controllerFlags_removed hE hr)
  | reap _ _ _ hr =>
    split
    · exact Or.inl (controllerFlags_detachControllerFromTeam hE)
    · exact Or.inl (controllerFlags_removed hE hr)
  | @shrink n h =>
    rw [shrinkClientListTo]
    split <;> exact Or.inl rfl
  | neutralize => exact Or.inl rfl

theorem controllerFlags_of_effects (hE : E.KeepsFlags) {d : Ptr} (h : Effects E M ids pending w w') :
    controllerFlags (w'.controller d) = controllerFlags (w.controller d) ∨
      ∃ w₁, Effects E M ids pending w w₁ ∧ Effects E M ids pending w₁ w' ∧
        ∃ t, M t ∧ w₁.controllerOf t = some d := by
  induction h with
  | refl => exact Or.inl rfl
  | @tail w₁ w₂ hfirst hlast ih =>
    rcases ih with ih | ⟨w₀, hbefore, hafter, hleads⟩
    · rcases controllerFlags_of_effect hE (d := d) hlast with h | h
      · exact Or.inl (h.trans ih)
      · exact Or.inr ⟨w₁, hfirst, .single hlast, h⟩
    · exact Or.inr ⟨w₀, hbefore, hafter.tail hlast, hleads⟩

/-- When every release reaches its slot, a slot whose last connect was a real player's is neither
managed nor published, and no hook writes that player's fake-client and SteamID fields; a controller's
fake-client flag changes only where the effects of the hook pass a bot's slot that leads to it. -/
theorem real_player_never_managed {features : PluginFeatures} {mapBlacklist : List Bytes}
    {pool : LoadedPool} {draws : Nat → Nat} {w : World} {es : List Event}
    (hok : Guarded (step E) (ReleasesReach E) (load features mapBlacklist pool true draws w) es) :
    let st := run (step E) (load features mapBlacklist pool true draws w) es
    let real := observe (step E) trackReal (load features mapBlacklist pool true draws w)
      (fun _ => false) es
    (∀ s, real s = true → st.ids.isManaged s = false ∧ (st.shm.slot s).slotState = 0) ∧
      (E.KeepsClients → ∀ ev s p, trackReal real st ev s = true →
        ev.world.resolveClientBySlot s = some p →
        ∀ a, Marker a → (step E st ev).world.client p a = ev.world.client p a) ∧
      (E.SparesClients → ∀ ev s p, trackReal real st ev s = true →
        ev.world.resolveClientBySlot s = some p → ∀ a, a < offUserID ∨ offUserID + 2 ≤ a →
          (step E st ev).world.client p a = ev.world.client p a) ∧
      (E.KeepsFlags → ∀ ev c,
        controllerFlags ((step E st ev).world.controller c) = controllerFlags (ev.world.controller c) ∨
          ∃ w, Effects E ((st.withWorld ev.world).mayWrite ev.hook) st.ids st.pending ev.world w ∧
            Effects E ((st.withWorld ev.world).mayWrite ev.hook) st.ids st.pending w (step E st ev).world ∧
            ∃ t, trackReal real st ev t = false ∧ w.controllerOf t = some c) := by
  intro st real
  have hfree : PlayersFree real st.registry := playersFree_run hok
  have heffects : ∀ ev : Event, Effects E ((st.withWorld ev.world).mayWrite ev.hook) st.ids st.pending
      ev.world (step E st ev).world := fun ev => effects_runHook E (st.withWorld ev.world) ev.hook
  have hwrite : ∀ ev s t p, trackReal real st ev s = true → ev.world.resolveClientBySlot s = some p →
      (st.withWorld ev.world).mayWrite ev.hook t → ev.world.resolveClientBySlot t ≠ some p := by
    intro ev s t p hs hp ht hc
    obtain rfl := resolveClientBySlot_inj hp hc
    exact not_mayWrite_of_real hfree hs ht
  refine ⟨fun s hs => ?_, fun hE ev s p hs hp a ha => ?_, fun hE ev s p hs hp a ha => ?_,
    fun hE ev c => ?_⟩
  · exact ⟨hfree.unmanaged s hs, hfree.released s (hfree.unmanaged s hs)⟩
  · exact (writesWithin_runHook hE ev.hook).keeps p (fun t => hwrite ev s t p hs hp) a ha
  · exact (keepsBytes_of_effects hE (fun t => hwrite ev s t p hs hp) (heffects ev)).bytes a ha
  · refine (controllerFlags_of_effects hE (heffects ev)).imp_right ?_
    rintro ⟨w, hbefore, hafter, t, ht, hc⟩
    refine ⟨w, hbefore, hafter, t, ?_, hc⟩
    by_contra hreal
    exact not_mayWrite_of_real hfree (by simpa using hreal) ht

theorem EngineCalls.sparesClients_idle : EngineCalls.idle.SparesClients := by
  constructor
  · intro c n w w' h
    cases h
  · intro remove h
    cases h

/-- A bot leaves slot 0 again, and a player called HLTV takes it. -/
def playerAfterBotRun : List Event :=
  [onSolo (.onClientConnected 0 none 0 true), onSolo (.clientDisconnect 0 2),
    onSolo (.onClientConnected 0 (some (ascii "HLTV")) 7 false)]

theorem real_player_never_managed_after_bot :
    ((run (step .idle) soloLoad playerAfterBotRun).ids.isManaged 0 = false ∧
      ((run (step .idle) soloLoad playerAfterBotRun).shm.slot 0).slotState = 0) ∧
    ∀ nowSec,
      (step .idle (run (step .idle) soloLoad playerAfterBotRun) (onSolo (.gameFrame nowSec))).world.client 100
        offConnectionTypeFlags = (onSolo (.gameFrame nowSec)).world.client 100 offConnectionTypeFlags := by
  have hok : Guarded (step .idle) (ReleasesReach .idle) soloLoad playerAfterBotRun :=
    ⟨fun h => absurd h (by decide), fun _ => by decide +kernel, fun _ _ => by decide +kernel, trivial⟩
  have hreal : observe (step .idle) trackReal soloLoad (fun _ => false) playerAfterBotRun 0 = true := by
    decide +kernel
  obtain ⟨hfree, -, hbytes, -⟩ := real_player_never_managed hok
  have hflags : offConnectionTypeFlags < offUserID ∨ offUserID + 2 ≤ offConnectionTypeFlags := by decide
  refine ⟨hfree 0 hreal, fun nowSec => ?_⟩
  have hclient : (onSolo (.gameFrame nowSec)).world.resolveClientBySlot 0 = some 100 := rfl
  rw [soloLoad]
  exact hbytes EngineCalls.sparesClients_idle (onSolo (.gameFrame nowSec)) 0 100 hreal hclient
    offConnectionTypeFlags hflags

/-- A bot's slot goes to a player called HLTV. -/
def hltvRun : List Event :=
  [onSolo (.onClientConnected 0 none 0 true),
    onSolo (.onClientConnected 0 (some (ascii "HLTV")) 7 false)]

/-- In the first run the player is managed and published, in the second one published. -/
theorem real_player_managed_or_published :
    (observe (step .idle) trackReal soloLoad (fun _ => false) hltvRun 0 = true ∧
      (run (step .idle) soloLoad hltvRun).ids.isManaged 0 = true ∧
      ((run (step .idle) soloLoad hltvRun).shm.slot 0).slotState = 1) ∧
    (observe (step .idle) trackReal soloLoad (fun _ => false) nullClientRun 0 = true ∧
      ((run (step .idle) soloLoad nullClientRun).shm.slot 0).slotState = 1) := by
  decide +kernel

/-- In every run, what a hook does to the engine are effects, each with its guard met when it happens. -/
theorem hooks_have_guarded_effects (E : EngineCalls) (st : State) (es : List Event) :
    Guarded (step E) (fun st ev => Effects E ((st.withWorld ev.world).mayWrite ev.hook) st.ids st.pending
      ev.world (step E st ev).world) st es :=
  guarded_of_forall fun ev _ st => effects_runHook E (st.withWorld ev.world) ev.hook

/-- No hook changes a byte of a client that has a channel or a SteamID64, or takes it off the list, unless
its slot is managed or a bot is just connecting to it. -/
theorem live_player_untouched (E : EngineCalls) (st : State) (hook : Hook) (s : Int) (p : Ptr)
    (hE : E.SparesClients) (hs : ¬ st.mayWrite hook s) (hp : st.world.resolveClientBySlot s = some p)
    (hpresent : Present (st.world.client p)) :
    (runHook E st hook).world.client p = st.world.client p ∧
      (runHook E st hook).world.resolveClientBySlot s = some p := by
  obtain ⟨hclient, hlist⟩ := keepsPlayer_of_effects hE hs hp hpresent (effects_runHook E st hook)
  exact ⟨hclient, hlist.trans hp⟩

/-- A player with a SteamID64 on slot 0. -/
def onePlayer : World := (ofClients [100] nodup_solo).onClient 100 fun m => writeSteamId m 76561197960265730

theorem live_player_untouched_by_bot_kick :
    (runHook .idle (soloLoad.withWorld onePlayer)
      (.dispatchConCommandPost (some (ascii "bot_kick")) [ascii "bot_kick"])).world.client 100 =
        onePlayer.client 100 ∧
      (runHook .idle (soloLoad.withWorld onePlayer)
        (.dispatchConCommandPost (some (ascii "bot_kick")) [ascii "bot_kick"])).world.resolveClientBySlot 0 =
          some 100 := by
  exact live_player_untouched .idle (soloLoad.withWorld onePlayer) _ 0 100 EngineCalls.sparesClients_idle
    (show ¬ soloLoad.ids.isManaged 0 = true by decide) rfl (by decide)

end Botid
