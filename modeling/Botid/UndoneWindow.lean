import Botid.SlotView

/-! When a window over one slot is undone by its end, byte for byte. -/
namespace Botid.SlotView

open ByteMem

variable {sid : UInt64} {hasController live : Bool} {liveAt : Mem → Bool} {m d : Mem} {x : SlotView}
  {n a h : Nat}

/-- Whether the controller is found depends on the entity index, and without one it never is. -/
structure Finds (hasController : Bool) (liveAt : Mem → Bool) : Prop where
  congr : ∀ x y : Mem, (∀ k < 4, x (offEntityIndex + k) = y (offEntityIndex + k)) → liveAt x = liveAt y
  none : hasController = false → ∀ x, liveAt x = false

/-- The flags are not part of the entity index. -/
theorem Finds.congr_set {y z : Mem} (h : Finds hasController liveAt)
    (hset : clientMarkers.set y = clientMarkers.set z) : liveAt y = liveAt z := by
  apply h.congr
  intro k hk
  have hout : ¬ clientMarkers.Flag (offEntityIndex + k) := by
    simp only [clientMarkers, offEntityIndex, offConnectionTypeFlags, offFakePlayer]
    omega
  rw [← clientMarkers.set_out y _ hout, hset, clientMarkers.set_out z _ hout]

theorem length_openedCopies : (openedCopies sid hasController m d).length =
    min kMaxSteamIdCopies (clientHits sid m).length +
      if hasController then min (controllerRoom sid m) (controllerHits sid d).length else 0 := by
  rw [openedCopies, List.length_append, List.length_map, List.length_take]
  cases hasController with
  | false => rfl
  | true => rw [if_pos rfl, if_pos rfl, List.length_map, List.length_take]

/-- Where there is room left, every copy was kept. -/
theorem all_kept_of_room (hroom : (openedCopies sid hasController m d).length < kMaxSteamIdCopies) :
    (clientHits sid m).length < kMaxSteamIdCopies ∧
      (hasController = true → (controllerHits sid d).length ≤ controllerRoom sid m) := by
  rw [length_openedCopies] at hroom
  refine ⟨by omega, ?_⟩
  rintro rfl
  rw [if_pos rfl] at hroom
  rw [controllerRoom] at hroom ⊢
  omega

theorem mem_openedCopies_client (hh : h ∈ (clientHits sid m).take kMaxSteamIdCopies) :
    entryAt sid false h ∈ openedCopies sid hasController m d :=
  mem_openedCopies.mpr (Or.inl ⟨h, hh, rfl⟩)

/-- No hit in a controller is new: it has no field that the window blanks. -/
theorem controller_overlaps (hh : h ∈ controllerMarkers.hits sid kControllerScanBytes
      (controllerMarkers.hold sid kControllerScanBytes d)) :
    ∃ h' ∈ controllerHits sid d, h' < h + 8 ∧ h < h' + 8 := by
  by_contra hnone
  obtain ⟨b, -, -, hfield, -⟩ := Markers.field_of_fresh_hit hh fun h' hh' hover => hnone ⟨h', hh', hover⟩
  exact hfield

/-- The controller's part of a scan in a hold tick. -/
theorem scan_controller_again (hset : setControllerFakeClientFlag x.controller =
      controllerMarkers.set (controllerMarkers.hold sid kControllerScanBytes d)) :
    (scanRegion sid true kControllerScanBytes (openedCopies sid true m d)
      (setControllerFakeClientFlag x.controller)).1 = openedCopies sid true m d := by
  apply scanRegion_table_of_overlaps
  intro hroom h hh
  rw [hset] at hh
  obtain ⟨h', hh', hover⟩ := controller_overlaps hh
  have hall := (all_kept_of_room hroom).2 rfl
  rw [copyOverlaps_eq_true]
  refine ⟨entryAt sid true h', mem_openedCopies.mpr (Or.inr ⟨rfl, h', ?_, rfl⟩), rfl, hover⟩
  rwa [List.take_of_length_le hall]

/-- And the client's, where nothing more is spoilt. -/
theorem scan_client_again (hsid : sid ≠ 0)
    (hr : clientMarkers.Recoverable sid kSscScanBytes m ((clientHits sid m).take kMaxSteamIdCopies)
      ((clientHits sid m).drop kMaxSteamIdCopies))
    (hset : setFakePlayer x.client = clientMarkers.set (clientMarkers.hold sid kSscScanBytes m)) :
    (scanRegion sid false kSscScanBytes (openedCopies sid hasController m d)
      (setFakePlayer x.client)).1 = openedCopies sid hasController m d := by
  apply scanRegion_table_of_overlaps
  intro hroom h hh
  have hall := (all_kept_of_room hroom).1
  have htake := List.take_of_length_le hall.le
  rw [htake, List.drop_eq_nil_of_le hall.le] at hr
  rw [hset] at hh
  obtain ⟨h', hh', hover⟩ := Markers.overlaps_kept hsid hr hh
  rw [copyOverlaps_eq_true]
  exact ⟨entryAt sid false h', mem_openedCopies_client (by rwa [htake]), rfl, hover⟩

/-- What holds while the window is open, from tick to tick. -/
structure Steady (sid : UInt64) (hasController : Bool) (liveAt : Mem → Bool) (m d : Mem)
    (x : SlotView) : Prop where
  copies : x.copies = openedCopies sid hasController m d
  client : clientMarkers.set x.client = clientMarkers.set (clientMarkers.hold sid kSscScanBytes m)
  live : liveAt (clientMarkers.hold sid kSscScanBytes m) = true →
    controllerMarkers.set x.controller =
      controllerMarkers.set (controllerMarkers.hold sid kControllerScanBytes d)
  lost : hasController = true → liveAt (clientMarkers.hold sid kSscScanBytes m) = false →
    x.controller = controllerMarkers.hold sid kControllerScanBytes d

theorem steady_opened (hfinds : Finds hasController liveAt) :
    Steady sid hasController liveAt m d (applyMarkers sid hasController ⟨m, d, []⟩) := by
  have hcontroller : hasController = true → (applyMarkers sid hasController ⟨m, d, []⟩).controller =
      controllerMarkers.hold sid kControllerScanBytes d := by
    intro hc
    rw [controller_applyMarkers, if_pos hc]
  refine ⟨copies_opened, by rw [client_applyMarkers], fun hlive => ?_, fun hc _ => hcontroller hc⟩
  cases hc : hasController with
  | true =>
    rw [← hc, hcontroller hc]
  | false =>
    rw [hfinds.none hc] at hlive
    simp at hlive

theorem Steady.copies_next (hsid : sid ≠ 0) (hfinds : Finds hasController liveAt)
    (hr : clientMarkers.Recoverable sid kSscScanBytes m ((clientHits sid m).take kMaxSteamIdCopies)
      ((clientHits sid m).drop kMaxSteamIdCopies))
    (hx : Steady sid hasController liveAt m d x) :
    (x.applyMarkers sid (liveAt x.client)).copies = openedCopies sid hasController m d := by
  have hclient := @scan_client_again sid hasController m d x hsid hr hx.client
  rw [hfinds.congr_set hx.client, SlotView.applyMarkers, hx.copies, hclient]
  cases h : liveAt (clientMarkers.hold sid kSscScanBytes m) with
  | false => rfl
  | true =>
    cases hc : hasController with
    | false => simp [hfinds.none hc] at h
    | true =>
      rw [if_pos rfl]
      exact scan_controller_again (hx.live h)

theorem Steady.client_next
    (hr : clientMarkers.Recoverable sid kSscScanBytes m ((clientHits sid m).take kMaxSteamIdCopies)
      ((clientHits sid m).drop kMaxSteamIdCopies))
    (hx : Steady sid hasController liveAt m d x) :
    clientMarkers.set (x.applyMarkers sid live).client =
      clientMarkers.set (clientMarkers.hold sid kSscScanBytes m) := by
  rw [client_applyMarkers, Markers.hold_congr hx.client,
    Markers.set_hold_hold hr (List.take_append_drop _ _).symm]

/-- A hold tick over a slot that can be undone. -/
theorem Steady.applyMarkers (hsid : sid ≠ 0) (hfinds : Finds hasController liveAt)
    (hu : Undoable sid hasController liveAt m d) (hx : Steady sid hasController liveAt m d x) :
    Steady sid hasController liveAt m d (x.applyMarkers sid (liveAt x.client)) := by
  refine ⟨hx.copies_next hsid hfinds hu.client, hx.client_next hu.client, fun h => ?_, fun hc h => ?_⟩
  · rw [hfinds.congr_set hx.client, controller_applyMarkers, if_pos h]
    cases hc : hasController with
    | false => simp [hfinds.none hc] at h
    | true =>
      rw [Markers.hold_congr (hx.live h),
        Markers.set_hold_hold (hu.live hc h) (List.take_append_drop _ _).symm]
  · rw [hfinds.congr_set hx.client, controller_applyMarkers, h, if_neg Bool.false_ne_true]
    exact hx.lost hc h

theorem steady_held (hsid : sid ≠ 0) (hfinds : Finds hasController liveAt)
    (hu : Undoable sid hasController liveAt m d) :
    Steady sid hasController liveAt m d (held sid hasController liveAt m d n) := by
  induction n with
  | zero => exact steady_opened hfinds
  | succ n ih =>
    rw [held, Function.iterate_succ_apply']
    exact ih.applyMarkers hsid hfinds hu

/-- The client at the end of a window whose table a memory agrees with. -/
theorem client_replay {M : Mem} (hM : Agrees false kSscScanBytes M x.copies) :
    (x.replay sid live).client = clientMarkers.release sid (offsetsOf false x.copies) M x.client :=
  replayOn_eq hM

theorem controller_replay {M : Mem} (hM : Agrees true kControllerScanBytes M x.copies) :
    (x.replay sid true).controller =
      controllerMarkers.release sid (offsetsOf true x.copies) M x.controller :=
  replayOn_eq hM

theorem controller_replay_lost : (x.replay sid false).controller = x.controller := rfl

/-- The bytes of the slot are back. -/
def Restored (hasController : Bool) (m d : Mem) (x : SlotView) : Prop :=
  (∀ a < kSscScanBytes, x.client a = m a) ∧
    (hasController = true → ∀ a < kControllerScanBytes, x.controller a = d a)

/-- What is left of a controller that is not found again is what it was, if nothing but the flag that
had just been set was zeroed in it. -/
theorem controller_lost_iff (hd : controllerMarkers.AtRest sid d) :
    (∀ a < kControllerScanBytes, controllerMarkers.hold sid kControllerScanBytes d a = d a) ↔
      Covers (controllerHits sid d) offFakeClientByte ∧ ∀ a, Covers (controllerHits sid d) a → d a = 0 := by
  constructor
  · intro h
    refine ⟨?_, fun a ha => ?_⟩
    · by_contra hc
      have hbyte := h offFakeClientByte (by decide)
      rw [Markers.hold_other id hc] at hbyte
      exact hd.set offFakeClientByte rfl hbyte
    · rw [← h a (Markers.lt_of_covers_hits ha), Markers.hold_covered ha]
  · rintro ⟨hflag, hzero⟩ a -
    by_cases ha : Covers (controllerHits sid d) a
    · rw [hzero a ha]
      exact Markers.hold_covered ha
    · rw [Markers.hold_other id ha]
      apply controllerMarkers.set_out
      rintro rfl
      exact ha hflag

/-- What comes back of a client whose table is that of the opening. -/
theorem client_restored_iff (hm : clientMarkers.AtRest sid m)
    (hcopies : x.copies = openedCopies sid hasController m d)
    (hclient : clientMarkers.set x.client = clientMarkers.set (clientMarkers.hold sid kSscScanBytes m)) :
    (∀ a < kSscScanBytes, (x.replay sid live).client a = m a) ↔
      (∀ a, clientMarkers.Flag a → ¬ Covers ((clientHits sid m).take kMaxSteamIdCopies) a) ∧
        ∀ a, Covers ((clientHits sid m).drop kMaxSteamIdCopies) a → clientMarkers.Harmless m a := by
  have hM : Agrees false kSscScanBytes (clientMarkers.set m) x.copies := by
    rw [hcopies]
    exact agrees_client fun _ _ => rfl
  rw [client_replay hM, hcopies, offsetsOf_openedCopies_client, Markers.release,
    Markers.clear_congr hclient]
  exact Markers.release_hold_iff hm (List.take_append_drop _ _).symm

/-- And of its controller, if it is found. -/
theorem controller_restored_iff (hd : controllerMarkers.AtRest sid d)
    (hcopies : x.copies = openedCopies sid true m d)
    (hcontroller : controllerMarkers.set x.controller =
      controllerMarkers.set (controllerMarkers.hold sid kControllerScanBytes d)) :
    (∀ a < kControllerScanBytes, (x.replay sid true).controller a = d a) ↔
      (∀ a, controllerMarkers.Flag a → ¬ Covers ((controllerHits sid d).take (controllerRoom sid m)) a) ∧
        ∀ a, Covers ((controllerHits sid d).drop (controllerRoom sid m)) a →
          controllerMarkers.Harmless d a := by
  have hM : Agrees true kControllerScanBytes (controllerMarkers.set d) x.copies := by
    rw [hcopies]
    exact agrees_controller fun _ _ => rfl
  rw [controller_replay hM, hcopies, offsetsOf_openedCopies_controller, Markers.release,
    Markers.clear_congr hcontroller]
  exact Markers.release_hold_iff hd (List.take_append_drop _ _).symm

/-- Where the condition holds every window is undone. -/
theorem restored_of_undoable (hsid : sid ≠ 0) (hm : clientMarkers.AtRest sid m)
    (hd : hasController = true → controllerMarkers.AtRest sid d) (hfinds : Finds hasController liveAt)
    (hu : Undoable sid hasController liveAt m d) (n : Nat) :
    Restored hasController m d (closed sid hasController liveAt m d n) := by
  have hx := @steady_held sid hasController liveAt m d n hsid hfinds hu
  rw [closed, hfinds.congr_set hx.client]
  refine ⟨(client_restored_iff hm hx.copies hx.client).mpr ⟨hu.client.flags, hu.client.lost⟩, ?_⟩
  rintro rfl
  cases h : liveAt (clientMarkers.hold sid kSscScanBytes m) with
  | false =>
    rw [controller_replay_lost, hx.lost rfl h]
    exact (controller_lost_iff (hd rfl)).mpr (hu.lost rfl h)
  | true =>
    exact (controller_restored_iff (hd rfl) hx.copies (hx.live h)).mpr
      ⟨(hu.live rfl h).flags, (hu.live rfl h).lost⟩

/-- What the client's scan in the first hold tick adds to the table. -/
def secondHits (sid : UInt64) (hasController : Bool) (m d : Mem) : List Nat :=
  ((clientMarkers.hits sid kSscScanBytes (clientMarkers.hold sid kSscScanBytes m)).filter fun h =>
    !copyOverlaps (openedCopies sid hasController m d) h false).take
      (kMaxSteamIdCopies - (openedCopies sid hasController m d).length)

theorem copies_second (live : Bool) : ∃ more : List SteamIdCopy, (∀ copy ∈ more, copy.onController = true) ∧
    ((applyMarkers sid hasController ⟨m, d, []⟩).applyMarkers sid live).copies =
      openedCopies sid hasController m d ++
        (secondHits sid hasController m d).map (entryAt sid false) ++ more := by
  have hscan : (scanRegion sid false kSscScanBytes (applyMarkers sid hasController ⟨m, d, []⟩).copies
      (setFakePlayer (applyMarkers sid hasController ⟨m, d, []⟩).client)).1 =
      openedCopies sid hasController m d ++
        (secondHits sid hasController m d).map (entryAt sid false) := by
    rw [scanRegion_table, copies_opened, client_applyMarkers, secondHits, Markers.hits, client_set,
      List.map_take]
  rw [applyMarkers, hscan]
  cases live with
  | false => exact ⟨[], by simp, (List.append_nil _).symm⟩
  | true =>
    refine ⟨_, ?_, scanRegion_table⟩
    intro copy hc
    obtain ⟨h, -, rfl⟩ := List.mem_map.mp (List.mem_of_mem_take hc)
    rfl

theorem secondHits_spec (hh : h ∈ secondHits sid hasController m d) :
    h ∈ clientMarkers.hits sid kSscScanBytes (clientMarkers.hold sid kSscScanBytes m) ∧
      (clientHits sid m).drop kMaxSteamIdCopies = [] ∧
      ∀ h' ∈ (clientHits sid m).take kMaxSteamIdCopies, ¬ (h' < h + 8 ∧ h < h' + 8) := by
  rw [secondHits] at hh
  have hroom : (openedCopies sid hasController m d).length < kMaxSteamIdCopies := by
    by_contra hfull
    rw [Nat.sub_eq_zero_of_le (by omega), List.take_zero] at hh
    simp at hh
  obtain ⟨hhit, hnot⟩ := List.mem_filter.mp (List.mem_of_mem_take hh)
  refine ⟨hhit, List.drop_eq_nil_of_le (all_kept_of_room hroom).1.le, fun h' hh' hover => ?_⟩
  have htrue : copyOverlaps (openedCopies sid hasController m d) h false = true :=
    copyOverlaps_eq_true.mpr ⟨entryAt sid false h', mem_openedCopies_client hh', rfl, hover⟩
  rw [htrue] at hnot
  simp at hnot

/-- A window with one hold tick spares the client only if its second scan does. -/
theorem client_again (h : ∀ a < kSscScanBytes,
      (((applyMarkers sid hasController ⟨m, d, []⟩).applyMarkers sid live).replay sid live).client a = m a)
    (ha : Covers (clientMarkers.hits sid kSscScanBytes (clientMarkers.hold sid kSscScanBytes m)) a) :
    clientMarkers.Harmless m a ∨ Covers ((clientHits sid m).take kMaxSteamIdCopies) a := by
  obtain ⟨more, hmore, hcopies⟩ := @copies_second sid hasController m d live
  have hoffsets : offsetsOf false (openedCopies sid hasController m d ++
      (secondHits sid hasController m d).map (entryAt sid false) ++ more) =
      (clientHits sid m).take kMaxSteamIdCopies ++ secondHits sid hasController m d := by
    have hother : offsetsOf false more = [] := by
      rw [offsetsOf, List.filter_eq_nil_iff.mpr, List.map_nil]
      intro copy hc
      simp [hmore copy hc]
    rw [offsetsOf_append, offsetsOf_append, hother, List.append_nil, offsetsOf_openedCopies_client,
      offsetsOf_map_entryAt]
  have hM : Agrees false kSscScanBytes
      (overlay ((clientHits sid m).take kMaxSteamIdCopies) (clientMarkers.set m)
        (clientMarkers.set (clientMarkers.hold sid kSscScanBytes m)))
      (openedCopies sid hasController m d ++
        (secondHits sid hasController m d).map (entryAt sid false) ++ more) := by
    rw [agrees_append, agrees_append]
    refine ⟨⟨agrees_client fun a ha => if_pos ha, ?_⟩, fun copy hc hon => ?_⟩
    · intro copy hc _
      obtain ⟨h, hh, rfl⟩ := List.mem_map.mp hc
      obtain ⟨hhit, -, hfresh⟩ := secondHits_spec hh
      obtain ⟨hle, hword⟩ := steamIdHits_spec hhit
      refine ⟨hle, Eq.trans (readLE_congr fun k hk => if_neg ?_) hword⟩
      rintro ⟨h', hh', hlo, hhi⟩
      dsimp only [entryAt] at hlo hhi
      exact hfresh h' hh' (by omega)
    · rw [hmore copy hc] at hon
      simp at hon
  rw [← hcopies] at hM hoffsets
  rw [client_replay hM, hoffsets, client_applyMarkers, client_applyMarkers] at h
  exact Markers.harmless_of_second_scan (List.take_append_drop _ _).symm (fun _ => secondHits_spec)
    (fun _ hk => if_neg hk) h ha

/-- And the same of a controller that is found. -/
theorem controller_again
    (hcopies : x.copies = openedCopies sid true m d)
    (hcontroller : x.controller = controllerMarkers.hold sid kControllerScanBytes
      (controllerMarkers.hold sid kControllerScanBytes d))
    (h : ∀ a < kControllerScanBytes, (x.replay sid true).controller a = d a)
    (ha : Covers (controllerMarkers.hits sid kControllerScanBytes
      (controllerMarkers.hold sid kControllerScanBytes d)) a) :
    controllerMarkers.Harmless d a ∨ Covers ((controllerHits sid d).take (controllerRoom sid m)) a := by
  have hM : Agrees true kControllerScanBytes
      (overlay ((controllerHits sid d).take (controllerRoom sid m)) (controllerMarkers.set d)
        (controllerMarkers.set (controllerMarkers.hold sid kControllerScanBytes d))) x.copies := by
    rw [hcopies]
    exact agrees_controller fun a ha => if_pos ha
  rw [controller_replay hM, hcopies, offsetsOf_openedCopies_controller, hcontroller] at h
  generalize hkept : (controllerHits sid d).take (controllerRoom sid m) = kept at h ⊢
  have hsplit : controllerMarkers.hits sid kControllerScanBytes d =
      kept ++ (controllerHits sid d).drop (controllerRoom sid m) := by
    rw [← hkept, List.take_append_drop, controllerHits]
  have hother : ∀ a, ¬ Covers kept a → overlay kept (controllerMarkers.set d)
      (controllerMarkers.set (controllerMarkers.hold sid kControllerScanBytes d)) a =
      controllerMarkers.set (controllerMarkers.hold sid kControllerScanBytes d) a :=
    fun _ hk => if_neg hk
  generalize overlay kept (controllerMarkers.set d)
    (controllerMarkers.set (controllerMarkers.hold sid kControllerScanBytes d)) = M at h hother
  rw [← List.append_nil kept] at h
  exact Markers.harmless_of_second_scan hsplit (List.forall_mem_nil _) hother h ha

/-- Conversely, a window without a hold tick and one with one show that the condition holds. -/
theorem undoable_of_restored (hsid : sid ≠ 0) (hm : clientMarkers.AtRest sid m)
    (hd : hasController = true → controllerMarkers.AtRest sid d) (hfinds : Finds hasController liveAt)
    (h : ∀ n, Restored hasController m d (closed sid hasController liveAt m d n)) :
    Undoable sid hasController liveAt m d := by
  have hopened := @steady_opened sid hasController liveAt m d hfinds
  obtain ⟨hclient₀, hcontroller₀⟩ := h 0
  obtain ⟨hclient₁, hcontroller₁⟩ := h 1
  rw [closed, held, Function.iterate_zero, id] at hclient₀ hcontroller₀
  rw [closed, held, Function.iterate_one] at hclient₁ hcontroller₁
  obtain ⟨hflags, hlost⟩ := (client_restored_iff hm hopened.copies hopened.client).mp hclient₀
  have hr : clientMarkers.Recoverable sid kSscScanBytes m ((clientHits sid m).take kMaxSteamIdCopies)
      ((clientHits sid m).drop kMaxSteamIdCopies) :=
    ⟨hflags, hlost, fun a ha => client_again hclient₁ ha⟩
  have hcopies := hopened.copies_next hsid hfinds hr
  refine ⟨hr, ?_, ?_⟩
  · rintro rfl hlive
    rw [hfinds.congr_set hopened.client, hlive] at hcontroller₀ hcopies
    rw [hfinds.congr_set hopened.client, hfinds.congr_set (hopened.client_next hr), hlive] at hcontroller₁
    obtain ⟨hflags', hlost'⟩ :=
      (controller_restored_iff (hd rfl) hopened.copies (hopened.live hlive)).mp (hcontroller₀ rfl)
    refine ⟨hflags', hlost', fun a ha => controller_again hcopies ?_ (hcontroller₁ rfl) ha⟩
    rw [controller_applyMarkers, if_pos rfl, controller_applyMarkers, if_pos rfl]
  · intro hc hlost
    rw [hfinds.congr_set hopened.client, hlost, controller_replay_lost, hopened.lost hc hlost]
      at hcontroller₀
    exact (controller_lost_iff (hd hc)).mp (hcontroller₀ hc)

/-- The windows over a slot are undone exactly under the condition. -/
theorem restored_iff_undoable (hsid : sid ≠ 0) (hm : clientMarkers.AtRest sid m)
    (hd : hasController = true → controllerMarkers.AtRest sid d) (hfinds : Finds hasController liveAt) :
    (∀ n, Restored hasController m d (closed sid hasController liveAt m d n)) ↔
      Undoable sid hasController liveAt m d :=
  ⟨undoable_of_restored hsid hm hd hfinds, restored_of_undoable hsid hm hd hfinds⟩

end Botid.SlotView
