import Botid.BotRecords
import Botid.CopyTable
import Botid.VoteRule

/-! The tables of SteamID copies over whole runs: what an open window has recorded can be put back. -/
namespace Botid

open ByteMem Machine World

variable {copies : List SteamIdCopy} {target : UInt64} {onController : Bool} {nbytes fuel off : Nat}
  {m : Mem} {copy : SteamIdCopy}

/-- One entry of the log line: which region, and the offset in it. -/
def entryText (copy : SteamIdCopy) : Bytes :=
  (if copy.onController then ascii "c" else ascii "s") ++ numeral copy.offset

/-- What `snprintf` puts into `piece`. -/
def copyPiece (first : Bool) (copy : SteamIdCopy) : Bytes :=
  (if first then [] else ascii ",") ++ entryText copy

/-- The loop of `FormatCopyOffsets`; `none` where a piece is longer than its buffer has room for. -/
def formatFrom (cap : Nat) : Bool → List SteamIdCopy → Bytes → Option Bytes
  | _, [], out => some out
  | first, copy :: copies, out =>
    if 24 ≤ (copyPiece first copy).length then none
    else if cap < out.length + (copyPiece first copy).length + 1 then some out
    else formatFrom cap false copies (out ++ copyPiece first copy)

/-- `FormatCopyOffsets`: the text it leaves before the terminator. -/
def formatCopyOffsets (copies : List SteamIdCopy) (cap : Nat) : Option Bytes :=
  if cap = 0 then some []
  else (formatFrom cap true copies []).map fun out => if copies = [] ∧ 1 < cap then ascii "-" else out

/-- How many bytes the scan reads of a client or of a controller. -/
def scanBytes (onController : Bool) : Nat := if onController then kControllerScanBytes else kSscScanBytes

/-- The entries are words of the scanned regions that held the SteamID64, and no two of them overlap. -/
structure TableSound (target : UInt64) (copies : List SteamIdCopy) : Prop where
  room : copies.length ≤ kMaxSteamIdCopies
  value : ∀ copy ∈ copies, copy.value = target ∧ target ≠ 0
  inside : ∀ copy ∈ copies, copy.offset + 8 ≤ scanBytes copy.onController
  apart : copies.Pairwise fun copy copy' => copy.onController = copy'.onController →
    copy.offset + 8 ≤ copy'.offset ∨ copy'.offset + 8 ≤ copy.offset

theorem TableSound.nil : TableSound target [] := ⟨Nat.zero_le _, by simp, by simp, .nil⟩

theorem TableSound.recordCopy (h : TableSound target copies) (ht : target ≠ 0)
    (hoff : off + 8 ≤ scanBytes onController) :
    TableSound target (recordCopy copies off target onController) := by
  rw [Botid.recordCopy]
  split
  · rename_i hnew
    rw [Bool.not_eq_true', ← Bool.not_eq_true, copyOverlaps_eq_true] at hnew
    obtain ⟨hapart, hroom⟩ := hnew
    refine ⟨?_, ?_, ?_, ?_⟩
    · rw [List.length_append]
      exact hroom
    · intro copy hcopy
      rcases List.mem_append.mp hcopy with hcopy | hcopy
      · exact h.value copy hcopy
      · rw [List.mem_singleton.mp hcopy]
        exact ⟨rfl, ht⟩
    · intro copy hcopy
      rcases List.mem_append.mp hcopy with hcopy | hcopy
      · exact h.inside copy hcopy
      · rw [List.mem_singleton.mp hcopy]
        exact hoff
    · rw [List.pairwise_append]
      refine ⟨h.apart, List.pairwise_singleton _ _, fun copy hcopy new hnew hsame => ?_⟩
      rw [List.mem_singleton.mp hnew] at hsame ⊢
      dsimp only at hsame ⊢
      by_contra hnot
      exact hapart ⟨copy, hcopy, hsame, by omega⟩
  · exact h

theorem TableSound.scanFrom (h : TableSound target copies) (ht : target ≠ 0) :
    TableSound target
      (scanFrom target onController (scanBytes onController) fuel off copies m).1 := by
  induction fuel generalizing off copies m with
  | zero => exact h
  | succ fuel ih =>
    rw [Botid.scanFrom]
    split
    · exact h
    · split
      · exact ih h
      · exact ih (h.recordCopy ht (by omega))

theorem TableSound.scanRegion (h : TableSound target copies) (ht : target ≠ 0) :
    TableSound target (scanRegion target onController (scanBytes onController) copies m).1 := by
  rw [Botid.scanRegion]
  exact h.scanFrom ht

/-- The table of a snapshot is sound for the SteamID64 that the snapshot took. -/
def SoundSnapshot (_ : Int) (x : VoteSlotSnapshot) : Prop := TableSound x.sscSteamId x.copies

theorem soundSnapshot_rule : SnapshotRule SoundSnapshot := by
  refine ⟨fun _ => .nil, fun w _ x client controller h => ?_, fun _ _ h => h⟩
  rw [applyNativeVoteMarkers]
  dsimp only
  rw [scanAndZeroSteamIdCopies]
  split
  · exact h
  · rename_i ht
    have hclient := @TableSound.scanRegion x.copies x.sscSteamId false
      (((w.onClient client setFakePlayer).onLiveController controller
        setControllerFakeClientFlag).client client) h ht
    dsimp only
    split
    · exact hclient
    · exact hclient.scanRegion ht

theorem soundSnapshot_taken (w : World) (slot : Int) (client : Ptr) :
    SoundSnapshot slot (takeSnapshot w slot client) := by
  have hnone : (takeSnapshot w slot client).copies = [] := by
    rw [takeSnapshot]
    dsimp only
    split <;> rfl
  rw [SoundSnapshot, hnone]
  exact .nil

/-- Replaying a table into one region. -/
theorem replayOn_cons : replayOn onController nbytes (copy :: copies) m =
    replayOn onController nbytes copies
      (if copy.onController = onController ∧ copy.offset + 8 ≤ nbytes then
        writeLE m copy.offset 8 copy.value.toNat
      else m) := rfl

/-- Bytes of no entry stay as they are. -/
theorem replayOn_out {a : Nat} (h : ∀ copy ∈ copies, copy.onController = onController →
    a < copy.offset ∨ copy.offset + 8 ≤ a) : replayOn onController nbytes copies m a = m a := by
  induction copies generalizing m with
  | nil => rfl
  | cons copy copies ih =>
    rw [replayOn_cons, ih fun c hc => h c (List.mem_cons_of_mem copy hc)]
    split
    · rename_i hon
      exact writeLE_out (h copy List.mem_cons_self hon.1)
    · rfl

/-- Every entry of the region reads the SteamID64 again. -/
theorem TableSound.replayOn (h : TableSound target copies) (hcopy : copy ∈ copies)
    (hon : copy.onController = onController) :
    readLE (replayOn onController (scanBytes onController) copies m) copy.offset 8 = target.toNat := by
  obtain ⟨-, hvalue, hinside, hapart⟩ := h
  induction copies generalizing m with
  | nil => cases hcopy
  | cons first copies ih =>
    rw [replayOn_cons]
    obtain ⟨hfirst, hrest⟩ := List.pairwise_cons.mp hapart
    rcases List.mem_cons.mp hcopy with rfl | hcopy
    · have hword : readLE (writeLE m copy.offset 8 copy.value.toNat) copy.offset 8 = target.toNat := by
        rw [readLE_writeLE copy.value.toNat_lt, (hvalue copy List.mem_cons_self).1]
      rw [if_pos ⟨hon, hon ▸ hinside copy List.mem_cons_self⟩, ← hword]
      apply readLE_congr
      intro k hk
      apply replayOn_out
      intro c hc hcon
      rcases hfirst c hc (hon.trans hcon.symm) with hle | hle
      · omega
      · omega
    · exact ih hcopy (fun c hc => hvalue c (List.mem_cons_of_mem first hc))
        (fun c hc => hinside c (List.mem_cons_of_mem first hc)) hrest

theorem length_numeral_le {n k : Nat} (hk : 0 < k) (h : n < 10 ^ k) : (numeral n).length ≤ k := by
  induction n using numeral.induct generalizing k with
  | case1 n hn =>
    rw [numeral, if_pos hn]
    exact hk
  | case2 n hn ih =>
    rw [numeral, if_neg hn, List.length_append, List.length_singleton]
    cases k with
    | zero => omega
    | succ k =>
      have hpos : 0 < k := by
        by_contra hzero
        obtain rfl : k = 0 := by omega
        omega
      have hdiv : n / 10 < 10 ^ k := by
        rw [Nat.pow_succ] at h
        omega
      have := ih hpos hdiv
      omega

theorem length_copyPiece_le {first : Bool} (h : copy.offset < 10 ^ 4) :
    (copyPiece first copy).length ≤ 6 := by
  have hnumeral := length_numeral_le (by decide) h
  have hregion : (if copy.onController then ascii "c" else ascii "s").length = 1 := by
    split <;> rfl
  have hcomma : (if first then [] else ascii ",").length ≤ 1 := by
    split <;> decide
  rw [copyPiece, entryText, List.length_append, List.length_append, hregion]
  omega

/-- While there is room, nothing is left out. -/
theorem formatFrom_whole {cap : Nat} {first : Bool} {out : Bytes}
    (h : ∀ copy ∈ copies, copy.offset < 10 ^ 4) (hroom : out.length + 6 * copies.length < cap) :
    formatFrom cap first copies out = some (out ++
      match copies with
      | [] => []
      | copy :: copies => copyPiece first copy ++ copies.flatMap (copyPiece false)) := by
  induction copies generalizing first out with
  | nil => simp [formatFrom]
  | cons copy copies ih =>
    have hpiece := @length_copyPiece_le copy first (h copy List.mem_cons_self)
    rw [List.length_cons] at hroom
    have hlen : (out ++ copyPiece first copy).length + 6 * copies.length < cap := by
      rw [List.length_append]
      omega
    rw [formatFrom, if_neg (by omega), if_neg (by omega),
      ih (fun c hc => h c (List.mem_cons_of_mem copy hc)) hlen]
    cases copies with
    | nil => simp
    | cons next copies => simp

theorem intercalate_cons {α : Type} (sep first : List α) (rest : List (List α)) :
    sep.intercalate (first :: rest) = first ++ rest.flatMap fun l => sep ++ l := by
  induction rest generalizing first with
  | nil => simp [List.intercalate]
  | cons second rest ih =>
    have hstep : sep.intercalate (first :: second :: rest) =
        first ++ (sep ++ sep.intercalate (second :: rest)) := by
      simp [List.intercalate]
    rw [hstep, ih]
    simp

/-- The log line lists every entry of a sound table. -/
theorem formatCopyOffsets_whole (h : TableSound target copies) : formatCopyOffsets copies 96 =
    some (if copies = [] then ascii "-" else (ascii ",").intercalate (copies.map entryText)) := by
  have hsmall : ∀ copy ∈ copies, copy.offset < 10 ^ 4 := by
    intro copy hcopy
    have hinside := h.inside copy hcopy
    rw [scanBytes] at hinside
    split at hinside
    · rw [kControllerScanBytes] at hinside
      omega
    · rw [kSscScanBytes] at hinside
      omega
  have hroom : ([] : Bytes).length + 6 * copies.length < 96 := by
    have := h.room
    rw [kMaxSteamIdCopies] at this
    simp only [List.length_nil]
    omega
  rw [formatCopyOffsets, if_neg (by decide), formatFrom_whole hsmall hroom]
  cases copies with
  | nil => rfl
  | cons copy copies =>
    have hrest : copyPiece false = fun copy => ascii "," ++ entryText copy := rfl
    rw [List.map_cons, intercalate_cons, List.flatMap_map, hrest]
    simp [copyPiece]

/-- In every reachable state the table of every snapshot is sound; its log line lists all of it; and
restoring it writes the SteamID64 back to each of its words, whatever they hold by then, and nowhere else:
not in the client, not in the controller, where there is one, and not in any other object. -/
theorem copy_tables_replay (E : EngineCalls) (features : PluginFeatures) (mapBlacklist : List Bytes)
    (pool : LoadedPool) (mapped : Bool) (draws : Nat → Nat) (w₀ : World) (es : List Event) (s : Int) :
    let x := (run (step E) (load features mapBlacklist pool mapped draws w₀) es).vote.snapshots s
    TableSound x.sscSteamId x.copies ∧
    formatCopyOffsets x.copies 96 = some
      (if x.copies = [] then ascii "-" else (ascii ",").intercalate (x.copies.map entryText)) ∧
    ∀ (w : World) (client : Ptr) (controller : Option Ptr),
      let w' := restoreSteamIdCopies w x client controller
      (w.OnlyMemory w' ∧ (∀ p, p ≠ client → w'.client p = w.client p) ∧
        ∀ c, controller ≠ some c → w'.controller c = w.controller c) ∧
      (∀ copy ∈ x.copies, copy.onController = false →
        readLE (w'.client client) copy.offset 8 = x.sscSteamId.toNat) ∧
      (∀ a, (∀ copy ∈ x.copies, copy.onController = false → a < copy.offset ∨ copy.offset + 8 ≤ a) →
        w'.client client a = w.client client a) ∧
      ∀ c, controller = some c →
        (∀ copy ∈ x.copies, copy.onController = true →
          readLE (w'.controller c) copy.offset 8 = x.sscSteamId.toNat) ∧
        ∀ a, (∀ copy ∈ x.copies, copy.onController = true → a < copy.offset ∨ copy.offset + 8 ≤ a) →
          w'.controller c a = w.controller c a := by
  intro x
  have hload : (load features mapBlacklist pool mapped draws w₀).vote.All SoundSnapshot :=
    soundSnapshot_rule.voteRule.pollMapGate fun _ => .nil
  have hopening := soundSnapshot_rule.openingRule fun w slot client _ _ =>
    soundSnapshot_taken w slot client
  have hsound : TableSound x.sscSteamId x.copies := soundSnapshot_rule.voteRule.run hopening hload s
  refine ⟨hsound, formatCopyOffsets_whole hsound, fun w client controller => ?_⟩
  intro w'
  have hclient : w'.client client = replayOn false (scanBytes false) x.copies (w.client client) :=
    client_foldl_restoreCopy
  have hspares : ∀ p oc, client ≠ p → (∀ c, controller = some c → oc ≠ some c) →
      World.Spares p oc w w' := fun _ _ => spares_restoreSteamIdCopies
  refine ⟨⟨(hspares (client + 1) none (Nat.succ_ne_self client).symm (by simp)).mem, fun p hp => ?_,
    fun c hc => ?_⟩, fun copy hcopy hon => ?_, fun a ha => ?_, ?_⟩
  · exact (hspares p none hp.symm (by simp)).client
  · refine (hspares (client + 1) (some c) (Nat.succ_ne_self client).symm ?_).controller c rfl
    rintro d hd ⟨⟩
    exact hc hd
  · rw [hclient]
    exact hsound.replayOn hcopy hon
  · rw [hclient]
    exact replayOn_out ha
  · rintro c rfl
    have hcontroller : w'.controller c = replayOn true (scanBytes true) x.copies (w.controller c) :=
      controller_foldl_restoreCopy
    refine ⟨fun copy hcopy hon => ?_, fun a ha => ?_⟩
    · rw [hcontroller]
      exact hsound.replayOn hcopy hon
    · rw [hcontroller]
      exact replayOn_out ha

end Botid
