import Botid.BotList
import Botid.ShmPub
import Botid.Utf8

/-! The names of an identity list in UTF-8: no reader, no truncation and no cell cuts a character. -/
namespace Botid
open Utf8

variable {p s : Bytes} {c : UInt8} {n : Nat} {α : Type} {I : α → Prop}
  {member onKey : Bytes → α → Bytes → α × Bytes} {x : α}

/-- The test of the loop in `TruncateUtf8`. -/
theorem tail_iff : Tail c ↔ c &&& 0xC0 = 0x80 :=
  byte_induction (P := fun c => Tail c ↔ c &&& 0xC0 = 0x80) (by decide +kernel) c

/-- The loop stops at a byte that is no tail. -/
theorem utf8Cut_stops (s : Bytes) (n : Nat) :
    0 < utf8Cut s n → ¬ Tail (s.getD (utf8Cut s n) 0) := by
  induction n with
  | zero => exact fun h => absurd h (Nat.lt_irrefl 0)
  | succ n ih =>
    rw [utf8Cut]
    split
    · exact ih
    · rename_i hc
      exact fun _ ht => hc (tail_iff.mp ht)

/-- Every byte it has passed is one. -/
theorem utf8Cut_passes {k : Nat} (hk : utf8Cut s n < k) (hkn : k ≤ n) : Tail (s.getD k 0) := by
  induction n with
  | zero => omega
  | succ n ih =>
    rw [utf8Cut] at hk
    by_cases hc : s.getD (n + 1) 0 &&& 0xC0 = 0x80
    · rw [if_pos hc] at hk
      rcases Nat.lt_or_eq_of_le hkn with hlt | rfl
      · exact ih hk (Nat.le_of_lt_succ hlt)
      · exact tail_iff.mpr hc
    · rw [if_neg hc] at hk
      omega

theorem truncateUtf8_isPrefix : truncateUtf8 s n <+: s := by
  rw [truncateUtf8]
  split
  · exact List.prefix_rfl
  · exact List.take_prefix _ _

theorem valid_truncateUtf8 (h : Valid s) : Valid (truncateUtf8 s n) := by
  rw [truncateUtf8]
  split
  · exact h
  · have hstop := utf8Cut_stops s n
    refine h.take fun b hb => ?_
    rcases Nat.eq_zero_or_pos (utf8Cut s n) with hzero | hpos
    · rw [hzero] at hb
      cases s with
      | nil => cases hb
      | cons a s =>
        cases hb
        exact h.not_tail
    · rw [List.getD_eq_getElem?_getD, Option.mem_def.mp hb] at hstop
      exact hstop hpos

/-- Every other prefix of whole characters that fits is shorter. -/
theorem prefix_truncateUtf8 (h : Valid s) (hp : p <+: s) (hvalid : Valid p) (hlen : p.length ≤ n) :
    p <+: truncateUtf8 s n := by
  rw [truncateUtf8]
  split
  · exact hp
  · rename_i hlong
    refine List.prefix_take_iff.mpr ⟨hp, ?_⟩
    by_contra hcut
    obtain ⟨rest, rfl⟩ := hp
    cases rest with
    | nil =>
      rw [List.append_nil] at hlong
      exact hlong hlen
    | cons b rest =>
      have htail := utf8Cut_passes (Nat.lt_of_not_le hcut) hlen
      rw [List.getD_eq_getElem?_getD, List.getElem?_append_right le_rfl, Nat.sub_self] at htail
      exact (hvalid.of_append h).not_tail htail

/-- A scan that treats all bytes behind ASCII alike. -/
theorem uniform_of_not_ascii {q : UInt8 → Bool} {v : Bool} (h : ∀ a, ¬ Ascii a → q a = v) : Uniform q :=
  fun a b ha hb => (h a ha).trans (h b hb).symm

theorem ne_of_not_ascii {a : UInt8} (ha : ¬ Ascii a) (hc : Ascii c) : a ≠ c := by
  rintro rfl
  exact ha hc

theorem uniform_ne (hc : Ascii c) : Uniform fun d => d ≠ c :=
  uniform_of_not_ascii (v := true) fun _ ha => decide_eq_true (ne_of_not_ascii ha hc)

theorem uniform_isSpace : Uniform isSpace := by
  refine uniform_of_not_ascii (v := false) fun a ha => ?_
  rw [isSpace, decide_eq_false_iff_not]
  rintro (rfl | rfl | rfl | rfl) <;> exact ha (by decide)

theorem uniform_isDigit : Uniform isDigit := by
  refine uniform_of_not_ascii (v := false) fun a ha => ?_
  rw [isDigit, decide_eq_false_iff_not]
  rintro ⟨-, hle⟩
  exact ha (Nat.lt_of_le_of_lt (UInt8.le_iff_toNat_le.mp hle) (by decide))

theorem uniform_insideScalar : Uniform insideScalar :=
  uniform_of_not_ascii (v := true) fun _ ha =>
    decide_eq_true ⟨ne_of_not_ascii ha (by decide), ne_of_not_ascii ha (by decide)⟩

theorem valid_skipWhitespace (h : Valid s) : Valid (skipWhitespace s) := h.dropWhile uniform_isSpace

theorem valid_matchChar (hc : Ascii c) (h : Valid s) : Valid (matchChar c s).2 := by
  have hskip := valid_skipWhitespace h
  rw [matchChar]
  cases hs : skipWhitespace s with
  | nil => exact valid_nil
  | cons d t =>
    rw [hs] at hskip
    dsimp only
    split
    · rename_i hd
      subst hd
      exact hskip.of_ascii_cons hc
    · exact hskip

/-- A quoted string is cut out of the text between two quotes, or up to its end. -/
theorem valid_readString (h : Valid s) : Valid (readString s).1 ∧ Valid (readString s).2 := by
  have hquote : Ascii quote := by decide
  have hmatch := valid_matchChar hquote h
  rw [readString]
  rcases hm : matchChar quote s with ⟨found, t⟩
  rw [hm] at hmatch
  cases found with
  | false => exact ⟨valid_nil, hmatch⟩
  | true =>
    refine ⟨hmatch.takeWhile (uniform_ne hquote), ?_⟩
    have hdrop := hmatch.dropWhile (uniform_ne hquote)
    dsimp only
    cases hd : t.dropWhile (· ≠ quote) with
    | nil => exact valid_nil
    | cons d u =>
      rw [hd] at hdrop
      have hdq : d = quote := by
        have hhead := List.head?_dropWhile_not (fun c => decide (c ≠ quote)) t
        rw [hd] at hhead
        simpa using hhead
      subst hdq
      exact hdrop.of_ascii_cons hquote

theorem valid_readUInt64 (h : Valid s) : Valid (readUInt64 s).2 :=
  (valid_skipWhitespace h).dropWhile uniform_isDigit

/-- A cursor of `SkipJsonValue` that is inside nested values, or on the bracket they begin with. -/
def Nests (p : Nat × Bytes) : Prop :=
  Resumes p.2 ∧ (0 < p.1 ∨ peek p.2 = openBrace ∨ peek p.2 = openBracket)

/-- Back at depth zero, a turn has just passed a string or a bracket. -/
theorem skipNestedTurn_resumes {p : Nat × Bytes} (h : Nests p) : Resumes (skipNestedTurn p).1.2 ∧
    ((skipNestedTurn p).1.1 = 0 → Valid (skipNestedTurn p).1.2) := by
  obtain ⟨depth, s⟩ := p
  obtain ⟨hs, hdepth⟩ := h
  cases s with
  | nil => exact ⟨hs, fun _ => valid_nil⟩
  | cons c s =>
    have hascii : Ascii c → Valid s := fun hc => (hs.valid_of_ascii hc).of_ascii_cons hc
    rw [skipNestedTurn]
    dsimp only
    by_cases hquote : c = quote
    · rw [if_pos hquote]
      have hread := (valid_readString (hs.valid_of_ascii (hquote ▸ by decide))).2
      exact ⟨hread.resumes, fun _ => hread⟩
    · rw [if_neg hquote]
      by_cases hopen : c = openBrace ∨ c = openBracket
      · rw [if_pos hopen]
        have hrest := hascii (by rcases hopen with rfl | rfl <;> decide)
        exact ⟨hrest.resumes, fun _ => hrest⟩
      · rw [if_neg hopen]
        by_cases hclose : c = closeBrace ∨ c = closeBracket
        · rw [if_pos hclose]
          have hrest := hascii (by rcases hclose with rfl | rfl <;> decide)
          exact ⟨hrest.resumes, fun _ => hrest⟩
        · rw [if_neg hclose]
          refine ⟨hs.of_cons, fun hzero => ?_⟩
          rcases hdepth with hpos | hpeek
          · exact absurd hzero (Nat.pos_iff_ne_zero.mp hpos)
          · exact absurd hpeek hopen

theorem skipNestedTurn_again {p : Nat × Bytes} (h : (skipNestedTurn p).2 = true) :
    0 < (skipNestedTurn p).1.1 := by
  obtain ⟨depth, s⟩ := p
  cases s with
  | nil => cases h
  | cons c s => exact (of_decide_eq_true h).2

theorem skipNestedTurn_done {p : Nat × Bytes} (h : (skipNestedTurn p).2 = false) :
    (skipNestedTurn p).1.2 = [] ∨ (skipNestedTurn p).1.1 = 0 := by
  obtain ⟨depth, s⟩ := p
  cases s with
  | nil => exact Or.inl rfl
  | cons c s =>
    have hdone := of_decide_eq_false h
    by_contra hnot
    rw [not_or] at hnot
    exact hdone ⟨hnot.1, Nat.pos_of_ne_zero hnot.2⟩

theorem valid_skipJsonValue (h : Valid s) : Valid (skipJsonValue s) := by
  have hskip := valid_skipWhitespace h
  rw [skipJsonValue]
  split
  · exact hskip
  · split
    · exact (valid_readString hskip).2
    · split
      · rename_i hopen
        refine Loop.run_ends (I := Nests) (Q := fun p => Valid p.2) shrinks_skipNestedTurn ?_ ?_
          ⟨hskip.resumes, Or.inr hopen⟩
        · intro p hp hagain
          exact ⟨(skipNestedTurn_resumes hp).1, Or.inl (skipNestedTurn_again hagain)⟩
        · intro p hp hdone
          rcases skipNestedTurn_done hdone with hnil | hzero
          · rw [hnil]
            exact valid_nil
          · exact (skipNestedTurn_resumes hp).2 hzero
      · refine hskip.dropWhile (uniform_of_not_ascii (v := true) fun a ha => decide_eq_true ?_)
        exact ⟨ne_of_not_ascii ha (by decide), ne_of_not_ascii ha (by decide),
          ne_of_not_ascii ha (by decide)⟩

/-- The bracket loops end behind a bracket, or with the text. -/
theorem valid_skipBrackets {opening closing : UInt8} (hopening : Ascii opening)
    (hclosing : Ascii closing) (h : Resumes s) (hzero : n = 0 → Valid s) :
    Valid (skipBrackets opening closing n s) := by
  induction s generalizing n with
  | nil =>
    cases n with
    | zero => exact valid_nil
    | succ n => exact valid_nil
  | cons c s ih =>
    cases n with
    | zero => exact hzero rfl
    | succ n =>
      have hrest : Ascii c → Valid s := fun hc => (h.valid_of_ascii hc).of_ascii_cons hc
      rw [skipBrackets]
      refine ih h.of_cons fun hdepth => ?_
      by_cases hopen : c = opening
      · exact hrest (hopen ▸ hopening)
      · rw [if_neg hopen] at hdepth
        by_cases hclose : c = closing
        · exact hrest (hclose ▸ hclosing)
        · rw [if_neg hclose] at hdepth
          exact absurd hdepth (Nat.succ_ne_zero n)

theorem valid_skipBlockValue (h : Valid s) : Valid (skipBlockValue s) := by
  have hone : (1 : Nat) = 0 → Valid s := fun h1 => absurd h1 (by decide)
  rw [skipBlockValue]
  split
  · exact valid_skipBrackets (by decide) (by decide) h.resumes hone
  · split
    · exact valid_skipBrackets (by decide) (by decide) h.resumes hone
    · exact h.dropWhile uniform_insideScalar

/-- A reader of members that keeps a property of its value cuts no character of the text. -/
def KeepsUtf8 (I : α → Prop) (member : Bytes → α → Bytes → α × Bytes) : Prop :=
  ∀ k x s, Valid k → Valid s → I x → I (member k x s).1 ∧ Valid (member k x s).2

theorem KeepsUtf8.readMembers (h : KeepsUtf8 I member) (hx : I x) (hs : Valid s) :
    I (readMembers member (x, s)).1 ∧ Valid (readMembers member (x, s)).2 := by
  have hturn : ∀ p : α × Bytes, I p.1 ∧ Valid p.2 →
      I (memberTurn member p).1.1 ∧ Valid (memberTurn member p).1.2 := by
    rintro ⟨x, s⟩ ⟨hx, hs⟩
    have hskip := valid_skipWhitespace hs
    have hkey := valid_readString hskip
    rw [memberTurn]
    dsimp only
    split
    · exact ⟨hx, hskip⟩
    · split
      · exact ⟨hx, hkey.2⟩
      · have hcolon := valid_matchChar (c := colon) (by decide) hkey.2
        split
        · exact ⟨hx, hcolon⟩
        · have hread := h _ x _ hkey.1 hcolon hx
          exact ⟨hread.1, valid_matchChar (by decide) hread.2⟩
  have hrun := @Loop.run_invariant _ (fun p => p.2.length) _ (x, s) (fun p => I p.1 ∧ Valid p.2) hturn
    ⟨hx, hs⟩
  exact ⟨hrun.1, valid_matchChar (by decide) hrun.2⟩

theorem KeepsUtf8.readBlock (h : KeepsUtf8 I onKey) (hx : I x) (hs : Valid s) :
    I (readBlock onKey (x, s)).1 ∧ Valid (readBlock onKey (x, s)).2 := by
  have hblock : KeepsUtf8 I (blockMember onKey) := by
    intro k x s hk hs hx
    have hread := h k x s hk hs hx
    exact ⟨hread.1, valid_skipBlockValue hread.2⟩
  have hbrace := valid_matchChar (c := openBrace) (by decide) hs
  rw [Botid.readBlock]
  split
  · exact hblock.readMembers hx hbrace
  · exact ⟨hx, hbrace⟩

theorem keepsUtf8_onRecordField : KeepsUtf8 (fun b => Valid b.name) onRecordField := by
  intro k b s _ hs hb
  have hstring := valid_readString hs
  have hnumber := valid_readUInt64 hs
  rw [onRecordField]
  split_ifs
  · exact ⟨hb, hnumber⟩
  · exact ⟨hstring.1, hstring.2⟩
  · exact ⟨hb, hnumber⟩
  · exact ⟨hb, hstring.2⟩
  · exact ⟨hb, hnumber⟩
  · exact ⟨hb, hs⟩

/-- Every name of the list is valid. -/
def ValidNames (info : BotInfo) : Prop := ∀ b ∈ info.bots, Valid b.name

theorem validNames_keep {info : BotInfo} {b : BotIdentity} (h : ValidNames info) (hb : Valid b.name) :
    ValidNames (info.keep b) := by
  intro b' hb'
  rw [bots_keep] at hb'
  split at hb'
  · rcases List.mem_append.mp hb' with hold | hnew
    · exact h b' hold
    · rw [List.mem_singleton.mp hnew, BotIdentity.cut]
      split
      · exact valid_truncateUtf8 hb
      · exact hb
  · exact h b' hb'

theorem keepsUtf8_onBot : KeepsUtf8 ValidNames onBot := by
  intro k info s hk hs hinfo
  have hbrace := valid_matchChar (c := openBrace) (by decide) hs
  have hread : Valid (readRecord (info.newIdentity k, s)).1.name ∧
      Valid (readRecord (info.newIdentity k, s)).2 := by
    rw [readRecord]
    dsimp only
    split
    · exact keepsUtf8_onRecordField.readMembers (x := info.newIdentity k) hk hbrace
    · exact ⟨hk, hbrace⟩
  exact ⟨validNames_keep hinfo hread.1, hread.2⟩

theorem keepsUtf8_onBotsFileKey : KeepsUtf8 ValidNames onBotsFileKey := by
  intro k info s _ hs hinfo
  rw [onBotsFileKey]
  split
  · exact keepsUtf8_onBot.readBlock hinfo hs
  · exact ⟨hinfo, valid_skipJsonValue hs⟩

/-- A file that has been loaded leaves valid names that fit their cell. -/
theorem names_loadBots {info : BotInfo} {json : Bytes} (h : Valid json)
    (hload : (info.loadBots (some json)).1 = true) :
    ∀ b ∈ (info.loadBots (some json)).2.bots,
      Valid b.name ∧ b.name.length ≤ kMaxPersonaNameBytes := by
  have hbrace := valid_matchChar (c := openBrace) (by decide) h
  have hempty : FreshBots { info with bots := [], droppedOnLoad := 0, truncatedOnLoad := 0 } :=
    ⟨Nat.zero_le _, List.forall_mem_nil _, List.forall_mem_nil _⟩
  have hnone : ValidNames { info with bots := [], droppedOnLoad := 0, truncatedOnLoad := 0 } :=
    List.forall_mem_nil _
  rw [BotInfo.loadBots] at hload ⊢
  split
  · intro b hb
    have hfresh : FreshBots (readMembers onBotsFileKey (_, (matchChar openBrace json).2)).1 :=
      readMembers_invariant (fun k _ s hi => hi.onBotsFileKey k s) hempty
    have hnames := keepsUtf8_onBotsFileKey.readMembers hnone hbrace
    exact ⟨hnames.1 b hb, hfresh.name_le b hb⟩
  · rename_i hnot
    rw [if_neg hnot] at hload
    cases hload

theorem loadBots_refused {info : BotInfo} {json : Bytes} (h : (info.loadBots (some json)).1 = false) :
    (info.loadBots (some json)).2 = info := by
  rw [BotInfo.loadBots] at h ⊢
  split
  · rename_i hbrace
    rw [if_pos hbrace] at h
    cases h
  · rfl

/-- The cell holds a name up to its first NUL. -/
theorem personaName_publishAdopt {shm : Shm} {slot : Int} {steamId : UInt64} {name : Bytes}
    (hm : shm.mapped = true) (hs : 0 ≤ slot) (hs' : slot < kShmMaxSlots)
    (hname : name.length ≤ kMaxPersonaNameBytes) :
    cstr ((shm.publishAdopt slot steamId name).slot slot).personaName = cstr name := by
  have hlen : (cstr name).length ≤ kShmNameLen - 1 :=
    (List.takeWhile_prefix _).length_le.trans hname
  rw [Shm.publishAdopt, Shm.slot_publish hm hs hs']
  dsimp only
  rw [cstr_charCell (by decide), List.take_of_length_le hlen]

theorem valid_cstr (h : Valid s) : Valid (cstr s) := h.takeWhile (uniform_ne (by decide))

/-- Truncation keeps the longest prefix of whole characters, so the names that a UTF-8 file is loaded
with are UTF-8 themselves, and the shared memory shows each of them whole. -/
theorem persona_names_whole :
    (∀ s m, truncateUtf8 s m <+: s ∧ (truncateUtf8 s m).length ≤ m) ∧
    (∀ s m, Valid s → Valid (truncateUtf8 s m) ∧ (s.length ≤ m → truncateUtf8 s m = s) ∧
      ∀ p, p <+: s → Valid p → p.length ≤ m → p <+: truncateUtf8 s m) ∧
    ∀ (info : BotInfo) json, Valid json →
      ((info.loadBots (some json)).1 = false → (info.loadBots (some json)).2 = info) ∧
      ((info.loadBots (some json)).1 = true → ∀ b ∈ (info.loadBots (some json)).2.bots,
        Valid b.name ∧ b.name.length ≤ 31 ∧
        ∀ (shm : Shm) slot steamId, shm.mapped = true → 0 ≤ slot → slot < kShmMaxSlots →
          cstr ((shm.publishAdopt slot steamId b.name).slot slot).personaName = cstr b.name ∧
          Valid (cstr b.name)) := by
  refine ⟨fun s m => ⟨truncateUtf8_isPrefix, length_truncateUtf8_le⟩, fun s m h => ?_, ?_⟩
  · exact ⟨valid_truncateUtf8 h, fun hfits => if_pos hfits, fun p => prefix_truncateUtf8 h⟩
  · intro info json h
    refine ⟨loadBots_refused, fun hload b hb => ?_⟩
    obtain ⟨hvalid, hlen⟩ := names_loadBots h hload b hb
    refine ⟨hvalid, hlen, fun shm slot steamId hm hs hs' => ?_⟩
    exact ⟨personaName_publishAdopt hm hs hs' hlen, valid_cstr hvalid⟩

/-- One bot whose name takes 33 bytes. -/
def longNameFile : Bytes :=
  encode ("\x7b\"bots\":\x7b\"".toList ++ List.replicate 11 '語' ++ "\":\x7b\x7d\x7d\x7d".toList)

theorem persona_names_whole_of_file :
    (BotInfo.loadBots {} (some longNameFile)).2.bots.map (·.name) = [encode (List.replicate 10 '語')] ∧
      ∀ b ∈ (BotInfo.loadBots {} (some longNameFile)).2.bots, Valid b.name ∧ b.name.length ≤ 31 := by
  refine ⟨by decide +kernel, fun b hb => ?_⟩
  obtain ⟨-, -, hfile⟩ := persona_names_whole
  obtain ⟨hvalid, hlen, -⟩ := (hfile {} longNameFile ⟨_, rfl⟩).2 (by decide +kernel) b hb
  exact ⟨hvalid, hlen⟩

/-- The limit falls inside the last character, and behind one that is longer than the limit. -/
example : truncateUtf8 (encode ['a', 'é', '語']) 5 = encode ['a', 'é'] ∧
    truncateUtf8 (encode ['語']) 2 = [] :=
  ⟨rfl, rfl⟩

end Botid
