import Botid.BotList

/-! Unknown fields in an identity list: the record stops at them, and the skippers take over. -/
namespace Botid

variable {X : Bytes} {info : BotInfo}

/-- A field that `LoadBots` does not know, with any value; the key may also be empty. -/
structure UnknownField where
  head : MemberText
  before : Bytes
  value : Bytes
  trail : Bytes
  key_unknown : head.key ∉ recordKeys
  before_blank : Blank before
  json : JsonValue value
  trail_blank : Blank trail

def UnknownField.member (u : UnknownField) : MemberText :=
  u.head.withValue (u.before ++ u.value ++ u.trail)

/-- What the loop over the record leaves of it unread. -/
def UnknownField.unread (u : UnknownField) : Bytes :=
  (if u.head.key = [] then colon :: u.before else []) ++ u.value ++ u.trail

/-- The records of a member of the file up to one without a key. -/
def TopText.listed (t : TopText) : List RecordText := t.records.takeWhile RecordText.isNamed

/-- The records that the reader arrives at: a member without a key is the last thing it looks at. -/
def listedRecords : List TopText → List RecordText
  | [] => []
  | t :: ts => t.listed ++ if t.isNamed then listedRecords ts else []

/-- An identity list, and a place between two fields of one of its records. -/
structure Place where
  lead : Bytes
  ws : Bytes
  tail : Bytes
  topsBefore : List TopText
  /-- The block with the records in front of the one that gets the field. -/
  block : BlockText
  /-- The record with the fields in front of the place. -/
  record : RecordText
  fieldsAfter : List FieldText
  recordsAfter : List RecordText
  topsAfter : List TopText
  lead_blank : Blank lead
  ws_blank : Blank ws

namespace Place

def recordText (p : Place) (fields : List MemberText) : MemberText :=
  p.record.head.withValue (objectText p.record.before p.record.inner
    (p.record.fields.map FieldText.member ++ fields) p.record.trail)

def blockText (p : Place) (fields : List MemberText) : MemberText :=
  p.block.head.withValue (objectText p.block.before p.block.inner
    (p.block.records.map RecordText.member ++
      p.recordText fields :: p.recordsAfter.map RecordText.member) p.block.trail)

def file (p : Place) (fields : List MemberText) : Bytes :=
  objectText p.lead p.ws
    (p.topsBefore.map TopText.member ++ p.blockText fields :: p.topsAfter.map TopText.member) p.tail

def without (p : Place) : Bytes := p.file (p.fieldsAfter.map FieldText.member)

def withField (p : Place) (u : UnknownField) : Bytes :=
  p.file (u.member :: p.fieldsAfter.map FieldText.member)

/-- Every key in front of the place is one, so the reader arrives there. -/
def Arrives (p : Place) : Prop :=
  (∀ t ∈ p.topsBefore, t.isNamed = true) ∧ (∀ r ∈ p.block.records, r.isNamed = true) ∧
    p.record.isNamed = true

/-- The records behind this one that the reader arrives at. -/
def later (p : Place) : List RecordText :=
  p.recordsAfter.takeWhile RecordText.isNamed ++
    if p.recordsAfter.all RecordText.isNamed then listedRecords p.topsAfter else []

/-- The records in front of the one that gets the field. -/
def count (p : Place) : Nat := (p.topsBefore.flatMap TopText.records).length + p.block.records.length

/-- The identity as the fields in front of the place make it. -/
def soFar (p : Place) : BotIdentity :=
  identityOf p.record.head.key (min p.count kMaxBotIdentities) p.record.fields

def whole (p : Place) : BotIdentity :=
  identityOf p.record.head.key (min p.count kMaxBotIdentities) (p.record.fields ++ p.fieldsAfter)

/-- The record from there on. -/
def unread (p : Place) (u : UnknownField) : Bytes :=
  u.unread ++ restText p.record.inner (p.fieldsAfter.map FieldText.member) ++ [closeBrace]

def afterBlock (p : Place) : Bytes :=
  restText p.ws (p.topsAfter.map TopText.member) ++ closeBrace :: p.tail

def afterRecord (p : Place) : Bytes :=
  restText p.block.inner (p.recordsAfter.map RecordText.member) ++
    closeBrace :: (p.block.trail ++ p.afterBlock)

/-- Where the reader of the block goes on. -/
def reread (p : Place) (u : UnknownField) : Bytes :=
  skipBlockValue (p.unread u ++ (p.record.trail ++ p.afterRecord))

/-- The fields behind the place say nothing new, or the list is full anyway. -/
def KeepsBot (p : Place) : Prop := kMaxBotIdentities ≤ p.count ∨ p.soFar.cut = p.whole.cut

/-- The field has a key, and the skipper of the block counts the object that it stands on twice, for
which the record's own brace makes up. -/
def ClosesRecord (p : Place) (u : UnknownField) : Prop :=
  u.head.key ≠ [] ∧ peek u.value = openBrace ∧
    closesAtEnd openBrace closeBrace 1 (p.unread u) = true

/-- No record follows, and both loops end where the skipper stops. -/
def EndsFile (p : Place) (u : UnknownField) : Prop :=
  p.later = [] ∧ EndsAt (p.reread u) ∧ EndsAt (behindBrace (p.reread u))

/-- The rest of the file adds the bots that it names, or finds the list full. -/
def KeepsRest (p : Place) (u : UnknownField) : Prop :=
  kMaxBotIdentities ≤ p.count + 1 ∨ p.ClosesRecord u ∨ p.EndsFile u

end Place

theorem UnknownField.onRecordField (u : UnknownField) (b : BotIdentity) (s : Bytes) :
    onRecordField u.member.key b s = (b, s) :=
  onRecordField_of_unknown u.key_unknown

/-- The loop over a record ends at an unknown field, in front of its value, or on the colon where there
is no key. -/
theorem readMembers_unknownField {u : UnknownField} {b : BotIdentity} {inner : Bytes}
    {ms : List MemberText} :
    readMembers onRecordField (b, membersText inner (u.member :: ms) ++ X) =
      (b, u.unread ++ (restText inner ms ++ X)) := by
  rw [membersText_cons, List.append_assoc, UnknownField.unread]
  by_cases hkey : u.head.key = []
  · have hnameless := readMembers_nameless (x := b) (m := u.member) (X := restText inner ms ++ X)
      consumes_onRecordField hkey
    rw [hnameless, if_pos hkey, UnknownField.member, MemberText.withValue]
    simp only [List.append_assoc, List.cons_append]
  · have hkey' : u.member.key ≠ [] := hkey
    obtain ⟨d, v, hv, hspace, hcomma, hbrace⟩ := u.json.head
    have hskip : skipWhitespace (u.member.value ++ (restText inner ms ++ X)) =
        d :: (v ++ (u.trail ++ (restText inner ms ++ X))) := by
      rw [UnknownField.member, MemberText.withValue, hv, List.append_assoc, List.append_assoc,
        List.cons_append, skipWhitespace_blank u.before_blank hspace]
    have hcomma' := matchChar_of_ne hskip hcomma
    rw [if_neg hkey, List.nil_append, readMembers_last consumes_onRecordField hkey']
    · rw [u.onRecordField]
      dsimp only
      rw [hcomma', matchChar_of_ne (skipWhitespace_cons hspace) hbrace, hv, List.append_assoc,
        List.cons_append]
    · rw [u.onRecordField]
      dsimp only
      rw [hcomma']

section Stops

variable {ws : Bytes} {t : TopText} {tops : List TopText} {r : RecordText} {rs : List RecordText}

/-- A record without a key ends the loop over its block. -/
theorem readMembers_records_stopped (info : BotInfo) (hws : Blank ws)
    (h : ∃ r ∈ rs, r.isNamed = false) :
    ∀ ms X, ∃ s, readMembers (blockMember onBot)
      (info, membersText ws (rs.map RecordText.member ++ ms) ++ closeBrace :: X) =
        ((rs.takeWhile RecordText.isNamed).foldl BotInfo.addRecord info, colon :: s) := by
  intro ms X
  induction rs generalizing info with
  | nil => simp at h
  | cons r rs ih =>
    rw [List.map_cons, List.cons_append]
    cases hr : r.isNamed with
    | true =>
      have hlater : ∃ r ∈ rs, r.isNamed = false := by
        obtain ⟨r', hr', hname⟩ := h
        rcases List.mem_cons.mp hr' with rfl | hr'
        · simp [hr] at hname
        · exact ⟨r', hr', hname⟩
      rw [readMembers_cons (consumes_blockMember consumes_onBot) hws (reads_record hr info),
        List.takeWhile_cons_of_pos hr, List.foldl_cons]
      exact ih _ hlater
    | false =>
      have hkey : r.head.key = [] := by simpa [RecordText.isNamed] using hr
      rw [membersText_cons, List.append_assoc,
        readMembers_nameless (m := r.member) (consumes_blockMember consumes_onBot) hkey,
        List.takeWhile_cons_of_neg (by simp [hr])]
      exact ⟨_, rfl⟩

/-- And such a block, or a member without a key, ends the reading. -/
theorem stops_top (info : BotInfo) (h : t.isNamed = false) :
    Stops onBotsFileKey t.member info (t.listed.foldl BotInfo.addRecord info) := by
  cases t with
  | bots t =>
    have hkey : t.member.key = ascii "bots" := t.key_eq
    refine stops_of_member consumes_onBotsFileKey (hkey ▸ key_bots.1) fun X => ?_
    have hnameless : ∃ r ∈ t.records, r.isNamed = false := by
      simpa [TopText.isNamed] using h
    obtain ⟨s, hread⟩ := readMembers_records_stopped info t.inner_blank hnameless [] (t.trail ++ X)
    rw [List.append_nil] at hread
    simp only [TopText.member]
    rw [onBotsFileKey, if_pos hkey]
    simp only [BlockText.member, MemberText.withValue]
    rw [objectText, List.append_assoc, List.cons_append, List.append_assoc, List.cons_append,
      readBlock_text t.before_blank, hread]
    exact ⟨s, rfl⟩
  | other t =>
    have hkey : t.head.key = [] := by simpa [TopText.isNamed] using h
    exact stops_of_nameless consumes_onBotsFileKey hkey

theorem listed_of_isNamed (h : t.isNamed = true) : t.listed = t.records := by
  cases t with
  | bots t => exact List.takeWhile_eq_self_iff.mpr (List.all_eq_true.mp h)
  | other t => rfl

/-- Whatever keys are missing: the bots are those of the records that the reader arrives at. -/
theorem readMembers_tops (hws : Blank ws) :
    (readMembers onBotsFileKey (info, membersText ws (tops.map TopText.member) ++ closeBrace :: X)).1 =
      (listedRecords tops).foldl BotInfo.addRecord info := by
  induction tops generalizing info with
  | nil => rw [List.map_nil, membersText, readMembers_blank consumes_onBotsFileKey hws]; rfl
  | cons t tops ih =>
    rw [List.map_cons, listedRecords, List.foldl_append]
    cases ht : t.isNamed with
    | true =>
      rw [readMembers_cons consumes_onBotsFileKey hws (reads_top ht info), ih, if_pos rfl,
        listed_of_isNamed ht, BotInfo.addTop]
    | false =>
      rw [membersText_cons, List.append_assoc, if_neg (by simp)]
      obtain ⟨s, hs⟩ := stops_top info ht (restText ws (tops.map TopText.member) ++
        closeBrace :: X)
      rw [hs, List.foldl_nil]

end Stops

variable {p : Place} {u : UnknownField}

namespace Place

/-- The list as it stands when the reader arrives at the record. -/
def reached (p : Place) (info : BotInfo) : BotInfo :=
  p.block.records.foldl BotInfo.addRecord (p.topsBefore.foldl BotInfo.addTop
    { info with bots := [], droppedOnLoad := 0, truncatedOnLoad := 0 })

theorem length_reached (p : Place) (info : BotInfo) :
    (p.reached info).bots.length = min p.count kMaxBotIdentities := by
  rw [reached, foldl_addTop, ← List.foldl_append, length_bots_foldl_addRecord (Nat.zero_le _),
    List.length_append, count]
  simp

theorem length_keep_reached {b : BotIdentity} : ((p.reached info).keep b).bots.length =
    min (p.count + 1) kMaxBotIdentities := by
  have hreached := p.length_reached info
  rw [bots_keep]
  split
  · rw [List.length_append, List.length_singleton]
    omega
  · omega

/-- The bot is kept as far as it is read, and the skipper of the block takes over. -/
theorem onBot_withField :
    blockMember onBot (p.recordText (u.member :: p.fieldsAfter.map FieldText.member)).key
        (p.reached info)
        ((p.recordText (u.member :: p.fieldsAfter.map FieldText.member)).value ++ X) =
      ((p.reached info).keep p.soFar, skipBlockValue (p.unread u ++ (p.record.trail ++ X))) := by
  rw [blockMember, recordText, MemberText.withValue, onBot_text p.record.before_blank,
    BotInfo.newIdentity, length_reached,
    readMembers_foldl consumes_onRecordField p.record.inner_blank fun t _ b => reads_field,
    readMembers_unknownField, unread]
  simp only [List.append_assoc, List.singleton_append]
  rfl

variable {fields : List MemberText} {info' : BotInfo}

theorem onBotsFileKey_blockText :
    onBotsFileKey (p.blockText fields).key info ((p.blockText fields).value ++ X) =
      readMembers (blockMember onBot) (info, membersText p.block.inner
        (p.block.records.map RecordText.member ++
          p.recordText fields :: p.recordsAfter.map RecordText.member) ++
        closeBrace :: (p.block.trail ++ X)) := by
  have hkey : (p.blockText fields).key = ascii "bots" := p.block.key_eq
  rw [onBotsFileKey, if_pos hkey, blockText, MemberText.withValue, objectText,
    List.append_assoc, List.cons_append, List.append_assoc, List.cons_append,
    readBlock_text p.block.before_blank]

theorem key_blockText : (p.blockText fields).key ≠ [] := by
  have hkey : (p.blockText fields).key = ascii "bots" := p.block.key_eq
  exact hkey ▸ key_bots.1

/-- With every key in front of it, the reader of the block arrives at the record. -/
theorem onBotsFileKey_arrives (h : p.Arrives) :
    onBotsFileKey (p.blockText fields).key info ((p.blockText fields).value ++ X) =
      readMembers (blockMember onBot) (p.block.records.foldl BotInfo.addRecord info,
        membersText p.block.inner (p.recordText fields :: p.recordsAfter.map RecordText.member) ++
          closeBrace :: (p.block.trail ++ X)) := by
  rw [onBotsFileKey_blockText, readMembers_foldl (consumes_blockMember consumes_onBot)
    p.block.inner_blank fun r hr => reads_record (h.2.1 r hr)]

theorem loadBots_file : (info.loadBots (some (p.file fields))).2 =
    (readMembers onBotsFileKey ({ info with bots := [], droppedOnLoad := 0, truncatedOnLoad := 0 },
      membersText p.ws (p.topsBefore.map TopText.member ++
        p.blockText fields :: p.topsAfter.map TopText.member) ++ closeBrace :: p.tail)).1 := by
  rw [file, loadBots_text p.lead_blank]

theorem loadBots_arrives (h : p.Arrives) : (info.loadBots (some (p.file fields))).2 =
    (readMembers onBotsFileKey (p.topsBefore.foldl BotInfo.addTop
        { info with bots := [], droppedOnLoad := 0, truncatedOnLoad := 0 },
      membersText p.ws (p.blockText fields :: p.topsAfter.map TopText.member) ++
        closeBrace :: p.tail)).1 := by
  rw [loadBots_file, readMembers_foldl consumes_onBotsFileKey p.ws_blank fun t ht => reads_top (h.1 t ht)]

/-- A block whose loop ends in front of the record's fields, whatever they are. -/
theorem stops_blockText (info : BotInfo)
    (h : ¬ ((∀ r ∈ p.block.records, r.isNamed = true) ∧ p.record.isNamed = true)) :
    ∃ info', ∀ fields, Stops onBotsFileKey (p.blockText fields) info info' := by
  have hconsumes := consumes_blockMember consumes_onBot
  suffices hblock : ∃ info', ∀ fields X, ∃ s, readMembers (blockMember onBot) (info,
      membersText p.block.inner (p.block.records.map RecordText.member ++
        p.recordText fields :: p.recordsAfter.map RecordText.member) ++ closeBrace :: X) =
          (info', colon :: s) by
    obtain ⟨info', hinfo'⟩ := hblock
    refine ⟨info', fun fields => stops_of_member consumes_onBotsFileKey key_blockText fun X => ?_⟩
    rw [onBotsFileKey_blockText]
    exact hinfo' fields _
  by_cases hrecords : ∃ r ∈ p.block.records, r.isNamed = false
  · exact ⟨_, fun fields X => readMembers_records_stopped info p.block.inner_blank hrecords _ X⟩
  · have hnamed : ∀ r ∈ p.block.records, r.isNamed = true := by
      intro r hr
      by_contra hname
      exact hrecords ⟨r, hr, by simpa using hname⟩
    have hkey : p.record.head.key = [] := by
      by_contra hne
      exact h ⟨hnamed, decide_eq_true hne⟩
    refine ⟨p.block.records.foldl BotInfo.addRecord info, fun fields X => ?_⟩
    rw [readMembers_foldl hconsumes p.block.inner_blank fun r hr => reads_record (hnamed r hr),
      membersText_cons, List.append_assoc,
      readMembers_nameless (m := p.recordText fields) hconsumes hkey]
    exact ⟨_, rfl⟩

/-- Where a key in front of the place is missing, nothing there is read. -/
theorem loadBots_of_not_arrives (h : ¬ p.Arrives) (info : BotInfo) :
    ∃ info', ∀ fields, (info.loadBots (some (p.file fields))).2 = info' := by
  by_cases htops : ∀ t ∈ p.topsBefore, t.isNamed = true
  · have hblock : ¬ ((∀ r ∈ p.block.records, r.isNamed = true) ∧ p.record.isNamed = true) :=
      fun hblock => h ⟨htops, hblock⟩
    obtain ⟨info', hinfo'⟩ := stops_blockText (p.topsBefore.foldl BotInfo.addTop
      { info with bots := [], droppedOnLoad := 0, truncatedOnLoad := 0 }) hblock
    refine ⟨info', fun fields => ?_⟩
    rw [loadBots_file, readMembers_foldl consumes_onBotsFileKey p.ws_blank
      fun t ht => reads_top (htops t ht), membersText_cons, List.append_assoc]
    obtain ⟨s, hs⟩ := hinfo' fields
      (restText p.ws (p.topsAfter.map TopText.member) ++ closeBrace :: p.tail)
    rw [hs]
  · simp only [not_forall, Bool.not_eq_true] at htops
    obtain ⟨t, ht, hname⟩ := htops
    have hmembers : ∀ m ∈ p.topsBefore.map TopText.member,
        (∀ x, ∃ x', Reads onBotsFileKey m x x') ∨ ∀ x, ∃ x', Stops onBotsFileKey m x x' := by
      intro m hm
      obtain ⟨t, -, rfl⟩ := List.mem_map.mp hm
      cases ht : t.isNamed with
      | true => exact Or.inl fun x => ⟨_, reads_top ht x⟩
      | false => exact Or.inr fun x => ⟨_, stops_top x ht⟩
    obtain ⟨info', hinfo'⟩ := readMembers_stopped consumes_onBotsFileKey p.ws_blank
      (x := { info with bots := [], droppedOnLoad := 0, truncatedOnLoad := 0 }) hmembers
      ⟨t.member, List.mem_map_of_mem ht, fun x => ⟨_, stops_top x hname⟩⟩
    refine ⟨info', fun fields => ?_⟩
    obtain ⟨s, hs⟩ := hinfo' (p.blockText fields :: p.topsAfter.map TopText.member) p.tail
    rw [loadBots_file, hs]

/-- Where the record is read for what it is, so is everything behind it, up to a missing key. -/
theorem loadBots_of_reads (ha : p.Arrives)
    (h : Reads (blockMember onBot) (p.recordText fields) (p.reached info) info') :
    (info.loadBots (some (p.file fields))).2 = p.later.foldl BotInfo.addRecord info' := by
  rw [reached] at h
  have hconsumes := consumes_blockMember consumes_onBot
  rw [loadBots_arrives ha, later, List.foldl_append]
  cases hafter : p.recordsAfter.all RecordText.isNamed with
  | true =>
    have hnamed : ∀ r ∈ p.recordsAfter, r.isNamed = true := List.all_eq_true.mp hafter
    have hblock : Reads onBotsFileKey (p.blockText fields) (p.topsBefore.foldl BotInfo.addTop
        { info with bots := [], droppedOnLoad := 0, truncatedOnLoad := 0 })
        (p.recordsAfter.foldl BotInfo.addRecord info') := by
      refine ⟨key_blockText, fun c X hc => ?_⟩
      refine ⟨p.block.trail ++ c :: X, ?_,
        skipWhitespace_blank p.block.trail_blank (isSpace_separator hc)⟩
      rw [onBotsFileKey_arrives ha, readMembers_cons hconsumes p.block.inner_blank h,
        readMembers_map hconsumes p.block.inner_blank fun r hr => reads_record (hnamed r hr)]
    rw [readMembers_cons consumes_onBotsFileKey p.ws_blank hblock, readMembers_tops p.ws_blank,
      if_pos rfl, List.takeWhile_eq_self_iff.mpr hnamed]
  | false =>
    have hnameless : ∃ r ∈ p.recordsAfter, r.isNamed = false := by simpa using hafter
    have hstops : Stops onBotsFileKey (p.blockText fields) (p.topsBefore.foldl BotInfo.addTop
        { info with bots := [], droppedOnLoad := 0, truncatedOnLoad := 0 })
        ((p.recordsAfter.takeWhile RecordText.isNamed).foldl BotInfo.addRecord info') := by
      refine stops_of_member consumes_onBotsFileKey key_blockText fun X => ?_
      obtain ⟨s, hs⟩ := readMembers_records_stopped info' p.block.inner_blank hnameless []
        (p.block.trail ++ X)
      rw [List.append_nil] at hs
      rw [onBotsFileKey_arrives ha, readMembers_cons hconsumes p.block.inner_blank h, hs]
      exact ⟨s, rfl⟩
    rw [membersText_cons, List.append_assoc, if_neg (by simp), List.foldl_nil]
    obtain ⟨s, hs⟩ := hstops (restText p.ws (p.topsAfter.map TopText.member) ++ closeBrace :: p.tail)
    rw [hs]

theorem bots_without (ha : p.Arrives) : (info.loadBots (some p.without)).2.bots =
    (p.later.foldl BotInfo.addRecord ((p.reached info).keep p.whole)).bots := by
  have hread := reads_record (r := { p.record with fields := p.record.fields ++ p.fieldsAfter }) ha.2.2
    (p.reached info)
  rw [BotInfo.addRecord, length_reached, RecordText.member, List.map_append] at hread
  rw [without, loadBots_of_reads ha hread]
  rfl

/-- Where the record's own brace closes the object, only the record is cut short. -/
theorem bots_withField_of_closesRecord (ha : p.Arrives) (h : p.ClosesRecord u) :
    (info.loadBots (some (p.withField u))).2.bots =
      (p.later.foldl BotInfo.addRecord ((p.reached info).keep p.soFar)).bots := by
  obtain ⟨hkey, hopen, hcloses⟩ := h
  have hpeek : ∀ Y, peek (p.unread u ++ Y) = openBrace := by
    intro Y
    obtain ⟨d, v, hv, -⟩ := u.json.head
    rw [hv, peek_cons] at hopen
    rw [unread, UnknownField.unread, if_neg hkey, hv, hopen]
    rfl
  have hread : Reads (blockMember onBot)
      (p.recordText (u.member :: p.fieldsAfter.map FieldText.member)) (p.reached info)
      ((p.reached info).keep p.soFar) := by
    refine ⟨of_decide_eq_true ha.2.2, fun c X hc => ?_⟩
    refine ⟨p.record.trail ++ c :: X, ?_,
      skipWhitespace_blank p.record.trail_blank (isSpace_separator hc)⟩
    rw [onBot_withField, skipBlockValue, hpeek, if_pos rfl, skipBrackets_append hcloses]
  rw [withField, loadBots_of_reads ha hread]

/-- Whatever the reader makes of the rest, the bots up to this one stay. -/
theorem grownFrom_withField (ha : p.Arrives) (u : UnknownField) (info : BotInfo) :
    GrownFrom ((p.reached info).keep p.soFar).bots (info.loadBots (some (p.withField u))).2 := by
  rw [withField, loadBots_arrives ha, membersText_cons, List.append_assoc]
  refine readMembers_of_first consumes_onBotsFileKey key_blockText
    (fun k _ s hi => hi.onBotsFileKey k s) ?_
  rw [onBotsFileKey_arrives ha, membersText_cons, List.append_assoc]
  refine readMembers_of_first (consumes_blockMember consumes_onBot) (of_decide_eq_true ha.2.2)
    (fun k _ s hi => hi.onBot k s) ?_
  rw [← reached, onBot_withField]
  refine ⟨List.prefix_refl _, ?_⟩
  rw [length_keep_reached]
  omega

/-- Where the file ends with this record, the loops may end early. -/
theorem bots_withField_of_endsFile (ha : p.Arrives) (h : p.EndsFile u) :
    (info.loadBots (some (p.withField u))).2.bots = ((p.reached info).keep p.soFar).bots := by
  obtain ⟨-, hends, hends'⟩ := h
  have hkey : ∀ fields, (p.recordText fields).key ≠ [] := fun _ => of_decide_eq_true ha.2.2
  have hblock : onBotsFileKey (p.blockText (u.member :: p.fieldsAfter.map FieldText.member)).key
      (p.topsBefore.foldl BotInfo.addTop
        { info with bots := [], droppedOnLoad := 0, truncatedOnLoad := 0 })
      ((p.blockText (u.member :: p.fieldsAfter.map FieldText.member)).value ++ p.afterBlock) =
        ((p.reached info).keep p.soFar, behindBrace (p.reread u)) := by
    rw [onBotsFileKey_arrives ha, ← reached, membersText_cons, List.append_assoc, ← afterRecord,
      readMembers_last (consumes_blockMember consumes_onBot) (hkey _)]
    · rw [onBot_withField]
      rfl
    · rw [onBot_withField]
      exact hends
  rw [withField, loadBots_arrives ha, membersText_cons, List.append_assoc, ← afterBlock,
    readMembers_last consumes_onBotsFileKey key_blockText]
  · rw [hblock]
  · rw [hblock]
    exact hends'

theorem grownFrom_without (p : Place) (info : BotInfo) :
    GrownFrom ((p.reached info).keep p.whole).bots
      (p.later.foldl BotInfo.addRecord ((p.reached info).keep p.whole)) := by
  have hadd : ∀ (B : List BotIdentity) (rs : List RecordText) (i : BotInfo),
      GrownFrom B i → GrownFrom B (rs.foldl BotInfo.addRecord i) := by
    intro B rs
    induction rs with
    | nil => exact fun _ h => h
    | cons r rs ih => exact fun i h => ih _ h.keep
  refine hadd _ _ _ ⟨List.prefix_refl _, ?_⟩
  rw [length_keep_reached]
  omega

theorem bots_keep_reached {b : BotIdentity} : ((p.reached info).keep b).bots =
    if p.count < kMaxBotIdentities then (p.reached info).bots ++ [b.cut] else (p.reached info).bots := by
  have hroom : (p.reached info).bots.length < kMaxBotIdentities ↔ p.count < kMaxBotIdentities := by
    rw [length_reached]
    omega
  rw [bots_keep]
  exact if_congr hroom rfl rfl

/-- The bot of the record comes out right exactly where the place says so. -/
theorem bots_keep_eq_iff (info : BotInfo) :
    ((p.reached info).keep p.soFar).bots = ((p.reached info).keep p.whole).bots ↔ p.KeepsBot := by
  rw [bots_keep_reached, bots_keep_reached, KeepsBot]
  split
  · rw [List.append_cancel_left_eq, List.cons.injEq]
    simp only [and_true]
    constructor
    · exact Or.inr
    · rintro (h | h)
      · omega
      · exact h
  · exact iff_of_true rfl (Or.inl (by omega))

end Place

/-- An unknown field is ignored where the reader never arrives at it. Elsewhere only where its bot loses
nothing behind it, and there it is ignored where the skippers find their way back to the records that
follow, or none can be added. -/
theorem unknown_field_ignored (info : BotInfo) (p : Place) (u : UnknownField) :
    (¬ p.Arrives ∨ (p.KeepsBot ∧ p.KeepsRest u) →
      (info.loadBots (some (p.withField u))).2.bots = (info.loadBots (some p.without)).2.bots) ∧
    ((info.loadBots (some (p.withField u))).2.bots = (info.loadBots (some p.without)).2.bots →
      ¬ p.Arrives ∨ p.KeepsBot) := by
  by_cases ha : p.Arrives
  · have hwith := p.grownFrom_withField ha u info
    have hwithout := p.grownFrom_without info
    rw [Place.bots_without ha, ← Place.bots_keep_eq_iff info]
    constructor
    · intro h
      obtain ⟨hbot, hrest⟩ := h.resolve_left (not_not_intro ha)
      obtain hfull | hcloses | hends := hrest
      · have hlen : ∀ b, kMaxBotIdentities ≤ ((p.reached info).keep b).bots.length := by
          intro b
          rw [Place.length_keep_reached]
          omega
        rw [hwith.bots_of_full (hlen _), hwithout.bots_of_full (hlen _), hbot]
      · rw [Place.bots_withField_of_closesRecord ha hcloses, bots_foldl_addRecord hbot]
      · rw [Place.bots_withField_of_endsFile ha hends, hends.1, List.foldl_nil, hbot]
    · intro hsame
      -- both lists start with as many bots, the last of which is the one in question
      have hgrown := hwith.grown
      rw [hsame] at hgrown
      refine Or.inr ?_
      apply (List.prefix_of_prefix_length_le hgrown hwithout.grown _).eq_of_length
      all_goals rw [Place.length_keep_reached, Place.length_keep_reached]
  · obtain ⟨info', hinfo'⟩ := Place.loadBots_of_not_arrives ha info
    refine ⟨fun _ => ?_, fun _ => Or.inl ha⟩
    rw [Place.withField, Place.without, hinfo', hinfo']

/-- A record without blanks. -/
def bareRecord (key : Bytes) (h : quote ∉ key) (fields : List FieldText) : RecordText where
  head := .bare key [] h
  before := []
  inner := []
  trail := []
  fields
  before_blank := blank_nil
  inner_blank := blank_nil
  trail_blank := blank_nil

theorem plain_x : Field.WellFormed (.name (ascii "x")) := by
  simp only [Field.WellFormed]
  decide

/-- `"name":"x"`. -/
def namedX : FieldText where
  lead := []
  gap := []
  before := []
  trail := []
  field := .name (ascii "x")
  lead_blank := blank_nil
  gap_blank := blank_nil
  before_blank := blank_nil
  trail_blank := blank_nil
  wellFormed := plain_x

theorem key_z : quote ∉ ascii "z" := by decide

theorem z_unknown : ascii "z" ∉ recordKeys := by decide

/-- An unknown member `"z"`. -/
def unknownZ (value : Bytes) (json : JsonValue value) : UnknownField where
  head := .bare (ascii "z") [] key_z
  before := []
  value
  trail := []
  key_unknown := z_unknown
  before_blank := blank_nil
  json
  trail_blank := blank_nil

theorem key_a : quote ∉ ascii "A" := by decide

theorem key_b : quote ∉ ascii "B" := by decide

/-- In the record `"A"` of two, `"A"` and an empty `"B"`. -/
def placeInFirst (before after : List FieldText) : Place where
  lead := []
  ws := []
  tail := []
  topsBefore := []
  block :=
    { head := .bare (ascii "bots") [] key_bots.2
      before := []
      inner := []
      trail := []
      records := []
      key_eq := rfl
      before_blank := blank_nil
      inner_blank := blank_nil
      trail_blank := blank_nil }
  record := bareRecord (ascii "A") key_a before
  fieldsAfter := after
  recordsAfter := [bareRecord (ascii "B") key_b []]
  topsAfter := []
  lead_blank := blank_nil
  ws_blank := blank_nil

/-- An object as the last field of its record. -/
theorem unknown_field_ignored_object :
    (BotInfo.loadBots {} (some ((placeInFirst [namedX] []).withField
        (unknownZ (ascii "\x7b\x7d") (.enclosed (Or.inl ⟨rfl, rfl⟩) .nil))))).2.bots =
      (BotInfo.loadBots {} (some (placeInFirst [namedX] []).without)).2.bots :=
  (unknown_field_ignored {} (placeInFirst [namedX] [])
    (unknownZ (ascii "\x7b\x7d") (.enclosed (Or.inl ⟨rfl, rfl⟩) .nil))).1
    (Or.inr ⟨Or.inr rfl, Or.inr (Or.inl ⟨by decide, rfl, by decide⟩)⟩)

/-- A number in front of the name loses the name and the next bot, and makes a bot of the key. -/
theorem unknown_field_reshapes_pool :
    ((BotInfo.loadBots {} (some ((placeInFirst [] [namedX]).withField
        (unknownZ (ascii "1") (.scalar (by decide) (by decide +kernel)))))).2.bots.map BotIdentity.name =
      [ascii "A", ascii "name"]) ∧
    (BotInfo.loadBots {} (some (placeInFirst [] [namedX]).without)).2.bots.map BotIdentity.name =
      [ascii "x", ascii "B"] := by
  decide +kernel

end Botid
