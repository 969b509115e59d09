import Botid.BotInfoLoad
import Botid.Skippers

/-! Unknown settings in `config.json`: ignored where the skipper that meets them stops behind them. -/
namespace Botid

variable {s u v ws X : Bytes} {c : UInt8} {m : MemberText} {f : PluginFeatures} {info : BotInfo}
  {p : List Bytes × Bytes}

variable {β γ : Type} {read read' : Bytes → β × Bytes}

/-- A reader of a plain value never looks at what follows the separator behind it. -/
structure ReadsAhead (read : Bytes → β × Bytes) (v : Bytes) : Prop where
  rest : (read v).2 <:+ v
  append : ∀ c X, c = comma ∨ c = closeBrace → read (v ++ c :: X) = ((read v).1, (read v).2 ++ c :: X)

theorem ReadsAhead.map (g : β → γ) (h : ReadsAhead read v) :
    ReadsAhead (fun s => (g (read s).1, (read s).2)) v :=
  ⟨h.rest, fun c X hc => by simp only [h.append c X hc]⟩

theorem ReadsAhead.ite {p : Prop} [Decidable p] (h : ReadsAhead read v) (h' : ReadsAhead read' v) :
    ReadsAhead (fun s => if p then read s else read' s) v := by
  by_cases hp : p
  · simpa only [if_pos hp] using h
  · simpa only [if_neg hp] using h'

theorem skipWhitespace_separator (hc : c = comma ∨ c = closeBrace) :
    skipWhitespace (v ++ c :: X) = skipWhitespace v ++ c :: X :=
  dropWhile_append_cons (isSpace_separator hc)

theorem readsAhead_readFlag : ReadsAhead readFlag v := by
  refine ⟨(List.dropWhile_suffix _).trans (List.dropWhile_suffix _), fun c X hc => ?_⟩
  simp only [readFlag, skipWhitespace_separator hc, dropWhile_append_cons (not_insideScalar hc)]
  cases skipWhitespace v with
  | nil => rcases hc with rfl | rfl <;> rfl
  | cons d w => rfl

theorem readsAhead_readUInt64 : ReadsAhead readUInt64 v := by
  refine ⟨(List.dropWhile_suffix _).trans (List.dropWhile_suffix _), fun c X hc => ?_⟩
  simp only [readUInt64, skipWhitespace_separator hc, dropWhile_append_cons (isDigit_separator hc),
    takeWhile_append_cons (isDigit_separator hc)]

theorem readsAhead_readInt : ReadsAhead readInt v :=
  readsAhead_readUInt64.map fun n => n.toUInt32.toInt32.toInt

theorem readsAhead_readUInt32 : ReadsAhead readUInt32 v := readsAhead_readUInt64.map UInt64.toUInt32

/-- A byte that is neither digit, point nor blank stops `ReadDouble`. -/
theorem readDouble_append (hdigit : isDigit c = false) (hdot : c ≠ 46)
    (hskip : skipWhitespace (v ++ c :: X) = skipWhitespace v ++ c :: X) :
    readDouble (v ++ c :: X) = ((readDouble v).1, (readDouble v).2 ++ c :: X) := by
  simp only [readDouble, hskip, takeWhile_append_cons hdigit, dropWhile_append_cons hdigit]
  cases (skipWhitespace v).dropWhile isDigit with
  | nil =>
    rw [List.nil_append]
    split
    · rename_i w hw
      exact absurd (List.cons.inj hw).1 hdot
    · rfl
  | cons d w =>
    by_cases hd : d = 46
    · subst hd
      simp only [List.cons_append, takeWhile_append_cons hdigit, dropWhile_append_cons hdigit]
    · rw [List.cons_append]
      split
      · rename_i w' hw
        exact absurd (List.cons.inj hw).1 hd
      · split
        · rename_i w' hw
          exact absurd (List.cons.inj hw).1 hd
        · rfl

theorem readsAhead_readDouble : ReadsAhead readDouble v := by
  have hsuffix : (skipWhitespace v).dropWhile isDigit <:+ v :=
    (List.dropWhile_suffix _).trans (List.dropWhile_suffix _)
  refine ⟨?_, fun c X hc => ?_⟩
  · simp only [readDouble]
    split
    · rename_i w hw
      rw [hw] at hsuffix
      exact (List.dropWhile_suffix _).trans ((List.suffix_cons 46 w).trans hsuffix)
    · exact hsuffix
  · have hdot : c ≠ 46 := by
      rcases hc with rfl | rfl <;> decide
    exact readDouble_append (isDigit_separator hc) hdot (skipWhitespace_separator hc)

/-- Every key of `features` is read so, or not at all. -/
theorem readsAhead_onFeature {key : Bytes} : ReadsAhead (onFeature key f) v := by
  delta onFeature
  refine .ite (readsAhead_readFlag.map fun y => { f with enableFakePing := y }) ?_
  refine .ite (readsAhead_readInt.map fun y => { f with fakePingMin := y }) ?_
  refine .ite (readsAhead_readInt.map fun y => { f with fakePingMax := y }) ?_
  refine .ite (readsAhead_readFlag.map fun y => { f with enableScoreboardFlair := y }) ?_
  refine .ite (readsAhead_readDouble.map fun y => { f with scoreboardFlairProbability := y }) ?_
  refine .ite (readsAhead_readFlag.map fun y => { f with enableCrosshair := y }) ?_
  refine .ite (readsAhead_readUInt32.map fun y => { f with defaultScoreboardFlair := y }) ?_
  refine .ite (readsAhead_readInt.map fun y => { f with pingJitterPercent := y }) ?_
  refine .ite (readsAhead_readInt.map fun y => { f with voteTransactionHoldFrames := y }) ?_
  exact ⟨List.suffix_refl v, fun _ _ _ => rfl⟩

/-- The keys that `Load` knows inside `features`. -/
def featureKeys : List Bytes :=
  [ascii "enableFakePing", ascii "fakePingMin", ascii "fakePingMax", ascii "enableScoreboardFlair",
    ascii "scoreboardFlairProbability", ascii "enableCrosshair", ascii "defaultScoreboardFlair",
    ascii "pingJitterPercent", ascii "voteTransactionHoldFrames"]

theorem onFeature_of_unknown {key : Bytes} (h : key ∉ featureKeys) : onFeature key f s = (f, s) := by
  simp only [featureKeys, List.mem_cons, List.not_mem_nil, or_false, not_or] at h
  obtain ⟨h1, h2, h3, h4, h5, h6, h7, h8, h9⟩ := h
  rw [onFeature, if_neg h1, if_neg h2, if_neg h3, if_neg h4, if_neg h5, if_neg h6, if_neg h7,
    if_neg h8, if_neg h9]

theorem consumes_onFeature : Consumes onFeature :=
  fun _ _ _ => readsAhead_onFeature.rest.length_le

/-- A member of `features` that `ReadBlock` takes for what it is: a plain value, or an unknown key
with a scalar value. -/
def GoodFeature (m : MemberText) : Prop :=
  m.key ≠ [] ∧ (PlainText m.value ∨ (m.key ∉ featureKeys ∧ ScalarText m.value))

theorem reads_feature (h : GoodFeature m) :
    Reads (blockMember onFeature) m f (onFeature m.key f m.value).1 := by
  obtain ⟨hm, h⟩ := h
  refine ⟨hm, fun c X hc => ?_⟩
  refine ⟨c :: X, ?_, skipWhitespace_cons (isSpace_separator hc)⟩
  rw [blockMember]
  rcases h with h | ⟨hkey, h⟩
  · rw [readsAhead_onFeature.append c X hc]
    dsimp only
    rw [(h.suffix readsAhead_onFeature.rest).scalarText.skipBlockValue hc]
  · rw [onFeature_of_unknown hkey, onFeature_of_unknown hkey]
    dsimp only
    rw [h.skipBlockValue hc]

/-- An entry of the blacklist as it is written. -/
structure TokenText where
  lead : Bytes
  token : Bytes
  trail : Bytes
  lead_blank : Blank lead
  token_plain : quote ∉ token
  trail_blank : Blank trail

def TokenText.text (t : TokenText) : Bytes := t.lead ++ quote :: (t.token ++ quote :: t.trail)

/-- The entries between the brackets, or blanks where there are none. -/
def tokensText (ws : Bytes) : List TokenText → Bytes
  | [] => ws
  | [t] => t.text
  | t :: t' :: ts => t.text ++ comma :: tokensText ws (t' :: ts)

/-- What the reader adds for one entry. -/
def addToken (l : List Bytes) (t : TokenText) : List Bytes :=
  if trimAscii t.token = [] then l else l ++ [trimAscii t.token]

theorem length_blacklistTurn : (blacklistTurn p).1.2.length ≤ p.2.length ∧
    ((blacklistTurn p).2 = true → (blacklistTurn p).1.2.length < p.2.length) := by
  have hskip := length_skipWhitespace_le (s := p.2)
  unfold blacklistTurn
  dsimp only
  split
  · exact ⟨hskip, by simp⟩
  · split
    · have hread := length_readString_le (s := skipWhitespace p.2)
      exact ⟨length_matchChar_le.trans (hread.trans hskip),
        fun h => (length_matchChar_lt h).trans_le (hread.trans hskip)⟩
    · have hread := length_skipJsonValue_le (s := skipWhitespace p.2)
      exact ⟨length_matchChar_le.trans (hread.trans hskip),
        fun h => (length_matchChar_lt h).trans_le (hread.trans hskip)⟩

theorem shrinks_blacklistTurn : Loop.Shrinks (fun p => p.2.length) blacklistTurn :=
  fun _ h => length_blacklistTurn.2 h

theorem blacklistTurn_text {t : TokenText} {l : List Bytes} {rest : Bytes} :
    blacklistTurn (l, t.text ++ rest) =
      ((addToken l t, (matchChar comma (t.trail ++ rest)).2), (matchChar comma (t.trail ++ rest)).1) := by
  have hskip : skipWhitespace (t.text ++ rest) = quote :: (t.token ++ quote :: (t.trail ++ rest)) := by
    rw [TokenText.text, List.append_assoc, List.cons_append,
      skipWhitespace_blank t.lead_blank (by decide)]
    simp
  have hread : readString (quote :: (t.token ++ quote :: (t.trail ++ rest))) =
      (t.token, t.trail ++ rest) :=
    readString_quote t.token_plain
  generalize t.trail ++ rest = u at *
  have hopen : ¬ (quote :: (t.token ++ quote :: u) = [] ∨
      peek (quote :: (t.token ++ quote :: u)) = closeBracket) := by
    rintro (h | h)
    · simp at h
    · exact absurd (show quote = closeBracket from h) (by decide)
  unfold blacklistTurn
  dsimp only
  rw [hskip, if_neg hopen, peek_cons, if_pos rfl, hread]
  rfl

theorem readTokens {ts : List TokenText} {l : List Bytes} (hws : Blank ws) :
    Loop.run (fun p => p.2.length) blacklistTurn (l, tokensText ws ts ++ closeBracket :: X) =
      (ts.foldl addToken l, closeBracket :: X) := by
  have hdone : ∀ l : List Bytes, ∀ s, skipWhitespace s = closeBracket :: X →
      blacklistTurn (l, s) = ((l, closeBracket :: X), false) := by
    intro l s hs
    unfold blacklistTurn
    dsimp only
    rw [hs, peek_cons, if_pos (Or.inr rfl)]
  induction ts generalizing l with
  | nil => exact Loop.run_of_done shrinks_blacklistTurn (hdone l _ (skipWhitespace_blank hws (by decide)))
  | cons t ts ih =>
    cases ts with
    | nil =>
      apply Loop.run_of_done shrinks_blacklistTurn
      rw [tokensText, blacklistTurn_text,
        matchChar_of_ne (skipWhitespace_blank t.trail_blank (by decide)) (by decide)]
      rfl
    | cons t' ts =>
      have hturn : blacklistTurn (l, tokensText ws (t :: t' :: ts) ++ closeBracket :: X) =
          ((addToken l t, tokensText ws (t' :: ts) ++ closeBracket :: X), true) := by
        rw [tokensText, List.append_assoc, List.cons_append, blacklistTurn_text,
          matchChar_self (skipWhitespace_blank t.trail_blank (by decide))]
      rw [Loop.run_of_again shrinks_blacklistTurn hturn, ih]
      rfl

/-- A member of the top level that `Load` takes for what it is: the two known settings with values of
their type, or an unknown key written so that the skipper steps over it. -/
inductive GoodSetting (m : MemberText) : Prop
  | features {lead ws trail : Bytes} {fs : List MemberText} (key : m.key = ascii "features")
      (lead_blank : Blank lead) (ws_blank : Blank ws) (trail_blank : Blank trail)
      (value : m.value = objectText lead ws fs trail)
      (good : ∀ f ∈ fs, GoodFeature f)
  | mapBlacklist {lead ws trail : Bytes} {ts : List TokenText} (key : m.key = ascii "mapBlacklist")
      (lead_blank : Blank lead) (ws_blank : Blank ws) (trail_blank : Blank trail)
      (value : m.value = lead ++ openBracket :: (tokensText ws ts ++ closeBracket :: trail))
  | unknown (key_ne : m.key ≠ []) (not_features : m.key ≠ ascii "features")
      (not_mapBlacklist : m.key ≠ ascii "mapBlacklist") (skips : TopSkips m.value)

/-- A member that ends the reading: one without a key, or `features` with one inside. -/
inductive EndingSetting (m : MemberText) : Prop
  | nameless (key : m.key = [])
  | features {lead ws trail : Bytes} {fs : List MemberText} (key : m.key = ascii "features")
      (lead_blank : Blank lead) (ws_blank : Blank ws) (value : m.value = objectText lead ws fs trail)
      (good : ∀ f ∈ fs, f.key = [] ∨ GoodFeature f) (ends : ∃ f ∈ fs, f.key = [])

theorem TopSkips.skipTopValue (h : TopSkips v) (hc : c = comma ∨ c = closeBrace) :
    skipWhitespace (skipTopValue (v ++ c :: X)) = c :: X := by
  rcases h with h | h
  · rw [h.skipTopValue hc, skipWhitespace_cons (isSpace_separator hc)]
  · exact h.skipTopValue (isSpace_separator hc)

/-- Stepping over an unknown setting changes nothing. -/
theorem reads_unknown (hm : m.key ≠ []) (h₁ : m.key ≠ ascii "features")
    (h₂ : m.key ≠ ascii "mapBlacklist") (h : TopSkips m.value) : Reads onSetting m info info := by
  refine ⟨hm, fun c X hc => ?_⟩
  refine ⟨skipTopValue (m.value ++ c :: X), ?_, h.skipTopValue hc⟩
  rw [onSetting, if_neg h₁, if_neg h₂]

theorem consumes_onSetting : Consumes onSetting := by
  intro k info s
  unfold onSetting
  dsimp only
  split
  · exact length_readBlock_le (p := (info.features, s)) consumes_onFeature
  · split
    · have hbracket := length_matchChar_le (c := openBracket) (s := s)
      unfold readBlacklist
      dsimp only
      split
      · refine length_matchChar_le.trans ?_
        exact Loop.run_invariant (I := fun q : List Bytes × Bytes => q.2.length ≤ s.length)
          (fun q hq => length_blacklistTurn.1.trans hq) hbracket
      · exact length_skipJsonValue_le.trans hbracket
    · exact length_skipTopValue_le

theorem key_features : ascii "features" ≠ [] := by decide

theorem key_mapBlacklist : ascii "mapBlacklist" ≠ [] := by decide

/-- A `features` block is read as far as its members are. -/
theorem reads_features {lead trail : Bytes} {fs : List MemberText} {f' : PluginFeatures}
    (key : m.key = ascii "features") (lead_blank : Blank lead) (trail_blank : Blank trail)
    (value : m.value = objectText lead ws fs trail)
    (hread : ∀ X, readMembers (blockMember onFeature) (info.features, membersText ws fs ++
      closeBrace :: X) = (f', X)) : Reads onSetting m info { info with features := f' } := by
  refine ⟨key ▸ key_features, fun c X hc => ?_⟩
  refine ⟨trail ++ c :: X, ?_, skipWhitespace_blank trail_blank (isSpace_separator hc)⟩
  rw [onSetting, if_pos key, value, objectText, List.append_assoc, List.cons_append,
    List.append_assoc, List.cons_append, readBlock_text lead_blank, hread]

theorem reads_mapBlacklist {lead trail : Bytes} {ts : List TokenText}
    (key : m.key = ascii "mapBlacklist") (lead_blank : Blank lead) (ws_blank : Blank ws)
    (trail_blank : Blank trail)
    (value : m.value = lead ++ openBracket :: (tokensText ws ts ++ closeBracket :: trail)) :
    Reads onSetting m info { info with mapBlacklist := ts.foldl addToken info.mapBlacklist } := by
  refine ⟨key ▸ key_mapBlacklist, fun c X hc => ?_⟩
  refine ⟨trail ++ c :: X, ?_, skipWhitespace_blank trail_blank (isSpace_separator hc)⟩
  have hne : m.key ≠ ascii "features" := by
    rw [key]
    decide
  rw [onSetting, if_neg hne, if_pos key, value, List.append_assoc, List.cons_append,
    List.append_assoc, List.cons_append, readBlacklist]
  dsimp only
  rw [matchChar_self (skipWhitespace_blank lead_blank (by decide)), if_pos rfl, readTokens ws_blank,
    matchChar_self (skipWhitespace_cons (by decide))]

/-- What a `features` block makes of its members. -/
theorem onSetting_features {lead trail : Bytes} {fs : List MemberText} {key : Bytes}
    (hkey : key = ascii "features") (hlead : Blank lead) :
    onSetting key info (objectText lead ws fs trail ++ X) =
      let read := readMembers (blockMember onFeature)
        (info.features, membersText ws fs ++ closeBrace :: (trail ++ X))
      ({ info with features := read.1 }, read.2) := by
  rw [onSetting, if_pos hkey, objectText, List.append_assoc, List.cons_append, List.append_assoc,
    List.cons_append, readBlock_text hlead]

theorem reads_setting (h : GoodSetting m) : ∃ info', Reads onSetting m info info' := by
  cases h with
  | features key lead_blank ws_blank trail_blank value good =>
    obtain ⟨f', hf'⟩ := readMembers_append (x := info.features) (consumes_blockMember consumes_onFeature)
      ws_blank fun m hm f => ⟨_, reads_feature (f := f) (good m hm)⟩
    refine ⟨{ info with features := f' }, reads_features key lead_blank trail_blank value fun X => ?_⟩
    have hread := hf' [] X
    rwa [List.append_nil, membersText, readMembers_blank (consumes_blockMember consumes_onFeature)
      ws_blank] at hread
  | mapBlacklist key lead_blank ws_blank trail_blank value =>
    exact ⟨_, reads_mapBlacklist key lead_blank ws_blank trail_blank value⟩
  | unknown key_ne not_features not_mapBlacklist skips =>
    exact ⟨info, reads_unknown key_ne not_features not_mapBlacklist skips⟩

/-- Features up to one without a key. -/
theorem readMembers_features_stopped {fs : List MemberText} (hws : Blank ws)
    (hfs : ∀ f ∈ fs, f.key = [] ∨ GoodFeature f) (hends : ∃ f ∈ fs, f.key = []) :
    ∃ f', ∀ rest X, ∃ s, readMembers (blockMember onFeature)
      (f, membersText ws (fs ++ rest) ++ closeBrace :: X) = (f', colon :: s) := by
  have hconsumes := consumes_blockMember consumes_onFeature
  have hstops : ∀ m : MemberText, m.key = [] → ∀ f, ∃ f', Stops (blockMember onFeature) m f f' :=
    fun _ hm f => ⟨f, stops_of_nameless hconsumes hm⟩
  refine readMembers_stopped hconsumes hws (fun m hm => ?_) ?_
  · rcases hfs m hm with hm | hm
    · exact Or.inr (hstops m hm)
    · exact Or.inl fun f => ⟨_, reads_feature hm⟩
  · obtain ⟨m, hm, hkey⟩ := hends
    exact ⟨m, hm, hstops m hkey⟩

/-- Such a block ends the reading, whatever follows in it. -/
theorem stops_features (info : BotInfo) {lead : Bytes} {fs : List MemberText} (hlead : Blank lead)
    (hws : Blank ws) (hfs : ∀ f ∈ fs, f.key = [] ∨ GoodFeature f) (hends : ∃ f ∈ fs, f.key = []) :
    ∃ info', ∀ (m : MemberText) rest trail, m.key = ascii "features" →
      m.value = objectText lead ws (fs ++ rest) trail → Stops onSetting m info info' := by
  obtain ⟨f', hf'⟩ := readMembers_features_stopped (f := info.features) hws hfs hends
  refine ⟨{ info with features := f' }, fun m rest trail hkey hvalue => ?_⟩
  refine stops_of_member consumes_onSetting (hkey ▸ key_features) fun X => ?_
  obtain ⟨s, hread⟩ := hf' rest (trail ++ X)
  rw [hvalue, onSetting_features hkey hlead, hread]
  exact ⟨s, rfl⟩

theorem stops_setting (h : EndingSetting m) : ∃ info', Stops onSetting m info info' := by
  cases h with
  | nameless key => exact ⟨info, stops_of_nameless consumes_onSetting key⟩
  | features key lead_blank ws_blank value good ends =>
    obtain ⟨info', hinfo'⟩ := stops_features info lead_blank ws_blank good ends
    exact ⟨info', hinfo' m [] _ key (by rwa [List.append_nil])⟩

variable {lead tail : Bytes} {before after fs fs' : List MemberText}

theorem load_text (hlead : Blank lead) : info.load (some (objectText lead ws before tail)) =
    (true, { (readMembers onSetting
        ({ info with mapBlacklist := [] }, membersText ws before ++ closeBrace :: tail)).1 with
      features := clampHoldFrames (readMembers onSetting
        ({ info with mapBlacklist := [] }, membersText ws before ++ closeBrace :: tail)).1.features }) := by
  unfold BotInfo.load objectText
  dsimp only
  rw [matchChar_self (skipWhitespace_blank hlead (by decide)), if_pos rfl]

theorem load_congr {before' : List MemberText} (hlead : Blank lead)
    (h : ∀ info, (readMembers onSetting (info, membersText ws before ++ closeBrace :: tail)).1 =
      (readMembers onSetting (info, membersText ws before' ++ closeBrace :: tail)).1) :
    info.load (some (objectText lead ws before tail)) =
      info.load (some (objectText lead ws before' tail)) := by
  rw [load_text hlead, load_text hlead, h]

/-- An unknown top-level setting does no harm: it has a key and is stepped over, or it is the last one,
and without a key or where the skipper stops the loop ends. -/
def HarmlessSetting (m : MemberText) (after : List MemberText) (tail : Bytes) : Prop :=
  (m.key ≠ [] ∧ TopSkips m.value) ∨
    (after = [] ∧ (m.key = [] ∨ EndsAt (skipTopValue (m.value ++ closeBrace :: tail))))

/-- An unknown feature does no harm: it has a key and is stepped over, or it is the last one of the last
block, and both loops end. -/
def HarmlessFeature (m : MemberText) (fs after : List MemberText) (tail : Bytes) : Prop :=
  (m.key ≠ [] ∧ ScalarText m.value) ∨
    (fs = [] ∧ after = [] ∧ (m.key = [] ∨
      EndsAt (skipBlockValue (m.value ++ closeBrace :: tail)) ∧
        EndsAt (behindBrace (skipBlockValue (m.value ++ closeBrace :: tail)))))

theorem readMembers_unknown (hws : Blank ws) (h₁ : m.key ≠ ascii "features")
    (h₂ : m.key ≠ ascii "mapBlacklist") (h : HarmlessSetting m after tail) :
    (readMembers onSetting (info, membersText ws (m :: after) ++ closeBrace :: tail)).1 =
      (readMembers onSetting (info, membersText ws after ++ closeBrace :: tail)).1 := by
  by_cases hm : m.key = []
  · obtain ⟨hne, -⟩ | ⟨rfl, -⟩ := h
    · exact absurd hm hne
    · rw [membersText, membersText, readMembers_blank consumes_onSetting hws,
        readMembers_nameless consumes_onSetting hm]
  · rcases h with ⟨-, h⟩ | ⟨rfl, h⟩
    · rw [readMembers_cons consumes_onSetting hws (reads_unknown hm h₁ h₂ h)]
    · have hread : onSetting m.key info (m.value ++ closeBrace :: tail) =
          (info, skipTopValue (m.value ++ closeBrace :: tail)) := by
        rw [onSetting, if_neg h₁, if_neg h₂]
      rw [membersText, membersText, readMembers_blank consumes_onSetting hws,
        readMembers_last consumes_onSetting hm (by rw [hread]; exact h.resolve_left hm), hread]

section Feature

variable {b : MemberText} {lead' ws' trail' : Bytes} {f' : PluginFeatures}

/-- A block whose last member ends its loop, as the last member of the file: the features so far. -/
theorem readMembers_ending_block (hws : Blank ws) (hkey : b.key = ascii "features")
    (hlead' : Blank lead') (hws' : Blank ws') (htrail' : Blank trail') {s : Bytes}
    (hfs : ∀ rest X, readMembers (blockMember onFeature)
      (info.features, membersText ws' (fs ++ rest) ++ closeBrace :: X) =
        readMembers (blockMember onFeature) (f', membersText ws' rest ++ closeBrace :: X))
    (hblock : readMembers (blockMember onFeature)
      (f', m.text ++ closeBrace :: (trail' ++ closeBrace :: tail)) = (f', s))
    (hends : EndsAt s) :
    (readMembers onSetting (info, membersText ws
        [b.withValue (objectText lead' ws' (fs ++ [m]) trail')] ++ closeBrace :: tail)).1 =
      (readMembers onSetting (info, membersText ws
        [b.withValue (objectText lead' ws' (fs ++ []) trail')] ++ closeBrace :: tail)).1 := by
  have hne : ∀ v, (b.withValue v).key ≠ [] := fun _ => hkey ▸ key_features
  have hwith : onSetting b.key info (objectText lead' ws' (fs ++ [m]) trail' ++ closeBrace :: tail) =
      ({ info with features := f' }, s) := by
    rw [onSetting_features hkey hlead', hfs, membersText, hblock]
  have hwithout : Reads onSetting (b.withValue (objectText lead' ws' (fs ++ []) trail')) info
      { info with features := f' } := by
    refine reads_features hkey hlead' htrail' rfl fun Y => ?_
    rw [hfs [] Y, membersText, readMembers_blank (consumes_blockMember consumes_onFeature) hws']
  rw [readMembers_cons consumes_onSetting hws hwithout, membersText, membersText,
    readMembers_blank consumes_onSetting hws, readMembers_last consumes_onSetting (hne _)]
  · simp only [MemberText.withValue, hwith]
  · simp only [MemberText.withValue, hwith]
    exact hends

theorem readMembers_unknown_feature (hws : Blank ws)
    (hkey : b.key = ascii "features") (hlead' : Blank lead') (hws' : Blank ws') (htrail' : Blank trail')
    (hfs : ∀ f ∈ fs, f.key = [] ∨ GoodFeature f) (hunknown : m.key ∉ featureKeys)
    (h : (∃ f ∈ fs, f.key = []) ∨ HarmlessFeature m fs' after (trail' ++ closeBrace :: tail)) :
    (readMembers onSetting (info, membersText ws
        (b.withValue (objectText lead' ws' (fs ++ m :: fs') trail') :: after) ++
          closeBrace :: tail)).1 =
      (readMembers onSetting (info, membersText ws
        (b.withValue (objectText lead' ws' (fs ++ fs') trail') :: after) ++
          closeBrace :: tail)).1 := by
  have hconsumes := consumes_blockMember consumes_onFeature
  by_cases hended : ∃ f ∈ fs, f.key = []
  · -- the reader never arrives at the place
    obtain ⟨info', hinfo'⟩ := stops_features info hlead' hws' hfs hended
    have hblock : ∀ rest, Stops onSetting (b.withValue (objectText lead' ws' (fs ++ rest) trail'))
        info info' := fun rest => hinfo' _ rest trail' hkey rfl
    rw [membersText_cons, membersText_cons, List.append_assoc, List.append_assoc]
    obtain ⟨s, hs⟩ := hblock (m :: fs') (restText ws after ++ closeBrace :: tail)
    obtain ⟨s', hs'⟩ := hblock fs' (restText ws after ++ closeBrace :: tail)
    rw [hs, hs']
  · have hgood : ∀ f ∈ fs, GoodFeature f := fun f hf =>
      (hfs f hf).resolve_left fun hkey => hended ⟨f, hf, hkey⟩
    obtain ⟨f', hf'⟩ := readMembers_append (x := info.features) hconsumes hws'
      fun m hm f => ⟨_, reads_feature (f := f) (hgood m hm)⟩
    rcases h.resolve_left hended with ⟨hm, hscalar⟩ | ⟨rfl, rfl, hends⟩
    · have hstep : Reads (blockMember onFeature) m f' f' := by
        have := reads_feature (f := f') ⟨hm, Or.inr ⟨hunknown, hscalar⟩⟩
        rwa [onFeature_of_unknown hunknown] at this
      refine congrArg Prod.fst (readMembers_withValue consumes_onSetting (hkey ▸ key_features)
        fun X => ?_)
      rw [onSetting_features hkey hlead', onSetting_features hkey hlead', hf', hf',
        readMembers_cons hconsumes hws' hstep]
    · by_cases hm : m.key = []
      · exact readMembers_ending_block hws hkey hlead' hws' htrail' hf'
          (readMembers_nameless hconsumes hm)
          (congrArg Prod.fst (matchChar_of_ne (skipWhitespace_cons (by decide)) (by decide)))
      · obtain ⟨hends, hends'⟩ := hends.resolve_left hm
        have hread : ∀ X, blockMember onFeature m.key f' (m.value ++ closeBrace :: X) =
            (f', skipBlockValue (m.value ++ closeBrace :: X)) := by
          intro X
          rw [blockMember, onFeature_of_unknown hunknown]
        -- the block ends with the unknown member, and the top level right behind it
        refine readMembers_ending_block hws hkey hlead' hws' htrail' hf' ?_ hends'
        rw [readMembers_last hconsumes hm (by rw [hread]; exact hends), hread, behindBrace]

end Feature

/-- Behind members that `Load` takes for what they are, a harmless unknown one is ignored, at the top
level and inside `features`; any is, where a member without a key has ended the reading before. -/
theorem unknown_settings_ignored (hlead : Blank lead) (hws : Blank ws)
    (hbefore : ∀ b ∈ before, GoodSetting b ∨ EndingSetting b) :
    (m.key ≠ ascii "features" → m.key ≠ ascii "mapBlacklist" →
      (∃ b ∈ before, EndingSetting b) ∨ HarmlessSetting m after tail →
      info.load (some (objectText lead ws (before ++ m :: after) tail)) =
        info.load (some (objectText lead ws (before ++ after) tail))) ∧
    (∀ (b : MemberText) (lead' ws' trail' : Bytes) (fs fs' : List MemberText),
      b.key = ascii "features" → Blank lead' → Blank ws' → Blank trail' →
      (∀ f ∈ fs, f.key = [] ∨ GoodFeature f) → m.key ∉ featureKeys →
      (∃ b ∈ before, EndingSetting b) ∨ (∃ f ∈ fs, f.key = []) ∨
        HarmlessFeature m fs' after (trail' ++ closeBrace :: tail) →
      info.load (some (objectText lead ws
          (before ++ b.withValue (objectText lead' ws' (fs ++ m :: fs') trail') :: after) tail)) =
        info.load (some (objectText lead ws
          (before ++ b.withValue (objectText lead' ws' (fs ++ fs') trail') :: after) tail))) := by
  by_cases hended : ∃ b ∈ before, EndingSetting b
  · have hstopped : ∀ info, ∃ info', ∀ rest X, ∃ s,
        readMembers onSetting (info, membersText ws (before ++ rest) ++ closeBrace :: X) =
          (info', colon :: s) := by
      intro info
      obtain ⟨b, hb, hends⟩ := hended
      exact readMembers_stopped consumes_onSetting hws
        (fun b hb => (hbefore b hb).imp (fun h _ => reads_setting h) fun h _ => stops_setting h)
        ⟨b, hb, fun _ => stops_setting hends⟩
    have hany : ∀ rest rest', info.load (some (objectText lead ws (before ++ rest) tail)) =
        info.load (some (objectText lead ws (before ++ rest') tail)) := by
      intro rest rest'
      refine load_congr hlead fun info => ?_
      obtain ⟨info', hinfo'⟩ := hstopped info
      obtain ⟨s, hs⟩ := hinfo' rest tail
      obtain ⟨s', hs'⟩ := hinfo' rest' tail
      rw [hs, hs']
    exact ⟨fun _ _ _ => hany _ _, fun _ _ _ _ _ _ _ _ _ _ _ _ _ => hany _ _⟩
  · have hgood : ∀ b ∈ before, GoodSetting b := fun b hb =>
      (hbefore b hb).resolve_right fun hends => hended ⟨b, hb, hends⟩
    have happend : ∀ info, ∃ info', ∀ rest X,
        readMembers onSetting (info, membersText ws (before ++ rest) ++ closeBrace :: X) =
          readMembers onSetting (info', membersText ws rest ++ closeBrace :: X) :=
      fun info => readMembers_append consumes_onSetting hws fun b hb _ => reads_setting (hgood b hb)
    constructor
    · intro h₁ h₂ h
      refine load_congr hlead fun info => ?_
      obtain ⟨info', hinfo'⟩ := happend info
      rw [hinfo', hinfo', readMembers_unknown hws h₁ h₂ (h.resolve_left hended)]
    · intro b lead' ws' trail' fs fs' hkey hlead' hws' htrail' hfs hunknown h
      refine load_congr hlead fun info => ?_
      obtain ⟨info', hinfo'⟩ := happend info
      rw [hinfo', hinfo', readMembers_unknown_feature hws hkey hlead' hws' htrail' hfs hunknown
        (h.resolve_left hended)]

/-- `"mapBlacklist":["surf"]`. -/
def surfBlacklist : MemberText := .bare (ascii "mapBlacklist") (ascii "[\"surf\"]") (by decide)

/-- An unknown member `"x"`. -/
def unknownMember (value : Bytes) : MemberText := .bare (ascii "x") value (by decide)

/-- `"features"`, whatever its value. -/
def featuresMember : MemberText := .bare (ascii "features") [] (by decide)

theorem unknown_settings_ignored_numbers :
    (BotInfo.load {} (some (objectText [] [] [unknownMember (ascii "3"), surfBlacklist] [])) =
      BotInfo.load {} (some (objectText [] [] [surfBlacklist] []))) ∧
    BotInfo.load {} (some (objectText [] []
        [featuresMember.withValue (objectText [] [] [unknownMember (ascii "3")] []), surfBlacklist] [])) =
      BotInfo.load {} (some (objectText [] []
        [featuresMember.withValue (objectText [] [] [] []), surfBlacklist] [])) := by
  have hscalar : ScalarText (ascii "3") := by
    unfold ScalarText
    decide +kernel
  have hkey : (unknownMember (ascii "3")).key ≠ [] := by decide
  have hnone : ∀ b ∈ ([] : List MemberText), GoodSetting b ∨ EndingSetting b := List.forall_mem_nil _
  refine ⟨(unknown_settings_ignored blank_nil blank_nil hnone).1
      (by decide) (by decide) (Or.inr (Or.inl ⟨hkey, Or.inl hscalar⟩)),
    (unknown_settings_ignored blank_nil blank_nil hnone).2
      featuresMember [] [] [] [] [] rfl blank_nil blank_nil blank_nil (by simp)
      (by decide) (Or.inr (Or.inr (Or.inl ⟨hkey, hscalar⟩)))⟩

/-- An unknown object in front of the blacklist takes the comma behind it away, and the blacklist too. -/
theorem unknown_setting_drops_blacklist :
    (BotInfo.load {} (some (objectText [] []
        [unknownMember (ascii "\x7b\"a\":1\x7d"), surfBlacklist] []))).2.mapBlacklist = [] ∧
      (BotInfo.load {} (some (objectText [] [] [surfBlacklist] []))).2.mapBlacklist =
        [ascii "surf"] := by
  decide +kernel

end Botid
