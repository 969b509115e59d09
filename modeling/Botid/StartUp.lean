import Botid.Language
import Botid.LanguageTag
import Botid.BotList
import Botid.WrittenSettings
import Botid.Suspension
import Botid.Published

/-! `Load` over the server's files: which identity list is taken, and what the settings do from then on. -/
namespace Botid

open Machine

/-- What opening a path finds, `none` where that fails. -/
abbrev Files := Bytes → Option Bytes

def corePath (baseDir : Bytes) : Bytes := baseDir ++ ascii "/addons/counterstrikesharp/configs/core.json"
def configPath (baseDir : Bytes) : Bytes := baseDir ++ ascii "/addons/BotIdentity/config.json"
def botsPath (baseDir : Bytes) : Bytes := baseDir ++ ascii "/addons/BotIdentity/bots.json"
def zhPath (baseDir : Bytes) : Bytes := baseDir ++ ascii "/addons/BotIdentity/lang/zh-CN.json"

structure BotListSelection where
  cssLanguage : Bytes
  cssLanguageFound : Bool
  matched : Bytes
  relativeFile : Bytes
  absolutePath : Bytes

def selectBotList (files : Files) (baseDir : Bytes) : BotListSelection :=
  let css := readCssServerLanguage (files (corePath baseDir))
  if css.1 && isSimplifiedChinese css.2 then
    ⟨css.2, css.1, ascii "zh-CN", ascii "lang/zh-CN.json", zhPath baseDir⟩
  else ⟨css.2, css.1, ascii "default", ascii "bots.json", botsPath baseDir⟩

/-- The part of `Load` that reads the identity list, with the selection it reports. -/
def loadBotList (files : Files) (baseDir : Bytes) (info : BotInfo) : BotListSelection × BotInfo :=
  let botList := selectBotList files baseDir
  let loaded := info.loadBots (files botList.absolutePath)
  if !loaded.1 ∨ loaded.2.bots.length ≤ 0 then
    if botList.matched ≠ ascii "default" then
      ({ botList with
          matched := ascii "default"
          relativeFile := ascii "bots.json"
          absolutePath := botsPath baseDir },
        (loaded.2.loadBots (files (botsPath baseDir))).2)
    else (botList, loaded.2)
  else (botList, loaded.2)

/-- `BotInfos()` once `Load` has read every file. -/
def startInfo (files : Files) (baseDir : Bytes) : BotListSelection × BotInfo :=
  loadBotList files baseDir (BotInfo.load {} (files (configPath baseDir))).2

variable {files : Files} {baseDir : Bytes} {info : BotInfo} {file : Option Bytes} {l : List Bytes}
  {f : PluginFeatures} {E : EngineCalls} {st : State}

/-- The settings leave the identity list as it was. -/
theorem load_keeps (h : info.bots = []) : (info.load file).2.bots = [] := by
  unfold BotInfo.load
  split
  · exact h
  · dsimp only
    split
    · refine readMembers_invariant (I := fun i : BotInfo => i.bots = []) (fun k i s hi => ?_) h
      rw [onSetting]
      repeat' split
      all_goals exact hi
    · exact h

/-- The same list under other settings. -/
def BotInfo.withSettings (f : PluginFeatures) (l : List Bytes) (info : BotInfo) : BotInfo :=
  { info with features := f, mapBlacklist := l }

theorem keep_withSettings {b : BotIdentity} :
    (info.withSettings f l).keep b = (info.keep b).withSettings f l := by
  unfold BotInfo.keep BotInfo.withSettings
  dsimp only
  repeat' split
  all_goals rfl

/-- Reading a list does not look at the settings. -/
theorem loadBots_withSettings : (info.withSettings f l).loadBots file =
    ((info.loadBots file).1, (info.loadBots file).2.withSettings f l) := by
  have hbot : Commutes (BotInfo.withSettings f l) onBot onBot := by
    intro k i s
    have hnew : (i.withSettings f l).newIdentity k = i.newIdentity k := rfl
    rw [onBot, onBot, hnew, keep_withSettings]
  have hkey : Commutes (BotInfo.withSettings f l) onBotsFileKey onBotsFileKey := by
    intro k i s
    rw [onBotsFileKey, onBotsFileKey]
    split
    · exact hbot.readBlock (p := (i, s))
    · rfl
  cases file with
  | none => rfl
  | some json =>
    unfold BotInfo.loadBots
    dsimp only
    split
    · have hread := readMembers_commute hkey
        (p := ({ info with bots := [], droppedOnLoad := 0, truncatedOnLoad := 0 },
          (matchChar openBrace json).2))
      exact Prod.ext rfl (congrArg Prod.fst hread)
    · rfl

/-- The bots of one file, read on their own. -/
def listed (files : Files) (path : Bytes) : List BotIdentity := (BotInfo.loadBots {} (files path)).2.bots

theorem loadBots_of_failed (h : (info.loadBots file).1 = false) : (info.loadBots file).2 = info := by
  unfold BotInfo.loadBots at h ⊢
  split at h
  · rfl
  · dsimp only at h ⊢
    split at h
    · cases h
    · rename_i hbrace
      rw [if_neg hbrace]

/-- A file read while nothing is listed lists the same bots as on its own. -/
theorem bots_loadBots {path : Bytes} (h : info.bots = []) :
    (info.loadBots (files path)).2.bots = listed files path := by
  have hplain : info.withSettings {} [] = { droppedOnLoad := info.droppedOnLoad
                                            truncatedOnLoad := info.truncatedOnLoad } := by
    obtain ⟨bots, features, mapBlacklist, dropped, truncated⟩ := info
    cases h
    rfl
  have hsame : (info.loadBots (files path)).2.bots =
      ((info.withSettings {} []).loadBots (files path)).2.bots := by
    rw [loadBots_withSettings]
    rfl
  rw [hsame, hplain, listed]
  cases files path with
  | none => rfl
  | some json =>
    unfold BotInfo.loadBots
    dsimp only
    split <;> rfl

theorem freshBots_of_nil (h : info.bots = []) : FreshBots info := by
  refine ⟨?_, ?_, ?_⟩ <;> simp [h]

theorem freshBots_startInfo : FreshBots (startInfo files baseDir).2 := by
  have hconfig : FreshBots (BotInfo.load {} (files (configPath baseDir))).2 :=
    freshBots_of_nil (load_keeps rfl)
  rw [startInfo]
  unfold loadBotList
  dsimp only
  repeat' split
  · exact freshBots_loadBots (freshBots_loadBots hconfig)
  · exact freshBots_loadBots hconfig
  · exact freshBots_loadBots hconfig

/-- The pool that `Load` starts from. -/
def startPool (files : Files) (baseDir : Bytes) : LoadedPool where
  bots := (startInfo files baseDir).2.bots
  count_le := freshBots_startInfo.count_le
  slot_eq := fun b hb => (freshBots_startInfo.unused b hb).1
  not_applied := fun b hb => (freshBots_startInfo.unused b hb).2
  name_le := freshBots_startInfo.name_le

/-- `BotIdentityPlugin::Load`, as far as it decides the plugin's state. -/
def pluginLoad (files : Files) (baseDir : Bytes) (mapped : Bool) (draws : Nat → Nat) (w : World) : State :=
  load (startInfo files baseDir).2.features (startInfo files baseDir).2.mapBlacklist
    (startPool files baseDir) mapped draws w

/-- The server's language, as `core.json` has it, is one that the list in simplified Chinese is for. -/
def AsksSimplified (core : Option CoreText) : Prop :=
  ∃ t m tag, core = some t ∧ t.language = some m ∧ m.Says tag ∧
    SimplifiedTag ((trimAscii tag).map normalizeByte)

variable {core : Option CoreText} {out : Bytes}

theorem readCssServerLanguage_iff {t : CoreText} : readCssServerLanguage (some t.text) = (true, out) ↔
    out ≠ [] ∧ ∃ m, t.language = some m ∧ m.Says out := by
  have hfirst : out ≠ [] → (readLanguage t.inside = some out ↔ ∃ m, t.language = some m ∧ m.Says out) :=
    fun hout => readLanguage_members t.ws_blank hout
  rw [readCssServerLanguage_text]
  cases hr : readLanguage t.inside with
  | none =>
    constructor
    · intro h
      cases h
    · rintro ⟨hout, h⟩
      have hfound := (hfirst hout).mpr h
      rw [hr] at hfound
      cases hfound
  | some language =>
    simp only [Prod.mk.injEq, decide_eq_true_eq]
    constructor
    · rintro ⟨hne, rfl⟩
      exact ⟨hne, (hfirst hne).mp hr⟩
    · rintro ⟨hout, h⟩
      have hfound := hr.symm.trans ((hfirst hout).mpr h)
      cases hfound
      exact ⟨hout, rfl⟩

/-- The list in simplified Chinese is selected exactly for a server that asks for it. -/
theorem selectBotList_eq (hcore : files (corePath baseDir) = core.map CoreText.text) :
    (AsksSimplified core ∧ (selectBotList files baseDir).matched = ascii "zh-CN" ∧
        (selectBotList files baseDir).absolutePath = zhPath baseDir) ∨
      (¬ AsksSimplified core ∧ (selectBotList files baseDir).matched = ascii "default" ∧
        (selectBotList files baseDir).absolutePath = botsPath baseDir) := by
  have hasks : AsksSimplified core ↔ ((readCssServerLanguage (core.map CoreText.text)).1 &&
      isSimplifiedChinese (readCssServerLanguage (core.map CoreText.text)).2) = true := by
    rw [Bool.and_eq_true, isSimplifiedChinese_iff_tag]
    cases core with
    | none =>
      constructor
      · rintro ⟨t, -, -, ht, -⟩
        cases ht
      · rintro ⟨hfound, -⟩
        cases hfound
    | some t =>
      rw [Option.map_some]
      constructor
      · rintro ⟨_, m, tag, ⟨rfl⟩, hm, hsays, htag⟩
        have hne : tag ≠ [] := by
          rintro rfl
          simp [SimplifiedTag, trimAscii] at htag
          revert htag
          decide
        rw [readCssServerLanguage_iff.mpr ⟨hne, m, hm, hsays⟩]
        exact ⟨rfl, htag⟩
      · rintro ⟨hfound, htag⟩
        obtain ⟨-, m, hm, hsays⟩ := readCssServerLanguage_iff.mp (Prod.ext hfound rfl)
        exact ⟨t, m, _, rfl, hm, hsays, htag⟩
  rw [selectBotList, hcore]
  generalize readCssServerLanguage (core.map CoreText.text) = css at hasks
  by_cases h : (css.1 && isSimplifiedChinese css.2) = true
  · left
    rw [if_pos h]
    exact ⟨hasks.mpr h, rfl, rfl⟩
  · right
    rw [if_neg h]
    exact ⟨fun ha => h (hasks.mp ha), rfl, rfl⟩

/-- A list that cannot be read, or lists nobody, is replaced unless it is the default one. -/
theorem bots_loadBotList (h : info.bots = []) :
    (loadBotList files baseDir info).2.bots =
      if listed files (selectBotList files baseDir).absolutePath = [] ∧
          (selectBotList files baseDir).matched ≠ ascii "default" then
        listed files (botsPath baseDir)
      else listed files (selectBotList files baseDir).absolutePath := by
  rw [loadBotList]
  generalize selectBotList files baseDir = sel
  have hloaded := @bots_loadBots files info sel.absolutePath h
  have hnil : (¬ (info.loadBots (files sel.absolutePath)).1 ∨
      (info.loadBots (files sel.absolutePath)).2.bots.length ≤ 0) ↔
      listed files sel.absolutePath = [] := by
    rw [← hloaded, Nat.le_zero, List.length_eq_zero_iff]
    refine ⟨?_, Or.inr⟩
    rintro (hfailed | hnobody)
    · rw [loadBots_of_failed (by simpa using hfailed), h]
    · exact hnobody
  have hkept : (info.loadBots (files sel.absolutePath)).2.bots = [] → ∀ path,
      ((info.loadBots (files sel.absolutePath)).2.loadBots (files path)).2.bots = listed files path :=
    fun hnobody path => bots_loadBots hnobody
  generalize info.loadBots (files sel.absolutePath) = loaded at hloaded hnil hkept
  by_cases hempty : listed files sel.absolutePath = []
  · rw [if_pos (by simpa using hnil.mpr hempty)]
    by_cases hdefault : sel.matched = ascii "default"
    · rw [if_neg (not_not_intro hdefault), if_neg fun h => h.2 hdefault]
      exact hloaded
    · rw [if_pos hdefault, if_pos ⟨hempty, hdefault⟩]
      exact hkept (hloaded.trans hempty) _
  · rw [if_neg fun hfailed => hempty (hnil.mp (by simpa using hfailed)), if_neg fun h => hempty h.1]
    exact hloaded

/-- The bots of the list for the server's language, or those of the default list where that has none. -/
theorem bots_startInfo (hcore : files (corePath baseDir) = core.map CoreText.text) :
    (AsksSimplified core ∧ listed files (zhPath baseDir) ≠ [] ∧
        (startInfo files baseDir).2.bots = listed files (zhPath baseDir)) ∨
      (¬ (AsksSimplified core ∧ listed files (zhPath baseDir) ≠ []) ∧
        (startInfo files baseDir).2.bots = listed files (botsPath baseDir)) := by
  rw [startInfo, bots_loadBotList (load_keeps rfl)]
  rcases selectBotList_eq hcore with ⟨ha, hm, hp⟩ | ⟨ha, hm, hp⟩
  · rw [hm, hp]
    by_cases hempty : listed files (zhPath baseDir) = []
    · rw [if_pos ⟨hempty, by decide⟩]
      exact Or.inr ⟨fun h => h.2 hempty, rfl⟩
    · rw [if_neg fun h => hempty h.1]
      exact Or.inl ⟨ha, hempty, rfl⟩
  · rw [hm, hp, if_neg fun h => h.2 rfl]
    exact Or.inr ⟨fun h => ha h.1, rfl⟩

/-- The personas of a list. -/
def personas (bots : List BotIdentity) : List (Bytes × UInt64) := bots.map fun b => (b.name, b.steamId)

/-- The features as a settings file sets them, with the hold in its bounds. -/
def WrittenSettings.inForce (t : WrittenSettings) : PluginFeatures :=
  { t.values.override {} with
    voteTransactionHoldFrames := max 1 (min (t.values.override {}).voteTransactionHoldFrames 32) }

theorem settings_loadBots : (info.loadBots file).2.features = info.features ∧
    (info.loadBots file).2.mapBlacklist = info.mapBlacklist := by
  have hsame := @loadBots_withSettings info file info.mapBlacklist info.features
  have hinfo : info.withSettings info.features info.mapBlacklist = info := rfl
  rw [hinfo] at hsame
  rw [hsame]
  exact ⟨rfl, rfl⟩

theorem settings_startInfo :
    (startInfo files baseDir).2.features = (BotInfo.load {} (files (configPath baseDir))).2.features ∧
    (startInfo files baseDir).2.mapBlacklist =
      (BotInfo.load {} (files (configPath baseDir))).2.mapBlacklist := by
  rw [startInfo]
  generalize (BotInfo.load {} (files (configPath baseDir))).2 = config
  unfold loadBotList
  dsimp only
  repeat' split
  · exact ⟨settings_loadBots.1.trans settings_loadBots.1, settings_loadBots.2.trans settings_loadBots.2⟩
  · exact settings_loadBots
  · exact settings_loadBots

theorem settings_load_written {settings : Option WrittenSettings} :
    (BotInfo.load {} (settings.map WrittenSettings.file)).2.features =
        settings.elim {} WrittenSettings.inForce ∧
      (BotInfo.load {} (settings.map WrittenSettings.file)).2.mapBlacklist =
        settings.elim [] WrittenSettings.strings := by
  cases settings with
  | none => exact ⟨rfl, rfl⟩
  | some t =>
    rw [Option.map_some, WrittenSettings.file, load_text t.lead_blank, readMembers_map consumes_onSetting
      t.ws_blank fun t _ => reads_settingText t, t.foldl_addSetting, clampHoldFrames_eq]
    exact ⟨rfl, rfl⟩

theorem named_run {n : List (Bytes × UInt64)} {es : List Event} (hn : n.length ≤ kMaxBotIdentities)
    (h : st.registry.Named n) : (run (step E) st es).registry.Named n :=
  run_invariant_of_step (I := fun st : State => st.registry.Named n)
    (fun st ev h => @named_runHook _ (st.withWorld ev.world) _ hn h ev.hook) h

theorem features_run {es : List Event} : (run (step E) st es).features = st.features :=
  run_invariant_of_step (I := fun st' : State => st'.features = st.features)
    (fun _ _ h => features_step.trans h) rfl

theorem gateSound_run {tokens : List Bytes} {es : List Event} (h : GateSound tokens st) :
    GateSound tokens (run (step E) st es) :=
  run_invariant_of_step (I := GateSound tokens) (fun _ _ => gateSound_step) h

theorem gateSound_load {pool : LoadedPool} {mapped : Bool} {draws : Nat → Nat} {w : World} :
    GateSound l (load f l pool mapped draws w) := by
  refine ⟨mapBlacklist_pollMapGate, ?_⟩
  rw [load, gate_pollMapGate]
  exact Gate.Sound.offer (by simp [Gate.Sound, mapNameMatchesBlacklist])

theorem WrittenSettings.strings_ne {t : WrittenSettings} {token : Bytes} (h : token ∈ t.strings) :
    token ≠ [] := by
  rw [WrittenSettings.strings] at h
  cases hb : t.mapBlacklist with
  | none =>
    rw [hb] at h
    cases h
  | some b =>
    rw [hb, Option.elim_some, BlacklistText.strings, List.mem_filter] at h
    simpa using h.2

/-- What the server's files say holds for the whole run: the personas of the list for its language, or of
the default list where that one lists nobody, the settings, and no hosting on the listed maps. -/
theorem files_decide_the_run (files : Files) (baseDir : Bytes) (core : Option CoreText)
    (settings : Option WrittenSettings) (mapped : Bool) (draws : Nat → Nat) (w : World) (es : List Event)
    (hcore : files (corePath baseDir) = core.map CoreText.text)
    (hconfig : files (configPath baseDir) = settings.map WrittenSettings.file) :
    let st := run (step E) (pluginLoad files baseDir mapped draws w) es
    (AsksSimplified core ∧ listed files (zhPath baseDir) ≠ [] →
      st.registry.Named (personas (listed files (zhPath baseDir)))) ∧
    (¬ (AsksSimplified core ∧ listed files (zhPath baseDir) ≠ []) →
      st.registry.Named (personas (listed files (botsPath baseDir)))) ∧
    st.features = settings.elim {} WrittenSettings.inForce ∧
    ∀ w' nowSec, buildMapIdentity w' ≠ [] →
      ((step E st ⟨w', .gameFrame nowSec⟩).gate.suspended = true ↔
        ∃ token ∈ settings.elim [] WrittenSettings.strings,
          asciiLowerCopy token <:+: asciiLowerCopy (buildMapIdentity w')) := by
  intro st
  have hnamed : st.registry.Named (personas (startInfo files baseDir).2.bots) := by
    refine named_run (by simpa [personas] using freshBots_startInfo.count_le) ?_
    rw [pluginLoad, registry_load]
    rfl
  have hread := @settings_load_written settings
  rw [← hconfig, ← settings_startInfo.1, ← settings_startInfo.2] at hread
  refine ⟨fun h => ?_, fun h => ?_, ?_, fun w' nowSec hmap => ?_⟩
  · rcases bots_startInfo hcore with ⟨-, -, hbots⟩ | ⟨hnot, -⟩
    · rwa [hbots] at hnamed
    · exact absurd h hnot
  · rcases bots_startInfo hcore with ⟨ha, hne, -⟩ | ⟨-, hbots⟩
    · exact absurd ⟨ha, hne⟩ h
    · rwa [hbots] at hnamed
  · rw [features_run, pluginLoad, load, features_pollMapGate]
    exact hread.1
  · have hsound : GateSound (startInfo files baseDir).2.mapBlacklist (step E st ⟨w', .gameFrame nowSec⟩) :=
      gateSound_step (gateSound_run gateSound_load)
    rw [hsound.2, gateMap_gameFrame hmap, hread.2, mapNameMatchesBlacklist, if_neg hmap, List.any_eq_true]
    refine exists_congr fun token => and_congr_right fun htoken => ?_
    have hne : token ≠ [] := by
      cases settings with
      | none => cases htoken
      | some t => exact t.strings_ne htoken
    simp [hne]

/-- A server set to simplified Chinese. -/
def zhServer : CoreText where
  lead := []
  ws := []
  members := [⟨.bare (ascii "ServerLanguage") [] (by decide), [], quote :: (ascii "zh-CN" ++ [quote]), [],
    by decide, blank_nil, .string (by decide), blank_nil⟩]
  tail := []
  lead_blank := blank_nil
  ws_blank := blank_nil

theorem blacklistKey_plain : quote ∉ ascii "mapBlacklist" := by decide

theorem surf_plain : quote ∉ ascii "surf" := by decide

/-- Settings that list surf maps and nothing else. -/
def surfSettings : WrittenSettings where
  lead := []
  ws := []
  tail := []
  features := none
  mapBlacklist := some ⟨.bare (ascii "mapBlacklist") [] blacklistKey_plain, [], [], [],
    [⟨[], ascii "surf", [], blank_nil, surf_plain, blank_nil⟩], rfl, blank_nil, blank_nil, blank_nil⟩
  members := [.mapBlacklist ⟨.bare (ascii "mapBlacklist") [] blacklistKey_plain, [], [], [],
    [⟨[], ascii "surf", [], blank_nil, surf_plain, blank_nil⟩], rfl, blank_nil, blank_nil, blank_nil⟩]
  lead_blank := blank_nil
  ws_blank := blank_nil
  members_perm := .refl _

/-- Its files: one bot in the list for its language, and no default list. -/
def zhFiles : Files := fun path =>
  if path = corePath [] then some zhServer.text
  else if path = configPath [] then some surfSettings.file
  else if path = zhPath [] then some (ascii "\x7b\"bots\":\x7b\"A\":\x7b\x7d\x7d\x7d")
  else none

theorem listed_zhFiles : listed zhFiles (zhPath []) ≠ [] ∧
    personas (listed zhFiles (zhPath [])) = [(ascii "A", kSteamIdBase)] := by
  decide +kernel

theorem asksSimplified_zhServer : AsksSimplified (some zhServer) :=
  ⟨zhServer, zhServer.members.head (by decide), ascii "zh-CN", rfl, rfl, rfl,
    isSimplifiedChinese_iff_tag.mp (by decide +kernel)⟩

theorem files_decide_the_run_of_zh :
    let st := pluginLoad zhFiles [] true (fun _ => 0) (World.ofClients [100] nodup_solo)
    st.registry.Named [(ascii "A", kSteamIdBase)] ∧
      (step .idle st ⟨{ World.ofClients [100] nodup_solo with mapName := ascii "Surf_Ski" },
        .gameFrame 0⟩).gate.suspended = true := by
  have h := files_decide_the_run (E := .idle) zhFiles [] (some zhServer) (some surfSettings) true
    (fun _ => 0) (World.ofClients [100] nodup_solo) [] rfl rfl
  obtain ⟨hzh, -, -, hmap⟩ := h
  rw [listed_zhFiles.2] at hzh
  refine ⟨hzh ⟨asksSimplified_zhServer, listed_zhFiles.1⟩, (hmap _ 0 (by decide)).mpr ?_⟩
  exact ⟨ascii "surf", by decide +kernel, by decide +kernel⟩

end Botid
