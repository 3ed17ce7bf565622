import XWrt.Fakemesh.SyncRuns

/-!
# A controller that is lost and found

The events since the last round that came to its end make an episode. The
temporary LAN belongs to the third failure of an episode and is set up at most
once in it; the round that ends the episode takes it down again, and so does a
reload of the network before. An episode with three failures or more ends with a
recovery, also where the LAN was never set up.
-/

namespace XWrt.Fakemesh

open XWrt.Foundation

def SyncEvent.endsEpisode (event : SyncEvent) : Bool := event = .completed

/-- What has happened since the last round that came to its end. -/
def episode (log : List SyncEvent) : List SyncEvent := since SyncEvent.endsEpisode log

/-- When the LAN is set up, when the worker recovers, and what it has done before a round ends. -/
def AllowedIn (past : List SyncEvent) : SyncEvent → Prop
  | .setUpLan => past.count .failed = lostAcCnt ∧ .setUpLan ∉ past
  | .recovered => lostAcCnt ≤ past.count .failed ∧ .recovered ∉ past
  | .completed => .recovered ∈ past ↔ lostAcCnt ≤ past.count .failed
  | _ => True

def AllowedAfter (log : List SyncEvent) (event : SyncEvent) : Prop := AllowedIn (episode log) event

/-- The count and the device in an episode. -/
structure InEpisode (past : List SyncEvent) (lostAc : ℕ) (device : SyncDevice) : Prop where
  failures : past.count .failed = lostAc
  recovered : .recovered ∉ past
  setUp : .setUpLan ∈ past → lostAcCnt ≤ lostAc
  lan : device.temporaryLan = decide (.setUpLan ∈ since SyncEvent.reloads past)
  filters : device.meshFilters = decide (.setUpLan ∈ past)

/-- A chain in an episode; `agent_lost_ac` is started with three failures, and with more once the LAN is set up. -/
structure InRun (setting : SyncSetting) (log : List SyncEvent) (chain : SyncChain) : Prop where
  checked : setting.Checked chain
  now : InEpisode (episode log) chain.lostAc chain.device
  lost : chain.phase = .launched .agentLostAc → lostAcCnt ≤ chain.lostAc ∧ (.setUpLan ∈ episode log → lostAcCnt < chain.lostAc)

section Episodes

variable {past events : List SyncEvent} {lostAc : ℕ} {device other : SyncDevice}

theorem follows_plain (plain : ∀ event ∈ events, event.isPlain = true) {log : List SyncEvent} : Follows AllowedAfter log events := by
  refine follows_of_forall fun event member past => ?_
  have own := plain event member
  cases event with
  | setUpLan => cases own
  | recovered => cases own
  | completed => cases own
  | _ => trivial

theorem episode_append {log : List SyncEvent} (others : .completed ∉ events) : episode (log ++ events) = episode log ++ events :=
  since_append fun _ member => decide_eq_false fun same => others (same ▸ member)

theorem InEpisode.start (calm : device.temporaryLan = false ∧ device.meshFilters = false) : InEpisode [] 0 device :=
  ⟨rfl, List.not_mem_nil, nofun, calm.1, calm.2⟩

/-- Events that count nothing leave the episode; a reload among them takes the LAN down. -/
theorem InEpisode.plain (now : InEpisode past lostAc device) (plain : ∀ event ∈ events, event.isPlain = true)
    (lan : other.temporaryLan = (device.temporaryLan && !events.any SyncEvent.reloads)) (filters : other.meshFilters = device.meshFilters) :
    InEpisode (past ++ events) lostAc other := by
  have none : ∀ event : SyncEvent, event.isPlain = false → event ∉ events := by
    intro event counted member
    rw [plain event member] at counted
    cases counted
  have setUp : .setUpLan ∈ past ++ events ↔ .setUpLan ∈ past := by
    rw [List.mem_append, or_iff_left (none .setUpLan rfl)]
  refine ⟨?_, ?_, fun member => now.setUp (setUp.mp member), ?_, ?_⟩
  · rw [List.count_append, now.failures, List.count_eq_zero_of_not_mem (none .failed rfl), Nat.add_zero]
  · exact List.not_mem_append now.recovered (none .recovered rfl)
  · rw [lan, now.lan]
    cases reloaded : events.any SyncEvent.reloads with
    | true =>
        obtain ⟨event, member, last⟩ := List.any_eq_true.mp reloaded
        rw [since_append_of_mem member last, Bool.not_true, Bool.and_false]
        exact (decide_eq_false fun up => none .setUpLan rfl (mem_of_mem_since up)).symm
    | false =>
        rw [since_append fun event member => by simpa using List.any_eq_false.mp reloaded event member, Bool.not_false, Bool.and_true]
        exact decide_eq_decide.mpr (by rw [List.mem_append, or_iff_left (none .setUpLan rfl)])
  · rw [filters, now.filters, decide_eq_decide.mpr setUp]

theorem InEpisode.failed (now : InEpisode past lostAc device) : InEpisode (past ++ [.failed]) (lostAc + 1) device := by
  have setUp : .setUpLan ∈ past ++ [SyncEvent.failed] ↔ .setUpLan ∈ past := by simp
  have stays : since SyncEvent.reloads (past ++ [.failed]) = since SyncEvent.reloads past ++ [.failed] := since_concat_of_not rfl
  refine ⟨?_, ?_, fun member => (now.setUp (setUp.mp member)).trans (Nat.le_succ _), ?_, ?_⟩
  · rw [List.count_append, now.failures]
    rfl
  · simpa using now.recovered
  · rw [now.lan, stays]
    exact decide_eq_decide.mpr (by simp)
  · rw [now.filters, decide_eq_decide.mpr setUp]

/-- A failed attempt, with what is done when the gateway has an address of the device. -/
theorem InEpisode.lost (now : InEpisode past lostAc device) (t : SyncTurn) : InEpisode (past ++ t.lost) (lostAc + 1) (t.afterLost device) := by
  rw [SyncTurn.lost]
  cases here : t.onBrLan with
  | false =>
      have same : t.afterLost device = device := by simp [SyncTurn.afterLost, here]
      rw [same]
      exact now.failed
  | true =>
      rw [if_pos rfl, ← List.singleton_append, ← List.append_assoc]
      exact now.failed.plain (List.forall_mem_singleton.mpr rfl) (by rw [SyncTurn.afterLost, here]; rfl) rfl

theorem InEpisode.setUpLan (now : InEpisode past lostAc device) (many : lostAcCnt ≤ lostAc) :
    InEpisode (past ++ [.setUpLan]) lostAc { device with temporaryLan := true, meshFilters := true } := by
  have here : .setUpLan ∈ past ++ [SyncEvent.setUpLan] := List.mem_append_right _ (List.mem_singleton_self _)
  have stays : since SyncEvent.reloads (past ++ [.setUpLan]) = since SyncEvent.reloads past ++ [.setUpLan] := since_concat_of_not rfl
  have up : .setUpLan ∈ since SyncEvent.reloads (past ++ [.setUpLan]) := by
    rw [stays]
    exact List.mem_append_right _ (List.mem_singleton_self _)
  refine ⟨?_, ?_, fun _ => many, (decide_eq_true up).symm, (decide_eq_true here).symm⟩
  · rw [List.count_append, now.failures]
    rfl
  · simpa using now.recovered

end Episodes

section Runs

variable {setting : SyncSetting} {log : List SyncEvent} {chain : SyncChain}

theorem completed_notMem_of_plain {events : List SyncEvent} (plain : ∀ event ∈ events, event.isPlain = true) : .completed ∉ events :=
  fun member => absurd (plain _ member) (by decide)

theorem completed_notMem_lost (t : SyncTurn) : SyncEvent.completed ∉ t.lost := fun member => by
  rcases eq_of_mem_lost member with same | same <;> cases same

theorem setUpLan_notMem_lost (t : SyncTurn) : SyncEvent.setUpLan ∉ t.lost := fun member => by
  rcases eq_of_mem_lost member with same | same <;> cases same

theorem follows_lost (t : SyncTurn) : Follows AllowedAfter log t.lost := by
  refine follows_of_forall fun event member past => ?_
  rcases eq_of_mem_lost member with rfl | rfl
  · trivial
  · trivial

/-- The failures before a file is fetched. -/
theorem InEpisode.fetched {past : List SyncEvent} {before device : SyncDevice} {lostAc failures : ℕ} {turn : SyncTurn} {file : List Char}
    {events : List SyncEvent} (now : InEpisode past lostAc before) (fetched : setting.Fetched turn file before events failures device) :
    InEpisode (past ++ events) (lostAc + failures) device ∧ .completed ∉ events ∧ ∀ log, Follows AllowedAfter log events := by
  cases fetched with
  | first => exact ⟨by rw [List.append_nil]; exact now, List.not_mem_nil, fun _ => follows_nil⟩
  | second => exact ⟨now.lost turn, completed_notMem_lost turn, fun _ => follows_lost turn⟩

theorem plain_follow (config : AcConfig) (device : SyncDevice) (file : List Char) :
    ∀ event ∈ SyncEvent.installed file :: (setting.follow config device).2, event.isPlain = true := by
  rw [List.forall_mem_cons]
  refine ⟨rfl, fun event member => ?_⟩
  have table : ∀ event ∈ [SyncEvent.steered, .switched, .regenerated], event.isPlain = true := by decide
  exact table event (follow_events config device event member)

/-- A round that follows a file. -/
theorem inRun_finishRound {t : SyncTurn} {file : List Char} {lostAc : ℕ} {device : SyncDevice} (accepted : setting.accepts file = true)
    (now : InEpisode (episode log) lostAc device) :
    Follows AllowedAfter log (setting.finishRound t file lostAc device).2 ∧
      InRun setting (log ++ (setting.finishRound t file lostAc device).2) (setting.finishRound t file lostAc device).1 := by
  obtain ⟨config, here, -⟩ := exists_of_accepts accepted
  have checked := checked_finishRound t lostAc device accepted
  have plain := @plain_follow setting config { device with acConfig := file } file
  have settled : InEpisode (episode (log ++ .installed file :: (setting.follow config { device with acConfig := file }).2)) lostAc
      (setting.follow config { device with acConfig := file }).1 := by
    rw [episode_append (completed_notMem_of_plain plain)]
    exact now.plain plain (follow_temporaryLan config _) rfl
  rcases finishRound_cases t lostAc device here with same | ⟨phase, known, ⟨many, same⟩ | ⟨few, same⟩⟩
  · rw [same] at checked ⊢
    exact ⟨follows_plain plain, checked, settled, nofun⟩
  · rw [same] at checked ⊢
    have recovery : episode ((log ++ .installed file :: (setting.follow config { device with acConfig := file }).2) ++ [.recovered]) =
        episode (log ++ .installed file :: (setting.follow config { device with acConfig := file }).2) ++ [.recovered] := episode_append (by decide)
    refine ⟨?_, checked, ?_, ?_⟩
    · rw [follows_append, follows_append]
      refine ⟨⟨follows_plain plain, ⟨?_, settled.recovered⟩, follows_nil⟩, ?_, follows_nil⟩
      · rw [settled.failures]
        exact many
      · rw [AllowedAfter, ← List.append_assoc, recovery, AllowedIn, List.count_append, settled.failures]
        exact iff_of_true (List.mem_append_right _ (List.mem_singleton_self _)) many
    · rw [episode, since_append_concat rfl]
      exact .start ⟨rfl, rfl⟩
    · rintro rfl
      exact absurd known (by decide)
  · rw [same] at checked ⊢
    -- Without three failures the LAN was not set up.
    have calm : SyncEvent.setUpLan ∉ episode (log ++ .installed file :: (setting.follow config { device with acConfig := file }).2) :=
      fun member => absurd (settled.setUp member) (Nat.not_le_of_lt few)
    refine ⟨?_, checked, ?_, ?_⟩
    · rw [List.append_nil, follows_append]
      refine ⟨follows_plain plain, ?_, follows_nil⟩
      rw [AllowedAfter, AllowedIn, settled.failures]
      exact iff_of_false settled.recovered (Nat.not_le_of_lt few)
    · rw [List.append_nil, episode, since_append_concat rfl]
      exact .start ⟨settled.lan.trans (decide_eq_false fun up => calm (mem_of_mem_since up)), settled.filters.trans (decide_eq_false calm)⟩
    · rintro rfl
      exact absurd known (by decide)

theorem inRun_turn (t : SyncTurn) (run : InRun setting log chain) :
    Follows AllowedAfter log (setting.turn chain t).2 ∧ InRun setting (log ++ (setting.turn chain t).2) (setting.turn chain t).1 := by
  have checked := checked_turn t run.checked
  have outcome := turn_outcome t run.checked
  generalize setting.turn chain t = result at outcome checked
  cases outcome with
  | @waits phase events kept stays known =>
      have plain : ∀ event ∈ events, event.isPlain = true := by
        rcases List.mem_pair.mp known with rfl | rfl
        · exact nofun
        · exact List.forall_mem_singleton.mpr rfl
      have quiet : events.any SyncEvent.reloads = false := by
        rcases List.mem_pair.mp known with rfl | rfl
        · rfl
        · rfl
      refine ⟨follows_plain plain, checked, ?_, fun lost => absurd lost stays⟩
      rw [episode_append (completed_notMem_of_plain plain)]
      exact run.now.plain plain (by rw [quiet, Bool.not_false, Bool.and_true]) rfl
  | @fails phase events kept lost known =>
      obtain ⟨rest, plain, quiet, rfl⟩ : ∃ rest : List SyncEvent, (∀ event ∈ rest, event.isPlain = true) ∧ rest.any SyncEvent.reloads = false ∧
          events = t.lost ++ rest := by
        rcases List.mem_pair.mp known with rfl | rfl
        · exact ⟨[], nofun, rfl, (List.append_nil _).symm⟩
        · exact ⟨[.refused], List.forall_mem_singleton.mpr rfl, rfl, rfl⟩
      have others : SyncEvent.completed ∉ t.lost ++ rest := List.not_mem_append (completed_notMem_lost t) (completed_notMem_of_plain plain)
      have now : InEpisode (episode log ++ (t.lost ++ rest)) (chain.lostAc + 1) (t.afterLost chain.device) := by
        rw [← List.append_assoc]
        exact (run.now.lost t).plain plain (by rw [quiet, Bool.not_false, Bool.and_true]) rfl
      refine ⟨follows_append.mpr ⟨follows_lost t, follows_plain plain⟩, checked, ?_, fun launched => ⟨lost launched, fun member => ?_⟩⟩
      · rw [episode_append others]
        exact now
      · rw [episode_append others] at member
        -- The LAN was set up before this failure.
        have before : .setUpLan ∈ episode log := by
          refine (List.mem_append.mp member).resolve_right (List.not_mem_append (setUpLan_notMem_lost t) fun refused => ?_)
          exact absurd (plain _ refused) (by decide)
        exact Nat.lt_succ_of_le (run.now.setUp before)
  | setsUp launched few =>
      obtain ⟨many, more⟩ := run.lost launched
      have exact_ : chain.lostAc = lostAcCnt := Nat.le_antisymm few many
      refine ⟨⟨⟨run.now.failures.trans exact_, fun member => ?_⟩, follows_nil⟩, checked, ?_, nofun⟩
      · exact absurd (more member) (Nat.not_lt_of_le few)
      · have other : SyncEvent.completed ∉ [SyncEvent.setUpLan] := by decide
        rw [episode_append other]
        exact run.now.setUpLan many
  | @follows file events failures device fetched accepted =>
      obtain ⟨now, others, allowed⟩ := run.now.fetched fetched
      rw [← episode_append others] at now
      obtain ⟨follows, next⟩ := @inRun_finishRound _ _ t _ _ _ accepted now
      rw [← List.append_assoc]
      exact ⟨follows_append.mpr ⟨allowed log, follows⟩, next⟩

/-- In every run the temporary LAN is set up at the third failure of an episode and at no other time, a round with three failures or
more before it recovers once before it ends, and after any turn the filters are there exactly if they were set up in the episode, and
the LAN if the network was not reloaded since. -/
theorem episodes_of_run (setting : SyncSetting) (device : SyncDevice) (calm : device.temporaryLan = false ∧ device.meshFilters = false)
    (turns : List SyncTurn) :
    let start : SyncChain := ⟨.launched .agentSyncConfig, 0, device⟩
    let log := setting.machine.emitted start turns
    let chain := setting.machine.final start turns
    (∀ before event after, log = before ++ event :: after → AllowedIn (episode before) event) ∧
      chain.lostAc = (episode log).count .failed ∧
      chain.device.temporaryLan = decide (.setUpLan ∈ since SyncEvent.reloads (episode log)) ∧
      chain.device.meshFilters = decide (.setUpLan ∈ episode log) := by
  intro start log chain
  have first : InRun setting [] start := ⟨nofun, .start calm, nofun⟩
  obtain ⟨allowed, run⟩ := setting.machine.chronicle_run first (fun log chain t run => inRun_turn t run) turns
  exact ⟨fun before event after split => allowed.allowed split, run.now.failures.symm, run.now.lan, run.now.filters⟩

end Runs

/-- Three failures, the two workers, a gateway that is the device itself, and a file. -/
def lostAndFound : List SyncTurn :=
  [silentTurn, silentTurn, silentTurn, silentTurn, silentTurn, silentTurn, { silentTurn with onBrLan := true }]

/-- The LAN is set up at the third failure; a fourth one takes it down, and its filters stay. -/
theorem episodes_of_run_lostAndFound :
    let log := agentSetting.machine.emitted ⟨.launched .agentSyncConfig, 0, freshDevice⟩ lostAndFound
    let device := (agentSetting.machine.final ⟨.launched .agentSyncConfig, 0, freshDevice⟩ lostAndFound).device
    AllowedIn (episode [.failed, .failed, .failed]) .setUpLan ∧ log = [.failed, .failed, .failed, .setUpLan, .failed, .reloaded] ∧
      device.temporaryLan = false ∧ device.meshFilters = true := by
  intro log device
  obtain ⟨allowed, -, lan, filters⟩ := episodes_of_run agentSetting freshDevice ⟨rfl, rfl⟩ lostAndFound
  have events : log = [.failed, .failed, .failed, .setUpLan, .failed, .reloaded] := by decide +kernel
  refine ⟨allowed _ _ [.failed, .reloaded] events, events, lan.trans ?_, filters.trans ?_⟩
  · decide +kernel
  · decide +kernel

example : agentSetting.machine.emitted ⟨.launched .agentSyncConfig, 0, freshDevice⟩ (lostAndFound ++ [silentTurn, silentTurn, servedTurn]) =
    [.failed, .failed, .failed, .setUpLan, .failed, .reloaded, .installed "served".toList, .regenerated, .recovered, .completed] := by
  decide +kernel

-- With a bad file after the third failure there is no LAN in this episode.
example : agentSetting.machine.emitted ⟨.launched .agentSyncConfig, 0, freshDevice⟩
    [silentTurn, silentTurn, silentTurn, { silentTurn with gateway := some [] }, silentTurn, silentTurn, silentTurn] =
      [.failed, .failed, .failed, .refused, .failed] := by decide +kernel

end XWrt.Fakemesh
