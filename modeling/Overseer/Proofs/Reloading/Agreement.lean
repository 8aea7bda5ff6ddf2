import Overseer.Proofs.Reloading.Watching

/-!
No change of the configuration is lost.

`Reloading.Tracks` is what every step keeps: the looks of the watcher are right, its configuration
is the one they accepted last, no announcement is lost on its way, and the settings on their way to
the poller end with those of the watcher. Once nothing is on its way, file, watcher and poller agree
(`config_changes_kept`).
-/

namespace Overseer.Reloading

open Config (Look accepted)

variable {file : Path} {first : Config} {activities : List Activity} {activity : Activity}
  {s s' : Reloading}

@[simp] theorem looks_append (before after : List Activity) :
    looks (before ++ after) = looks before ++ looks after :=
  List.filterMap_append

@[simp] theorem forwarded_append (before after : List Activity) :
    forwarded (before ++ after) = forwarded before ++ forwarded after :=
  List.filterMap_append

/-- The announcements among some events, in order. -/
def announcements (events : List Event) : List Config := events.filterMap Event.config?

@[simp] theorem announcements_append (before after : List Event) :
    announcements (before ++ after) = announcements before ++ announcements after :=
  List.filterMap_append

@[simp] theorem announcements_map_configReloaded (announced? : Option Config) :
    announcements (announced?.toList.map .configReloaded) = announced?.toList := by
  cases announced? <;> rfl

/-- The load of a file is decided by what reading it gives. -/
theorem run_load (tree : Tree) :
    (Tree.run (Config.load file) tree).1 = Config.ofReading (tree.readText file) :=
  rfl

/-- An event that announces no configuration becomes a command without settings. -/
theorem polling?_command (event : Event) :
    event.command.polling? = event.config?.map Config.polling := by
  cases event <;> rfl

/-! ### What every step keeps -/

/-- The file, its watcher and the poller, up to what is on its way between them. -/
structure Tracks (file : Path) (first : Config) (activities : List Activity) (s : Reloading) :
    Prop where
  looked : Throughout (Look.Right file first) (looks activities)
  current : s.current = accepted first (looks activities)
  sent : announcements (forwarded activities ++ s.events) =
    (looks activities).filterMap Look.announced?
  /-- The watcher is behind the file only if a notification is on its way. -/
  fresh : s.due = false → (∀ n ∈ s.notifications, n.isWrite file = false) →
    ∀ text config, s.tree.readText file = .ok text → Config.ofText text = .ok config →
      s.current = config
  /-- The poller is behind the watcher only by the commands that are on their way. -/
  lagging : ∃ polling, s.session.Obeys polling ∧
    settingsAfter polling s.waiting = s.current.polling

namespace Tracks

theorem start (file : Path) (tree : Tree) (platform : Platform) (host : HostIdentity)
    (displayOn : Bool) (now : Nat) :
    Tracks file (Startup.effective (Tree.run (Config.load file) tree).1) []
      (Reloading.start file tree platform host displayOn now) where
  looked := throughout_nil
  current := rfl
  sent := rfl
  fresh := by
    intro _ _ text config hread hvalid
    change Startup.effective (Tree.run (Config.load file) tree).1 = config
    change tree.readText file = .ok text at hread
    rw [run_load, hread]
    change Startup.effective (Config.ofText text) = config
    rw [hvalid]
    rfl
  lagging := ⟨_, Session.obeys_start .., rfl⟩

variable (h : Tracks file first activities s)

include h

/-- Steps that nobody sees move nothing but the files, the notifications and the poller. -/
theorem other (hcurrent : s'.current = s.current)
    (hannounced : announcements s'.events = announcements s.events)
    (hfresh : s'.due = false → (∀ n ∈ s'.notifications, n.isWrite file = false) →
      ∀ text config, s'.tree.readText file = .ok text → Config.ofText text = .ok config →
        s'.current = config)
    (hlagging : ∃ polling, s'.session.Obeys polling ∧
      settingsAfter polling s'.waiting = s'.current.polling) :
    Tracks file first (activities ++ [.other]) s' where
  looked := by
    rw [looks_append]
    simpa [looks] using h.looked
  current := by
    rw [hcurrent, h.current, looks_append]
    simp [looks]
  sent := by
    have hsent := h.sent
    rw [announcements_append] at hsent
    rw [forwarded_append, looks_append, announcements_append, hannounced]
    simpa [forwarded, looks] using hsent
  fresh := hfresh
  lagging := hlagging

/-- Files change; the watcher may be behind them then. -/
theorem files {tree : Tree} {due : Bool}
    (hfresh : due = false → ∀ text, tree.readText file = .ok text →
      s.due = false ∧ s.tree.readText file = .ok text) :
    Tracks file first (activities ++ [.other]) { s with tree, due } :=
  h.other rfl rfl
    (fun hdue hqueued text config hread hvalid =>
      h.fresh (hfresh hdue text hread).1 hqueued text config (hfresh hdue text hread).2 hvalid)
    h.lagging

theorem notified (n : Config.Notification) :
    Tracks file first (activities ++ [.other])
      { s with notifications := s.notifications ++ [n], due := s.due && !n.isWrite file } := by
  refine h.other rfl rfl ?_ h.lagging
  intro hdue hqueued text config hread hvalid
  obtain ⟨hbefore, hlast⟩ := List.forall_mem_append.mp hqueued
  have hother : n.isWrite file = false := hlast n (List.mem_singleton_self n)
  have hdue : s.due = false := by simpa [hother] using hdue
  exact h.fresh hdue hbefore text config hread hvalid

/-- The watcher catches up with the file, and tells what the poller has to know. -/
theorem looked_at {n : Config.Notification} {rest : List Config.Notification}
    (hqueued : s.notifications = n :: rest) {next : Config} {l : Look}
    (hmade : Config.look file s.tree s.current n = (next, l)) :
    Tracks file first (activities ++ [.looked l])
      { s with
        notifications := rest
        current := next
        events := s.events ++ l.announced?.toList.map .configReloaded } := by
  have hright := Config.look_right file s.tree s.current n h.current
  have hloaded := Config.look_loaded file s.tree s.current n
  have hcurrent := Config.look_current file s.tree s.current n
  have hpolling := Config.look_polling file s.tree s.current n
  rw [hmade] at hright hloaded hcurrent hpolling
  change next = l.accepted?.getD s.current at hcurrent
  change l.loaded? = _ at hloaded
  change next.polling = (l.announced?.map Config.polling).getD s.current.polling at hpolling
  have hlook : looks (activities ++ [.looked l]) = looks activities ++ [l] := by simp [looks]
  have hforward : forwarded (activities ++ [.looked l]) = forwarded activities := by
    simp [forwarded]
  refine {
    looked := ?_
    current := ?_
    sent := ?_
    fresh := ?_
    lagging := ?_ }
  · rw [hlook]
    exact throughout_concat.mpr ⟨h.looked, hright⟩
  · rw [hlook, Config.accepted_concat, ← h.current]
    exact hcurrent
  · rw [hlook, hforward, ← List.append_assoc, announcements_append, h.sent,
      announcements_map_configReloaded, List.filterMap_append]
    cases hl : l.announced? <;> simp [hl]
  · intro hdue hrest text config hread hvalid
    change next = config
    cases hwrite : n.isWrite file with
    | true =>
      have haccepted : l.accepted? = some config := by
        rw [Look.accepted?, hloaded, if_pos hwrite, run_load, hread]
        change (Config.ofText text).toOption = some config
        rw [hvalid]
        rfl
      rw [hcurrent, haccepted]
      rfl
    | false =>
      have hnone : l.accepted? = none := by
        rw [Look.accepted?, hloaded, hwrite]
        rfl
      have hqueue : ∀ n ∈ s.notifications, n.isWrite file = false := by
        rw [hqueued]
        exact List.forall_mem_cons.mpr ⟨hwrite, hrest⟩
      rw [hcurrent, hnone]
      exact h.fresh hdue hqueue text config hread hvalid
  · obtain ⟨polling, hobeys, hsettings⟩ := h.lagging
    refine ⟨polling, hobeys, ?_⟩
    have hannounce : settingsAfter s.current.polling
        ((l.announced?.toList.map Event.configReloaded).map Event.command) = next.polling := by
      rw [hpolling]
      cases l.announced? <;> rfl
    rw [← hannounce, ← hsettings, ← settingsAfter_append]
    simp [waiting]

theorem raised {event : Event} (hforeign : event.config? = none) :
    Tracks file first (activities ++ [.other]) { s with events := s.events ++ [event] } := by
  refine h.other rfl ?_ h.fresh ?_
  · simp [announcements, hforeign]
  · obtain ⟨polling, hobeys, hsettings⟩ := h.lagging
    refine ⟨polling, hobeys, ?_⟩
    rw [← hsettings]
    simp [waiting, ← List.append_assoc, polling?_command, hforeign]

theorem forwards {event : Event} {rest : List Event} (hqueued : s.events = event :: rest)
    (forwarding : Bool) :
    Tracks file first (activities ++ [.forwarded event])
      { s with events := rest, commands := s.commands ++ [event.command], forwarding } where
  looked := by simpa [looks] using h.looked
  current := by simpa [looks] using h.current
  sent := by simpa [looks, forwarded, hqueued] using h.sent
  fresh := h.fresh
  lagging := by simpa [waiting, hqueued] using h.lagging

/-- Commands are on their way until the poller takes them. -/
theorem commanded {command : Command} {rest : List Command} {session : Session}
    (hqueued : s.commands = command :: rest)
    (hobeys : ∀ polling, s.session.Obeys polling →
      session.Obeys (command.polling?.getD polling)) :
    Tracks file first (activities ++ [.other]) { s with session, commands := rest } := by
  obtain ⟨polling, hbefore, hsettings⟩ := h.lagging
  refine h.other rfl rfl h.fresh ⟨_, hobeys polling hbefore, ?_⟩
  rw [← hsettings]
  simp [waiting, hqueued]

theorem step (hstep : s.Step file activity s') :
    Tracks file first (activities ++ [activity]) s' := by
  cases hstep with
  | written tree => exact h.files nofun
  | removed tree absent =>
    refine h.files fun _ text hread => ?_
    rw [absent] at hread
    cases hread
  | elsewhere tree same => exact h.files fun hdue text hread => ⟨hdue, same ▸ hread⟩
  | notified n => exact h.notified n
  | looked queued made => exact h.looked_at queued made
  | raised event foreign => exact h.raised foreign
  | forwarded queued forwards => exact h.forwards queued _
  | ticked handled followed =>
    obtain ⟨polling, hobeys, hsettings⟩ := h.lagging
    exact h.other rfl rfl h.fresh ⟨polling, hobeys.handle handled followed, hsettings⟩
  | commanded queued handled followed =>
    exact h.commanded queued fun polling hobeys => hobeys.handle handled followed
  | stopped queued => exact h.commanded queued fun polling hobeys => hobeys

end Tracks

theorem Runs.tracks (run : s.Runs file activities s') (h : Tracks file first [] s) :
    Tracks file first activities s' := by
  induction run with
  | start => exact h
  | step run step ih => exact ih.step step

/-! ### Changes over a run -/

/-- What becomes of the changes of a configuration file. -/
structure Kept (file : Path) (first : Config) (activities : List Activity) (s : Reloading) :
    Prop where
  /-- The file is loaded at every write that the watcher hears of; what it accepts with another
  polling section it announces, and no difference is silent. -/
  looked : Throughout (Look.Right file first) (looks activities)
  /-- Loads that fail change nothing. -/
  current : s.current = accepted first (looks activities)
  /-- Announcements reach the supervisor in order, and there are no others. -/
  sent : announcements (forwarded activities ++ s.events) =
    (looks activities).filterMap Look.announced?
  agreed : s.Quiet → ∀ text config, s.tree.readText file = .ok text →
    Config.ofText text = .ok config → s.current = config ∧ s.session.Obeys config.polling

/-- However writes of the configuration file, notifications, announcements and wakes of the poller
are interleaved, no change is lost. -/
theorem config_changes_kept {tree : Tree} {platform : Platform} {host : HostIdentity}
    {displayOn : Bool} {now : Nat}
    (run : (start file tree platform host displayOn now).Runs file activities s) :
    Kept file (Startup.effective (Tree.run (Config.load file) tree).1) activities s := by
  have htracks := run.tracks (.start file tree platform host displayOn now)
  refine {
    looked := htracks.looked
    current := htracks.current
    sent := htracks.sent
    agreed := ?_ }
  intro hquiet text config hread hvalid
  have hcurrent : s.current = config := by
    refine htracks.fresh hquiet.due ?_ text config hread hvalid
    rw [hquiet.notifications]
    exact nofun
  obtain ⟨polling, hobeys, hsettings⟩ := htracks.lagging
  have hnone : s.waiting = [] := by simp [waiting, hquiet.commands, hquiet.events]
  rw [hnone, settingsAfter_nil, hcurrent] at hsettings
  exact ⟨hcurrent, hsettings ▸ hobeys⟩

/-- A file that asks for a tick every two seconds. -/
def slower : Tree :=
  ⟨.directory Node.directoryMode
    [("supervisor.toml",
      .file "[polling]\nstatus_interval_ms = 2000\n".toUTF8 Node.fileMode)]⟩

/-- The file appears, and in the end the poller ticks as it says. -/
theorem config_changes_kept_slower :
    let file : Path := ⟨"/supervisor.toml"⟩
    ∃ activities s, (start file .empty .arm64 ⟨"", ""⟩ true 0).Runs file activities s ∧
      s.Quiet ∧ s.session.ticker.period = 2000 ∧
      Kept file (Startup.effective (Tree.run (Config.load file) .empty).1) activities s := by
  intro file
  let first := Startup.effective (Tree.run (Config.load file) .empty).1
  let n : Config.Notification := ⟨.created, [file]⟩
  have hannounced : (Config.look file slower first n).2.announced?.map Config.polling =
      some ⟨2000, 10, true⟩ := by decide +kernel
  obtain ⟨c, hc, hpolling⟩ := Option.map_eq_some_iff.mp hannounced
  generalize hmade : Config.look file slower first n = made at hc
  obtain ⟨next, tree, n', loaded?, announced?⟩ := made
  obtain rfl : announced? = some c := hc
  have hstart : (start file .empty .arm64 ⟨"", ""⟩ true 0).Runs file [] _ := .start
  have hqueued := (hstart.step (.written slower)).step (.notified n)
  have hforwarded := (hqueued.step (.looked rfl hmade)).step (.forwarded rfl rfl)
  have hrun := hforwarded.step (.commanded rfl (Session.handle_reconfigure _ 0 c.polling) (.done _))
  have hobeys := (Session.obeys_start first .arm64 ⟨"", ""⟩ true 0).withSettings 0 c.polling
  have hperiod : c.polling.interval = 2000 := by
    rw [hpolling]
    decide
  have hwrite : n.isWrite file = true := by decide +kernel
  refine ⟨_, _, hrun, ⟨?_, rfl, rfl, rfl⟩, hobeys.period.trans hperiod, config_changes_kept hrun⟩
  change (true && !n.isWrite file) = false
  rw [hwrite]
  rfl

end Overseer.Reloading
