import Overseer.Files.Tree
import Overseer.Proofs.Reloading.Applying
import Overseer.Proofs.Reloading.Sections
import Overseer.Proofs.Throughout
import Overseer.Supervisor

/-!
Changes of the configuration file, from the file to the poller.

`Reloading` holds the files, the queues and the two readers of settings: the watcher of the file and
the poller. Everything that happens is a step of one of them (`Reloading.Step`), in any order. What
a sender still waits to hand over is in the queue already, so that a queue that is full is one more
delay.
-/

namespace Overseer

open Program

namespace Config

/-! ### One notification -/

/-- A notification from the file system. -/
structure Notification where
  kind : ChangeKind
  paths : List Path

/-- The file itself was made or written. -/
def Notification.isWrite (n : Notification) (file : Path) : Bool :=
  Config.isWrite n.kind n.paths file

/-- What the watcher made of a notification, with the files at that time. -/
structure Look where
  tree : Tree
  notification : Notification
  /-- The load, if there was one. -/
  loaded? : Option (Except ConfigError Config)
  /-- The configuration that was announced, if one was. -/
  announced? : Option Config

/-- The configuration that a look accepted. -/
def Look.accepted? (l : Look) : Option Config := l.loaded?.bind Except.toOption

/-- Processes a notification: the configuration from then on, and what was made of it. -/
def look (file : Path) (tree : Tree) (current : Config) (n : Notification) : Config × Look :=
  if n.isWrite file then
    let loaded := (Tree.run (load file) tree).1
    let (next, announced?) := follow current loaded
    (next, ⟨tree, n, some loaded, announced?⟩)
  else (current, ⟨tree, n, none, none⟩)

/-- The last configuration that looks accepted, if any did, and else the first one. -/
def accepted (first : Config) (looks : List Look) : Config :=
  (looks.filterMap Look.accepted?).getLast?.getD first

theorem accepted_concat (first : Config) (looks : List Look) (l : Look) :
    accepted first (looks ++ [l]) = l.accepted?.getD (accepted first looks) := by
  unfold accepted
  rw [List.filterMap_append]
  cases haccepted : l.accepted? with
  | none => simp [haccepted]
  | some c => simp [haccepted]

/-- A look is right, given the looks before it: the file is loaded after a write, and a load is
announced exactly if it is accepted with another polling section. -/
structure Look.Right (file : Path) (first : Config) (before : List Look) (l : Look) : Prop where
  loaded : l.loaded? =
    if l.notification.isWrite file then some (Tree.run (load file) l.tree).1 else none
  announced : ∀ c, l.announced? = some c ↔
    l.loaded? = some (.ok c) ∧ c.polling ≠ (accepted first before).polling
  tells : ∀ c, l.loaded? = some (.ok c) → Tells (accepted first before) c

section

variable (file : Path) (tree : Tree) (current : Config) (n : Notification)

theorem look_loaded :
    (look file tree current n).2.loaded? =
      if n.isWrite file then some (Tree.run (load file) tree).1 else none := by
  unfold look
  by_cases hwrite : n.isWrite file
  · simp [hwrite]
  · simp [hwrite]

theorem look_frame :
    (look file tree current n).2.tree = tree ∧ (look file tree current n).2.notification = n := by
  unfold look
  by_cases hwrite : n.isWrite file
  · simp [hwrite]
  · simp [hwrite]

/-- A look that accepts nothing keeps the configuration. -/
theorem look_current :
    (look file tree current n).1 = (look file tree current n).2.accepted?.getD current := by
  unfold look
  by_cases hwrite : n.isWrite file
  · simp only [hwrite, if_true, Look.accepted?]
    cases (Tree.run (load file) tree).1 with
    | error e => rfl
    | ok next => rfl
  · simp [hwrite, Look.accepted?]

theorem look_announced (c : Config) :
    (look file tree current n).2.announced? = some c ↔
      (look file tree current n).2.loaded? = some (.ok c) ∧ c.polling ≠ current.polling := by
  unfold look
  by_cases hwrite : n.isWrite file
  · simp only [hwrite, if_true]
    cases (Tree.run (load file) tree).1 with
    | error e => simp [follow]
    | ok next =>
      by_cases hsame : next.polling = current.polling
      · simp only [follow, pollingChanged, hsame, bne_self_eq_false]
        constructor
        · intro h
          cases h
        · rintro ⟨hnext, hdiffers⟩
          cases hnext
          exact absurd hsame hdiffers
      · have hchanged : pollingChanged current next = true := by
          simpa [pollingChanged] using hsame
        simp only [follow, hchanged, if_true, Option.some.injEq, Except.ok.injEq]
        constructor
        · rintro rfl
          exact ⟨rfl, hsame⟩
        · exact fun h => h.1
  · simp [hwrite]

/-- The polling section changes only as it is announced. -/
theorem look_polling :
    (look file tree current n).1.polling =
      ((look file tree current n).2.announced?.map polling).getD current.polling := by
  unfold look
  by_cases hwrite : n.isWrite file
  · simp only [hwrite, if_true]
    cases (Tree.run (load file) tree).1 with
    | error e => rfl
    | ok next =>
      by_cases hsame : next.polling = current.polling
      · simp [follow, pollingChanged, hsame]
      · simp [follow, pollingChanged, hsame]
  · simp [hwrite]

theorem look_right {first : Config} {before : List Look}
    (hcurrent : current = accepted first before) :
    (look file tree current n).2.Right file first before := by
  obtain ⟨htree, hnotification⟩ := look_frame file tree current n
  exact {
    loaded := by rw [htree, hnotification]; exact look_loaded file tree current n
    announced := hcurrent ▸ look_announced file tree current n
    tells := fun c _ => tells _ c }

end

end Config

/-! ### The system -/

/-- The configuration that an event announces. -/
def Event.config? : Event → Option Config
  | .configReloaded config => some config
  | _ => none

/-- From the files to the poller. -/
structure Reloading where
  tree : Tree
  /-- The file was written, and no notification has been queued since. -/
  due : Bool
  notifications : List Config.Notification
  /-- The configuration that the watcher compares with. -/
  current : Config
  events : List Event
  /-- Events still become commands. -/
  forwarding : Bool
  commands : List Command
  session : Session

namespace Reloading

/-- A supervisor that has just started. -/
def start (file : Path) (tree : Tree) (platform : Platform) (host : HostIdentity)
    (displayOn : Bool) (now : Nat) : Reloading :=
  let config := Startup.effective (Tree.run (Config.load file) tree).1
  { tree
    due := false
    notifications := []
    current := config
    events := []
    forwarding := true
    commands := []
    session := .start (.ofConfig config platform host displayOn) now }

/-- What shows of a step. -/
inductive Activity where
  | looked (l : Config.Look)
  | forwarded (event : Event)
  | other

/-- The looks among some activities, in order. -/
def looks (activities : List Activity) : List Config.Look :=
  activities.filterMap fun
    | .looked l => some l
    | _ => none

/-- The events that were forwarded, in order. -/
def forwarded (activities : List Activity) : List Event :=
  activities.filterMap fun
    | .forwarded event => some event
    | _ => none

/-- One step of the files, the watcher, the other sources of events, the supervisor or the
poller. -/
inductive Step (file : Path) (s : Reloading) : Activity → Reloading → Prop where
  /-- The file is written, with whatever content; a notification has to follow. -/
  | written (tree : Tree) : Step file s .other { s with tree, due := true }
  | removed (tree : Tree) (absent : tree.readText file = .error .notFound) :
      Step file s .other { s with tree }
  /-- Other files change. -/
  | elsewhere (tree : Tree) (same : tree.readText file = s.tree.readText file) :
      Step file s .other { s with tree }
  /-- A notification is queued; more may come than are due. -/
  | notified (n : Config.Notification) :
      Step file s .other
        { s with notifications := s.notifications ++ [n], due := s.due && !n.isWrite file }
  /-- The watcher processes a notification. -/
  | looked {n : Config.Notification} {rest : List Config.Notification}
      (queued : s.notifications = n :: rest) {next : Config} {l : Config.Look}
      (made : Config.look file s.tree s.current n = (next, l)) :
      Step file s (.looked l)
        { s with
          notifications := rest
          current := next
          events := s.events ++ l.announced?.toList.map .configReloaded }
  /-- Something else happens. -/
  | raised (event : Event) (foreign : event.config? = none) :
      Step file s .other { s with events := s.events ++ [event] }
  /-- An event becomes a command; after a shutdown none does. -/
  | forwarded {event : Event} {rest : List Event} (queued : s.events = event :: rest)
      (forwards : s.forwarding = true) :
      Step file s (.forwarded event)
        { s with
          events := rest
          commands := s.commands ++ [event.command]
          forwarding := event.command != .shutdown }
  /-- The poller ticks. -/
  | ticked {now : Nat} {action : Action Session} {trace : List (Exchange Effects)}
      {session : Session} (handled : s.session.handle now .tick = some action)
      (followed : Follows action trace session) : Step file s .other { s with session }
  /-- The poller takes a command. -/
  | commanded {command : Command} {rest : List Command} {now : Nat} {action : Action Session}
      {trace : List (Exchange Effects)} {session : Session}
      (queued : s.commands = command :: rest)
      (handled : s.session.handle now (.command command) = some action)
      (followed : Follows action trace session) :
      Step file s .other { s with session, commands := rest }
  /-- The poller is told to stop. -/
  | stopped {rest : List Command} (queued : s.commands = .shutdown :: rest) :
      Step file s .other { s with commands := rest }

/-- Any number of steps, with what shows of them. -/
inductive Runs (file : Path) (s : Reloading) : List Activity → Reloading → Prop where
  | start : Runs file s [] s
  | step {s' s'' : Reloading} {activities : List Activity} {activity : Activity}
      (run : Runs file s activities s') (step : Step file s' activity s'') :
      Runs file s (activities ++ [activity]) s''

/-- Nothing is on its way. -/
structure Quiet (s : Reloading) : Prop where
  due : s.due = false
  notifications : s.notifications = []
  events : s.events = []
  commands : s.commands = []

/-- The commands that are on their way to the poller. -/
def waiting (s : Reloading) : List Command := s.commands ++ s.events.map Event.command

end Reloading

end Overseer
