import Overseer.Proofs.Line.Recovery
import Overseer.Proofs.Polling.Settings

/-!
What moves the cadence.

A cadence moves with ticks, with switches of the screen and with changes of the threshold. What a
tick was can be seen from its conversation: whether it tried to set up, whether the worker accepted
the device report, and which read it came to, if any. `Beat.Regular` says how the cadence moves with
each of them, and every run of a session is a sequence of regular beats
(`Session.Paces.keeps`).
-/

namespace Overseer

open Program

/-! ### What a tick shows -/

/-- What the worker was asked, in order. -/
def requests (trace : List (Exchange Effects)) : List Request :=
  (channelled trace).filterMap fun e =>
    match e.op with
    | .call request => some request
    | _ => none

/-- An attempt to set up was begun; observers are told of it at once. -/
def triedSetup (trace : List (Exchange Effects)) : Bool :=
  (posts trace).any fun
    | .setup .launching => true
    | _ => false

/-- The worker accepted a device report. -/
def reportAccepted (trace : List (Exchange Effects)) : Bool :=
  (channelled trace).any fun
    | ⟨.call (.reportDevice _), .ok _⟩ => true
    | _ => false

/-- A request that only a full read makes. -/
def Request.ofFullRead : Request → Bool
  | .getState => true
  | _ => false

/-- A request that every read makes. -/
def Request.ofRead : Request → Bool
  | .getStatus => true
  | _ => false

/-- The read that some requests belong to, if they came to one. -/
def readOf (asked : List Request) : Option ReadKind :=
  if asked.any Request.ofFullRead then some .full
  else if asked.any Request.ofRead then some .minimal
  else none

@[simp] theorem requests_append (first second : List (Exchange Effects)) :
    requests (first ++ second) = requests first ++ requests second := by
  rw [requests, channelled_append, List.filterMap_append]
  rfl

@[simp] theorem triedSetup_append (first second : List (Exchange Effects)) :
    triedSetup (first ++ second) = (triedSetup first || triedSetup second) := by
  rw [triedSetup, posts_append, List.any_append]
  rfl

@[simp] theorem reportAccepted_append (first second : List (Exchange Effects)) :
    reportAccepted (first ++ second) = (reportAccepted first || reportAccepted second) := by
  rw [reportAccepted, channelled_append, List.any_append]
  rfl

theorem mem_requests {trace : List (Exchange Effects)} {request : Request} :
    request ∈ requests trace ↔ ∃ answer, ⟨.channel (.call request), answer⟩ ∈ trace := by
  rw [requests, List.mem_filterMap]
  constructor
  · rintro ⟨⟨op, answer⟩, hmem, heq⟩
    cases op <;> cases heq
    exact ⟨answer, mem_channelled.mp hmem⟩
  · rintro ⟨answer, hmem⟩
    exact ⟨_, mem_channelled.mpr hmem, rfl⟩

/-- No report is accepted where none is made. -/
theorem reportAccepted_eq_false {trace : List (Exchange Effects)}
    (h : ∀ device, .reportDevice device ∉ requests trace) : reportAccepted trace = false := by
  refine List.any_eq_false.mpr fun ⟨op, answer⟩ hmem => ?_
  split
  · rename_i device _ heq
    cases heq
    exact absurd (mem_requests.mpr ⟨_, mem_channelled.mp hmem⟩) (h device)
  · exact Bool.false_ne_true

/-- Requests of setting up belong to no read, -/
theorem readOf_append_of_preparatory {asked more : List Request}
    (h : ∀ request ∈ asked, request.Preparatory) : readOf (asked ++ more) = readOf more := by
  have hfull : asked.any Request.ofFullRead = false := by
    refine List.any_eq_false.mpr fun request hrequest => ?_
    cases request <;> first | exact Bool.false_ne_true | exact (h _ hrequest).elim
  have hread : asked.any Request.ofRead = false := by
    refine List.any_eq_false.mpr fun request hrequest => ?_
    cases request <;> first | exact Bool.false_ne_true | exact (h _ hrequest).elim
  simp only [readOf, List.any_append, hfull, hread, Bool.false_or]

/-- and neither does a device report. -/
theorem readOf_report (device : DeviceStatus) (more : List Request) :
    readOf (.reportDevice device :: more) = readOf more := by
  simp [readOf, Request.ofFullRead, Request.ofRead]

/-! ### Beats -/

/-- What moves a cadence. -/
inductive Move where
  /-- A tick: whether it was forced, tried to set up, and had its device report accepted, and the
  read that it came to, if any. -/
  | tick (forced prepared reported : Bool) (read : Option ReadKind)
  | screen (on : Bool)
  | threshold (threshold : Nat)
deriving DecidableEq, Repr

/-- A move with the cadence before and after it. -/
structure Beat where
  before : Cadence
  move : Move
  after : Cadence
deriving DecidableEq, Repr

/-- The cadence within a tick, once the read is chosen. -/
def Beat.inside (b : Beat) : Cadence :=
  match b.move with
  | .tick forced prepared _ (some _) => (b.before.next (forced || prepared)).2
  | _ => b.before

/-- The read that a beat came to, if it is a tick that came to one. -/
def Beat.read? (b : Beat) : Option ReadKind :=
  match b.move with
  | .tick _ _ _ read => read
  | _ => none

/-- The tick with this conversation, from one cadence to another. -/
def Beat.ofTick (forced : Bool) (before : Cadence) (trace : List (Exchange Effects))
    (after : Cadence) : Beat where
  before
  move := .tick forced (triedSetup trace) (reportAccepted trace) (readOf (requests trace))
  after

/-- The cadence after a tick that came to its read. -/
def Cadence.ticked (c : Cadence) (force reported : Bool) : Cadence :=
  let (kind, c) := c.next force
  if reported then c.reported kind else c

/-- The cadence moves as it should. Only a setup that fails keeps a tick from its read. -/
inductive Beat.Regular : Beat → Prop where
  | unready (c : Cadence) (forced reported : Bool) :
      Regular ⟨c, .tick forced true reported none, c⟩
  | read (c : Cadence) (forced prepared reported : Bool) :
      Regular ⟨c, .tick forced prepared reported (some (c.next (forced || prepared)).1),
        c.ticked (forced || prepared) reported⟩
  | screen (c : Cadence) (on : Bool) : Regular ⟨c, .screen on, c.setScreen on⟩
  | threshold (c : Cadence) (threshold : Nat) :
      Regular ⟨c, .threshold threshold, c.setThreshold threshold⟩

/-- Regular beats, each from the cadence that the one before it left. -/
inductive Cadence.Keeps : Cadence → List Beat → Cadence → Prop where
  | nil (c : Cadence) : Keeps c [] c
  | cons {b : Beat} {beats : List Beat} {c : Cadence} (regular : b.Regular)
      (rest : Keeps b.after beats c) : Keeps b.before (b :: beats) c

namespace Cadence.Keeps

variable {c c' c'' : Cadence} {first second : List Beat} {b : Beat}

theorem single (regular : b.Regular) : Keeps b.before [b] b.after := .cons regular (.nil _)

theorem append (h : Keeps c first c') (h' : Keeps c' second c'') :
    Keeps c (first ++ second) c'' := by
  induction h with
  | nil c => exact h'
  | cons regular rest ih => exact .cons regular (ih h')

theorem split (h : Keeps c (first ++ second) c'') :
    ∃ c', Keeps c first c' ∧ Keeps c' second c'' := by
  induction first generalizing c with
  | nil => exact ⟨c, .nil c, h⟩
  | cons b rest ih =>
    cases h with
    | cons regular hrest =>
      obtain ⟨c', hfirst, hsecond⟩ := ih hrest
      exact ⟨c', .cons regular hfirst, hsecond⟩

theorem regular (h : Keeps c first c') : ∀ b ∈ first, b.Regular := by
  induction h with
  | nil c => exact nofun
  | cons regular rest ih => exact List.forall_mem_cons.mpr ⟨regular, ih⟩

end Cadence.Keeps

/-! ### Ticks -/

namespace Poller

variable (p : Poller)

theorem conclude_frame (answers : Answers) :
    Ensures (p.conclude answers) fun trace (_, p') =>
      p'.cadence = p.cadence ∧ channelled trace = [] := by
  unfold conclude
  cases answers.assemble p.status.notices with
  | none => exact Ensures.done ⟨rfl, rfl⟩
  | some made =>
    refine Ensures.bind (p.publish_ensures made.1 made.2) ?_
    rintro trace p' ⟨time, rfl, hchannelled, -⟩
    refine Ensures.done ⟨rfl, ?_⟩
    rw [List.append_nil]
    exact hchannelled

/-- A read leaves the cadence alone, and its requests show its kind. -/
theorem read_shows (kind : ReadKind) :
    Ensures (p.read kind) fun trace (_, p') =>
      p'.cadence = p.cadence ∧ readOf (requests trace) = some kind ∧
        ∀ device, .reportDevice device ∉ requests trace := by
  cases kind with
  | minimal =>
    refine Ensures.question fun answer => ?_
    cases answer with
    | error e => exact Ensures.done ⟨rfl, rfl, by simp [requests, channelled]⟩
    | ok status =>
      refine Ensures.bind (p.applyLocks_ensures status) ?_
      rintro trace p' ⟨hframe, hchannelled, -⟩
      have hrequests : requests trace = [] := by rw [requests, hchannelled]; rfl
      refine Ensures.done ⟨by rw [hframe], ?_⟩
      rw [List.append_nil, ← List.singleton_append, requests_append, hrequests]
      exact ⟨rfl, by simp [requests, channelled]⟩
  | full =>
    have hfull : Ensures p.fullRead fun trace (_, p') =>
        p'.cadence = p.cadence ∧
          ∃ answers since, channelled trace = Answers.calls since answers := by
      rw [fullRead_eq]
      refine Ensures.bind (ask_ensures _) ?_
      rintro first answers ⟨hfirst, -⟩
      refine Ensures.bind (p.derive_ensures answers.status) ?_
      rintro second q ⟨locks, computing, rfl, hsecond, -⟩
      refine (conclude_frame _ answers).mono ?_
      rintro third ⟨result, p'⟩ ⟨hcadence, hthird⟩
      exact ⟨hcadence, answers, p.status.latestSeqno, by simp [hfirst, hsecond, hthird]⟩
    refine hfull.mono ?_
    rintro trace ⟨result, p'⟩ ⟨hcadence, answers, since, hchannelled⟩
    refine ⟨hcadence, ?_⟩
    rw [requests, hchannelled]
    exact ⟨rfl, by simp [Answers.calls]⟩

theorem not_triedSetup_of_polls {trace : List (Exchange Effects)}
    (h : ∀ e ∈ trace, e.op.Polls) : triedSetup trace = false := by
  refine List.any_eq_false.mpr fun change hchange => ?_
  obtain ⟨⟨op, answer⟩, hmem, heq⟩ := List.mem_filterMap.mp hchange
  have hop := h _ hmem
  cases op <;> cases heq
  cases change with
  | setup status => exact hop.elim
  | _ => exact Bool.false_ne_true

theorem readFor_shows (kind : ReadKind) :
    Ensures (p.readFor kind) fun trace (_, p') =>
      p'.cadence = p.cadence ∧ readOf (requests trace) = some kind ∧
        ∀ device, .reportDevice device ∉ requests trace := by
  refine Ensures.bind (p.read_shows kind) ?_
  rintro trace ⟨result, p'⟩ hshows
  refine Ensures.done ?_
  rw [List.append_nil]
  exact hshows

/-- A poll chooses its read by the cadence, which then moves as the report went. -/
theorem poll_moves (force : Bool) :
    Ensures (p.poll force) fun trace (_, p') =>
      readOf (requests trace) = some (p.cadence.next force).1 ∧
        p'.cadence = p.cadence.ticked force (reportAccepted trace) := by
  rw [poll_eq]
  refine Ensures.question fun power => Ensures.question fun report => ?_
  refine (readFor_shows _ _).mono ?_
  rintro rest ⟨outcome, p'⟩ ⟨hcadence, hread, hreport⟩
  have hrest : reportAccepted rest = false := reportAccepted_eq_false hreport
  refine ⟨?_, ?_⟩
  · rw [← hread]
    exact readOf_report _ _
  · have haccepted : reportAccepted (⟨.readPower, power⟩ ::
        ⟨.channel (.call (.reportDevice (.of p.cadence.screenOn power))), report⟩ :: rest)
          = report.isOk := by
      cases report with
      | ok reply => rfl
      | error e => exact hrest
    rw [hcadence]
    exact congrArg (p.cadence.ticked force) haccepted.symm

theorem setUp_cadence : Ensures p.setUp fun _ (_, p') => p'.cadence = p.cadence := by
  refine Ensures.bind (.self (p.plan.run _)) ?_
  rintro trace ⟨ok, a⟩ -
  exact Ensures.done rfl

/-- What an attempt to set up shows: that it was made, and no read. -/
theorem setUp_shows :
    Ensures p.setUp fun trace (_, p') =>
      p'.cadence = p.cadence ∧ triedSetup trace = true ∧
        (∀ request ∈ requests trace, request.Preparatory) ∧ reportAccepted trace = false := by
  refine Ensures.mono (p.setUp_cadence.and (p.setUp_starts.and p.setUp_ensures)) ?_
  rintro trace ⟨ok, p'⟩ ⟨hcadence, hstarts, hprepares, -⟩
  have hrequests : ∀ request ∈ requests trace, request.Preparatory := by
    intro request hrequest
    obtain ⟨answer, hmem⟩ := mem_requests.mp hrequest
    exact hprepares _ hmem
  refine ⟨hcadence, ?_, hrequests, reportAccepted_eq_false fun device => hrequests _⟩
  exact List.any_eq_true.mpr ⟨_, List.mem_filterMap.mpr ⟨_, hstarts, rfl⟩, rfl⟩

/-- A look at the channel shows nothing. -/
theorem Looks.shows {trace : List (Exchange Effects)} (h : Looks trace) :
    requests trace = [] ∧ triedSetup trace = false ∧ reportAccepted trace = false := by
  have hrequests : requests trace = [] := by
    refine List.eq_nil_iff_forall_not_mem.mpr fun request hrequest => ?_
    obtain ⟨answer, hmem⟩ := mem_requests.mp hrequest
    cases h _ hmem
  refine ⟨hrequests, ?_, reportAccepted_eq_false (by simp [hrequests])⟩
  refine List.any_eq_false.mpr fun change hchange => ?_
  obtain ⟨⟨op, answer⟩, hmem, heq⟩ := List.mem_filterMap.mp hchange
  cases h _ hmem
  cases heq

/-- Every tick is a regular beat. -/
theorem tick_regular (force : Bool) :
    Ensures (p.tick force) fun trace (_, p') =>
      (Beat.ofTick force p.cadence trace p'.cadence).Regular := by
  refine Ensures.bind (isAlive_ensures p.connection) fun look alive looked => ?_
  obtain ⟨hlook, hlookSetup, hlookReport⟩ := looked.shows
  cases alive with
  | true =>
    refine Ensures.mono ((p.poll_asks force).and (p.poll_moves force)) ?_
    rintro trace ⟨outcome, p'⟩ ⟨hasked, hread, hcadence⟩
    have htried := not_triedSetup_of_polls hasked
    have hregular := Beat.Regular.read p.cadence force false (reportAccepted trace)
    simpa [Beat.ofTick, hlook, hlookSetup, hlookReport, htried, hread, hcadence] using hregular
  | false =>
    refine Ensures.bind p.setUp_shows ?_
    rintro setup ⟨ok, q⟩ ⟨hq, htried, hprepares, hreport⟩
    cases ok with
    | false =>
      have hnone : readOf (requests setup) = none := by
        rw [← List.append_nil (requests setup), readOf_append_of_preparatory hprepares]
        rfl
      have hregular := Beat.Regular.unready p.cadence force false
      refine Ensures.done ?_
      simpa [Beat.ofTick, hlook, hlookSetup, hlookReport, htried, hreport, hnone, hq]
        using hregular
    | true =>
      refine (q.poll_moves true).mono ?_
      rintro trace ⟨outcome, p'⟩ ⟨hread, hcadence⟩
      have hregular := Beat.Regular.read p.cadence force true (reportAccepted trace)
      rw [hq] at hread hcadence
      simpa [Beat.ofTick, hlook, hlookSetup, hlookReport, htried, hreport, hcadence, hread,
        readOf_append_of_preparatory hprepares] using hregular

end Poller

/-! ### Runs -/

namespace Session

/-- The beats of a wake with this conversation. -/
def beats (s : Session) (wake : Wake) (trace : List (Exchange Effects)) (s' : Session) :
    List Beat :=
  let c := s.poller.cadence
  let c' := s'.poller.cadence
  match wake with
  | .tick => [.ofTick false c trace c']
  | .command .forceRefresh => [.ofTick true c trace c']
  | .command (.displayChanged true) =>
    [⟨c, .screen true, c.setScreen true⟩, .ofTick true (c.setScreen true) trace c']
  | .command (.displayChanged false) => [⟨c, .screen false, c'⟩]
  | .command (.reconfigure polling) => [⟨c, .threshold polling.skipThreshold, c'⟩]
  | .command .shutdown => []

/-- The states of a session after so many wakes, with the beats of all of them. -/
inductive Paces (s : Session) : List Beat → Session → Prop where
  | start : Paces s [] s
  | wake {beats s' s'' now wake action trace} (run : Paces s beats s')
      (handled : s'.handle now wake = some action) (followed : Follows action trace s'') :
      Paces s (beats ++ s'.beats wake trace s'') s''

theorem tick_regular (s : Session) (force : Bool) :
    Ensures (s.tick force) fun trace s' =>
      (Beat.ofTick force s.poller.cadence trace s'.poller.cadence).Regular := by
  refine Ensures.bind (s.poller.tick_regular force) ?_
  rintro trace ⟨outcome, p'⟩ hregular
  refine Ensures.done ?_
  rw [List.append_nil]
  exact hregular

/-- The beats of every wake are regular. -/
theorem handle_keeps {s : Session} {now : Nat} {wake : Wake} {action : Action Session}
    (h : s.handle now wake = some action) :
    Ensures action fun trace s' =>
      s.poller.cadence.Keeps (s.beats wake trace s') s'.poller.cadence := by
  cases wake with
  | tick =>
    cases h
    exact (tick_regular _ false).mono fun _ _ hregular => .single hregular
  | command command =>
    cases command with
    | forceRefresh =>
      cases h
      exact (s.tick_regular true).mono fun _ _ hregular => .single hregular
    | displayChanged on =>
      cases h
      cases on with
      | true =>
        refine (tick_regular _ true).mono fun _ _ hregular => ?_
        exact .cons (.screen s.poller.cadence true) (.single hregular)
      | false => exact Ensures.done (.single (.screen s.poller.cadence false))
    | reconfigure polling =>
      rw [handle_reconfigure] at h
      cases h
      exact Ensures.done (.single (.threshold s.poller.cadence polling.skipThreshold))
    | shutdown => cases h

theorem Paces.keeps {s s' : Session} {beats : List Beat} (run : s.Paces beats s') :
    s.poller.cadence.Keeps beats s'.poller.cadence := by
  induction run with
  | start => exact .nil _
  | wake run handled followed ih => exact ih.append (handle_keeps handled followed)

end Session

end Overseer
