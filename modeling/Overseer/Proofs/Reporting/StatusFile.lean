import Overseer.Proofs.Files.Writing
import Overseer.Proofs.Toml.Written
import Overseer.Proofs.Wire.Reports
import Overseer.Status.Summary
import Overseer.Text.Occurrence

/-!
The status file is read as it was written.

A summary is a document of lines (`StatusSummary.text_eq`), one for every field that is there. The
texts in it are versions, words and times, which need no escapes; the numbers fit the integers of a
document. So reading its text gives the summary back, and the name of a field that is absent occurs
nowhere in it. `status_round_trip` is the main statement.
-/

namespace Overseer

open Toml (Line Denotes isVerbatim denotes_string denotes_bool denotes_integer denotes_natural)

/-! ### Summaries as documents -/

/-- A character that needs no escape and is no underscore. -/
def isSimple (c : Char) : Bool := isVerbatim c && c != '_'

/-- Nothing in the text needs an escape or could be taken for a name with an underscore. -/
def IsSimple (text : String) : Prop := text.toList.all isSimple = true

theorem IsSimple.verbatim {text : String} (h : IsSimple text) :
    ∀ c ∈ text.toList, isVerbatim c = true := by
  intro c hc
  exact (Bool.and_eq_true_iff.mp (List.all_eq_true.mp h c hc)).1

theorem IsSimple.not_mem {text : String} (h : IsSimple text) : '_' ∉ text.toList := by
  intro hmem
  exact absurd (List.all_eq_true.mp h '_' hmem) (by decide)

namespace StatusSummary

/-- The lines of a summary. -/
def lines (s : StatusSummary) : List Line :=
  [⟨"version", (stringText s.version).toList, .string s.version⟩,
    ⟨"setup_status", (stringText s.setup.word).toList, .string s.setup.word⟩,
    ⟨"computing", (boolText s.computing).toList, .bool s.computing⟩]
  ++ s.taskSuspendReason.toList.map (fun r =>
    ⟨"task_suspend_reason", (reasonText r).toList, .integer r.code.toInt⟩)
  ++ s.networkSuspendReason.toList.map (fun r =>
    ⟨"network_suspend_reason", (reasonText r).toList, .integer r.code.toInt⟩)
  ++ [⟨"tasks", (toString s.tasks).toList, .integer s.tasks⟩,
    ⟨"projects", (toString s.projects).toList, .integer s.projects⟩,
    ⟨"transfers", (toString s.transfers).toList, .integer s.transfers⟩,
    ⟨"notices", (toString s.notices).toList, .integer s.notices⟩]
  ++ s.lastUpdate.toList.map (fun t => ⟨"last_update", (stringText t).toList, .string t⟩)
  ++ [⟨"written_at", (stringText s.writtenAt).toList, .string s.writtenAt⟩]

/-- What can be in a status file: texts without escapes, reasons that some code stands for, and
counts that fit an integer. -/
structure Writable (s : StatusSummary) : Prop where
  version : IsSimple s.version
  taskSuspendReason : ∀ r ∈ s.taskSuspendReason, r.Coded
  networkSuspendReason : ∀ r ∈ s.networkSuspendReason, r.Coded
  tasks : s.tasks < 0x8000000000000000
  projects : s.projects < 0x8000000000000000
  transfers : s.transfers < 0x8000000000000000
  notices : s.notices < 0x8000000000000000
  lastUpdate : ∀ t ∈ s.lastUpdate, IsSimple t
  writtenAt : IsSimple s.writtenAt

theorem toList_line (name value : String) :
    (line name value).toList = name.toList ++ ' ' :: '=' :: ' ' :: (value.toList ++ ['\n']) := by
  simp [line]

/-- The text of a summary is its lines, one after the other. -/
theorem text_eq (s : StatusSummary) : s.text = String.ofList (s.lines.flatMap Line.chars) := by
  apply String.toList_inj.mp
  rw [String.toList_ofList]
  cases htask : s.taskSuspendReason <;> cases hnetwork : s.networkSuspendReason <;>
    cases hlast : s.lastUpdate <;>
    simp [text, lines, line?, htask, hnetwork, hlast, toList_line, Line.chars]

theorem names_nodup (s : StatusSummary) : (s.lines.map Line.name).Nodup := by
  cases htask : s.taskSuspendReason <;> cases hnetwork : s.networkSuspendReason <;>
    cases hlast : s.lastUpdate <;>
    simp [lines, htask, hnetwork, hlast]

/-! ### Reading them -/

section Lines

variable {name : String}

theorem sound_text {text : String} (hname : name ≠ "")
    (hbare : name.toList.all Toml.isBare = true) (h : IsSimple text) :
    Line.Sound ⟨name, (stringText text).toList, .string text⟩ where
  named := hname
  bare := List.all_eq_true.mp hbare
  denotes := denotes_string h.verbatim

theorem sound_bool (hname : name ≠ "") (hbare : name.toList.all Toml.isBare = true)
    (b : Bool) : Line.Sound ⟨name, (boolText b).toList, .bool b⟩ where
  named := hname
  bare := List.all_eq_true.mp hbare
  denotes := denotes_bool b

theorem sound_reason (hname : name ≠ "") (hbare : name.toList.all Toml.isBare = true)
    (r : SuspendReason) : Line.Sound ⟨name, (reasonText r).toList, .integer r.code.toInt⟩ where
  named := hname
  bare := List.all_eq_true.mp hbare
  denotes := by
    have hlow := r.code.le_toInt
    have hhigh := r.code.toInt_lt
    exact denotes_integer (by omega) (by omega)

theorem sound_count {n : Nat} (hname : name ≠ "")
    (hbare : name.toList.all Toml.isBare = true) (h : n < 0x8000000000000000) :
    Line.Sound ⟨name, (toString n).toList, .integer n⟩ where
  named := hname
  bare := List.all_eq_true.mp hbare
  denotes := denotes_natural h

end Lines

theorem isSimple_word (status : SetupStatus) : IsSimple status.word := by
  cases status <;> rfl

theorem lines_sound {s : StatusSummary} (h : s.Writable) : ∀ l ∈ s.lines, l.Sound := by
  simp only [lines, List.forall_mem_append, List.forall_mem_cons, List.forall_mem_map,
    Option.mem_toList, List.not_mem_nil, false_implies, implies_true, and_true]
  refine ⟨⟨⟨⟨⟨⟨?_, ?_, ?_⟩, ?_⟩, ?_⟩, ?_, ?_, ?_, ?_⟩, ?_⟩, ?_⟩
  · exact sound_text (by decide) (by decide) h.version
  · exact sound_text (by decide) (by decide) (isSimple_word _)
  · exact sound_bool (by decide) (by decide) s.computing
  · exact fun r _ => sound_reason (by decide) (by decide) r
  · exact fun r _ => sound_reason (by decide) (by decide) r
  · exact sound_count (by decide) (by decide) h.tasks
  · exact sound_count (by decide) (by decide) h.projects
  · exact sound_count (by decide) (by decide) h.transfers
  · exact sound_count (by decide) (by decide) h.notices
  · exact fun t ht => sound_text (by decide) (by decide) (h.lastUpdate t ht)
  · exact sound_text (by decide) (by decide) h.writtenAt

/-! ### Fields -/

theorem setup?_word (status : SetupStatus) : setup? (.string status.word) = some status := by
  cases status <;> rfl

/-- A code is read as the reason that it stands for. -/
theorem reason?_code {r : SuspendReason} (h : r.Coded) :
    reason? (.integer r.code.toInt) = some r := by
  obtain ⟨c, rfl⟩ := h
  have hlow := c.le_toInt
  have hhigh := c.toInt_lt
  rw [SuspendReason.code_ofCode, reason?, if_pos (by omega), Int32.ofInt_toInt]

theorem count?_of_lt {n : Nat} (h : n < 0x8000000000000000) :
    count? (.integer n) = some n := by
  have hsize : n < UInt64.size := Nat.lt_trans h (by decide)
  exact if_pos hsize

/-- The fields of a summary are found among the entries of its lines. -/
theorem ofEntries?_lines {s : StatusSummary} (h : s.Writable) :
    ofEntries? (s.lines.map Line.entry) = some s := by
  have htasks := count?_of_lt h.tasks
  have hprojects := count?_of_lt h.projects
  have htransfers := count?_of_lt h.transfers
  have hnotices := count?_of_lt h.notices
  have htask := fun r hr => reason?_code (h.taskSuspendReason r hr)
  have hnetwork := fun r hr => reason?_code (h.networkSuspendReason r hr)
  obtain ⟨version, setup, computing, task, network, tasks, projects, transfers, notices, last,
    written⟩ := s
  cases task <;> cases network <;> cases last <;>
    simp_all [ofEntries?, lines, Line.entry, Toml.Entries.required, Toml.Entries.optional,
      Toml.Entries.field, List.lookup_cons, setup?_word, Toml.Value.text?, Toml.Value.bool?]

/-- What was written is read back. -/
theorem ofText?_text {s : StatusSummary} (h : s.Writable) : ofText? s.text = some s := by
  rw [ofText?, text_eq, Toml.read_lines (lines_sound h) s.names_nodup, Option.bind_some]
  exact ofEntries?_lines h

/-! ### Names in the text -/

/-- What holds no separator and occurs in a text occurs on one side of it. -/
theorem infix_append_cons {needle first second : List Char} {separator : Char}
    (h : separator ∉ needle) :
    needle <:+: first ++ separator :: second ↔ needle <:+: first ∨ needle <:+: second := by
  constructor
  · rintro ⟨before, after, heq⟩
    rw [List.append_assoc] at heq
    rcases List.append_eq_append_iff.mp heq with ⟨middle, rfl, hrest⟩ | ⟨middle, rfl, hrest⟩
    · rcases List.append_eq_append_iff.mp hrest with ⟨last, rfl, -⟩ | ⟨last, rfl, hlast⟩
      · exact .inl ⟨before, last, by simp⟩
      · cases last with
        | nil => exact .inl ⟨before, [], by simp⟩
        | cons c last =>
          obtain ⟨rfl, -⟩ := List.cons.inj hlast
          exact absurd (by simp) h
    · cases middle with
      | nil =>
        cases needle with
        | nil => exact .inl List.nil_infix
        | cons c needle =>
          obtain ⟨rfl, -⟩ := List.cons.inj hrest
          exact absurd List.mem_cons_self h
      | cons c middle =>
        obtain ⟨rfl, rfl⟩ := List.cons.inj hrest
        exact .inr ⟨middle, after, by simp⟩
  · rintro (h | h)
    · exact h.trans (List.prefix_append ..).isInfix
    · exact h.trans ((List.suffix_cons ..).trans (List.suffix_append ..)).isInfix

/-- A name with an underscore and no blanks. -/
structure Underscored (name : List Char) : Prop where
  underscore : '_' ∈ name
  unbroken : '\n' ∉ name
  unspaced : ' ' ∉ name

/-- Where no value holds an underscore, such a name occurs in the lines as a name only. -/
theorem infix_lines_iff {name : List Char} (h : Underscored name) {lines : List Line}
    (values : ∀ l ∈ lines, '_' ∉ l.text) :
    name <:+: lines.flatMap Line.chars ↔ ∃ l ∈ lines, name <:+: l.name.toList := by
  have hvalue {text : List Char} (htext : '_' ∉ text) : ¬name <:+: text :=
    fun hwithin => htext (List.IsInfix.subset hwithin h.underscore)
  induction lines with
  | nil => simpa using hvalue List.not_mem_nil
  | cons l rest ih =>
    obtain ⟨hl, hrest⟩ := List.forall_mem_cons.mp values
    have hchars : (l :: rest).flatMap Line.chars =
        l.name.toList ++ ' ' :: (['='] ++ ' ' :: (l.text ++ '\n' :: rest.flatMap Line.chars)) := by
      simp [Line.chars]
    have hequals : ¬name <:+: ['='] := hvalue (by decide)
    rw [hchars, infix_append_cons h.unspaced, infix_append_cons h.unspaced,
      infix_append_cons h.unbroken]
    simp only [hequals, hvalue hl, false_or, ih hrest, List.exists_mem_cons_iff]

theorem not_mem_stringText {text : String} (h : IsSimple text) :
    '_' ∉ (stringText text).toList := by
  simpa [stringText] using h.not_mem

theorem not_mem_toDigits (n : Nat) : '_' ∉ Nat.toDigits 10 n := by
  intro hmem
  exact absurd (Toml.isDigit_toDigits n '_' hmem) (by decide)

theorem not_mem_toString (i : Int) : '_' ∉ (toString i).toList := by
  cases i with
  | ofNat n =>
    change '_' ∉ n.repr.toList
    rw [Nat.toList_repr]
    exact not_mem_toDigits n
  | negSucc n =>
    change '_' ∉ ("-" ++ (n + 1).repr).toList
    rw [String.toList_append, Nat.toList_repr]
    simp

/-- No value in a status file holds an underscore. -/
theorem not_mem_text_of_mem_lines {s : StatusSummary} (h : s.Writable) :
    ∀ l ∈ s.lines, '_' ∉ l.text := by
  have hbool (b : Bool) : '_' ∉ (boolText b).toList := by cases b <;> decide
  have hcount (n : Nat) : '_' ∉ (toString n).toList := not_mem_toString n
  simp only [lines, List.forall_mem_append, List.forall_mem_cons, List.forall_mem_map,
    Option.mem_toList, List.not_mem_nil, false_implies, implies_true, and_true]
  refine ⟨⟨⟨⟨⟨⟨?_, ?_, ?_⟩, ?_⟩, ?_⟩, ?_, ?_, ?_, ?_⟩, ?_⟩, ?_⟩
  · exact not_mem_stringText h.version
  · exact not_mem_stringText (isSimple_word _)
  · exact hbool _
  · exact fun r _ => not_mem_toString _
  · exact fun r _ => not_mem_toString _
  · exact hcount _
  · exact hcount _
  · exact hcount _
  · exact hcount _
  · exact fun t ht => not_mem_stringText (h.lastUpdate t ht)
  · exact not_mem_stringText h.writtenAt

/-- The fields that may be absent, each with whether it is there. -/
def optionals (s : StatusSummary) : List (String × Bool) :=
  [("task_suspend_reason", s.taskSuspendReason.isSome),
    ("network_suspend_reason", s.networkSuspendReason.isSome),
    ("last_update", s.lastUpdate.isSome)]

/-- The name of a field occurs in the text if the field is there, and otherwise nowhere. -/
theorem occursIn_optionals {s : StatusSummary} (h : s.Writable) :
    ∀ field ∈ s.optionals, Text.occursIn field.1 s.text = field.2 := by
  have hoccurs {name : String} (hname : Underscored name.toList) :
      Text.occursIn name s.text = (s.lines.map Line.name).any (Text.occursIn name) := by
    rw [Bool.eq_iff_iff, Text.occursIn_iff, text_eq, String.toList_ofList,
      infix_lines_iff hname (not_mem_text_of_mem_lines h)]
    simp [Text.occursIn_iff]
  have hnames : (s.lines.map Line.name) = ["version", "setup_status", "computing"]
      ++ (if s.taskSuspendReason.isSome then ["task_suspend_reason"] else [])
      ++ (if s.networkSuspendReason.isSome then ["network_suspend_reason"] else [])
      ++ ["tasks", "projects", "transfers", "notices"]
      ++ (if s.lastUpdate.isSome then ["last_update"] else []) ++ ["written_at"] := by
    cases htask : s.taskSuspendReason <;> cases hnetwork : s.networkSuspendReason <;>
      cases hlast : s.lastUpdate <;> simp [lines, htask, hnetwork, hlast]
  simp only [optionals, List.forall_mem_cons, List.not_mem_nil, false_implies, implies_true,
    and_true]
  rw [hoccurs ⟨by decide, by decide, by decide⟩, hoccurs ⟨by decide, by decide, by decide⟩,
    hoccurs ⟨by decide, by decide, by decide⟩, hnames]
  cases s.taskSuspendReason.isSome <;> cases s.networkSuspendReason.isSome <;>
    cases s.lastUpdate.isSome <;> decide

end StatusSummary

/-! ### Summaries of snapshots -/

namespace Timestamp

/-- A character of the text of a time. -/
def InText (c : Char) : Prop := c.isDigit = true ∨ c ∈ ['-', 'T', ':', '.', '+']

theorem InText.isSimple {c : Char} (h : InText c) : isSimple c = true := by
  rcases h with hdigit | hmark
  · have hrange : '0' ≤ c ∧ c ≤ '9' := by simpa [Char.isDigit, Char.le_def] using hdigit
    have hlow : 48 ≤ c.toNat := hrange.1
    have hhigh : c.toNat ≤ 57 := hrange.2
    have hne (d : Char) (hd : d.toNat < 48 ∨ 57 < d.toNat) : c ≠ d := by
      rintro rfl
      omega
    have hplain : Toml.isPlain c = true := by
      simp only [Toml.isPlain, decide_eq_true_eq]
      omega
    have hverbatim : isVerbatim c = true := by
      simp only [isVerbatim, decide_eq_true_eq]
      exact ⟨hplain, hne _ (by decide), hne _ (by decide)⟩
    exact Bool.and_eq_true_iff.mpr ⟨hverbatim, bne_iff_ne.mpr (hne _ (by decide))⟩
  · have hmarks : ['-', 'T', ':', '.', '+'].all Overseer.isSimple = true := by decide
    exact List.all_eq_true.mp hmarks c hmark

theorem inText_places (count n : Nat) : ∀ c ∈ places count n, InText c := by
  induction count generalizing n with
  | zero => nofun
  | succ count ih =>
    have hdigit : ∀ d < 10, (Char.ofNat (48 + d)).isDigit = true := by decide
    refine List.forall_mem_append.mpr ⟨ih (n / 10), List.forall_mem_singleton.mpr (.inl ?_)⟩
    exact hdigit (n % 10) (Nat.mod_lt n (by decide))

theorem inText_yearText (year : Nat) : ∀ c ∈ yearText year, InText c := by
  unfold yearText
  split
  · exact inText_places 4 year
  · refine List.forall_mem_cons.mpr ⟨.inr (by decide), ?_⟩
    intro c hc
    exact .inl (Toml.isDigit_toDigits year c hc)

theorem inText_fractionText (nanos : Nat) : ∀ c ∈ fractionText nanos, InText c := by
  have hpoint : InText '.' := .inr (by decide)
  unfold fractionText
  split
  · nofun
  · split
    · exact List.forall_mem_cons.mpr ⟨hpoint, inText_places _ _⟩
    · split
      · exact List.forall_mem_cons.mpr ⟨hpoint, inText_places _ _⟩
      · exact List.forall_mem_cons.mpr ⟨hpoint, inText_places _ _⟩

/-- The text of a time needs no escapes. -/
theorem isSimple_text (t : Timestamp) : IsSimple t.text := by
  have hmark (c : Char) (h : c ∈ ['-', 'T', ':', '.', '+']) : InText c := .inr h
  have hzero : InText '0' := .inl rfl
  have hchars : ∀ c ∈ t.text.toList, InText c := by
    simp only [text, String.toList_ofList, List.forall_mem_append, List.forall_mem_cons,
      List.not_mem_nil, false_implies, implies_true, and_true]
    refine ⟨⟨⟨⟨⟨⟨⟨?_, ?_, ?_⟩, ?_, ?_⟩, ?_, ?_⟩, ?_, ?_⟩, ?_, ?_⟩, ?_⟩, ?_, hzero, hzero, ?_,
      hzero, hzero⟩
    · exact inText_yearText _
    · exact hmark '-' (by decide)
    · exact inText_places 2 _
    · exact hmark '-' (by decide)
    · exact inText_places 2 _
    · exact hmark 'T' (by decide)
    · exact inText_places 2 _
    · exact hmark ':' (by decide)
    · exact inText_places 2 _
    · exact hmark ':' (by decide)
    · exact inText_places 2 _
    · exact inText_fractionText _
    · exact hmark '+' (by decide)
    · exact hmark ':' (by decide)
  exact List.all_eq_true.mpr fun c hc => (hchars c hc).isSimple

end Timestamp

/-- What holds of a full read in memory: codes stand for its reasons, and no list is longer than
the memory. -/
structure FullRead.Held (read : FullRead) : Prop where
  status : read.status.Sendable
  tasks : read.tasks.length < 0x8000000000000000
  projects : read.projects.length < 0x8000000000000000
  transfers : read.transfers.length < 0x8000000000000000
  notices : read.notices.length < 0x8000000000000000

namespace StatusSummary

/-- The summary of a snapshot can be in a status file. -/
theorem writable_ofSnapshot {s : Snapshot} (h : ∀ read ∈ s.worker, read.Held) (now : Timestamp) :
    (ofSnapshot s now).Writable := by
  have hreason {f : FullRead → SuspendReason} (hf : ∀ read : FullRead, read.Held → (f read).Coded) :
      ∀ r ∈ s.worker.map f, r.Coded := by
    intro r hr
    obtain ⟨read, hread, rfl⟩ := Option.map_eq_some_iff.mp hr
    exact hf read (h read hread)
  have hcount {f : FullRead → Nat}
      (hf : ∀ read : FullRead, read.Held → f read < 0x8000000000000000) :
      (s.worker.map f).getD 0 < 0x8000000000000000 := by
    cases hworker : s.worker with
    | none => exact Nat.zero_lt_succ _
    | some read => exact hf read (h read hworker)
  constructor
  · exact (rfl : IsSimple currentVersion)
  · exact hreason fun _ hread => hread.status.task
  · exact hreason fun _ hread => hread.status.network
  · exact hcount fun _ hread => hread.tasks
  · exact hcount fun _ hread => hread.projects
  · exact hcount fun _ hread => hread.transfers
  · exact hcount fun _ hread => hread.notices
  · intro t ht
    obtain ⟨time, -, rfl⟩ := Option.map_eq_some_iff.mp ht
    exact time.isSimple_text
  · exact now.isSimple_text

/-! ### The file -/

/-- The summary that the content of a file gives. -/
def ofBytes? (content : ByteArray) : Option StatusSummary :=
  (String.fromUTF8? content).bind ofText?

theorem ofBytes?_text {s : StatusSummary} (h : s.Writable) : ofBytes? s.text.toUTF8 = some s := by
  rw [ofBytes?, Text.fromUTF8?_toUTF8, Option.bind_some]
  exact ofText?_text h

/-- How a write of the summary ends: its file gives the summary, unless the files refused. -/
def Stands (path : Path) (s : StatusSummary) (moments : List Moment) (t : Tree) : Prop :=
  Refused path moments ∨
    ∃ content mode, t.holding? path.place = some (.file content mode) ∧ ofBytes? content = some s

theorem Lands.stands {s : StatusSummary} {path : Path} {moments : List Moment} {t : Tree}
    (h : s.Lands path moments t) (writable : s.Writable) : s.Stands path moments t :=
  h.imp_right fun ⟨mode, hfile⟩ => ⟨_, mode, hfile, ofBytes?_text writable⟩

theorem writeFile_stands {s : StatusSummary} (h : s.Writable) (path : Path) (t : Tree) :
    Leaves t (s.writeFile path) fun moments _ t' => s.Stands path moments t' :=
  (s.writeFile_leaves path t).mono fun _ _ _ hlands => hlands.stands h

/-- Nothing of a summary is lost on its way through the status file. -/
structure RoundTrip (s : StatusSummary) : Prop where
  read_back : ofText? s.text = some s
  /-- The name of a field that may be absent occurs just when it is there. -/
  optionals : ∀ field ∈ s.optionals, Text.occursIn field.1 s.text = field.2
  file : ∀ path t, Leaves t (s.writeFile path) fun moments _ t' => s.Stands path moments t'

/-- The status file of every snapshot, at every time, is read as it was written. -/
theorem status_round_trip (s : Snapshot) (now : Timestamp) (h : ∀ read ∈ s.worker, read.Held) :
    (ofSnapshot s now).RoundTrip := by
  have hwritable := writable_ofSnapshot h now
  constructor
  · exact ofText?_text hwritable
  · exact occursIn_optionals hwritable
  · exact writeFile_stands hwritable

/-- A worker that suspends for a reason that has no name, before any read has a time. -/
theorem status_round_trip_unnamed :
    let read : FullRead :=
      { status := ⟨.other (-5), .wifiState, 2, 2⟩
        tasks := []
        projects := [⟨"https://a.b/", "a", false⟩]
        transfers := []
        host := ⟨"h", "linux", "6", "", 4⟩
        accountManager := ⟨"", "", false⟩
        notices := [] }
    let s : Snapshot := { setup := .error, worker := some read }
    (∀ read ∈ s.worker, read.Held) ∧ (ofSnapshot s ⟨1⟩).RoundTrip ∧
      (ofSnapshot s ⟨1⟩).taskSuspendReason = some (.ofCode (-5)) ∧
      (ofSnapshot s ⟨1⟩).lastUpdate = none := by
  intro read s
  have hheld : ∀ read ∈ s.worker, read.Held := by
    rintro _ ⟨⟩
    refine ⟨⟨⟨-5, by decide⟩, ⟨4097, by decide⟩⟩, ?_, ?_, ?_, ?_⟩ <;> decide
  exact ⟨hheld, status_round_trip s ⟨1⟩ hheld, by decide, rfl⟩

end StatusSummary

end Overseer
