import Overseer.Proofs.Files.PlainNames
import Overseer.Proofs.Loading.Fields

/-!
What a configuration file overrides.

In a document whose sections are tables every field is on its own: it takes the value that is given
for it, or else its default, wherever it stands and whatever stands beside it
(`Config.ofToml?_eq_some_iff`), and the document is refused if some field is given a value that
stands for nothing of its kind (`Config.ofToml?_isSome_iff`). So a file is accepted as the default
configuration with nothing but the given fields changed, or it is refused as a whole
(`Config.overriding`).
-/

namespace Overseer.Config

open Toml (Value Entries reads_text reads_list)

/-! ### Documents -/

section Documents

variable {entries : Entries} {name key : String} {v : Value}

/-- The entries of a section; none if it is missing. -/
def sectionOf (entries : Entries) (name : String) : Entries :=
  match entries.lookup name with
  | some (.table _ inner) => inner
  | _ => []

/-- A value is given for a field of a section. -/
def Gives (entries : Entries) (name key : String) (v : Value) : Prop :=
  ∃ origin inner, (name, .table origin inner) ∈ entries ∧ (key, v) ∈ inner

theorem sectionOf_of_mem (once : entries.Once) {origin : Toml.Origin} {inner : Entries}
    (h : (name, .table origin inner) ∈ entries) : sectionOf entries name = inner := by
  rw [sectionOf, (lookup_eq_some_iff_mem once.names).mpr h]

theorem sectionOf_of_not_mem (h : ∀ v, (name, v) ∉ entries) : sectionOf entries name = [] := by
  rw [sectionOf, Entries.lookup_eq_none_iff_not_mem.mpr h]

/-- Every section that is there is a table. -/
def TablesOnly (entries : Entries) : Prop :=
  ∀ (part : Part) (v : Value), (part.name, v) ∈ entries → ∃ origin inner, v = .table origin inner

instance : Decidable (TablesOnly entries) :=
  decidable_of_iff (∀ entry ∈ entries, ∀ part ∈ Part.all, part.name = entry.1 →
    entry.2.isTable = true) <| by
    constructor
    · intro h part v hmem
      exact Value.isTable_iff.mp (h _ hmem part part.mem_all rfl)
    · rintro tables ⟨_, v⟩ hmem part - rfl
      exact Value.isTable_iff.mpr (tables part v hmem)

/-- A section is there, and is a table, or it is missing. -/
theorem TablesOnly.cases (tables : TablesOnly entries) (part : Part) :
    (∃ origin inner, (part.name, .table origin inner) ∈ entries) ∨
      ∀ v, (part.name, v) ∉ entries := by
  by_cases hgiven : ∃ v, (part.name, v) ∈ entries
  · obtain ⟨v, hv⟩ := hgiven
    obtain ⟨origin, inner, rfl⟩ := tables part v hv
    exact .inl ⟨origin, inner, hv⟩
  · exact .inr (not_exists.mp hgiven)

theorem TablesOnly.gives_iff (tables : TablesOnly entries) (once : entries.Once) (part : Part) :
    Gives entries part.name key v ↔ (key, v) ∈ sectionOf entries part.name := by
  rcases tables.cases part with ⟨origin, inner, hmem⟩ | hnone
  · rw [sectionOf_of_mem once hmem]
    constructor
    · rintro ⟨origin', inner', hmem', hv⟩
      cases once.eq_of_mem hmem hmem'
      exact hv
    · intro hv
      exact ⟨origin, inner, hmem, hv⟩
  · rw [sectionOf_of_not_mem hnone]
    constructor
    · rintro ⟨origin, inner, hmem, -⟩
      exact absurd hmem (hnone _)
    · nofun

theorem TablesOnly.once_sectionOf (tables : TablesOnly entries) (once : entries.Once)
    (part : Part) : (sectionOf entries part.name).Once := by
  rcases tables.cases part with ⟨origin, inner, hmem⟩ | hnone
  · rw [sectionOf_of_mem once hmem]
    exact Value.once_table_iff.mp (once.each _ hmem)
  · rw [sectionOf_of_not_mem hnone]
    exact Entries.once_nil

/-- A missing section is read as if it were an empty table. -/
theorem TablesOnly.found (tables : TablesOnly entries) (once : entries.Once) (part : Part)
    (base : Config) : ∃ origin, part.found entries base =
      part.read (part.get base) (.table origin (sectionOf entries part.name)) := by
  rcases tables.cases part with ⟨origin, inner, hmem⟩ | hnone
  · refine ⟨origin, ?_⟩
    rw [sectionOf_of_mem once hmem]
    exact Entries.field_of_mem once hmem
  · refine ⟨.explicit, ?_⟩
    have hempty : part.read (part.get base) (.table .explicit []) = some (part.get base) := by
      apply ((part.readsFields (part.get base) .explicit []).given _).mpr
      refine ⟨trivial, fun p hp => ?_⟩
      obtain ⟨f, -, rfl⟩ := List.mem_map.mp hp
      rfl
    rw [sectionOf_of_not_mem hnone, hempty]
    exact Entries.field_of_not_mem hnone

/-- Reading a document gives the configuration in which each field takes what is given for it. -/
theorem ofToml?_eq_some_iff (tables : TablesOnly entries) (once : entries.Once)
    {base c : Config} : ofToml? base entries = some c ↔ ∀ part : Part, ∀ f ∈ part.fields,
      (sectionOf entries part.name).Takes f.key f.kind.holds (f.get (part.get base))
        (f.get (part.get c)) := by
  have hpart (part : Part) : part.found entries base = some (part.get c) ↔
      ∀ f ∈ part.fields, (sectionOf entries part.name).Takes f.key f.kind.holds
        (f.get (part.get base)) (f.get (part.get c)) := by
    obtain ⟨origin, hfound⟩ := tables.found once part base
    rw [hfound, (part.readsFields _ _ _).given, true_and, List.forall_mem_map]
    exact forall₂_congr fun f _ =>
      Entries.field_eq_some_iff (tables.once_sectionOf once part) f.kind.reads
  rw [(assembles base entries).given, true_and, List.forall_mem_map]
  constructor
  · intro h part
    exact (hpart part).mp (h part part.mem_all)
  · intro h part _
    exact (hpart part).mpr (h part)

/-- Reading a document fails if a field is given a value that stands for nothing of its kind, and
otherwise succeeds. -/
theorem ofToml?_isSome_iff (tables : TablesOnly entries) (once : entries.Once) {base : Config} :
    (ofToml? base entries).isSome = true ↔ ∀ part : Part, ∀ f ∈ part.fields, ∀ v,
      (f.key, v) ∈ sectionOf entries part.name → ∃ x, f.kind.holds v x := by
  have hpart (part : Part) : (part.found entries base).isSome = true ↔
      ∀ f ∈ part.fields, ∀ v, (f.key, v) ∈ sectionOf entries part.name →
        ∃ x, f.kind.holds v x := by
    obtain ⟨origin, hfound⟩ := tables.found once part base
    rw [hfound, (part.readsFields _ _ _).defined, List.forall_mem_map]
    exact forall₂_congr fun f _ =>
      Entries.field_isSome_iff (tables.once_sectionOf once part) f.kind.reads
  rw [(assembles base entries).defined, List.forall_mem_map]
  constructor
  · intro h part
    exact (hpart part).mp (h part part.mem_all)
  · intro h part _
    exact (hpart part).mpr (h part)

/-! ### Loading -/

/-- Each given field has the value that is given, and every other field its default. -/
structure Overrides (entries : Entries) (c : Config) : Prop where
  given : ∀ part : Part, ∀ f ∈ part.fields, ∀ v, Gives entries part.name f.key v →
    f.kind.holds v (f.get (part.get c))
  missing : ∀ part : Part, ∀ f ∈ part.fields, (∀ v, ¬Gives entries part.name f.key v) →
    f.get (part.get c) = f.get (part.get {})

/-- Some field is given a value of the wrong kind or out of its range. -/
def Misgiven (entries : Entries) : Prop :=
  ∃ part : Part, ∃ f ∈ part.fields, ∃ v, Gives entries part.name f.key v ∧ ∀ x, ¬f.kind.holds v x

/-- A name that is given for a file of the worker. -/
inductive NamesFile (entries : Entries) : String → Prop where
  | binary {v : Value} {text : String} (given : Gives entries "worker" "binary_name" v)
    (is : v.IsText text) : NamesFile entries text
  | authFile {v : Value} {text : String} (given : Gives entries "worker" "auth_file_name" v)
    (is : v.IsText text) : NamesFile entries text
  | auxName {v : Value} {auxFiles : List AuxFile} {aux : AuxFile}
    (given : Gives entries "worker" "aux_files" v) (is : v.IsList AuxFile.Given auxFiles)
    (mem : aux ∈ auxFiles) : NamesFile entries aux.name
  | auxTarget {v : Value} {auxFiles : List AuxFile} {aux : AuxFile}
    (given : Gives entries "worker" "aux_files" v) (is : v.IsList AuxFile.Given auxFiles)
    (mem : aux ∈ auxFiles) : NamesFile entries aux.targetName

theorem TablesOnly.overrides_iff (tables : TablesOnly entries) (once : entries.Once) {c : Config} :
    Overrides entries c ↔ ofToml? {} entries = some c := by
  rw [ofToml?_eq_some_iff tables once]
  constructor
  · intro overrides part f hf
    constructor
    · intro v hv
      exact overrides.given part f hf v ((tables.gives_iff once part).mpr hv)
    · intro hnone
      apply overrides.missing part f hf
      intro v hv
      exact hnone v ((tables.gives_iff once part).mp hv)
  · intro takes
    constructor
    · intro part f hf v hv
      exact (takes part f hf).given v ((tables.gives_iff once part).mp hv)
    · intro part f hf hnone
      apply (takes part f hf).missing
      intro v hv
      exact hnone v ((tables.gives_iff once part).mpr hv)

theorem TablesOnly.misgiven_iff (tables : TablesOnly entries) (once : entries.Once) :
    Misgiven entries ↔ ofToml? {} entries = none := by
  rw [← Option.not_isSome_iff_eq_none, ofToml?_isSome_iff tables once]
  constructor
  · rintro ⟨part, f, hf, v, hv, hnothing⟩ h
    obtain ⟨x, hx⟩ := h part f hf v ((tables.gives_iff once part).mp hv)
    exact hnothing x hx
  · intro h
    simp only [not_forall, not_exists] at h
    obtain ⟨part, f, hf, v, hv, hnothing⟩ := h
    exact ⟨part, f, hf, v, (tables.gives_iff once part).mpr hv, hnothing⟩

theorem Gives.once (given : Gives entries name key v) (once : entries.Once) : v.Once := by
  obtain ⟨origin, inner, hmem, hv⟩ := given
  exact (Value.once_table_iff.mp (once.each _ hmem)).each _ hv

section Names

variable {c : Config}

theorem mem_binary :
    (⟨"binary_name", .text, Worker.binaryName⟩ : Field Worker) ∈ Worker.fields := by
  simp [Worker.fields]

theorem mem_authFile :
    (⟨"auth_file_name", .text, Worker.authFileName⟩ : Field Worker) ∈ Worker.fields := by
  simp [Worker.fields]

theorem mem_auxFiles :
    (⟨"aux_files", .auxFiles, Worker.auxFiles⟩ : Field Worker) ∈ Worker.fields := by
  simp [Worker.fields]

/-- A name that is given is one of the names of the configuration. -/
theorem Overrides.joins (overrides : Overrides entries c) (once : entries.Once)
    (names : NamesFile entries name) : c.Joins name := by
  cases names with
  | binary given is =>
    have hsame := overrides.given .worker _ mem_binary _ given
    rw [reads_text.unique (given.once once) is hsame]
    exact .binary
  | authFile given is =>
    have hsame := overrides.given .worker _ mem_authFile _ given
    rw [reads_text.unique (given.once once) is hsame]
    exact .authFile
  | auxName given is mem =>
    have hsame := overrides.given .worker _ mem_auxFiles _ given
    rw [(reads_list AuxFile.reads).unique (given.once once) is hsame] at mem
    exact .auxName mem
  | auxTarget given is mem =>
    have hsame := overrides.given .worker _ mem_auxFiles _ given
    rw [(reads_list AuxFile.reads).unique (given.once once) is hsame] at mem
    exact .auxTarget mem

theorem Overrides.given_or_default (overrides : Overrides entries c) (part : Part)
    {f : Field part.Content} (hf : f ∈ part.fields) :
    (∃ v, Gives entries part.name f.key v ∧ f.kind.holds v (f.get (part.get c))) ∨
      f.get (part.get c) = f.get (part.get {}) := by
  by_cases hgiven : ∃ v, Gives entries part.name f.key v
  · obtain ⟨v, given⟩ := hgiven
    exact .inl ⟨v, given, overrides.given part f hf v given⟩
  · exact .inr (overrides.missing part f hf (not_exists.mp hgiven))

/-- A name of the configuration is given, or is one of the default names. -/
theorem Overrides.names (overrides : Overrides entries c) (joins : c.Joins name) :
    NamesFile entries name ∨ ({} : Config).Joins name := by
  have hbinary := overrides.given_or_default .worker mem_binary
  have hauthFile := overrides.given_or_default .worker mem_authFile
  have hauxFiles := overrides.given_or_default .worker mem_auxFiles
  cases joins with
  | binary =>
    rcases hbinary with ⟨v, given, is⟩ | hdefault
    · exact .inl (.binary given is)
    · change c.worker.binaryName = _ at hdefault
      rw [hdefault]
      exact .inr .binary
  | authFile =>
    rcases hauthFile with ⟨v, given, is⟩ | hdefault
    · exact .inl (.authFile given is)
    · change c.worker.authFileName = _ at hdefault
      rw [hdefault]
      exact .inr .authFile
  | auxName mem =>
    rcases hauxFiles with ⟨v, given, is⟩ | hdefault
    · exact .inl (.auxName given is mem)
    · change c.worker.auxFiles = _ at hdefault
      rw [hdefault] at mem
      exact .inr (.auxName mem)
  | auxTarget mem =>
    rcases hauxFiles with ⟨v, given, is⟩ | hdefault
    · exact .inl (.auxTarget given is mem)
    · change c.worker.auxFiles = _ at hdefault
      rw [hdefault] at mem
      exact .inr (.auxTarget mem)

/-- The default names are plain, so it is enough to look at those that are given. -/
theorem Overrides.plain_iff (overrides : Overrides entries c) (once : entries.Once) :
    (∀ name, c.Joins name → Path.isPlainName name = true) ↔
      ∀ name, NamesFile entries name → Path.isPlainName name = true := by
  constructor
  · intro h name names
    exact h name (overrides.joins once names)
  · intro h name joins
    rcases overrides.names joins with names | hdefault
    · exact h name names
    · have hmissing : ofReading (.error .notFound) = .ok {} := rfl
      exact badName?_eq_none_iff.mp (badName?_of_ofReading hmissing) name hdefault

end Names

end Documents

section Loading

variable {text : String} {t : Toml.Table}

theorem TablesOnly.accepted_iff (tables : TablesOnly t.entries) (hread : Toml.read text = some t)
    {c : Config} : ofReading (.ok text) = .ok c ↔
      Overrides t.entries c ∧ ∀ name, c.Joins name → Path.isPlainName name = true := by
  rw [ofReading, ofText_eq_ok_iff, hread, Option.bind_some, badName?_eq_none_iff,
    tables.overrides_iff (Toml.read_once hread)]

/-- Some configuration comes of a document unless a field or a name in it is at fault. -/
theorem TablesOnly.exists_accepted_iff (tables : TablesOnly t.entries)
    (hread : Toml.read text = some t) : (∃ c, ofReading (.ok text) = .ok c) ↔
      ¬Misgiven t.entries ∧ ∀ name, NamesFile t.entries name → Path.isPlainName name = true := by
  have once := Toml.read_once hread
  rw [tables.misgiven_iff once, ← ne_eq, Option.ne_none_iff_exists']
  constructor
  · rintro ⟨c, hc⟩
    obtain ⟨overrides, hplain⟩ := (tables.accepted_iff hread).mp hc
    exact ⟨⟨c, (tables.overrides_iff once).mp overrides⟩, (overrides.plain_iff once).mp hplain⟩
  · rintro ⟨⟨c, hc⟩, hplain⟩
    have overrides := (tables.overrides_iff once).mpr hc
    exact ⟨c, (tables.accepted_iff hread).mpr ⟨overrides, (overrides.plain_iff once).mpr hplain⟩⟩

theorem exists_error_iff {reading : Except IoFault String} :
    (∃ e, ofReading reading = .error e) ↔ ¬∃ c, ofReading reading = .ok c := by
  cases ofReading reading <;> simp

/-- A document that is read, with its sections given as tables, is accepted as the configuration in
which each given field has the value that is given and every other field its default, whatever else
stands in the document and in whatever order. It is refused as a whole exactly if some field is
given a value of the wrong kind or out of its range, or a name of a worker file is not plain. -/
theorem overriding (hread : Toml.read text = some t) (tables : TablesOnly t.entries) :
    (∀ c, ofReading (.ok text) = .ok c ↔
      Overrides t.entries c ∧ ∀ name, c.Joins name → Path.isPlainName name = true) ∧
    ((∃ e, ofReading (.ok text) = .error e) ↔
      Misgiven t.entries ∨ ∃ name, NamesFile t.entries name ∧ Path.isPlainName name = false) := by
  constructor
  · intro c
    exact tables.accepted_iff hread
  · rw [exists_error_iff, tables.exists_accepted_iff hread]
    simp only [not_and_or, not_not, not_forall, exists_prop, Bool.not_eq_true]

end Loading

/-- Fields of two sections are given, among others that no section has. -/
def strangeConfig : String :=
  "color = 1\n[display]\npoll_interval_ms = 500\n[paint]\ntag = [2]\n" ++
    "[worker]\ntag = true\nbinary_name = \"w\""

theorem overriding_strange :
    ∃ t c, Toml.read strangeConfig = some t ∧ TablesOnly t.entries ∧
      ofReading (.ok strangeConfig) = .ok c ∧ Overrides t.entries c ∧
      c.worker.binaryName = "w" ∧ c.display.pollIntervalMs = 500 ∧ c.polling = {} := by
  have hread : ∃ t ∈ Toml.read strangeConfig, TablesOnly t.entries := by decide +kernel
  have hloads : ∃ c ∈ (ofText strangeConfig).toOption,
      c.worker.binaryName = "w" ∧ c.display.pollIntervalMs = 500 ∧ c.polling = {} := by
    decide +kernel
  obtain ⟨t, ht, tables⟩ := hread
  obtain ⟨c, hc, hfields⟩ := hloads
  have accepted : ofReading (.ok strangeConfig) = .ok c := Except.eq_ok_of_mem_toOption hc
  have overrides := (((overriding ht tables).1 c).mp accepted).1
  exact ⟨t, c, ht, tables, accepted, overrides, hfields⟩

/-- Brackets in brackets, under a name that no section has. -/
def nested (depth : Nat) : String :=
  "a = " ++ String.ofList (List.replicate depth '[' ++ List.replicate depth ']')

/-- A document is refused for being nested too deep, whatever it gives; and an auxiliary file need
not be given as a table. -/
theorem overriding_limits :
    (∃ c ∈ (ofText (nested 79)).toOption, (c == {}) = true) ∧
    ofText (nested 80) = .error .malformed ∧
    ∃ c ∈ (ofText "[worker]\naux_files = [[\"x\"]]").toOption,
      c.worker.auxFiles = [{ name := "x" }] := by
  have hrefused : Toml.read (nested 80) = none := Option.isNone_iff_eq_none.mp (by decide +kernel)
  refine ⟨by decide +kernel, ?_, by decide +kernel⟩
  simp [ofText, hrefused]

end Overseer.Config
