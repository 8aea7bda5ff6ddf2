import Overseer.Toml.Value

/-!
How keys and headers build up a document.

A header opens a table, either new or mentioned before but never opened; a dotted key only adds to
tables that no header opened. The table of the last header is filled on the side and put in its
place when the next header comes or the document ends.
-/

namespace Overseer.Toml

/-- What a path of names that is not there yet is filled up with. -/
def Origin.mentioned (dotted inline : Bool) : Origin := ⟨true, dotted, inline⟩

/-- Applies a change to the last table of a list. -/
def changeLast (change : Table → Option Table) : List Value → Option (List Value)
  | [] => none
  | [.table origin entries] => (change ⟨origin, entries⟩).map fun t => [t.toValue]
  | [_] => none
  | v :: rest => (changeLast change rest).map (v :: ·)

/-- Applies a change to the table at the end of a path. Missing tables on the way are made; a list
of tables is entered at its last one. A dotted path does not go through a table that was opened, and
a path of a document not through an inline table. -/
def Table.changeAt (dotted inline : Bool) (change : Table → Option Table) :
    List String → Table → Option Table
  | [], t => change t
  | name :: path, t =>
    let below := Table.changeAt dotted inline change path
    match t.entries.lookup name with
    | none =>
      (below ⟨.mentioned dotted inline, []⟩).map fun child =>
        { t with entries := t.entries.put name child.toValue }
    | some (.table origin entries) =>
      if origin.inline ≠ inline ∨ (dotted ∧ !origin.implicit) then none
      else
        (below ⟨origin, entries⟩).map fun child =>
          { t with entries := t.entries.put name child.toValue }
    | some (.array true items) =>
      (changeLast below items).map fun items =>
        { t with entries := t.entries.put name (.array true items) }
    | some _ => none

/-- Adds a value under a dotted key. A table takes values either through dotted keys or directly. -/
def Table.insert (inline : Bool) (path : List String) (name : String) (v : Value) (t : Table) :
    Option Table :=
  t.changeAt true inline (fun t =>
    if t.origin.dotted = path.isEmpty then none
    else if (t.entries.lookup name).isSome then none
    else some { t with entries := t.entries.put name v }) path

/-- A document that is being read: what headers completed, and the table of the last header. -/
structure Draft where
  root : Table
  current : Table
  /-- Where the current table belongs; empty at the start of the document. -/
  path : List String
  /-- The header was in double brackets. -/
  repeated : Bool

namespace Draft

def start : Draft := ⟨⟨.explicit, []⟩, ⟨.explicit, []⟩, [], false⟩

/-- Adds a value to the current table. -/
def insert (path : List String) (name : String) (v : Value) (d : Draft) : Option Draft :=
  (d.current.insert false path name v).map fun current => { d with current }

/-- Adds a table at the end of a list of tables, or starts such a list. -/
def pushTable (name : String) (child : Table) (t : Table) : Option Table :=
  match t.entries.lookup name with
  | none => some { t with entries := t.entries.put name (.array true [child.toValue]) }
  | some (.array true items) =>
    some { t with entries := t.entries.put name (.array true (items ++ [child.toValue])) }
  | some _ => none

/-- Puts a table under a name that is free. -/
def placeTable (name : String) (child : Table) (t : Table) : Option Table :=
  match t.entries.lookup name with
  | none => some { t with entries := t.entries.put name child.toValue }
  | some _ => none

/-- The root with the current table in its place. -/
def close (d : Draft) : Option Table :=
  match d.path.getLast? with
  | none => some d.current
  | some name =>
    d.root.changeAt false false
      (if d.repeated then pushTable name d.current else placeTable name d.current) d.path.dropLast

/-- The table that a header finds under its name: none, or one that was only mentioned. -/
def reopened (name : String) (t : Table) : Option Table :=
  match t.entries.lookup name with
  | none => some ⟨.explicit, []⟩
  | some (.table origin entries) =>
    if origin.implicit ∧ !origin.dotted ∧ !origin.inline then some ⟨.explicit, entries⟩ else none
  | some _ => none

/-- The table at the end of a path, as a header sees it. -/
def lookUp (path : List String) (t : Table) : Option Table :=
  match path with
  | [] => some t
  | name :: path =>
    match t.entries.lookup name with
    | none => some ⟨.explicit, []⟩
    | some (.table origin entries) => if origin.inline then none else lookUp path ⟨origin, entries⟩
    | some (.array true items) =>
      match items.getLast? with
      | some (.table origin entries) => lookUp path ⟨origin, entries⟩
      | _ => none
    | some _ => none

/-- Begins the table of a header in single brackets. -/
def openTable (path : List String) (name : String) (d : Draft) : Option Draft := do
  let root ← d.close
  let current ← (lookUp path root).bind (reopened name)
  let root ← root.changeAt false false
    (fun t => some { t with entries := t.entries.erase name }) path
  return ⟨root, current, path ++ [name], false⟩

/-- Begins the table of a header in double brackets. -/
def openRepeated (path : List String) (name : String) (d : Draft) : Option Draft := do
  let root ← d.close
  let parent ← lookUp path root
  let root ← root.changeAt false false some path
  match parent.entries.lookup name with
  | none => return ⟨root, ⟨.explicit, []⟩, path ++ [name], true⟩
  | some (.array true _) => return ⟨root, ⟨.explicit, []⟩, path ++ [name], true⟩
  | some _ => none

end Draft

end Overseer.Toml
