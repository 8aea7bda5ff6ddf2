import Overseer.Connection
import Overseer.Proofs.Conversations

/-!
The conversations of connecting.

`Tried` lists the four ways in which an attempt to connect can go. Only the one in which the worker
accepts the token leaves the channel open. `Retries` is what attempts make that are repeated until
one succeeds.
-/

namespace Overseer.Connection

open Program

/-- The conversation in which the channel is opened and the token accepted. -/
def success (c : Connection) (token : String) : List (Exchange Effects) :=
  [⟨.channel (.connect c.address), .ok ()⟩, ⟨.file (.readText c.tokenFile), .ok token⟩,
    ⟨.channel (.call (.authenticate (Text.trim token))), .ok ()⟩]

/-- The ways in which an attempt to connect goes, each with whether it succeeds. -/
inductive Tried (c : Connection) : List (Exchange Effects) → Bool → Prop where
  | unreachable (e : ChannelError) : Tried c [⟨.channel (.connect c.address), .error e⟩] false
  | tokenless (fault : IoFault) :
      Tried c [⟨.channel (.connect c.address), .ok ()⟩,
        ⟨.file (.readText c.tokenFile), .error fault⟩, ⟨.channel .close, ()⟩] false
  | refused (token : String) (e : ChannelError) :
      Tried c [⟨.channel (.connect c.address), .ok ()⟩,
        ⟨.file (.readText c.tokenFile), .ok token⟩,
        ⟨.channel (.call (.authenticate (Text.trim token))), .error e⟩, ⟨.channel .close, ()⟩] false
  | accepted (token : String) : Tried c (c.success token) true

/-- The state after an attempt. -/
def tried (c : Connection) (connected : Bool) : Connection :=
  { c with state := if connected then .authenticated else .disconnected }

theorem connect_ensures (c : Connection) :
    Ensures c.connect fun trace (connected, c') =>
      c.Tried trace connected ∧ c' = c.tried connected := by
  apply Ensures.question
  intro opened
  cases opened with
  | error e => exact Ensures.done ⟨.unreachable e, rfl⟩
  | ok =>
    apply Ensures.question
    intro reading
    cases reading with
    | error fault => exact Ensures.question fun _ => Ensures.done ⟨.tokenless fault, rfl⟩
    | ok token =>
      apply Ensures.question
      intro answer
      cases answer with
      | error e => exact Ensures.question fun _ => Ensures.done ⟨.refused token e, rfl⟩
      | ok => exact Ensures.done ⟨.accepted token, rfl⟩

/-- Connecting reads where the worker is to be found, and not the state of the connection. -/
theorem Tried.of_state {c : Connection} {state : ConnectionState} {trace : List (Exchange Effects)}
    {connected : Bool} (h : Tried { c with state } trace connected) : c.Tried trace connected := by
  cases h with
  | unreachable e => exact .unreachable e
  | tokenless fault => exact .tokenless fault
  | refused token e => exact .refused token e
  | accepted token => exact .accepted token

/-! ### Several attempts -/

/-- Attempts in order, each with whether it succeeded. All but the last failed, and only a success
comes before the budget is used up. -/
structure Retries (c : Connection) (budget : Nat) (tries : List (List (Exchange Effects) × Bool))
    (connected : Bool) : Prop where
  tried : ∀ t ∈ tries, c.Tried t.1 t.2
  failed : ∀ t ∈ tries.dropLast, t.2 = false
  last : tries.getLast?.map Prod.snd = some connected
  bounded : tries.length ≤ budget
  exhausted : connected = false → tries.length = budget

/-- Attempts with one pause between each two. -/
def retrying (delay : Nat) (tries : List (List (Exchange Effects) × Bool)) :
    List (Exchange Effects) :=
  [⟨.sleep delay, ()⟩].intercalate (tries.map Prod.fst)

section Retries

variable {c : Connection} {trace : List (Exchange Effects)} {budget : Nat} {connected : Bool}
  {tries : List (List (Exchange Effects) × Bool)}

theorem Retries.ne_nil (h : c.Retries budget tries connected) : tries ≠ [] := by
  rintro rfl
  cases h.last

theorem Retries.single (h : c.Tried trace connected)
    (hbudget : connected = false → budget = 0) :
    c.Retries (budget + 1) [(trace, connected)] connected where
  tried := by simpa using h
  failed := by simp
  last := rfl
  bounded := by simp
  exhausted := fun hfailed => by simp [hbudget hfailed]

theorem Retries.again (h : c.Tried trace false) (hrest : c.Retries budget tries connected) :
    c.Retries (budget + 1) ((trace, false) :: tries) connected where
  tried := List.forall_mem_cons.mpr ⟨h, hrest.tried⟩
  failed := by
    rw [List.dropLast_cons_of_ne_nil hrest.ne_nil]
    exact List.forall_mem_cons.mpr ⟨rfl, hrest.failed⟩
  last := by
    rw [List.getLast?_cons_of_ne_nil hrest.ne_nil]
    exact hrest.last
  bounded := Nat.succ_le_succ hrest.bounded
  exhausted := fun hfailed => congrArg (· + 1) (hrest.exhausted hfailed)

theorem Retries.of_state {state : ConnectionState}
    (h : Retries { c with state } budget tries connected) : c.Retries budget tries connected :=
  { h with tried := fun t ht => (h.tried t ht).of_state }

/-- Connecting succeeds exactly if one of the attempts does. -/
theorem Retries.connected_iff (h : c.Retries budget tries connected) :
    connected = true ↔ ∃ t ∈ tries, t.2 = true := by
  obtain ⟨final, hfinal, rfl⟩ := Option.map_eq_some_iff.mp h.last
  constructor
  · exact fun hconnected => ⟨final, List.mem_of_getLast? hfinal, hconnected⟩
  · rintro ⟨t, ht, hsucceeded⟩
    obtain ⟨before, rfl⟩ := List.getLast?_eq_some_iff.mp hfinal
    rcases List.mem_append.mp ht with hbefore | hlast
    · have hfailed := h.failed t (by simpa using hbefore)
      rw [hfailed] at hsucceeded
      cases hsucceeded
    · rwa [List.mem_singleton.mp hlast] at hsucceeded

theorem retrying_cons (delay : Nat) (t : List (Exchange Effects) × Bool) (hrest : tries ≠ []) :
    retrying delay (t :: tries) = t.1 ++ ([⟨.sleep delay, ()⟩] ++ retrying delay tries) := by
  obtain ⟨next, rest, rfl⟩ := List.exists_cons_of_ne_nil hrest
  simp [retrying, List.intercalate_cons_cons]

end Retries

theorem connectAgain_ensures (c : Connection) (delay more : Nat) :
    Ensures (c.connectAgain delay more) fun trace (connected, c') =>
      c' = c.tried connected ∧
        ∃ tries, trace = retrying delay tries ∧ c.Retries (more + 1) tries connected := by
  induction more generalizing c with
  | zero =>
    refine c.connect_ensures.mono ?_
    rintro trace ⟨connected, c'⟩ ⟨htried, hc'⟩
    exact ⟨hc', [(trace, connected)], by simp [retrying], .single htried fun _ => rfl⟩
  | succ more ih =>
    refine Ensures.bind c.connect_ensures ?_
    rintro first ⟨connected, c'⟩ ⟨htried, rfl⟩
    cases connected with
    | true =>
      refine Ensures.done ⟨rfl, [(first, true)], by simp [retrying], .single htried nofun⟩
    | false =>
      refine Ensures.question fun _ => (ih (c.tried false)).mono ?_
      rintro rest ⟨connected, c'⟩ ⟨rfl, tries, rfl, hrest⟩
      exact ⟨rfl, (first, false) :: tries, (retrying_cons delay (first, false) hrest.ne_nil).symm,
        hrest.of_state.again htried⟩

end Overseer.Connection
