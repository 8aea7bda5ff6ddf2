import Overseer.Proofs.Json.EditedRecords
import Overseer.Proofs.Json.Exactness
import Overseer.Proofs.Wire.Messages

/-!
Responses that say more, or the same in another way.

Each report has a shape: its fields, in their order, and what the absence of a field stands for. The
readers go by these shapes (`RunStatus.respects` and its like), and so does the reader of responses
(`Response.ofJson?_edits`). So a worker may add members that the supervisor has no use for, write
members in any order and leave out what is the default: as long as the text can be kept whole, it is
decoded as the same response (`response_extensible`).
-/

namespace Overseer

open Json (Value Record Shape FieldShape Edit Edits Respects Keeps Denotes)

/-! ### Shapes of the reports -/

def RunStatus.shape : Shape := .record [
  .required "task_suspend_reason" .any,
  .required "network_suspend_reason" .any,
  .defaulted "task_mode" 0 Value.int32? .any,
  .defaulted "network_mode" 0 Value.int32? .any]

def Task.shape : Shape := .record [
  .required "name" .any,
  .required "project_url" .any,
  .defaulted "fraction_done" 0.0 Value.float? .any,
  .defaulted "active_task" false Value.bool? .any]

def Project.shape : Shape := .record [
  .required "master_url" .any,
  .required "project_name" .any,
  .defaulted "suspended_via_gui" false Value.bool? .any]

def Transfer.shape : Shape := .record [
  .required "name" .any,
  .required "project_url" .any,
  .defaulted "is_upload" false Value.bool? .any,
  .defaulted "bytes_transferred" 0 Value.uint64? .any,
  .defaulted "total_bytes" 0 Value.uint64? .any]

def HostInfo.shape : Shape := .record [
  .required "domain_name" .any,
  .defaulted "os_name" "" Value.text? .any,
  .defaulted "os_version" "" Value.text? .any,
  .defaulted "product_name" "" Value.text? .any,
  .defaulted "cpu_count" 0 Value.uint32? .any]

def StateReport.shape : Shape := .record [
  .defaulted "results" [] (Value.list? Task.ofJson?) (.list Task.shape),
  .defaulted "projects" [] (Value.list? Project.ofJson?) (.list Project.shape),
  .defaulted "host_info" none (Record.orNull HostInfo.ofJson?) HostInfo.shape]

def AccountManager.shape : Shape := .record [
  .defaulted "name" "" Value.text? .any,
  .defaulted "url" "" Value.text? .any,
  .defaulted "present" false Value.bool? .any]

def Notice.shape : Shape := .record [
  .required "seqno" .any,
  .required "title" .any,
  .defaulted "description" "" Value.text? .any,
  .defaulted "create_time" 0.0 Value.float? .any,
  .defaulted "is_feed" false Value.bool? .any]

def Preferences.shape : Shape := .record [
  .defaulted "run_on_batteries" false Value.bool? .any,
  .defaulted "run_if_user_active" false Value.bool? .any,
  .defaulted "battery_charge_min_pct" 0.0 Value.float? .any,
  .defaulted "battery_max_temperature" 0.0 Value.float? .any,
  .defaulted "max_ncpus_pct" 0.0 Value.float? .any,
  .defaulted "network_wifi_only" false Value.bool? .any]

/-- The fields of a response after its tag. -/
def Response.parts : Response → List (FieldShape Shape)
  | ok => []
  | error _ => [.required "message" .any]
  | status _ => [.required "status" RunStatus.shape]
  | state _ => [.required "state" StateReport.shape]
  | transfers _ => [.required "transfers" (.list Transfer.shape)]
  | accountManager _ => [.required "info" AccountManager.shape]
  | notices _ => [.required "notices" (.list Notice.shape)]
  | preferences _ => [.required "preferences" Preferences.shape]

def Response.shape (r : Response) : Shape := .tagged r.parts

/-! ### Readers of the reports -/

section Scalars

variable {shape : Shape}

theorem respects_text : Respects shape Value.text? := .scalar (fun _ => rfl) fun _ => rfl

theorem respects_bool : Respects shape Value.bool? := .scalar (fun _ => rfl) fun _ => rfl

theorem respects_float : Respects shape Value.float? := .scalar (fun _ => rfl) fun _ => rfl

theorem respects_int32 : Respects shape Value.int32? := .scalar (fun _ => rfl) fun _ => rfl

theorem respects_uint32 : Respects shape Value.uint32? := .scalar (fun _ => rfl) fun _ => rfl

theorem respects_uint64 : Respects shape Value.uint64? := .scalar (fun _ => rfl) fun _ => rfl

theorem respects_reason : Respects shape SuspendReason.ofJson? :=
  .scalar (fun _ => rfl) fun _ => rfl

end Scalars

theorem RunStatus.respects : Respects RunStatus.shape RunStatus.ofJson? := by
  apply Respects.record
  · rfl
  · rfl
  refine .bind (.required 0 rfl respects_reason) fun _ => ?_
  refine .bind (.required 1 rfl respects_reason) fun _ => ?_
  refine .bind (.defaulted 2 rfl respects_int32) fun _ => ?_
  refine .bind (.defaulted 3 rfl respects_int32) fun _ => ?_
  exact .pure _

theorem Task.respects : Respects Task.shape Task.ofJson? := by
  apply Respects.record
  · rfl
  · rfl
  refine .bind (.required 0 rfl respects_text) fun _ => ?_
  refine .bind (.required 1 rfl respects_text) fun _ => ?_
  refine .bind (.defaulted 2 rfl respects_float) fun _ => ?_
  refine .bind (.defaulted 3 rfl respects_bool) fun _ => ?_
  exact .pure _

theorem Project.respects : Respects Project.shape Project.ofJson? := by
  apply Respects.record
  · rfl
  · rfl
  refine .bind (.required 0 rfl respects_text) fun _ => ?_
  refine .bind (.required 1 rfl respects_text) fun _ => ?_
  refine .bind (.defaulted 2 rfl respects_bool) fun _ => ?_
  exact .pure _

theorem Transfer.respects : Respects Transfer.shape Transfer.ofJson? := by
  apply Respects.record
  · rfl
  · rfl
  refine .bind (.required 0 rfl respects_text) fun _ => ?_
  refine .bind (.required 1 rfl respects_text) fun _ => ?_
  refine .bind (.defaulted 2 rfl respects_bool) fun _ => ?_
  refine .bind (.defaulted 3 rfl respects_uint64) fun _ => ?_
  refine .bind (.defaulted 4 rfl respects_uint64) fun _ => ?_
  exact .pure _

theorem HostInfo.respects : Respects HostInfo.shape HostInfo.ofJson? := by
  apply Respects.record
  · rfl
  · rfl
  refine .bind (.required 0 rfl respects_text) fun _ => ?_
  refine .bind (.defaulted 1 rfl respects_text) fun _ => ?_
  refine .bind (.defaulted 2 rfl respects_text) fun _ => ?_
  refine .bind (.defaulted 3 rfl respects_text) fun _ => ?_
  refine .bind (.defaulted 4 rfl respects_uint32) fun _ => ?_
  exact .pure _

theorem StateReport.respects : Respects StateReport.shape StateReport.ofJson? := by
  apply Respects.record
  · rfl
  · rfl
  refine .bind (.defaulted 0 rfl Task.respects.list) fun _ => ?_
  refine .bind (.defaulted 1 rfl Project.respects.list) fun _ => ?_
  refine .bind (.defaulted 2 rfl HostInfo.respects.orNull) fun _ => ?_
  exact .pure _

theorem AccountManager.respects : Respects AccountManager.shape AccountManager.ofJson? := by
  apply Respects.record
  · rfl
  · rfl
  refine .bind (.defaulted 0 rfl respects_text) fun _ => ?_
  refine .bind (.defaulted 1 rfl respects_text) fun _ => ?_
  refine .bind (.defaulted 2 rfl respects_bool) fun _ => ?_
  exact .pure _

theorem Notice.respects : Respects Notice.shape Notice.ofJson? := by
  apply Respects.record
  · rfl
  · rfl
  refine .bind (.required 0 rfl respects_uint64) fun _ => ?_
  refine .bind (.required 1 rfl respects_text) fun _ => ?_
  refine .bind (.defaulted 2 rfl respects_text) fun _ => ?_
  refine .bind (.defaulted 3 rfl respects_float) fun _ => ?_
  refine .bind (.defaulted 4 rfl respects_bool) fun _ => ?_
  exact .pure _

theorem Preferences.respects : Respects Preferences.shape Preferences.ofJson? := by
  apply Respects.record
  · rfl
  · rfl
  refine .bind (.defaulted 0 rfl respects_bool) fun _ => ?_
  refine .bind (.defaulted 1 rfl respects_bool) fun _ => ?_
  refine .bind (.defaulted 2 rfl respects_float) fun _ => ?_
  refine .bind (.defaulted 3 rfl respects_float) fun _ => ?_
  refine .bind (.defaulted 4 rfl respects_float) fun _ => ?_
  refine .bind (.defaulted 5 rfl respects_bool) fun _ => ?_
  exact .pure _

/-! ### The reader of responses -/

namespace Response

theorem respects_unit {shape : Shape} : Respects shape Value.unit? := by
  intro v v' a hedit hread
  cases hedit with
  | @item _ before after v v' h => cases before <;> cases hread
  | _ => exact hread

section

variable {α : Type} {shape : Shape} {read : Value → Option α} {name : String}

/-- The reader of a response whose one field is `name`. -/
def readPart (name : String) (read : Value → Option α) (make : α → Response) (content : Value) :
    Option Response := do
  let r ← content.record? [name]
  return make (← r.required name read)

theorem readPart_respects (h : Respects shape read) (make : α → Response) :
    Respects (.record [.required name shape]) (readPart name read make) := by
  apply Respects.record
  · rfl
  · simp [Json.distinct]
  refine .bind (.required 0 rfl h) fun _ => ?_
  exact .pure _

theorem eq_of_readPart {make : α → Response} {content : Value} {r : Response}
    (h : readPart name read make content = some r) : ∃ a, r = make a := by
  obtain ⟨fields, -, h⟩ := Option.bind_eq_some_iff.mp h
  obtain ⟨a, -, h⟩ := Option.bind_eq_some_iff.mp h
  cases h
  exact ⟨a, rfl⟩

end

/-- An edit of the fields leaves the response as it is. -/
theorem ofTagged?_edit {tag : String} {content content' : Value} {r : Response}
    (hread : ofTagged? tag content = some r) (hedit : Edit (.record r.parts) content content') :
    ofTagged? tag content' = some r := by
  unfold ofTagged? at hread
  split at hread
  · exact respects_unit.map _ hedit hread
  · obtain ⟨message, rfl⟩ := eq_of_readPart hread
    exact readPart_respects respects_text error hedit hread
  · obtain ⟨s, rfl⟩ := eq_of_readPart hread
    exact readPart_respects RunStatus.respects status hedit hread
  · obtain ⟨s, rfl⟩ := eq_of_readPart hread
    exact readPart_respects StateReport.respects state hedit hread
  · obtain ⟨ts, rfl⟩ := eq_of_readPart hread
    exact readPart_respects Transfer.respects.list transfers hedit hread
  · obtain ⟨info, rfl⟩ := eq_of_readPart hread
    exact readPart_respects AccountManager.respects accountManager hedit hread
  · obtain ⟨ns, rfl⟩ := eq_of_readPart hread
    exact readPart_respects Notice.respects.list notices hedit hread
  · obtain ⟨p, rfl⟩ := eq_of_readPart hread
    exact readPart_respects Preferences.respects preferences hedit hread
  · cases hread

theorem parts_ne_type (r : Response) : ∀ f ∈ r.parts, f.name ≠ "type" := by
  cases r <;> simp [parts, FieldShape.required]

theorem ofJson?_eq_some_iff {v : Value} {r : Response} : ofJson? v = some r ↔
    (v.legible = true ∧ v.depth ≤ Json.maxDepth) ∧
      ∃ tag content, v.tagged? = some (tag, content) ∧ ofTagged? tag content = some r := by
  simp only [ofJson?, Value.wellFormed, Bool.and_eq_true, decide_eq_true_eq]
  constructor
  · intro h
    split at h
    · obtain ⟨⟨tag, content⟩, htag, hread⟩ := Option.bind_eq_some_iff.mp h
      exact ⟨‹_›, tag, content, htag, hread⟩
    · cases h
  · rintro ⟨hkept, tag, content, htag, hread⟩
    rw [if_pos hkept, htag]
    exact hread

/-- Edits leave the response as it is, if the value that they lead to can be kept whole. -/
theorem ofJson?_edits {v v' : Value} {r : Response} (hedits : Edits r.shape v v')
    (hdepth : v'.depth ≤ Json.maxDepth) (hread : ofJson? v = some r) : ofJson? v' = some r := by
  obtain ⟨⟨hlegible, -⟩, hread⟩ := ofJson?_eq_some_iff.mp hread
  -- Nesting is looked at in the end only: edits in between may nest deeper.
  have hinvariant : v'.legible = true ∧
      ∃ tag content, v'.tagged? = some (tag, content) ∧ ofTagged? tag content = some r := by
    clear hdepth
    induction hedits with
    | refl => exact ⟨hlegible, hread⟩
    | tail _ hedit ih =>
      obtain ⟨hlegible, tag, content, htag, hread⟩ := ih
      obtain ⟨content', htag', hcontent⟩ := Json.tagged?_edit r.parts_ne_type hedit htag
      exact ⟨hedit.legible hlegible, tag, content', htag', ofTagged?_edit hread hcontent⟩
  exact ofJson?_eq_some_iff.mpr ⟨⟨hinvariant.1, hdepth⟩, hinvariant.2⟩

end Response

/-! ### Texts that say more -/

/-- A text that is decoded as a response is a JSON text, and so is decoded every text that differs
from it by edits: by the order of members, by members that are no fields, and by defaults that are
left out. -/
theorem response_extensible {text : String} {r : Response}
    (hdecode : Response.decode text.toUTF8 = some r) :
    ∃ v, Denotes text v ∧ ∀ (v' : Value) (text' : String), Edits r.shape v v' → Denotes text' v' →
      v'.depth ≤ Json.maxDepth → Response.decode text'.toUTF8 = some r := by
  obtain ⟨v, hv, hread⟩ := Option.bind_eq_some_iff.mp hdecode
  refine ⟨v, Json.read_eq_some_iff.mp hv, ?_⟩
  intro v' text' hedits htext' hdepth
  rw [Response.decode, htext'.read]
  exact Response.ofJson?_edits hedits hdepth hread

/-- A status with its tag last, its fields in another order, a mode left out and a member more. -/
theorem response_extensible_status :
    let status : Value := .record [("task_suspend_reason", .natural 4),
      ("network_suspend_reason", .natural 0), ("task_mode", .natural 0)]
    let status' : Value := .record [("later", .array [.record [("x", .null)]]),
      ("network_suspend_reason", .natural 0), ("task_suspend_reason", .natural 4)]
    let v : Value := .record [("type", .text "status"), ("status", status)]
    let v' : Value := .record [("status", status'), ("type", .text "status")]
    let r : Response := .status ⟨.ofCode 4, .ofCode 0, 0, 0⟩
    Response.decode v.render.toUTF8 = some r ∧ Response.decode v'.render.toUTF8 = some r := by
  intro status status' v v' r
  have hfour : (Value.natural 4).Writable := .number (by decide : 4 < UInt64.size)
  have hzero : (Value.natural 0).Writable := .number (by decide : 0 < UInt64.size)
  have htext (s : String) : (Value.text s).Writable := .text s
  have hstatus : status.Writable := .record (by simp [hfour, hzero])
  have hlater : (Value.array [.record [("x", .null)]]).Writable :=
    .array (by simpa using .record (by simpa using .null))
  have hstatus' : status'.Writable := .record (by simp [hfour, hzero, hlater])
  have hv : v.Writable := .record (by simp [htext, hstatus])
  have hv' : v'.Writable := .record (by simp [htext, hstatus'])
  have hdecode : Response.decode v.render.toUTF8 = some r := by
    rw [Response.decode, hv.denotes.read]
    rfl
  obtain ⟨w, hw, hextend⟩ := response_extensible hdecode
  have hsame : w = v := Option.some.inj (hw.read.symm.trans hv.denotes.read)
  subst hsame
  refine ⟨hdecode, hextend v' _ ?_ hv'.denotes (by decide)⟩
  let ordered : Value :=
    .record [("task_suspend_reason", .natural 4), ("network_suspend_reason", .natural 0)]
  let reordered : Value :=
    .record [("network_suspend_reason", .natural 0), ("task_suspend_reason", .natural 4)]
  have hdrop : Edit RunStatus.shape status ordered :=
    @Edit.drop _ [_, _] [] (.defaulted "task_mode" 0 Value.int32? .any) _ (by simp) rfl
  have hpermute : Edit RunStatus.shape ordered reordered := .permute (.swap ..)
  have hadd : Edit RunStatus.shape reordered status' :=
    @Edit.add _ [] [_, _] "later" _ (by simp [FieldShape.required, FieldShape.defaulted]) rfl
  have hstatusEdits : Edits RunStatus.shape status status' :=
    ((Relation.ReflTransGen.single hdrop).tail hpermute).tail hadd
  let around (s : Value) : Value := .record [("type", .text "status"), ("status", s)]
  have hmember (s s' : Value) (h : Edit RunStatus.shape s s') :
      Edit r.shape (around s) (around s') :=
    @Edit.member _ [_] [] (some "status") s s' h
  have hedits : Edits r.shape v (around status') :=
    Relation.ReflTransGen.lift around hmember _ _ hstatusEdits
  exact hedits.tail (.permute (.swap ..))

/-- Null inside `n` arrays. -/
def nested : Nat → Value
  | 0 => .null
  | n + 1 => .array [nested n]

theorem depth_nested (n : Nat) : (nested n).depth = n := by
  induction n with
  | zero => rfl
  | succ n ih => simp [nested, Value.depth, Json.depthOfItems, ih]

theorem writable_nested (n : Nat) : (nested n).Writable := by
  induction n with
  | zero => exact .null
  | succ n ih => exact .array (by simpa using ih)

/-- The spelling of half a surrogate pair is JSON without a text, and a value may be nested as deep
as can be kept whole, but not inside of another: a member of either kind makes a response one that
is not decoded. -/
theorem response_not_extensible :
    let deep : Value := .record [("type", .text "ok"), ("x", nested 127)]
    Response.decode "\x7b\"type\":\"ok\"\x7d".toUTF8 = some .ok ∧
    Denotes "\"\\ud800\"" (.string none) ∧
    Response.decode "\x7b\"type\":\"ok\",\"x\":\"\\ud800\"\x7d".toUTF8 = none ∧
    (nested 127).wellFormed = true ∧ Response.decode deep.render.toUTF8 = none := by
  intro deep
  have htext (s : String) : (Value.text s).Writable := .text s
  have hdeep : deep.Writable := .record (by simp [htext, writable_nested])
  have hdigits : Json.fourDigits? (.char 'd') (.char '8') (.char '0') (.char '0') = some 0xD800 :=
    rfl
  have hhalf : Json.Lexeme (.string none) ['"', '\\', 'u', 'd', '8', '0', '0', '"'] :=
    .string (.cons (.digits hdigits) .nil)
  have htype := (Json.Layout.single (Json.lexeme_text "type")).append <|
    (Json.Layout.single .colon).append (.single (Json.lexeme_text "ok"))
  have hplain : Denotes "\x7b\"type\":\"ok\"\x7d" (.record [("type", .text "ok")]) :=
    (Json.Layout.single .openBrace).append (htype.append (.single .closeBrace))
  have hspelled : Denotes "\x7b\"type\":\"ok\",\"x\":\"\\ud800\"\x7d"
      (.object [(some "type", .text "ok"), (some "x", .string none)]) :=
    (Json.Layout.single .openBrace).append <| htype.append <|
      (Json.Layout.single .comma).append <| (Json.Layout.single (Json.lexeme_text "x")).append <|
      (Json.Layout.single .colon).append <| (Json.Layout.single hhalf).append <|
      Json.Layout.single .closeBrace
  refine ⟨?_, .single hhalf, ?_, ?_, ?_⟩
  · rw [Response.decode, hplain.read]
    rfl
  · rw [Response.decode, hspelled.read]
    rfl
  · simp [Value.wellFormed, depth_nested, (writable_nested 127).legible, Json.maxDepth]
  · have hdepth : deep.depth = 128 := by
      simp [deep, Value.record, Value.depth, Json.depthOfMembers, Json.depthOfMember, depth_nested,
        Value.text]
    have hkept : ¬ deep.wellFormed = true := by simp [Value.wellFormed, hdepth, Json.maxDepth]
    rw [Response.decode, hdeep.denotes.read, Option.bind_some, Response.ofJson?, if_neg hkept]

end Overseer
