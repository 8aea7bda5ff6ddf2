import Overseer.Proofs.Wire.Reports
import Overseer.Wire.Message

/-!
Messages that are read as they were written.

A message is sendable when the reports in it are. Whatever its kind, its tag and its fields spell it
(`Request.spells`, `Response.spells`), so its text is read as that message and as no other
(`messages_round_trip`).
-/

namespace Overseer

open Json (Value Record Spells ReadsBack record?_record distinct)

namespace Request

/-- A request without loss. -/
def Sendable : Request → Prop
  | reportDevice device => device.Sendable
  | _ => True

theorem fields_fit {r : Request} (h : r.Sendable) : ∀ m ∈ r.fields, m.2.Fits 2 := by
  cases r with
  | reportDevice device =>
    have hdevice := DeviceStatus.spells true h
    simp [fields, hdevice.toFits]
  | _ => simp [fields]

theorem ofTagged?_fields {r : Request} (h : r.Sendable) :
    ofTagged? r.tag (.record r.fields) = some r := by
  cases r with
  | authenticate token => simp [ofTagged?, tag, fields]
  | getNotices since => simp [ofTagged?, tag, fields]
  | reportDevice device =>
    have hdevice := DeviceStatus.spells true h
    simp [ofTagged?, tag, fields, hdevice.read_eq]
  | setHostInfo model osVersion =>
    simp [ofTagged?, tag, fields, record?_record, distinct, Record.required]
  | _ => rfl

theorem spells {r : Request} (h : r.Sendable) :
    Spells (fun v => v.tagged?.bind fun (tag, content) => ofTagged? tag content) 3 r.toJson r := by
  apply Spells.tagged
  · cases r <;> simp [fields]
  · exact fields_fit h
  · exact ofTagged?_fields h

theorem decode_encode {r : Request} (h : r.Sendable) : decode r.encode.toUTF8 = some r :=
  (spells h).read_render (by decide)

theorem encode_injective {r r' : Request} (h : r.Sendable) (h' : r'.Sendable)
    (heq : r.encode = r'.encode) : r = r' := by
  have hread := decode_encode h
  rw [heq, decode_encode h'] at hread
  exact (Option.some.inj hread).symm

end Request

namespace Response

/-- A response without loss. -/
def Sendable : Response → Prop
  | status s => s.Sendable
  | state s => s.Sendable
  | notices ns => ∀ n ∈ ns, n.Sendable
  | preferences p => p.Sendable
  | _ => True

theorem fields_fit {r : Response} (h : r.Sendable) : ∀ m ∈ r.fields, m.2.Fits 3 := by
  cases r with
  | ok => simp [fields]
  | error message => simp [fields]
  | status s => simpa [fields] using (RunStatus.spells h).toFits.mono (by decide)
  | state s => simpa [fields] using (StateReport.spells h).toFits
  | transfers ts =>
    have hlist := Spells.list fun t (_ : t ∈ ts) => t.spells
    simpa [fields] using hlist.toFits.mono (by decide)
  | accountManager info => simpa [fields] using info.spells.toFits.mono (by decide)
  | notices ns =>
    have hlist := Spells.list fun n hn => Notice.spells (h n hn)
    simpa [fields] using hlist.toFits.mono (by decide)
  | preferences p => simpa [fields] using (Preferences.spells h).toFits.mono (by decide)

theorem ofTagged?_fields {r : Response} (h : r.Sendable) :
    ofTagged? r.tag (.record r.fields) = some r := by
  cases r with
  | ok => rfl
  | error message => simp [ofTagged?, tag, fields]
  | status s => simp [ofTagged?, tag, fields, (RunStatus.spells h).read_eq]
  | state s => simp [ofTagged?, tag, fields, (StateReport.spells h).read_eq]
  | transfers ts =>
    have hlist := Spells.list fun t (_ : t ∈ ts) => t.spells
    simp [ofTagged?, tag, fields, hlist.read_eq]
  | accountManager info => simp [ofTagged?, tag, fields, info.spells.read_eq]
  | notices ns =>
    have hlist := Spells.list fun n hn => Notice.spells (h n hn)
    simp [ofTagged?, tag, fields, hlist.read_eq]
  | preferences p => simp [ofTagged?, tag, fields, (Preferences.spells h).read_eq]

theorem spells {r : Response} (h : r.Sendable) :
    Spells (fun v => v.tagged?.bind fun (tag, content) => ofTagged? tag content) 4 r.toJson r := by
  apply Spells.tagged
  · cases r <;> simp [fields]
  · exact fields_fit h
  · exact ofTagged?_fields h

theorem decode_encode {r : Response} (h : r.Sendable) : decode r.encode.toUTF8 = some r :=
  (spells h).read_render (by decide)

theorem encode_injective {r r' : Response} (h : r.Sendable) (h' : r'.Sendable)
    (heq : r.encode = r'.encode) : r = r' := by
  have hread := decode_encode h
  rw [heq, decode_encode h'] at hread
  exact (Option.some.inj hread).symm

end Response

/-! ### The round trip -/

/-- Every sendable message is read from its text as it was written, and different messages have
different texts. -/
theorem messages_round_trip :
    (∀ r : Request, r.Sendable → Request.decode r.encode.toUTF8 = some r) ∧
    (∀ r r' : Request, r.Sendable → r'.Sendable → r ≠ r' → r.encode ≠ r'.encode) ∧
    (∀ r : Response, r.Sendable → Response.decode r.encode.toUTF8 = some r) ∧
    (∀ r r' : Response, r.Sendable → r'.Sendable → r ≠ r' → r.encode ≠ r'.encode) := by
  constructor
  · intro r h
    exact Request.decode_encode h
  constructor
  · intro r r' h h' hne heq
    exact hne (Request.encode_injective h h' heq)
  constructor
  · intro r h
    exact Response.decode_encode h
  · intro r r' h h' hne heq
    exact hne (Response.encode_injective h h' heq)

/-- A quarter is written with two places, and 25 hundredths are a quarter exactly. -/
theorem readsBack_quarter : ReadsBack 0.25 where
  finite := by decide
  read := by
    have htext : Json.realText 0.25 = ['0', '.', '2', '5'] := by decide +kernel
    have hquotient : UInt64.toFloat 25 / Json.powerOfTen 2 = 0.25 := rfl
    have hscaled : Json.scale (25 : Nat).toUInt64.toFloat (-2) = some 0.25 := by
      rw [Json.scale]
      simp [hquotient]
    have hread : Json.readNumber (['0', '.', '2', '5'].map .char) =
        some (Json.realOfParts false 25 (-2), []) := rfl
    rw [htext, hread, Json.realOfParts, hscaled]
    rfl

/-- A charge without a temperature, escapes in a text, the highest number of a notice and a reason
without a name. -/
theorem messages_round_trip_quarter :
    let power : Power := ⟨true, false, true, some 0.25, .notCharging, none, true⟩
    let report : Request := .reportDevice ⟨true, false, power⟩
    let notice : Notice := ⟨0xFFFFFFFFFFFFFFFF, "a \"b\" \\ \n\x01é", "", 0.25, true⟩
    let news : Response := .notices [notice, notice]
    let status : Response := .status ⟨.ofCode 3, .ofCode 4097, -1, 2⟩
    Request.decode report.encode.toUTF8 = some report ∧ report.encode ≠ Request.quit.encode ∧
      Response.decode news.encode.toUTF8 = some news ∧ status.encode ≠ news.encode := by
  intro power report notice news status
  obtain ⟨request, requests, response, responses⟩ := messages_round_trip
  have hreport : report.Sendable := by
    constructor
    · rintro x ⟨⟩
      exact readsBack_quarter
    · nofun
  have hnews : news.Sendable := by
    intro n hn
    have hsame : n = notice := by simpa using hn
    exact hsame ▸ readsBack_quarter
  have hstatus : status.Sendable := by
    constructor
    · exact ⟨3, rfl⟩
    · exact ⟨4097, rfl⟩
  exact ⟨request report hreport, requests report .quit hreport trivial nofun,
    response news hnews, responses status news hstatus hnews nofun⟩

end Overseer
