/-!
Texts inside texts.

`occursIn` decides whether one text occurs in another (`occursIn_iff`).
-/

namespace Overseer.Text

/-- Whether some run of the characters is the needle. -/
def occursAmong (needle : List Char) : List Char → Bool
  | [] => needle.isEmpty
  | c :: rest => needle.isPrefixOf (c :: rest) || occursAmong needle rest

/-- Whether one text occurs in another. -/
def occursIn (needle text : String) : Bool := occursAmong needle.toList text.toList

theorem occursAmong_iff {needle text : List Char} :
    occursAmong needle text = true ↔ needle <:+: text := by
  induction text with
  | nil => simp [occursAmong]
  | cons c rest ih => simp [occursAmong, ih, List.infix_cons_iff]

theorem occursIn_iff {needle text : String} :
    occursIn needle text = true ↔ needle.toList <:+: text.toList := occursAmong_iff

end Overseer.Text
