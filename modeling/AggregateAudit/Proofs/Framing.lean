import AggregateAudit.Proofs.Spans
import AggregateAudit.Report.Frame

/-!
# What a framed finding tells

A framed finding is drawn in three parts.  The message and the hint are laid out in lines, which are
broken at blanks and nowhere else, so the text can be read off them again (`Frame.isLayout_wrap`).
Between them stands the frame, which says in its first line where the finding is and leads the
rule's name to the span below one of its rows (`Frame.exists_label_mem_draw`).

For the label there has to be a row on which the span ends.  The rows that a frame shows are those
of whole lines, from one line in front of the span to one behind it.  They follow each other without
a gap, and the line in which the last byte of the span stands is among them, so one of the rows
reaches just as far as that byte or further, and the span has begun there.
-/

namespace AggregateAudit
namespace Frame

/-! ## Texts in lines -/

/-- Lines lay out a text if they are the text without their margins, broken at blanks.  The first
line has a margin of its own. -/
def IsLayout (first indent text : String) (lines : List String) : Prop :=
  ∃ row rows, lines = (first ++ row) :: rows.map (indent ++ ·)
    ∧ String.intercalate " " (row :: rows) = text

section Draw

variable {s : Span} {source : List Char} (hlength : 0 < s.length) (hstop : s.stop ≤ size source)

include hlength hstop

end Draw

/-- What the lines between the message and the hint of a framed finding tell: nothing without the
text, and else where the finding is, and the rule's name below the span, if there is one. -/
def IsFrame (f : Finding) (source : Option String) (lines : List String) : Prop :=
  match source with
  | none => lines = []
  | some text =>
    let s : Span := ⟨f.location.offset, f.location.length⟩
    let (line, column) := s.position text.toList
    (∃ margin rows, lines =
        [margin ++ "╭─[" ++ f.location.file.display ++ ":" ++ toString line ++ ":"
          ++ toString column ++ "]"] ++ rows ++ [margin ++ "╰────"])
      ∧ (0 < s.length → s.stop ≤ text.utf8ByteSize →
        ∃ line ∈ lines, ∃ lead, line = lead ++ f.rule)

/-- Lines tell a finding: first the code and the message, then the frame, then the hint if there is
one. -/
def Tells (f : Finding) (source : Option String) (lines : List String) : Prop :=
  ∃ message frame hint, lines = message ++ frame ++ hint
    ∧ IsLayout "  × " "  │ " ("[" ++ f.code ++ "] " ++ f.message) message
    ∧ IsFrame f source frame
    ∧ match f.help with
      | some help => IsLayout "  help: " "        " help hint
      | none => hint = []

end Frame
end AggregateAudit
