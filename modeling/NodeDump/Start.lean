import NodeDump.Cursor

/-!
Starting a cursor at a place made up by hand. Reading begins at the front of the source when the index is negative. The
index itself counts for two things only, the column of a token right at the front and the character that is named
when there is no such token: a negative one is counted from the back.
-/

namespace NodeDump

structure Start where
  index : Int := 0
  line : Int := 1
  lineStart : Int := 0
  deriving DecidableEq, Repr

inductive StartFault where
  | unread (fault : Fault)
  /-- There is no token, and no character has the index either. -/
  | outside
  deriving DecidableEq, Repr

namespace Start

def position (start : Start) : Position := ⟨start.index.toNat, start.line, start.lineStart⟩

def column (start : Start) : Int := start.index - start.lineStart

/-- What is at fault when the source begins with no token: the character that the index, a negative one, points to. -/
def unreadable (start : Start) (text : List Char) : StartFault :=
  match (start.index + text.length).toNat?.bind (text[·]?) with
  | some c => .unread (.strayCharacter c start.line start.column)
  | none => .outside

end Start

/-- Behind blanks it no longer matters what the index was. -/
def Cursor.ofStart (source : String) (start : Start) : Except StartFault Cursor :=
  if 0 ≤ start.index ∨ source.toList.head?.any Char.isWhitespace then
    (ofSource source start.position).mapError .unread
  else match Lexeme.first? source.toList with
    | some found => .ok ⟨⟨found.rest, start.position.after found.text⟩,
        ⟨found.kind, start.line, start.column, String.ofList found.text⟩⟩
    | none => .error (start.unreadable source.toList)

end NodeDump
