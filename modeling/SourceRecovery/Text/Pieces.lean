/-!
# Pieces of a text

Cutting a text at every separator, and putting pieces together again.
-/

namespace SourceRecovery.Text

/-- The pieces of a text between the characters that satisfy `p`; a text without one is a single
    piece. -/
def pieces (p : Char → Bool) (s : String) : List String :=
  (s.toList.splitOnP p).map String.ofList

/-- The lines of a text: the pieces between line feeds. -/
def lines (cs : List Char) : List (List Char) :=
  cs.splitOn '\n'

/-- The pieces one after the other, with the separator between each two. -/
def join (sep : String) (ws : List String) : String :=
  sep.intercalate ws

end SourceRecovery.Text
