/-!
# Occurrences of a word

Finding a word in a text, and replacing its occurrences from left to right.

* `occursIn` asks whether a word stands anywhere in a text.
* `replaceHits` replaces the leftmost, non-overlapping places at which a test succeeds; everything
  else keeps its place and its spelling.
* `replaceAll` replaces a word as it is spelled, `eraseIgnoringCase` drops it in any ASCII case.
-/

namespace SourceRecovery.Text

/-- Whether the word stands somewhere in the characters. -/
def occursIn (word : List Char) : List Char → Bool
  | [] => word.isEmpty
  | c :: cs => word.isPrefixOf (c :: cs) || occursIn word cs

/-- Walks along the characters: where `hit` accepts what follows, the next `width` characters are
    replaced by `new`, and the search goes on after them. The counter holds how many characters of
    the last hit are still to be passed over. -/
def replaceHitsFrom (hit : List Char → Bool) (width : Nat) (new : List Char) :
    Nat → List Char → List Char
  | _, [] => []
  | k + 1, _ :: cs => replaceHitsFrom hit width new k cs
  | 0, c :: cs =>
    if hit (c :: cs) then new ++ replaceHitsFrom hit width new (width - 1) cs
    else c :: replaceHitsFrom hit width new 0 cs

/-- Replaces the leftmost, non-overlapping hits, each `width` characters long. -/
def replaceHits (hit : List Char → Bool) (width : Nat) (new cs : List Char) : List Char :=
  replaceHitsFrom hit width new 0 cs

/-- Replaces every leftmost, non-overlapping occurrence of a word that is not empty. -/
def replaceAll (word new cs : List Char) : List Char :=
  replaceHits word.isPrefixOf word.length new cs

/-- The characters with the letters A to Z in lower case. -/
def lowerAscii (cs : List Char) : List Char :=
  cs.map Char.toLower

/-- Whether the characters begin with the word, letters A to Z counting as lower case. -/
def beginsIgnoringCase (word cs : List Char) : Bool :=
  lowerAscii (cs.take word.length) == word

/-- Drops every leftmost, non-overlapping occurrence of a word given in lower case, in whatever
    ASCII case it stands (`remove_ignore_ascii_case`). -/
def eraseIgnoringCase (word cs : List Char) : List Char :=
  replaceHits (beginsIgnoringCase word) word.length [] cs

end SourceRecovery.Text
