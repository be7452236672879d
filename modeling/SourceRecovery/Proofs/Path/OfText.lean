import SourceRecovery.Proofs.Path.Usable
import SourceRecovery.Proofs.Text.Lossy

/-!
# Names that are text

What is true of a name that a text spells, in terms of the text.

* `isPlain_encode`: which texts can be names of files.
* `ofText_join`: texts with slashes between them spell the path of these names.
* `isText_iff`: which paths are text.
* `shown`: names as they are shown. `shown_inj`: they tell the names if these are text.
* `text_ofPieces`: the path of some names is shown as these are.
-/

namespace SourceRecovery.Path

variable {w : String} {ws : List String}

theorem slash_mem_encode : slash ∈ Text.encode w ↔ '/' ∈ w.toList :=
  Text.mem_encode_ascii (c := '/') (by decide)

theorem nul_mem_encode : 0 ∈ Text.encode w ↔ Char.ofNat 0 ∈ w.toList :=
  Text.mem_encode_ascii (c := Char.ofNat 0) (by decide)

/-- Which texts can be the name of a file or folder. -/
theorem isPlain_encode : IsPlain (Text.encode w) ↔
    w ≠ "" ∧ w ≠ "." ∧ w ≠ ".." ∧ '/' ∉ w.toList := by
  have hne {v : String} : Text.encode w ≠ Text.encode v ↔ w ≠ v := not_congr Text.encode_eq_encode
  constructor
  · rintro ⟨hempty, hhere, hup, hslash⟩
    exact ⟨hne.1 hempty, hne.1 hhere, hne.1 hup, fun h => hslash (slash_mem_encode.2 h)⟩
  · rintro ⟨hempty, hhere, hup, hslash⟩
    exact ⟨hne.2 hempty, hne.2 hhere, hne.2 hup, fun h => hslash (slash_mem_encode.1 h)⟩

/-- Texts with slashes between them spell the path of these names. -/
theorem ofText_join (ws : List String) :
    ofText (Text.join "/" ws) = ofPieces (ws.map Text.encode) := by
  rw [ofText, ofPieces, Path.mk.injEq]
  exact Text.encode_join "/" ws

theorem isText_iff {p : Path} : p.isText = true ↔ Text.IsText p.bytes := by
  rw [isText, Option.isSome_iff_exists]
  exact exists_congr fun s => Text.decode?_eq_some

/-! ## Shown names -/

/-- Names as they are shown, one behind the other. -/
def shown (names : List Name) : String :=
  Text.join "/" (names.map Text.decodeLossy)

/-- The path of some names is shown as these are. -/
theorem text_ofPieces (names : List Name) : (ofPieces names).text = shown names := by
  induction names with
  | nil => rfl
  | cons w names ih =>
    by_cases hlast : names = []
    · simp [hlast, shown, ofPieces, text, Text.join]
    · have hcut := Text.toList_decodeLossy_cut (c := '/') (by decide) w (ofPieces names).bytes
      rw [text] at ih
      rw [text, bytes_ofPieces_cons hlast, shown, List.map_cons,
        Text.join_cons _ _ (by simpa using hlast), ← String.toList_inj, List.append_assoc,
        List.singleton_append, String.toList_append, String.toList_append]
      show (Text.decodeLossy (w ++ slash :: _)).toList = _ ++ ['/'] ++ (shown names).toList
      rw [← ih, List.append_assoc]
      exact hcut

theorem ofText_text {p : Path} (h : Text.IsText p.bytes) : ofText p.text = p := by
  rw [ofText, text, Text.isText_iff.1 h]

theorem ofText_shown {names : List Name} (h : ∀ w ∈ names, Text.IsText w) :
    ofText (shown names) = ofPieces names := by
  rw [shown, ofText_join, Text.map_encode_decodeLossy h]

/-- Names that are text are told by what is shown of them. -/
theorem shown_inj {names names' : List Name} (hne : names ≠ []) (hne' : names' ≠ [])
    (hplain : ∀ w ∈ names, IsPlain w) (hplain' : ∀ w ∈ names', IsPlain w)
    (htext : ∀ w ∈ names, Text.IsText w) (htext' : ∀ w ∈ names', Text.IsText w)
    (h : shown names = shown names') : names = names' := by
  refine ofPieces_inj hne hne' (fun w hw => (hplain w hw).no_slash)
    (fun w hw => (hplain' w hw).no_slash) ?_
  rw [← ofText_shown htext, ← ofText_shown htext', h]

end SourceRecovery.Path
