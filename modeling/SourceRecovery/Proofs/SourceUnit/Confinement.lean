import Mathlib.Data.List.DropRight
import Mathlib.Data.List.Forall2
import SourceRecovery.Proofs.Path.Join
import SourceRecovery.Proofs.SourceUnit.Destination

/-!
# Units stay below the output root

Whatever a unit says of itself, its destination is the output root with plain names behind it.

* `segments`, `keptNames`: the folders of a destination, by what a unit says.
* `keptNames_eq`: they are the folders that the unit belongs in.
* `folders_of_exchanged`: it makes no difference whether a dot or a slash separates the parts of a
  qualified name.
* `destination?_confined`: when a unit has a destination, and which one.
-/

namespace SourceRecovery

namespace Path

variable {names : List Name}

/-- Plain names behind a path are its last components, behind the empty path as well. -/
theorem components_descend_plain (root : Path) (hnames : ∀ w ∈ names, IsPlain w) (hne : names ≠ []) :
    (root.descend names).components = root.components ++ names.map .name := by
  by_cases hroot : root.bytes = []
  · obtain ⟨w, ws, rfl⟩ := List.exists_cons_of_ne_nil hne
    have habs := not_isAbsolute_ofPieces (hnames w List.mem_cons_self) ws
    rw [← join_ofPieces root hnames hne, join_of_empty hroot habs, components_ofPieces hnames hne,
      components_of_empty hroot]
    rfl
  · exact components_descend hroot hnames

end Path

namespace SourceUnit

variable {u : SourceUnit} {separators : List Char} {q q' : String}

/-! ## The folders of a destination -/

/-- The parts of a text between separators, each without the blanks around it. -/
def segments (separators : List Char) (text : String) : List String :=
  (text.toList.splitOnP separators.contains).map fun cs => Text.trim (String.ofList cs)

/-- The names of the folders that a unit belongs in: those in front of the last name of its qualified
    name, or else, if that says nothing, those of its own folder. -/
def keptNames (u : SourceUnit) : List String :=
  match u.qualifiedName.filter fun q => Text.trim q ≠ "" with
  | some q => ((segments ['.', '/'] q).filter fun w => w ≠ "").dropLast
  | none => (segments ['/', '\\'] u.folder).filter fun w => w ≠ "" ∧ w ≠ "." ∧ w ≠ ".."

theorem folderNames_eq (separators : List Char) (text : String) :
    folderNames separators text =
      (segments separators text).filter fun w => w ≠ "" ∧ w ≠ "." ∧ w ≠ ".." := by
  rw [folderNames, segments, Text.pieces, List.map_map]
  congr 1
  funext w
  rw [Bool.eq_iff_iff]
  simp [and_assoc]

/-- No part of a text holds a separator. -/
theorem not_mem_of_mem_segments {text w : String} (h : w ∈ segments separators text) {c : Char}
    (hc : c ∈ separators) : c ∉ w.toList := by
  obtain ⟨cs, hcs, rfl⟩ := List.mem_map.1 h
  refine Text.not_mem_trim ?_
  rw [String.toList_ofList]
  intro hmem
  simpa [hc] using Text.not_of_mem_splitOnP hcs c hmem

/-- Where a dot separates, no part is one or two dots. -/
theorem folderNames_of_dot (hdot : '.' ∈ separators) (text : String) :
    folderNames separators text = (segments separators text).filter fun w => w ≠ "" := by
  rw [folderNames_eq]
  refine List.filter_congr fun w hw => ?_
  have hnot : '.' ∉ w.toList := not_mem_of_mem_segments hw hdot
  have hhere : w ≠ "." := by
    rintro rfl
    simp at hnot
  have hup : w ≠ ".." := by
    rintro rfl
    simp at hnot
  simp [hhere, hup]

theorem keptNames_eq (u : SourceUnit) : u.keptNames = u.folders := by
  rw [keptNames, folders]
  cases hname : u.qualifiedName with
  | none => exact (folderNames_eq _ _).symm
  | some q =>
    cases hblank : Text.allBlank q with
    | true =>
      have hnone : (some q).filter (fun q => Text.trim q ≠ "") = none := by
        simp [Text.trim_eq_empty, hblank]
      simp only [hnone, hblank, if_true]
      exact (folderNames_eq _ _).symm
    | false =>
      have hsome : (some q).filter (fun q => Text.trim q ≠ "") = some q := by
        simp [Text.trim_eq_empty, hblank]
      simp only [hsome, hblank, folderNames_of_dot (by simp : '.' ∈ ['.', '/'])]
      rfl

/-! ## Dots and slashes -/

/-- Whether two names are the same but for dots that stand for slashes and slashes that stand for
    dots. -/
def Exchanged (q q' : String) : Prop :=
  List.Forall₂ (fun c d => c = d ∨ c ∈ ['.', '/'] ∧ d ∈ ['.', '/']) q.toList q'.toList

/-- A text is cut alike wherever separators stand for one another. -/
theorem splitOnP_of_forall₂ {p : Char → Bool} {cs ds : List Char}
    (h : List.Forall₂ (fun c d => c = d ∨ p c = true ∧ p d = true) cs ds) :
    cs.splitOnP p = ds.splitOnP p := by
  induction h with
  | nil => rfl
  | @cons c d cs ds hcd _ ih =>
    rw [List.splitOnP_cons_eq_if_modifyHead, List.splitOnP_cons_eq_if_modifyHead, ih]
    rcases hcd with rfl | ⟨hc, hd⟩
    · rfl
    · rw [if_pos hc, if_pos hd]

theorem Exchanged.segments_eq (h : Exchanged q q') :
    segments ['.', '/'] q = segments ['.', '/'] q' := by
  have hsame : List.Forall₂
      (fun c d => c = d ∨ ['.', '/'].contains c = true ∧ ['.', '/'].contains d = true)
      q.toList q'.toList := by
    refine List.Forall₂.imp (fun c d hcd => ?_) h
    rwa [List.contains_iff_mem, List.contains_iff_mem]
  rw [segments, segments, splitOnP_of_forall₂ hsame]

theorem Exchanged.allBlank_eq (h : Exchanged q q') : Text.allBlank q = Text.allBlank q' := by
  have hseparator : ∀ c ∈ ['.', '/'], Text.isBlank c = false :=
    List.forall_mem_cons.2 ⟨by rfl, List.forall_mem_singleton.2 (by rfl)⟩
  rw [Text.allBlank, Text.allBlank]
  rw [Exchanged] at h
  generalize q.toList = cs at h
  generalize q'.toList = ds at h
  induction h with
  | nil => rfl
  | @cons c d cs ds hcd _ ih =>
    rw [List.all_cons, List.all_cons, ih]
    rcases hcd with rfl | ⟨hc, hd⟩
    · rfl
    · rw [hseparator c hc, hseparator d hd]

/-- A qualified name that is not blank decides the folders, whatever separates its parts and whatever
    folder the unit was in. -/
theorem folders_of_exchanged (hname : u.qualifiedName = some q) (hq : Text.trim q ≠ "")
    (h : Exchanged q q') (folder : String) :
    { u with folder := folder, qualifiedName := some q' }.folders = u.folders := by
  have hblank : Text.allBlank q = false := by
    rw [← Bool.not_eq_true]
    exact fun hall => hq (Text.trim_eq_empty.2 hall)
  have hblank' : Text.allBlank q' = false := h.allBlank_eq ▸ hblank
  simp only [folders, hname, hblank, hblank']
  rw [if_neg (by simp), if_neg (by simp), folderNames_of_dot (by simp), folderNames_of_dot (by simp),
    h.segments_eq]

/-! ## Destinations -/

/-- Whether a text is a single name of a file, as the name of a unit has to be. -/
theorem plainName?_eq_none {entryName : String} : plainName? entryName = none ↔
    let name := Text.trim entryName
    name = "" ∨ name = "." ∨ name = ".." ∨ '/' ∈ name.toList ∨ '\\' ∈ name.toList := by
  simp only [plainName?]
  split
  · rename_i h
    simpa [or_assoc] using h
  · rename_i h
    simpa [or_assoc] using h

theorem plainName?_eq_some {entryName name : String} (h : plainName? entryName = some name) :
    name = Text.trim entryName := by
  simp only [plainName?] at h
  split at h
  · cases h
  · exact (Option.some.inj h).symm

/-- A unit has a destination unless its entry name, without the blanks around it, is empty, one or two
    dots, or holds a slash either way. The destination is the output root with the kept names and the
    entry name behind it, each a component of its own and each a name; so it is below the root, not the
    root itself, and no `..` is behind the root. Where a qualified name decides, neither the folder of
    the unit counts nor whether dots or slashes separate. -/
theorem destination?_confined (root : Path) (u : SourceUnit) :
    let name := Text.trim u.entryName
    (u.destination? root = none ↔
      name = "" ∨ name = "." ∨ name = ".." ∨ '/' ∈ name.toList ∨ '\\' ∈ name.toList) ∧
    (∀ p, u.destination? root = some p →
      p = root.join (.ofText (Text.join "/" (u.keptNames ++ [name]))) ∧
      p.components = root.components ++
        (u.keptNames ++ [name]).map fun w => .name (Text.encode w)) ∧
    ∀ q q', u.qualifiedName = some q → Text.trim q ≠ "" → Exchanged q q' → ∀ folder,
      { u with folder := folder, qualifiedName := some q' }.destination? root =
        u.destination? root := by
  intro name
  refine ⟨?_, fun p hp => ?_, fun q q' hname hq hexchanged folder => ?_⟩
  · rw [destination?, Option.map_eq_none_iff]
    exact plainName?_eq_none
  · rw [destination?_eq] at hp
    obtain ⟨names, hbelow, rfl⟩ := Option.map_eq_some_iff.1 hp
    obtain ⟨hne, hplain⟩ := plain_of_below? hbelow
    obtain ⟨entry, hentry, rfl⟩ := Option.map_eq_some_iff.1 hbelow
    obtain rfl : entry = name := plainName?_eq_some hentry
    rw [keptNames_eq, Path.ofText_join]
    refine ⟨(Path.join_ofPieces root hplain hne).symm, ?_⟩
    rw [Path.components_descend_plain root hplain hne, List.map_map]
    rfl
  · rw [destination?, destination?, folders_of_exchanged hname hq hexchanged]

/-- A type of the package `a.b`, from a folder that leads elsewhere. -/
def elsewhere : SourceUnit := ⟨"/etc/..", some "a.b/C", " D.kt ", "x"⟩

/-- Its package decides, with dots and slashes for one another, and not that folder. -/
theorem destination?_confined_elsewhere : elsewhere.destination? ⟨"out"⟩ = some ⟨"out/a/b/D.kt"⟩ ∧
    { elsewhere with folder := "", qualifiedName := some "a/b.C" }.destination? ⟨"out"⟩ =
      some ⟨"out/a/b/D.kt"⟩ := by
  have hhere : elsewhere.destination? ⟨"out"⟩ = some ⟨"out/a/b/D.kt"⟩ := by decide +kernel
  refine ⟨hhere, Eq.trans ?_ hhere⟩
  refine (destination?_confined ⟨"out"⟩ elsewhere).2.2 "a.b/C" "a/b.C" rfl (by decide +kernel) ?_ ""
  simp [Exchanged]

/-- Parts that are blank, or dots once they are trimmed, are left out, and a slash at the front leads
    nowhere else. -/
example : destination? ⟨"out"⟩ ⟨"/ .. /a//b\\ c ", none, " B.kt ", "x"⟩ = some ⟨"out/a/b/c/B.kt"⟩ := by
  decide +kernel

end SourceUnit

end SourceRecovery
