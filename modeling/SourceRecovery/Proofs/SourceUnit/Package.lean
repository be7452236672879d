import SourceRecovery.Engine.Harvest
import SourceRecovery.Proofs.SourceUnit.Destination

/-!
# Units that stand at the path of their package

A source file may stand in the folders that its package names. Then it makes no difference to its
destination whether the package can be read from its text.

* `IsNeat`: names that are kept as they are, in a package and in a path.
* `folderNames_join`: neat names that are joined by a separator are read as these names.
* `below?_unitOfFile`: the unit in a file of neat names has the path of the file.
-/

namespace SourceRecovery

/-! ## Neat names -/

/-- Whether a name holds nothing that a path or a package takes for its own: no dot, no slash either
    way, no blank, and no NUL. -/
structure IsNeat (w : String) : Prop where
  ne_empty : w ≠ ""
  no_dot : '.' ∉ w.toList
  no_slash : '/' ∉ w.toList
  no_backslash : '\\' ∉ w.toList
  no_nul : Char.ofNat 0 ∉ w.toList
  no_blank : ∀ c ∈ w.toList, Text.isBlank c = false

namespace IsNeat

variable {w : String}

theorem plain (h : IsNeat w) : Path.IsPlain (Text.encode w) := by
  refine Path.isPlain_encode.2 ⟨h.ne_empty, ?_, ?_, h.no_slash⟩
  · rintro rfl
    exact h.no_dot (by simp)
  · rintro rfl
    exact h.no_dot (by simp)

theorem trim (h : IsNeat w) : Text.trim w = w :=
  Text.trim_eq_self h.no_blank

/-- A neat name with something behind it that begins with a dot is none of those that lead
    elsewhere. -/
theorem plain_append {ext : String} {cs : List Char} (h : IsNeat w) (hext : ext.toList = '.' :: cs)
    (hslash : '/' ∉ cs) : Path.IsPlain (Text.encode (w ++ ext)) := by
  obtain ⟨c, rest, hcs⟩ : ∃ c rest, w.toList = c :: rest :=
    List.exists_cons_of_ne_nil fun hnil => h.ne_empty (String.toList_inj.1 hnil)
  have hother : ∀ s : String, (∀ d ∈ s.toList, d = '.') → w ++ ext ≠ s := by
    rintro s hs rfl
    have hdot := hs c (by simp [hcs])
    exact h.no_dot (by simp [hcs, hdot])
  refine Path.isPlain_encode.2
    ⟨hother "" (by simp), hother "." (by simp), hother ".." (by simp), ?_⟩
  simp [hext, h.no_slash, hslash]

end IsNeat

namespace SourceUnit

variable {separators : List Char} {folders : List String} {w sep : String} {c : Char}

/-! ## Folders by their names -/

theorem folderNames_append (hsep : sep.toList = [c]) (hc : c ∈ separators) (s t : String) :
    folderNames separators (s ++ sep ++ t) = folderNames separators s ++ folderNames separators t := by
  have hcut : separators.contains c = true := List.contains_iff_mem.2 hc
  rw [folderNames, Text.pieces_append hsep hcut, List.map_append, List.filter_append]
  rfl

/-- Whether the separators are among those that no neat name holds. -/
def Separate (separators : List Char) : Prop :=
  ∀ d ∈ separators, d = '.' ∨ d = '/' ∨ d = '\\'

/-- A name that no separator cuts is kept, without the blanks around it. -/
theorem folderNames_uncut (huncut : ∀ d ∈ w.toList, d ∉ separators)
    (hplain : Path.IsPlain (Text.encode (Text.trim w))) :
    folderNames separators w = [Text.trim w] := by
  have hpieces : Text.pieces separators.contains w = [w] :=
    Text.pieces_eq_singleton fun d hd => by simpa using huncut d hd
  rw [folderNames, hpieces, List.map_singleton]
  obtain ⟨hempty, hhere, hup, -⟩ := Path.isPlain_encode.1 hplain
  exact List.filter_cons_of_pos (by simp [hempty, hhere, hup])

theorem folderNames_neat (hseparate : Separate separators) (h : IsNeat w) :
    folderNames separators w = [w] := by
  have huncut : ∀ d ∈ w.toList, d ∉ separators := by
    intro d hd hmem
    rcases hseparate d hmem with rfl | rfl | rfl
    · exact h.no_dot hd
    · exact h.no_slash hd
    · exact h.no_backslash hd
  have hkept := folderNames_uncut huncut (h.trim.symm ▸ h.plain)
  rwa [h.trim] at hkept

/-- Names that are read as themselves are so when a separator joins them. -/
theorem folderNames_join_of_each (hsep : sep.toList = [c]) (hc : c ∈ separators)
    (h : ∀ w ∈ folders, folderNames separators w = [w]) :
    folderNames separators (Text.join sep folders) = folders := by
  induction folders with
  | nil => rfl
  | cons w folders ih =>
    obtain ⟨hw, hfolders⟩ := List.forall_mem_cons.1 h
    by_cases hlast : folders = []
    · subst hlast
      simpa [Text.join] using hw
    · rw [Text.join_cons sep w hlast, folderNames_append hsep hc, hw, ih hfolders]
      rfl

/-- Neat names that are joined by a separator are read as these names. -/
theorem folderNames_join (hseparate : Separate separators) (hsep : sep.toList = [c])
    (hc : c ∈ separators) (h : ∀ w ∈ folders, IsNeat w) :
    folderNames separators (Text.join sep folders) = folders :=
  folderNames_join_of_each hsep hc fun w hw => folderNames_neat hseparate (h w hw)

/-! ## Files by their names -/

/-- How the name of a source file ends. -/
def extension (kotlin : Bool) : String :=
  if kotlin then ".kt" else ".java"

theorem plain_source (h : IsNeat w) (kotlin : Bool) :
    Path.IsPlain (Text.encode (w ++ extension kotlin)) := by
  cases kotlin
  · have hext : ".java".toList = '.' :: "java".toList := rfl
    exact h.plain_append hext (by simp)
  · have hext : ".kt".toList = '.' :: "kt".toList := rfl
    exact h.plain_append hext (by simp)

theorem mem_extension (kotlin : Bool) : ∀ c ∈ (extension kotlin).toList,
    c ≠ '\\' ∧ Text.isBlank c = false := by
  have hall : (extension kotlin).toList.all (fun c => c != '\\' && !Text.isBlank c) = true := by
    cases kotlin <;> decide
  intro c hc
  simpa using List.all_eq_true.1 hall c hc

theorem plainName?_source (h : IsNeat w) (kotlin : Bool) :
    plainName? (w ++ extension kotlin) = some (w ++ extension kotlin) := by
  obtain ⟨hempty, hhere, hup, hslash⟩ := Path.isPlain_encode.1 (plain_source h kotlin)
  have htrim : Text.trim (w ++ extension kotlin) = w ++ extension kotlin := by
    refine Text.trim_eq_self fun c hc => ?_
    rw [String.toList_append] at hc
    rcases List.mem_append.1 hc with hc | hc
    · exact h.no_blank c hc
    · exact (mem_extension kotlin c hc).2
  have hbackslash : '\\' ∉ (w ++ extension kotlin).toList := by
    rw [String.toList_append, List.mem_append, not_or]
    exact ⟨h.no_backslash, fun hmem => (mem_extension kotlin _ hmem).1 rfl⟩
  simp only [plainName?, htrim]
  rw [if_neg]
  simp only [Bool.or_eq_true, beq_iff_eq, List.contains_iff_mem, not_or]
  exact ⟨⟨⟨⟨hempty, hhere⟩, hup⟩, hslash⟩, hbackslash⟩

/-- What is in front of the last dot of a file name. -/
theorem stem_append (s : String) {ext : String} (hext : '.' ∉ ext.toList) :
    Package.stem (s ++ "." ++ ext) = s := by
  have hname : (s ++ "." ++ ext).toList = s.toList ++ '.' :: ext.toList := by simp
  have hbehind : ∀ c ∈ ext.toList.reverse, (c != '.') = true := by
    intro c hc
    rw [bne_iff_ne]
    rintro rfl
    exact hext (List.mem_reverse.1 hc)
  have hback : (s ++ "." ++ ext).toList.reverse.dropWhile (· != '.') = '.' :: s.toList.reverse := by
    rw [hname, List.reverse_append, List.reverse_cons, List.append_assoc,
      List.dropWhile_append_of_pos hbehind]
    rfl
  have hdot : (s ++ "." ++ ext).toList.contains '.' = true := by simp [hname]
  simp only [Package.stem, hdot, if_true, hback]
  simp

theorem stem_source (w : String) (kotlin : Bool) : Package.stem (w ++ extension kotlin) = w := by
  cases kotlin
  · have hext : extension false = "." ++ "java" := by decide
    rw [hext, ← String.append_assoc, stem_append w (by simp)]
  · have hext : extension true = "." ++ "kt" := by decide
    rw [hext, ← String.append_assoc, stem_append w (by simp)]

theorem allBlank_qualified (s t : String) : Text.allBlank (s ++ "." ++ t) = false := by
  have hdot : Text.isBlank '.' = false := by decide
  simp [Text.allBlank, hdot]

/-- Where the names of a file are text, the unit in it is told by these texts. -/
theorem unitOfFile_encode (folders : List String) (w content : String) :
    Engine.unitOfFile ((folders ++ [w]).map Text.encode) content =
      ⟨Text.join "/" folders, Package.qualifiedName? content w, w, content⟩ := by
  have hfolders : (folders.map Text.encode).map Text.decodeLossy = folders := by
    rw [List.map_map]
    exact (List.map_congr_left fun v _ => Text.decodeLossy_encode v).trans (List.map_id folders)
  simp [Engine.unitOfFile, -List.map_map, hfolders, Text.decodeLossy_encode]

/-- The folders of a unit in a file of neat names are those that lead to the file, whether its text
    names the package or none. -/
theorem folders_unitOfFile {content : String} {kotlin : Bool} (hfolders : ∀ v ∈ folders, IsNeat v)
    (hw : IsNeat w) (hpackage : Package.declared? content = none ∨
      Package.declared? content = some (Text.join "." folders)) :
    (Engine.unitOfFile ((folders ++ [w ++ extension kotlin]).map Text.encode) content).folders =
      folders := by
  rw [unitOfFile_encode]
  rcases hpackage with hnone | hsome
  · have hslash : folderNames ['/', '\\'] (Text.join "/" folders) = folders :=
      folderNames_join (by simp [Separate]) (c := '/') rfl (by simp) hfolders
    simp [SourceUnit.folders, Package.qualifiedName?, hnone, hslash]
  · have hseparate : Separate ['.', '/'] := by simp [Separate]
    have hstem : Package.stem (w ++ extension kotlin) = w := stem_source w kotlin
    have hqualified : folderNames ['.', '/'] (Text.join "." folders ++ "." ++ w) = folders ++ [w] := by
      rw [folderNames_append (c := '.') rfl (by simp),
        folderNames_join hseparate (c := '.') rfl (by simp) hfolders, folderNames_neat hseparate hw]
    simp [SourceUnit.folders, Package.qualifiedName?, hsome, hstem, hw.ne_empty,
      allBlank_qualified, hqualified]

/-- The unit in a file of neat names has the path of the file, whether its text names the package or
    none. -/
theorem below?_unitOfFile {content : String} {kotlin : Bool} (hfolders : ∀ v ∈ folders, IsNeat v)
    (hw : IsNeat w) (hpackage : Package.declared? content = none ∨
      Package.declared? content = some (Text.join "." folders)) :
    (Engine.unitOfFile ((folders ++ [w ++ extension kotlin]).map Text.encode) content).below? =
      some ((folders ++ [w ++ extension kotlin]).map Text.encode) := by
  rw [below?, folders_unitOfFile hfolders hw hpackage, unitOfFile_encode]
  simp [plainName?_source hw]

/-- A unit in a file is blank only if its text is. -/
theorem isBlank_unitOfFile {content : String} {kotlin : Bool} (h : Text.allBlank content = false) :
    (Engine.unitOfFile ((folders ++ [w ++ extension kotlin]).map Text.encode) content).isBlank =
      false := by
  have hdot : Text.isBlank '.' = false := by decide
  have hname : Text.allBlank (w ++ extension kotlin) = false := by
    cases kotlin <;> simp [Text.allBlank, extension, hdot]
  rw [unitOfFile_encode]
  simp [isBlank, h, hname]

end SourceUnit

end SourceRecovery
