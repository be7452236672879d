import SourceRecovery.Proofs.SourceUnit.PackageLine

/-!
# Where the search for a package ends

The lines of a source are read until one names a package or begins a declaration, and a declaration is
known by the word that its line begins with. Behind such a line nothing is taken for a package; behind
a line that begins with another word everything is read as if the line were not there.

* `declared?_front`: what lines that name no package leave of the search.
* `harvest_keeps_folders`: the sources that keep their own folders whatever follows, and no others.
* `declared?_dataClass`: the word `data` is not among those that end the search.
-/

namespace SourceRecovery

namespace Package

variable {front behind : List String}

/-! ## Lines in front -/

/-- Whether a text is one line, and that line does not begin with `package `. -/
def NamesNoPackage (line : String) : Prop :=
  '\n' ∉ line.toList ∧ ¬ packageWord <+: Text.trimmed line.toList

instance : DecidablePred NamesNoPackage :=
  fun _ => inferInstanceAs (Decidable (_ ∧ _))

/-- Whether the search for a package ends at a line, as one that begins a declaration. -/
def EndsSearch (line : String) : Prop :=
  ∃ word ∈ declarationWords, word.toList <+: Text.trimmed line.toList

instance : DecidablePred EndsSearch :=
  fun _ => inferInstanceAs (Decidable (∃ word ∈ declarationWords, _))

theorem endsSearch_iff {line : String} :
    EndsSearch line ↔ beginsDeclaration (Text.trimmed line.toList) = true := by
  simp only [EndsSearch, beginsDeclaration, List.any_eq_true, List.isPrefixOf_iff_prefix]

/-- Behind a line that begins a declaration nothing is read. -/
theorem declaredByLines?_of_begins {ls rest : List (List Char)}
    (hnone : ∀ l ∈ ls, ¬ packageWord <+: l) (h : ∃ l ∈ ls, beginsDeclaration l = true) :
    declaredByLines? (ls ++ rest) = none := by
  induction ls with
  | nil =>
    obtain ⟨l, hl, -⟩ := h
    cases hl
  | cons l ls ih =>
    obtain ⟨hl, hls⟩ := List.forall_mem_cons.1 hnone
    have hno : packageWord.isPrefixOf l = false := by
      rw [← Bool.not_eq_true, List.isPrefixOf_iff_prefix]
      exact hl
    rw [List.cons_append, declaredByLines?, hno]
    by_cases hbegins : beginsDeclaration l = true
    · simp [hbegins]
    · obtain ⟨l', hl', hbegins'⟩ := h
      rcases List.mem_cons.1 hl' with rfl | hl'
      · exact absurd hbegins' hbegins
      · simpa [hbegins] using ih hls ⟨l', hl', hbegins'⟩

/-- The package of joined texts is that of the lines of each. -/
theorem declared?_join (texts : List String) : declared? (Text.join "\n" texts) =
    (declaredByLines? ((texts.flatMap fun w => Text.lines w.toList).map Text.trimmed)).map
      String.ofList := by
  by_cases htexts : texts = []
  · subst htexts
    rfl
  · rw [declared?, Text.lines_join htexts]

/-- Lines that name no package: either one of them ends the search, or they say nothing. -/
theorem declared?_front (hfront : ∀ l ∈ front, NamesNoPackage l) (behind : List String) :
    declared? (Text.join "\n" (front ++ behind)) =
      if ∃ l ∈ front, EndsSearch l then none else declared? (Text.join "\n" behind) := by
  have hlines : (front.flatMap fun w => Text.lines w.toList).map Text.trimmed =
      front.map fun l => Text.trimmed l.toList := by
    have heach : ∀ l ∈ front, Text.lines l.toList = [l.toList] := fun l hl =>
      Text.lines_eq_singleton (hfront l hl).1
    rw [List.flatMap_congr heach, ← List.map_eq_flatMap, List.map_map]
    rfl
  have hnone : ∀ l ∈ front.map fun l => Text.trimmed l.toList, ¬ packageWord <+: l :=
    List.forall_mem_map.2 fun l hl => (hfront l hl).2
  rw [declared?_join, List.flatMap_append, List.map_append, hlines]
  split
  · rename_i h
    obtain ⟨l, hl, hends⟩ := h
    rw [declaredByLines?_of_begins hnone
      ⟨_, List.mem_map_of_mem hl, endsSearch_iff.1 hends⟩]
    rfl
  · rename_i h
    rw [declaredByLines?_append, declared?_join]
    refine List.forall_mem_map.2 fun l hl => List.forall_mem_cons.2 ⟨(hfront l hl).2, ?_⟩
    intro word hword hprefix
    exact h ⟨l, hl, word, hword, hprefix⟩

/-- The search ends within some lines that name no package if and only if no package is found
    whatever follows. -/
theorem forall_declared?_eq_none (hfront : ∀ l ∈ front, NamesNoPackage l) :
    (∀ behind, declared? (Text.join "\n" (front ++ behind)) = none) ↔ ∃ l ∈ front, EndsSearch l := by
  constructor
  · intro h
    refine Classical.byContradiction fun hends => ?_
    have hfound := h ["package x"]
    rw [declared?_front hfront, if_neg hends] at hfound
    exact absurd hfound (by decide +kernel)
  · intro hends behind
    rw [declared?_front hfront, if_pos hends]

theorem qualifiedName?_eq_none {content : String} (h : declared? content = none) (entryName : String) :
    qualifiedName? content entryName = none := by
  rw [qualifiedName?, h]

end Package

namespace SourceUnit

/-- A unit without a qualified name is written below its own folder. -/
theorem destination?_of_none {u : SourceUnit} (h : u.qualifiedName = none) (root : Path) :
    u.destination? root = (plainName? u.entryName).map fun name =>
      (root.descend ((folderNames ['/', '\\'] u.folder).map Text.encode)).join (.ofText name) := by
  rw [destination?, folders, h]

end SourceUnit

namespace Engine

open Package (NamesNoPackage EndsSearch declared? qualifiedName?)

/-- A source whose first lines, up to that of its first declaration, name no package. If one of them
    ends the search, then whatever follows no package is found and no qualified name, and the units with
    this text are written below their own folders. If none does, the lines that follow are searched as
    if nothing stood in front of them: so no package is found whatever follows just in the first case. -/
theorem harvest_keeps_folders {before : List String} {declaration : String}
    (hbefore : ∀ l ∈ before, NamesNoPackage l) (hdeclaration : NamesNoPackage declaration)
    (root : Path) :
    let text := fun behind => Text.join "\n" (before ++ declaration :: behind)
    let ends := ∃ l ∈ before ++ [declaration], EndsSearch l
    ((∀ behind, declared? (text behind) = none) ↔ ends) ∧
    (ends → ∀ behind, (∀ entryName, qualifiedName? (text behind) entryName = none) ∧
      ∀ {σ : Type} (receiver : Work.Receiver σ) (t : FileTree) (s : σ) (cwd : Address) (base : Path),
        ∀ u ∈ (harvest cwd base).handed receiver t s, u.content = text behind →
          u.qualifiedName = none ∧
          u.destination? root = (SourceUnit.plainName? u.entryName).map fun name =>
            (root.descend ((SourceUnit.folderNames ['/', '\\'] u.folder).map Text.encode)).join
              (.ofText name)) ∧
    (¬ ends → ∀ behind, declared? (text behind) = declared? (Text.join "\n" behind)) := by
  intro text ends
  have hfront : ∀ l ∈ before ++ [declaration], NamesNoPackage l :=
    List.forall_mem_append.2 ⟨hbefore, List.forall_mem_singleton.2 hdeclaration⟩
  have htext : ∀ behind, text behind = Text.join "\n" ((before ++ [declaration]) ++ behind) := by
    intro behind
    rw [List.append_assoc]
    rfl
  refine ⟨?_, fun hends behind => ?_, fun hends behind => ?_⟩
  · simp only [htext]
    exact Package.forall_declared?_eq_none hfront
  · have hnone : declared? (text behind) = none := by
      rw [htext, Package.declared?_front hfront, if_pos hends]
    refine ⟨Package.qualifiedName?_eq_none hnone, ?_⟩
    intro σ receiver t s cwd base u hu hcontent
    obtain ⟨names, content, rfl⟩ := exists_of_mem_handed hu
    obtain rfl : content = text behind := hcontent
    have hname : (unitOfFile names (text behind)).qualifiedName = none :=
      Package.qualifiedName?_eq_none hnone _
    exact ⟨hname, SourceUnit.destination?_of_none hname root⟩
  · rw [htext, Package.declared?_front hfront, if_neg hends]

/-- Behind a comment, an annotation and a line that begins with `public `, a package is not read. -/
theorem harvest_keeps_folders_publicClass :
    (∃ l ∈ ["// No package", "@Marked"] ++ ["public class A"], EndsSearch l) ∧
      declared? "// No package\n@Marked\npublic class A\npackage x.y" = none ∧
      qualifiedName? "// No package\n@Marked\npublic class A\npackage x.y" "A.java" = none := by
  have hends : ∃ l ∈ ["// No package", "@Marked"] ++ ["public class A"], EndsSearch l := by
    decide +kernel
  obtain ⟨hiff, hkept, -⟩ := harvest_keeps_folders
    (show ∀ l ∈ ["// No package", "@Marked"], NamesNoPackage l by decide +kernel)
    (show NamesNoPackage "public class A" by decide +kernel) ⟨"out"⟩
  exact ⟨hends, hiff.2 hends ["package x.y"], (hkept hends ["package x.y"]).1 "A.java"⟩

/-- Most words that a declaration can begin with do not end the search: behind such a line a package is
    read wherever a line looks like one, and the unit leaves its own folder for that of the package. -/
theorem declared?_dataClass :
    let content := "data class A(val text: String = \"\"\"\npackage x.y\n\"\"\")\n"
    declared? content = some "x.y" ∧ qualifiedName? content "A.kt" = some "x.y.A" ∧
      (unitOfFile ["A.kt"] content).destination? ⟨"out"⟩ = some ⟨"out/x/y/A.kt"⟩ ∧
      ∀ declaration ∈ ["data class A", "sealed interface A", "open class A", "val a = 1",
          "typealias A = B", "protected class A", "static class A"],
        declared? (declaration ++ "\npackage x.y") = some "x.y" := by
  refine ⟨?_, ?_, ?_, ?_⟩ <;> decide +kernel

end Engine

end SourceRecovery
