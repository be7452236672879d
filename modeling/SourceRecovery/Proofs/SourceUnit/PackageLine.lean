import SourceRecovery.Proofs.Engine.Collected
import SourceRecovery.Proofs.SourceUnit.Confinement
import SourceRecovery.Proofs.SourceUnit.Package

/-!
# A package becomes folders

What a source says of its package is read from its text, put in front of the name of its file, and
cut into folders again. For every way of writing a package line, what comes out is what went in.

* `WrittenName`, `WrittenLine`: the ways of writing one.
* `declared?_written`: it is found behind lines that say nothing of a package, and read.
* `below?_qualified`: the names of the package lead to the file of the unit.
* `harvest_places_packages`: so they do for every unit that is handed over.
-/

namespace SourceRecovery

namespace Package

variable {c : Char} {cs : List Char}

/-! ## Ways of writing a package line -/

/-- Blanks within a line. -/
structure Gap where
  chars : List Char
  blank : chars.all Text.isBlank = true
  within : '\n' ∉ chars

/-- Whether a character can stand in a name: it is no blank, and neither separates names nor quotes
    them nor ends the line. -/
def isNameChar (c : Char) : Bool :=
  !(Text.isBlank c || ['.', '/', '`', ';'].contains c)

/-- A name of a package as a line has it: in backticks or not, and with blanks around it. -/
structure WrittenName where
  before : Gap
  quoted : Bool
  name : String
  behind : Gap
  ne_empty : name ≠ ""
  bare : name.toList.all isNameChar = true

def WrittenName.chars (w : WrittenName) : List Char :=
  let quote := if w.quoted then ['`'] else []
  w.before.chars ++ quote ++ w.name.toList ++ quote ++ w.behind.chars

/-- A package line: its names with a dot between each two, and semicolons at the end. -/
structure WrittenLine where
  indent : Gap
  first : WrittenName
  others : List WrittenName
  semicolons : Nat
  last : Gap

namespace WrittenLine

/-- The names of the package. -/
def segments (line : WrittenLine) : List String :=
  (line.first :: line.others).map WrittenName.name

/-- What stands between the word and the semicolons. -/
def body (line : WrittenLine) : List Char :=
  line.first.chars ++ line.others.flatMap fun w => '.' :: w.chars

def chars (line : WrittenLine) : List Char :=
  line.indent.chars ++ (packageWord ++ (line.body ++ List.replicate line.semicolons ';')) ++
    line.last.chars

def text (line : WrittenLine) : String :=
  String.ofList line.chars

end WrittenLine

/-- Whether a line says nothing of a package and begins no declaration either. -/
def IsPassed (line : String) : Prop :=
  '\n' ∉ line.toList ∧
    ∀ word ∈ "package " :: declarationWords, ¬ word.toList <+: Text.trimmed line.toList

instance : DecidablePred IsPassed :=
  fun _ => inferInstanceAs (Decidable (_ ∧ _))

/-! ## Reading the line -/

/-- Whether a character of a package line is one of a name or a dot. -/
def isKept (c : Char) : Bool :=
  c != '`' && !Text.isBlank c

theorem filter_isKept_blank (h : ∀ c ∈ cs, Text.isBlank c = true) : cs.filter isKept = [] := by
  rw [List.filter_eq_nil_iff]
  intro c hc
  simp [isKept, h c hc]

theorem filter_isKept_trimEnd (cs : List Char) :
    (Text.trimEnd cs).filter isKept = cs.filter isKept := by
  obtain ⟨gap, hcs, hgap⟩ := Text.exists_blank_trimEnd cs
  conv_rhs => rw [← hcs, List.filter_append, filter_isKept_blank hgap, List.append_nil]

theorem reverse_dropWhile_semicolons (h : ∀ c ∈ cs, c ≠ ';') (n : Nat) :
    ((cs ++ List.replicate n ';').reverse.dropWhile (· == ';')).reverse = cs := by
  have hall : ∀ c ∈ List.replicate n ';', (c == ';') = true := by
    intro c hc
    rw [List.eq_of_mem_replicate hc]
    decide
  have hnone : ∀ c ∈ cs.reverse, (c == ';') = false := by
    intro c hc
    rw [beq_eq_false_iff_ne]
    exact h c (List.mem_reverse.1 hc)
  rw [List.reverse_append, List.reverse_replicate, List.dropWhile_append_of_pos hall,
    Text.dropWhile_eq_self hnone, List.reverse_reverse]

/-- Whether a character can stand in a package line in front of the semicolons. -/
def IsInner (c : Char) : Prop :=
  c ≠ ';' ∧ c ≠ '\n'

theorem Gap.isBlank (g : Gap) : ∀ c ∈ g.chars, Text.isBlank c = true :=
  List.all_eq_true.1 g.blank

theorem Gap.inner (g : Gap) (hc : c ∈ g.chars) : IsInner c := by
  refine ⟨?_, ?_⟩
  · rintro rfl
    have := g.isBlank _ hc
    contradiction
  · rintro rfl
    exact g.within hc

namespace WrittenName

theorem not_special (w : WrittenName) : ∀ c ∈ w.name.toList,
    Text.isBlank c = false ∧ c ∉ ['.', '/', '`', ';'] := by
  intro c hc
  have hbare := List.all_eq_true.1 w.bare c hc
  simpa [isNameChar] using hbare

theorem filter_chars (w : WrittenName) : w.chars.filter isKept = w.name.toList := by
  have hquote : (if w.quoted then ['`'] else []).filter isKept = [] := by
    cases w.quoted <;> rfl
  have hname : w.name.toList.filter isKept = w.name.toList := by
    rw [List.filter_eq_self]
    intro c hc
    obtain ⟨hblank, hnot⟩ := w.not_special c hc
    simp only [List.mem_cons, not_or] at hnot
    simp [isKept, hblank, hnot]
  simp only [chars, List.filter_append, hquote, hname, filter_isKept_blank w.before.isBlank,
    filter_isKept_blank w.behind.isBlank]
  simp

theorem inner (w : WrittenName) (hc : c ∈ w.chars) : IsInner c := by
  have hquote : c ∈ (if w.quoted then ['`'] else []) → IsInner c := by
    intro hmem
    have hc' : c = '`' := by
      cases hq : w.quoted <;> simp [hq] at hmem
      exact hmem
    rw [hc']
    exact ⟨by decide, by decide⟩
  simp only [chars, List.mem_append] at hc
  rcases hc with (((hc | hc) | hc) | hc) | hc
  · exact w.before.inner hc
  · exact hquote hc
  · obtain ⟨hblank, hnot⟩ := w.not_special c hc
    refine ⟨?_, ?_⟩
    · rintro rfl
      simp at hnot
    · rintro rfl
      contradiction
  · exact hquote hc
  · exact w.behind.inner hc

end WrittenName

namespace WrittenLine

variable (line : WrittenLine)

theorem filter_body : line.body.filter isKept = (Text.join "." line.segments).toList := by
  have hdot : isKept '.' = true := by decide
  rw [body, List.filter_append, List.filter_flatMap, segments, List.map_cons,
    Text.toList_join_cons (c := '.') rfl, List.flatMap_map, WrittenName.filter_chars]
  simp only [List.filter_cons_of_pos hdot, WrittenName.filter_chars]

theorem inner_body (hc : c ∈ line.body) : IsInner c := by
  rcases List.mem_append.1 hc with hc | hc
  · exact line.first.inner hc
  · obtain ⟨w, -, hc⟩ := List.mem_flatMap.1 hc
    rcases List.mem_cons.1 hc with rfl | hc
    · exact ⟨by decide, by decide⟩
    · exact w.inner hc

theorem join_segments_ne_nil : (Text.join "." line.segments).toList ≠ [] := by
  rw [segments, List.map_cons, Text.toList_join_cons (c := '.') rfl]
  refine List.append_ne_nil_of_left_ne_nil (fun hnil => ?_) _
  exact line.first.ne_empty (String.toList_inj.1 hnil)

/-- Trimming leaves the word that the line begins with. -/
theorem trimmed_chars : Text.trimmed line.chars =
    packageWord ++ Text.trimEnd (line.body ++ List.replicate line.semicolons ';') := by
  have hstart : Text.trimStart (packageWord ++ (line.body ++ List.replicate line.semicolons ';') ++
      line.last.chars) = packageWord ++ (line.body ++ List.replicate line.semicolons ';') ++
        line.last.chars := rfl
  have hleft : Text.trimEnd (line.body ++ List.replicate line.semicolons ';') ≠ [] := by
    obtain ⟨c, rest, hkept⟩ := List.exists_cons_of_ne_nil line.join_segments_ne_nil
    have hc : c ∈ line.body.filter isKept := by
      rw [filter_body, hkept]
      exact List.mem_cons_self
    obtain ⟨hmem, hkeep⟩ := List.mem_filter.1 hc
    have hblank : Text.isBlank c = false := by
      simp only [isKept, Bool.and_eq_true, Bool.not_eq_true'] at hkeep
      exact hkeep.2
    exact List.ne_nil_of_mem (Text.mem_trimEnd (List.mem_append_left _ hmem) hblank)
  rw [Text.trimmed, chars, List.append_assoc, Text.trimStart_append_blank line.indent.isBlank, hstart,
    Text.trimEnd_append_blank line.last.isBlank, Text.trimEnd_append packageWord hleft]

theorem begins_trimmed : packageWord.isPrefixOf (Text.trimmed line.chars) = true := by
  rw [List.isPrefixOf_iff_prefix, trimmed_chars]
  exact List.prefix_append packageWord _

theorem not_mem_chars : '\n' ∉ line.chars := by
  intro hfeed
  simp only [chars, List.mem_append] at hfeed
  rcases hfeed with (hfeed | hfeed | hfeed | hfeed) | hfeed
  · exact line.indent.within hfeed
  · exact absurd hfeed (by decide)
  · exact (line.inner_body hfeed).2 rfl
  · exact absurd (List.eq_of_mem_replicate hfeed) (by decide)
  · exact line.last.within hfeed

/-- The semicolons go, and the blanks in front of them with the others; where there are no semicolons
    those are gone before. -/
theorem nameOnLine_trimmed :
    nameOnLine (Text.trimmed line.chars) = (Text.join "." line.segments).toList := by
  rw [trimmed_chars, nameOnLine, List.drop_left, ← filter_body]
  show (List.reverse _).filter isKept = _
  cases hn : line.semicolons with
  | zero =>
    have hnone : ∀ c ∈ Text.trimEnd line.body, c ≠ ';' := by
      intro c hc
      obtain ⟨gap, hbody, -⟩ := Text.exists_blank_trimEnd line.body
      refine (line.inner_body ?_).1
      rw [← hbody]
      exact List.mem_append_left gap hc
    have hbare := reverse_dropWhile_semicolons hnone 0
    rw [List.replicate_zero, List.append_nil] at hbare ⊢
    rw [hbare, filter_isKept_trimEnd]
  | succ n =>
    have hsemicolons : Text.trimEnd (List.replicate (n + 1) ';') = List.replicate (n + 1) ';' := by
      refine Text.trimEnd_eq_self fun c hc => ?_
      rw [List.eq_of_mem_replicate hc]
      decide
    rw [Text.trimEnd_append line.body (by simp [hsemicolons]), hsemicolons,
      reverse_dropWhile_semicolons fun c hc => (line.inner_body hc).1]

end WrittenLine

/-! ## Finding the line -/

theorem declaredByLines?_append {front : List (List Char)} (ls : List (List Char))
    (h : ∀ l ∈ front, ∀ word ∈ "package " :: declarationWords, ¬ word.toList <+: l) :
    declaredByLines? (front ++ ls) = declaredByLines? ls := by
  induction front with
  | nil => rfl
  | cons l front ih =>
    obtain ⟨hl, hfront⟩ := List.forall_mem_cons.1 h
    obtain ⟨hpackage, hwords⟩ := List.forall_mem_cons.1 hl
    have hno : packageWord.isPrefixOf l = false := by
      rw [← Bool.not_eq_true, List.isPrefixOf_iff_prefix]
      exact hpackage
    have hbegins : beginsDeclaration l = false := by
      rw [beginsDeclaration, List.any_eq_false]
      intro word hword
      rw [List.isPrefixOf_iff_prefix]
      exact hwords word hword
    rw [List.cons_append, declaredByLines?, hno, hbegins]
    exact ih hfront

/-- A package line is found behind lines that are passed, and whatever follows. -/
theorem declared?_written (line : WrittenLine) {before : List String}
    (hbefore : ∀ l ∈ before, IsPassed l) (behind : List String) :
    declared? (Text.join "\n" (before ++ line.text :: behind)) =
      some (Text.join "." line.segments) := by
  have hline : Text.lines line.text.toList = [line.chars] := by
    rw [WrittenLine.text, String.toList_ofList]
    exact Text.lines_eq_singleton line.not_mem_chars
  have hpassed : ∀ l ∈ (before.flatMap fun w => Text.lines w.toList).map Text.trimmed,
      ∀ word ∈ "package " :: declarationWords, ¬ word.toList <+: l := by
    intro l hl
    obtain ⟨cs, hcs, rfl⟩ := List.mem_map.1 hl
    obtain ⟨w, hw, hcs⟩ := List.mem_flatMap.1 hcs
    obtain ⟨hfeed, hwords⟩ := hbefore w hw
    rw [Text.lines_eq_singleton hfeed] at hcs
    rw [List.mem_singleton.1 hcs]
    exact hwords
  have hempty : (Text.join "." line.segments).toList.isEmpty = false := by
    rw [← Bool.not_eq_true, List.isEmpty_iff]
    exact line.join_segments_ne_nil
  rw [declared?, Text.lines_join (by simp), List.flatMap_append, List.flatMap_cons, hline,
    List.map_append, declaredByLines?_append _ hpassed, List.singleton_append, List.map_cons,
    declaredByLines?, line.nameOnLine_trimmed, hempty, line.begins_trimmed]
  simp

end Package

/-! ## From the package to the folders -/

namespace SourceUnit

variable {u : SourceUnit} {stem ext content : String}

/-- A file name with a stem that is not blank is one plain name. -/
theorem plainName?_append (hstem : Text.allBlank stem = false)
    (hapart : ∀ c ∈ ['.', '/', '\\'], c ∉ stem.toList ∧ c ∉ ext.toList) :
    plainName? (stem ++ "." ++ ext) = some (Text.trim (stem ++ "." ++ ext)) := by
  obtain ⟨c, hc, hblank⟩ := List.all_eq_false.1 hstem
  have hdot : c ≠ '.' := by
    rintro rfl
    exact (hapart '.' (by simp)).1 hc
  have hkept : c ∈ (Text.trim (stem ++ "." ++ ext)).toList := by
    rw [Text.trim, String.toList_ofList]
    exact Text.mem_trimmed (by simp [hc]) (by simpa using hblank)
  have hslash : ∀ d ∈ ['/', '\\'], d ∉ (Text.trim (stem ++ "." ++ ext)).toList := by
    intro d hd
    have hnot := hapart d (List.mem_cons_of_mem _ hd)
    refine Text.not_mem_trim ?_
    have hother : d ≠ '.' := by
      rintro rfl
      simp at hd
    simp [hnot, hother]
  cases hname : plainName? (stem ++ "." ++ ext) with
  | some name => rw [plainName?_eq_some hname]
  | none =>
    exfalso
    rcases plainName?_eq_none.1 hname with h | h | h | h | h
    · simp [h] at hkept
    · simp [h, hdot] at hkept
    · simp [h, hdot] at hkept
    · exact hslash _ (by simp) h
    · exact hslash _ (by simp) h

theorem folderNames_stem (hstem : Text.allBlank stem = false)
    (huncut : ∀ c ∈ stem.toList, c ∉ ['.', '/']) :
    folderNames ['.', '/'] stem = [Text.trim stem] := by
  have hnot : ∀ c ∈ ['.', '/'], c ∉ (Text.trim stem).toList := fun c hc =>
    Text.not_mem_trim fun hmem => huncut c hmem hc
  refine folderNames_uncut huncut (Path.isPlain_encode.2 ⟨?_, ?_, ?_, hnot '/' (by simp)⟩)
  · intro hempty
    rw [Text.trim_eq_empty.1 hempty] at hstem
    cases hstem
  · intro hhere
    exact hnot '.' (by simp) (by simp [hhere])
  · intro hup
    exact hnot '.' (by simp) (by simp [hup])

theorem folderNames_segments (line : Package.WrittenLine) :
    folderNames ['.', '/'] (Text.join "." line.segments) = line.segments := by
  refine folderNames_join_of_each (c := '.') rfl (by simp) fun w hw => ?_
  obtain ⟨v, -, rfl⟩ := List.mem_map.1 hw
  have hblank : Text.trim v.name = v.name := Text.trim_eq_self fun c hc => (v.not_special c hc).1
  have hstem : Text.allBlank v.name = false := by
    rw [← Bool.not_eq_true, ← Text.trim_eq_empty, hblank]
    exact v.ne_empty
  have huncut : ∀ c ∈ v.name.toList, c ∉ ['.', '/'] := by
    intro c hc hmem
    exact (v.not_special c hc).2 (List.mem_append_left ['`', ';'] hmem)
  rw [folderNames_stem hstem huncut, hblank]

/-- The names of the package, and the name of the file, lead to the file of a unit. -/
theorem below?_qualified (line : Package.WrittenLine) (hstem : Text.allBlank stem = false)
    (hapart : ∀ c ∈ ['.', '/', '\\'], c ∉ stem.toList ∧ c ∉ ext.toList)
    (hdeclared : Package.declared? content = some (Text.join "." line.segments))
    (hentry : u.entryName = stem ++ "." ++ ext)
    (hqualified : u.qualifiedName = Package.qualifiedName? content u.entryName) :
    u.below? = some ((line.segments ++ [Text.trim (stem ++ "." ++ ext)]).map Text.encode) := by
  have huncut : ∀ c ∈ stem.toList, c ∉ ['.', '/'] := fun c hc hmem =>
    (hapart c (List.mem_append_left ['\\'] hmem)).1 hc
  have hne : stem ≠ "" := by
    rintro rfl
    cases hstem
  have hname : u.qualifiedName = some (Text.join "." line.segments ++ "." ++ stem) := by
    rw [hqualified, Package.qualifiedName?, hdeclared, hentry,
      stem_append stem (hapart '.' (by simp)).2]
    exact if_neg (by simpa using hne)
  have hfolders : u.folders = line.segments := by
    simp only [folders, hname, allBlank_qualified]
    rw [if_neg (by simp), folderNames_append (c := '.') rfl (by simp), folderNames_segments,
      folderNames_stem hstem huncut, List.dropLast_concat]
  rw [below?, hentry, plainName?_append hstem hapart, hfolders, Option.map_some]

end SourceUnit

namespace Engine

variable {σ : Type} {receiver : Work.Receiver σ} {cwd : Address} {base : Path} {t : FileTree} {s : σ}
  {u : SourceUnit} {stem ext : String}

/-- Whatever is handed over of a folder is the unit in a file. -/
theorem exists_of_mem_handed_deliverFiles {files : List Address}
    (h : u ∈ (deliverFiles cwd base files).handed receiver t s) :
    ∃ names content, u = unitOfFile names content := by
  induction files generalizing t s with
  | nil => cases h
  | cons names rest ih =>
    rw [deliverFiles, Work.handed] at h
    simp only [id] at h
    cases htext : readText t cwd (base.descend names) with
    | error cause =>
      rw [htext] at h
      cases h
    | ok content =>
      simp only [htext, Work.handed] at h
      rcases List.mem_cons.1 h with rfl | h
      · exact ⟨namesOfFile base names, content, rfl⟩
      · cases hanswer : (receiver.onUnit (unitOfFile (namesOfFile base names) content) t s).1 with
        | error failure =>
          rw [hanswer] at h
          cases h
        | ok _ =>
          rw [hanswer] at h
          exact ih h

theorem exists_of_mem_handed (h : u ∈ (harvest cwd base).handed receiver t s) :
    ∃ names content, u = unitOfFile names content := by
  rw [harvest, Work.handed] at h
  simp only [id] at h
  cases hwalk : t.walkFiles cwd base with
  | error cause =>
    rw [hwalk] at h
    cases h
  | ok files =>
    rw [hwalk] at h
    exact exists_of_mem_handed_deliverFiles h

/-- A source with a package line, however it is written, behind lines that neither name a package nor
    begin a declaration, and in front of any others: the unit in its file is written below the output
    root, where the names of the package are the folders and the file keeps its name. In which folder
    of the decompiler's output the file stood makes no difference. -/
theorem harvest_places_packages (line : Package.WrittenLine) {before : List String}
    (hbefore : ∀ l ∈ before, Package.IsPassed l) (behind : List String)
    (hstem : Text.allBlank stem = false)
    (hapart : ∀ c ∈ ['.', '/', '\\'], c ∉ stem.toList ∧ c ∉ ext.toList) (root : Path) :
    let content := Text.join "\n" (before ++ line.text :: behind)
    let entryName := stem ++ "." ++ ext
    let names := line.segments ++ [Text.trim entryName]
    (∀ dirs, (unitOfFile (dirs ++ [Text.encode entryName]) content).destination? root =
      some (root.descend (names.map Text.encode))) ∧
    (root.descend (names.map Text.encode)).components =
      root.components ++ names.map (fun w => .name (Text.encode w)) ∧
    ∀ {σ : Type} (receiver : Work.Receiver σ) (t : FileTree) (s : σ) (cwd : Address) (base : Path),
      ∀ u ∈ (harvest cwd base).handed receiver t s, u.entryName = entryName → u.content = content →
        u.destination? root = some (root.descend (names.map Text.encode)) := by
  intro content entryName names
  have hdeclared := Package.declared?_written line hbefore behind
  have hunit : ∀ dirs text, (unitOfFile dirs text).entryName = entryName → text = content →
      (unitOfFile dirs text).below? = some (names.map Text.encode) := by
    rintro dirs _ hentry rfl
    exact SourceUnit.below?_qualified line hstem hapart hdeclared hentry rfl
  refine ⟨fun dirs => ?_, ?_, ?_⟩
  · rw [SourceUnit.destination?_eq, hunit _ content (by simp [unitOfFile]) rfl, Option.map_some]
  · obtain ⟨hne, hplain⟩ := SourceUnit.plain_of_below?
      (hunit [entryName] content (by simp [unitOfFile]) rfl)
    rw [Path.components_descend_plain root hplain hne, List.map_map]
    rfl
  · intro σ receiver t s cwd base u hu hentry htext
    obtain ⟨dirs, text, rfl⟩ := exists_of_mem_handed hu
    rw [SourceUnit.destination?_eq, hunit dirs text hentry htext, Option.map_some]

/-- A package line with blanks, backticks, semicolons and a carriage return. -/
def spacedLine : Package.WrittenLine where
  indent := ⟨[' '], by decide, by decide⟩
  first := ⟨⟨[], by decide, by decide⟩, false, "com", ⟨[' '], by decide, by decide⟩, by decide, by decide⟩
  others := [⟨⟨['\t'], by decide, by decide⟩, true, "when", ⟨[], by decide, by decide⟩, by decide, by decide⟩]
  semicolons := 2
  last := ⟨['\r'], by decide, by decide⟩

/-- It is read behind a comment and an annotation, and leads to its folders. -/
theorem harvest_places_packages_spacedLine :
    (unitOfFile ["classes", "Größe.kt"]
      "/** No package */\r\n@Marked\n package com .\t`when`;;\r\nclass Größe\npackage x.y").destination?
      ⟨"out"⟩ = some ⟨"out/com/when/Größe.kt"⟩ := by
  have hplaced := (harvest_places_packages spacedLine
    (show ∀ l ∈ ["/** No package */\r", "@Marked"], Package.IsPassed l by decide +kernel)
    ["class Größe", "package x.y"] (show Text.allBlank "Größe" = false by decide +kernel)
    (show ∀ c ∈ ['.', '/', '\\'], c ∉ "Größe".toList ∧ c ∉ "kt".toList by simp)
    ⟨"out"⟩).1 ["classes"]
  have hpath : (⟨"out"⟩ : Path).descend
      ((spacedLine.segments ++ [Text.trim ("Größe" ++ "." ++ "kt")]).map Text.encode) =
      ⟨"out/com/when/Größe.kt"⟩ := by decide +kernel
  rw [hpath] at hplaced
  exact hplaced

end Engine

end SourceRecovery
