import SourceRecovery.CompileTask
import SourceRecovery.Proofs.Text.Occurrence

/-!
# Names of variants

The compile task of a variant has the variant's name between `compile` and `Kotlin`. What is read off
its name again is the variant, for every name that holds neither of the two words.

* `IsDistinct`: such a name.
* `variant_ofVariant`, `recoveryTask_ofVariant`: the variant, and the task that recovers its sources.
* `isEligible_ofVariant`: which of these tasks count.
* `ofVariant_names_variant`: all of this, and no two variants share a name.
-/

namespace SourceRecovery.CompileTask

variable {v : String}

/-- The task that compiles a variant in Kotlin. -/
def ofVariant (v : String) : CompileTask :=
  ⟨"compile" ++ v ++ "Kotlin"⟩

/-- Whether a name holds neither of the words that stand around it in the name of a task: `compile` as
    it is spelled there, and `kotlin` in no ASCII case. -/
structure IsDistinct (v : String) : Prop where
  no_compile : ¬ "compile".toList <:+: v.toList
  no_kotlin : ¬ "kotlin".toList <:+: Text.lowerAscii v.toList

theorem name_ofVariant (v : String) :
    (ofVariant v).name.toList = "compile".toList ++ (v.toList ++ "Kotlin".toList) := by
  simp [ofVariant]

theorem lowerAscii_name_ofVariant (v : String) : Text.lowerAscii (ofVariant v).name.toList =
    "compile".toList ++ (Text.lowerAscii v.toList ++ "kotlin".toList) := by
  have hcompile : Text.lowerAscii "compile".toList = "compile".toList := by decide
  have hkotlin : Text.lowerAscii "Kotlin".toList = "kotlin".toList := by decide
  rw [name_ofVariant, ← hcompile, ← hkotlin]
  simp only [Text.lowerAscii, List.map_append, List.map_map]
  rfl

theorem IsDistinct.no_capital (h : IsDistinct v) : ¬ "Kotlin".toList <:+: v.toList := by
  intro hin
  have hlower : Text.lowerAscii "Kotlin".toList = "kotlin".toList := by decide
  exact h.no_kotlin (hlower ▸ hin.map Char.toLower)

/-- The first `compile` goes, and there is no other; then the last `Kotlin`. -/
theorem variant_ofVariant (h : IsDistinct v) : (ofVariant v).variant = v := by
  have hnone : ¬ "compile".toList <:+: v.toList ++ "Kotlin".toList := by
    rw [Text.infix_append_of_endsApart (by decide), not_or]
    exact ⟨h.no_compile, Text.occursIn_eq_false_iff.1 (by decide)⟩
  have hkotlin : Text.eraseIgnoringCase "kotlin".toList "Kotlin".toList = [] := by decide
  rw [variant, name_ofVariant, Text.replaceAll_word_append (by decide), List.nil_append,
    Text.replaceAll_eq_self _ hnone, Text.eraseIgnoringCase_append h.no_kotlin (by decide), hkotlin,
    List.append_nil, String.ofList_toList]

theorem recoveryTask_ofVariant (h : IsDistinct v) :
    (ofVariant v).recoveryTask = "decompile" ++ v ++ "Composable" := by
  have hname : ("de" ++ (ofVariant v).name).toList =
      ("decompile".toList ++ v.toList) ++ "Kotlin".toList := by
    simp [ofVariant]
  have hnone : ¬ "Kotlin".toList <:+: "decompile".toList ++ v.toList := by
    rw [Text.infix_append_of_beginsApart (by decide), not_or]
    exact ⟨Text.occursIn_eq_false_iff.1 (by decide), h.no_capital⟩
  have hkotlin : Text.replaceAll "Kotlin".toList "Composable".toList "Kotlin".toList =
      "Composable".toList := by decide
  rw [recoveryTask, hname, Text.replaceAll_append _ hnone (by decide), hkotlin, ← String.toList_inj]
  simp

/-! ## Words in the name of a task -/

/-- The words that stand in the names of tasks that do not count. -/
def excludedWords : List String :=
  ["test", "ksp", "kapt"]

/-- None of these words can hold a part of `compile` or of `kotlin`. -/
theorem excludedWords_apart : ∀ word ∈ excludedWords,
    Text.occursIn word.toList "compile".toList = false ∧
    Text.occursIn word.toList "kotlin".toList = false ∧
    Text.BeginsApart word.toList "compile".toList ∧ Text.EndsApart word.toList "kotlin".toList := by
  decide

/-- So such a word stands in the name of a variant's task only if it stands in that of the variant. -/
theorem occursIn_name_ofVariant (v : String) {word : String} (hword : word ∈ excludedWords) :
    Text.occursIn word.toList (Text.lowerAscii (ofVariant v).name.toList) = false ↔
      ¬ word.toList <:+: Text.lowerAscii v.toList := by
  obtain ⟨hcompile, hkotlin, hbegins, hends⟩ := excludedWords_apart word hword
  rw [Text.occursIn_eq_false_iff, lowerAscii_name_ofVariant, Text.infix_append_of_beginsApart hbegins,
    Text.infix_append_of_endsApart hends]
  simp only [Text.occursIn_eq_false_iff.1 hcompile, Text.occursIn_eq_false_iff.1 hkotlin, false_or,
    or_false]

theorem isEligible_ofVariant (v : String) : (ofVariant v).isEligible = true ↔
    ∀ word ∈ excludedWords, ¬ word.toList <:+: Text.lowerAscii v.toList := by
  have hcompile : "compile".toList.isPrefixOf (ofVariant v).name.toList = true := by
    rw [List.isPrefixOf_iff_prefix, name_ofVariant]
    exact List.prefix_append _ _
  have hkotlin : Text.occursIn "kotlin".toList (Text.lowerAscii (ofVariant v).name.toList) = true := by
    rw [Text.occursIn_iff, lowerAscii_name_ofVariant, ← List.append_assoc]
    exact (List.suffix_append _ _).isInfix
  have hwords : (ofVariant v).isEligible = true ↔ ∀ word ∈ excludedWords,
      Text.occursIn word.toList (Text.lowerAscii (ofVariant v).name.toList) = false := by
    simp only [isEligible, hcompile, hkotlin]
    simp [excludedWords, and_assoc]
  rw [hwords]
  exact forall₂_congr fun word hword => occursIn_name_ofVariant v hword

/-! ## Round trip -/

/-- What is read off the name of a variant's compile task: the variant is the name of its folder, the
    task that recovers its sources is `decompile` with the variant, and it counts unless the variant is
    one of tests or of a processor. So different variants have different folders and tasks. -/
theorem ofVariant_names_variant (h : IsDistinct v) :
    (ofVariant v).variant = v ∧
    (ofVariant v).recoveryTask = "decompile" ++ v ++ "Composable" ∧
    ((ofVariant v).isEligible = true ↔
      ∀ word ∈ excludedWords, ¬ word.toList <:+: Text.lowerAscii v.toList) ∧
    ∀ w, IsDistinct w → w ≠ v →
      (ofVariant w).variant ≠ (ofVariant v).variant ∧
      (ofVariant w).recoveryTask ≠ (ofVariant v).recoveryTask := by
  refine ⟨variant_ofVariant h, recoveryTask_ofVariant h, isEligible_ofVariant v, ?_⟩
  intro w hw hne
  rw [variant_ofVariant hw, variant_ofVariant h, recoveryTask_ofVariant hw, recoveryTask_ofVariant h]
  refine ⟨hne, fun heq => hne ?_⟩
  rw [← String.toList_inj] at heq ⊢
  simpa using heq

/-- A variant whose name could be taken for parts of the words around it: its beginning for the end of
    `compile`, its end for the beginning of `Kotlin`. -/
theorem ofVariant_names_variant_overlapping :
    (ofVariant "pileÉtéCompileKot").variant = "pileÉtéCompileKot" ∧
    (ofVariant "pileÉtéCompileKot").recoveryTask = "decompilepileÉtéCompileKotComposable" ∧
    (ofVariant "pileÉtéCompileKot").isEligible = true ∧
    (ofVariant "").variant ≠ (ofVariant "pileÉtéCompileKot").variant := by
  have hdistinct : ∀ name ∈ ["pileÉtéCompileKot", ""], IsDistinct name := by
    have hall : ∀ name ∈ ["pileÉtéCompileKot", ""],
        Text.occursIn "compile".toList name.toList = false ∧
          Text.occursIn "kotlin".toList (Text.lowerAscii name.toList) = false := by decide
    intro name hname
    obtain ⟨hcompile, hkotlin⟩ := hall name hname
    exact ⟨Text.occursIn_eq_false_iff.1 hcompile, Text.occursIn_eq_false_iff.1 hkotlin⟩
  obtain ⟨hvariant, htask, heligible, hother⟩ :=
    ofVariant_names_variant (hdistinct "pileÉtéCompileKot" (by simp))
  refine ⟨hvariant, htask, heligible.2 fun word hword => Text.occursIn_eq_false_iff.1 ?_,
    (hother "" (hdistinct "" (by simp)) (by decide)).1⟩
  revert word
  decide

end SourceRecovery.CompileTask
