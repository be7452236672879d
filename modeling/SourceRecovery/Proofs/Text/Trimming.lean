import Mathlib.Data.List.DropRight
import SourceRecovery.Text.Blank

/-!
# Trimmed texts

* `trim_eq_self`, `trim_eq_empty`: the texts that trimming leaves alone, and those of which it leaves
  nothing.
* `mem_trimmed`, `not_mem_trim`: it loses nothing but blanks, and adds nothing.
* `trimStart_append_blank`, `trimEnd_append_blank`, `trimEnd_append`: what is left of a text that has
  been put together.
-/

namespace SourceRecovery.Text

variable {c : Char} {cs ds gap : List Char} {s : String}

/-! ## Whole texts -/

theorem dropWhile_eq_self {p : Char → Bool} (h : ∀ c ∈ cs, p c = false) : cs.dropWhile p = cs := by
  cases cs with
  | nil => rfl
  | cons c cs => exact List.dropWhile_cons_of_neg (by simp [h c List.mem_cons_self])

theorem trimEnd_eq_self (h : ∀ c ∈ cs, isBlank c = false) : trimEnd cs = cs := by
  have hreverse : ∀ c ∈ cs.reverse, isBlank c = false := fun c hc => h c (List.mem_reverse.1 hc)
  rw [trimEnd, dropWhile_eq_self hreverse, List.reverse_reverse]

theorem trim_eq_self (h : ∀ c ∈ s.toList, isBlank c = false) : trim s = s := by
  rw [trim, trimmed, trimStart, dropWhile_eq_self h, trimEnd_eq_self h, String.ofList_toList]

/-! ## What is kept -/

theorem mem_dropWhile (hc : c ∈ cs) (h : isBlank c = false) : c ∈ cs.dropWhile isBlank := by
  rw [← List.takeWhile_append_dropWhile (p := isBlank) (l := cs)] at hc
  refine (List.mem_append.1 hc).resolve_left fun hmem => ?_
  rw [List.all_eq_true.1 List.all_takeWhile c hmem] at h
  cases h

theorem mem_trimEnd (hc : c ∈ cs) (h : isBlank c = false) : c ∈ trimEnd cs :=
  List.mem_reverse.2 (mem_dropWhile (List.mem_reverse.2 hc) h)

theorem mem_trimmed (hc : c ∈ cs) (h : isBlank c = false) : c ∈ trimmed cs :=
  mem_trimEnd (mem_dropWhile hc h) h

/-- Trimming adds no character. -/
theorem not_mem_trim (h : c ∉ s.toList) : c ∉ (trim s).toList := by
  rw [trim, String.toList_ofList, trimmed, trimEnd, List.mem_reverse]
  intro hc
  have hstart := List.mem_reverse.1 ((List.dropWhile_suffix _).subset hc)
  exact h ((List.dropWhile_suffix _).subset hstart)

theorem trim_eq_empty : trim s = "" ↔ allBlank s = true := by
  rw [trim, ← String.toList_inj, String.toList_ofList, allBlank, List.all_eq_true]
  constructor
  · intro hnil c hc
    rw [← Bool.not_eq_false]
    intro hnot
    have hkept : c ∈ trimmed s.toList := mem_trimmed hc hnot
    rw [hnil] at hkept
    cases hkept
  · intro h
    rw [trimmed, trimStart, List.dropWhile_eq_nil_iff.2 h]
    rfl

/-! ## Texts that have been put together -/

theorem trimStart_append_blank (h : ∀ c ∈ gap, isBlank c = true) :
    trimStart (gap ++ cs) = trimStart cs :=
  List.dropWhile_append_of_pos h

theorem trimEnd_append_blank (h : ∀ c ∈ gap, isBlank c = true) :
    trimEnd (cs ++ gap) = trimEnd cs := by
  have hreverse : ∀ c ∈ gap.reverse, isBlank c = true := fun c hc => h c (List.mem_reverse.1 hc)
  rw [trimEnd, List.reverse_append, List.dropWhile_append_of_pos hreverse, trimEnd]

/-- A text is trimmed within its last part, if something is left of that. -/
theorem trimEnd_append (cs : List Char) (h : trimEnd ds ≠ []) :
    trimEnd (cs ++ ds) = cs ++ trimEnd ds := by
  have hleft : (ds.reverse.dropWhile isBlank).isEmpty = false := by
    rw [← Bool.not_eq_true, List.isEmpty_iff]
    intro hnil
    apply h
    rw [trimEnd, hnil, List.reverse_nil]
  rw [trimEnd, List.reverse_append, List.dropWhile_append, hleft]
  simp [trimEnd]

/-- What is taken away at the end is blank. -/
theorem exists_blank_trimEnd (cs : List Char) :
    ∃ gap, trimEnd cs ++ gap = cs ∧ ∀ c ∈ gap, isBlank c = true :=
  ⟨cs.rtakeWhile isBlank, List.rdropWhile_append_rtakeWhile, fun _ => List.mem_rtakeWhile_imp⟩

end SourceRecovery.Text
