import SourceRecovery.Text.Pieces

/-!
# Pieces of a text

How a text is cut follows from how it has been put together.

* `not_of_mem_splitOnP`: no piece holds a separator.
* `splitOnP_join`: texts that are joined by a separator are cut into the pieces of each.
* `lines_join`: texts that are joined by line feeds have the lines of each.
-/

namespace SourceRecovery.Text

variable {p : Char → Bool} {c : Char} {cs ds : List Char} {sep s : String} {ws : List String}

/-! ## Cutting -/

/-- No piece holds a separator. -/
theorem not_of_mem_splitOnP {α : Type} {p : α → Bool} {xs w : List α} (h : w ∈ xs.splitOnP p) :
    ∀ x ∈ w, p x = false := by
  induction xs generalizing w with
  | nil =>
    obtain rfl := List.mem_singleton.1 h
    intro x hx
    cases hx
  | cons y xs ih =>
    rw [List.splitOnP_cons_eq_if_modifyHead] at h
    split at h
    · rcases List.mem_cons.1 h with rfl | h
      · intro x hx
        cases hx
      · exact ih h
    · rename_i hy
      cases hs : xs.splitOnP p with
      | nil => exact absurd hs (List.splitOnP_ne_nil p xs)
      | cons v vs =>
        rw [hs] at h ih
        rcases List.mem_cons.1 h with rfl | h
        · intro x hx
          rcases List.mem_cons.1 hx with rfl | hx
          · simpa using hy
          · exact ih List.mem_cons_self x hx
        · exact ih (List.mem_cons_of_mem v h)

theorem pieces_append (hsep : sep.toList = [c]) (hc : p c = true) (s t : String) :
    pieces p (s ++ sep ++ t) = pieces p s ++ pieces p t := by
  rw [pieces, String.toList_append, String.toList_append, hsep, List.append_assoc,
    List.singleton_append, List.splitOnP_append_cons _ _ hc, List.map_append]
  rfl

theorem pieces_eq_singleton (h : ∀ c ∈ s.toList, p c = false) : pieces p s = [s] := by
  rw [pieces, List.splitOnP_eq_singleton h, List.map_singleton, String.ofList_toList]

/-! ## Joining -/

theorem join_cons (sep w : String) (hne : ws ≠ []) : join sep (w :: ws) = w ++ sep ++ join sep ws := by
  show sep.intercalate ([w] ++ ws) = _
  rw [String.intercalate_append_of_ne_nil (by simp) hne]
  simp [join]

/-- What stands behind the last text stands behind all of them. -/
theorem join_concat_append (sep : String) (ws : List String) (w ext : String) :
    join sep (ws ++ [w ++ ext]) = join sep (ws ++ [w]) ++ ext := by
  by_cases hws : ws = []
  · simp [hws, join]
  · rw [join, join, String.intercalate_append_of_ne_nil hws (by simp),
      String.intercalate_append_of_ne_nil hws (by simp)]
    simp [String.append_assoc]

/-- The first text stands alone, and a separator in front of each other one. -/
theorem toList_join_cons (hsep : sep.toList = [c]) (w : String) (ws : List String) :
    (join sep (w :: ws)).toList = w.toList ++ ws.flatMap fun v => c :: v.toList := by
  induction ws generalizing w with
  | nil => simp [join]
  | cons v ws ih =>
    rw [join_cons sep w (by simp), String.toList_append, String.toList_append, hsep, ih v]
    simp

/-- Texts that are joined by a separator are cut into the pieces of each. -/
theorem splitOnP_join (hsep : sep.toList = [c]) (hc : p c = true) (hne : ws ≠ []) :
    (join sep ws).toList.splitOnP p = ws.flatMap fun w => w.toList.splitOnP p := by
  induction ws with
  | nil => exact absurd rfl hne
  | cons w ws ih =>
    by_cases hlast : ws = []
    · subst hlast
      simp [join]
    · have hcut : (join sep (w :: ws)).toList = w.toList ++ c :: (join sep ws).toList := by
        simp [join_cons sep w hlast, hsep]
      rw [hcut, List.splitOnP_append_cons _ _ hc, ih hlast, List.flatMap_cons]

theorem pieces_join (hsep : sep.toList = [c]) (hc : p c = true) (hne : ws ≠ []) :
    pieces p (join sep ws) = ws.flatMap (pieces p) := by
  rw [pieces, splitOnP_join hsep hc hne, List.map_flatMap]
  rfl

/-! ## Lines -/

theorem lines_eq_singleton (h : '\n' ∉ cs) : lines cs = [cs] :=
  List.splitOn_eq_singleton h

theorem lines_join (hne : ws ≠ []) :
    lines (join "\n" ws).toList = ws.flatMap fun w => lines w.toList :=
  splitOnP_join rfl (beq_self_eq_true '\n') hne

end SourceRecovery.Text
