import Mathlib.Data.List.Basic
import Mathlib.Data.List.Forall2
import SourceRecovery.CompileTask
import SourceRecovery.Proofs.Text.Pieces

/-!
# Libraries

The libraries of a run are given as class paths, one by one or several in one path. What counts is
the entries and their order, not how they are grouped.

* `libraries_append`, `libraries_join`: class paths one behind the other, and joined to one.
* `Padded`: entries with empty pieces anywhere among them.
* `libraries_ungrouped`: each entry is one library, however the entries are grouped and padded.
-/

namespace SourceRecovery

/-! ## Class paths that are put together -/

theorem libraries_append (values values' : List String) :
    libraries (values ++ values') = libraries values ++ libraries values' := by
  rw [libraries, List.flatMap_append, List.filter_append, List.map_append]
  rfl

/-- Class paths can be joined to one. -/
theorem libraries_join (values : List String) :
    libraries [Text.join ":" values] = libraries values := by
  by_cases hne : values = []
  · subst hne
    rfl
  · rw [libraries, List.flatMap_singleton, Text.pieces_join rfl rfl hne]
    rfl

/-- Where nothing is to be cut, only the empty texts go. -/
theorem libraries_uncut {ws : List String} (h : ∀ w ∈ ws, ':' ∉ w.toList) :
    libraries ws = (ws.filter (· != "")).map Path.ofText := by
  have hpieces : ws.flatMap (Text.pieces (· == ':')) = ws.flatMap fun w => [w] := by
    refine List.flatMap_congr fun w hw => Text.pieces_eq_singleton fun c hc => ?_
    rw [beq_eq_false_iff_ne]
    rintro rfl
    exact h w hw hc
  rw [libraries, hpieces, List.flatMap_singleton']

/-! ## Entries -/

/-- Whether a text can be an entry of a class path. -/
structure IsEntry (w : String) : Prop where
  ne_empty : w ≠ ""
  no_colon : ':' ∉ w.toList

/-- Whether the second list holds the texts of the first one in their order, with empty texts put in
    anywhere. -/
inductive Padded : List String → List String → Prop
  | nil : Padded [] []
  | pad {ws ps : List String} : Padded ws ps → Padded ws ("" :: ps)
  | keep (w : String) {ws ps : List String} : Padded ws ps → Padded (w :: ws) (w :: ps)

variable {ws ps : List String} {entries padded : List (List String)}

theorem Padded.filter_eq (h : Padded ws ps) (hws : ∀ w ∈ ws, IsEntry w) :
    ps.filter (· != "") = ws := by
  induction h with
  | nil => rfl
  | pad _ ih => exact ih hws
  | keep w _ ih =>
    obtain ⟨hw, hws⟩ := List.forall_mem_cons.1 hws
    rw [List.filter_cons_of_pos (by simpa using hw.ne_empty), ih hws]

theorem Padded.no_colon (h : Padded ws ps) (hws : ∀ w ∈ ws, IsEntry w) :
    ∀ p ∈ ps, ':' ∉ p.toList := by
  induction h with
  | nil => simp
  | pad _ ih => exact List.forall_mem_cons.2 ⟨by simp, ih hws⟩
  | keep w _ ih =>
    obtain ⟨hw, hws⟩ := List.forall_mem_cons.1 hws
    exact List.forall_mem_cons.2 ⟨hw.no_colon, ih hws⟩

/-- A class path names the entries that it has been put together from. -/
theorem Padded.libraries_join (h : Padded ws ps) (hws : ∀ w ∈ ws, IsEntry w) :
    libraries [Text.join ":" ps] = ws.map Path.ofText := by
  rw [SourceRecovery.libraries_join, libraries_uncut (h.no_colon hws), h.filter_eq hws]

theorem libraries_padded (h : List.Forall₂ Padded entries padded)
    (hentries : ∀ ws ∈ entries, ∀ w ∈ ws, IsEntry w) :
    libraries (padded.map (Text.join ":")) = entries.flatten.map Path.ofText := by
  induction h with
  | nil => rfl
  | cons hpadded _ ih =>
    obtain ⟨hws, hentries⟩ := List.forall_mem_cons.1 hentries
    rw [List.map_cons, List.flatten_cons, List.map_append, ← List.singleton_append,
      libraries_append, hpadded.libraries_join hws, ih hentries]

/-- How class paths are grouped makes no difference: they name the same libraries as the one class path
    that they are joined to. And whichever entries are joined to class paths, with empty pieces
    anywhere, these name the entries in their order, and nothing else. -/
theorem libraries_ungrouped (values : List String) :
    libraries [Text.join ":" values] = libraries values ∧
    ∀ entries padded : List (List String), (∀ ws ∈ entries, ∀ w ∈ ws, IsEntry w) →
      List.Forall₂ Padded entries padded →
        libraries (padded.map (Text.join ":")) = entries.flatten.map Path.ofText :=
  ⟨libraries_join values, fun _ _ hentries hpadded => libraries_padded hpadded hentries⟩

/-- Two entries with colons around them, an empty class path, and one that ends in a colon. -/
theorem libraries_ungrouped_threeEntries :
    libraries [":/libs/a.jar::/libs/b.jar", "", "dep:"] =
        [.ofText "/libs/a.jar", .ofText "/libs/b.jar", .ofText "dep"] ∧
      libraries [":/libs/a.jar::/libs/b.jar::dep:"] =
        [.ofText "/libs/a.jar", .ofText "/libs/b.jar", .ofText "dep"] := by
  obtain ⟨hjoined, hnamed⟩ :=
    libraries_ungrouped [":/libs/a.jar::/libs/b.jar", "", "dep:"]
  have hentries : ∀ ws ∈ [["/libs/a.jar", "/libs/b.jar"], [], ["dep"]], ∀ w ∈ ws, IsEntry w := by
    have hall : ∀ ws ∈ [["/libs/a.jar", "/libs/b.jar"], [], ["dep"]], ∀ w ∈ ws,
      w ≠ "" ∧ ':' ∉ w.toList := by decide
    exact fun ws hws w hw => ⟨(hall ws hws w hw).1, (hall ws hws w hw).2⟩
  have hpadded : List.Forall₂ Padded [["/libs/a.jar", "/libs/b.jar"], [], ["dep"]]
      [["", "/libs/a.jar", "", "/libs/b.jar"], [""], ["dep", ""]] :=
    .cons (.pad (.keep _ (.pad (.keep _ .nil)))) (.cons (.pad .nil)
      (.cons (.keep _ (.pad .nil)) .nil))
  have hlibraries := hnamed _ _ hentries hpadded
  exact ⟨hlibraries, hjoined.trans hlibraries⟩

end SourceRecovery
