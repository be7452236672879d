import SourceRecovery.SourceUnit.Destination
import SourceRecovery.Proofs.Path.OfText
import SourceRecovery.Proofs.Text.Trimming

/-!
# Destinations of source units

* `below?`: the names that lead from the output root to the file of a unit.
* `destination?_eq`: the destination is the root with these names behind it.
* `plain_of_below?`: they are plain names, one of them at least.
-/

namespace SourceRecovery.SourceUnit

open SourceRecovery.Path (IsPlain)

variable {u : SourceUnit} {w : String} {names : List Name}

/-- The names that lead from an output root to the file of a unit. -/
def below? (u : SourceUnit) : Option (List Name) :=
  (plainName? u.entryName).map fun name => (u.folders ++ [name]).map Text.encode

theorem destination?_eq (root : Path) (u : SourceUnit) :
    u.destination? root = u.below?.map root.descend := by
  rw [destination?, below?, Option.map_map]
  congr 1
  funext name
  show _ = root.descend ((u.folders ++ [name]).map Text.encode)
  rw [List.map_append]
  exact (Path.descend_concat root (u.folders.map Text.encode) (Text.encode name)).symm

/-! ## Plain names -/

theorem plain_of_mem_folderNames {separators : List Char} {text : String}
    (hslash : '/' ∈ separators) (h : w ∈ folderNames separators text) : IsPlain (Text.encode w) := by
  obtain ⟨hmem, hkeep⟩ := List.mem_filter.1 h
  obtain ⟨piece, hpiece, rfl⟩ := List.mem_map.1 hmem
  obtain ⟨cs, hcs, rfl⟩ := List.mem_map.1 hpiece
  simp only [Bool.and_eq_true, bne_iff_ne] at hkeep
  refine Path.isPlain_encode.2 ⟨hkeep.1.1, hkeep.1.2, hkeep.2, Text.not_mem_trim ?_⟩
  rw [String.toList_ofList]
  intro hc
  have := Text.not_of_mem_splitOnP hcs '/' hc
  simp [hslash] at this

theorem plain_of_mem_folders (h : w ∈ u.folders) : IsPlain (Text.encode w) := by
  rw [folders] at h
  split at h
  · split at h
    · exact plain_of_mem_folderNames (by simp) h
    · exact plain_of_mem_folderNames (by simp) ((List.dropLast_prefix _).subset h)
  · exact plain_of_mem_folderNames (by simp) h

theorem plain_of_plainName? {entryName : String} (h : plainName? entryName = some w) :
    IsPlain (Text.encode w) := by
  simp only [plainName?] at h
  split at h
  · cases h
  · rename_i hplain
    rw [← Option.some.inj h]
    simp only [Bool.or_eq_true, beq_iff_eq, List.contains_iff_mem, not_or] at hplain
    obtain ⟨⟨⟨⟨hempty, hhere⟩, hup⟩, hslash⟩, -⟩ := hplain
    exact Path.isPlain_encode.2 ⟨hempty, hhere, hup, hslash⟩

theorem plain_of_below? (h : u.below? = some names) : names ≠ [] ∧ ∀ w ∈ names, IsPlain w := by
  obtain ⟨name, hname, rfl⟩ := Option.map_eq_some_iff.1 h
  refine ⟨by simp, fun v hv => ?_⟩
  obtain ⟨w, hw, rfl⟩ := List.mem_map.1 hv
  rcases List.mem_append.1 hw with hw | hw
  · exact plain_of_mem_folders hw
  · rw [List.mem_singleton.1 hw]
    exact plain_of_plainName? hname

theorem isText_of_below? (h : u.below? = some names) : ∀ w ∈ names, Text.IsText w := by
  obtain ⟨name, -, rfl⟩ := Option.map_eq_some_iff.1 h
  intro w hw
  obtain ⟨v, -, rfl⟩ := List.mem_map.1 hw
  exact Text.isText_encode v

end SourceRecovery.SourceUnit
