import SourceRecovery.Proofs.Text.Bytes
import SourceRecovery.Run.Output

/-!
# The ledger of written files

* `Sorted`: the files stand in the order of their paths by bytes, no two of one path.
* `mem_enter`, `sorted_enter`: a file that is entered stands instead of the one of its path.
* `length_enter`: where there is none of its path, it is one more.
-/

namespace SourceRecovery

namespace Ledger

variable {file f : WrittenFile} {l : Ledger}

/-- Whether the files stand in the order of their paths by bytes, no two of one path. -/
def Sorted (l : Ledger) : Prop :=
  l.Pairwise fun f g => Text.encode f.path < Text.encode g.path

theorem sorted_nil : Sorted [] :=
  List.Pairwise.nil

/-- A file that is entered stands instead of the one of its path, and every other file stays. -/
theorem mem_enter (h : Sorted l) : f ∈ enter file l ↔ f = file ∨ f ∈ l ∧ f.path ≠ file.path := by
  induction l with
  | nil => simp [enter]
  | cons g l ih =>
    obtain ⟨hg, hl⟩ := List.pairwise_cons.1 h
    rw [enter]
    split
    · rename_i hpath
      have hother : ∀ f ∈ l, f.path ≠ file.path := by
        intro f hf
        rw [hpath]
        exact (Text.ne_of_encode_lt (hg f hf)).symm
      rw [List.mem_cons, List.mem_cons]
      constructor
      · rintro (rfl | hf)
        · exact .inl rfl
        · exact .inr ⟨.inr hf, hother f hf⟩
      · rintro (rfl | ⟨rfl | hf, hne⟩)
        · exact .inl rfl
        · exact absurd hpath.symm hne
        · exact .inr hf
    · rename_i hpath
      split
      · rename_i hlt
        have hother : ∀ f ∈ g :: l, f.path ≠ file.path := by
          intro f hf
          rcases List.mem_cons.1 hf with rfl | hf
          · exact (Text.ne_of_encode_lt hlt).symm
          · exact (Text.ne_of_encode_lt (List.lt_trans hlt (hg f hf))).symm
        rw [List.mem_cons]
        constructor
        · rintro (rfl | hf)
          · exact .inl rfl
          · exact .inr ⟨hf, hother f hf⟩
        · rintro (rfl | ⟨hf, -⟩)
          · exact .inl rfl
          · exact .inr hf
      · rw [List.mem_cons, List.mem_cons, ih hl]
        constructor
        · rintro (rfl | rfl | ⟨hf, hne⟩)
          · exact .inr ⟨.inl rfl, Ne.symm hpath⟩
          · exact .inl rfl
          · exact .inr ⟨.inr hf, hne⟩
        · rintro (rfl | ⟨rfl | hf, hne⟩)
          · exact .inr (.inl rfl)
          · exact .inl rfl
          · exact .inr (.inr ⟨hf, hne⟩)

/-- A file of a path that is not listed yet makes the ledger longer. -/
theorem length_enter (h : ∀ f ∈ l, f.path ≠ file.path) : (enter file l).length = l.length + 1 := by
  induction l with
  | nil => rfl
  | cons g l ih =>
    obtain ⟨hg, hl⟩ := List.forall_mem_cons.1 h
    rw [enter, if_neg (Ne.symm hg)]
    split
    · rfl
    · rw [List.length_cons, ih hl, List.length_cons]

theorem sorted_enter (h : Sorted l) : Sorted (enter file l) := by
  induction l with
  | nil => exact List.pairwise_singleton _ _
  | cons g l ih =>
    obtain ⟨hg, hl⟩ := List.pairwise_cons.1 h
    rw [enter]
    split
    · rename_i hpath
      refine List.pairwise_cons.2 ⟨?_, hl⟩
      rw [hpath]
      exact hg
    · rename_i hpath
      split
      · rename_i hlt
        refine List.pairwise_cons.2 ⟨?_, h⟩
        intro f hf
        rcases List.mem_cons.1 hf with rfl | hf
        · exact hlt
        · exact List.lt_trans hlt (hg f hf)
      · rename_i hlt
        refine List.pairwise_cons.2 ⟨?_, ih hl⟩
        intro f hf
        rcases (mem_enter hl).1 hf with rfl | ⟨hf, -⟩
        · exact Text.encode_lt_of_not hpath hlt
        · exact hg f hf

end Ledger

end SourceRecovery
