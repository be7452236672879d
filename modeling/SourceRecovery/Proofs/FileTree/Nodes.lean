import SourceRecovery.FileTree.Basic

/-!
# Nodes of a tree

* `node?_above`: on the way to a node there are only folders.
* `node?_place`: a node that is put where no folder stands shows at its own address alone.
-/

namespace SourceRecovery.FileTree

variable {t : FileTree} {a b : Address} {n : Node}

theorem find?_of_nodup {entries : List (Address × Node)} (h : (entries.map Prod.fst).Nodup)
    (hm : (a, n) ∈ entries) : (entries.find? fun e => e.1 == a) = some (a, n) := by
  induction entries with
  | nil => cases hm
  | cons e entries ih =>
    rw [List.map_cons, List.nodup_cons] at h
    rcases List.mem_cons.1 hm with rfl | hm
    · exact List.find?_cons_of_pos (by simp)
    · have hne : e.1 ≠ a := by
        rintro rfl
        exact h.1 (List.mem_map.2 ⟨_, hm, rfl⟩)
      rw [List.find?_cons_of_neg (by simpa using hne)]
      exact ih h.2 hm

theorem node?_of_mem (h : (a, n) ∈ t.entries) : t.node? a = some n := by
  have ha : a ≠ [] := (t.rooted _ h).1
  rw [node?, if_neg ha, find?_of_nodup t.nodup h]
  rfl

/-- A node stands in a folder. -/
theorem node?_dropLast (h : t.node? a = some n) : t.node? a.dropLast = some .folder := by
  by_cases ha : a = []
  · subst ha
    exact node?_nil t
  · rcases (t.rooted _ (mem_of_node? ha h)).2 with hroot | hfolder
    · show t.node? a.dropLast = _
      rw [show a.dropLast = [] from hroot]
      exact node?_nil t
    · exact node?_of_mem hfolder

/-- On the way to a node there are only folders. -/
theorem node?_above (h : t.node? b = some n) (hp : a <+: b) (hne : a ≠ b) :
    t.node? a = some .folder := by
  -- the way from `a` to `b` is taken back name by name
  induction hlen : b.length generalizing b n with
  | zero =>
    obtain rfl := List.length_eq_zero_iff.1 hlen
    exact absurd (List.prefix_nil.1 hp) hne
  | succ k ih =>
    have hup := node?_dropLast h
    obtain ⟨c, rfl⟩ := hp
    have hc : c ≠ [] := by
      rintro rfl
      exact hne (List.append_nil a).symm
    rw [List.dropLast_append_of_ne_nil hc] at hup
    by_cases hlast : c.dropLast = []
    · rwa [hlast, List.append_nil] at hup
    · refine ih hup (List.prefix_append _ _) ?_ ?_
      · simpa using hlast
      · rw [← List.dropLast_append_of_ne_nil hc, List.length_dropLast, hlen]
        rfl

theorem node?_eq_none_of_below (h : t.node? a ≠ some .folder) (hp : a <+: b) (hne : a ≠ b) :
    t.node? b = none := by
  cases hb : t.node? b with
  | none => rfl
  | some n => exact absurd (node?_above hb hp hne) h

/-- Where nothing stands, nothing stands below. -/
theorem node?_eq_none_of_free (h : t.node? a = none) (hp : a <+: b) : t.node? b = none := by
  by_cases hb : a = b
  · rw [← hb, h]
  · exact node?_eq_none_of_below (by simp [h]) hp hb

/-- Whatever stood below a node that is put somewhere is gone. -/
theorem node?_place_of_below (ha : a ≠ []) (hfolder : t.node? a.dropLast = some .folder)
    (hp : a <+: b) (hne : b ≠ a) : (t.place a n).node? b = none := by
  rw [Option.eq_none_iff_forall_ne_some]
  intro m hm
  have hb : b ≠ [] := by
    rintro rfl
    exact ha (List.prefix_nil.1 hp)
  have hmem := mem_of_node? hb hm
  rw [entries_place n ha hfolder] at hmem
  rcases List.mem_cons.1 hmem with heq | hmem
  · exact hne (Prod.mk.inj heq).1
  · have hkeep := (List.mem_filter.1 hmem).2
    rw [Bool.not_eq_true', isAtOrBelow_eq_false_iff] at hkeep
    exact hkeep hp

/-- A node that is put where no folder stands shows at its own address alone. -/
theorem node?_place (ha : a ≠ []) (hfolder : t.node? a.dropLast = some .folder)
    (hfree : t.node? a ≠ some .folder) :
    (t.place a n).node? b = if b = a then some n else t.node? b := by
  by_cases hb : b = a
  · rw [if_pos hb, hb]
    exact node?_place_self ha hfolder
  · rw [if_neg hb]
    by_cases hp : a <+: b
    · rw [node?_eq_none_of_below hfree hp (Ne.symm hb), node?_place_of_below ha hfolder hp hb]
    · exact node?_place_of_not_below hp

end SourceRecovery.FileTree
