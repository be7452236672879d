import SourceRecovery.Proofs.FileTree.Joined
import SourceRecovery.Proofs.FileTree.Making

/-!
# The only file in a folder

What the system does with a file that stands alone in a folder: it is created there, written, read,
moved to another name or taken away again.

* `resolve_name`: a name behind a path that leads to a folder is looked up in that folder.
* `createNew_name`: a file is created under a free name, or nothing changes.
* `stat_only`, `write_only`, `unlink_only`, `rename_only`: what is done with it then.
-/

namespace SourceRecovery.FileTree

variable {t t' v : FileTree} {cwd cur root a : Address} {p q : Path} {w w' : Name}
  {content content' : Bytes} {links left : Nat} {steps more : List Step} {follow slash : Bool}

/-! ## Names in a folder -/

/-- Steps that lead to a folder can be walked first, also where no link is followed at the end. -/
theorem walkLinks_append_more (h : Reaches t links cur steps left a) (hmore : more ≠ [])
    (slash : Bool) :
    walkLinks t follow links cur (steps ++ more) slash = walkLinks t follow left a more slash := by
  induction h generalizing slash with
  | stop h => rfl
  | here _ ih =>
    rw [List.cons_append, walkLinks_here]
    exact ih slash
  | up _ ih =>
    rw [List.cons_append, walkLinks_up]
    exact ih slash
  | folder hsize hnode _ ih =>
    rw [List.cons_append, walkLinks_folder hsize hnode]
    exact ih slash
  | @link links left cur a rest name target hsize hnode _ ih =>
    have hempty : (rest ++ more).isEmpty = false := by simp [hmore]
    rw [List.cons_append, walkLinks_link_eq hsize hnode, hempty, if_neg (by simp),
      ← List.append_assoc, ih]
    simp

/-- A name behind a path that leads to a folder is looked up in that folder. It is not the name of a
    link, or that is not to be followed. -/
theorem resolve_name (h : t.LeadsTo cwd p root) (htext : p.bytes ≠ []) (hw : Path.IsPlain w)
    (hfollowed : Followed p [w])
    (hlink : ∀ target, t.node? (root ++ [w]) = some (.link target) → follow = false) :
    t.resolve cwd follow (p.join ⟨w⟩) = .ok (match t.node? (root ++ [w]) with
      | none => .vacant (root ++ [w]) false
      | some n => .taken (root ++ [w]) n) := by
  obtain ⟨left, hleft⟩ := h
  obtain ⟨husable, hsizes⟩ := hfollowed
  have hsize : w.length ≤ 255 := hsizes w List.mem_cons_self
  have hplain : ∀ v ∈ [w], Path.IsPlain v := by simpa using hw
  have hslash : (p.descend [w]).endsInSlash = false := Path.endsInSlash_descend p hplain (by simp)
  show t.resolve cwd follow (p.descend [w]) = _
  rw [resolve, husable]
  show walkLinks t follow linkLimit _ _ _ = _
  rw [Path.origin_descend htext hplain, Path.steps_descend p hplain, hslash,
    walkLinks_append_more hleft (by simp)]
  show walkLinks t follow left root [.enter w] false = _
  cases hnode : t.node? (root ++ [w]) with
  | none =>
    rw [walkLinks_none hsize hnode]
    rfl
  | some n =>
    cases n with
    | folder =>
      rw [walkLinks_folder hsize hnode, walkLinks_nil, hnode]
    | file content =>
      rw [walkLinks_file hsize hnode]
      rfl
    | link target =>
      obtain rfl := hlink target hnode
      cases left with
      | zero =>
        rw [walkLinks_link_zero_eq hsize hnode]
        rfl
      | succ left =>
        rw [walkLinks_link_eq hsize hnode]
        rfl

/-- A name that the system does not follow is not looked up. -/
theorem resolve_unfollowed (h : t.LeadsTo cwd p root) (htext : p.bytes ≠ []) (hw : Path.IsPlain w)
    (hnot : ¬ Followed p [w]) (follow : Bool) :
    ∃ fault, t.resolve cwd follow (p.join ⟨w⟩) = .error fault := by
  obtain ⟨left, hleft⟩ := h
  have hplain : ∀ v ∈ [w], Path.IsPlain v := by simpa using hw
  show ∃ fault, t.resolve cwd follow (p.descend [w]) = .error fault
  rw [resolve]
  cases husable : (p.descend [w]).unusable? with
  | some fault => exact ⟨fault, rfl⟩
  | none =>
    have hsize : 255 < w.length := by
      refine Nat.lt_of_not_le fun hle => hnot ⟨husable, ?_⟩
      simpa using hle
    refine ⟨.nameTooLong, ?_⟩
    show walkLinks t follow linkLimit _ _ _ = _
    rw [Path.origin_descend htext hplain, Path.steps_descend p hplain,
      walkLinks_append_more hleft (by simp)]
    exact walkLinks_tooLong hsize

/-- A name behind a path that leads to a folder is what the path ends in. -/
theorem locate_name (h : t.LeadsTo cwd p root) (htext : p.bytes ≠ []) (hw : Path.IsPlain w)
    (hfollowed : Followed p [w]) : t.locate cwd (p.join ⟨w⟩) = .ok (.name root w) := by
  obtain ⟨left, hleft⟩ := h
  have hplain : ∀ v ∈ [w], Path.IsPlain v := by simpa using hw
  have horigin : (p.join ⟨w⟩).origin cwd = p.origin cwd := Path.origin_descend htext hplain cwd
  exact locate_of_way hfollowed.1 (Path.steps_join_name p hw) (hfollowed.2 w List.mem_cons_self)
    (horigin ▸ hleft)

theorem LeadsTo.node?_end (h : t.LeadsTo cwd p root) : t.node? root = some .folder := by
  obtain ⟨left, hleft⟩ := h
  exact hleft.node?_end

/-- A file is created, or nothing changes. -/
theorem createNew_cases (t : FileTree) (cwd : Address) (p : Path) :
    (∃ fault, t.createNew cwd p = (.error fault, t)) ∨ ∃ t', t.createNew cwd p = (.ok (), t') := by
  unfold createNew
  split
  · exact .inl ⟨_, rfl⟩
  · exact .inl ⟨_, rfl⟩
  · split
    · exact .inl ⟨_, rfl⟩
    · exact .inr ⟨_, rfl⟩

/-- A file is created under a name if that is free and the system follows the path, and else nothing
    changes. -/
theorem createNew_name (h : t.LeadsTo cwd p root) (htext : p.bytes ≠ []) (hw : Path.IsPlain w) :
    (∃ fault, t.createNew cwd (p.join ⟨w⟩) = (.error fault, t)) ∨
      Followed p [w] ∧ t.node? (root ++ [w]) = none ∧
        ∃ t', t.createNew cwd (p.join ⟨w⟩) = (.ok (), t') ∧ HasInstead (root ++ [w]) [] t t' := by
  by_cases hfollowed : Followed p [w]
  · have hresolve := resolve_name h htext hw hfollowed fun _ _ => (rfl : false = false)
    cases hnode : t.node? (root ++ [w]) with
    | none =>
      rw [hnode] at hresolve
      refine .inr ⟨hfollowed, rfl, _, by rw [createNew, hresolve]; rfl, fun b => ?_⟩
      exact node?_place (by simp) (by rw [List.dropLast_concat]; exact h.node?_end) (by simp [hnode])
    | some n =>
      rw [hnode] at hresolve
      exact .inl ⟨.fileExists, by rw [createNew, hresolve]⟩
  · obtain ⟨fault, hresolve⟩ := resolve_unfollowed h htext hw hfollowed false
    exact .inl ⟨fault, by rw [createNew, hresolve]⟩

/-! ## The file -/

theorem HasInstead.trans (h : HasInstead a content v t) (h' : HasInstead a content' t t') :
    HasInstead a content' v t' := by
  intro b
  rw [h' b]
  split
  · rfl
  · rename_i hb
    rw [h b, if_neg hb]

theorem HasInstead.leadsTo (hinstead : HasInstead (root ++ [w]) content v t)
    (hfree : v.node? (root ++ [w]) = none) (h : v.LeadsTo cwd p a) : t.LeadsTo cwd p a := by
  obtain ⟨left, hleft⟩ := h
  refine ⟨left, hleft.within fun b n hn => ?_⟩
  rw [hinstead b, if_neg, hn]
  rintro rfl
  rw [hfree] at hn
  cases hn

/-- Without the file, the tree is as it was. -/
theorem HasInstead.prune (hinstead : HasInstead (root ++ [w]) content v t)
    (hfree : ∀ b, root ++ [w] <+: b → v.node? b = none) (b : Address) :
    (t.prune (root ++ [w])).node? b = v.node? b := by
  by_cases hp : root ++ [w] <+: b
  · have hb : b ≠ [] := by
      rintro rfl
      simpa using hp.length_le
    rw [node?_prune_of_below hb hp, hfree b hp]
  · have hb : b ≠ root ++ [w] := by
      rintro rfl
      exact hp (List.prefix_refl _)
    rw [node?_prune_of_not_below hp, hinstead b, if_neg hb]

section

variable (h : t.LeadsTo cwd p root) (htext : p.bytes ≠ []) (hw : Path.IsPlain w)
  (hfollowed : Followed p [w]) (hinstead : HasInstead (root ++ [w]) content v t)

include h htext hw hfollowed hinstead

theorem resolve_only (follow : Bool) : t.resolve cwd follow (p.join ⟨w⟩) =
    .ok (.taken (root ++ [w]) (.file content)) := by
  have hnode : t.node? (root ++ [w]) = some (.file content) := by rw [hinstead, if_pos rfl]
  rw [resolve_name h htext hw hfollowed (by simp [hnode]), hnode]

theorem stat_only (follow : Bool) :
    t.stat cwd follow (p.join ⟨w⟩) = .ok (root ++ [w], .file content) := by
  rw [stat, resolve_only h htext hw hfollowed hinstead]

theorem write_only (content' : Bytes) : ∃ t', t.write cwd (p.join ⟨w⟩) content' = (.ok (), t') ∧
    HasInstead (root ++ [w]) content' v t' := by
  have hnode : t.node? (root ++ [w]) ≠ some .folder := by simp [hinstead _]
  refine ⟨_, by rw [write, resolve_only h htext hw hfollowed hinstead], hinstead.trans fun b => ?_⟩
  exact node?_place (by simp) (by rw [List.dropLast_concat]; exact h.node?_end) hnode

/-- Once the file is taken away, its folder is as it was. -/
theorem unlink_only (hfree : ∀ b, root ++ [w] <+: b → v.node? b = none) (b : Address) :
    (t.unlink cwd (p.join ⟨w⟩)).2.node? b = v.node? b := by
  rw [unlink, resolve_only h htext hw hfollowed hinstead]
  exact hinstead.prune hfree b

/-- Moved to another name in its folder, the file stands there instead of what had that name. A
    folder of that name stays in its way. -/
theorem rename_only (hq : t.LeadsTo cwd q root) (hqtext : q.bytes ≠ []) (hw' : Path.IsPlain w')
    (hfollowed' : Followed q [w']) (hfree : ∀ b, root ++ [w] <+: b → v.node? b = none)
    (hne : w ≠ w') :
    (v.node? (root ++ [w']) = some .folder ∧
      ∃ fault, t.rename cwd (p.join ⟨w⟩) (q.join ⟨w'⟩) = (.error fault, t)) ∨
    (v.node? (root ++ [w']) ≠ some .folder ∧
      ∃ t', t.rename cwd (p.join ⟨w⟩) (q.join ⟨w'⟩) = (.ok (), t') ∧
        HasInstead (root ++ [w']) content v t') := by
  have hstat := stat_only h htext hw hfollowed hinstead false
  have hlocate := locate_name hq hqtext hw' hfollowed'
  have hnode : t.node? (root ++ [w']) = v.node? (root ++ [w']) := by
    rw [hinstead, if_neg (by simpa using Ne.symm hne)]
  have hprune := hinstead.prune hfree
  have hroot : v.node? root = some .folder := by
    rw [← hprune, node?_prune_of_not_below fun hp => absurd hp.length_le (by simp)]
    exact h.node?_end
  by_cases hfolder : v.node? (root ++ [w']) = some .folder
  · exact .inl ⟨hfolder, .isFolder, by simp [rename, hstat, hlocate, hnode, hfolder]⟩
  · refine .inr ⟨hfolder, (t.prune (root ++ [w])).place (root ++ [w']) (.file content), ?_,
      fun b => ?_⟩
    · simp [rename, hstat, hlocate, hnode, hfolder]
    · rw [node?_place (by simp) (by rw [List.dropLast_concat, hprune, hroot])
        (by rw [hprune]; exact hfolder), hprune]

end

end SourceRecovery.FileTree
