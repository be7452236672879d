import SourceRecovery.Proofs.FileTree.NewFolders
import SourceRecovery.Proofs.Run.OutputTree
import SourceRecovery.Proofs.Run.Verdict

/-!
# What a run leaves in its place

Once the output folder is reset, a run writes below it only. So whatever stands in the tree then is
there at the end as it was, if the engine leaves it and puts no link into the output folder.

* `Intact`: a tree holds all of another one, and no link below the output folder.
* `Intact.deposit`: a unit leaves a tree intact.
* `Spares`: a course of action that leaves the tree intact at every step of its own.
* `Intact.perform`: so does the whole of it then, with the units that it hands over.
* `PastReset.within`: a run that gets past the reset, whatever it comes to.
-/

namespace SourceRecovery

namespace Run

open FileTree (Linkless)

variable {cwd root : Address} {output : Path} {t t₁ : FileTree} {marker : String}
  {settings : Settings} {files : List Path}

/-- Whether a tree holds everything that another one does, and no link below a folder. -/
structure Intact (root : Address) (t₁ t : FileTree) : Prop where
  within : t₁.Within t
  linkless : t.Linkless root

/-- A unit takes away nothing that stood in the tree when the output folder was empty. -/
theorem Intact.deposit (h : Intact root t₁ t) (hp : output.bytes ≠ [])
    (hroot : t₁.LeadsTo cwd output root)
    (hempty : ∀ b, root <+: b → b ≠ root → t₁.node? b = none) (u : SourceUnit) :
    Intact root t₁ (deposit cwd output u t).2 := by
  obtain ⟨left, hleft⟩ := hroot
  have hopens : t.Opens cwd output root := ⟨hp, ⟨left, hleft.within h.within⟩, h.linkless⟩
  have hspec := deposit_spec hopens u
  generalize (SourceRecovery.deposit cwd output u t).1 = d at hspec
  generalize (SourceRecovery.deposit cwd output u t).2 = t' at hspec ⊢
  cases hspec with
  | blank _ => exact h
  | unusable _ _ => exact h
  | failed _ _ hgrow => exact ⟨h.within.trans hgrow.within, (hopens.grow hgrow).linkless⟩
  | @stored names t₂ _ _ hbelow _ hgrow hfree hinstead =>
    refine ⟨fun a n hn => ?_, ((hopens.grow hgrow).hasInstead hfree hinstead).linkless⟩
    -- the file is written below the output folder, where nothing stood
    have hne : a ≠ root ++ names := by
      rintro rfl
      rw [hempty _ (List.prefix_append root names)
        (by simpa using (SourceUnit.plain_of_below? hbelow).1)] at hn
      cases hn
    rw [hinstead, if_neg hne]
    exact hgrow.within a n (h.within a n hn)

/-- Whether a course of action that works with a run from a tree on leaves everything that stood in
    the tree `t₁`, and puts no link into the output folder. -/
inductive Spares {α : Type} (cwd : Address) (output : Path) (root : Address) (t₁ : FileTree) :
    Work α → FileTree → Prop
  | done (value : α) (t : FileTree) : Spares cwd output root t₁ (.done value) t
  | note (event : Event) {rest : Work α} {t : FileTree} (h : Spares cwd output root t₁ rest t) :
    Spares cwd output root t₁ (.note event rest) t
  | files {change : FileTree → FileTree} {rest : FileTree → Work α} {t : FileTree}
    (hintact : Intact root t₁ (change t)) (h : Spares cwd output root t₁ (rest t) (change t)) :
    Spares cwd output root t₁ (.files change rest) t
  | deliver (u : SourceUnit) {rest : Except Failure Unit → Work α} {t : FileTree}
    (h : Spares cwd output root t₁ (rest (answer (SourceRecovery.deposit cwd output u t).1))
      (SourceRecovery.deposit cwd output u t).2) :
    Spares cwd output root t₁ (.deliver u rest) t

/-- A course of action that changes no file itself spares them all. -/
theorem LeavesFiles.spares {α : Type} {course : Work α} (h : LeavesFiles course) (t : FileTree) :
    Spares cwd output root t₁ course t := by
  induction h generalizing t with
  | done value => exact .done value t
  | note event _ ih => exact .note event (ih t)
  | deliver u _ ih => exact .deliver u (ih _ _)

/-- With its units written on the way, a course of action that spares a tree leaves it intact. -/
theorem Intact.perform {α : Type} {course : Work α} (hcourse : Spares cwd output root t₁ course t)
    (h : Intact root t₁ t) (hp : output.bytes ≠ []) (hroot : t₁.LeadsTo cwd output root)
    (hempty : ∀ b, root <+: b → b ≠ root → t₁.node? b = none) (s : Account) :
    Intact root t₁ (course.perform (receiver cwd output) t s).2.1 := by
  induction hcourse generalizing s with
  | done value t => exact h
  | note event _ ih => exact ih h (s.tell event)
  | files hintact _ ih => exact ih hintact s
  | deliver u _ ih => exact ih (h.deposit hp hroot hempty u) _

end Run

/-- Whether an engine leaves everything that stands in a tree when it is called, and puts no link into
    the output folder. -/
def Engine.Spares (engine : Engine) (cwd : Address) (output : Path) (t₁ : FileTree) : Prop :=
  ∀ request root, t₁.LeadsTo cwd output root → Run.Spares cwd output root t₁ (engine request) t₁

namespace Run

variable {cwd : Address} {output : Path} {t t₁ : FileTree} {marker : String} {settings : Settings}
  {files : List Path} {engine : Engine}

theorem spares_of_leavesFiles (h : ∀ request, LeavesFiles (engine request)) :
    engine.Spares cwd output t₁ :=
  fun request _ _ => (h request).spares t₁

/-- Whatever a run comes to that gets past the reset, what the reset has left is there at the end. -/
theorem PastReset.within {selected : List Path} (h : PastReset cwd settings t t₁ files)
    (hkept : (Selection.keepMarked t₁ cwd marker files).1 = .ok selected)
    (hempty : t₁.LeadsToEmpty cwd settings.output)
    (hengine : engine.Spares cwd settings.output t₁) :
    t₁.Within (perform cwd marker engine settings t).tree := by
  by_cases hnil : selected = []
  · subst hnil
    rw [(h.perform_of_nil hkept engine).2.1]
    exact .refl t₁
  · obtain ⟨root, hroot, hbelow⟩ := hempty
    obtain ⟨hp, hleads⟩ := FileTree.reaches_of_stat hroot
    have hintact : Intact root t₁ t₁ :=
      ⟨.refl t₁, (FileTree.opens_of_empty hroot hbelow).linkless⟩
    obtain ⟨events, hend⟩ := h.perform_engages hkept hnil
    rw [(hend engine).2]
    exact (hintact.perform (hengine _ root hleads) hp hleads hbelow _).within

end Run

end SourceRecovery
