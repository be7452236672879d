import SourceRecovery.Proofs.Engine.Launch
import SourceRecovery.Proofs.FileTree.Keeping
import SourceRecovery.Proofs.FileTree.Traversal
import SourceRecovery.Proofs.Run.Accounts

/-!
# Handing over

What the decompiler has left is read file by file while a receiver takes the units, and the receiver
may change the tree in between. If it spares the files that are still to be read, this comes to the
same as reading all of them first.

* `Makes`, `Spares`: what a receiver may do to a tree, and what it leaves alone.
* `readUnits`: the units in some files, as far as these can be read.
* `offer`: units are handed over until one is refused.
* `perform_harvest`: the units in all files below a folder are offered, in the order of addresses.
-/

namespace SourceRecovery

open FileTree (Before Keeps)

variable {σ : Type} {receiver : Work.Receiver σ} {t t' w : FileTree} {cwd root : Address}
  {base : Path} {files : List Address} {kept : Address → Prop}

namespace Work.Receiver

/-- The trees that a receiver may make of one, whatever units it takes. -/
inductive Makes (receiver : Receiver σ) (w : FileTree) : FileTree → Prop
  | nothing : Makes receiver w w
  | taken {t : FileTree} (u : SourceUnit) (s : σ) (h : Makes receiver w t) :
    Makes receiver w (receiver.onUnit u t s).2.1

/-- Whether a receiver, whatever units it takes, leaves the folders and links of a tree alone, and its
    files at some addresses. -/
def Spares (receiver : Receiver σ) (kept : Address → Prop) (w : FileTree) : Prop :=
  ∀ t, receiver.Makes w t → Keeps kept w t

end Work.Receiver

namespace Engine

/-! ## What is handed over -/

/-- The units in some files, up to the first file that cannot be read, and how the reading ends. -/
def readUnits (t : FileTree) (cwd : Address) (base : Path) :
    List Address → List SourceUnit × Except Failure Unit
  | [] => ([], .ok ())
  | names :: rest =>
    match readText t cwd (base.descend names) with
    | .error cause => ([], .error (HarvestFault.unreadable (base.descend names) cause).failure)
    | .ok content =>
      let more := readUnits t cwd base rest
      (unitOfFile (namesOfFile base names) content :: more.1, more.2)

/-- Hands over units until one is refused; if none is, it ends as `ended` says. -/
def offer (units : List SourceUnit) (ended : Except Failure Unit) : Work (Except Failure Unit) := do
  match ← Run.handOver units with
  | .error failure => pure (.error failure)
  | .ok () => pure ended

theorem perform_offer_cons (u : SourceUnit) (units : List SourceUnit) (ended : Except Failure Unit)
    (t : FileTree) (s : σ) : (offer (u :: units) ended).perform receiver t s =
      match receiver.onUnit u t s with
      | (.error failure, t, s) => (.error failure, t, s)
      | (.ok (), t, s) => (offer units ended).perform receiver t s := by
  show (Work.deliver u _).perform receiver t s = _
  rw [Work.perform_deliver]
  rcases receiver.onUnit u t s with ⟨failure | ⟨⟩, t', s'⟩ <;> rfl

/-- What is made of a tree by offering units. -/
theorem makes_offer (h : receiver.Makes w t) (units : List SourceUnit) (ended : Except Failure Unit)
    (s : σ) : receiver.Makes w ((offer units ended).perform receiver t s).2.1 := by
  induction units generalizing t s with
  | nil => exact h
  | cons u units ih =>
    have htaken := h.taken u s
    rw [perform_offer_cons]
    generalize receiver.onUnit u t s = outcome at htaken ⊢
    obtain ⟨failure | ⟨⟩, t', s'⟩ := outcome
    · exact htaken
    · exact ih htaken s'

/-- If the receiver has no influence on what is read, the units that could be read at first are
    offered. -/
theorem perform_deliverFiles (hmakes : receiver.Makes w t)
    (hsame : ∀ names ∈ files, ∀ t', receiver.Makes w t' →
      readText t' cwd (base.descend names) = readText w cwd (base.descend names)) (s : σ) :
    (deliverFiles cwd base files).perform receiver t s =
      (offer (readUnits w cwd base files).1 (readUnits w cwd base files).2).perform receiver t s := by
  induction files generalizing t s with
  | nil => rfl
  | cons names rest ih =>
    obtain ⟨hfirst, hrest⟩ := List.forall_mem_cons.1 hsame
    rw [deliverFiles, Work.perform_files, readUnits]
    simp only [id, hfirst t hmakes]
    cases readText w cwd (base.descend names) with
    | error cause => rfl
    | ok content =>
      have htaken := hmakes.taken (unitOfFile (namesOfFile base names) content) s
      simp only
      rw [perform_offer_cons, Work.perform_deliver]
      generalize receiver.onUnit (unitOfFile (namesOfFile base names) content) t s = outcome
        at htaken ⊢
      obtain ⟨failure | ⟨⟩, t', s'⟩ := outcome
      · rfl
      · exact ih htaken hrest s'

/-- The files below a folder are read in the order of their addresses, and the units in them are
    offered up to the first that cannot be read, if the receiver spares the files. -/
theorem perform_harvest (hfolder : w.stat cwd true base = .ok (root, .folder))
    (hbase : FileTree.isStandardInput base = false)
    (hplain : ∀ names, w.node? (root ++ names) ≠ none → ∀ n ∈ names, Path.IsPlain n)
    (hspares : receiver.Spares kept w) (hkept : ∀ b, root <+: b → kept b) (s : σ) :
    ∃ files : List Address, files.Pairwise Before ∧
      (∀ names, names ∈ files ↔ ∃ content, w.node? (root ++ names) = some (.file content)) ∧
      (harvest cwd base).perform receiver w s =
        (offer (readUnits w cwd base files).1 (readUnits w cwd base files).2).perform receiver w s := by
  obtain ⟨files, hwalk, hnodup, hmem⟩ := FileTree.walkFiles_of_folder hfolder hbase
  obtain ⟨htext, hleads⟩ := FileTree.reaches_of_stat hfolder
  have hordered := FileTree.pairwise_walkFiles hfolder hbase hwalk
  refine ⟨files, (hordered.and hnodup).imp fun h => FileTree.before_of_addressLe h.1 h.2, ?_, ?_⟩
  · intro names
    rw [hmem, and_iff_right_iff_imp]
    rintro ⟨content, hfile⟩ rfl
    rw [List.append_nil, FileTree.node?_of_stat hfolder] at hfile
    cases hfile
  · rw [harvest, Work.perform_files]
    simp only [id, hwalk]
    refine perform_deliverFiles .nothing (fun names hin t' ht' => ?_) s
    obtain ⟨hne, content, hfile⟩ := (hmem names).1 hin
    have hstat := (hspares t' ht').stat_descend htext hleads (hplain names (by simp [hfile])) hne
      (hkept _ (List.prefix_append _ _)) hfile
    simp only [readText, FileTree.read, hstat]

end Engine

end SourceRecovery
