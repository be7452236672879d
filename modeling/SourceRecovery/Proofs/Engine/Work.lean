import SourceRecovery.Engine.Work

/-!
# Following a course of action

What becomes of a tree and of a receiver along a course of action, by how the course is put together.

* `perform_bind`: one course is followed to its end before the next one.
* `perform_attempt`: an operation changes the tree and nothing else.
-/

namespace SourceRecovery.Work

variable {α β σ : Type} {receiver : Receiver σ} {t : FileTree} {s : σ}

theorem perform_pure (value : α) :
    (pure value : Work α).perform receiver t s = (value, t, s) :=
  rfl

theorem perform_note (event : Event) (rest : Work α) :
    (note event rest).perform receiver t s = rest.perform receiver t (receiver.onEvent event s) :=
  rfl

theorem perform_files (change : FileTree → FileTree) (rest : FileTree → Work α) :
    (files change rest).perform receiver t s = (rest t).perform receiver (change t) s :=
  rfl

theorem perform_deliver (u : SourceUnit) (rest : Except Failure Unit → Work α) :
    (deliver u rest).perform receiver t s =
      (rest (receiver.onUnit u t s).1).perform receiver (receiver.onUnit u t s).2.1
        (receiver.onUnit u t s).2.2 :=
  rfl

/-- One course of action is followed to its end before the next one. -/
theorem perform_bind (course : Work α) (k : α → Work β) :
    (course >>= k).perform receiver t s =
      (k (course.perform receiver t s).1).perform receiver (course.perform receiver t s).2.1
        (course.perform receiver t s).2.2 := by
  induction course generalizing t s with
  | done value => rfl
  | note event rest ih => exact ih
  | files change rest ih => exact ih t
  | deliver u rest ih => exact ih _

theorem perform_attempt (operation : FileTree → α × FileTree) :
    (attempt operation).perform receiver t s = ((operation t).1, (operation t).2, s) :=
  rfl

end SourceRecovery.Work
