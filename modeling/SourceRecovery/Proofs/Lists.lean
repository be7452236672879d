/-!
# Lists

What the theory needs to know of lists beyond the library.
-/

namespace SourceRecovery

variable {α β : Type}

/-- What can be made of each item can be made of all. -/
theorem exists_map_eq {f : α → β} {q : α → Prop} {l : List β}
    (h : ∀ b ∈ l, ∃ a, f a = b ∧ q a) : ∃ l' : List α, l'.map f = l ∧ ∀ a ∈ l', q a := by
  induction l with
  | nil => exact ⟨[], rfl, by simp⟩
  | cons b l ih =>
    obtain ⟨a, ha, hq⟩ := h b (by simp)
    obtain ⟨l', hl', hq'⟩ := ih fun b hb => h b (by simp [hb])
    exact ⟨a :: l', by rw [List.map_cons, ha, hl'], by simpa using ⟨hq, hq'⟩⟩

/-- What is made of items tells them if it tells each of them. -/
theorem map_inj_of_forall {f : α → β} {S : α → Prop}
    (hf : ∀ x y, S x → S y → f x = f y → x = y) {xs ys : List α} (hxs : ∀ x ∈ xs, S x)
    (hys : ∀ y ∈ ys, S y) (h : xs.map f = ys.map f) : xs = ys := by
  induction xs generalizing ys with
  | nil => exact (List.map_eq_nil_iff.1 h.symm).symm
  | cons x xs ih =>
    obtain ⟨y, ys, rfl, hhead, htail⟩ := List.map_eq_cons_iff.1 h.symm
    obtain ⟨hx, hxs'⟩ := List.forall_mem_cons.1 hxs
    obtain ⟨hy, hys'⟩ := List.forall_mem_cons.1 hys
    rw [hf x y hx hy hhead.symm, ih hxs' hys' htail.symm]

/-- Lists that are joined in two parts are joined at the seam, too. -/
theorem intercalate_append {sep : List α} {ls ms : List (List α)} (hls : ls ≠ []) (hms : ms ≠ []) :
    sep.intercalate (ls ++ ms) = sep.intercalate ls ++ sep ++ sep.intercalate ms := by
  induction ls with
  | nil => exact absurd rfl hls
  | cons l ls ih =>
    by_cases hlast : ls = []
    · subst hlast
      rw [List.singleton_append, List.intercalate_cons_of_ne_nil hms, List.intercalate_singleton]
    · rw [List.cons_append, List.intercalate_cons_of_ne_nil (by simp [hlast]), ih hlast,
        List.intercalate_cons_of_ne_nil hlast]
      simp only [List.append_assoc]

theorem prefix_of_map_prefix {f : α → β} (hf : ∀ {x y}, f x = f y → x = y) {xs ys : List α}
    (h : xs.map f <+: ys.map f) : xs <+: ys := by
  obtain ⟨rest, hrest⟩ := h
  obtain ⟨front, back, rfl, hfront, -⟩ := List.map_eq_append_iff.1 hrest.symm
  rw [(List.map_inj_right fun _ _ => hf).1 hfront]
  exact List.prefix_append _ _

/-- The first item that has a property. -/
theorem exists_first {q : α → Bool} {l : List α} (h : l.any q = true) :
    ∃ front a back, l = front ++ a :: back ∧ (∀ b ∈ front, q b = false) ∧ q a = true := by
  have hsome : (l.find? q).isSome := List.find?_isSome.2 (List.any_eq_true.1 h)
  obtain ⟨a, ha⟩ := Option.isSome_iff_exists.1 hsome
  obtain ⟨hq, front, back, rfl, hfront⟩ := List.find?_eq_some_iff_append.1 ha
  exact ⟨front, a, back, rfl, fun b hb => by simpa using hfront b hb, hq⟩

end SourceRecovery
