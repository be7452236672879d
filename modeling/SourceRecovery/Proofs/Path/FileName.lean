import SourceRecovery.Path.FileName
import SourceRecovery.Proofs.Path.Below

/-!
# File names and extensions

* `fileName?_descend`: the file name of a path is the last of the names that were joined to it.
* `eq_of_stemAndExtension`: a name with an extension is its stem, a dot and the extension.
* `stemAndExtension_append`: and so it splits, if the extension holds no dot.
* `extension?_descend`: the extension of a path is that of its last name.
-/

namespace SourceRecovery.Path

variable {p : Path} {names : List Name} {w ext : Name}

theorem fileName?_descend (hp : p.bytes ≠ []) (hnames : ∀ v ∈ names ++ [w], IsPlain v) :
    (p.descend (names ++ [w])).fileName? = some w := by
  rw [fileName?, components_descend hp hnames]
  simp

/-- The last dot of a name stands between what is in front of it and what is behind it. -/
theorem eq_of_splitLastDot {bs front back : Bytes} (h : splitLastDot bs = some (front, back)) :
    bs = front ++ dot :: back := by
  simp only [splitLastDot] at h
  split at h
  · rename_i hlt
    obtain ⟨hfront, hback⟩ := Prod.mk.inj (Option.some.inj h)
    have hsplit := List.takeWhile_append_dropWhile (p := (· != dot)) (l := bs.reverse)
    have hdot := List.head?_dropWhile_not (· != dot) bs.reverse
    cases hrest : bs.reverse.dropWhile (· != dot) with
    | nil =>
      have hlen := congrArg List.length hsplit
      rw [hrest] at hlen
      simp only [List.append_nil, List.length_reverse] at hlen hlt
      omega
    | cons b rest =>
      rw [hrest] at hdot hsplit
      obtain rfl : b = dot := by simpa using hdot
      have hbs : bs = rest.reverse ++ dot :: back := by
        rw [← List.reverse_reverse bs, ← hsplit, ← hback]
        simp
      have hlen : bs.length - back.length - 1 = rest.reverse.length := by
        rw [hbs]
        simp only [List.length_append, List.length_cons]
        omega
      rw [← hfront, hback, hlen]
      conv => rhs; rw [hbs, List.take_left]
      exact hbs
  · cases h

/-- A name with an extension is its stem, a dot and the extension. -/
theorem eq_of_stemAndExtension (h : (stemAndExtension w).2 = some ext) :
    ∃ stem, stem ≠ [] ∧ w = stem ++ dot :: ext := by
  unfold stemAndExtension at h
  split at h
  · cases h
  · cases h
  · rename_i front back hne hsplit
    obtain rfl : back = ext := Option.some.inj h
    exact ⟨front, hne, eq_of_splitLastDot hsplit⟩

theorem splitLastDot_append {front back : Bytes} (hback : dot ∉ back) :
    splitLastDot (front ++ dot :: back) = some (front, back) := by
  have hdots : ∀ b ∈ back.reverse, (b != dot) = true := fun b hb =>
    bne_iff_ne.2 fun heq => hback (heq ▸ List.mem_reverse.1 hb)
  have htake : ((front ++ dot :: back).reverse.takeWhile (· != dot)).reverse = back := by
    rw [List.reverse_append, List.reverse_cons, List.append_assoc,
      List.takeWhile_append_of_pos hdots]
    simp
  have hlen : (front ++ dot :: back).length - back.length - 1 = front.length := by
    simp only [List.length_append, List.length_cons]
    omega
  simp only [splitLastDot, htake, hlen, List.take_left]
  rw [if_pos (by simp only [List.length_append, List.length_cons]; omega)]

/-- A name splits at its last dot, if something stands in front. -/
theorem stemAndExtension_append {stem : Name} (hstem : stem ≠ []) (hext : dot ∉ ext) :
    stemAndExtension (stem ++ dot :: ext) = (stem, some ext) := by
  obtain ⟨b, bs, rfl⟩ := List.exists_cons_of_ne_nil hstem
  rw [stemAndExtension, splitLastDot_append hext]

/-- What stands behind the last dot of a name is its extension, if something stands in front. -/
theorem stemAndExtension_eq_some (hext : dot ∉ ext) :
    (stemAndExtension w).2 = some ext ↔ ∃ stem, stem ≠ [] ∧ w = stem ++ dot :: ext := by
  refine ⟨eq_of_stemAndExtension, ?_⟩
  rintro ⟨stem, hstem, rfl⟩
  rw [stemAndExtension_append hstem hext]

theorem extension?_descend (hp : p.bytes ≠ []) (hnames : ∀ v ∈ names ++ [w], IsPlain v) :
    (p.descend (names ++ [w])).extension? = (stemAndExtension w).2 := by
  rw [extension?, fileName?_descend hp hnames]
  rfl

end SourceRecovery.Path
