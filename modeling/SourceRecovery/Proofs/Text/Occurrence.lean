import SourceRecovery.Text.Occurrence

/-!
# Occurrences of a word

Where a word stands in a text that has been put together, and what replacing it leaves.

* `occursIn_iff`: the search finds the word wherever it stands.
* `EndsApart`, `BeginsApart`: no occurrence of the word reaches into what stands behind, or comes from
  what stands in front.
* `infix_append_of_endsApart`, `infix_append_of_beginsApart`: so it stands in one part or the other.
* `replaceHits_append`, `replaceHits_occurrence`: what is passed over, and what is replaced.
* `replaceAll_append`, `eraseIgnoringCase_append`: the same of a word as it is spelled, and in any case.
-/

namespace SourceRecovery.Text

variable {word front back cs occurrence new : List Char} {hit : List Char → Bool} {f : Char → Char}

theorem occursIn_iff : occursIn word cs = true ↔ word <:+: cs := by
  induction cs with
  | nil => rw [occursIn, List.isEmpty_iff, List.infix_nil]
  | cons c cs ih =>
    rw [occursIn, Bool.or_eq_true, List.isPrefixOf_iff_prefix, ih, List.infix_cons_iff]

theorem occursIn_eq_false_iff : occursIn word cs = false ↔ ¬ word <:+: cs := by
  rw [← occursIn_iff, Bool.not_eq_true]

/-! ## Seams -/

/-- Whether no end of the word, the whole of it apart, stands at the front of a text. -/
def EndsApart (word back : List Char) : Prop :=
  ∀ n < word.length, 0 < n → ¬ word.drop n <+: back

/-- Whether no beginning of the word, the whole of it apart, stands at the end of a text. -/
def BeginsApart (word front : List Char) : Prop :=
  ∀ n < word.length, 0 < n → ¬ word.take n <:+ front

instance : Decidable (EndsApart word back) :=
  inferInstanceAs (Decidable (∀ n < word.length, 0 < n → ¬ word.drop n <+: back))

instance : Decidable (BeginsApart word front) :=
  inferInstanceAs (Decidable (∀ n < word.length, 0 < n → ¬ word.take n <:+ front))

theorem EndsApart.eq_nil {l₁ l₂ : List Char} (h : EndsApart (l₁ ++ l₂) back) (hback : l₂ <+: back) :
    l₁ = [] ∨ l₂ = [] := by
  refine Classical.byContradiction fun hne => ?_
  rw [not_or] at hne
  refine h l₁.length ?_ (List.length_pos_iff.2 hne.1) ?_
  · have := List.length_pos_iff.2 hne.2
    rw [List.length_append]
    omega
  · rwa [List.drop_left]

theorem BeginsApart.eq_nil {l₁ l₂ : List Char} (h : BeginsApart (l₁ ++ l₂) front)
    (hfront : l₁ <:+ front) : l₁ = [] ∨ l₂ = [] := by
  refine Classical.byContradiction fun hne => ?_
  rw [not_or] at hne
  refine h l₁.length ?_ (List.length_pos_iff.2 hne.1) ?_
  · have := List.length_pos_iff.2 hne.2
    rw [List.length_append]
    omega
  · rwa [List.take_left]

/-- A word that does not stand across the seam of two texts stands in one of them. -/
theorem infix_append_of_seam
    (h : ∀ l₁ l₂, word = l₁ ++ l₂ → l₁ <:+ front → l₂ <+: back → l₁ = [] ∨ l₂ = []) :
    word <:+: front ++ back ↔ word <:+: front ∨ word <:+: back := by
  rw [List.infix_append_iff]
  constructor
  · rintro (hin | hin | ⟨l₁, l₂, rfl, hfront, hback⟩)
    · exact .inl hin
    · exact .inr hin
    · rcases h l₁ l₂ rfl hfront hback with rfl | rfl
      · exact .inr hback.isInfix
      · exact .inl (by simpa using hfront.isInfix)
  · rintro (hin | hin)
    · exact .inl hin
    · exact .inr (.inl hin)

theorem infix_append_of_endsApart (h : EndsApart word back) :
    word <:+: front ++ back ↔ word <:+: front ∨ word <:+: back := by
  refine infix_append_of_seam ?_
  rintro l₁ l₂ rfl - hback
  exact h.eq_nil hback

theorem infix_append_of_beginsApart (h : BeginsApart word front) :
    word <:+: front ++ back ↔ word <:+: front ∨ word <:+: back := by
  refine infix_append_of_seam ?_
  rintro l₁ l₂ rfl hfront -
  exact h.eq_nil hfront

/-- Where a text begins that the word does not begin, what follows does not complete the word. -/
theorem not_prefix_append (hcs : cs ≠ []) (hword : ¬ word <+: cs) (h : EndsApart word back) :
    ¬ word <+: cs ++ back := by
  intro hprefix
  rcases List.prefix_or_prefix_of_prefix hprefix (List.prefix_append cs back) with hin | ⟨rest, rfl⟩
  · exact hword hin
  · have hrest : rest <+: back := (List.prefix_append_right_inj cs).1 hprefix
    rcases h.eq_nil hrest with rfl | rfl
    · exact hcs rfl
    · exact hword (by simp)

theorem endsApart_nil (word : List Char) : EndsApart word [] := by
  intro n hn _ hprefix
  have := hprefix.length_le
  rw [List.length_drop, List.length_nil] at this
  omega

/-! ## Replacing -/

/-- Whether a test accepts the texts that the word stands in front of, as `f` reads them. -/
def Spots (f : Char → Char) (word : List Char) (hit : List Char → Bool) : Prop :=
  ∀ cs, hit cs = true ↔ word <+: cs.map f

theorem spots_isPrefixOf (word : List Char) : Spots id word word.isPrefixOf := by
  intro cs
  rw [List.isPrefixOf_iff_prefix, List.map_id]

theorem spots_beginsIgnoringCase (word : List Char) :
    Spots Char.toLower word (beginsIgnoringCase word) := by
  intro cs
  rw [beginsIgnoringCase, beq_iff_eq, lowerAscii, List.map_take, List.prefix_iff_eq_take, eq_comm]

/-- What holds no occurrence is passed over, if none reaches from it into what follows. -/
theorem replaceHits_append (hspots : Spots f word hit) (width : Nat) (new : List Char)
    (hfront : ¬ word <:+: front.map f) (hback : EndsApart word (back.map f)) :
    replaceHits hit width new (front ++ back) = front ++ replaceHits hit width new back := by
  induction front with
  | nil => rfl
  | cons c front ih =>
    rw [List.map_cons, List.infix_cons_iff, not_or] at hfront
    have hmiss : hit (c :: front ++ back) = false := by
      rw [← Bool.not_eq_true, hspots, List.map_append]
      exact not_prefix_append (by simp) hfront.1 hback
    rw [List.cons_append] at hmiss ⊢
    rw [replaceHits, replaceHitsFrom, hmiss]
    exact congrArg (c :: ·) (ih hfront.2)

/-- So a text without an occurrence stays as it is. -/
theorem replaceHits_eq_self (hspots : Spots f word hit) (width : Nat) (new : List Char)
    (h : ¬ word <:+: cs.map f) : replaceHits hit width new cs = cs := by
  have happend : replaceHits hit width new (cs ++ []) = cs ++ replaceHits hit width new [] :=
    replaceHits_append hspots width new h (endsApart_nil word)
  rw [List.append_nil] at happend
  rw [happend, replaceHits, replaceHitsFrom, List.append_nil]

theorem replaceHitsFrom_append (hit : List Char → Bool) (width : Nat) (new occurrence cs : List Char) :
    replaceHitsFrom hit width new occurrence.length (occurrence ++ cs) =
      replaceHits hit width new cs := by
  induction occurrence with
  | nil => rfl
  | cons c occurrence ih => exact ih

/-- An occurrence is replaced, and the search goes on behind it. -/
theorem replaceHits_occurrence (hspots : Spots f word hit) (new cs : List Char)
    (hoccurrence : occurrence.map f = word) (hne : word ≠ []) :
    replaceHits hit word.length new (occurrence ++ cs) = new ++ replaceHits hit word.length new cs := by
  have hhit : hit (occurrence ++ cs) = true := by
    rw [hspots, List.map_append, hoccurrence]
    exact List.prefix_append _ _
  have hlen : word.length = occurrence.length := by rw [← hoccurrence, List.length_map]
  cases occurrence with
  | nil => exact absurd hoccurrence.symm hne
  | cons c occurrence =>
    rw [List.cons_append] at hhit ⊢
    rw [replaceHits, replaceHitsFrom, if_pos hhit, hlen, List.length_cons, Nat.add_sub_cancel,
      replaceHitsFrom_append]

/-! ## A word as it is spelled, and in any case -/

theorem replaceAll_append (new : List Char) (hfront : ¬ word <:+: front)
    (hback : EndsApart word back) :
    replaceAll word new (front ++ back) = front ++ replaceAll word new back :=
  replaceHits_append (spots_isPrefixOf word) _ _ (by rwa [List.map_id]) (by rwa [List.map_id])

theorem replaceAll_word_append (hne : word ≠ []) (new cs : List Char) :
    replaceAll word new (word ++ cs) = new ++ replaceAll word new cs :=
  replaceHits_occurrence (spots_isPrefixOf word) _ _ (List.map_id word) hne

theorem replaceAll_eq_self (new : List Char) (h : ¬ word <:+: cs) : replaceAll word new cs = cs :=
  replaceHits_eq_self (spots_isPrefixOf word) _ _ (by rwa [List.map_id])

theorem eraseIgnoringCase_append (hfront : ¬ word <:+: lowerAscii front)
    (hback : EndsApart word (lowerAscii back)) :
    eraseIgnoringCase word (front ++ back) = front ++ eraseIgnoringCase word back :=
  replaceHits_append (spots_beginsIgnoringCase word) _ _ hfront hback

end SourceRecovery.Text
