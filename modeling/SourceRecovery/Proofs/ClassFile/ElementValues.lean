import SourceRecovery.Proofs.ClassFile.Truncation
import SourceRecovery.Proofs.ClassFile.Unique

/-!
# Skipping element values

An element value of an annotation is skipped from a place exactly if one is spelled there, and up to
the place where it ends. Where a tag announces nothing, what has been read in front of it could have
gone on to be an element value.

* `Spells`: the bytes from one place to another are one element value, nested to any depth.
* `skipValue_eq_ok`, `Spells.unique`: where the reader stops, and that no other place would do.
* `StopsAtTag`: a reader that fails at a tag has read a proper beginning of its grammar.
* `skipValue_exact`: all of this of one element value.
-/

namespace SourceRecovery.ClassFile

open Format

variable {α : Type} {bytes : Bytes} {e : Extent} {p q depth : Nat} {v : Value}

/-! ## Where a value ends -/

/-- Whether the bytes from the place `p` to the place `q` are the encoding of the element value
    `v`. -/
structure Spells (bytes : Bytes) (p q : Nat) (v : Value) : Prop where
  start_le : p ≤ q
  stop_le : q ≤ bytes.length
  fits : v.Fits
  between : (bytes.take q).drop p = v.encode

/-- The bytes in front of a place begin at the place where they have been cut. -/
theorem drop_eq_append_iff {w rest : Bytes} (hw : w ≠ []) :
    bytes.drop p = w ++ rest ↔
      p + w.length ≤ bytes.length ∧ (bytes.take (p + w.length)).drop p = w ∧
        rest = bytes.drop (p + w.length) := by
  constructor
  · intro h
    have hlen := congrArg List.length h
    have hpos := List.length_pos_iff.2 hw
    rw [List.length_drop, List.length_append] at hlen
    refine ⟨by omega, ?_, ?_⟩
    · rw [List.drop_take, Nat.add_sub_cancel_left, h, List.take_left]
    · rw [← List.drop_drop, h, List.drop_left]
  · rintro ⟨-, hw', rfl⟩
    rw [List.drop_take, Nat.add_sub_cancel_left] at hw'
    calc bytes.drop p
        = (bytes.drop p).take w.length ++ (bytes.drop p).drop w.length :=
          (List.take_append_drop _ _).symm
      _ = w ++ bytes.drop (p + w.length) := by rw [hw', List.drop_drop]

theorem encode_ne_nil (v : Value) : v.encode ≠ [] := by
  cases v <;> exact List.cons_ne_nil _ _

/-- A reader that is given one level for each byte skips a value exactly where one is spelled. -/
theorem skipValue_eq_ok (hdepth : bytes.length ≤ depth) (c : Cursor) :
    skipValue depth ⟨e, p, bytes.drop p⟩ = .ok ((), c) ↔
      ∃ q v, c = ⟨e, q, bytes.drop q⟩ ∧ Spells bytes p q v := by
  rw [reads_skipValue depth e p (bytes.drop p) () c]
  constructor
  · rintro ⟨w, rest, ⟨v, hv, rfl⟩, hbytes, rfl⟩
    obtain ⟨hle, hbetween, rfl⟩ := (drop_eq_append_iff (encode_ne_nil v)).1 hbytes
    exact ⟨p + v.encode.length, v, rfl, Nat.le_add_right _ _, hle, ⟨depth, hv⟩, hbetween⟩
  · rintro ⟨q, v, rfl, hpq, hq, hfits, hbetween⟩
    have hlen : v.encode.length = q - p := by
      rw [← hbetween, List.length_drop, List.length_take_of_le hq]
    obtain rfl : q = p + v.encode.length := by omega
    refine ⟨v.encode, _, ⟨v, fitsWithin_mono ?_ (fitsWithin_length hfits), rfl⟩,
      (drop_eq_append_iff (encode_ne_nil v)).2 ⟨hq, hbetween, rfl⟩, rfl⟩
    omega

/-- No two values begin at one place. -/
theorem Spells.unique {q' : Nat} {v' : Value} (h : Spells bytes p q v) (h' : Spells bytes p q' v') :
    q = q' ∧ v = v' := by
  have hrest {q : Nat} {v : Value} (h : Spells bytes p q v) :
      bytes.drop p = v.encode ++ bytes.drop q := by
    have hsplit : bytes.drop p = (bytes.drop p).take (q - p) ++ (bytes.drop p).drop (q - p) :=
      (List.take_append_drop _ _).symm
    rwa [← List.drop_take, h.between, List.drop_drop, Nat.add_sub_cancel' h.start_le] at hsplit
  -- a depth that both values fit within
  obtain ⟨depth, hv⟩ := h.fits
  obtain ⟨depth', hv'⟩ := h'.fits
  obtain ⟨rfl, hdrop⟩ := selfDelimiting_value (max depth depth') v v' _ _
    (fitsWithin_mono (Nat.le_max_left _ _) hv) (fitsWithin_mono (Nat.le_max_right _ _) hv')
    ((hrest h).symm.trans (hrest h'))
  have hlen := congrArg List.length hdrop
  rw [List.length_drop, List.length_drop] at hlen
  have := h.stop_le
  have := h'.stop_le
  exact ⟨by omega, rfl⟩

/-! ## Failing at a tag -/

/-- Whether some bytes begin a word of the grammar `G` that goes on behind them. -/
def IsBegun (G : Bytes → Prop) (w : Bytes) : Prop :=
  ∃ u, u ≠ [] ∧ G (w ++ u)

/-- A steady reader runs out of every word that has only been begun. -/
theorem runsOut_of_begun {r : Reader α} {F : Fault → Prop} {G : Bytes → α → Prop} {o : Nat}
    {w cut : Bytes} (hsteady : Steady e F r) (hr : Reads r G)
    (hw : IsBegun (fun w => ∃ x, G w x) w) (hcut : cut <+: w) : RunsOut e r o cut := by
  obtain ⟨u, hu, x, hG⟩ := hw
  have hall : r ⟨e, o, w ++ u⟩ = .ok (x, ⟨e, o + (w ++ u).length, []⟩) :=
    (hr _ _ _ _ _).2 ⟨w ++ u, [], hG, (List.append_nil _).symm, rfl⟩
  have hbegins : cut <+: w ++ u := hcut.trans (List.prefix_append w u)
  rcases hsteady o (w ++ u) with hout | ⟨w', ⟨t, ht⟩, hdecides, hbefore⟩
  · exact hout cut hbegins
  · rw [← ht] at hall
    rcases hdecides with ⟨y, hy⟩ | ⟨f, -, hf⟩
    · -- the bytes that decide are all of the word
      rw [hy t] at hall
      obtain rfl : t = [] := by
        injection hall with hall
        injection hall with _ hcursor
        injection hcursor
      rw [List.append_nil] at ht
      have hlt := List.length_pos_iff.2 hu
      have hle := hcut.length_le
      refine hbefore cut (ht ▸ hbegins) ?_
      rw [ht, List.length_append]
      omega
    · rw [hf t] at hall
      cases hall

/-- Where a reader fails at a tag: what it has read in front of that tag is a beginning of a word of
    `G`, the tag announces no element value, and what stands behind it does not count. -/
structure TagFailure (r : Reader α) (G : Bytes → Prop) (e : Extent) (o : Nat) (tag : UInt8)
    (w : Bytes) : Prop where
  begun : IsBegun G w
  unknown : ElementKind.ofTag? tag = none
  fails : ∀ other, r ⟨e, o, w ++ tag :: other⟩ = .error (.unknownElementTag tag)

/-- Whether a reader fails only at such tags, of the faults that name one. -/
def StopsAtTag (r : Reader α) (G : Bytes → Prop) : Prop :=
  ∀ e o bytes tag, r ⟨e, o, bytes⟩ = .error (.unknownElementTag tag) →
    ∃ w back, bytes = w ++ tag :: back ∧ TagFailure r G e o tag w

/-- A reader that knows no other fault than the end of the bytes. -/
theorem not_error_of_steady {r : Reader α} (h : ∀ e, Steady e (fun _ => False) r) (c : Cursor)
    (tag : UInt8) : r c ≠ .error (.unknownElementTag tag) := by
  intro herror
  rcases (h c.extent).error herror with hfalse | ⟨off, hoff⟩
  · exact hfalse
  · cases hoff

theorem stopsAtTag_of_steady {r : Reader α} (h : ∀ e, Steady e (fun _ => False) r)
    (G : Bytes → Prop) : StopsAtTag r G :=
  fun _ _ _ tag herror => absurd herror (not_error_of_steady h _ tag)

theorem StopsAtTag.congr {r : Reader α} {G H : Bytes → Prop} (h : StopsAtTag r G)
    (hGH : ∀ w, G w → H w) : StopsAtTag r H := by
  intro e o bytes tag herror
  obtain ⟨w, back, hbytes, ⟨u, hu, hG⟩, hunknown, hfails⟩ := h e o bytes tag herror
  exact ⟨w, back, hbytes, ⟨u, hu, hGH _ hG⟩, hunknown, hfails⟩

/-- Behind fields that have been read, what is read of the rest goes on. -/
theorem StopsAtTag.behind {β : Type} {r : Reader α} {k : α → Reader β} {G : Bytes → α → Prop}
    {H : α → Bytes → Prop} (hsteady : ∀ e, Steady e (fun _ => False) r) (hr : Reads r G)
    (hk : ∀ x, StopsAtTag (k x) (H x)) :
    StopsAtTag (r >>= k) fun w => ∃ x u v, G u x ∧ H x v ∧ w = u ++ v := by
  intro e o bytes tag herror
  rcases bind_eq_error herror with hfirst | ⟨x, c, hx, hrest⟩
  · exact absurd hfirst (not_error_of_steady hsteady _ tag)
  · obtain ⟨u, rest, hG, rfl, rfl⟩ := (hr e o bytes x c).1 hx
    obtain ⟨w, back, rfl, ⟨t, ht, hH⟩, hunknown, hfails⟩ := hk x _ _ _ tag hrest
    refine ⟨u ++ w, back, by simp, ⟨t, ht, x, u, w ++ t, hG, hH, by simp⟩, hunknown, fun other => ?_⟩
    have hfirst := (hr e o _ x _).2 ⟨u, w ++ tag :: other, hG, rfl, rfl⟩
    rw [List.append_assoc, bind_of_ok hfirst, hfails]

/-- Of several words in a row the one that has been begun goes on. Those that have not been begun
    can be the same word again. -/
theorem StopsAtTag.times {r : Reader Unit} {S : α → Prop} {each : α → Bytes}
    (hr : Reads r fun w _ => ∃ a, S a ∧ w = each a)
    (h : StopsAtTag r fun w => ∃ a, S a ∧ w = each a) (n : Nat) :
    StopsAtTag (Reader.times n r) fun w =>
      ∃ l : List α, l.length = n ∧ (∀ a ∈ l, S a) ∧ w = l.flatMap each := by
  induction n with
  | zero =>
    intro e o bytes tag herror
    cases herror
  | succ n ih =>
    intro e o bytes tag herror
    rcases bind_eq_error herror with hfirst | ⟨_, c, hx, hrest⟩
    · obtain ⟨w, back, rfl, ⟨u, hu, a, ha, hw⟩, hunknown, hfails⟩ := h e o bytes tag hfirst
      refine ⟨w, back, rfl, ⟨u ++ (List.replicate n a).flatMap each, by simp [hu],
        a :: List.replicate n a, by simp, ?_, ?_⟩, hunknown, fun other => bind_of_error (hfails other)⟩
      · intro b hb
        rcases List.mem_cons.1 hb with rfl | hb
        · exact ha
        · rwa [List.eq_of_mem_replicate hb]
      · rw [List.flatMap_cons, ← hw, List.append_assoc]
    · obtain ⟨_, rest, ⟨a, ha, rfl⟩, rfl, rfl⟩ := (hr e o bytes () c).1 hx
      obtain ⟨w, back, rfl, ⟨u, hu, l, rfl, hl, hw⟩, hunknown, hfails⟩ := ih _ _ _ tag hrest
      refine ⟨each a ++ w, back, by simp,
        ⟨u, hu, a :: l, rfl, List.forall_mem_cons.2 ⟨ha, hl⟩, ?_⟩, hunknown, fun other => ?_⟩
      · rw [List.flatMap_cons, ← hw, List.append_assoc]
      · have hfirst := (hr e o _ () _).2 ⟨each a, w ++ tag :: other, ⟨a, ha, rfl⟩, rfl, rfl⟩
        rw [List.append_assoc, Reader.times, bind_of_ok hfirst, hfails]

theorem StopsAtTag.counted {r : Reader Unit} {S : α → Prop} {each : α → Bytes}
    (hr : Reads r fun w _ => ∃ a, S a ∧ w = each a)
    (h : StopsAtTag r fun w => ∃ a, S a ∧ w = each a) :
    StopsAtTag (Reader.u2 >>= fun n => Reader.times n r) fun w =>
      ∃ l : Counted α, (∀ a ∈ l.items, S a) ∧ w = l.encode each := by
  refine (StopsAtTag.behind (fun _ => steady_u2) reads_u2 fun n => h.times hr n).congr fun w => ?_
  rintro ⟨n, _, _, ⟨hn, rfl⟩, ⟨l, rfl, hl, rfl⟩, rfl⟩
  exact ⟨⟨l, hn⟩, hl, rfl⟩

theorem StopsAtTag.pair {r : Reader Unit} {S : Value → Prop}
    (h : StopsAtTag r fun w => ∃ v, S v ∧ w = v.encode) :
    StopsAtTag (do Reader.skip 2; r) fun w => ∃ p : UInt16 × Value, S p.2 ∧ w = encodePair p := by
  refine (StopsAtTag.behind (fun _ => steady_skip 2) reads_skip_word fun _ => h).congr fun w => ?_
  rintro ⟨-, _, _, ⟨n, rfl⟩, ⟨v, hv, rfl⟩, rfl⟩
  exact ⟨(n, v), hv, rfl⟩

/-- A failure in what the tag of a value announces is a failure of that value. -/
theorem tagFailure_of_announced {r : Reader Unit} {kind : ElementKind} {first tag : UInt8} {o : Nat}
    {bs : Bytes} (hkind : ElementKind.ofTag? first = some kind)
    (hr : StopsAtTag r (Follows depth (some kind)))
    (heq : ∀ bs, skipValue (depth + 1) ⟨e, o, first :: bs⟩ = r ⟨e, o + 1, bs⟩)
    (herror : skipValue (depth + 1) ⟨e, o, first :: bs⟩ = .error (.unknownElementTag tag)) :
    ∃ w back, first :: bs = w ++ tag :: back ∧ TagFailure (skipValue (depth + 1))
      (fun w => ∃ v : Value, v.FitsWithin (depth + 1) ∧ w = v.encode) e o tag w := by
  rw [heq] at herror
  obtain ⟨w, back, rfl, ⟨u, hu, hfollows⟩, hunknown, hfails⟩ := hr _ _ _ tag herror
  have hvalue := (fitsWithin_succ_iff depth _).2 ⟨first, w ++ u, hkind ▸ hfollows, rfl⟩
  exact ⟨first :: w, back, rfl, ⟨u, hu, hvalue⟩, hunknown,
    fun other => (heq _).trans (hfails other)⟩

/-- What has been read in front of a tag that announces nothing could have gone on to be an element
    value. -/
theorem stopsAtTag_skipValue (depth : Nat) :
    StopsAtTag (skipValue depth) fun w => ∃ v : Value, v.FitsWithin depth ∧ w = v.encode := by
  induction depth with
  | zero =>
    intro e o bytes tag herror
    cases herror
  | succ depth ih =>
    intro e o bytes tag herror
    cases bytes with
    | nil => cases herror
    | cons first bs =>
      have hfirst (bs : Bytes) : Reader.u1 ⟨e, o, first :: bs⟩ = .ok (first, ⟨e, o + 1, bs⟩) := rfl
      cases hkind : ElementKind.ofTag? first with
      | none =>
        have hfails (bs : Bytes) :
            skipValue (depth + 1) ⟨e, o, first :: bs⟩ = .error (.unknownElementTag first) := by
          rw [skipValue, bind_of_ok (hfirst bs), hkind]
          rfl
        rw [hfails bs] at herror
        obtain rfl : first = tag := by injection Except.error.inj herror
        let v : Value := .literal .byte 0
        exact ⟨[], bs, rfl, ⟨v.encode, encode_ne_nil v, v, trivial, rfl⟩, hkind, hfails⟩
      | some kind =>
        cases kind with
        | constant =>
          refine tagFailure_of_announced hkind (stopsAtTag_of_steady (fun _ => steady_skip 2) _)
            (fun bs => ?_) herror
          rw [skipValue, bind_of_ok (hfirst bs), hkind]
        | enumConstant =>
          refine tagFailure_of_announced hkind (stopsAtTag_of_steady (fun _ => steady_skip 4) _)
            (fun bs => ?_) herror
          rw [skipValue, bind_of_ok (hfirst bs), hkind]
        | nested =>
          have hpairs := StopsAtTag.counted (reads_pair (reads_skipValue depth)) ih.pair
          have hall := StopsAtTag.behind (fun _ => steady_skip 2) reads_skip_word fun _ => hpairs
          refine tagFailure_of_announced hkind (hall.congr fun w => ?_) (fun bs => ?_) herror
          · rintro ⟨-, _, _, ⟨t, rfl⟩, ⟨l, hl, rfl⟩, rfl⟩
            exact ⟨t, l, hl, rfl⟩
          · rw [skipValue, bind_of_ok (hfirst bs), hkind]
        | array =>
          refine tagFailure_of_announced hkind (StopsAtTag.counted (reads_skipValue depth) ih)
            (fun bs => ?_) herror
          rw [skipValue, bind_of_ok (hfirst bs), hkind]

/-! ## The whole -/

/-- From a place in some bytes, an element value is skipped exactly if one is spelled there, and up to
    the place where it ends, of which there is at most one. Where a tag announces nothing, the bytes in
    front of it are a proper beginning of an element value; what stands behind it has not been read,
    and without it the bytes would have ended. -/
theorem skipValue_exact (bytes : Bytes) (e : Extent) (p : Nat) {depth : Nat}
    (hdepth : bytes.length ≤ depth) :
    (∀ c, skipValue depth ⟨e, p, bytes.drop p⟩ = .ok ((), c) ↔
      ∃ q v, c = ⟨e, q, bytes.drop q⟩ ∧ Spells bytes p q v) ∧
    (∀ q q' v v', Spells bytes p q v → Spells bytes p q' v' → q = q' ∧ v = v') ∧
    ∀ tag, skipValue depth ⟨e, p, bytes.drop p⟩ = .error (.unknownElementTag tag) →
      ∃ (front back unread : Bytes) (v : Value), bytes.drop p = front ++ tag :: back ∧
        v.Fits ∧ unread ≠ [] ∧ v.encode = front ++ unread ∧ ElementKind.ofTag? tag = none ∧
        (∀ other, skipValue depth ⟨e, p, front ++ tag :: other⟩ = .error (.unknownElementTag tag)) ∧
        ∀ cut, cut <+: front →
          ∃ off, skipValue depth ⟨e, p, cut⟩ = .error (.truncated e off) := by
  refine ⟨skipValue_eq_ok hdepth, fun q q' v v' h h' => h.unique h', fun tag herror => ?_⟩
  obtain ⟨front, back, hbytes, hbegun, hunknown, hfails⟩ := stopsAtTag_skipValue depth _ _ _ tag herror
  have hcut (cut : Bytes) (hbegins : cut <+: front) :
      ∃ off, skipValue depth ⟨e, p, cut⟩ = .error (.truncated e off) := by
    have hout : RunsOut e (skipValue depth) p cut := by
      refine runsOut_of_begun (steady_skipValue depth) (reads_skipValue depth) ?_ hbegins
      obtain ⟨u, hu, hv⟩ := hbegun
      exact ⟨u, hu, (), hv⟩
    obtain ⟨off, -, hoff⟩ := hout
    exact ⟨off, hoff⟩
  obtain ⟨unread, hunread, v, hv, hencode⟩ := hbegun
  exact ⟨front, back, unread, v, hbytes, ⟨depth, hv⟩, hunread, hencode.symm, hunknown, hfails, hcut⟩

/-- An array of an annotation with one pair, and of an enum constant. -/
def nestedArray : Value :=
  .array [.nested 7 [(1, .literal .int 2)], .enumConstant 3 4]

/-- The array is skipped from the second byte on, and nothing of what stands behind it is read. With
    another byte in place of its second tag, what stands in front of that byte has begun a value. -/
theorem skipValue_exact_nestedArray :
    (0xFF :: (nestedArray.encode ++ [0x3F])).length ≤ 20 ∧
    skipValue 20 ⟨.attribute, 1, nestedArray.encode ++ [0x3F]⟩ =
      .ok ((), ⟨.attribute, 19, [0x3F]⟩) ∧
    (∀ q v, Spells (0xFF :: (nestedArray.encode ++ [0x3F])) 1 q v → q = 19 ∧ v = nestedArray) ∧
    (nestedArray.encode.take 13 ++ [0x3F, 0xFF]).length ≤ 20 ∧
    ∃ (front back unread : Bytes) (v : Value),
      nestedArray.encode.take 13 ++ [0x3F, 0xFF] = front ++ 0x3F :: back ∧ v.Fits ∧ unread ≠ [] ∧
        v.encode = front ++ unread := by
  have hlen : (0xFF :: (nestedArray.encode ++ [0x3F])).length ≤ 20 := by decide
  have hlen' : (nestedArray.encode.take 13 ++ [0x3F, 0xFF]).length ≤ 20 := by decide
  have hspells : Spells (0xFF :: (nestedArray.encode ++ [0x3F])) 1 19 nestedArray :=
    ⟨by decide, by decide, ⟨3, by decide⟩, by decide⟩
  obtain ⟨hok, hunique, -⟩ := skipValue_exact _ .attribute 1 hlen
  obtain ⟨-, -, htag⟩ := skipValue_exact _ .attribute 0 hlen'
  obtain ⟨front, back, unread, v, hbytes, hfits, hunread, hencode, -⟩ := htag 0x3F rfl
  exact ⟨hlen, (hok _).2 ⟨19, nestedArray, rfl, hspells⟩, fun q v h => hunique _ _ _ _ h hspells,
    hlen', front, back, unread, v, hbytes, hfits, hunread, hencode⟩

end SourceRecovery.ClassFile
