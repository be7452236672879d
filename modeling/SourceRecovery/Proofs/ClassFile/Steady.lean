import SourceRecovery.ClassFile.Basic
import SourceRecovery.Proofs.ClassFile.Reads

/-!
# Readers of growing bytes

A reader is steady if it can be given its bytes piece by piece: as long as they do not suffice it
says that they have ended, and from some byte on nothing that follows changes the answer.

* `Steady.bind`, `steady_pure`, `steady_lift`, `steady_throw`: steady readers are put together.
* `steady_of_width`: a reader of a fixed number of bytes is steady.
* `steady_times`: so is a steady reader many times in a row.
-/

namespace SourceRecovery.ClassFile

variable {α β : Type} {e : Extent} {F : Fault → Prop}

/-- Whether a reader says that the bytes `v` have ended, at a place among them. -/
def RunsOut (e : Extent) (r : Reader α) (o : Nat) (v : Bytes) : Prop :=
  ∃ off, off ≤ o + v.length ∧ r ⟨e, o, v⟩ = .error (.truncated e off)

/-- Whether the bytes `w` decide the answer: a value, with the place behind them, or a fault in `F`. -/
def Decides (e : Extent) (F : Fault → Prop) (r : Reader α) (o : Nat) (w : Bytes) : Prop :=
  (∃ x, ∀ s, r ⟨e, o, w ++ s⟩ = .ok (x, ⟨e, o + w.length, s⟩)) ∨
    ∃ f, F f ∧ ∀ s, r ⟨e, o, w ++ s⟩ = .error f

/-- Whether a reader runs out of all that the bytes begin with, or of what is shorter than some
    beginning of them that decides the answer. -/
def Steady (e : Extent) (F : Fault → Prop) (r : Reader α) : Prop :=
  ∀ o bytes, (∀ v, v <+: bytes → RunsOut e r o v) ∨
    ∃ w, w <+: bytes ∧ Decides e F r o w ∧ ∀ v, v <+: w → v.length < w.length → RunsOut e r o v

/-! ## Composition -/

theorem RunsOut.bind {r : Reader α} {k : α → Reader β} {o : Nat} {v : Bytes}
    (h : RunsOut e r o v) : RunsOut e (r >>= k) o v := by
  obtain ⟨off, hoff, herror⟩ := h
  exact ⟨off, hoff, bind_of_error herror⟩

/-- Behind the bytes of a first reader, a second one runs out where both together do. -/
theorem RunsOut.behind {r : Reader α} {k : α → Reader β} {o : Nat} {w v : Bytes} {x : α}
    (hr : ∀ s, r ⟨e, o, w ++ s⟩ = .ok (x, ⟨e, o + w.length, s⟩))
    (hk : RunsOut e (k x) (o + w.length) v) : RunsOut e (r >>= k) o (w ++ v) := by
  obtain ⟨off, hoff, herror⟩ := hk
  refine ⟨off, ?_, ?_⟩
  · rw [List.length_append]
    omega
  · rw [bind_of_ok (hr v), herror]

theorem Decides.behind {r : Reader α} {k : α → Reader β} {o : Nat} {w v : Bytes} {x : α}
    (hr : ∀ s, r ⟨e, o, w ++ s⟩ = .ok (x, ⟨e, o + w.length, s⟩))
    (hk : Decides e F (k x) (o + w.length) v) : Decides e F (r >>= k) o (w ++ v) := by
  rcases hk with ⟨y, hy⟩ | ⟨f, hF, hf⟩
  · refine .inl ⟨y, fun s => ?_⟩
    rw [List.append_assoc, bind_of_ok (hr _), hy, List.length_append,
      Nat.add_assoc]
  · refine .inr ⟨f, hF, fun s => ?_⟩
    rw [List.append_assoc, bind_of_ok (hr _), hf]

/-- What runs out of every proper beginning of `w`, and behind `w` of every `v` in `V`, runs out of
    every beginning of `w` with a `v` in `V` behind it. -/
theorem runsOut_of_prefix {r : Reader α} {o : Nat} {w t : Bytes} {V : Bytes → Prop}
    (hbefore : ∀ v, v <+: w → v.length < w.length → RunsOut e r o v)
    (hbehind : ∀ v, v <+: t → V v → RunsOut e r o (w ++ v)) (v : Bytes) (hv : v <+: w ++ t)
    (hV : ∀ v', v = w ++ v' → V v') : RunsOut e r o v := by
  by_cases hlt : v.length < w.length
  · exact hbefore v (List.prefix_of_prefix_length_le hv (List.prefix_append w t) (by omega)) hlt
  · obtain ⟨v', rfl⟩ := List.prefix_of_prefix_length_le (List.prefix_append w t) hv (by omega)
    exact hbehind v' ((List.prefix_append_right_inj w).1 hv) (hV v' rfl)

theorem Steady.bind {r : Reader α} {k : α → Reader β} (hr : Steady e F r)
    (hk : ∀ x, Steady e F (k x)) : Steady e F (r >>= k) := by
  intro o bytes
  rcases hr o bytes with hout | ⟨w, ⟨t, rfl⟩, hdecides, hbefore⟩
  · exact .inl fun v hv => (hout v hv).bind
  · have hbefore' : ∀ v, v <+: w → v.length < w.length → RunsOut e (r >>= k) o v :=
      fun v hv hlt => (hbefore v hv hlt).bind
    rcases hdecides with ⟨x, hx⟩ | ⟨f, hF, hf⟩
    · rcases hk x (o + w.length) t with hout | ⟨u, ⟨t', rfl⟩, hdecides, hbehind⟩
      · refine .inl fun v hv => runsOut_of_prefix (V := fun _ => True) hbefore' ?_ v hv
          fun _ _ => trivial
        intro v' hv' _
        exact RunsOut.behind hx (hout v' hv')
      · refine .inr ⟨w ++ u, ?_, Decides.behind hx hdecides, fun v hv hlt => ?_⟩
        · rw [← List.append_assoc]
          exact List.prefix_append _ _
        · refine runsOut_of_prefix (V := fun v' => v'.length < u.length) hbefore' ?_ v hv ?_
          · intro v' hv' hlt'
            exact RunsOut.behind hx (hbehind v' hv' hlt')
          · rintro v' rfl
            rw [List.length_append, List.length_append] at hlt
            omega
    · exact .inr ⟨w, List.prefix_append w t, .inr ⟨f, hF, fun s => bind_of_error (hf s)⟩, hbefore'⟩

/-- An answer that needs no bytes. -/
theorem steady_of_decides {r : Reader α} (h : ∀ o, Decides e F r o []) : Steady e F r := by
  intro o bytes
  refine .inr ⟨[], List.nil_prefix, h o, fun v _ hlt => ?_⟩
  exact absurd hlt (Nat.not_lt_zero _)

theorem steady_pure (a : α) : Steady e F (pure a) :=
  steady_of_decides fun _ => .inl ⟨a, fun _ => rfl⟩

theorem steady_throw {f : Fault} (hF : F f) : Steady e F (throw f : Reader α) :=
  steady_of_decides fun _ => .inr ⟨f, hF, fun _ => rfl⟩

theorem steady_lift {a : Except Fault α} (hF : ∀ f, a = .error f → F f) :
    Steady e F (liftM a : Reader α) := by
  cases a with
  | ok x => exact steady_of_decides fun _ => .inl ⟨x, fun _ => rfl⟩
  | error f => exact steady_of_decides fun _ => .inr ⟨f, hF f rfl, fun _ => rfl⟩

theorem Steady.ite {r s : Reader α} {b : Bool} (hr : Steady e F r) (hs : Steady e F s) :
    Steady e F (if b then r else s) := by
  cases b
  · exact hs
  · exact hr

theorem steady_ended : Steady e F (Reader.ended : Reader α) := by
  intro o bytes
  exact .inl fun v _ => ⟨o, Nat.le_add_right o _, rfl⟩

/-- A steady reader fails at the end of its own bytes, or with one of its faults. -/
theorem Steady.error {r : Reader α} (h : Steady e F r) {o : Nat} {bytes : Bytes} {f : Fault}
    (herror : r ⟨e, o, bytes⟩ = .error f) :
    F f ∨ ∃ off, f = .truncated e off := by
  rcases h o bytes with hout | ⟨w, ⟨t, rfl⟩, ⟨x, hx⟩ | ⟨g, hF, hg⟩, -⟩
  · obtain ⟨off, -, hoff⟩ := hout bytes (List.prefix_refl bytes)
    rw [herror] at hoff
    exact .inr ⟨off, Except.error.inj hoff⟩
  · rw [hx t] at herror
    cases herror
  · rw [hg t] at herror
    rw [← Except.error.inj herror]
    exact .inl hF

/-! ## Fields -/

/-- A reader of `n` bytes, whatever they are. -/
theorem steady_of_width {r : Reader α} (n : Nat)
    (hshort : ∀ o v, v.length < n → r ⟨e, o, v⟩ = .error (.truncated e o))
    (hlong : ∀ o w, w.length = n → ∃ x, ∀ s, r ⟨e, o, w ++ s⟩ = .ok (x, ⟨e, o + w.length, s⟩)) :
    Steady e F r := by
  intro o bytes
  by_cases hn : n ≤ bytes.length
  · have hlen : (bytes.take n).length = n := List.length_take_of_le hn
    refine .inr ⟨bytes.take n, List.take_prefix n bytes, .inl (hlong o _ hlen), fun v _ hlt => ?_⟩
    rw [hlen] at hlt
    exact ⟨o, Nat.le_add_right o _, hshort o v hlt⟩
  · refine .inl fun v hv => ⟨o, Nat.le_add_right o _, hshort o v ?_⟩
    have := hv.length_le
    omega

theorem steady_take (n : Nat) : Steady e F (Reader.take n) := by
  refine steady_of_width n ?_ ?_
  · intro o v hv
    have hshort : ¬ hasAtLeast n v = true := by
      rw [hasAtLeast_iff]
      omega
    rw [Reader.take, if_neg hshort]
  · rintro o w rfl
    refine ⟨w, fun s => ?_⟩
    have hlong : hasAtLeast w.length (w ++ s) = true := by
      rw [hasAtLeast_iff, List.length_append]
      omega
    rw [Reader.take, if_pos hlong, List.take_left, List.drop_left]

theorem steady_skip (n : Nat) : Steady e F (Reader.skip n) :=
  (steady_take n).bind fun _ => steady_pure ()

theorem steady_u1 : Steady e F Reader.u1 := by
  refine steady_of_width 1 ?_ ?_
  · intro o v hv
    obtain rfl := List.length_eq_zero_iff.1 (Nat.lt_one_iff.1 hv)
    rfl
  · intro o w hw
    match w, hw with
    | [b], _ => exact ⟨b, fun s => rfl⟩

theorem steady_u2 : Steady e F Reader.u2 := by
  refine steady_of_width 2 ?_ ?_
  · intro o v hv
    match v, hv with
    | [], _ => rfl
    | [_], _ => rfl
  · intro o w hw
    match w, hw with
    | [b₁, b₀], _ => exact ⟨_, fun s => rfl⟩

theorem steady_u4 : Steady e F Reader.u4 := by
  refine steady_of_width 4 ?_ ?_
  · intro o v hv
    match v, hv with
    | [], _ => rfl
    | [_], _ => rfl
    | [_, _], _ => rfl
    | [_, _, _], _ => rfl
  · intro o w hw
    match w, hw with
    | [b₃, b₂, b₁, b₀], _ => exact ⟨_, fun s => rfl⟩

theorem steady_times {r : Reader Unit} (hr : Steady e F r) (n : Nat) :
    Steady e F (Reader.times n r) := by
  induction n with
  | zero => exact steady_pure ()
  | succ n ih => exact hr.bind fun _ => ih

end SourceRecovery.ClassFile
