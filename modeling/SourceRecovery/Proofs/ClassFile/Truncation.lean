import SourceRecovery.Proofs.ClassFile.Steady

/-!
# Files that are cut off

* `steady_readHead`, `steady_findMarked`: the readers of a class file are steady.
* `bodyCarries_error`: what is wrong in the body of an attribute is never that the file has ended.
* `scan_threshold`: a file is said to be cut off, with everything that it begins with, or a number of
  its bytes decides the answer for every file that begins with them.
-/

namespace SourceRecovery.ClassFile

/-! ## Annotations -/

/-- The faults that are not the end of some bytes. -/
def Fault.IsProper (f : Fault) : Prop :=
  ∀ e off, f ≠ .truncated e off

/-- The faults that are not the end of the file. -/
def Fault.IsBehindEnd (f : Fault) : Prop :=
  ∀ off, f ≠ .truncated .file off

theorem isProper_badConstantIndex (i : Nat) : (Fault.badConstantIndex i).IsProper := by
  intro e off h
  cases h

theorem isProper_of_text {pool : ConstantPool} {i : Nat} {f : Fault}
    (h : pool.text i = .error f) : f.IsProper := by
  unfold ConstantPool.text at h
  split at h
  · cases h
  · rw [← Except.error.inj h]
    exact isProper_badConstantIndex i

theorem Fault.IsProper.isBehindEnd {f : Fault} (h : f.IsProper) : f.IsBehindEnd :=
  h .file

theorem steady_skipValue {e : Extent} (depth : Nat) :
    Steady e Fault.IsProper (skipValue depth) := by
  induction depth with
  | zero => exact steady_ended
  | succ depth ih =>
    rw [skipValue]
    refine steady_u1.bind fun tag => ?_
    cases ElementKind.ofTag? tag with
    | none => exact steady_throw fun e off h => by cases h
    | some kind =>
      cases kind with
      | constant => exact steady_skip 2
      | enumConstant => exact steady_skip 4
      | nested =>
        exact (steady_skip 2).bind fun _ => steady_u2.bind fun n =>
          steady_times ((steady_skip 2).bind fun _ => ih) n
      | array => exact steady_u2.bind fun n => steady_times ih n

theorem steady_skipPairs (depth : Nat) : Steady .attribute Fault.IsProper (skipPairs depth) :=
  steady_u2.bind fun n => steady_times ((steady_skip 2).bind fun _ => steady_skipValue depth) n

theorem steady_findMark (pool : ConstantPool) (marker : Bytes) (depth n : Nat) :
    Steady .attribute Fault.IsProper (findMark pool marker depth n) := by
  induction n with
  | zero => exact steady_pure false
  | succ n ih =>
    rw [findMark]
    exact steady_u2.bind fun i => (steady_lift fun _ => isProper_of_text).bind fun type =>
      (steady_pure true).ite ((steady_skipPairs depth).bind fun _ => ih)

/-- A body that ends too early is an attribute that is wrong, not a file that is cut off. -/
theorem bodyCarries_error {pool : ConstantPool} {marker body : Bytes} {f : Fault}
    (h : bodyCarries pool marker body = .error f) : f.IsBehindEnd := by
  have hsteady : Steady .attribute Fault.IsProper
      (Reader.u2 >>= fun n => findMark pool marker body.length n) :=
    steady_u2.bind fun n => steady_findMark pool marker body.length n
  rcases hsteady.error (run'_eq_error.1 h) with hproper | ⟨off, rfl⟩
  · exact hproper.isBehindEnd
  · intro off' hfile
    cases hfile

/-! ## Files -/

theorem steady_readSlots (n : Nat) (second : Bool) (slots : Array (Option Bytes)) :
    Steady .file Fault.IsBehindEnd (ConstantPool.readSlots n second slots) := by
  induction n generalizing second slots with
  | zero => exact steady_pure slots
  | succ n ih =>
    cases second with
    | true => exact ih false (slots.push none)
    | false =>
      rw [ConstantPool.readSlots]
      refine steady_u1.bind fun tag => ?_
      cases ConstantKind.ofTag? tag with
      | none => exact steady_throw fun off h => by cases h
      | some kind =>
        cases kind with
        | text => exact steady_u2.bind fun length => (steady_take length).bind fun _ => ih false _
        | fixed width => exact (steady_skip width).bind fun _ => ih false _
        | twoSlots => exact (steady_skip 8).bind fun _ => ih true _

theorem steady_readPool : Steady .file Fault.IsBehindEnd ConstantPool.read :=
  steady_u2.bind fun count => (steady_readSlots (count - 1) false #[none]).bind fun slots =>
    steady_pure (ConstantPool.mk slots)

theorem steady_skipAttributes : Steady .file Fault.IsBehindEnd skipAttributes :=
  steady_u2.bind fun count => steady_times
    ((steady_skip 2).bind fun _ => steady_u4.bind fun length => steady_skip length) count

theorem steady_skipField : Steady .file Fault.IsBehindEnd skipField :=
  (steady_skip 6).bind fun _ => steady_skipAttributes

/-- What follows the magic number. -/
theorem steady_behindMagic : Steady .file Fault.IsBehindEnd (do
    Reader.skip 4
    let pool ← ConstantPool.read
    Reader.skip 6
    let interfaces ← Reader.u2
    Reader.skip (interfaces * 2)
    let fields ← Reader.u2
    Reader.times fields skipField
    let methods ← Reader.u2
    pure (pool, methods)) :=
  (steady_skip 4).bind fun _ => steady_readPool.bind fun pool => (steady_skip 6).bind fun _ =>
    steady_u2.bind fun interfaces => (steady_skip (interfaces * 2)).bind fun _ =>
      steady_u2.bind fun fields => (steady_times steady_skipField fields).bind fun _ =>
        steady_u2.bind fun methods => steady_pure (pool, methods)

theorem steady_readHead : Steady .file Fault.IsBehindEnd readHead := by
  refine steady_u4.bind fun magic => ?_
  split
  · refine (steady_throw ?_).bind fun _ => steady_behindMagic
    intro off h
    cases h
  · exact steady_behindMagic

theorem steady_readAttributes (pool : ConstantPool) (marker : Bytes) (n : Nat) (carries : Bool) :
    Steady .file Fault.IsBehindEnd (readAttributes pool marker n carries) := by
  induction n generalizing carries with
  | zero => exact steady_pure carries
  | succ n ih =>
    rw [readAttributes]
    have hname : ∀ i f, pool.text i = .error f → f.IsBehindEnd := fun i f h =>
      (isProper_of_text h).isBehindEnd
    exact steady_u2.bind fun i => (steady_lift (hname i)).bind fun name => steady_u4.bind fun length =>
      (steady_take length).bind fun body =>
        ((steady_lift fun _ => bodyCarries_error).bind fun found => ih found).ite (ih carries)

theorem steady_readMethod (pool : ConstantPool) (marker : Bytes) :
    Steady .file Fault.IsBehindEnd (readMethod pool marker) := by
  have hname : ∀ i f, pool.text i = .error f → f.IsBehindEnd := fun i f h =>
    (isProper_of_text h).isBehindEnd
  exact (steady_skip 2).bind fun _ => steady_u2.bind fun i => (steady_lift (hname i)).bind fun name =>
    (steady_skip 2).bind fun _ => steady_u2.bind fun n =>
      (steady_readAttributes pool marker n false).bind fun carries => steady_pure (name, carries)

theorem steady_findMarked (pool : ConstantPool) (marker : Bytes) (n : Nat) :
    Steady .file Fault.IsBehindEnd (findMarked pool marker n) := by
  induction n with
  | zero => exact steady_pure none
  | succ n ih =>
    rw [findMarked]
    exact (steady_readMethod pool marker).bind fun x => (steady_pure (some x.1)).ite ih

/-! ## The answer -/

/-- The reader behind `scan`. -/
def scanner (marker : String) : Reader (Option String) := do
  let (pool, methodCount) ← readHead
  let name ← findMarked pool (Text.encode marker) methodCount
  pure (name.map Text.decodeLossy)

theorem steady_scanner (marker : String) : Steady .file Fault.IsBehindEnd (scanner marker) :=
  steady_readHead.bind fun x => (steady_findMarked x.1 (Text.encode marker) x.2).bind fun name =>
    steady_pure (name.map Text.decodeLossy)

theorem scan_eq (marker : String) (bytes : Bytes) :
    scan marker bytes = (scanner marker).run' (Cursor.start .file bytes) := by
  rw [scan, read, bind_assoc, scanner, run'_bind]
  refine congrArg (readHead (Cursor.start .file bytes) >>= ·) (funext fun x => ?_)
  exact (run'_map (findMarked x.1.1 (Text.encode marker) x.1.2)
    (fun name => name.map Text.decodeLossy) x.2).symm

theorem scan_of_ok {marker : String} {bytes : Bytes} {x : Option String} {c : Cursor}
    (h : scanner marker ⟨.file, 0, bytes⟩ = .ok (x, c)) : scan marker bytes = .ok x := by
  rw [scan_eq]
  exact run'_eq_ok.2 ⟨c, h⟩

theorem scan_of_error {marker : String} {bytes : Bytes} {f : Fault}
    (h : scanner marker ⟨.file, 0, bytes⟩ = .error f) : scan marker bytes = .error f := by
  rw [scan_eq]
  exact run'_eq_error.2 h

theorem scan_of_runsOut {marker : String} {bytes : Bytes}
    (h : RunsOut .file (scanner marker) 0 bytes) :
    ∃ off, off ≤ bytes.length ∧ scan marker bytes = .error (.truncated .file off) := by
  obtain ⟨off, hoff, herror⟩ := h
  exact ⟨off, by omega, scan_of_error herror⟩

/-- Bytes that decide the answer decide it for every file that begins with them, and it is not that
    the file is cut off. -/
theorem scan_of_decides {marker : String} {w : Bytes}
    (h : Decides .file Fault.IsBehindEnd (scanner marker) 0 w) :
    ∃ answer, (∀ off, answer ≠ .error (.truncated .file off)) ∧
      ∀ s, scan marker (w ++ s) = answer := by
  rcases h with ⟨x, hx⟩ | ⟨f, hF, hf⟩
  · refine ⟨.ok x, ?_, fun s => scan_of_ok (hx s)⟩
    intro off h
    cases h
  · refine ⟨.error f, ?_, fun s => scan_of_error (hf s)⟩
    intro off h
    exact hF off (Except.error.inj h)

/-- Either a file is cut off, and so is everything that it begins with; or a number of its bytes
    decides the answer, which is the same for every file that begins with them, and all that is
    shorter is cut off. -/
theorem scan_threshold (marker : String) (bytes : Bytes) :
    ((∃ off, scan marker bytes = .error (.truncated .file off)) ∧
      ∀ k ≤ bytes.length, ∃ off ≤ k, scan marker (bytes.take k) = .error (.truncated .file off)) ∨
    ∃ n ≤ bytes.length, (∀ off, scan marker bytes ≠ .error (.truncated .file off)) ∧
      (∀ bytes' : Bytes, bytes'.take n = bytes.take n → scan marker bytes' = scan marker bytes) ∧
      ∀ k < n, ∃ off ≤ k, scan marker (bytes.take k) = .error (.truncated .file off) := by
  rcases steady_scanner marker 0 bytes with hout | ⟨w, ⟨t, rfl⟩, hdecides, hbefore⟩
  · have hcut : ∀ k ≤ bytes.length,
        ∃ off ≤ k, scan marker (bytes.take k) = .error (.truncated .file off) := by
      intro k hk
      obtain ⟨off, hoff, herror⟩ := scan_of_runsOut (hout _ (List.take_prefix k bytes))
      rw [List.length_take_of_le hk] at hoff
      exact ⟨off, hoff, herror⟩
    refine .inl ⟨?_, hcut⟩
    obtain ⟨off, -, herror⟩ := hcut bytes.length (Nat.le_refl _)
    rw [List.take_length] at herror
    exact ⟨off, herror⟩
  · obtain ⟨answer, hproper, hanswer⟩ := scan_of_decides hdecides
    refine .inr ⟨w.length, by simp, ?_, ?_, ?_⟩
    · intro off
      rw [hanswer t]
      exact hproper off
    · intro bytes' hbytes'
      rw [List.take_left] at hbytes'
      rw [hanswer t, ← List.take_append_drop w.length bytes', hbytes', hanswer]
    · intro k hk
      have htake : (w ++ t).take k = w.take k := List.take_append_of_le_length (by omega)
      have hlen : (w.take k).length = k := List.length_take_of_le (by omega)
      obtain ⟨off, hoff, herror⟩ := scan_of_runsOut (hbefore _ (List.take_prefix k w) (by omega))
      rw [htake]
      exact ⟨off, by omega, herror⟩

end SourceRecovery.ClassFile
