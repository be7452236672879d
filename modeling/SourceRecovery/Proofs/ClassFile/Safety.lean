import SourceRecovery.Proofs.ClassFile.ElementValues
import SourceRecovery.Proofs.ClassFile.Skipped
import SourceRecovery.Proofs.ClassFile.Slots

/-!
# Scanning safely

The rest of the readers of a class file under guard, and the whole scan. Whatever the bytes are, the
scan ends with the answer of `scan`, at a place in the file or in the body of an attribute, and never in
a trap.

* `Guarded.scan`: every loop goes forward round by round, and element values may be nested as deep as
  one likes.
* `mirrors_skipValue`: the bytes that are left bound the depth of an element value.
* `scan_guarded`: what has been said above, for all bytes and every marker.
-/

namespace SourceRecovery.ClassFile

/-! ## The readers under guard -/

namespace Guarded

/-- Passes over one element value that is nested less than `depth` deep. -/
def skipValue : Nat → Guarded Unit
  | 0 => stop .tooDeep
  | depth + 1 => do
    let tag ← u1
    match ElementKind.ofTag? tag with
    | some .constant => skip 2
    | some .enumConstant => skip 4
    | some .nested => do
      skip 2
      let pairs ← u2
      times pairs do
        skip 2
        skipValue depth
    | some .array => do
      let values ← u2
      times values (skipValue depth)
    | none => fail (.unknownElementTag tag)

/-- Passes over a count and as many pairs of an element name and an element value. -/
def skipPairs (depth : Nat) : Guarded Unit := do
  let pairs ← u2
  times pairs do
    skip 2
    skipValue depth

/-- Reads one annotation and says whether it has the type `marker`. Of one that has it, only the type
    is read. -/
def readMark (pool : ConstantPool) (marker : Bytes) (depth : Nat) : Guarded Bool := do
  let type ← ofExcept (pool.text (← u2))
  if type == marker then
    pure true
  else do
    skipPairs depth
    pure false

/-- Whether one of the next `n` annotations has the type `marker`. -/
def findMark (pool : ConstantPool) (marker : Bytes) (depth : Nat) : Nat → Guarded Bool
  | 0 => pure false
  | n + 1 => do
    let found ← round (readMark pool marker depth)
    if found then pure true else findMark pool marker depth n

/-- Reads one attribute of a method, and looks into it if it can say whether the method carries the
    marker. -/
def readAttribute (pool : ConstantPool) (marker : Bytes) (depth : Nat) (carries : Bool) :
    Guarded Bool := do
  let name ← ofExcept (pool.text (← u2))
  let length ← u4
  let body ← take length
  if !carries && listsMarks name then
    inBody body do
      let count ← u2
      findMark pool marker depth count
  else
    pure carries

/-- Reads the next `n` attributes of a method and says whether it carries the marker. -/
def readAttributes (pool : ConstantPool) (marker : Bytes) (depth : Nat) : Nat → Bool → Guarded Bool
  | 0, carries => pure carries
  | n + 1, carries => do
    let found ← round (readAttribute pool marker depth carries)
    readAttributes pool marker depth n found

/-- Reads one method: its name, and whether it carries the marker. -/
def readMethod (pool : ConstantPool) (marker : Bytes) (depth : Nat) : Guarded (Bytes × Bool) := do
  skip 2
  let name ← ofExcept (pool.text (← u2))
  skip 2
  let attributes ← u2
  let carries ← readAttributes pool marker depth attributes false
  pure (name, carries)

/-- The name of the first of the next `n` methods that carries the marker. -/
def findMarked (pool : ConstantPool) (marker : Bytes) (depth : Nat) : Nat → Guarded (Option Bytes)
  | 0 => pure none
  | n + 1 => do
    let (name, carries) ← round (readMethod pool marker depth)
    if carries then pure (some name) else findMarked pool marker depth n

/-- Passes over a count and as many attributes. -/
def skipAttributes : Guarded Unit := do
  let count ← u2
  times count do
    skip 2
    let length ← u4
    skip length

/-- Reads what stands in front of the methods, and their count. -/
def readHead : Guarded (ConstantPool × Nat) := do
  let magic ← u4
  if magic ≠ magicNumber then
    fail (.badMagic magic)
  else do
    skip 4
    let (pool, _) ← readPool
    skip 6
    let interfaces ← u2
    skip (← size (interfaces * 2))
    let fields ← u2
    times fields do
      skip 6
      skipAttributes
    let methods ← u2
    pure (pool, methods)

/-- Reads a class file and looks for the first method that carries a marker. Element values may be
    nested less than `depth` deep. -/
def scan (marker : String) (depth : Nat) : Guarded (Option String) := do
  let (pool, methodCount) ← readHead
  let name ← findMarked pool (Text.encode marker) depth methodCount
  pure (name.map Text.decodeLossy)

end Guarded

variable {range marker : Bytes} {k depth : Nat} {pool pool' : ConstantPool}

/-! ## Annotations -/

/-- The bytes that are left bound the depth of an element value, as each level takes a byte of its
    own. -/
theorem mirrors_skipValue {depth' : Nat} (h : k ≤ depth) (h' : k ≤ depth') :
    Mirrors range k 1 Eq (Guarded.skipValue depth) (skipValue depth') := by
  induction k generalizing depth depth' with
  | zero =>
    intro p _ _ hleft
    exact absurd hleft (Nat.not_lt_zero _)
  | succ k ih =>
    obtain ⟨depth, rfl⟩ : ∃ d, depth = d + 1 := Nat.exists_eq_succ_of_ne_zero (by omega)
    obtain ⟨depth', rfl⟩ : ∃ d, depth' = d + 1 := Nat.exists_eq_succ_of_ne_zero (by omega)
    have hvalue := ih (Nat.le_of_succ_le_succ h) (Nat.le_of_succ_le_succ h')
    unfold Guarded.skipValue skipValue
    show Mirrors range (k + 1) (1 + 0) Eq _ _
    refine mirrors_u1.bind fun tag tag' htag => ?_
    obtain rfl := htag
    rw [Nat.add_sub_cancel]
    cases ElementKind.ofTag? tag with
    | none => exact mirrors_fail fun e off h => by cases h
    | some kind =>
      cases kind with
      | constant => exact (mirrors_skip (by decide)).uncounted
      | enumConstant => exact (mirrors_skip (by decide)).uncounted
      | nested =>
        refine ((mirrors_skip (by decide)).seq fun _ _ _ => ?_).uncounted
        refine (mirrors_u2.seq fun pairs pairs' hpairs => ?_).uncounted
        obtain ⟨rfl, -⟩ := hpairs
        exact mirrors_times ((mirrors_skip (by decide)).seq fun _ _ _ => hvalue.uncounted)
          Nat.two_pos pairs
      | array =>
        refine (mirrors_u2.seq fun values values' hvalues => ?_).uncounted
        obtain ⟨rfl, -⟩ := hvalues
        exact mirrors_times hvalue Nat.one_pos values

/-- An array of an annotation is nested too deep for one level. -/
example : Guarded.skipValue 1 ⟨.attribute, nestedArray.encode, 0⟩ = .trap .tooDeep := rfl

theorem mirrors_skipPairs {depth' : Nat} (h : k ≤ depth) (h' : k ≤ depth') :
    Mirrors range k 2 Eq (Guarded.skipPairs depth) (skipPairs depth') := by
  refine mirrors_u2.seq fun pairs pairs' hpairs => ?_
  obtain ⟨rfl, -⟩ := hpairs
  exact mirrors_times
    ((mirrors_skip (by decide)).seq fun _ _ _ => (mirrors_skipValue h h').uncounted) Nat.two_pos pairs

theorem mirrors_text (hpool : ∀ i, pool'.text i = pool.text i) (i : Nat) :
    Mirrors range k 0 Eq (Guarded.ofExcept (pool'.text i)) (liftM (pool.text i)) := by
  rw [hpool i]
  exact mirrors_ofExcept fun _ => isProper_of_text

/-- Reads one annotation and says whether it has the type `marker`. -/
def readMark (pool : ConstantPool) (marker : Bytes) (depth : Nat) : Reader Bool := do
  let type ← pool.text (← Reader.u2)
  if type == marker then
    pure true
  else do
    skipPairs depth
    pure false

theorem findMark_succ (n : Nat) : findMark pool marker depth (n + 1) =
    readMark pool marker depth >>= fun found =>
      if found then pure true else findMark pool marker depth n := by
  simp only [findMark, readMark, bind_assoc]
  refine congrArg (Reader.u2 >>= ·) (funext fun i => ?_)
  refine congrArg (liftM (pool.text i) >>= ·) (funext fun type => ?_)
  split
  · rfl
  · rw [bind_assoc]
    rfl

theorem mirrors_readMark (hpool : ∀ i, pool'.text i = pool.text i) {depth' : Nat} (h : k ≤ depth)
    (h' : k ≤ depth') :
    Mirrors range k 2 Eq (Guarded.readMark pool' marker depth) (readMark pool marker depth') := by
  refine mirrors_u2.seq fun i i' hi => ?_
  obtain ⟨rfl, -⟩ := hi
  refine (mirrors_text hpool i).seq fun type type' htype => ?_
  obtain rfl := htype
  apply Mirrors.ite
  · exact mirrors_pure rfl
  · exact ((mirrors_skipPairs h h').seq fun _ _ _ => mirrors_pure rfl).uncounted

theorem mirrors_findMark (hpool : ∀ i, pool'.text i = pool.text i) {depth' : Nat} (h : k ≤ depth)
    (h' : k ≤ depth') (n : Nat) :
    Mirrors range k 0 Eq (Guarded.findMark pool' marker depth n)
      (findMark pool marker depth' n) := by
  induction n with
  | zero => exact mirrors_pure rfl
  | succ n ih =>
    rw [findMark_succ]
    refine ((mirrors_round (mirrors_readMark hpool h h') Nat.two_pos).seq
      fun found found' hfound => ?_).uncounted
    obtain rfl := hfound
    exact (mirrors_pure rfl).ite ih

/-! ## Methods -/

/-- The count in front of the annotations leaves fewer bytes than the body has. -/
theorem mirrors_search (hpool : ∀ i, pool'.text i = pool.text i) {body : Bytes}
    (h : body.length < depth) :
    Mirrors body (body.length + 1) (2 + 0) Eq
      (Guarded.u2 >>= fun count => Guarded.findMark pool' marker depth count)
      (Reader.u2 >>= fun count => findMark pool marker body.length count) := by
  refine mirrors_u2.bind fun count count' hcount => ?_
  obtain ⟨rfl, -⟩ := hcount
  exact mirrors_findMark hpool (by omega) (by omega) count

/-- Every attribute is shorter than the file, so what is deep enough for the file is deep enough for its
    body. -/
theorem mirrors_readAttribute (hpool : ∀ i, pool'.text i = pool.text i) (h : range.length < depth)
    (carries : Bool) :
    Mirrors range k 2 Eq (Guarded.readAttribute pool' marker depth carries)
      (readAttribute pool marker carries) := by
  refine mirrors_u2.seq fun i i' hi => ?_
  obtain ⟨rfl, -⟩ := hi
  refine (mirrors_text hpool i).seq fun name name' hname => ?_
  obtain rfl := hname
  refine (mirrors_u4.seq fun length length' hlength => ?_).uncounted
  obtain ⟨rfl, hlength⟩ := hlength
  refine ((mirrors_take hlength).seq fun body body' hbody => ?_).uncounted
  obtain ⟨rfl, -, hbody⟩ := hbody
  have hshort : body.length < depth := Nat.lt_of_le_of_lt hbody.length_le h
  apply Mirrors.ite
  · exact mirrors_inBody hbody (mirrors_search hpool hshort)
  · exact mirrors_pure rfl

theorem mirrors_readAttributes (hpool : ∀ i, pool'.text i = pool.text i) (h : range.length < depth)
    (n : Nat) (carries : Bool) :
    Mirrors range k 0 Eq (Guarded.readAttributes pool' marker depth n carries)
      (readAttributes pool marker n carries) := by
  induction n generalizing carries with
  | zero => exact mirrors_pure rfl
  | succ n ih =>
    rw [readAttributes_succ]
    refine ((mirrors_round (mirrors_readAttribute hpool h carries) Nat.two_pos).seq
      fun found found' hfound => ?_).uncounted
    obtain rfl := hfound
    exact ih found

theorem mirrors_readMethod (hpool : ∀ i, pool'.text i = pool.text i) (h : range.length < depth) :
    Mirrors range k 2 Eq (Guarded.readMethod pool' marker depth) (readMethod pool marker) := by
  refine (mirrors_skip (by decide)).seq fun _ _ _ => ?_
  refine (mirrors_u2.seq fun i i' hi => ?_).uncounted
  obtain ⟨rfl, -⟩ := hi
  refine (mirrors_text hpool i).seq fun name name' hname => ?_
  obtain rfl := hname
  refine ((mirrors_skip (by decide)).seq fun _ _ _ => ?_).uncounted
  refine (mirrors_u2.seq fun n n' hn => ?_).uncounted
  obtain ⟨rfl, -⟩ := hn
  refine (mirrors_readAttributes hpool h n false).seq fun carries carries' hcarries => ?_
  obtain rfl := hcarries
  exact mirrors_pure rfl

theorem mirrors_findMarked (hpool : ∀ i, pool'.text i = pool.text i) (h : range.length < depth)
    (n : Nat) :
    Mirrors range k 0 Eq (Guarded.findMarked pool' marker depth n) (findMarked pool marker n) := by
  induction n with
  | zero => exact mirrors_pure rfl
  | succ n ih =>
    unfold Guarded.findMarked findMarked
    refine ((mirrors_round (mirrors_readMethod hpool h) Nat.two_pos).seq
      fun method method' hmethod => ?_).uncounted
    obtain rfl := hmethod
    exact (mirrors_pure rfl).ite ih

/-! ## Files -/

theorem mirrors_skipAttributes : Mirrors range k 2 Eq Guarded.skipAttributes skipAttributes := by
  refine mirrors_u2.seq fun count count' hcount => ?_
  obtain ⟨rfl, -⟩ := hcount
  refine mirrors_times ((mirrors_skip (by decide)).seq fun _ _ _ => ?_) Nat.two_pos count
  refine (mirrors_u4.seq fun length length' hlength => ?_).uncounted
  obtain ⟨rfl, hlength⟩ := hlength
  exact (mirrors_skip hlength).uncounted

theorem mirrors_readHead : Mirrors range k 4
    (fun x y => (∀ i, x.1.text i = y.1.text i) ∧ x.2 = y.2) Guarded.readHead readHead := by
  refine mirrors_u4.seq fun magic magic' hmagic => ?_
  obtain ⟨rfl, -⟩ := hmagic
  apply Mirrors.ite
  · exact mirrors_fail fun e off h => by cases h
  · refine ((mirrors_skip (by decide)).seq fun _ _ _ => ?_).uncounted
    refine (mirrors_readPool.seq fun pool pool' hpool => ?_).uncounted
    refine ((mirrors_skip (by decide)).seq fun _ _ _ => ?_).uncounted
    refine (mirrors_u2.seq fun interfaces interfaces' hinterfaces => ?_).uncounted
    obtain ⟨rfl, hinterfaces⟩ := hinterfaces
    have hlt : interfaces * 2 < 4294967296 := by omega
    have hsize : interfaces * 2 < sizeLimit := by
      unfold sizeLimit
      omega
    rw [Guarded.size_bind hsize]
    refine ((mirrors_skip hlt).seq fun _ _ _ => ?_).uncounted
    refine (mirrors_u2.seq fun fields fields' hfields => ?_).uncounted
    obtain ⟨rfl, -⟩ := hfields
    have hfield : Mirrors range k 6 Eq (Guarded.skip 6 >>= fun _ => Guarded.skipAttributes) skipField :=
      (mirrors_skip (by decide)).seq fun _ _ _ => mirrors_skipAttributes.uncounted
    refine (mirrors_times hfield (by decide) fields).seq fun _ _ _ => ?_
    refine (mirrors_u2.seq fun methods methods' hmethods => ?_).uncounted
    obtain ⟨rfl, -⟩ := hmethods
    exact mirrors_pure ⟨hpool, rfl⟩

theorem mirrors_scan (marker : String) (h : range.length < depth) :
    Mirrors range k 4 Eq (Guarded.scan marker depth) (scanner marker) := by
  refine mirrors_readHead.seq fun x y hxy => ?_
  obtain ⟨pool', count⟩ := x
  obtain ⟨pool, count'⟩ := y
  obtain ⟨hpool, rfl⟩ := hxy
  refine (mirrors_findMarked hpool h count).seq fun name name' hname => ?_
  obtain rfl := hname
  exact mirrors_pure rfl

/-- Every scan ends with an answer, and the same one however deep element values may be nested, as long
    as that is deeper than there are bytes. Under guard nothing of what must not happen does: no round of
    a loop takes no byte, the position stays in its range, slices and indices are in bounds, and no
    length has more than 64 bits. Where the bytes are said to have ended, the offset is a place in the
    file, or in the body of an attribute that is a part of it. -/
theorem scan_guarded (marker : String) {bytes : Bytes} {depth : Nat}
    (hlen : bytes.length < sliceLimit) (hdepth : bytes.length < depth) :
    (∃ name pos, pos ≤ bytes.length ∧
      Guarded.scan marker depth ⟨.file, bytes, 0⟩ = .value name ⟨.file, bytes, pos⟩ ∧
      scan marker bytes = .ok name) ∨
    ∃ f place, Guarded.scan marker depth ⟨.file, bytes, 0⟩ = .fault f place ∧
      scan marker bytes = .error f ∧ place.pos ≤ place.bytes.length ∧
      (place.extent = .file ∧ place.bytes = bytes ∨
        place.extent = .attribute ∧ place.bytes <:+: bytes) ∧
      ∀ e off, f = .truncated e off → e = place.extent ∧ off = place.pos := by
  have hleft : (Place.mk .file bytes 0).left < bytes.length + 1 := Nat.lt_succ_self _
  have hagrees := mirrors_scan marker hdepth ⟨.file, bytes, 0⟩ rfl ⟨Nat.zero_le _, hlen⟩ hleft
  generalize hm : Guarded.scan marker depth ⟨.file, bytes, 0⟩ = o at hagrees
  generalize hr : scanner marker (Place.mk .file bytes 0).cursor = a at hagrees
  cases hagrees with
  | @value name y l hname hl hle =>
    subst hname
    refine .inl ⟨name, l, hle, ?_, scan_of_ok hr⟩
    rw [Place.moved, Nat.zero_add]
  | @fault f place hf =>
    exact .inr ⟨f, place, rfl, scan_of_error hr, hf.pos_le, hf.part, hf.offset⟩

/-- The specimen is scanned up to its second method, and its first seven bytes up to the minor
    version. -/
theorem scan_guarded_specimen :
    specimen.encode.length < sliceLimit ∧ specimen.encode.length < 200 ∧
    (∃ pos ≤ specimen.encode.length, Guarded.scan "T" 200 ⟨.file, specimen.encode, 0⟩ =
      .value (some "T") ⟨.file, specimen.encode, pos⟩) ∧
    (specimen.encode.take 7).length < 200 ∧
    ∃ place, Guarded.scan "T" 200 ⟨.file, specimen.encode.take 7, 0⟩ =
        .fault (.truncated .file 4) place ∧
      place.extent = .file ∧ place.pos = 4 := by
  have hlength : specimen.encode.length = 135 := by rfl
  have hcutLength : (specimen.encode.take 7).length = 7 := by rfl
  have hcutScan : scan "T" (specimen.encode.take 7) = .error (.truncated .file 4) := by rfl
  have hlen : specimen.encode.length < sliceLimit := by
    unfold sliceLimit
    omega
  have hdepth : specimen.encode.length < 200 := by omega
  have hcutLen : (specimen.encode.take 7).length < sliceLimit := by
    unfold sliceLimit
    omega
  have hcutDepth : (specimen.encode.take 7).length < 200 := by omega
  refine ⟨hlen, hdepth, ?_, hcutDepth, ?_⟩
  · rcases scan_guarded "T" hlen hdepth with
      ⟨name, pos, hpos, hguarded, hscan⟩ | ⟨f, place, -, hscan, -⟩
    · rw [scan_specimen] at hscan
      obtain rfl := Except.ok.inj hscan
      exact ⟨pos, hpos, hguarded⟩
    · rw [scan_specimen] at hscan
      cases hscan
  · rcases scan_guarded "T" hcutLen hcutDepth with
      ⟨name, pos, -, -, hscan⟩ | ⟨f, place, hguarded, hscan, -, -, hoffset⟩
    · rw [hcutScan] at hscan
      cases hscan
    · rw [hcutScan] at hscan
      obtain rfl := Except.error.inj hscan
      obtain ⟨hextent, hpos⟩ := hoffset .file 4 rfl
      exact ⟨place, hguarded, hextent.symm, hpos.symm⟩

end SourceRecovery.ClassFile
