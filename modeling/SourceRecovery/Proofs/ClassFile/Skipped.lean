import SourceRecovery.Proofs.ClassFile.Movable
import SourceRecovery.Proofs.ClassFile.Scan

/-!
# Attributes that are passed over

The body of an attribute of a field, and of a method's attribute that lists no annotations, does not
count: with other bytes in its place, of any number, a file is answered in the same way.

* `Format.Front`: a file that is read up to an attribute.
* `Overlooks`: a reader goes on in the same way behind either of two attributes.
* `overlooks_readHead`, `answersAlike_findMarked`: so do the readers of a class file.
* `scan_replaceBody`: the answer for the file with another body is the same, and where it is that the
  file has ended, the place is moved by the difference in length.
-/

namespace SourceRecovery.ClassFile

open Format

/-! ## Files up to an attribute -/

/-- A field or a method up to one of its attributes: fewer attributes than it announces. -/
structure Format.Begun where
  flags : UInt16
  name : UInt16
  type : UInt16
  count : UInt16
  attributes : List Attribute
  length_lt : attributes.length < count.toNat

def Format.Begun.encode (m : Begun) : Bytes :=
  word m.flags.toNat ++ (word m.name.toNat ++ (word m.type.toNat ++ (word m.count.toNat ++
    m.attributes.flatMap Attribute.encode)))

/-- A file up to an attribute of one of its fields. -/
structure Format.FieldFront where
  minor : UInt16
  major : UInt16
  pool : Pool
  flags : UInt16
  this : UInt16
  super : UInt16
  interfaces : Counted UInt16
  count : UInt16
  fields : List Field
  length_lt : fields.length < count.toNat
  field : Begun

def Format.FieldFront.encode (f : FieldFront) : Bytes :=
  signature ++ (word f.minor.toNat ++ word f.major.toNat ++ (f.pool.encode ++
    (word f.flags.toNat ++ word f.this.toNat ++ word f.super.toNat ++
      (word f.interfaces.items.length ++ (f.interfaces.items.flatMap (fun i => word i.toNat) ++
        (word f.count.toNat ++ (f.fields.flatMap (Member.encode Attribute.encode) ++
          f.field.encode)))))))

/-- A file up to an attribute of one of its methods. Of the methods in front only the frames are
    told, so they may or may not have names and carry a marker. -/
structure Format.MethodFront where
  head : Head
  methods : List (Member Attribute)
  length_lt : methods.length < head.methodCount.toNat
  method : Begun

def Format.MethodFront.encode (f : MethodFront) : Bytes :=
  f.head.encode ++ (f.methods.flatMap (Member.encode Attribute.encode) ++ f.method.encode)

/-- A file up to an attribute. -/
inductive Format.Front where
  | inField (front : FieldFront)
  | inMethod (front : MethodFront)

def Format.Front.encode : Front → Bytes
  | .inField front => front.encode
  | .inMethod front => front.encode

/-- Whether an attribute in this place is of no interest: it belongs to a field, or its name is a text
    that is not the name of a list of annotations. -/
def Format.Front.Skips (a : Attribute) : Front → Prop
  | .inField _ => True
  | .inMethod front => ∃ name, front.head.pool.text? a.name = some name ∧ ¬ ListsMarks name

/-! ## Readers behind bytes that decide -/

variable {α β : Type} {e : Extent} {F : Fault → Prop} {o : Nat} {u v : Bytes}
  {r : Reader α} {k : α → Reader β}

theorem Reads.run {G : Bytes → α → Prop} {x : α} (hr : Reads r G) (hG : G u x) (s : Bytes) :
    r ⟨e, o, u ++ s⟩ = .ok (x, ⟨e, o + u.length, s⟩) :=
  (hr e o (u ++ s) x ⟨e, o + u.length, s⟩).2 ⟨u, s, hG, rfl, rfl⟩

theorem Decides.bind (hr : Decides e F r o u) (hk : ∀ x, Decides e F (k x) (o + u.length) v) :
    Decides e F (r >>= k) o (u ++ v) := by
  rcases hr with ⟨x, hx⟩ | ⟨f, hF, hf⟩
  · exact Decides.behind hx (hk x)
  · refine .inr ⟨f, hF, fun s => ?_⟩
    rw [List.append_assoc]
    exact bind_of_error (hf (v ++ s))

theorem decides_pure (x : α) : Decides e F (pure x) o [] :=
  .inl ⟨x, fun _ => rfl⟩

theorem decides_lift {a : Except Fault α} (hF : ∀ f, a = .error f → F f) :
    Decides e F (liftM a : Reader α) o [] := by
  cases a with
  | ok x => exact .inl ⟨x, fun _ => rfl⟩
  | error f => exact .inr ⟨f, hF f rfl, fun _ => rfl⟩

theorem Decides.ite {s : Reader α} {b : Bool} (hr : Decides e F r o u) (hs : Decides e F s o u) :
    Decides e F (if b then r else s) o u := by
  cases b
  · exact hs
  · exact hr

/-! ## Two files -/

variable {a b : Attribute}

/-- Whether a reader gives the same answer for two files that differ in the attribute behind `front`,
    but for the places behind that attribute, which are counted from its end. -/
def Overlooks (a b : Attribute) (r : Reader α) (o : Nat) (front : Bytes) : Prop :=
  ∀ back, ∃ answer,
    r ⟨.file, o, front ++ (a.encode ++ back)⟩ =
      movedAnswer (o + (front ++ a.encode).length) answer ∧
    r ⟨.file, o, front ++ (b.encode ++ back)⟩ =
      movedAnswer (o + (front ++ b.encode).length) answer

/-- Behind the attribute, movable readers go on in the same way. -/
theorem Overlooks.bind (hr : Overlooks a b r o u) (hk : ∀ x, Movable (k x)) :
    Overlooks a b (r >>= k) o u := by
  intro back
  obtain ⟨answer, ha, hb⟩ := hr back
  cases answer with
  | error f => exact ⟨.error f, bind_of_error ha, bind_of_error hb⟩
  | ok p =>
    obtain ⟨x, c⟩ := p
    refine ⟨k x c, ?_, ?_⟩
    · rw [bind_of_ok ha]
      exact hk x _ c
    · rw [bind_of_ok hb]
      exact hk x _ c

theorem length_front (o : Nat) (u v w : Bytes) :
    o + u.length + (v ++ w).length = o + (u ++ v ++ w).length := by
  simp only [List.length_append]
  omega

theorem Overlooks.behind {x : α}
    (hr : ∀ s, r ⟨.file, o, u ++ s⟩ = .ok (x, ⟨.file, o + u.length, s⟩))
    (hk : Overlooks a b (k x) (o + u.length) v) : Overlooks a b (r >>= k) o (u ++ v) := by
  intro back
  obtain ⟨answer, ha, hb⟩ := hk back
  refine ⟨answer, ?_, ?_⟩
  · rw [List.append_assoc, bind_of_ok (hr _), ha, length_front]
  · rw [List.append_assoc, bind_of_ok (hr _), hb, length_front]

/-- In front of the attribute, a reader goes on or fails, whatever follows. -/
theorem Overlooks.behind_decided (hr : Decides .file Fault.IsBehindEnd r o u)
    (hk : ∀ x, Overlooks a b (k x) (o + u.length) v) : Overlooks a b (r >>= k) o (u ++ v) := by
  rcases hr with ⟨x, hx⟩ | ⟨f, hF, hf⟩
  · exact Overlooks.behind hx (hk x)
  · intro back
    refine ⟨.error f, ?_, ?_⟩
    · rw [List.append_assoc, bind_of_error (hf _), movedAnswer, hF.moved_eq]
    · rw [List.append_assoc, bind_of_error (hf _), movedAnswer, hF.moved_eq]

/-- A reader that goes on behind either attribute as the same movable reader. -/
theorem overlooks_of_movable {s : Reader α} (hs : Movable s)
    (ha : ∀ back, r ⟨.file, o, a.encode ++ back⟩ = s ⟨.file, o + a.encode.length, back⟩)
    (hb : ∀ back, r ⟨.file, o, b.encode ++ back⟩ = s ⟨.file, o + b.encode.length, back⟩) :
    Overlooks a b r o [] := by
  intro back
  refine ⟨s ⟨.file, 0, back⟩, ?_, ?_⟩
  · rw [← hs, List.nil_append, ha, Cursor.moved, Nat.zero_add]
    rfl
  · rw [← hs, List.nil_append, hb, Cursor.moved, Nat.zero_add]
    rfl

/-- An item that stands behind others is overlooked if it is overlooked as the first. -/
theorem overlooks_times {r : Reader Unit} {γ : Type} {each : γ → Bytes}
    (h : Reads r fun w _ => ∃ c, True ∧ w = each c) (hmovable : Movable r)
    (hone : ∀ o, Overlooks a b r o v) {l : List γ} {n : Nat} (hlt : l.length < n) (o : Nat) :
    Overlooks a b (Reader.times n r) o (l.flatMap each ++ v) := by
  induction l generalizing n o with
  | nil =>
    obtain ⟨m, rfl⟩ : ∃ m, n = m + 1 := ⟨n - 1, by rw [List.length_nil] at hlt; omega⟩
    exact (hone o).bind fun _ => movable_times hmovable m
  | cons c l ih =>
    obtain ⟨m, rfl⟩ : ∃ m, n = m + 1 := ⟨n - 1, by rw [List.length_cons] at hlt; omega⟩
    rw [List.flatMap_cons, List.append_assoc]
    have hlt' : l.length < m := by simpa using hlt
    exact Overlooks.behind (x := ()) (h.run ⟨c, trivial, rfl⟩) (ih hlt' _)

/-! ## Fields -/

theorem overlooks_skipAttribute (a b : Attribute) (o : Nat) :
    Overlooks a b (do Reader.skip 2; let length ← Reader.u4; Reader.skip length) o [] :=
  overlooks_of_movable (movable_pure ())
    (fun back => reads_skipAttribute.run ⟨a, trivial, rfl⟩ back)
    (fun back => reads_skipAttribute.run ⟨b, trivial, rfl⟩ back)

theorem overlooks_skipField (a b : Attribute) (m : Begun) (o : Nat) :
    Overlooks a b skipField o m.encode := by
  have hattributes (o : Nat) : Overlooks a b (Reader.times m.count.toNat _) o
      (m.attributes.flatMap Attribute.encode ++ []) :=
    overlooks_times reads_skipAttribute movable_skipAttribute (overlooks_skipAttribute a b)
      m.length_lt o
  have hcounted (o : Nat) : Overlooks a b skipAttributes o
      (word m.count.toNat ++ (m.attributes.flatMap Attribute.encode ++ [])) :=
    Overlooks.behind (reads_u2.run ⟨m.count.toNat_lt, rfl⟩) (hattributes _)
  have hfront : m.encode = word m.flags.toNat ++ (word m.name.toNat ++ word m.type.toNat) ++
      (word m.count.toNat ++ (m.attributes.flatMap Attribute.encode ++ [])) := by
    simp [Begun.encode]
  rw [hfront]
  exact Overlooks.behind (x := ()) ((reads_skip 6).run rfl) (hcounted _)

theorem overlooks_readHead (a b : Attribute) (f : FieldFront) :
    Overlooks a b readHead 0 f.encode := by
  have hfields (o : Nat) : Overlooks a b (Reader.times f.count.toNat skipField) o
      (f.fields.flatMap (Member.encode Attribute.encode) ++ f.field.encode) :=
    overlooks_times reads_skipField movable_skipField (overlooks_skipField a b f.field) f.length_lt o
  have hinterfaces : (f.interfaces.items.flatMap fun i => word i.toNat).length =
      f.interfaces.items.length * 2 := by
    exact exists_words.1 ⟨_, rfl, rfl⟩
  have hmagic : (signature : Bytes) = doubleWord magicNumber := doubleWord_magicNumber.symm
  rw [FieldFront.encode]
  refine Overlooks.behind (x := magicNumber) (reads_u4.run ⟨by decide, hmagic⟩) ?_
  rw [if_neg (not_not_intro rfl)]
  refine Overlooks.behind (x := ()) ((reads_skip 4).run rfl) ?_
  refine Overlooks.behind (x := f.pool.table) (reads_pool.run ⟨f.pool, rfl, rfl⟩) ?_
  refine Overlooks.behind (x := ()) ((reads_skip 6).run rfl) ?_
  refine Overlooks.behind (reads_u2.run ⟨f.interfaces.length_lt, rfl⟩) ?_
  refine Overlooks.behind (x := ()) ((reads_skip _).run hinterfaces) ?_
  refine Overlooks.behind (reads_u2.run ⟨f.count.toNat_lt, rfl⟩) ?_
  exact (hfields _).bind fun _ => movable_u2.bind fun n => movable_pure (f.pool.table, n)

/-! ## Attributes of methods -/

variable {pool : ConstantPool} {marker name : Bytes}

/-- Reads one attribute of a method and says whether the marker is in it or in those before it. -/
def readAttribute (pool : ConstantPool) (marker : Bytes) (carries : Bool) : Reader Bool := do
  let name ← pool.text (← Reader.u2)
  let length ← Reader.u4
  let body ← Reader.take length
  if !carries && listsMarks name then bodyCarries pool marker body else pure carries

theorem readAttributes_succ (n : Nat) (carries : Bool) :
    readAttributes pool marker (n + 1) carries =
      readAttribute pool marker carries >>= readAttributes pool marker n := by
  simp only [readAttributes, readAttribute, bind_assoc]
  refine congrArg (Reader.u2 >>= ·) (funext fun i => ?_)
  refine congrArg (liftM (pool.text i) >>= ·) (funext fun name => ?_)
  refine congrArg (Reader.u4 >>= ·) (funext fun length => ?_)
  refine congrArg (Reader.take length >>= ·) (funext fun body => ?_)
  split
  · rfl
  · rw [pure_bind]

theorem isBehindEnd_of_text {i : Nat} {f : Fault} (h : pool.text i = .error f) : f.IsBehindEnd :=
  (isProper_of_text h).isBehindEnd

/-- Whatever follows an attribute, it is judged by its own bytes. -/
theorem decides_readAttribute (c : Attribute) (carries : Bool) (o : Nat) :
    Decides .file Fault.IsBehindEnd (readAttribute pool marker carries) o c.encode := by
  have hfront : c.encode =
      word c.name.toNat ++ ([] ++ (doubleWord c.body.length ++ (c.body ++ []))) := by
    simp [Attribute.encode]
  rw [hfront]
  refine Decides.behind (reads_u2.run ⟨c.name.toNat_lt, rfl⟩) ?_
  refine Decides.bind (decides_lift fun _ => isBehindEnd_of_text) fun name => ?_
  refine Decides.behind (reads_u4.run ⟨c.length_lt, rfl⟩) ?_
  refine Decides.behind ((reads_take _).run ⟨rfl, rfl⟩) ?_
  exact (decides_lift fun _ => bodyCarries_error).ite (decides_pure carries)

/-- An attribute that lists no annotations is framed and named, and that is all. -/
theorem readAttribute_other {c : Attribute} (hname : pool.text c.name.toNat = .ok name)
    (hother : ¬ ListsMarks name) (carries : Bool) (o : Nat) (back : Bytes) :
    readAttribute pool marker carries ⟨.file, o, c.encode ++ back⟩ =
      .ok (carries, ⟨.file, o + c.encode.length, back⟩) := by
  have hlook : ¬ (!carries && listsMarks name) = true := by
    rw [Bool.and_eq_true, listsMarks_iff]
    exact fun h => hother h.2
  refine (reads_index.bind fun i => (reads_lift (pool.text i)).bind fun name =>
    reads_u4.bind fun length => (reads_take length).bind fun body =>
      (reads_lift (bodyCarries pool marker body)).ite (reads_pure carries)).run ?_ back
  refine ⟨_, _, _, ⟨c.name, rfl, rfl⟩, ⟨name, [], _, ⟨rfl, hname⟩, ⟨_, _, _, ⟨c.length_lt, rfl⟩,
    ⟨_, c.body, [], ⟨rfl, rfl⟩, ?_, (List.append_nil _).symm⟩, rfl⟩, rfl⟩, rfl⟩
  rw [if_neg hlook]
  exact ⟨rfl, rfl⟩

theorem decides_readAttributes (as : List Attribute) (carries : Bool) (o : Nat) :
    Decides .file Fault.IsBehindEnd (readAttributes pool marker as.length carries) o
      (as.flatMap Attribute.encode) := by
  induction as generalizing carries o with
  | nil => exact decides_pure carries
  | cons c as ih =>
    rw [List.length_cons, readAttributes_succ, List.flatMap_cons]
    exact (decides_readAttribute c carries o).bind fun found => ih found _

theorem overlooks_readAttributes (ha : pool.text a.name.toNat = .ok name)
    (hb : pool.text b.name.toNat = .ok name) (hother : ¬ ListsMarks name) {as : List Attribute}
    {n : Nat} (hlt : as.length < n) (carries : Bool) (o : Nat) :
    Overlooks a b (readAttributes pool marker n carries) o (as.flatMap Attribute.encode) := by
  induction as generalizing n carries o with
  | nil =>
    obtain ⟨m, rfl⟩ : ∃ m, n = m + 1 := ⟨n - 1, by rw [List.length_nil] at hlt; omega⟩
    have hone : Overlooks a b (readAttribute pool marker carries) o [] :=
      overlooks_of_movable (movable_pure carries) (readAttribute_other ha hother carries o)
        (readAttribute_other hb hother carries o)
    rw [readAttributes_succ]
    exact hone.bind fun found => movable_readAttributes pool marker m found
  | cons c as ih =>
    obtain ⟨m, rfl⟩ : ∃ m, n = m + 1 := ⟨n - 1, by rw [List.length_cons] at hlt; omega⟩
    have hlt' : as.length < m := by simpa using hlt
    rw [readAttributes_succ, List.flatMap_cons]
    exact Overlooks.behind_decided (decides_readAttribute c carries o) fun found => ih hlt' found _

/-! ## Methods -/

/-- Whatever follows a method, it is judged by its own bytes. -/
theorem decides_readMethod (m : Member Attribute) (o : Nat) :
    Decides .file Fault.IsBehindEnd (readMethod pool marker) o (m.encode Attribute.encode) := by
  have hfront : m.encode Attribute.encode = word m.flags.toNat ++ (word m.name.toNat ++ ([] ++
      (word m.type.toNat ++ (word m.attributes.items.length ++
        (m.attributes.items.flatMap Attribute.encode ++ []))))) := by
    simp [Member.encode, Counted.encode]
  rw [hfront]
  refine Decides.behind (x := ()) ((reads_skip 2).run rfl) ?_
  refine Decides.behind (reads_u2.run ⟨m.name.toNat_lt, rfl⟩) ?_
  refine Decides.bind (decides_lift fun _ => isBehindEnd_of_text) fun name => ?_
  refine Decides.behind (x := ()) ((reads_skip 2).run rfl) ?_
  refine Decides.behind (reads_u2.run ⟨m.attributes.length_lt, rfl⟩) ?_
  exact (decides_readAttributes _ false _).bind fun carries => decides_pure (name, carries)

theorem overlooks_readMethod (ha : pool.text a.name.toNat = .ok name)
    (hb : pool.text b.name.toNat = .ok name) (hother : ¬ ListsMarks name) (m : Begun) (o : Nat) :
    Overlooks a b (readMethod pool marker) o m.encode := by
  have hfront : m.encode = word m.flags.toNat ++ (word m.name.toNat ++ ([] ++
      (word m.type.toNat ++ (word m.count.toNat ++ m.attributes.flatMap Attribute.encode)))) := by
    simp [Begun.encode]
  rw [hfront]
  refine Overlooks.behind (x := ()) ((reads_skip 2).run rfl) ?_
  refine Overlooks.behind (reads_u2.run ⟨m.name.toNat_lt, rfl⟩) ?_
  refine Overlooks.behind_decided (decides_lift fun _ => isBehindEnd_of_text) fun own => ?_
  refine Overlooks.behind (x := ()) ((reads_skip 2).run rfl) ?_
  refine Overlooks.behind (reads_u2.run ⟨m.count.toNat_lt, rfl⟩) ?_
  exact (overlooks_readAttributes ha hb hother m.length_lt false _).bind fun carries =>
    movable_pure (own, carries)

/-! ## Answers -/

/-- Whether two files that differ in the attribute behind `front` get the same answer from a reader,
    but for the places behind that attribute. Where the reader stops does not count. -/
def AnswersAlike (a b : Attribute) (r : Reader α) (o : Nat) (front : Bytes) : Prop :=
  ∀ back, ∃ answer : Except Fault α,
    r.run' ⟨.file, o, front ++ (a.encode ++ back)⟩ =
      answer.mapError (Fault.moved (o + (front ++ a.encode).length)) ∧
    r.run' ⟨.file, o, front ++ (b.encode ++ back)⟩ =
      answer.mapError (Fault.moved (o + (front ++ b.encode).length))

theorem run'_eq_of_eq {c c' : Cursor} {s : Reader α} (h : r c = s c') : r.run' c = s.run' c' := by
  show Prod.fst <$> r c = Prod.fst <$> s c'
  rw [h]

theorem run'_eq_mapError {d : Nat} {c : Cursor} {answer : Except Fault (α × Cursor)}
    (h : r c = movedAnswer d answer) :
    r.run' c = (Prod.fst <$> answer).mapError (Fault.moved d) := by
  show Prod.fst <$> r c = _
  rw [h]
  cases answer <;> rfl

theorem Overlooks.answersAlike (h : Overlooks a b r o u) : AnswersAlike a b r o u := by
  intro back
  obtain ⟨answer, ha, hb⟩ := h back
  exact ⟨Prod.fst <$> answer, run'_eq_mapError ha, run'_eq_mapError hb⟩

theorem answersAlike_pure (x : α) (o : Nat) (front : Bytes) :
    AnswersAlike a b (pure x) o front :=
  fun _ => ⟨.ok x, rfl, rfl⟩

theorem AnswersAlike.map (h : AnswersAlike a b r o u) (g : α → β) :
    AnswersAlike a b (r >>= fun x => pure (g x)) o u := by
  intro back
  obtain ⟨answer, ha, hb⟩ := h back
  refine ⟨answer >>= fun x => pure (g x), ?_, ?_⟩
  · rw [run'_map, ha]
    cases answer <;> rfl
  · rw [run'_map, hb]
    cases answer <;> rfl

theorem AnswersAlike.behind {x : α}
    (hr : ∀ s, r ⟨.file, o, u ++ s⟩ = .ok (x, ⟨.file, o + u.length, s⟩))
    (hk : AnswersAlike a b (k x) (o + u.length) v) : AnswersAlike a b (r >>= k) o (u ++ v) := by
  intro back
  obtain ⟨answer, ha, hb⟩ := hk back
  refine ⟨answer, ?_, ?_⟩
  · rw [List.append_assoc, run'_eq_of_eq (bind_of_ok (hr _)), ha, length_front]
  · rw [List.append_assoc, run'_eq_of_eq (bind_of_ok (hr _)), hb, length_front]

theorem AnswersAlike.behind_decided (hr : Decides .file Fault.IsBehindEnd r o u)
    (hk : ∀ x, AnswersAlike a b (k x) (o + u.length) v) :
    AnswersAlike a b (r >>= k) o (u ++ v) := by
  rcases hr with ⟨x, hx⟩ | ⟨f, hF, hf⟩
  · exact AnswersAlike.behind hx (hk x)
  · intro back
    refine ⟨.error f, ?_, ?_⟩
    · rw [List.append_assoc, run'_eq_error.2 (bind_of_error (hf _))]
      exact congrArg Except.error (hF.moved_eq _).symm
    · rw [List.append_assoc, run'_eq_error.2 (bind_of_error (hf _))]
      exact congrArg Except.error (hF.moved_eq _).symm

/-- Methods in front of the attribute are passed over, or one of them decides the answer. -/
theorem answersAlike_findMarked (ha : pool.text a.name.toNat = .ok name)
    (hb : pool.text b.name.toNat = .ok name) (hother : ¬ ListsMarks name) (m : Begun)
    {ms : List (Member Attribute)} {n : Nat} (hlt : ms.length < n) (o : Nat) :
    AnswersAlike a b (findMarked pool marker n) o
      (ms.flatMap (Member.encode Attribute.encode) ++ m.encode) := by
  induction ms generalizing n o with
  | nil =>
    obtain ⟨k, rfl⟩ : ∃ k, n = k + 1 := ⟨n - 1, by rw [List.length_nil] at hlt; omega⟩
    have hmethod : Overlooks a b (readMethod pool marker) o m.encode :=
      overlooks_readMethod ha hb hother m o
    rw [findMarked]
    refine (hmethod.bind fun x => ?_).answersAlike
    exact (movable_pure (some x.1)).ite (movable_findMarked pool marker k)
  | cons m' ms ih =>
    obtain ⟨k, rfl⟩ : ∃ k, n = k + 1 := ⟨n - 1, by rw [List.length_cons] at hlt; omega⟩
    have hlt' : ms.length < k := by simpa using hlt
    rw [findMarked, List.flatMap_cons, List.append_assoc]
    refine AnswersAlike.behind_decided (decides_readMethod m' o) fun x => ?_
    obtain ⟨own, carries⟩ := x
    cases carries with
    | true => exact answersAlike_pure (some own) _ _
    | false => exact ih hlt' _

theorem answersAlike_scanner {front : Front} (ha : front.Skips a) (hb : b.name = a.name)
    (marker : String) : AnswersAlike a b (scanner marker) 0 front.encode := by
  cases front with
  | inField f =>
    refine (Overlooks.bind (overlooks_readHead a b f) ?_).answersAlike
    intro x
    exact (movable_findMarked x.1 (Text.encode marker) x.2).bind fun name =>
      movable_pure (name.map Text.decodeLossy)
  | inMethod f =>
    obtain ⟨name, hname, hother⟩ := ha
    have hname : f.head.pool.table.text a.name.toNat = .ok name := text_table_eq_ok.2 hname
    have hname' : f.head.pool.table.text b.name.toNat = .ok name := by rw [hb, hname]
    have hhead : ∀ s, readHead ⟨.file, 0, f.head.encode ++ s⟩ =
        .ok ((f.head.pool.table, f.head.methodCount.toNat), ⟨.file, 0 + f.head.encode.length, s⟩) :=
      fun s => reads_readHead.run ⟨f.head, rfl, rfl⟩ s
    have hmethods : AnswersAlike a b
        (findMarked f.head.pool.table (Text.encode marker) f.head.methodCount.toNat)
        (0 + f.head.encode.length) _ :=
      answersAlike_findMarked hname hname' hother f.method f.length_lt _
    exact AnswersAlike.behind hhead (hmethods.map fun name => name.map Text.decodeLossy)

theorem moved_eq_truncated {d o : Nat} {f : Fault} (h : f.moved d = .truncated .file o) :
    ∃ later, f = .truncated .file later ∧ o = later + d := by
  rcases f.isBehindEnd_or with ⟨later, rfl⟩ | hend
  · injection h with _ ho
    exact ⟨later, rfl, ho.symm⟩
  · rw [hend.moved_eq] at h
    exact absurd h (hend o)

/-- With another body in an attribute that is of no interest, a file gets the same answer for every
    marker. Only where the answer is that the file has ended, which can only be said of a place behind
    the attribute, that place is moved by the difference of the lengths. -/
theorem scan_replaceBody (front : Front) (a : Attribute) (hskips : front.Skips a) (body : Bytes)
    (hlt : body.length < 4294967296) (back : Bytes) (marker : String) :
    let b : Attribute := ⟨a.name, body, hlt⟩
    let here := front.encode ++ (a.encode ++ back)
    let there := front.encode ++ (b.encode ++ back)
    (∀ o, scan marker here = .error (.truncated .file o) →
      (front.encode ++ a.encode).length ≤ o ∧ ∃ o', o' + a.body.length = o + body.length ∧
        scan marker there = .error (.truncated .file o')) ∧
    ((∀ o, scan marker here ≠ .error (.truncated .file o)) →
      scan marker there = scan marker here) := by
  intro b here there
  obtain ⟨answer, hhere, hthere⟩ := answersAlike_scanner (b := b) hskips rfl marker back
  have hhere : scan marker here = _ := (scan_eq marker here).trans hhere
  have hthere : scan marker there = _ := (scan_eq marker there).trans hthere
  have hlengths : (front.encode ++ b.encode).length + a.body.length =
      (front.encode ++ a.encode).length + body.length := by
    simp only [Attribute.encode, List.length_append, length_word, length_doubleWord, b]
    omega
  cases answer with
  | ok x =>
    refine ⟨fun o ho => ?_, fun _ => hthere.trans hhere.symm⟩
    rw [hhere] at ho
    cases ho
  | error f =>
    have hhere : scan marker here = .error (f.moved (0 + (front.encode ++ a.encode).length)) := hhere
    have hthere : scan marker there = .error (f.moved (0 + (front.encode ++ b.encode).length)) := hthere
    constructor
    · intro o ho
      rw [hhere] at ho
      obtain ⟨later, rfl, rfl⟩ := moved_eq_truncated (Except.error.inj ho)
      refine ⟨by omega, later + (0 + (front.encode ++ b.encode).length), by omega, hthere⟩
    · intro hnot
      have hend : f.IsBehindEnd := by
        rintro o rfl
        exact hnot _ hhere
      rw [hthere, hhere, hend.moved_eq, hend.moved_eq]

/-- The specimen up to the attribute of its field, which lists the marker. -/
def specimenFront : FieldFront :=
  { specimen.head with
    count := 1
    fields := []
    length_lt := by decide
    field := ⟨0, 1, 1, 1, [], by decide⟩ }

theorem scan_replaceBody_specimen :
    (Front.inField specimenFront).Skips ⟨4, [0, 1, 0, 5, 0, 0], by decide⟩ ∧
      ([0xFF] : Bytes).length < 4294967296 ∧
      scan "T" specimen.encode = .ok (some "T") ∧
      scan "T" (specimenFront.encode ++ ((⟨4, [0xFF], by decide⟩ : Attribute).encode ++
        (word 2 ++ encodeMethods specimen.methods))) = .ok (some "T") := by
  have hskips : (Front.inField specimenFront).Skips ⟨4, [0, 1, 0, 5, 0, 0], by decide⟩ := trivial
  have hlt : ([0xFF] : Bytes).length < 4294967296 := by decide
  have hscan : scan "T" specimen.encode = .ok (some "T") := scan_specimen
  have hfile : specimen.encode = (Front.inField specimenFront).encode ++
      ((⟨4, [0, 1, 0, 5, 0, 0], by decide⟩ : Attribute).encode ++
        (word 2 ++ encodeMethods specimen.methods)) := by
    decide
  have hdecided : ∀ o, scan "T" specimen.encode ≠ .error (.truncated .file o) := by
    intro o h
    rw [hscan] at h
    cases h
  refine ⟨hskips, hlt, hscan, ?_⟩
  rw [hfile] at hdecided hscan
  exact ((scan_replaceBody _ _ hskips [0xFF] hlt _ "T").2 hdecided).trans hscan

end SourceRecovery.ClassFile
