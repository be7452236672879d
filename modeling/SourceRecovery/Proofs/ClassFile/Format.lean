import SourceRecovery.Text.Utf8

/-!
# The class-file format

A class file as data, and the bytes that it is written as. Nothing here reads bytes: the format is
what the readers of class files are compared with.

* `Value`, `Mark`: element values nested to any depth, and the annotations that hold them.
* `Attribute`, `MethodAttribute`: a name and a body framed by its length; of a method's attribute
  the format also says whether the body is a list of annotations.
* `Pool`, `Head`, `File`: the constants in their slots, what stands in front of the methods, and the
  whole.
* `File.firstMarked?` says which method a marker names.
-/

namespace SourceRecovery.ClassFile.Format

/-! ## Numbers and counted lists -/

/-- A number in two bytes, the higher one first. -/
def word (n : Nat) : Bytes :=
  [UInt8.ofNat (n / 256), UInt8.ofNat n]

/-- A number in four bytes, the highest one first. -/
def doubleWord (n : Nat) : Bytes :=
  word (n / 65536) ++ word n

@[simp]
theorem length_word (n : Nat) : (word n).length = 2 := rfl

@[simp]
theorem length_doubleWord (n : Nat) : (doubleWord n).length = 4 := rfl

/-- A list that a count of two bytes can announce. -/
structure Counted (α : Type) where
  items : List α
  length_lt : items.length < 65536

/-- The count of a list, and its items one behind the other. -/
def Counted.encode {α : Type} (each : α → Bytes) (l : Counted α) : Bytes :=
  word l.items.length ++ l.items.flatMap each

/-! ## Element values -/

/-- The element values that are one constant. -/
inductive Literal where
  | byte
  | char
  | double
  | float
  | int
  | long
  | short
  | boolean
  | string
  | classInfo
  deriving DecidableEq, Repr

/-- The letter that announces a constant. -/
def Literal.tag : Literal → UInt8
  | .byte => 0x42
  | .char => 0x43
  | .double => 0x44
  | .float => 0x46
  | .int => 0x49
  | .long => 0x4A
  | .short => 0x53
  | .boolean => 0x5A
  | .string => 0x73
  | .classInfo => 0x63

/-- An element value of an annotation. -/
inductive Value where
  | literal (sort : Literal) (index : UInt16)
  | enumConstant (type name : UInt16)
  | nested (type : UInt16) (pairs : List (UInt16 × Value))
  | array (values : List Value)

mutual

/-- The bytes of an element value: its tag, and what the tag announces. -/
def Value.encode : Value → Bytes
  | .literal sort index => sort.tag :: word index.toNat
  | .enumConstant type name => 0x65 :: (word type.toNat ++ word name.toNat)
  | .nested type pairs => 0x40 :: (word type.toNat ++ (word pairs.length ++ encodePairs pairs))
  | .array values => 0x5B :: (word values.length ++ encodeValues values)

/-- The bytes of element values one behind the other. -/
def encodeValues : List Value → Bytes
  | [] => []
  | v :: vs => v.encode ++ encodeValues vs

/-- The bytes of pairs of an element name and an element value. -/
def encodePairs : List (UInt16 × Value) → Bytes
  | [] => []
  | (name, v) :: ps => word name.toNat ++ v.encode ++ encodePairs ps

end

/-- A pair of an element name and an element value. -/
def encodePair (p : UInt16 × Value) : Bytes :=
  word p.1.toNat ++ p.2.encode

theorem encodeValues_eq (vs : List Value) : encodeValues vs = vs.flatMap Value.encode := by
  induction vs with
  | nil => rfl
  | cons v vs ih => rw [encodeValues, ih, List.flatMap_cons]

theorem encodePairs_eq (ps : List (UInt16 × Value)) : encodePairs ps = ps.flatMap encodePair := by
  induction ps with
  | nil => rfl
  | cons p ps ih => rw [encodePairs, ih, List.flatMap_cons, encodePair]

/-- Whether every list in an element value that is nested at most `depth` deep can be counted. -/
def Value.FitsWithin : Nat → Value → Prop
  | 0, _ => False
  | _ + 1, .literal _ _ => True
  | _ + 1, .enumConstant _ _ => True
  | depth + 1, .nested _ pairs => pairs.length < 65536 ∧ ∀ p ∈ pairs, p.2.FitsWithin depth
  | depth + 1, .array values => values.length < 65536 ∧ ∀ v ∈ values, v.FitsWithin depth

instance Value.decidableFitsWithin : (depth : Nat) → (v : Value) → Decidable (v.FitsWithin depth)
  | 0, _ => inferInstanceAs (Decidable False)
  | _ + 1, .literal _ _ => inferInstanceAs (Decidable True)
  | _ + 1, .enumConstant _ _ => inferInstanceAs (Decidable True)
  | depth + 1, .nested _ pairs =>
    have := decidableFitsWithin depth
    inferInstanceAs (Decidable (pairs.length < 65536 ∧ ∀ p ∈ pairs, p.2.FitsWithin depth))
  | depth + 1, .array values =>
    have := decidableFitsWithin depth
    inferInstanceAs (Decidable (values.length < 65536 ∧ ∀ v ∈ values, v.FitsWithin depth))

/-- Whether every list in an element value can be counted. -/
def Value.Fits (v : Value) : Prop :=
  ∃ depth, v.FitsWithin depth

/-- An annotation: its type, and pairs of an element name and an element value. -/
structure Mark where
  type : UInt16
  pairs : Counted (UInt16 × Value)
  fits : ∀ p ∈ pairs.items, p.2.Fits

def Mark.encode (a : Mark) : Bytes :=
  word a.type.toNat ++ a.pairs.encode encodePair

/-! ## Attributes, fields and methods -/

/-- A name and a body framed by its length. -/
structure Attribute where
  name : UInt16
  body : Bytes
  length_lt : body.length < 4294967296

def Attribute.encode (a : Attribute) : Bytes :=
  word a.name.toNat ++ (doubleWord a.body.length ++ a.body)

/-- What stands in an attribute of a method. -/
inductive Content where
  /-- Annotations, and bytes behind them that belong to nothing. -/
  | marks (annotations : Counted Mark) (slack : Bytes)
  | other (bytes : Bytes)

def Content.encode : Content → Bytes
  | .marks annotations slack => annotations.encode Mark.encode ++ slack
  | .other bytes => bytes

/-- An attribute of a method. -/
structure MethodAttribute where
  name : UInt16
  content : Content
  length_lt : content.encode.length < 4294967296

/-- The attribute without what is known of its body. -/
def MethodAttribute.framed (a : MethodAttribute) : Attribute :=
  ⟨a.name, a.content.encode, a.length_lt⟩

def MethodAttribute.encode (a : MethodAttribute) : Bytes :=
  a.framed.encode

/-- A field or a method, with attributes of its kind. -/
structure Member (α : Type) where
  flags : UInt16
  name : UInt16
  type : UInt16
  attributes : Counted α

def Member.encode {α : Type} (each : α → Bytes) (m : Member α) : Bytes :=
  word m.flags.toNat ++ (word m.name.toNat ++ (word m.type.toNat ++ m.attributes.encode each))

abbrev Field := Member Attribute
abbrev Method := Member MethodAttribute

/-- The method without what is known of the bodies of its attributes. -/
def Member.framed (m : Method) : Member Attribute :=
  ⟨m.flags, m.name, m.type, m.attributes.items.map MethodAttribute.framed,
    by rw [List.length_map]; exact m.attributes.length_lt⟩

/-! ## Constants -/

/-- The constants that are no texts. -/
inductive ConstantSort where
  | integer
  | float
  | long
  | double
  | classInfo
  | string
  | fieldRef
  | methodRef
  | interfaceMethodRef
  | nameAndType
  | methodHandle
  | methodType
  | dynamic
  | invokeDynamic
  | moduleInfo
  | packageInfo
  deriving DecidableEq, Repr

/-- The number that announces a constant. -/
def ConstantSort.tag : ConstantSort → UInt8
  | .integer => 3
  | .float => 4
  | .long => 5
  | .double => 6
  | .classInfo => 7
  | .string => 8
  | .fieldRef => 9
  | .methodRef => 10
  | .interfaceMethodRef => 11
  | .nameAndType => 12
  | .methodHandle => 15
  | .methodType => 16
  | .dynamic => 17
  | .invokeDynamic => 18
  | .moduleInfo => 19
  | .packageInfo => 20

/-- The number of bytes behind the tag. -/
def ConstantSort.width : ConstantSort → Nat
  | .long | .double => 8
  | .integer | .float | .fieldRef | .methodRef | .interfaceMethodRef | .nameAndType | .dynamic
  | .invokeDynamic => 4
  | .methodHandle => 3
  | .classInfo | .string | .methodType | .moduleInfo | .packageInfo => 2

/-- Whether a constant takes a second slot. -/
def ConstantSort.isWide : ConstantSort → Bool
  | .long | .double => true
  | _ => false

/-- An entry of the constant pool. -/
inductive Constant where
  | text (bytes : Bytes) (length_lt : bytes.length < 65536)
  | other (sort : ConstantSort) (payload : Bytes) (length_eq : payload.length = sort.width)

def Constant.encode : Constant → Bytes
  | .text bytes _ => 1 :: (word bytes.length ++ bytes)
  | .other sort payload _ => sort.tag :: payload

/-- The slots that a constant takes, each with the text that it names. -/
def Constant.slots : Constant → List (Option Bytes)
  | .text bytes _ => [some bytes]
  | .other sort _ _ => if sort.isWide then [none, none] else [none]

/-- A constant pool. Its count is one more than its slots, but a constant of two slots at the end may
    reach one slot too far. -/
structure Pool where
  count : UInt16
  constants : List Constant
  /-- Every constant begins below the count. -/
  begins_lt : ∀ front c, front ++ [c] <+: constants →
    1 + (front.flatMap Constant.slots).length < count.toNat
  /-- The constants reach the count. -/
  count_le : count.toNat ≤ 1 + (constants.flatMap Constant.slots).length

def Pool.encode (p : Pool) : Bytes :=
  word p.count.toNat ++ p.constants.flatMap Constant.encode

/-- The text that an index names. Slot 0 and the second slot of a constant name nothing. -/
def Pool.text? (p : Pool) (index : UInt16) : Option Bytes :=
  ((none :: p.constants.flatMap Constant.slots)[index.toNat]?).join

/-! ## Files -/

/-- The number that a class file begins with. -/
def signature : Bytes := [0xCA, 0xFE, 0xBA, 0xBE]

/-- What stands in front of the methods. -/
structure Head where
  minor : UInt16
  major : UInt16
  pool : Pool
  flags : UInt16
  this : UInt16
  super : UInt16
  interfaces : Counted UInt16
  fields : Counted Field
  methodCount : UInt16

def Head.encode (h : Head) : Bytes :=
  signature ++ (word h.minor.toNat ++ (word h.major.toNat ++ (h.pool.encode ++
    (word h.flags.toNat ++ (word h.this.toNat ++ (word h.super.toNat ++
      (h.interfaces.encode (fun i => word i.toNat) ++
        (h.fields.encode (Member.encode Attribute.encode) ++ word h.methodCount.toNat))))))))

/-- The bytes of methods one behind the other. -/
def encodeMethods (methods : List Method) : Bytes :=
  methods.flatMap (Member.encode MethodAttribute.encode)

/-- A class file up to the end of its methods. -/
structure File where
  head : Head
  methods : List Method
  length_eq : methods.length = head.methodCount.toNat

def File.encode (f : File) : Bytes :=
  f.head.encode ++ encodeMethods f.methods

/-! ## Names and marks -/

/-- The names of the attributes that hold annotations of the method itself. -/
def ListsMarks (name : Bytes) : Prop :=
  name = Text.encode "RuntimeVisibleAnnotations" ∨ name = Text.encode "RuntimeInvisibleAnnotations"

/-- Whether an index names a text. -/
def Pool.Names (p : Pool) (index : UInt16) : Prop :=
  ∃ text, p.text? index = some text

/-- Whether a content is what the name of its attribute says, and its annotations have names. -/
def Content.Suits (p : Pool) (name : Bytes) : Content → Prop
  | .marks annotations _ => ListsMarks name ∧ ∀ n ∈ annotations.items, p.Names n.type
  | .other _ => ¬ ListsMarks name

/-- Whether an attribute of a method has a name, and its content is what the name says. -/
def MethodAttribute.Valid (p : Pool) (a : MethodAttribute) : Prop :=
  ∃ name, p.text? a.name = some name ∧ a.content.Suits p name

/-- Whether a method, its attributes and its annotations all have names. -/
def Member.Valid (p : Pool) (m : Method) : Prop :=
  p.Names m.name ∧ ∀ a ∈ m.attributes.items, a.Valid p

instance (name : Bytes) : Decidable (ListsMarks name) :=
  inferInstanceAs (Decidable (_ ∨ _))

instance (p : Pool) (index : UInt16) : Decidable (p.Names index) :=
  decidable_of_iff ((p.text? index).isSome = true) Option.isSome_iff_exists

instance (p : Pool) (name : Bytes) : (content : Content) → Decidable (content.Suits p name)
  | .marks annotations _ =>
    inferInstanceAs (Decidable (ListsMarks name ∧ ∀ n ∈ annotations.items, p.Names n.type))
  | .other _ => inferInstanceAs (Decidable (¬ ListsMarks name))

instance (p : Pool) (a : MethodAttribute) : Decidable (a.Valid p) :=
  match h : p.text? a.name with
  | none => .isFalse fun ⟨name, hname, _⟩ => by
    rw [h] at hname
    cases hname
  | some name => decidable_of_iff (a.content.Suits p name) ⟨fun hsuits => ⟨name, h, hsuits⟩,
    fun ⟨name', hname, hsuits⟩ => Option.some.inj (h.symm.trans hname) ▸ hsuits⟩

instance (p : Pool) (m : Method) : Decidable (Member.Valid p m) :=
  inferInstanceAs (Decidable (_ ∧ _))

/-- Whether an attribute lists an annotation of the type `marker`. -/
def MethodAttribute.carries (p : Pool) (marker : Bytes) (a : MethodAttribute) : Bool :=
  match a.content with
  | .marks annotations _ => annotations.items.any fun n => p.text? n.type == some marker
  | .other _ => false

/-- Whether a method carries an annotation of the type `marker`. -/
def Member.carries (p : Pool) (marker : Bytes) (m : Method) : Bool :=
  m.attributes.items.any fun a => a.carries p marker

/-- Whether an attribute lists annotations of other types up to one of the type `marker`. Of what
    follows that type nothing is said. -/
def Attribute.Marked (p : Pool) (marker : Bytes) (a : Attribute) : Prop :=
  ∃ (name : Bytes) (count : Nat) (front : List Mark) (type : UInt16) (slack : Bytes),
    p.text? a.name = some name ∧ ListsMarks name ∧ count < 65536 ∧ front.length < count ∧
    (∀ n ∈ front, p.Names n.type ∧ p.text? n.type ≠ some marker) ∧ p.text? type = some marker ∧
    a.body = word count ++ (front.flatMap Mark.encode ++ (word type.toNat ++ slack))

/-- Whether the attributes of a method are valid up to one that lists an annotation of the type
    `marker`, and those behind it have names. -/
def Member.Marked (p : Pool) (marker : Bytes) (m : Member Attribute) : Prop :=
  ∃ (front : List MethodAttribute) (hit : Attribute) (back : List Attribute),
    m.attributes.items = front.map MethodAttribute.framed ++ hit :: back ∧
    (∀ a ∈ front, a.Valid p ∧ a.carries p marker = false) ∧ hit.Marked p marker ∧
    ∀ a ∈ back, p.Names a.name

/-- The name of the first method that carries an annotation of the type `marker`. -/
def File.firstMarked? (f : File) (marker : Bytes) : Option Bytes :=
  (f.methods.find? fun m => m.carries f.head.pool marker).bind fun m => f.head.pool.text? m.name

end SourceRecovery.ClassFile.Format
