import OpenMusicPlayer.Uuid

/-!
# The derived decoders of the catalog models

`response.json::<T>()` reads a body with serde_json into a catalog model `T`
whose `Deserialize` is derived. A `Shape` is a Rust type as the derive sees it:
a string, a bool, an unsigned integer, a `Uuid`, an `Option`, a `Vec`, or a
struct with its fields under their wire names, each marked or not
`#[serde(default)]`. `deserialize` is what the derived visitors and
serde_json do with a JSON value: a struct is read from an object by the
`visit_map` loop, or from an array by `visit_seq`. `serialize` is what the
derived `Serialize` writes.
-/

namespace OpenMusicPlayer

inductive Number where
  | posInt (n : UInt64)
  | negInt (n : Int)
  | float (x : Float)

inductive Json where
  | null
  | bool (b : Bool)
  | number (n : Number)
  | string (s : String)
  | array (xs : List Json)
  | object (kvs : List (String × Json))

/-- serde's errors, with the field names and lengths they carry; the
expected-type texts and serde_json's positions are left out. -/
inductive DeError where
  | invalidType
  | invalidValue
  | invalidLength (len : Nat)
  | missingField (field : String)
  | duplicateField (field : String)
  | invalidUuid
  | trailingCharacters
  deriving DecidableEq, Repr

/-- A struct field: its name on the wire (after `rename`), its type, and
whether it is `#[serde(default)]`. -/
structure FieldDef (σ : Type) where
  key : String
  shape : σ
  default : Bool

inductive Shape where
  | string
  | bool
  | u8
  | u32
  | u64
  | uuid
  | option (s : Shape)
  | vec (s : Shape)
  | struct (fields : List (FieldDef Shape))

inductive Val where
  | string (s : String)
  | bool (b : Bool)
  | nat (n : Nat)
  | uuid (u : Uuid)
  | none
  | some (v : Val)
  | list (vs : List Val)
  | struct (vs : List Val)

def Shape.isOption : Shape → Bool
  | .option _ => true
  | _ => false

mutual
def Shape.defaultVal : Shape → Val
  | .string => .string ""
  | .bool => .bool false
  | .u8 | .u32 | .u64 => .nat 0
  | .uuid => .uuid ⟨List.replicate 16 0, rfl⟩
  | .option _ => .none
  | .vec _ => .list []
  | .struct fs => .struct (defaults fs)
def defaults : List (FieldDef Shape) → List Val
  | [] => []
  | f :: fs => f.shape.defaultVal :: defaults fs
end

/-! ## Scalars -/

def readString : Json → Except DeError Val
  | .string s => .ok (.string s)
  | _ => .error .invalidType

def readBool : Json → Except DeError Val
  | .bool b => .ok (.bool b)
  | _ => .error .invalidType

def readUnsigned (max : Nat) : Json → Except DeError Val
  | .number (.posInt n) => if n.toNat ≤ max then .ok (.nat n.toNat) else .error .invalidValue
  | .number (.negInt n) => if 0 ≤ n ∧ n ≤ max then .ok (.nat n.toNat) else .error .invalidValue
  | _ => .error .invalidType

def readUuid : Json → Except DeError Val
  | .string s =>
    match Uuid.parseStr s with
    | some u => .ok (.uuid u)
    | none => .error .invalidUuid
  | _ => .error .invalidType

/-! ## The struct visitors -/

structure FieldReader where
  field : FieldDef Shape
  read : Json → Except DeError Val

def FieldReader.absent (r : FieldReader) : Except DeError Val :=
  if r.field.default then .ok r.field.shape.defaultVal
  else if r.field.shape.isOption then .ok .none
  else .error (.missingField r.field.key)

/-- One entry of an object, in the `visit_map` loop: the first field named `k`
reads the value, unless it already has one; a key that names no field is
skipped. -/
def fill (k : String) (j : Json) :
    List (FieldReader × Option Val) → Except DeError (List (FieldReader × Option Val))
  | [] => .ok []
  | (r, got) :: rest =>
    if r.field.key = k then
      match got with
      | some _ => .error (.duplicateField k)
      | none => do
        let v ← r.read j
        pure ((r, some v) :: rest)
    else do
      let rest ← fill k j rest
      pure ((r, got) :: rest)

def visitMap (slots : List (FieldReader × Option Val)) :
    List (String × Json) → Except DeError (List (FieldReader × Option Val))
  | [] => .ok slots
  | (k, j) :: kvs => do
    let slots ← fill k j slots
    visitMap slots kvs

def FieldReader.close (r : FieldReader) : Option Val → Except DeError Val
  | some v => .ok v
  | none => r.absent

def finish (slots : List (FieldReader × Option Val)) : Except DeError (List Val) :=
  slots.mapM fun x => x.1.close x.2

/-- `visit_seq`: the fields in declaration order from the array's elements; a
field past the end is its default or `invalid_length`, and serde_json rejects
elements left over. -/
def visitSeq : List FieldReader → Nat → List Json → Except DeError (List Val)
  | [], _, [] => .ok []
  | [], _, _ :: _ => .error .trailingCharacters
  | r :: rs, i, [] =>
    if r.field.default then (r.field.shape.defaultVal :: ·) <$> visitSeq rs (i + 1) []
    else .error (.invalidLength i)
  | r :: rs, i, j :: js => do
    let v ← r.read j
    let vs ← visitSeq rs (i + 1) js
    pure (v :: vs)

mutual
/-- `T::deserialize` on serde_json's deserializer, for the shape of `T`. -/
def deserialize : Shape → Json → Except DeError Val
  | .string, j => readString j
  | .bool, j => readBool j
  | .u8, j => readUnsigned 255 j
  | .u32, j => readUnsigned 4294967295 j
  | .u64, j => readUnsigned 18446744073709551615 j
  | .uuid, j => readUuid j
  | .option _, .null => .ok .none
  | .option s, j => .some <$> deserialize s j
  | .vec s, .array xs => .list <$> xs.mapM (deserialize s)
  | .vec _, _ => .error .invalidType
  | .struct fs, .object kvs => do
    let slots ← visitMap ((readers fs).map (·, none)) kvs
    .struct <$> finish slots
  | .struct fs, .array xs => .struct <$> visitSeq (readers fs) 0 xs
  | .struct _, _ => .error .invalidType
def readers : List (FieldDef Shape) → List FieldReader
  | [] => []
  | f :: fs => ⟨f, deserialize f.shape⟩ :: readers fs
end

/-! ## Writing -/

mutual
/-- The derived `Serialize`, as serde_json writes it: a struct as an object of
all its fields in declaration order, `None` as `null`, a `Uuid` hyphenated. -/
def serialize : Shape → Val → Json
  | .string, .string s => .string s
  | .bool, .bool b => .bool b
  | .u8, .nat n | .u32, .nat n | .u64, .nat n => .number (.posInt n.toUInt64)
  | .uuid, .uuid u => .string u.hyphenated
  | .option _, .none => .null
  | .option s, .some v => serialize s v
  | .vec s, .list vs => .array (vs.map (serialize s))
  | .struct fs, .struct vs => .object (serializeFields fs vs)
  | _, _ => .null
def serializeFields : List (FieldDef Shape) → List Val → List (String × Json)
  | f :: fs, v :: vs => (f.key, serialize f.shape v) :: serializeFields fs vs
  | _, _ => []
end

/-! ## Values of a shape -/

mutual
def Shape.fits : Shape → Val → Bool
  | .string, .string _ => true
  | .bool, .bool _ => true
  | .u8, .nat n => decide (n ≤ 255)
  | .u32, .nat n => decide (n ≤ 4294967295)
  | .u64, .nat n => decide (n ≤ 18446744073709551615)
  | .uuid, .uuid _ => true
  | .option _, .none => true
  | .option s, .some v => s.fits v
  | .vec s, .list vs => vs.all s.fits
  | .struct fs, .struct vs => fitsFields fs vs
  | _, _ => false
def fitsFields : List (FieldDef Shape) → List Val → Bool
  | [], [] => true
  | f :: fs, v :: vs => f.shape.fits v && fitsFields fs vs
  | _, _ => false
end

mutual
/-- Every struct's wire names are distinct, and no `Option` holds an `Option`. -/
def Shape.wf : Shape → Bool
  | .option s => !s.isOption && s.wf
  | .vec s => s.wf
  | .struct fs => decide (fs.map FieldDef.key).Nodup && fieldsWf fs
  | _ => true
def fieldsWf : List (FieldDef Shape) → Bool
  | [] => true
  | f :: fs => f.shape.wf && fieldsWf fs
end

end OpenMusicPlayer
