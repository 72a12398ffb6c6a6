import Uavcan.Marshal.Array

/-!
# Data types

The types that a DSDL definition can build from integers: arrays, structures and unions in any nesting.
`Value` is the C++ type of the objects, and `spec` the class that the templates and the DSDL compiler make.
-/

namespace Uavcan

mutual

inductive DataType : Type where
  | integer (spec : IntegerSpec)
  /-- A void field of a structure. -/
  | void (bitLen : ℕ) (positive : 0 < bitLen) (bitLen_le : bitLen ≤ 64)
  | array (item : DataType) (mode : ArrayMode) (maxSize : ArraySize)
  /-- A structure without fields. -/
  | empty
  | struct (fields : Fields)
  | union {n : ℕ} (alternatives : Alternatives n) (few : n < 2 ^ 32)

/-- The fields of a structure, of which there is at least one. -/
inductive Fields : Type where
  | last (t : DataType)
  | cons (t : DataType) (rest : Fields)

/-- The alternatives of a union, of which there is at least one. -/
inductive Alternatives : ℕ → Type where
  | last (t : DataType) : Alternatives 1
  | cons {n : ℕ} (t : DataType) (rest : Alternatives n) : Alternatives (n + 1)

end

theorem Alternatives.pos {n : ℕ} (alternatives : Alternatives n) : 0 < n := by
  cases alternatives with
  | last => exact Nat.one_pos
  | cons => exact Nat.succ_pos _

/-- `TagType` of a union. -/
def Alternatives.tagType {n : ℕ} (alternatives : Alternatives n) (few : n < 2 ^ 32) : IntegerSpec :=
  .upTo n .truncate alternatives.pos few

/-- The type of a void field. -/
def IntegerSpec.void (bitLen : ℕ) (positive : 0 < bitLen) (bitLen_le : bitLen ≤ 64) : IntegerSpec :=
  ⟨bitLen, .unsigned, .saturate, positive, bitLen_le, nofun⟩

mutual

def DataType.Value : DataType → Type
  | .integer spec => spec.StorageType
  | .void .. => Unit
  | .array item _ _ => List item.Value
  | .empty => Unit
  | .struct fields => fields.Value
  | .union alternatives few => (alternatives.tagType few).StorageType × alternatives.Value

def Fields.Value : Fields → Type
  | .last t => t.Value
  | .cons t rest => t.Value × rest.Value

def Alternatives.Value : {n : ℕ} → Alternatives n → Type
  | _, .last t => t.Value
  | _, .cons t rest => t.Value × rest.Value

end

mutual

def DataType.spec : (t : DataType) → TypeSpec t.Value
  | .integer spec => spec.toTypeSpec
  | .void bitLen positive bitLen_le => (IntegerSpec.void bitLen positive bitLen_le).toVoidSpec
  | .array item mode maxSize => item.spec.array mode maxSize
  | .empty => .empty
  | .struct fields => fields.spec
  | .union alternatives few => .union (alternatives.tagType few) alternatives.spec

def Fields.spec : (fields : Fields) → TypeSpec fields.Value
  | .last t => t.spec
  | .cons t rest => t.spec.field rest.spec

def Alternatives.spec : {n : ℕ} → (alternatives : Alternatives n) → AlternativesSpec alternatives.Value
  | _, .last t => .last t.spec
  | _, .cons t rest => .cons t.spec rest.spec

end

/-- `BitLenToByteLen`. -/
def bitLenToByteLen (bitLen : ℕ) : ℕ := (bitLen + 7) / 8

namespace DataType

variable (t : DataType)

/-- Encodes into an empty buffer, with the default mode; the result and the stream then. -/
def encode (value : t.Value) (buf : StaticTransferBuffer) : ℤ × BitStream :=
  t.spec.encode value (BitStream.init buf) .enabled

/-- Decodes the contents of a buffer into an object, with the default mode. -/
def decode (object : t.Value) (buf : StaticTransferBuffer) : Option (ℤ × t.Value × BitStream) :=
  t.spec.decode object (BitStream.init buf) .enabled

/-! ## A type with every construction -/

/-- A signed field, a void field, a union of a byte and a static array, and a dynamic array. -/
def sampleType : DataType :=
  .struct (.cons (.integer ⟨5, .signed, .saturate, by decide, by decide, by decide⟩)
    (.cons (.void 3 (by decide) (by decide))
      (.cons
        (.union (.cons (.integer ⟨8, .unsigned, .truncate, by decide, by decide, nofun⟩)
          (.last (.array (.integer ⟨11, .signed, .truncate, by decide, by decide, by decide⟩) .static
            ⟨2, by decide, by decide⟩))) (by decide))
        (.last (.array (.integer ⟨16, .unsigned, .saturate, by decide, by decide, nofun⟩) .dynamic
          ⟨3, by decide, by decide⟩)))))

/-- The second alternative of the union, and two items. -/
def sampleValue : sampleType.Value :=
  ((-7 : BitVec 8), (), ((1 : BitVec 8), (0 : BitVec 8), ([-1024, 5] : List (BitVec 16))),
    ([0xABCD, 3] : List (BitVec 16)))

end DataType

end Uavcan
