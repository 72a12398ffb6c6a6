import Uavcan.Marshal.IntegerSpec

/-!
# Type specifications

The marshalling templates are instantiated with classes that provide `encode`, `decode`, the limits of the
encoded length and the operations of the stored value: a `TypeSpec V` for values of type `V`. A structure is
built from the specifications of its fields, and a union from those of its alternatives, as the DSDL compiler
generates them.

An encoder returns the result code and the stream. A decoder writes into an existing object, so it also
returns the object. It has no result (`none`) if it never returns: an array was accessed out of its range, or
a loop went on for longer than its model runs it.
-/

namespace Uavcan

/-- `ErrInvalidMarshalData`. -/
def errInvalidMarshalData : ℤ := 6

/-- `MinBitLen` and `MaxBitLen` are unsigned numbers of 32 bits, and so are the sums and products that they are computed
with. -/
structure TypeSpec (V : Type) where
  minBitLen : UInt32
  maxBitLen : UInt32
  /-- `MaxBitLen` without a limit: the length of the longest encoding. -/
  longest : ℕ
  /-- The value-initialized object. -/
  init : V
  /-- `operator==`. -/
  equals : V → V → Bool
  /-- The object can exist: every array in it has a size that its type allows. -/
  sized : V → Bool
  /-- Every integer is between the limits of its field, and every union has a valid tag. -/
  inRange : V → Bool
  encode : V → BitStream → TailArrayOptimizationMode → ℤ × BitStream
  decode : V → BitStream → TailArrayOptimizationMode → Option (ℤ × V × BitStream)

namespace IntegerSpec

def toTypeSpec (spec : IntegerSpec) : TypeSpec spec.StorageType where
  minBitLen := .ofNat spec.bitLen
  maxBitLen := .ofNat spec.bitLen
  longest := spec.bitLen
  init := 0#_
  equals a b := a == b
  sized _ := true
  inRange := spec.inRange
  encode := spec.encode
  decode value stream mode := some (spec.decode value stream mode)

/-- A void field has no object; the generated code writes a local zero and reads into a local variable. -/
def toVoidSpec (spec : IntegerSpec) : TypeSpec Unit where
  minBitLen := .ofNat spec.bitLen
  maxBitLen := .ofNat spec.bitLen
  longest := spec.bitLen
  init := ()
  equals _ _ := true
  sized _ := true
  inRange _ := true
  encode _ stream mode := spec.encode 0#_ stream mode
  decode _ stream mode :=
    let (res, _, stream) := spec.decode 0#_ stream mode
    some (res, (), stream)

end IntegerSpec

namespace TypeSpec

variable {V W : Type}

/-- A structure without fields. -/
def empty : TypeSpec Unit where
  minBitLen := 0
  maxBitLen := 0
  longest := 0
  init := ()
  equals _ _ := true
  sized _ := true
  inRange _ := true
  encode _ stream _ := (1, stream)
  decode _ stream _ := some (1, (), stream)

/-- A field and the rest of the structure; only the last field may be optimized. -/
def field (first : TypeSpec V) (rest : TypeSpec W) : TypeSpec (V × W) where
  minBitLen := first.minBitLen + rest.minBitLen
  maxBitLen := first.maxBitLen + rest.maxBitLen
  longest := first.longest + rest.longest
  init := (first.init, rest.init)
  equals a b := first.equals a.1 b.1 && rest.equals a.2 b.2
  sized value := first.sized value.1 && rest.sized value.2
  inRange value := first.inRange value.1 && rest.inRange value.2
  encode value stream mode :=
    let (res, stream) := first.encode value.1 stream .disabled
    if res ≤ 0 then (res, stream) else rest.encode value.2 stream mode
  decode value stream mode :=
    (first.decode value.1 stream .disabled).bind fun (res, v, stream) =>
      if res ≤ 0 then some (res, (v, value.2), stream)
      else
        (rest.decode value.2 stream mode).map fun (res, w, stream) => (res, (v, w), stream)

end TypeSpec

/-- `EnumMin`. -/
def enumMin (a b : UInt32) : UInt32 := if a < b then a else b

/-- `EnumMax`. -/
def enumMax (a b : UInt32) : UInt32 := if a > b then a else b

/-- The alternatives of a union from some index on.  The functions get the index of the first one and the
tag; all alternatives are stored side by side. -/
structure AlternativesSpec (V : Type) where
  minBitLen : UInt32
  maxBitLen : UInt32
  longest : ℕ
  init : V
  equals : ℕ → ℕ → V → V → Bool
  sized : V → Bool
  inRange : ℕ → ℕ → V → Bool
  encode : ℕ → ℕ → V → BitStream → TailArrayOptimizationMode → ℤ × BitStream
  decode : ℕ → ℕ → V → BitStream → TailArrayOptimizationMode → Option (ℤ × V × BitStream)

namespace AlternativesSpec

variable {V W : Type}

def last (spec : TypeSpec V) : AlternativesSpec V where
  minBitLen := spec.minBitLen
  maxBitLen := spec.maxBitLen
  longest := spec.longest
  init := spec.init
  equals idx tag a b := if tag = idx then spec.equals a b else false
  sized := spec.sized
  inRange idx tag value := if tag = idx then spec.inRange value else false
  encode idx tag value stream mode := if tag = idx then spec.encode value stream mode else (-1, stream)
  decode idx tag value stream mode :=
    if tag = idx then spec.decode value stream mode else some (-1, value, stream)

def cons (first : TypeSpec V) (rest : AlternativesSpec W) : AlternativesSpec (V × W) where
  minBitLen := enumMin first.minBitLen rest.minBitLen
  maxBitLen := enumMax first.maxBitLen rest.maxBitLen
  longest := max first.longest rest.longest
  init := (first.init, rest.init)
  equals idx tag a b := if tag = idx then first.equals a.1 b.1 else rest.equals (idx + 1) tag a.2 b.2
  sized value := first.sized value.1 && rest.sized value.2
  inRange idx tag value :=
    if tag = idx then first.inRange value.1 else rest.inRange (idx + 1) tag value.2
  encode idx tag value stream mode :=
    if tag = idx then first.encode value.1 stream mode else rest.encode (idx + 1) tag value.2 stream mode
  decode idx tag value stream mode :=
    if tag = idx then
      (first.decode value.1 stream mode).map fun (res, v, stream) => (res, (v, value.2), stream)
    else
      (rest.decode (idx + 1) tag value.2 stream mode).map fun (res, w, stream) =>
        (res, (value.1, w), stream)

end AlternativesSpec

/-- A union: the tag, then the alternative that it selects. -/
def TypeSpec.union {V : Type} (tagType : IntegerSpec) (alternatives : AlternativesSpec V) :
    TypeSpec (tagType.StorageType × V) where
  minBitLen := .ofNat tagType.bitLen + alternatives.minBitLen
  maxBitLen := .ofNat tagType.bitLen + alternatives.maxBitLen
  longest := tagType.bitLen + alternatives.longest
  init := (0#_, alternatives.init)
  equals a b := if a.1 ≠ b.1 then false else alternatives.equals 0 a.1.toNat a.2 b.2
  sized value := alternatives.sized value.2
  inRange value := alternatives.inRange 0 value.1.toNat value.2
  encode value stream mode :=
    let (res, stream) := tagType.encode value.1 stream .disabled
    if res ≤ 0 then (res, stream) else alternatives.encode 0 value.1.toNat value.2 stream mode
  decode value stream mode :=
    let (res, tag, stream) := tagType.decode value.1 stream .disabled
    if res ≤ 0 then some (res, (tag, value.2), stream)
    else
      (alternatives.decode 0 tag.toNat value.2 stream mode).map fun (res, v, stream) =>
        (res, (tag, v), stream)

end Uavcan
